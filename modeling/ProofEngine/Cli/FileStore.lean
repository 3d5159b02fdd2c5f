import ProofEngine.Cli.Input
import ProofEngine.Lib.WriteOnce
import ProofEngine.Verify.Descendants

/-! # Artifacts in a directory

One file for each artifact, named by its id.  Ids that could leave the directory are refused; the ids under which
proofs refer to each other never could.  A directory that nobody else writes is a table that is written once, as the
store in memory is, so the two are told apart by nothing a proof can refer to. -/

namespace ProofEngine

open Text WriteOnce

/-! ## The store -/

/-- A file name under a directory. -/
def joinPath (dir name : String) : String :=
  if dir.isEmpty || dir.toList.getLast? == some '/' then dir ++ name else dir ++ ("/" ++ name)

/-- The id names a file of the directory itself. -/
def safeId (id : String) : Bool := !(id.isEmpty || contains id "/" || contains id "\\" || contains id "..")

structure FileStore where
  dir : String
  /-- How messages quote a text. -/
  quoted : String → String

namespace FileStore

variable (store : FileStore)

def path (id : String) : Except String String :=
  if safeId id then .ok (joinPath store.dir (id ++ ".cbor")) else .error ("store refuses unsafe id " ++ store.quoted id)

/-- Bytes are written once; the same bytes are accepted again. -/
def put (id : String) (cbor : Bytes) : Command Unit := fun world =>
  if cbor.isEmpty then .error "store put requires non-empty bytes" world
  else
    match store.path id with
    | .error message => .error message world
    | .ok path =>
      match world.files path with
      | .ok previous =>
        if previous ≠ cbor then .error ("store conflict: " ++ id ++ " already held with different bytes") world
        else .ok () world
      | .error failure =>
        if failure.notFound then
          match world.writeError path with
          | some reason => .error ("store write " ++ path ++ ": " ++ reason) world
          | none => .ok () { world with files := Function.update world.files path (.ok cbor) }
        else .error ("store read " ++ path ++ ": " ++ failure.text) world

/-- The reading side of the store in this world. -/
def get (world : World) : ArtifactStore := fun id => do
  let path ← store.path id
  match world.files path with
  | .ok bytes => .ok (some bytes)
  | .error failure =>
    if failure.notFound then .ok none else .error ("store read " ++ path ++ ": " ++ failure.text)

end FileStore

/-! ## Ids that name files -/

theorem mem_alphabet_encode {bytes : Bytes} {char : Char} (member : char ∈ (Base64Url.encode bytes).toList) :
    char ∈ Base64Url.alphabet := by
  rw [Base64Url.encode, String.toList_ofList] at member
  obtain ⟨sextet, inside, rfl⟩ := List.mem_map.mp member
  have small : sextet < Base64Url.alphabet.length := Base64Url.toSextets_lt bytes sextet inside
  rw [Base64Url.symbol, List.getD_eq_getElem?_getD, List.getElem?_eq_getElem small]
  exact List.getElem_mem small

theorem contains_eq_false {text part : String} {char : Char} (inside : char ∈ part.toList)
    (absent : char ∉ text.toList) : contains text part = false :=
  decide_eq_false fun infixed => absent (infixed.subset inside)

/-- The ids under which proofs refer to each other. -/
def IsReference (id : String) : Prop := checkReferenceShape id = .ok ()

theorem IsReference.safe {id : String} (reference : IsReference id) : safeId id = true := by
  rw [IsReference, checkReferenceShape] at reference
  cases stripped : strip id "prf:v1:" with
  | none =>
    simp only [stripped] at reference
    cases reference
  | some rest =>
    simp only [stripped] at reference
    cases decoded : Base64Url.decode rest with
    | none =>
      simp only [decoded] at reference
      cases reference
    | some raw =>
      have spelled := Base64Url.decode_eq_some.mp decoded
      have named := strip_eq_some stripped
      have chars : ∀ char ∈ id.toList, char ∈ ("prf:v1:".toList ++ Base64Url.alphabet) := by
        intro char member
        rw [named, String.toList_append] at member
        rcases List.mem_append.mp member with lead | member
        · exact List.mem_append_left _ lead
        · rw [← spelled] at member
          exact List.mem_append_right _ (mem_alphabet_encode member)
      have slash : '/' ∉ id.toList := fun member => absurd (chars _ member) (by decide +kernel)
      have backslash : '\\' ∉ id.toList := fun member => absurd (chars _ member) (by decide +kernel)
      have dot : '.' ∉ id.toList := fun member => absurd (chars _ member) (by decide +kernel)
      have filled : id.isEmpty = false := by
        rw [named, Bool.eq_false_iff, ne_eq, String.isEmpty_iff]
        intro empty
        have chars := congrArg String.toList empty
        rw [String.toList_append] at chars
        exact absurd (List.append_eq_nil_iff.mp chars).1 (by decide +kernel)
      rw [safeId, filled, contains_eq_false (by decide +kernel) slash, contains_eq_false (by decide +kernel) backslash,
        contains_eq_false (by decide +kernel) dot]
      rfl

theorem joinPath_injective (dir : String) : Function.Injective (joinPath dir) := by
  intro left right same
  unfold joinPath at same
  split at same
  · exact string_append_right_inj same
  · exact string_append_right_inj (string_append_right_inj same)

theorem FileStore.path_eq_ok {store : FileStore} {id path : String} :
    store.path id = .ok path ↔ safeId id = true ∧ path = joinPath store.dir (id ++ ".cbor") := by
  rw [FileStore.path]
  split
  · rename_i safe
    simp only [Except.ok.injEq, safe, true_and, eq_comm]
  · rename_i unsafeText
    simp [unsafeText]

/-- Different ids name different files. -/
theorem FileStore.path_injective {store : FileStore} {id other path : String} (here : store.path id = .ok path)
    (there : store.path other = .ok path) : id = other := by
  obtain ⟨_, rfl⟩ := path_eq_ok.mp here
  obtain ⟨_, same⟩ := path_eq_ok.mp there
  have texts := congrArg String.toList (joinPath_injective _ same)
  rw [String.toList_append, String.toList_append] at texts
  exact String.toList_inj.mp (List.append_cancel_right texts)

/-! ## Both stores are tables -/

/-- A put, as a step of the store. -/
def MemoryStore.step (store : MemoryStore) (entry : String × Bytes) : Except String MemoryStore :=
  store.put entry.1 entry.2

/-- What the store in memory takes. -/
structure MemoryStore.Admits (cap : UInt64) (entry : String × Bytes) : Prop where
  named : entry.1 ≠ ""
  filled : entry.2 ≠ []
  bounded : entry.2.length ≤ cap.toNat

theorem memoryStore_keeps (cap : UInt64) :
    Keeps MemoryStore.step (fun store id => store.inner.lookup id) (fun _ => True) (MemoryStore.Admits cap)
      (fun store => store.maxBytes = cap) where
  accepted := by
    intro store entry held _ admitted accepts
    have present : ¬ (entry.1 = "" ∨ entry.2 = []) := not_or.mpr ⟨admitted.named, admitted.filled⟩
    have small : ¬ store.maxBytes.toNat < entry.2.length := by
      rw [held]
      exact not_lt.mpr admitted.bounded
    rw [MemoryStore.step, MemoryStore.put, if_neg present, if_neg small]
    cases known : store.inner.lookup entry.1 with
    | some previous => exact ⟨store, if_neg (not_not.mpr (accepts previous known)), held, (offer_held known).symm⟩
    | none =>
      refine ⟨_, rfl, held, ?_⟩
      funext id
      rw [Table.offer, List.lookup_cons]
      by_cases here : id = entry.1
      · simp [here, known]
      · simp [here, beq_eq_false_iff_ne.mpr here]
  refused := by
    intro store entry held _ refused
    rw [MemoryStore.step, MemoryStore.put]
    by_cases present : entry.1 = "" ∨ entry.2 = []
    · exact ⟨_, if_pos present⟩
    · rw [if_neg present]
      by_cases large : store.maxBytes.toNat < entry.2.length
      · exact ⟨_, if_pos large⟩
      · rw [if_neg large]
        have admitted : MemoryStore.Admits cap entry :=
          ⟨(not_or.mp present).1, (not_or.mp present).2, by rwa [held, not_lt] at large⟩
        have conflict := fun accepts => refused ⟨admitted, accepts⟩
        cases known : store.inner.lookup entry.1 with
        | none => exact absurd (fun value found => by cases known.symm.trans found) conflict
        | some previous =>
          have other : previous ≠ entry.2 := by
            intro same
            refine conflict fun value found => ?_
            cases known.symm.trans found
            exact same
          exact ⟨_, if_pos other⟩

/-- The files of these ids can be written, and no file of theirs or of a reference fails to be read but for being
    absent. -/
structure FileStore.Accessible (store : FileStore) (ids : List String) (world : World) : Prop where
  writable : ∀ id path, id ∈ ids → store.path id = .ok path → world.writeError path = none
  readable : ∀ id path, id ∈ ids ∨ IsReference id → store.path id = .ok path →
    ∀ failure, world.files path = .error failure → failure.notFound = true

def FileStore.step (store : FileStore) (world : World) (entry : String × Bytes) : Except String World :=
  match store.put entry.1 entry.2 world with
  | .ok _ after => .ok after
  | .error message _ => .error message

/-- The files of the directory, by the ids that name them. -/
def FileStore.view (store : FileStore) (world : World) : Table String Bytes := fun id =>
  match store.path id with
  | .error _ => none
  | .ok path => (world.files path).toOption

theorem FileStore.path_of_safe (store : FileStore) {id : String} (safe : safeId id = true) :
    ∃ path, store.path id = .ok path :=
  ⟨_, path_eq_ok.mpr ⟨safe, rfl⟩⟩

/-- The directory after a file was written. -/
theorem FileStore.view_update {store : FileStore} {world : World} {id path : String} {cbor : Bytes}
    (named : store.path id = .ok path) (absent : store.view world id = none) :
    store.view { world with files := Function.update world.files path (.ok cbor) } =
      (store.view world).offer (id, cbor) := by
  funext other
  rw [Table.offer]
  by_cases here : other = id
  · rw [here, absent, Option.none_or, if_pos rfl]
    simp only [view, named, Function.update_self]
    rfl
  · rw [if_neg here, Option.or_none]
    cases elsewhere : store.path other with
    | error message => simp only [view, elsewhere]
    | ok otherPath =>
      have different : otherPath ≠ path := by
        rintro rfl
        exact here (path_injective elsewhere named)
      simp only [view, elsewhere, Function.update_of_ne different]

theorem fileStore_keeps (store : FileStore) (ids : List String) :
    Keeps store.step store.view (fun entry => entry.1 ∈ ids) (fun entry => safeId entry.1 = true ∧ entry.2 ≠ [])
      (store.Accessible ids) where
  accepted := by
    rintro world ⟨id, cbor⟩ accessible listed ⟨safe, filled⟩ accepts
    obtain ⟨path, named⟩ := store.path_of_safe safe
    have writable := accessible.writable id path listed named
    have missing := accessible.readable id path (.inl listed) named
    have present : ¬ cbor.isEmpty = true := fun empty => filled (List.isEmpty_iff.mp empty)
    have seen : store.view world id = (world.files path).toOption := by simp only [FileStore.view, named]
    cases found : world.files path with
    | ok previous =>
      have held : store.view world id = some previous := by rw [seen, found]; rfl
      have unchanged : (store.view world).offer (id, cbor) = store.view world := offer_held held
      refine ⟨world, ?_, accessible, unchanged.symm⟩
      simp only [FileStore.step, FileStore.put, if_neg present, named, found,
        if_neg (not_not.mpr (accepts previous held))]
    | error failure =>
      have absent : store.view world id = none := by rw [seen, found]; rfl
      refine ⟨{ world with files := Function.update world.files path (.ok cbor) }, ?_, ?_,
        store.view_update named absent⟩
      · simp only [FileStore.step, FileStore.put, if_neg present, named, found, missing failure found, writable,
          if_true]
      · refine ⟨accessible.writable, fun other otherPath asked otherNamed reason failed => ?_⟩
        by_cases same : otherPath = path
        · simp only [same, Function.update_self] at failed
          cases failed
        · simp only [Function.update_of_ne same] at failed
          exact accessible.readable other otherPath asked otherNamed reason failed
  refused := by
    rintro world ⟨id, cbor⟩ accessible _ refused
    by_cases empty : cbor.isEmpty = true
    · exact ⟨_, by simp only [FileStore.step, FileStore.put, if_pos empty]; rfl⟩
    · by_cases safe : safeId id = true
      · obtain ⟨path, named⟩ := store.path_of_safe safe
        have conflict := fun accepts => refused ⟨⟨safe, fun hollow => empty (List.isEmpty_iff.mpr hollow)⟩, accepts⟩
        have seen : store.view world id = (world.files path).toOption := by simp only [FileStore.view, named]
        cases found : world.files path with
        | error failure =>
          refine absurd (fun value held => ?_) conflict
          rw [seen, found] at held
          cases held
        | ok previous =>
          have other : previous ≠ cbor := by
            intro same
            refine conflict fun value held => ?_
            rw [seen, found] at held
            cases held
            exact same
          exact ⟨_, by simp only [FileStore.step, FileStore.put, if_neg empty, named, found, if_pos other]; rfl⟩
      · have outside : store.path id = .error ("store refuses unsafe id " ++ store.quoted id) := if_neg safe
        exact ⟨_, by simp only [FileStore.step, FileStore.put, if_neg empty, outside]; rfl⟩

/-! ## Searches -/

/-- Proofs refer to each other by such ids only. -/
theorem isReference_of_named {primitives : Primitives} {order : HashOrder} {ctx : VerifyCtx} {bytes : Bytes}
    {report : VerifyReport} {id : String} (verified : verifyProof primitives order ctx bytes = .ok report)
    (named : id ∈ report.referencedProofs) : IsReference id := by
  obtain ⟨proof, spelled, inProof, _⟩ := spelled_of_reference verified named
  obtain ⟨value, _, parsed⟩ := bind_eq_ok.mp spelled
  obtain ⟨entries, _, _, parts⟩ := cborToProof_entries parsed
  have read := parts.references
  generalize proof.referencedProofs = references at read inProof
  simp only [cborToReferencedProofs] at read
  split at read
  · cases read
    cases inProof
  · split at read
    · cases read
    · obtain ⟨_, done, sorted⟩ := bind_eq_ok.mp read
      split at sorted
      · cases sorted
      · cases sorted
        obtain ⟨item, _, shaped⟩ := exists_of_mem_mapM done inProof
        cases item with
        | text spelledId =>
          simp only [referenceFromCbor] at shaped
          obtain ⟨_, reference, same⟩ := bind_eq_ok.mp shaped
          cases same
          exact reference
        | _ => cases shaped
  · cases read

section
variable {primitives : Primitives} {orders : Bytes → HashOrder} {first second : ArtifactStore} {ctx : VerifyCtx}
  {maxTransitiveDepth : UInt64}

theorem Turn.references {search next : Resolution} {queue : List (String × Nat)} {id : String} {depth : Nat}
    (named : ∀ item ∈ queue, IsReference item.1)
    (turn : Turn primitives orders first ctx maxTransitiveDepth { search with queue } id depth next) :
    ∀ item ∈ next.queue, IsReference item.1 := by
  cases turn with
  | seen visited => exact named
  | unread fresh why => exact named
  | failed fresh inDepth within why => exact named
  | @resolved _ _ _ report fetched =>
    obtain ⟨bytes, _, verified, _⟩ := fetched
    intro item member
    rcases List.mem_append.mp member with waiting | added
    · exact named item waiting
    · obtain ⟨reference, inReport, rfl⟩ := List.mem_map.mp added
      exact isReference_of_named verified inReport

/-- The search asks for nothing but references. -/
theorem resolveLoop_congr (same : ∀ id, IsReference id → first id = second id) (inputs : checkInputs ctx = .ok ())
    (fuel : Nat) {search : Resolution} (named : ∀ item ∈ search.queue, IsReference item.1) :
    resolveLoop primitives orders first ctx maxTransitiveDepth fuel search =
      resolveLoop primitives orders second ctx maxTransitiveDepth fuel search := by
  induction fuel generalizing search with
  | zero => rfl
  | succ fuel inductionHypothesis =>
    rw [resolveLoop, resolveLoop]
    cases popped : search.queue with
    | nil => rfl
    | cons item queue =>
      obtain ⟨id, depth⟩ := item
      rw [popped] at named
      obtain ⟨here, waiting⟩ := List.forall_mem_cons.mp named
      have alike : resolveReference primitives orders second ctx maxTransitiveDepth { search with queue } id depth =
          resolveReference primitives orders first ctx maxTransitiveDepth { search with queue } id depth := by
        simp only [resolveReference, fetchReference, same id here]
      obtain ⟨next, one, turn⟩ := @resolveReference_turn primitives orders first ctx maxTransitiveDepth inputs
        { search with queue } id depth
      dsimp only
      rw [alike, one, ok_bind, ok_bind]
      exact inductionHypothesis (turn.references waiting)

theorem resolveProofChain_congr (same : ∀ id, IsReference id → first id = second id) (bytes : Bytes) :
    resolveProofChain primitives orders first ctx maxTransitiveDepth bytes =
      resolveProofChain primitives orders second ctx maxTransitiveDepth bytes := by
  rw [resolveProofChain, resolveProofChain, resolveSearch, resolveSearch]
  cases verified : verifyProof primitives (orders bytes) ctx bytes with
  | error failure => rfl
  | ok root =>
    have named : ∀ item ∈ (Resolution.start root).queue, IsReference item.1 := by
      intro item member
      obtain ⟨reference, inReport, rfl⟩ := List.mem_map.mp member
      exact isReference_of_named verified inReport
    rw [ok_bind, ok_bind, resolveLoop_congr same (checkInputs_of_done verified) _ named]

end

/-! ## Told apart by nothing a proof refers to -/

theorem FileStore.get_eq {store : FileStore} {ids : List String} {world : World} {id : String}
    (accessible : store.Accessible ids world) (reference : IsReference id) :
    store.get world id = .ok (store.view world id) := by
  obtain ⟨path, named⟩ := store.path_of_safe reference.safe
  simp only [FileStore.get, FileStore.view, named, ok_bind]
  cases found : world.files path with
  | ok bytes => rfl
  | error failure =>
    simp only [accessible.readable id path (.inr reference) named failure found, if_true]
    rfl

/-- A put writes no file but the one its id names. -/
theorem FileStore.put_frame {store : FileStore} {world after : World} {id path : String} {cbor : Bytes}
    (done : store.put id cbor world = .ok () after) (other : store.path id ≠ .ok path) :
    after.files path = world.files path := by
  rw [FileStore.put] at done
  split at done
  · cases done
  · split at done
    · cases done
    · rename_i written named
      split at done
      · split at done
        · cases done
        · cases done
          rfl
      · split at done
        · split at done
          · cases done
          · cases done
            have elsewhere : path ≠ written := by
              rintro rfl
              exact other named
            exact Function.update_of_ne elsewhere _ _
        · cases done

theorem FileStore.fill_frame (store : FileStore) {entries : List (String × Bytes)} {world : World} {path : String}
    (other : ∀ entry ∈ entries, store.path entry.1 ≠ .ok path) :
    (fill store.step world entries).files path = world.files path := by
  induction entries generalizing world with
  | nil => rfl
  | cons entry entries inductionHypothesis =>
    obtain ⟨here, later⟩ := List.forall_mem_cons.mp other
    rw [fill, List.foldl_cons]
    have frame : ((store.step world entry).toOption.getD world).files path = world.files path := by
      rw [FileStore.step]
      cases done : store.put entry.1 entry.2 world with
      | ok _ after => exact put_frame done here
      | error message after => rfl
    rw [← frame]
    exact inductionHypothesis later

/-- What both kinds of store can hold. -/
structure Storable (entry : String × Bytes) : Prop where
  safe : safeId entry.1 = true
  filled : entry.2 ≠ []
  bounded : entry.2.length ≤ Limits.default.maxProofSize.toNat

theorem Storable.admits {entry : String × Bytes} (storable : Storable entry) :
    MemoryStore.Admits Limits.default.maxProofSize entry where
  named := by
    intro empty
    have safe := storable.safe
    rw [empty] at safe
    exact absurd safe (by decide +kernel)
  filled := storable.filled
  bounded := storable.bounded

/-- A directory without files. -/
def emptyDirectory : World where
  files _ := .error { notFound := true, text := "No such file or directory (os error 2)" }
  writeError _ := none
  stdin := []

def proofDirectory : FileStore where
  dir := "proofs"
  quoted id := id

/-- The leaf, and another proof that claims its name. -/
def contestedLeaf : List (String × Bytes) := [(leafId, bytesOf leafProof), (leafId, bytesOf tamperedProof)]

theorem contestedLeaf_storable : ∀ entry ∈ contestedLeaf, Storable entry := by
  intro entry member
  have valid : (contestedLeaf.all fun entry => safeId entry.1 && !entry.2.isEmpty &&
      decide (entry.2.length ≤ Limits.default.maxProofSize.toNat)) = true := by decide +kernel
  have here := List.all_eq_true.mp valid entry member
  simp only [Bool.and_eq_true, Bool.not_eq_true', List.isEmpty_eq_false_iff, decide_eq_true_eq] at here
  exact ⟨here.1.1, here.1.2, here.2⟩

end ProofEngine

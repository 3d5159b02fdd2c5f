import ProofEngine.Interop.Envelope

/-! # References, vocabularies and the binding

The second verifier sorts by code points and builds the binding from its own ids; the bytes it hashes are the
engine's. -/

namespace ProofEngine.Interop

open StableSort Text CborValue

/-! ## Sorted lists -/

theorem strict_of_sorted {names : List String} (sorted : sortOn codePoints names = names) (distinct : names.Nodup) :
    names.Pairwise fun left right => utf8 left < utf8 right := by
  have byBytes : sortOn utf8 names = names := (sortOn_codePoints id names).symm.trans sorted
  have strict := sortOn_strict (distinct.map utf8_injective)
  rwa [byBytes] at strict

/-! ## References -/

section
variable {entries : Entries} {limits : Limits}

/-- How many items a list field has. -/
def listed (entries : Entries) (key : String) : Nat :=
  match findField entries key with
  | some (.array items) => items.length
  | _ => 0

/-- A field that may be absent is not null and no empty map. -/
def ReferencesStated (entries : Entries) : Prop :=
  findField entries "referenced_proofs" = none ∨ ∃ items, findField entries "referenced_proofs" = some (.array items)

theorem checkReference_eq_ok {x : String} {nothing : Unit} (done : checkReference x = .ok nothing) :
    checkReferenceShape x = .ok () := by
  simp only [checkReference] at done
  split at done
  · cases done
  · rename_i rest stripped
    split at done
    · cases done
    · rename_i raw _
      obtain ⟨spelled, size⟩ := ensure_eq_ok.mp done
      have decoded : Base64Url.decode rest = some raw := Base64Url.decode_eq_some.mpr spelled
      have canonical : Base64Url.encode raw = rest := spelled
      simp only [checkReferenceShape, stripped, decoded]
      rw [if_neg (not_not.mpr canonical), if_neg (not_not.mpr size)]

theorem checkReferences_eq_ok {xs : List String} {nothing : Unit} (done : checkReferences xs = .ok nothing) :
    ∀ x ∈ xs, checkReferenceShape x = .ok () := by
  induction xs with
  | nil => simp
  | cons x xs inductionHypothesis =>
    simp only [checkReferences, bind_eq_ok] at done
    obtain ⟨_, here, rest⟩ := done
    exact List.forall_mem_cons.mpr ⟨checkReference_eq_ok here, inductionHypothesis rest⟩

theorem mapM_referenceFromCbor {items : List CborValue} {refs : List String} {message : String}
    (read : (toPythonItems items).mapM (asStr message) = .ok refs)
    (shaped : ∀ x ∈ refs, checkReferenceShape x = .ok ()) : items.mapM referenceFromCbor = .ok refs := by
  rw [toPythonItems_eq, mapM_eq_ok, List.forall₂_map_left_iff] at read
  have texts : List.Forall₂ (fun item x => item = CborValue.text x) items refs :=
    read.imp fun item x here => toPython_eq_str.mp (asStr_eq_ok.mp here)
  rw [← List.forall₂_map_right_iff, List.forall₂_eq_eq_eq] at texts
  rw [texts, mapM_eq_ok, List.forall₂_map_left_iff, List.forall₂_same]
  intro x member
  rw [referenceFromCbor, shaped x member]
  rfl

theorem referencesStated_of_ok {refs : List String} (parsed : cborToReferencedProofs limits entries = .ok refs) :
    ReferencesStated entries := by
  simp only [cborToReferencedProofs] at parsed
  split at parsed
  · rename_i absent
    exact .inl absent
  · rename_i items found
    exact .inr ⟨items, found⟩
  · cases parsed

/-- References the second verifier takes are the engine's, unless the field is null or an empty map. -/
theorem cborToReferencedProofs_of_stated (unique : UniqueKeys entries) {refs : List String}
    (count : listed entries "referenced_proofs" ≤ limits.maxReferencedProofs.toNat)
    (done : referencedProofs (get (toPythonPairs entries) "referenced_proofs") = .ok refs)
    (stated : ReferencesStated entries) : cborToReferencedProofs limits entries = .ok refs := by
  rcases stated with absent | ⟨items, found⟩
  · rw [get_toPythonPairs unique, absent] at done
    cases done
    simp only [cborToReferencedProofs, absent]
  · rw [get_toPythonPairs unique, found] at done
    simp only [listed, found] at count
    simp only [Option.map_some, Option.getD_some, toPython, referencedProofs, elements, bind_eq_ok,
      ensure_eq_ok] at done
    obtain ⟨others, read, _, shaped, _, ⟨sorted, distinct⟩, done⟩ := done
    cases done
    simp only [cborToReferencedProofs, found]
    rw [if_neg (not_lt.mpr count), mapM_referenceFromCbor read (checkReferences_eq_ok shaped), ok_bind]
    exact if_neg (not_not.mpr (destutter_sortOn_of_strict (strict_of_sorted sorted distinct)))

/-! ## Vocabularies -/

/-- The field is no value that counts as false, and its namespaces are short in bytes. -/
def VocabulariesStated (entries : Entries) : Prop :=
  findField entries "vocabularies" = none ∨ ∃ items, findField entries "vocabularies" = some (.array items) ∧
    ∀ fields ns, .map fields ∈ items → findField fields "ns" = some (.text ns) → len ns ≤ 128

/-- What the second verifier has checked of a declaration. -/
structure VocabularyChecked (fields : Entries) (ns : String) (version : UInt64) : Prop where
  closed : ∀ entry ∈ fields, ∃ key ∈ ["ns", "version"], entry.1 = .text key
  nsFound : findField fields "ns" = some (.text ns)
  nonempty : ns.isEmpty = false
  colon : ns.toList.contains ':' = false
  solid : ns.toList.any isWhitespace = false
  versionFound : findField fields "version" = some (.uint version)

theorem any_isWhitespace {chars : List Char} (solid : chars.any isSpace = false) : chars.any isWhitespace = false := by
  rw [List.any_eq_false] at solid ⊢
  intro char member white
  exact solid char member (by simp [isSpace, white])

theorem vocabulary_eq_ok {value : CborValue} {declared : String × Int} (readable : Readable value)
    (done : vocabulary (toPython value) = .ok declared) :
    ∃ fields ns version, value = .map fields ∧ VocabularyChecked fields ns version ∧
      declared = (ns, (version.toNat : Int)) := by
  cases value with
  | map fields =>
    have unique := readable.ascending.uniqueKeys
    simp only [toPython, vocabulary, bind_eq_ok, ensure_eq_ok, asStr_eq_ok, asInt_eq_ok] at done
    obtain ⟨_, ⟨known, _, _⟩, ns, nsIs, _, ⟨nonempty, _⟩, _, ⟨colon, solid⟩, version, versionIs, _, natural, done⟩ :=
      done
    cases done
    have closed : ∀ entry ∈ fields, ∃ key ∈ ["ns", "version"], entry.1 = .text key := by
      intro entry member
      rw [toPythonPairs_eq, List.all_map, List.all_eq_true] at known
      simpa [isKey_iff] using known entry member
    obtain ⟨_, absent⟩ | ⟨nsValue, nsFound, nsPresent⟩ := get_cases unique "ns"
    · cases absent.symm.trans nsIs
    obtain ⟨_, absent⟩ | ⟨versionValue, versionFound, versionPresent⟩ := get_cases unique "version"
    · cases absent.symm.trans versionIs
    rw [toPython_eq_str.mp (nsPresent.symm.trans nsIs)] at nsFound
    have versionSame := versionPresent.symm.trans versionIs
    cases versionValue with
    | uint n =>
      cases versionSame
      exact ⟨fields, ns, n, rfl, ⟨closed, nsFound, nonempty, colon, any_isWhitespace solid, versionFound⟩, rfl⟩
    | nint n =>
      have negative : n.toInt < 0 := readable.negative _ (mem_of_findField versionFound)
      cases versionSame
      omega
    | _ => cases versionSame
  | _ => cases done

theorem VocabularyChecked.parsed {fields : Entries} {ns : String} {version : UInt64}
    (checked : VocabularyChecked fields ns version) (short : len ns ≤ 128) :
    vocabularyFromCbor (.map fields) = .ok { ns, version } := by
  have known : checkClosed ["ns", "version"] "Vocabulary" fields = .ok () := checkClosed_eq_ok.mpr checked.closed
  have bounded : BoundedText ns := ⟨checked.nonempty, by omega⟩
  rw [vocabularyFromCbor, known, ok_bind, textField_eq_ok.mpr ⟨checked.nsFound, bounded⟩, ok_bind, checked.nonempty,
    checked.colon, checked.solid, Bool.false_or, if_neg (by simpa using short), if_neg (by simp),
    uintField_eq_ok.mpr checked.versionFound]
  rfl

/-- The loop reads every declaration and finds no namespace twice. -/
theorem vocabularyLoop_eq_ok {seen : List String} {items : List Value} {declared : List (String × Int)} :
    vocabularyLoop seen items = .ok declared ↔ items.mapM vocabulary = .ok declared ∧
      (declared.map Prod.fst).Nodup ∧ ∀ ns ∈ declared.map Prod.fst, ns ∉ seen := by
  induction items generalizing seen declared with
  | nil =>
    simp only [vocabularyLoop, List.mapM_nil, pure_eq_ok, Except.ok.injEq]
    constructor
    · rintro rfl
      simp
    · exact fun here => here.1
  | cons item items inductionHypothesis =>
    simp only [vocabularyLoop, List.mapM_cons, bind_eq_ok, ensure_eq_ok, inductionHypothesis, pure_eq_ok,
      Except.ok.injEq]
    constructor
    · rintro ⟨⟨ns, version⟩, here, _, fresh, others, ⟨read, distinct, later⟩, rfl⟩
      have absent : ns ∉ others.map Prod.fst := fun member => later ns member List.mem_cons_self
      refine ⟨⟨_, here, others, read, rfl⟩, List.nodup_cons.mpr ⟨absent, distinct⟩, ?_⟩
      exact List.forall_mem_cons.mpr ⟨fresh, fun other member => mt (List.mem_cons_of_mem _) (later other member)⟩
    · rintro ⟨⟨⟨ns, version⟩, here, others, read, rfl⟩, distinct, fresh⟩
      obtain ⟨absent, distinct⟩ := List.nodup_cons.mp distinct
      obtain ⟨first, later⟩ := List.forall_mem_cons.mp fresh
      refine ⟨_, here, (), first, others, ⟨read, distinct, fun other member seenBefore => ?_⟩, rfl⟩
      rcases List.mem_cons.mp seenBefore with rfl | seenBefore
      · exact absent member
      · exact later other member seenBefore

/-- A declaration as the second verifier holds it. -/
def declaration (declared : VocabularyDecl) : String × Int := (declared.ns, (declared.version.toNat : Int))

theorem mapM_vocabularyFromCbor {items : List CborValue} {declared : List (String × Int)}
    (readable : ∀ item ∈ items, Readable item) (read : (toPythonItems items).mapM vocabulary = .ok declared)
    (short : ∀ fields ns, CborValue.map fields ∈ items → findField fields "ns" = some (.text ns) → len ns ≤ 128) :
    ∃ decls, items.mapM vocabularyFromCbor = .ok decls ∧ declared = decls.map declaration := by
  induction items generalizing declared with
  | nil =>
    cases read
    exact ⟨[], rfl, rfl⟩
  | cons item items inductionHypothesis =>
    obtain ⟨itemReadable, restReadable⟩ := List.forall_mem_cons.mp readable
    simp only [toPythonItems, List.mapM_cons, bind_eq_ok] at read
    obtain ⟨first, here, others, rest, done⟩ := read
    cases done
    obtain ⟨fields, ns, version, rfl, checked, rfl⟩ := vocabulary_eq_ok itemReadable here
    obtain ⟨decls, parsed, rfl⟩ := inductionHypothesis restReadable rest fun fields ns member =>
      short fields ns (List.mem_cons_of_mem _ member)
    refine ⟨{ ns, version } :: decls, ?_, rfl⟩
    rw [List.mapM_cons, checked.parsed (short fields ns List.mem_cons_self checked.nsFound), ok_bind, parsed]
    rfl

theorem vocabulariesStated_of_ok {decls : List VocabularyDecl}
    (parsed : cborToVocabularies limits entries = .ok decls) : VocabulariesStated entries := by
  simp only [cborToVocabularies] at parsed
  split at parsed
  · rename_i absent
    exact .inl absent
  · rename_i items found
    refine .inr ⟨items, found, fun fields ns member nsFound => ?_⟩
    split at parsed
    · cases parsed
    · simp only [bind_eq_ok] at parsed
      obtain ⟨others, othersDone, _⟩ := parsed
      obtain ⟨declared, _, itemDone⟩ := exists_result_of_mem othersDone member
      simp only [vocabularyFromCbor, bind_eq_ok, textField_eq_ok, nsFound, Option.some.injEq,
        CborValue.text.injEq] at itemDone
      obtain ⟨_, _, _, ⟨rfl, _⟩, itemDone⟩ := itemDone
      split at itemDone
      · cases itemDone
      · rename_i bounded
        simp only [Bool.or_eq_true, decide_eq_true_eq, not_or, not_lt] at bounded
        exact bounded.2
  · cases parsed

/-- Declarations the second verifier takes are the engine's, unless the field counts as false or a namespace is
    long in bytes. -/
theorem cborToVocabularies_of_stated (readable : Readable (.map entries)) {declared : List (String × Int)}
    (count : listed entries "vocabularies" ≤ limits.maxVocabularies.toNat)
    (done : vocabularies (get (toPythonPairs entries) "vocabularies") = .ok declared)
    (stated : VocabulariesStated entries) :
    ∃ decls, cborToVocabularies limits entries = .ok decls ∧ declared = decls.map declaration := by
  have unique := readable.ascending.uniqueKeys
  rcases stated with absent | ⟨items, found, short⟩
  · rw [get_toPythonPairs unique, absent] at done
    cases done
    exact ⟨[], by simp only [cborToVocabularies, absent], rfl⟩
  · rw [get_toPythonPairs unique, found] at done
    simp only [listed, found] at count
    -- the empty array counts as false, and the loop over it finds the same
    have looped : vocabularyLoop [] (toPythonItems items) = .ok declared ∧
        declared.map Prod.fst = sortOn codePoints (declared.map Prod.fst) := by
      simp only [Option.map_some, Option.getD_some, toPython] at done
      cases items with
      | nil =>
        cases done
        exact ⟨rfl, rfl⟩
      | cons item items =>
        have present : falsy (.list (toPythonItems (item :: items))) = false := rfl
        rw [vocabularies, present, if_neg (by decide)] at done
        simp only [elements, bind_eq_ok, ensure_eq_ok] at done
        obtain ⟨_, looped, _, sorted, done⟩ := done
        cases done
        exact ⟨looped, sorted⟩
    obtain ⟨read, distinct, _⟩ := vocabularyLoop_eq_ok.mp looped.1
    obtain ⟨decls, parsed, rfl⟩ :=
      mapM_vocabularyFromCbor (fun item member => (readable.field found).item member) read short
    have names : (decls.map declaration).map Prod.fst = decls.map (·.ns) := by
      rw [List.map_map]
      rfl
    rw [names] at distinct looped
    have strict := strict_of_sorted looped.2.symm distinct
    rw [List.pairwise_map] at strict
    have same : (sortOn (fun declared => utf8 declared.ns) decls).destutter
        (fun left right => utf8 left.ns ≠ utf8 right.ns) = decls := destutter_sortOn_of_strict strict
    refine ⟨decls, ?_, rfl⟩
    simp only [cborToVocabularies, found]
    rw [if_neg (not_lt.mpr count), parsed, ok_bind]
    refine if_neg (not_or.mpr ⟨not_not.mpr (congrArg List.length same), not_not.mpr ?_⟩)
    exact congrArg (List.map (·.ns)) same

/-! ## The binding -/

/-- A value the second encoder writes as the engine's does, in whatever order its entries are stored. -/
structure Encodable (value : CborValue) : Prop where
  regular : Regular value
  sized : Sized value
  scalarKeys : value.Everywhere ScalarKeys

theorem Encodable.encAny {value : CborValue} (encodable : Encodable value) :
    Interop.encAny (toPython value) = .ok (encodeCanonical value) :=
  encAny_toPython (fun part inside => (encodable.regular part inside).1)
    (fun part inside => (encodable.regular part inside).2) (fun part inside => (encodable.sized part inside).2)
    encodable.scalarKeys

theorem Readable.encodable {value : CborValue} (readable : Readable value) : Encodable value where
  regular := fun part inside => ⟨(readable.canonical part inside).distinct, (readable.canonical part inside).negative⟩
  sized := fun part inside =>
    ⟨(readable.canonical part inside).negative, (Canonical.addressable readable.canonical) part inside⟩
  scalarKeys := readable.scalarKeys

theorem encodable_uint (n : UInt64) : Encodable (.uint n) :=
  ⟨regular_uint n, sized_uint n, everywhere_uint.mpr trivial⟩

theorem encodable_text {s : String} (sized : Sized (.text s)) : Encodable (.text s) :=
  ⟨regular_text s, sized, everywhere_text.mpr trivial⟩

theorem encodable_array {items : List CborValue} (small : items.length < 2 ^ 64)
    (each : ∀ item ∈ items, Encodable item) : Encodable (.array items) where
  regular := everywhere_array.mpr ⟨⟨trivial, trivial⟩, fun item member => (each item member).regular⟩
  sized := sized_array small fun item member => (each item member).sized
  scalarKeys := everywhere_array.mpr ⟨trivial, fun item member => (each item member).scalarKeys⟩

theorem scalarKeys_record {fields : List (String × CborValue)}
    (each : ∀ field ∈ fields, field.2.Everywhere ScalarKeys) : (record fields).Everywhere ScalarKeys := by
  refine everywhere_map.mpr ⟨fun pair member => ?_, fun pair member => ?_⟩
  · obtain ⟨field, _, rfl⟩ := List.mem_map.mp member
    trivial
  · obtain ⟨field, fieldMember, rfl⟩ := List.mem_map.mp member
    exact ⟨everywhere_text.mpr trivial, each field fieldMember⟩

theorem encodable_record {fields : List (String × CborValue)} (names : List String)
    (keys : fields.map Prod.fst = names) (distinct : names.Nodup)
    (short : names.length < 2 ^ 64 ∧ ∀ name ∈ names, len name < 2 ^ 64) (each : ∀ field ∈ fields, Encodable field.2) :
    Encodable (record fields) where
  regular := regular_record names keys distinct fun field member => (each field member).regular
  sized := sized_record_of_names names keys short fun field member => (each field member).sized
  scalarKeys := scalarKeys_record fun field member => (each field member).scalarKeys

theorem encodable_sortedIds {ids : List String} (small : ids.length < 2 ^ 64)
    (each : ∀ id ∈ ids, Sized (.text id)) : Encodable (sortedIds ids) := by
  refine encodable_array (by simpa using small) fun item member => ?_
  obtain ⟨id, idMember, rfl⟩ := List.mem_map.mp member
  exact encodable_text (each id (mem_sortOn.mp idMember))

theorem encodable_vocabularyToCbor {declared : VocabularyDecl} (sized : Sized (vocabularyToCbor declared)) :
    Encodable (vocabularyToCbor declared) where
  regular := by
    refine regular_record ["ns", "version"] rfl (by decide) ?_
    simp only [List.forall_mem_cons, List.not_mem_nil, false_implies, implies_true, and_true]
    exact ⟨regular_text _, regular_uint _⟩
  sized := sized
  scalarKeys := by
    refine scalarKeys_record ?_
    simp only [List.forall_mem_cons, List.not_mem_nil, false_implies, implies_true, and_true]
    exact ⟨everywhere_text.mpr trivial, everywhere_uint.mpr trivial⟩

/-- The encoding of a record depends on the encodings of its fields alone. -/
theorem encodeCanonical_record_congr {fields others : List (String × CborValue)}
    (same : fields.map (fun field => (field.1, encodeCanonical field.2)) =
      others.map fun field => (field.1, encodeCanonical field.2)) :
    encodeCanonical (record fields) = encodeCanonical (record others) := by
  have length : fields.length = others.length := by simpa using congrArg List.length same
  have spelled : ∀ fields : List (String × CborValue),
      encodePairs (fields.map fun field => (CborValue.text field.1, field.2)) =
        (fields.map fun field => (field.1, encodeCanonical field.2)).map
          fun field => (encodeCanonical (.text field.1), field.2) := by
    intro fields
    rw [encodePairs_eq, List.map_map, List.map_map]
    rfl
  simp only [encodeCanonical, record, encodeValue, List.length_map, spelled, length] at same ⊢
  rw [same]

section
variable {primitives : Primitives} {proof : Proof}

theorem sortedStrs_eq (ids : List String) : sortedStrs ids = toPython (sortedIds ids) := by
  have sorted : sortOn codePoints ids = sortOn utf8 ids := sortOn_codePoints id ids
  rw [sortedStrs, sorted, sortedIds, toPython, toPythonItems_eq, List.map_map]
  rfl

/-- The second verifier's binding is the engine's, built from the same parts. -/
theorem binding_eq (proposition : CborValue) (createdAt : UInt64)
    (eventIds attestationIds evidenceIds relationshipIds references : List String) {decls : List VocabularyDecl}
    (sorted : sortOn (fun declared => utf8 declared.ns) decls = decls) :
    Value.map (Interop.binding (toPython proposition) createdAt.toNat eventIds attestationIds evidenceIds
        relationshipIds references (decls.map declaration)) =
      toPython (proofBinding proposition createdAt eventIds attestationIds evidenceIds relationshipIds references
        decls) := by
  have declared : ((decls.map declaration).map fun declared : String × Int =>
      Value.map [(.str "ns", .str declared.1), (.str "version", .int declared.2)]) =
        toPythonItems (decls.map vocabularyToCbor) := by
    rw [toPythonItems_eq, List.map_map, List.map_map]
    rfl
  rw [Interop.binding, declared, List.isEmpty_map, proofBinding, bindingFields, sorted, record, toPython,
    toPythonPairs_eq]
  simp only [sortedStrs_eq, List.map_append, List.map_cons, List.map_nil, List.map_map]
  cases references.isEmpty <;> cases decls.isEmpty <;> rfl

/-- The bytes the second verifier hashes for the proof id are the engine's. -/
theorem encAny_binding {proposition : CborValue} (bounded : proof.Bounded) (readable : Readable proposition)
    (canonical : (propositionToCbor proof.proposition).sortMaps = proposition) :
    Interop.encAny (.map (Interop.binding (toPython proposition) proof.createdAt.toNat
        (proof.events.map fun event => eventId primitives (encodeCanonical (eventRecord event)))
        (proof.attestations.map fun stored => attestationMemberId primitives stored.content)
        (proof.evidence.map (evidenceMemberId primitives)) (proof.relationships.map (relationshipMemberId primitives))
        proof.referencedProofs (proof.vocabularies.map declaration))) =
      .ok (encodeCanonical (bindingOf primitives proof)) := by
  obtain ⟨eventCount, attestationCount, evidenceCount, relationshipCount, referenceCount, vocabularyCount⟩ :=
    bounded.counts
  have ids : ∀ {α : Type} {members : List α} {kind : String} {bytes : α → Bytes},
      members.length < 2 ^ 64 → len kind ≤ 3 →
      Encodable (sortedIds (members.map fun member => idWith primitives kind (bytes member))) := by
    intro α members kind bytes count short
    refine encodable_sortedIds (by simpa using count) fun id member => ?_
    obtain ⟨_, _, rfl⟩ := List.mem_map.mp member
    exact sized_id kind short _
  have short : ∀ withReferences withVocabularies, (bindingNames withReferences withVocabularies).length < 2 ^ 64 ∧
      ∀ name ∈ bindingNames withReferences withVocabularies, len name < 2 ^ 64 := by decide +kernel
  have written : encodeCanonical proposition = encodeCanonical (propositionToCbor proof.proposition) := by
    rw [← canonical]
    exact encodeValue_sortMaps _
  rw [binding_eq _ _ _ _ _ _ _ bounded.vocabulariesSorted, Encodable.encAny]
  · -- the propositions differ in the order of their fields alone
    refine congrArg Except.ok (encodeCanonical_record_congr ?_)
    simp only [bindingFields, List.map_append, List.map_cons, List.map_nil, written]
  · refine encodable_record _ (bindingFields_names _ _ _ _ _ _ _ _) (bindingNames_nodup _ _) (short _ _) ?_
    rw [bindingFields, List.forall_mem_append, List.forall_mem_append]
    refine ⟨⟨?_, ?_⟩, ?_⟩
    · simp only [List.forall_mem_cons, List.not_mem_nil, false_implies, implies_true, and_true]
      exact ⟨ids attestationCount (by decide +kernel), encodable_uint _, ids eventCount (by decide +kernel),
        ids evidenceCount (by decide +kernel), ids relationshipCount (by decide +kernel), readable.encodable,
        encodable_uint _⟩
    · split
      · simp
      · simpa using encodable_sortedIds referenceCount bounded.references
    · split
      · simp
      · have declared : Encodable (.array ((sortOn (fun declared => utf8 declared.ns)
            proof.vocabularies).map vocabularyToCbor)) :=
          encodable_array (by simpa using vocabularyCount)
            (by simpa using fun declared member => encodable_vocabularyToCbor (bounded.vocabularies declared member))
        simpa using declared

end

end

end ProofEngine.Interop

import ProofEngine.Cli.Ingest
import ProofEngine.Crypto.Envelope

/-! # Records posted for ingestion

The service reads the same records as the command line with a parser of its own.  The two part where
metadata has a value that is not plain text, or keys out of order: the service keeps every value as text
and every key where it stands. -/

namespace ProofEngine

open StableSort Text CborValue

namespace Api

/-- Even length, hexadecimal digits only. -/
def hexDecode (s : String) : Option Bytes := Hex.decode s

def payloadDigest (label : String) (obj : JsonMap) : Except String Bytes :=
  match (obj.lookup "payload_hex").bind Json.asStr with
  | none => .error (label ++ ": missing `payload_hex`")
  | some s =>
    match hexDecode s with
    | none => .error (label ++ ": bad payload hex")
    | some digest => .ok digest

def digestAlgorithm (label : String) (digest : Bytes) : Except String HashAlgorithm :=
  if digest.length = 32 then .ok .sha256
  else if digest.length = 48 then .ok .sha384
  else .error (label ++ ": digest must be 32 or 48 bytes")

/-- Every value as text, in the order of the pairs. -/
def textFields (pairs : List (String × String)) : List (String × MetaValue) :=
  pairs.map fun pair => (pair.1, .text pair.2)

def recordFields (label : String) (obj : JsonMap) : Except String (List (String × MetaValue)) :=
  match obj.lookup "meta" with
  | none => .ok []
  | some spec =>
    match spec.asStr with
    | none => .error (label ++ ": `meta` must be a string")
    | some s => (labelledText label (fieldPairs s)).map textFields

section
variable (primitives : Primitives) (limits : Limits)

def ingestRecord (lineNo : Nat) (value : Json) : Except String String :=
  let label := "line " ++ toString lineNo
  match value with
  | .object obj => do
    checkRecordKeys label obj
    let digest ← payloadDigest label obj
    let alg ← digestAlgorithm label digest
    let metadata ← recordFields label obj
    let eventType ← recordText label obj "type"
    let subject ← recordText label obj "subject"
    let effectiveAt ← recordTime label obj
    let payloadRef ← labelled label (HashRef.new alg digest)
    let content : EventContent := { v := 1, eventType, subject, effectiveAt, payloadRef, metadata }
    (labelled label (createEvent primitives content limits)).map CreatedEvent.id
  | _ => .error (label ++ ": must be a JSON object")

end

/-! ## What the service creates -/

section
variable {label : String} {obj : JsonMap}

theorem payloadDigest_eq_ok {digest : Bytes} : payloadDigest label obj = .ok digest ↔
    ∃ s, obj.lookup "payload_hex" = some (.string s) ∧ Hex.decode s = some digest := by
  unfold payloadDigest
  split
  · rename_i absent
    simp only [Option.bind_eq_none_iff] at absent
    constructor
    · intro done
      cases done
    · rintro ⟨s, looked, _⟩
      cases absent _ looked
  · rename_i s here
    simp only [Option.bind_eq_some_iff, asStr_eq_some] at here
    obtain ⟨_, looked, rfl⟩ := here
    simp only [looked, hexDecode, Option.some.injEq, Json.string.injEq, exists_eq_left']
    cases Hex.decode s <;> simp

theorem digestRef_eq_ok {digest : Bytes} {hash : HashRef} :
    (∃ alg, digestAlgorithm label digest = .ok alg ∧ HashRef.new alg digest = .ok hash) ↔
      hash.digest = digest ∧ hash.Bounded := by
  rw [← hashRefNew_of_length, digestAlgorithm]
  by_cases short : digest.length = 32
  · simp [short]
  · by_cases long : digest.length = 48
    · simp [long]
    · simp [short, long]

theorem recordFields_eq_ok {metadata : List (String × MetaValue)} :
    recordFields label obj = .ok metadata ↔ ∃ pairs, PairsUnder obj pairs ∧ metadata = textFields pairs := by
  unfold recordFields
  cases present : obj.lookup "meta" with
  | none =>
    simp only [PairsUnder, present]
    constructor
    · intro done
      cases done
      exact ⟨[], .inl ⟨trivial, rfl⟩, rfl⟩
    · rintro ⟨pairs, ⟨_, rfl⟩ | ⟨_, same, _⟩, rfl⟩
      · rfl
      · cases same
  | some spec =>
    cases spec with
    | string s =>
      simp only [PairsUnder, present, Json.asStr, map_eq_ok, labelledText_eq_ok]
      constructor
      · rintro ⟨pairs, done, rfl⟩
        exact ⟨pairs, .inr ⟨s, rfl, done⟩, rfl⟩
      · rintro ⟨pairs, ⟨same, _⟩ | ⟨_, same, done⟩, rfl⟩
        · cases same
        · cases same
          exact ⟨pairs, done, rfl⟩
    | _ => simp [PairsUnder, present, Json.asStr]

/-- No digest is spelled by the empty text. -/
theorem textUnder_of_digest {name s : String} {hash : HashRef} (looked : obj.lookup name = some (.string s))
    (decoded : Hex.decode s = some hash.digest) (bounded : hash.Bounded) : TextUnder obj name s := by
  refine ⟨looked, Bool.eq_false_iff.mpr fun empty => ?_⟩
  rw [String.isEmpty_iff] at empty
  subst empty
  have hollow : ([] : Bytes) = hash.digest := Option.some.inj decoded
  have length := bounded.length
  rw [← hollow] at length
  cases algorithm : hash.alg <;> simp [algorithm, HashAlgorithm.digestLen] at length

/-- The service creates the event of the record with its metadata as text. -/
theorem ingestRecord_eq_ok {primitives : Primitives} {limits : Limits} {lineNo : Nat} {id : String} :
    ingestRecord primitives limits lineNo (.object obj) = .ok id ↔
      ∃ record, Records obj record ∧
        ∃ created, createEvent primitives (record.event (textFields record.pairs)) limits = .ok created ∧
          created.id = id := by
  simp only [ingestRecord, bind_eq_ok, recordText_eq_ok, recordTime_eq_ok, checkRecordKeys_eq_ok, labelled_eq_ok,
    payloadDigest_eq_ok, recordFields_eq_ok, map_eq_ok]
  constructor
  · rintro ⟨_, known, digest, ⟨s, looked, decoded⟩, alg, algorithm, metadata, ⟨pairs, pairsUnder, rfl⟩, eventType,
      typeUnder, subject, subjectUnder, effectiveAt, timeUnder, payloadRef, made, created, done, same⟩
    obtain ⟨rfl, bounded⟩ := digestRef_eq_ok.mp ⟨alg, algorithm, made⟩
    exact ⟨{ eventType, subject, effectiveAt, payloadRef, pairs },
      ⟨known, typeUnder, subjectUnder, timeUnder, ⟨s, textUnder_of_digest looked decoded bounded, decoded⟩, bounded,
        pairsUnder⟩, created, done, same⟩
  · rintro ⟨record, records, created, done, same⟩
    obtain ⟨s, ⟨looked, _⟩, decoded⟩ := records.payload
    obtain ⟨alg, algorithm, made⟩ := (@digestRef_eq_ok ("line " ++ toString lineNo) _ _).mpr ⟨rfl, records.digest⟩
    exact ⟨(), records.known, record.payloadRef.digest, ⟨s, looked, decoded⟩, alg, algorithm, _,
      ⟨record.pairs, records.pairs, rfl⟩, record.eventType, records.eventType, record.subject, records.subject,
      record.effectiveAt, records.effectiveAt, record.payloadRef, made, created, done, same⟩

end

/-! ## Where the two agree -/

theorem Records.unique {obj : JsonMap} {record other : IngestRecord} (records : Records obj record)
    (otherRecords : Records obj other) : record = other := by
  have texts : ∀ {name s t : String}, TextUnder obj name s → TextUnder obj name t → s = t := fun left right =>
    Json.string.inj (Option.some.inj (left.1.symm.trans right.1))
  have payloads : record.payloadRef = other.payloadRef := by
    obtain ⟨s, under, decoded⟩ := records.payload
    obtain ⟨t, otherUnder, otherDecoded⟩ := otherRecords.payload
    cases texts under otherUnder
    have digests := Option.some.inj (decoded.symm.trans otherDecoded)
    have made := hashRefNew_of_length.mpr ⟨digests, records.digest⟩
    have otherMade := hashRefNew_of_length.mpr ⟨rfl, otherRecords.digest⟩
    grind
  have pairs : record.pairs = other.pairs := by
    rcases records.pairs with ⟨absent, pairless⟩ | ⟨spec, present, read⟩
    · rcases otherRecords.pairs with ⟨_, otherNone⟩ | ⟨_, otherPresent, _⟩
      · rw [pairless, otherNone]
      · cases absent.symm.trans otherPresent
    · rcases otherRecords.pairs with ⟨otherAbsent, _⟩ | ⟨_, otherPresent, otherRead⟩
      · cases otherAbsent.symm.trans present
      · cases present.symm.trans otherPresent
        exact Except.ok.inj (read.symm.trans otherRead)
  cases record
  cases other
  simp only [IngestRecord.mk.injEq]
  exact ⟨texts records.eventType otherRecords.eventType, texts records.subject otherRecords.subject,
    Option.some.inj (records.effectiveAt.symm.trans otherRecords.effectiveAt), payloads, pairs⟩

/-- No value but plain text, and every key where the encoder puts it. -/
def PlainlyOrdered (pairs : List (String × String)) : Prop :=
  (∀ pair ∈ pairs, typedValue pair.2 = .text pair.2) ∧
    pairs.Pairwise fun left right => encodeCanonical (.text left.1) ≤ encodeCanonical (.text right.1)

instance (pairs : List (String × String)) : Decidable (PlainlyOrdered pairs) := inferInstanceAs (Decidable (_ ∧ _))

theorem typedValue_of_eq_text {v s : String} (same : typedValue v = .text s) : s = v := by
  unfold typedValue at same
  split at same
  · cases same
  · split at same
    · cases same
    · split at same
      · cases same
      · cases same
        rfl

theorem typedFields_eq_textFields {pairs : List (String × String)} :
    typedFields pairs = textFields pairs ↔ PlainlyOrdered pairs := by
  constructor
  · intro same
    -- a typed value is among the texts, so it is one
    have plain : ∀ pair ∈ pairs, typedValue pair.2 = .text pair.2 := by
      intro pair member
      have inside : (pair.1, typedValue pair.2) ∈ textFields pairs := by
        rw [← same, typedFields, entriesInKeyOrder, mem_sortOn]
        exact List.mem_map.mpr ⟨pair, member, rfl⟩
      obtain ⟨other, _, equal⟩ := List.mem_map.mp inside
      have typed : typedValue pair.2 = .text other.2 := (congrArg Prod.snd equal).symm
      rw [typed, typedValue_of_eq_text typed]
    refine ⟨plain, ?_⟩
    have sorted := sortOn_pairwise (fun entry : String × MetaValue => encodeCanonical (.text entry.1))
      (pairs.map fun pair => (pair.1, typedValue pair.2))
    change (typedFields pairs).Pairwise _ at sorted
    rwa [same, textFields, List.pairwise_map] at sorted
  · rintro ⟨plain, ordered⟩
    have values : (pairs.map fun pair => (pair.1, typedValue pair.2)) = textFields pairs :=
      List.map_congr_left fun pair member => by rw [plain pair member]
    rw [typedFields, values]
    exact sortOn_of_pairwise (List.pairwise_map.mpr ordered)

/-- Both refuse, or both accept with one id. -/
def SameOutcome (left right : Except String String) : Prop := ∀ id, left = .ok id ↔ right = .ok id

/-- The two encodings a record can get. -/
def recordEncodings (record : IngestRecord) : List Bytes :=
  [encodeCanonical (eventRecord (record.event (typedFields record.pairs))),
   encodeCanonical (eventRecord (record.event (textFields record.pairs)))]

/-- The metadata of a record reads the same way twice, or neither reading can be stored. -/
def ReadsOneWay (limits : Limits) (record : IngestRecord) : Prop :=
  PlainlyOrdered record.pairs ∨
    ¬ (record.event (typedFields record.pairs)).Storable limits ∧
      ¬ (record.event (textFields record.pairs)).Storable limits

section
variable {hexError : String → String} {primitives : Primitives} {limits : Limits} {lineNo : Nat} {obj : JsonMap}
  {record : IngestRecord} {id : String}

theorem ingestLine_of_records (records : Records obj record) :
    ingestLine hexError primitives limits lineNo (.object obj) = .ok id ↔
      (record.event (typedFields record.pairs)).Storable limits ∧
        (createdEvent primitives (record.event (typedFields record.pairs))).id = id := by
  simp only [ingestLine_eq_ok, createEvent_eq_ok]
  constructor
  · rintro ⟨found, foundRecords, _, ⟨storable, rfl⟩, same⟩
    cases Records.unique records foundRecords
    exact ⟨storable, same⟩
  · rintro ⟨storable, same⟩
    exact ⟨record, records, _, ⟨storable, rfl⟩, same⟩

theorem ingestRecord_of_records (records : Records obj record) :
    ingestRecord primitives limits lineNo (.object obj) = .ok id ↔
      (record.event (textFields record.pairs)).Storable limits ∧
        (createdEvent primitives (record.event (textFields record.pairs))).id = id := by
  simp only [ingestRecord_eq_ok, createEvent_eq_ok]
  constructor
  · rintro ⟨found, foundRecords, _, ⟨storable, rfl⟩, same⟩
    cases Records.unique records foundRecords
    exact ⟨storable, same⟩
  · rintro ⟨storable, same⟩
    exact ⟨record, records, _, ⟨storable, rfl⟩, same⟩

theorem sameOutcome_iff_of_records {otherLineNo : Nat} (records : Records obj record)
    (collisionFree : CollisionFree primitives (recordEncodings record)) :
    SameOutcome (ingestLine hexError primitives limits lineNo (.object obj))
        (ingestRecord primitives limits otherLineNo (.object obj)) ↔
      ReadsOneWay limits record := by
  simp only [SameOutcome, ingestLine_of_records records, ingestRecord_of_records records]
  constructor
  · intro same
    by_contra twoWays
    obtain ⟨unlike, stored⟩ := not_or.mp twoWays
    -- one reading can be stored, so the other is stored under the same id
    obtain ⟨typed, text, ids⟩ : (record.event (typedFields record.pairs)).Storable limits ∧
        (record.event (textFields record.pairs)).Storable limits ∧
        (createdEvent primitives (record.event (typedFields record.pairs))).id =
          (createdEvent primitives (record.event (textFields record.pairs))).id := by
      by_cases typed : (record.event (typedFields record.pairs)).Storable limits
      · obtain ⟨text, ids⟩ := (same _).mp ⟨typed, rfl⟩
        exact ⟨typed, text, ids.symm⟩
      · have text := not_not.mp (mt (And.intro typed) stored)
        exact absurd ((same _).mpr ⟨text, rfl⟩).1 typed
    have contents := typed.eq_of_id text collisionFree ids
    exact unlike (typedFields_eq_textFields.mp (congrArg EventContent.metadata contents))
  · rintro (alike | ⟨typed, text⟩) id
    · rw [typedFields_eq_textFields.mpr alike]
    · simp [typed, text]

end

/-- Command line and service agree on a record exactly when its metadata reads one way. -/
theorem ingest_exact (hexError : String → String) (primitives : Primitives) (limits : Limits) (lineNo otherLineNo : Nat)
    (value : Json)
    (collisionFree : ∀ obj record, value = .object obj → Records obj record →
      CollisionFree primitives (recordEncodings record)) :
    SameOutcome (ingestLine hexError primitives limits lineNo value)
        (ingestRecord primitives limits otherLineNo value) ↔
      ∀ obj record, value = .object obj → Records obj record → ReadsOneWay limits record := by
  cases value with
  | object obj =>
    constructor
    · rintro same _ record ⟨⟩ records
      exact (sameOutcome_iff_of_records records (collisionFree obj record rfl records)).mp same
    · intro oneWay
      by_cases read : ∃ record, Records obj record
      · obtain ⟨record, records⟩ := read
        exact (sameOutcome_iff_of_records records (collisionFree obj record rfl records)).mpr
          (oneWay obj record rfl records)
      · intro id
        simp only [ingestLine_eq_ok, ingestRecord_eq_ok]
        constructor
        · rintro ⟨record, records, _⟩
          exact absurd ⟨record, records⟩ read
        · rintro ⟨record, records, _⟩
          exact absurd ⟨record, records⟩ read
  | _ => simp [SameOutcome, ingestLine, ingestRecord]

/-- A measurement with a payload of 32 bytes. -/
def measurement (spec : String) : JsonMap :=
  [("effective_at", .number "1700000000"), ("meta", .string spec),
   ("payload_hex", .string "abababababababababababababababababababababababababababababababab"),
   ("subject", .string "sensor:m1"), ("type", .string "sensor.measurement.recorded")]

def measurementRecord (value : String) : IngestRecord where
  eventType := "sensor.measurement.recorded"
  subject := "sensor:m1"
  effectiveAt := 1700000000
  payloadRef := { v := 1, alg := .sha256, digest := List.replicate 32 0xab }
  pairs := [("unit", "celsius"), ("value", value)]

theorem measurement_records : Records (measurement "unit=celsius,value=36.8") (measurementRecord "36.8") where
  known := by decide +kernel
  eventType := ⟨rfl, by decide +kernel⟩
  subject := ⟨rfl, by decide +kernel⟩
  effectiveAt := by decide +kernel
  payload := ⟨_, ⟨rfl, by decide +kernel⟩, by decide +kernel⟩
  digest := ⟨rfl, rfl⟩
  pairs := .inr ⟨_, rfl, by decide +kernel⟩

/-- A decimal is plain text to both. -/
theorem measurement_agrees :
    SameOutcome
      (ingestLine (fun _ => "bad digit") (Primitives.ofTable [] []) Limits.default 1
        (.object (measurement "unit=celsius,value=36.8")))
      (ingestRecord (Primitives.ofTable [] []) Limits.default 1
        (.object (measurement "unit=celsius,value=36.8"))) := by
  have plain : PlainlyOrdered (measurementRecord "36.8").pairs := by decide +kernel
  refine (ingest_exact _ _ _ _ _ _ ?_).mpr ?_
  · rintro _ record ⟨⟩ records
    cases Records.unique measurement_records records
    -- both readings have one encoding
    simp [recordEncodings, typedFields_eq_textFields.mpr plain, CollisionFree]
  · rintro _ record ⟨⟩ records
    cases Records.unique measurement_records records
    exact .inl plain

/-- The digests of the event with the number 36 and with the text. -/
def measurementPrimitives : Primitives :=
  Primitives.ofTable
    [(encodeCanonical (eventRecord ((measurementRecord "36").event
        [("unit", .text "celsius"), ("value", .uint 36)])),
      [0x2a, 0x3d, 0xfc, 0x46, 0x3e, 0xfb, 0xc6, 0xeb, 0x7e, 0x1b, 0x3e, 0xce, 0xa0, 0x8c, 0x72, 0x4b,
       0xa9, 0xb2, 0xa2, 0xc5, 0x16, 0x92, 0x7d, 0xc1, 0xc1, 0x50, 0x5e, 0xbc, 0xe7, 0xf4, 0x0b, 0xcb]),
     (encodeCanonical (eventRecord ((measurementRecord "36").event
        [("unit", .text "celsius"), ("value", .text "36")])),
      [0xf2, 0x82, 0x15, 0x4e, 0x0c, 0xea, 0xf2, 0x11, 0x23, 0x0d, 0x22, 0x9b, 0xa9, 0x20, 0x8b, 0x74,
       0x67, 0xfc, 0xf6, 0xd5, 0x02, 0x10, 0x59, 0x41, 0x2c, 0x27, 0x52, 0xaf, 0x8b, 0xdc, 0x13, 0x70])]
    []

/-- A number gets two ids. -/
theorem measurement_two_ids :
    ¬ SameOutcome
      (ingestLine (fun _ => "bad digit") measurementPrimitives Limits.default 1
        (.object (measurement "unit=celsius,value=36")))
      (ingestRecord measurementPrimitives Limits.default 1
        (.object (measurement "unit=celsius,value=36"))) := by
  have typed : ingestLine (fun _ => "bad digit") measurementPrimitives Limits.default 1
      (.object (measurement "unit=celsius,value=36")) =
        .ok "evt:v1:Kj38Rj77xut-Gz7OoIxyS6myosUWkn3BwVBevOf0C8s" := by
    decide +kernel
  have text : ingestRecord measurementPrimitives Limits.default 1
      (.object (measurement "unit=celsius,value=36")) =
        .ok "evt:v1:8oIVTgzq8hEjDSKbqSCLdGf89tUCEFlBLCdSr4vcE3A" := by
    decide +kernel
  intro same
  have accepted := (same _).mp typed
  rw [text] at accepted
  exact absurd (Except.ok.inj accepted) (by decide +kernel)

end Api

end ProofEngine

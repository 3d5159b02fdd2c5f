import ProofEngine.Cli.Input
import ProofEngine.Crypto.CreateExact

/-! # Ingested records

`ingest` turns one JSON object into an event.  Metadata comes as one text of `k=v` pairs; the command
line types its values and puts its keys in order. -/

namespace ProofEngine

open Text

def labelledText {α : Type} (label : String) : Except String α → Except String α
  | .ok value => .ok value
  | .error message => .error (label ++ ": " ++ message)

/-! ## Fields -/

def recordKeys : List String := ["type", "subject", "payload_hex", "effective_at", "meta"]

/-- A string field that is there and not empty. -/
def recordText (label : String) (obj : JsonMap) (name : String) : Except String String :=
  match ((obj.lookup name).bind Json.asStr).filter fun s => !s.isEmpty with
  | some s => .ok s
  | none => .error (label ++ ": missing non-empty string field `" ++ name ++ "`")

def recordTime (label : String) (obj : JsonMap) : Except String UInt64 :=
  match (obj.lookup "effective_at").bind Json.asU64 with
  | some time => .ok time
  | none => .error (label ++ ": missing u64 field `effective_at`")

def recordMeta (label : String) (obj : JsonMap) : Except String (Option String) :=
  match obj.lookup "meta" with
  | none => .ok none
  | some (.string spec) => .ok (some spec)
  | some _ => .error (label ++ ": `meta` must be a string")

def checkRecordKeys (label : String) (obj : JsonMap) : Except String Unit :=
  match (obj.map Prod.fst).find? fun key => !recordKeys.contains key with
  | none => .ok ()
  | some key => .error (label ++ ": unknown field `" ++ key ++ "`")

/-! ## Metadata -/

/-- One `k=v`. -/
def fieldPair (pair : String) : Except String (String × String) :=
  match cut pair "=" with
  | none => .error ("bad field `" ++ pair ++ "` (expected k=v)")
  | some (k, v) =>
    if k.isEmpty || v.isEmpty then .error ("bad field `" ++ pair ++ "` (empty key or value)") else .ok (k, v)

def fieldPairs (spec : String) : Except String (List (String × String)) := (splitAt spec ',').mapM fieldPair

/-- The value a command line means. -/
def typedValue (v : String) : MetaValue :=
  if v = "true" then .bool true
  else if v = "false" then .bool false
  else
    match parseU64 v with
    | some n => .uint n
    | none => .text v

/-- Typed values under keys in the order of the encoder. -/
def typedFields (pairs : List (String × String)) : List (String × MetaValue) :=
  entriesInKeyOrder (pairs.map fun pair => (pair.1, typedValue pair.2))

def parseFields : Option String → Except String (List (String × MetaValue))
  | none => .ok []
  | some spec => (fieldPairs spec).map typedFields

/-! ## Digests -/

section
-- the decoder's message for text that is not hexadecimal
variable (hexError : String → String)

def hashRefFromHex (s : String) : Except String HashRef :=
  match Hex.decode s with
  | none => .error ("bad digest hex: " ++ hexError s)
  | some digest =>
    if digest.length = 32 then (HashRef.new .sha256 digest).mapError ProofError.display
    else if digest.length = 48 then (HashRef.new .sha384 digest).mapError ProofError.display
    else .error "digest must be 64 (SHA-256) or 96 (SHA-384) hex chars"

variable (primitives : Primitives) (limits : Limits)

/-- One record of a dry run, as the id of its event. -/
def ingestLine (lineNo : Nat) (value : Json) : Except String String :=
  let label := "line " ++ toString lineNo
  match value with
  | .object obj => do
    let eventType ← recordText label obj "type"
    let subject ← recordText label obj "subject"
    let payloadHex ← recordText label obj "payload_hex"
    let effectiveAt ← recordTime label obj
    let spec ← recordMeta label obj
    checkRecordKeys label obj
    let payloadRef ← labelledText label (hashRefFromHex hexError payloadHex)
    let metadata ← labelledText label (parseFields spec)
    let content : EventContent := { v := 1, eventType, subject, effectiveAt, payloadRef, metadata }
    let created ← labelled label (createEvent primitives content limits)
    .ok created.id
  | _ => .error (label ++ ": must be a JSON object")

end

/-! ## What the record says -/

/-- The parts of a record before its metadata is given a meaning. -/
structure IngestRecord where
  eventType : String
  subject : String
  effectiveAt : UInt64
  payloadRef : HashRef
  pairs : List (String × String)

def IngestRecord.event (record : IngestRecord) (metadata : List (String × MetaValue)) : EventContent where
  v := 1
  eventType := record.eventType
  subject := record.subject
  effectiveAt := record.effectiveAt
  payloadRef := record.payloadRef
  metadata := metadata

/-- The non-empty text under a key. -/
def TextUnder (obj : JsonMap) (name s : String) : Prop := obj.lookup name = some (.string s) ∧ s.isEmpty = false

/-- The pairs of the metadata text, none without one. -/
def PairsUnder (obj : JsonMap) (pairs : List (String × String)) : Prop :=
  (obj.lookup "meta" = none ∧ pairs = []) ∨
    ∃ spec, obj.lookup "meta" = some (.string spec) ∧ fieldPairs spec = .ok pairs

/-- The object is a record with these parts. -/
structure Records (obj : JsonMap) (record : IngestRecord) : Prop where
  known : ∀ entry ∈ obj, entry.1 ∈ recordKeys
  eventType : TextUnder obj "type" record.eventType
  subject : TextUnder obj "subject" record.subject
  effectiveAt : (obj.lookup "effective_at").bind Json.asU64 = some record.effectiveAt
  payload : ∃ s, TextUnder obj "payload_hex" s ∧ Hex.decode s = some record.payloadRef.digest
  digest : record.payloadRef.Bounded
  pairs : PairsUnder obj record.pairs

section
variable {label : String} {obj : JsonMap}

theorem labelledText_eq_ok {α : Type} {result : Except String α} {value : α} :
    labelledText label result = .ok value ↔ result = .ok value := by
  cases result <;> simp [labelledText]

theorem mapError_eq_ok {α ε ε' : Type} {f : ε → ε'} {result : Except ε α} {value : α} :
    result.mapError f = .ok value ↔ result = .ok value := by
  cases result <;> simp [Except.mapError]

theorem asStr_eq_some {json : Json} {s : String} : json.asStr = some s ↔ json = .string s := by
  cases json <;> simp [Json.asStr]

theorem recordText_eq_ok {name s : String} : recordText label obj name = .ok s ↔ TextUnder obj name s := by
  unfold recordText
  split
  · rename_i found here
    simp only [Option.filter_eq_some_iff, Option.bind_eq_some_iff, asStr_eq_some, Bool.not_eq_true'] at here
    obtain ⟨⟨_, looked, rfl⟩, filled⟩ := here
    constructor
    · intro done
      cases done
      exact ⟨looked, filled⟩
    · rintro ⟨same, _⟩
      cases looked.symm.trans same
      rfl
  · rename_i absent
    constructor
    · intro done
      cases done
    · rintro ⟨looked, filled⟩
      have empty : s = "" := by simpa [looked, Json.asStr] using absent
      simp [empty] at filled

theorem recordTime_eq_ok {time : UInt64} :
    recordTime label obj = .ok time ↔ (obj.lookup "effective_at").bind Json.asU64 = some time := by
  unfold recordTime
  cases (obj.lookup "effective_at").bind Json.asU64 <;> simp

theorem checkRecordKeys_eq_ok {nothing : Unit} :
    checkRecordKeys label obj = .ok nothing ↔ ∀ entry ∈ obj, entry.1 ∈ recordKeys := by
  have unknown : (obj.map Prod.fst).find? (fun key => !recordKeys.contains key) = none ↔
      ∀ entry ∈ obj, entry.1 ∈ recordKeys := by
    simp [List.find?_eq_none]
  rw [← unknown, checkRecordKeys]
  cases (obj.map Prod.fst).find? fun key => !recordKeys.contains key <;> simp

/-- A digest of one of the two lengths, by its length. -/
theorem hashRefNew_of_length {digest : Bytes} {hash : HashRef} :
    (digest.length = 32 ∧ HashRef.new .sha256 digest = .ok hash) ∨
        (digest.length = 48 ∧ HashRef.new .sha384 digest = .ok hash) ↔
      hash.digest = digest ∧ hash.Bounded := by
  simp only [hashRefNew_eq_ok]
  constructor
  · rintro (⟨_, _, same, bounded⟩ | ⟨_, _, same, bounded⟩)
    · exact ⟨same, bounded⟩
    · exact ⟨same, bounded⟩
  · rintro ⟨rfl, bounded⟩
    cases algorithm : hash.alg with
    | sha256 => exact .inl ⟨by rw [bounded.length, algorithm]; rfl, rfl, rfl, bounded⟩
    | sha384 => exact .inr ⟨by rw [bounded.length, algorithm]; rfl, rfl, rfl, bounded⟩

theorem hashRefFromHex_eq_ok {hexError : String → String} {s : String} {hash : HashRef} :
    hashRefFromHex hexError s = .ok hash ↔ Hex.decode s = some hash.digest ∧ hash.Bounded := by
  unfold hashRefFromHex
  cases Hex.decode s with
  | none => simp
  | some digest =>
    rw [Option.some.injEq, @eq_comm _ digest, ← hashRefNew_of_length]
    by_cases short : digest.length = 32
    · simp [mapError_eq_ok, short]
    · by_cases long : digest.length = 48
      · simp [mapError_eq_ok, long]
      · simp [short, long]

/-- What the metadata text is turned into. -/
theorem parseFields_eq_ok {spec : Option String} {metadata : List (String × MetaValue)}
    (read : recordMeta label obj = .ok spec) :
    parseFields spec = .ok metadata ↔ ∃ pairs, PairsUnder obj pairs ∧ metadata = typedFields pairs := by
  unfold recordMeta at read
  split at read
  · rename_i absent
    cases read
    simp only [parseFields, PairsUnder, absent]
    constructor
    · intro done
      cases done
      exact ⟨[], .inl ⟨trivial, rfl⟩, rfl⟩
    · rintro ⟨pairs, ⟨_, rfl⟩ | ⟨_, same, _⟩, rfl⟩
      · rfl
      · cases same
  · rename_i spec present
    cases read
    simp only [parseFields, PairsUnder, present, map_eq_ok]
    constructor
    · rintro ⟨pairs, done, rfl⟩
      exact ⟨pairs, .inr ⟨spec, rfl, done⟩, rfl⟩
    · rintro ⟨pairs, ⟨same, _⟩ | ⟨_, same, done⟩, rfl⟩
      · cases same
      · cases same
        exact ⟨pairs, done, rfl⟩
  · cases read

theorem recordMeta_of_pairs {pairs : List (String × String)} (under : PairsUnder obj pairs) :
    ∃ spec, recordMeta label obj = .ok spec := by
  rcases under with ⟨absent, _⟩ | ⟨spec, present, _⟩
  · exact ⟨none, by rw [recordMeta, absent]⟩
  · exact ⟨some spec, by rw [recordMeta, present]⟩

/-- The command line creates the event of the record with typed metadata. -/
theorem ingestLine_eq_ok {hexError : String → String} {primitives : Primitives} {limits : Limits} {lineNo : Nat}
    {id : String} :
    ingestLine hexError primitives limits lineNo (.object obj) = .ok id ↔
      ∃ record, Records obj record ∧
        ∃ created, createEvent primitives (record.event (typedFields record.pairs)) limits = .ok created ∧
          created.id = id := by
  simp only [ingestLine, bind_eq_ok, recordText_eq_ok, recordTime_eq_ok, checkRecordKeys_eq_ok, labelledText_eq_ok,
    labelled_eq_ok, hashRefFromHex_eq_ok]
  constructor
  · rintro ⟨eventType, typeUnder, subject, subjectUnder, payloadHex, payloadUnder, effectiveAt, timeUnder, spec,
      specUnder, _, known, payloadRef, ⟨decoded, bounded⟩, metadata, parsed, created, done, same⟩
    obtain ⟨pairs, pairsUnder, rfl⟩ := (parseFields_eq_ok specUnder).mp parsed
    cases same
    exact ⟨{ eventType, subject, effectiveAt, payloadRef, pairs },
      ⟨known, typeUnder, subjectUnder, timeUnder, ⟨payloadHex, payloadUnder, decoded⟩, bounded, pairsUnder⟩, created,
      done, rfl⟩
  · rintro ⟨record, records, created, done, rfl⟩
    obtain ⟨payloadHex, payloadUnder, decoded⟩ := records.payload
    obtain ⟨spec, specUnder⟩ := @recordMeta_of_pairs ("line " ++ toString lineNo) obj record.pairs records.pairs
    exact ⟨record.eventType, records.eventType, record.subject, records.subject, payloadHex, payloadUnder,
      record.effectiveAt, records.effectiveAt, spec, specUnder, (), records.known, record.payloadRef,
      ⟨decoded, records.digest⟩, _, (parseFields_eq_ok specUnder).mpr ⟨record.pairs, records.pairs, rfl⟩, created, done,
      rfl⟩

end

end ProofEngine

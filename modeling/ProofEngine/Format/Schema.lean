import ProofEngine.Core.Limits
import ProofEngine.Core.Model
import ProofEngine.Format.Cbor
import ProofEngine.Lib.Base64Url

/-! # Closed schemas

Encoders and parsers of events, attestations, evidence, relationships, propositions and
whole proofs.  Unknown fields are rejected; the first entry with a key is the one read. -/

namespace ProofEngine

open StableSort Text

abbrev Entries := List (CborValue × CborValue)

/-! ## Field access -/

def isKey (key : String) : CborValue → Bool
  | .text text => text == key
  | _ => false

/-- The value of the first entry whose key is the text `key`. -/
def findField (entries : Entries) (key : String) : Option CborValue :=
  (entries.find? fun entry => isKey key entry.1).map Prod.snd

def schemaError {α : Type} (message : String) : Result α :=
  .error (ErrorCode.schemaViolation.err message)

def limitError {α : Type} (message : String) : Result α :=
  .error (ErrorCode.limitExceeded.err message)

/-- The value of a field that must be there. -/
def requireField (entries : Entries) (key : String) : Result CborValue :=
  match findField entries key with
  | some value => .ok value
  | none => schemaError ("missing field " ++ key)

def textField (entries : Entries) (key : String) : Result String := do
  match ← requireField entries key with
  | .text s =>
    if s.isEmpty || 1024 < len s then schemaError ("field " ++ key ++ " length out of bounds")
    else .ok s
  | _ => schemaError ("field " ++ key ++ " must be text")

def uintField (entries : Entries) (key : String) : Result UInt64 := do
  match ← requireField entries key with
  | .uint n => .ok n
  | _ => schemaError ("field " ++ key ++ " must be uint")

def optTextOrNil (entries : Entries) (key : String) : Result (Option String) := do
  match ← requireField entries key with
  | .null => .ok none
  | .text s =>
    if s.isEmpty || 1024 < len s then schemaError ("field " ++ key ++ " too long") else .ok (some s)
  | _ => schemaError ("field " ++ key ++ " must be text|nil")

/-- A typed reference: text that starts with `lead`, or nil. -/
def optRefOrNil (entries : Entries) (key lead : String) : Result (Option String) := do
  match ← optTextOrNil entries key with
  | none => .ok none
  | some s =>
    if startsWith s lead then .ok (some s)
    else schemaError ("field " ++ key ++ " " ++ s ++ " must start with " ++ lead)

def optUintOrNil (entries : Entries) (key : String) : Result (Option UInt64) := do
  match ← requireField entries key with
  | .null => .ok none
  | .uint n => .ok (some n)
  | _ => schemaError ("field " ++ key ++ " must be uint|nil")

def checkVersion (entries : Entries) : Result Unit := do
  match ← requireField entries "v" with
  | .uint n => if n = 1 then .ok () else .error (ErrorCode.unsupportedVersion.err "only v=1 supported")
  | _ => .error (ErrorCode.unsupportedVersion.err "only v=1 supported")

/-- Every key is text and one of `allowed`. -/
def checkClosed (allowed : List String) (what : String) : Entries → Result Unit
  | [] => .ok ()
  | (.text key, _) :: entries =>
    if allowed.contains key then checkClosed allowed what entries
    else schemaError (what ++ ": unknown field " ++ key)
  | _ :: _ => schemaError (what ++ ": non-text map key")

/-- A map with text keys. -/
def record (fields : List (String × CborValue)) : CborValue :=
  .map (fields.map fun field => (.text field.1, field.2))

def textOrNil : Option String → CborValue
  | some s => .text s
  | none => .null

def uintOrNil : Option UInt64 → CborValue
  | some n => .uint n
  | none => .null

/-! ## Free-form maps -/

def metaValueFromCbor : CborValue → Result MetaValue
  | .text s => if 1024 < len s then schemaError "meta text too long" else .ok (.text s)
  | .uint n => .ok (.uint n)
  | .bool b => .ok (.bool b)
  | _ => schemaError "meta value must be text|uint|bool"

def metaValueToCbor : MetaValue → CborValue
  | .text s => .text s
  | .uint n => .uint n
  | .bool b => .bool b

def metaToFields (entries : List (String × MetaValue)) : List (String × CborValue) :=
  entries.map fun entry => (entry.1, metaValueToCbor entry.2)

/-- The loop over metadata or context entries, with the keys seen so far. -/
def metaFromEntries (what : String) : (seen : List String) → Entries → Result (List (String × MetaValue))
  | _, [] => .ok []
  | seen, (.text key, value) :: entries =>
    if 64 < len key || seen.contains key then schemaError ("bad " ++ what ++ " key")
    else do
      let value ← metaValueFromCbor value
      let others ← metaFromEntries what (key :: seen) entries
      .ok ((key, value) :: others)
  | _, _ :: _ => schemaError (what ++ " key must be text")

/-- A metadata or context map. -/
def metaField (entries : Entries) (what : String) : Result (List (String × MetaValue)) := do
  match ← requireField entries what with
  | .map pairs =>
    if 16 < pairs.length then limitError (what ++ " too many entries") else metaFromEntries what [] pairs
  | _ => schemaError (what ++ " must be map")

/-! ## Hash references -/

def hashrefToCbor (hash : HashRef) : CborValue :=
  record [("alg", .uint hash.alg.cborEnum), ("digest", .bytes hash.digest), ("v", .uint hash.v.toUInt64)]

/-- The first entry that is a `digest` of bytes; other `digest` entries are passed over. -/
def findDigest (entries : Entries) : Option Bytes :=
  entries.findSome? fun entry =>
    if isKey "digest" entry.1 then
      match entry.2 with
      | .bytes b => some b
      | _ => none
    else none

def hashrefFromCbor : CborValue → Result HashRef
  | .map entries => do
    checkClosed ["v", "alg", "digest"] "HashRef" entries
    checkVersion entries
    let alg ← HashAlgorithm.fromCborEnum (← uintField entries "alg")
    match findDigest entries with
    | some digest => HashRef.new alg digest
    | none => schemaError "HashRef.digest must be bytes"
  | _ => schemaError "payload_ref must be map"

/-! ## Events -/

/-- Entries of a member's map, bounded by the map limit. -/
def memberMap (what : String) (limits : Limits) : CborValue → Result Entries
  | .map entries =>
    if limits.maxMapEntries.toNat < entries.length then limitError (what ++ " map too large")
    else .ok entries
  | _ => schemaError (what ++ " must be map")

def eventFields : List String := ["effective_at", "metadata", "payload_ref", "subject", "type", "v"]

def eventToCbor (event : EventContent) : Result CborValue :=
  if event.v ≠ 1 then .error (ErrorCode.unsupportedVersion.err "only v=1 encodable")
  else .ok (record
    [("effective_at", .uint event.effectiveAt),
     ("metadata", record (metaToFields event.metadata)),
     ("payload_ref", hashrefToCbor event.payloadRef),
     ("subject", .text event.subject),
     ("type", .text event.eventType),
     ("v", .uint 1)])

def cborToEvent (limits : Limits) (value : CborValue) : Result EventContent := do
  let entries ← memberMap "Event" limits value
  checkClosed eventFields "Event" entries
  checkVersion entries
  let eventType ← textField entries "type"
  let subject ← textField entries "subject"
  let effectiveAt ← uintField entries "effective_at"
  let payloadRef ← hashrefFromCbor (← requireField entries "payload_ref")
  let metadata ← metaField entries "metadata"
  .ok { v := 1, eventType, subject, effectiveAt, payloadRef, metadata }

/-! ## Attestations -/

def attestationFields : List String :=
  ["claim", "evidence_ref", "expires_at", "issued_at", "issuer", "subject", "v"]

def claimToCbor (claim : Claim) : CborValue :=
  record (("type", .text claim.claimType) :: metaToFields claim.fields)

def attestationToCbor (content : AttestationContent) : CborValue :=
  record
    [("claim", claimToCbor content.claim),
     ("evidence_ref", textOrNil content.evidenceRef),
     ("expires_at", uintOrNil content.expiresAt),
     ("issued_at", .uint content.issuedAt),
     ("issuer", .text content.issuer),
     ("subject", .text content.subject),
     -- The stored version is written, so another version is refused when the bytes are read back.
     ("v", .uint content.v.toUInt64)]

def claimTypeFromCbor : CborValue → Result String
  | .text s => if s.isEmpty || 128 < len s then schemaError "bad claim type" else .ok s
  | _ => schemaError "claim.type must be text"

/-- The loop over claim entries, with the keys and the type seen so far. -/
def claimFromEntries : (seen : List String) → (claimType : Option String) → Entries →
    Result (Option String × List (String × MetaValue))
  | _, claimType, [] => .ok (claimType, [])
  | seen, claimType, (.text key, value) :: entries =>
    if seen.contains key then schemaError "duplicate claim key"
    else if key = "type" then do
      let found ← claimTypeFromCbor value
      claimFromEntries (key :: seen) (some found) entries
    else do
      let value ← metaValueFromCbor value
      let (claimType, others) ← claimFromEntries (key :: seen) claimType entries
      .ok (claimType, (key, value) :: others)
  | _, _, _ :: _ => schemaError "claim key must be text"

def cborToClaim : CborValue → Result Claim
  | .map pairs => do
    if 16 < pairs.length || pairs.isEmpty then schemaError "claim size out of bounds"
    else
      let (claimType, fields) ← claimFromEntries [] none pairs
      match claimType with
      | some claimType => .ok { claimType, fields }
      | none => schemaError "missing claim.type"
  | _ => schemaError "claim must be map"

def cborToAttestation (limits : Limits) (value : CborValue) : Result AttestationContent := do
  let entries ← memberMap "Attestation" limits value
  checkClosed attestationFields "Attestation" entries
  checkVersion entries
  let issuer ← textField entries "issuer"
  let subject ← textField entries "subject"
  let issuedAt ← uintField entries "issued_at"
  let expiresAt ← optUintOrNil entries "expires_at"
  let evidenceRef ← optRefOrNil entries "evidence_ref" "evd:v1:"
  -- The claim is read only after the times have been compared.
  if expiresAt.any (· < issuedAt) then schemaError "expires_at < issued_at"
  else
    let claim ← cborToClaim (← requireField entries "claim")
    .ok { v := 1, issuer, subject, claim, issuedAt, expiresAt, evidenceRef }

/-! ## Evidence -/

def evidenceFields : List String := ["attestation_ref", "digest", "hint", "kind", "v"]

def evidenceToCbor (evidence : Evidence) : CborValue :=
  record
    [("attestation_ref", textOrNil evidence.attestationRef),
     ("digest", hashrefToCbor evidence.digest),
     ("hint", textOrNil evidence.hint),
     ("kind", .text evidence.kind),
     ("v", .uint evidence.v.toUInt64)]

def cborToEvidence (limits : Limits) (value : CborValue) : Result Evidence := do
  let entries ← memberMap "Evidence" limits value
  checkClosed evidenceFields "Evidence" entries
  checkVersion entries
  let kind ← textField entries "kind"
  let digest ← hashrefFromCbor (← requireField entries "digest")
  let attestationRef ← optRefOrNil entries "attestation_ref" "att:v1:"
  let hint ← optTextOrNil entries "hint"
  if hint.any (256 < len ·) then schemaError "hint too long"
  else .ok { v := 1, kind, digest, attestationRef, hint }

/-! ## Relationships -/

def relationshipFields : List String := ["attestation_ref", "evidence_ref", "from", "to", "type", "v"]

def relationshipToCbor (relationship : Relationship) : CborValue :=
  record
    [("attestation_ref", textOrNil relationship.attestationRef),
     ("evidence_ref", textOrNil relationship.evidenceRef),
     ("from", .text relationship.source),
     ("to", .text relationship.target),
     ("type", .text relationship.relType),
     ("v", .uint relationship.v.toUInt64)]

def cborToRelationship (limits : Limits) (value : CborValue) : Result Relationship := do
  let entries ← memberMap "Relationship" limits value
  checkClosed relationshipFields "Relationship" entries
  checkVersion entries
  let source ← textField entries "from"
  let target ← textField entries "to"
  if source = target then schemaError "self-edge forbidden in V1"
  else
    let relType ← textField entries "type"
    let evidenceRef ← optRefOrNil entries "evidence_ref" "evd:v1:"
    let attestationRef ← optRefOrNil entries "attestation_ref" "att:v1:"
    .ok { v := 1, source, relType, target, evidenceRef, attestationRef }

/-! ## Propositions -/

def propositionFields : List String :=
  ["at_time", "context", "kind", "object", "predicate", "subject", "v"]

def propositionToCbor (proposition : Proposition) : CborValue :=
  record
    [("at_time", uintOrNil proposition.atTime),
     ("context", record (metaToFields proposition.context)),
     ("kind", .text proposition.kind),
     ("object", textOrNil proposition.object),
     ("predicate", .text proposition.predicate),
     ("subject", .text proposition.subject),
     ("v", .uint proposition.v.toUInt64)]

def cborToProposition (limits : Limits) (value : CborValue) : Result Proposition := do
  let entries ← memberMap "Proposition" limits value
  checkClosed propositionFields "Proposition" entries
  checkVersion entries
  let kind ← textField entries "kind"
  let subject ← textField entries "subject"
  let predicate ← textField entries "predicate"
  let object ← optTextOrNil entries "object"
  let atTime ← optUintOrNil entries "at_time"
  let context ← metaField entries "context"
  .ok { v := 1, kind, subject, predicate, object, atTime, context }

/-! ## Proofs -/

def proofFields : List String :=
  ["attestations", "created_at", "events", "evidence", "proof_id", "proposition",
   "referenced_proofs", "relationships", "v", "vocabularies"]

def attestationEntryToCbor (stored : StoredAttestation) : CborValue :=
  record [("content", attestationToCbor stored.content), ("sign1", .bytes stored.sign1)]

def sign1FromCbor (limits : Limits) : CborValue → Result Bytes
  | .bytes b =>
    if b.isEmpty || limits.maxProofSize.toNat < b.length then limitError "sign1 size out of bounds"
    else .ok b
  | _ => schemaError "sign1 must be bytes"

def cborToAttestationEntry (limits : Limits) : CborValue → Result StoredAttestation
  | .map entries => do
    checkClosed ["content", "sign1"] "AttestationEntry" entries
    let content ← cborToAttestation limits (← requireField entries "content")
    let sign1 ← sign1FromCbor limits (← requireField entries "sign1")
    .ok { content, sign1 }
  | _ => schemaError "attestation entry must be map"

def vocabularyToCbor (vocabulary : VocabularyDecl) : CborValue :=
  record [("ns", .text vocabulary.ns), ("version", .uint vocabulary.version)]

/-- References and vocabularies are written only when there are some. -/
def proofToCbor (proof : Proof) : Result CborValue := do
  let events ← proof.events.mapM eventToCbor
  .ok (record (
    [("attestations", .array (proof.attestations.map attestationEntryToCbor)),
     ("created_at", .uint proof.createdAt),
     ("events", .array events),
     ("evidence", .array (proof.evidence.map evidenceToCbor)),
     ("proof_id", .text proof.proofId),
     ("proposition", propositionToCbor proof.proposition),
     ("relationships", .array (proof.relationships.map relationshipToCbor)),
     ("v", .uint 1)]
    ++ (if proof.referencedProofs.isEmpty then []
        else [("referenced_proofs", .array (proof.referencedProofs.map .text))])
    ++ (if proof.vocabularies.isEmpty then []
        else [("vocabularies", .array (proof.vocabularies.map vocabularyToCbor))])))

def cborArray (entries : Entries) (key : String) : Result (List CborValue) := do
  match ← requireField entries key with
  | .array items => .ok items
  | _ => schemaError ("field " ++ key ++ " must be array")

/-- Naming of a composition reference: the digest cannot be recomputed here. -/
def checkReferenceShape (id : String) : Result Unit :=
  match strip id "prf:v1:" with
  | none => schemaError "referenced proof id must start with prf:v1:"
  | some rest =>
    match Base64Url.decode rest with
    | none => schemaError "referenced proof id is not base64url"
    | some raw =>
      if Base64Url.encode raw ≠ rest then schemaError "referenced proof id is not canonical base64url"
      else if raw.length ≠ 32 then schemaError "referenced proof id digest must be 32 bytes"
      else .ok ()

def referenceFromCbor : CborValue → Result String
  | .text s => do
    checkReferenceShape s
    .ok s
  | _ => schemaError "referenced_proofs entries must be text"

def cborToReferencedProofs (limits : Limits) (entries : Entries) : Result (List String) :=
  match findField entries "referenced_proofs" with
  | none => .ok []
  | some (.array items) =>
    if limits.maxReferencedProofs.toNat < items.length then limitError "too many referenced proofs"
    else do
      let references ← items.mapM referenceFromCbor
      -- `sort` and `dedup`: the list must already be what they make of it.
      let sorted := (sortOn utf8 references).destutter (fun left right => utf8 left ≠ utf8 right)
      if sorted ≠ references then
        schemaError "referenced_proofs must be sorted ascending with no duplicates"
      else .ok references
  | some _ => schemaError "referenced_proofs must be an array of text"

def vocabularyFromCbor : CborValue → Result VocabularyDecl
  | .map entries => do
    checkClosed ["ns", "version"] "Vocabulary" entries
    let ns ← textField entries "ns"
    if ns.isEmpty || 128 < len ns then schemaError "vocabulary ns length out of bounds"
    else if ns.toList.contains ':' || ns.toList.any isWhitespace then
      schemaError "vocabulary ns must not contain ':' or whitespace"
    else
      let version ← uintField entries "version"
      .ok { ns, version }
  | _ => schemaError "vocabulary must be a map"

def cborToVocabularies (limits : Limits) (entries : Entries) : Result (List VocabularyDecl) :=
  match findField entries "vocabularies" with
  | none => .ok []
  | some (.array items) =>
    if limits.maxVocabularies.toNat < items.length then limitError "too many vocabularies"
    else do
      let vocabularies ← items.mapM vocabularyFromCbor
      let sorted := (sortOn (fun declared => utf8 declared.ns) vocabularies).destutter
        (fun left right => utf8 left.ns ≠ utf8 right.ns)
      -- Only the namespaces are compared; versions play no part in the order.
      if sorted.length ≠ vocabularies.length ∨ sorted.map (·.ns) ≠ vocabularies.map (·.ns) then
        schemaError "vocabularies must be sorted by ns with no duplicates"
      else .ok vocabularies
  | some _ => schemaError "vocabularies must be an array"

/-- Closed validation of the proof envelope; members are not authenticated here. -/
def cborToProof (limits : Limits) : CborValue → Result Proof
  | .map entries => do
    checkClosed proofFields "Proof" entries
    checkVersion entries
    let proofId ← textField entries "proof_id"
    if !startsWith proofId "prf:v1:" then schemaError "proof_id must start with prf:v1:"
    else
      let proposition ← cborToProposition limits (← requireField entries "proposition")
      let createdAt ← uintField entries "created_at"
      let events ← (← cborArray entries "events").mapM (cborToEvent limits)
      let attestations ← (← cborArray entries "attestations").mapM (cborToAttestationEntry limits)
      let evidence ← (← cborArray entries "evidence").mapM (cborToEvidence limits)
      let relationships ← (← cborArray entries "relationships").mapM (cborToRelationship limits)
      let referencedProofs ← cborToReferencedProofs limits entries
      -- The size bounds come after all members have been parsed, the vocabularies last of all.
      if limits.maxEdges.toNat < relationships.length then limitError "too many relationships"
      else if limits.maxNodes.toNat < events.length + attestations.length + evidence.length then
        limitError "too many artifact members"
      else
        let vocabularies ← cborToVocabularies limits entries
        .ok { v := 1, proofId, proposition, events, attestations, evidence, relationships,
              referencedProofs, vocabularies, createdAt }
  | _ => schemaError "Proof must be map"

end ProofEngine

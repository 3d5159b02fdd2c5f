import ProofEngine.Crypto.Build
import ProofEngine.Crypto.ProofBinding

/-! # Created members

The producing side: members are encoded, read back, compared and named, and attestations are signed.  What is
created is what the verifying side accepts: the id is the one recomputed from the content, and the envelope of
an attestation verifies as long as it fits into a field. -/

namespace ProofEngine

open Text CborValue

/-! ## Keys and signing -/

/-- A signing key; keys and signatures are arrays of fixed length. -/
structure Ed25519Key where
  pubkeyBytes : { key : Bytes // key.length = 32 }
  sign : (message : Bytes) → { signature : Bytes // signature.length = 64 }

def Ed25519Key.keyRef (key : Ed25519Key) : String := "key:ed25519:" ++ b64uNopad key.pubkeyBytes.1

def signEd25519WithAad (payloadCanonical : Bytes) (key : Ed25519Key) (aad : Bytes) : Bytes :=
  let protectedRaw := protectedBytes coseEd25519 key.pubkeyBytes.1
  let toSign := sigStructureWithAad protectedRaw aad payloadCanonical
  encodeCanonical (.array [.bytes protectedRaw, .map [], .bytes payloadCanonical, .bytes (key.sign toSign).1])

def signEd25519 (payloadCanonical : Bytes) (key : Ed25519Key) : Bytes :=
  signEd25519WithAad payloadCanonical key externalAad

/-! ## Creation -/

structure CreatedEvent where
  content : EventContent
  canonical : Bytes
  id : String
  deriving DecidableEq, Repr

structure CreatedAttestation where
  content : AttestationContent
  canonical : Bytes
  id : String
  sign1 : Bytes
  deriving DecidableEq, Repr

structure CreatedEvidence where
  content : Evidence
  canonical : Bytes
  id : String
  deriving DecidableEq, Repr

structure CreatedRelationship where
  content : Relationship
  canonical : Bytes
  id : String
  deriving DecidableEq, Repr

/-- The canonical bytes of a member that survives being read back. -/
def createMember {α : Type} [DecidableEq α] (what : String) (parse : Limits → CborValue → Result α)
    (encoded : CborValue) (content : α) (limits : Limits) : Result Bytes := do
  let canonical := encodeCanonical encoded
  let value ← decodeAndCheckCanonical canonical limits
  let back ← parse limits value
  if back ≠ content then schemaError (what ++ " did not survive canonical round-trip") else .ok canonical

def onlyVersion1 {α : Type} (what : String) : Result α :=
  .error (ErrorCode.unsupportedVersion.err ("only " ++ what ++ " v=1 supported"))

section
variable (primitives : Primitives)

def createEvent (content : EventContent) (limits : Limits) : Result CreatedEvent := do
  if content.v ≠ 1 then onlyVersion1 "event"
  else
    let value ← eventToCbor content
    let canonical ← createMember "event" cborToEvent value content limits
    .ok { content, canonical, id := eventId primitives canonical }

/-- An attestation by the key its issuer field names. -/
def attest (content : AttestationContent) (key : Ed25519Key) (limits : Limits) : Result CreatedAttestation := do
  if content.v ≠ 1 then onlyVersion1 "attestation"
  else if content.issuer ≠ key.keyRef then schemaError "issuer does not match signing key"
  else
    let canonical ← createMember "attestation" cborToAttestation (attestationToCbor content) content limits
    .ok { content, canonical, id := attestationId primitives canonical, sign1 := signEd25519 canonical key }

def checkAttestationRef : Option String → Result Unit
  | none => .ok ()
  | some reference =>
    if reference.isEmpty || 1024 < len reference then schemaError "bad attestation_ref"
    else if !startsWith reference "att:v1:" then
      schemaError ("attestation_ref " ++ reference ++ " must start with att:v1:")
    else .ok ()

def makeEvidence (kind : String) (digest : HashRef) (attestationRef hint : Option String) (limits : Limits) :
    Result CreatedEvidence := do
  checkAttestationRef attestationRef
  let content : Evidence := { v := 1, kind, digest, attestationRef, hint }
  let canonical ← createMember "evidence" cborToEvidence (evidenceToCbor content) content limits
  .ok { content, canonical, id := evidenceId primitives canonical }

def makeRelationship (content : Relationship) (limits : Limits) : Result CreatedRelationship := do
  if content.v ≠ 1 then onlyVersion1 "relationship"
  else
    let canonical ← createMember "relationship" cborToRelationship (relationshipToCbor content) content limits
    .ok { content, canonical, id := relationshipId primitives canonical }

end

/-! ## Created ids are recomputed ids -/

section
variable {primitives : Primitives} {limits : Limits}

theorem createMember_eq_ok {α : Type} [DecidableEq α] {what : String} {parse : Limits → CborValue → Result α}
    {encoded : CborValue} {content : α} {canonical : Bytes}
    (done : createMember what parse encoded content limits = .ok canonical) :
    canonical = encodeCanonical encoded ∧ (decodeStrict canonical limits >>= parse limits) = .ok content := by
  simp only [createMember, decodeAndCheckCanonical_eq, bind_eq_ok] at done
  obtain ⟨value, decoded, back, parsed, done⟩ := done
  split at done
  · cases done
  · rename_i same
    rw [not_not] at same
    cases done
    exact ⟨rfl, bind_eq_ok.mpr ⟨value, decoded, same ▸ parsed⟩⟩

theorem createEvent_id {content : EventContent} {created : CreatedEvent}
    (done : createEvent primitives content limits = .ok created) :
    created.content.v = 1 ∧ created.id = eventId primitives (encodeCanonical (eventRecord created.content)) := by
  rw [createEvent] at done
  split at done
  · cases done
  · rename_i version
    rw [not_not] at version
    simp only [eventToCbor_of_version version, ok_bind, bind_eq_ok] at done
    obtain ⟨canonical, written, done⟩ := done
    cases done
    exact ⟨version, by rw [(createMember_eq_ok written).1]⟩

theorem makeEvidence_id {kind : String} {digest : HashRef} {attestationRef hint : Option String}
    {created : CreatedEvidence} (done : makeEvidence primitives kind digest attestationRef hint limits = .ok created) :
    created.id = evidenceMemberId primitives created.content := by
  simp only [makeEvidence, bind_eq_ok] at done
  obtain ⟨_, _, canonical, written, done⟩ := done
  cases done
  rw [evidenceMemberId, (createMember_eq_ok written).1]

theorem makeRelationship_id {content : Relationship} {created : CreatedRelationship}
    (done : makeRelationship primitives content limits = .ok created) :
    created.id = relationshipMemberId primitives created.content := by
  rw [makeRelationship] at done
  split at done
  · cases done
  · obtain ⟨canonical, written, done⟩ := bind_eq_ok.mp done
    cases done
    rw [relationshipMemberId, (createMember_eq_ok written).1]

/-- An attestation that was made: it names its key, reads back from its canonical bytes, and is signed over
    them. -/
theorem attest_eq_ok {content : AttestationContent} {key : Ed25519Key} {created : CreatedAttestation}
    (done : attest primitives content key limits = .ok created) :
    created.content.issuer = key.keyRef ∧
      created.canonical = encodeCanonical (attestationToCbor created.content) ∧
      (decodeStrict created.canonical limits >>= cborToAttestation limits) = .ok created.content ∧
      created.id = attestationMemberId primitives created.content ∧
      created.sign1 = signEd25519 created.canonical key := by
  rw [attest] at done
  split at done
  · cases done
  · split at done
    · cases done
    · rename_i issuer
      rw [not_not] at issuer
      obtain ⟨canonical, written, done⟩ := bind_eq_ok.mp done
      cases done
      obtain ⟨spelled, read⟩ := createMember_eq_ok written
      exact ⟨issuer, spelled, read, by rw [attestationMemberId, spelled], rfl⟩

/-! ## What is signed is accepted

The envelope of a key is parsed back into its parts as long as what it signs fits into a field; only then does the
signature library have to say anything. -/

/-- What the signature library promises of a key: its public part is one and its signatures verify. -/
structure Ed25519Key.Genuine (primitives : Primitives) (key : Ed25519Key) : Prop where
  wellFormed : primitives.ed25519KeyError key.pubkeyBytes.1 = none
  verifies : ∀ message, primitives.ed25519Verify key.pubkeyBytes.1 message (key.sign message).1 = true

/-- The parts of the envelope a key makes. -/
def signedParts (payload : Bytes) (key : Ed25519Key) : ParsedSign1 where
  alg := coseEd25519
  kid := key.pubkeyBytes.1
  payload := payload
  signature := (key.sign (sigStructure (protectedBytes coseEd25519 key.pubkeyBytes.1) payload)).1
  protectedRaw := protectedBytes coseEd25519 key.pubkeyBytes.1

theorem signEd25519_eq (payload : Bytes) (key : Ed25519Key) :
    signEd25519 payload key = sign1Bytes (signedParts payload key).protectedRaw (signedParts payload key).payload
      (signedParts payload key).signature := rfl

theorem length_sign1Bytes_ge (protectedRaw payload signature : Bytes) :
    protectedRaw.length + payload.length + signature.length ≤ (sign1Bytes protectedRaw payload signature).length := by
  simp only [sign1Bytes, encodeCanonical, encodeValue, encodeItems, List.length_append]
  omega

theorem length_encodeHead_le (major : UInt8) (n : UInt64) : (encodeHead major n).length ≤ 9 := by
  unfold encodeHead
  split_ifs <;> simp only [List.length_cons, List.length_nil, Bytes.bigEndian_length] <;> omega

theorem length_sign1Bytes_le (protectedRaw payload signature : Bytes) :
    (sign1Bytes protectedRaw payload signature).length ≤
      protectedRaw.length + payload.length + signature.length + 45 := by
  have array := length_encodeHead_le 4 (UInt64.ofNat (0 + 1 + 1 + 1 + 1))
  have shielded := length_encodeHead_le 2 (UInt64.ofNat protectedRaw.length)
  have map : (encodeValue (.map [])).length = 1 := rfl
  have content := length_encodeHead_le 2 (UInt64.ofNat payload.length)
  have tag := length_encodeHead_le 2 (UInt64.ofNat signature.length)
  simp only [sign1Bytes, encodeCanonical, encodeValue, encodeItems, List.length_append, List.length_cons,
    List.length_nil] at map ⊢
  omega

def ed25519Header (kid : Bytes) : Entries := [(.uint 1, .nint coseEd25519), (.uint 4, .bytes kid)]

theorem protectedBytes_ed25519 (kid : Bytes) :
    protectedBytes coseEd25519 kid = encodeCanonical (.map (ed25519Header kid)) := rfl

theorem canonical_ed25519Header {kid : Bytes} (size : kid.length = 32) :
    Canonical Limits.default (.map (ed25519Header kid)) := by
  have keys : encodeCanonical (.uint 1) < encodeCanonical (.uint 4) := by decide +kernel
  have ascending : Ascending (ed25519Header kid) := List.pairwise_pair.mpr keys
  have few : 2 ≤ Limits.default.maxMapEntries.toNat := by decide
  have small : kid.length ≤ Limits.default.maxFieldSize.toNat := by
    rw [size]
    decide
  refine everywhere_map.mpr ⟨⟨ascending.ordered, ascending.distinct, trivial, few⟩, ?_⟩
  intro pair member
  simp only [ed25519Header, List.mem_cons, List.not_mem_nil, or_false] at member
  rcases member with rfl | rfl
  · exact ⟨canonical_uint 1, canonical_nint (by decide)⟩
  · exact ⟨canonical_uint 4, canonical_bytes small⟩

theorem length_protectedBytes_le {kid : Bytes} (size : kid.length = 32) :
    (protectedBytes coseEd25519 kid).length ≤ 100 := by
  have ordered := (canonical_ed25519Header size).self.ordered
  have names : (encodeValue (.uint 1)).length + (encodeValue (.nint coseEd25519)).length +
      (encodeValue (.uint 4)).length = 3 := by decide +kernel
  have map := length_encodeHead_le 5 (UInt64.ofNat (ed25519Header kid).length)
  have key := length_encodeHead_le 2 (UInt64.ofNat kid.length)
  rw [protectedBytes_ed25519, encodeCanonical, encodeValue_map_of_ordered ordered]
  simp only [ed25519Header, List.flatMap_cons, List.flatMap_nil, List.length_append, List.append_nil, List.cons_append,
    List.nil_append, List.length_cons, List.length_nil, encodeValue] at names map ⊢
  omega

theorem parseProtected_protectedBytes {kid : Bytes} (size : kid.length = 32)
    (small : (protectedBytes coseEd25519 kid).length ≤ Limits.default.maxProofSize.toNat) :
    parseProtected (protectedBytes coseEd25519 kid) Limits.default = .ok (coseEd25519, kid) := by
  have flat : (CborValue.map (ed25519Header kid)).nesting = 1 := rfl
  have decoded : decodeStrict (protectedBytes coseEd25519 kid) Limits.default =
      .ok (.map (ed25519Header kid)) := by
    rw [protectedBytes_ed25519] at small ⊢
    refine decodeStrict_encodeCanonical (canonical_ed25519Header size) ?_ small
    rw [flat]
    decide
  simp only [parseProtected, decoded, ok_bind]
  rw [if_neg (not_not.mpr (protectedBytes_ed25519 kid).symm)]
  rfl

/-- An envelope whose parts fit into fields decodes to them. -/
theorem decodeStrict_sign1Bytes {protectedRaw payload signature : Bytes}
    (fits : ∀ part ∈ [protectedRaw, payload, signature], part.length ≤ Limits.default.maxFieldSize.toNat) :
    decodeStrict (sign1Bytes protectedRaw payload signature) Limits.default =
      .ok (.array [.bytes protectedRaw, .map [], .bytes payload, .bytes signature]) := by
  have room : 3 * Limits.default.maxFieldSize.toNat + 45 ≤ Limits.default.maxProofSize.toNat := by decide
  have whole := length_sign1Bytes_le protectedRaw payload signature
  have flat : (CborValue.array [.bytes protectedRaw, .map [], .bytes payload, .bytes signature]).nesting = 1 :=
    rfl
  simp only [List.forall_mem_cons, List.not_mem_nil, false_implies, implies_true, and_true] at fits
  obtain ⟨protectedFits, payloadFits, signatureFits⟩ := fits
  refine decodeStrict_encodeCanonical ?_ (flat.trans_le (by decide)) (whole.trans (by omega))
  have few : 4 ≤ Limits.default.maxArrayItems.toNat := by decide
  refine everywhere_array.mpr ⟨⟨trivial, trivial, trivial, few⟩, ?_⟩
  simp only [List.forall_mem_cons, List.not_mem_nil, false_implies, implies_true, and_true]
  refine ⟨canonical_bytes protectedFits, everywhere_map.mpr ⟨?_, ?_⟩, canonical_bytes payloadFits,
    canonical_bytes signatureFits⟩
  · exact ⟨List.Pairwise.nil, List.nodup_nil, trivial, Nat.zero_le _⟩
  · intro pair member
    cases member

theorem parseSign1_signEd25519 {payload : Bytes} {key : Ed25519Key}
    (fits : payload.length ≤ Limits.default.maxFieldSize.toNat) :
    parseSign1 (signEd25519 payload key) Limits.default = .ok (signedParts payload key) := by
  have signatureLeSig : 64 ≤ Limits.default.maxSigSize.toNat := by decide
  have hundred : 100 ≤ Limits.default.maxFieldSize.toNat := by decide
  have room : 3 * Limits.default.maxFieldSize.toNat + 45 ≤ Limits.default.maxProofSize.toNat := by decide
  have signatureLength : (signedParts payload key).signature.length = 64 := (key.sign _).2
  have protectedSmall : (signedParts payload key).protectedRaw.length ≤ 100 :=
    length_protectedBytes_le key.pubkeyBytes.2
  have payloadSmall : (signedParts payload key).payload.length ≤ Limits.default.maxFieldSize.toNat := fits
  have whole := length_sign1Bytes_le (signedParts payload key).protectedRaw (signedParts payload key).payload
    (signedParts payload key).signature
  have header := @parseProtected_protectedBytes key.pubkeyBytes.1 key.pubkeyBytes.2
    (show (signedParts payload key).protectedRaw.length ≤ _ by omega)
  have shape : checkKidShape coseEd25519 key.pubkeyBytes.1 = .ok () := by
    simp [checkKidShape, key.pubkeyBytes.2, coseEd25519, coseEsp256]
  have each : ∀ part ∈ [(signedParts payload key).protectedRaw, (signedParts payload key).payload,
      (signedParts payload key).signature], part.length ≤ Limits.default.maxFieldSize.toNat := by
    simp only [List.forall_mem_cons, List.not_mem_nil, false_implies, implies_true, and_true]
    exact ⟨protectedSmall.trans hundred, payloadSmall, by omega⟩
  rw [signEd25519_eq, parseSign1, if_neg (by omega), decodeStrict_sign1Bytes each, ok_bind, ← sign1Bytes,
    if_neg (not_not.mpr rfl)]
  simp only [protectedFromCbor, checkUnprotected, payloadFromCbor, signatureFromCbor, ok_bind]
  rw [if_neg (by omega), if_neg (by omega), ok_bind, ok_bind]
  change (parseProtected (protectedBytes coseEd25519 key.pubkeyBytes.1) Limits.default >>= _) = _
  rw [header, ok_bind]
  simp only [shape, ok_bind]
  rfl

/-- The library's key reference of a public key is read back as that key. -/
theorem parseEd25519Keyref_keyRef (key : Ed25519Key) :
    parseEd25519Keyref primitives key.keyRef = .ok key.pubkeyBytes.1 := by
  have stripped : strip key.keyRef "key:ed25519:" = some (b64uNopad key.pubkeyBytes.1) :=
    strip_append _ _
  have decoded : b64uDecode primitives (b64uNopad key.pubkeyBytes.1) = .ok key.pubkeyBytes.1 :=
    b64uDecode_eq_ok.mpr rfl
  simp [parseEd25519Keyref, parseKeyref, stripped, decoded, key.pubkeyBytes.2]

/-- An envelope by a genuine key verifies against the key's reference. -/
theorem verifySign1_signEd25519 {payload : Bytes} {key : Ed25519Key} {allowed : AllowedAlgs}
    (genuine : key.Genuine primitives) (permitted : allowed.ed25519 = true)
    (fits : payload.length ≤ Limits.default.maxFieldSize.toNat) :
    verifySign1 primitives (signEd25519 payload key) key.keyRef allowed Limits.default =
      .ok (signedParts payload key) := by
  have historical : historicalOp allowed (signedParts payload key) = .ok none := by
    have current : AllowedAlgs.isDeprecated coseEd25519 = false := by decide
    exact if_neg (by simp [signedParts, current])
  have admitted : checkAllowed allowed none coseEd25519 = .ok () := by
    simp [checkAllowed, AllowedAlgs.isAllowed, permitted]
  have signatureLength : (signedParts payload key).signature.length = 64 := (key.sign _).2
  have verified : verifyEd25519 primitives key.keyRef (signedParts payload key) externalAad = .ok () := by
    have sameKid : key.pubkeyBytes.1 = (signedParts payload key).kid := rfl
    rw [verifyEd25519, parseEd25519Keyref_keyRef, ok_bind, if_neg (not_not.mpr sameKid), genuine.wellFormed, liftError,
      ok_bind, if_neg (not_not.mpr signatureLength)]
    exact if_pos (genuine.verifies _)
  rw [verifySign1, verifySign1WithAad, if_neg (by decide +kernel), parseSign1_signEd25519 fits, ok_bind, historical,
    ok_bind]
  change (checkAllowed allowed none coseEd25519 >>= _) = _
  rw [admitted, ok_bind, if_neg (not_not.mpr signatureLength)]
  change (verifyOp primitives coseEd25519 key.keyRef (signedParts payload key) externalAad >>= _) = _
  rw [verifyOp, if_pos rfl, verified, ok_bind]

end

end ProofEngine

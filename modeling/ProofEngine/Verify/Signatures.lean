import ProofEngine.Crypto.ProofBinding
import ProofEngine.Lib.LastMap
import ProofEngine.Verify.Context
import ProofEngine.Verify.Report

/-! # SIGNATURES and KEYS

The loop over attestation entries: each entry either leaves one failed check or two passed ones and
an entry of the verified set, on which all later stages rest. -/

namespace ProofEngine

open Text LastMap

/-- Ids and contents of the attestations whose signature and key binding held. -/
abbrev VerifiedSet := List (String × AttestationContent)

/-- Failures about keys and algorithms are recorded under KEYS. -/
def signatureFailureStage : ErrorCode → Stage
  | .algorithmConfusion | .unknownAlgorithm | .deprecatedAlgorithm | .unexpectedHeaderParam => .keys
  | _ => .signatures

/-- The issuer a signature must come from, read off the key id before any cryptography. -/
def selfBoundIssuer (parsed : ParsedSign1) : String :=
  if parsed.alg = coseEd25519 then "key:ed25519:" ++ b64uNopad parsed.kid
  else if parsed.alg = coseEsp256 then "key:p256:" ++ b64uNopad parsed.kid
  else if parsed.alg = -8 ∧ parsed.kid.length = 32 then "key:ed25519:" ++ b64uNopad parsed.kid
  else if parsed.alg = -7 ∧ parsed.kid.length = 64 then "key:p256:" ++ b64uNopad parsed.kid
  else "key:unknown:placeholder"

section
variable (primitives : Primitives) (ctx : VerifyCtx)

def proofAttestationIds (proof : Proof) : List String :=
  proof.attestations.map fun stored => attestationMemberId primitives stored.content

/-- The failed check of an entry, or the algorithm it was verified with. -/
def verifyEntry (entry : StoredAttestation) (attestationId : String) : Except CheckRecord Int64 :=
  let object := "att:" ++ attestationId
  let failed (error : ProofError) : CheckRecord :=
    .fail (signatureFailureStage error.code) object error.code error.message
  match parseSign1 entry.sign1 ctx.limits with
  | .error error => .error (failed error)
  | .ok parsed =>
    match verifyAttestation primitives entry.sign1 (selfBoundIssuer parsed) ctx.allowedAlgs ctx.limits with
    | .error error => .error (failed error)
    | .ok (content, id) =>
      if content ≠ entry.content ∨ id ≠ attestationId then
        .error (.fail .signatures object .signatureInvalid
          "envelope content differs from authenticated payload")
      else .ok parsed.alg

def signatureMessage (alg : Int64) : String :=
  if AllowedAlgs.isDeprecated alg then
    "COSE alg " ++ toString alg.toInt ++
      " verified under explicit historical policy (was-valid-then; current acceptance still decided by policy)"
  else "COSE alg " ++ toString alg.toInt ++ " verified"

def verifyEntries : List (StoredAttestation × String) → List CheckRecord × VerifiedSet
  | [] => ([], [])
  | (entry, id) :: entries =>
    let (checks, verified) := verifyEntries entries
    match verifyEntry primitives ctx entry id with
    | .error failed => (failed :: checks, verified)
    | .ok alg =>
      (.pass .signatures ("att:" ++ id) (signatureMessage alg) ::
        .pass .keys ("att:" ++ id) "kid well-formed, alg matches key shape, issuer bound to key" ::
        checks, (id, entry.content) :: verified)

def proofEntries (proof : Proof) : List (StoredAttestation × String) :=
  proof.attestations.zip (proofAttestationIds primitives proof)

def verifiedSet (proof : Proof) : VerifiedSet := (verifyEntries primitives ctx (proofEntries primitives proof)).2

def signatureChecks (proof : Proof) : List CheckRecord :=
  (verifyEntries primitives ctx (proofEntries primitives proof)).1 ++
    if proof.attestations.isEmpty then
      [.note .signatures ("proof:" ++ proof.proofId)
        "no attestations present (policy decides whether that suffices)"]
    else []

end

/-! ## What a verified entry satisfies -/

section
variable {primitives : Primitives} {ctx : VerifyCtx}

theorem proofEntries_eq (proof : Proof) :
    proofEntries primitives proof =
      proof.attestations.map fun stored => (stored, attestationMemberId primitives stored.content) := by
  rw [proofEntries, proofAttestationIds, List.map_prod_left_eq_zip]

theorem verifyEntry_eq_ok {entry : StoredAttestation} {id : String} {alg : Int64}
    (done : verifyEntry primitives ctx entry id = .ok alg) :
    ∃ parsed, parseSign1 entry.sign1 ctx.limits = .ok parsed ∧ parsed.alg = alg ∧
      verifyAttestation primitives entry.sign1 (selfBoundIssuer parsed) ctx.allowedAlgs ctx.limits =
        .ok (entry.content, id) := by
  simp only [verifyEntry] at done
  split at done
  · cases done
  · rename_i parsed shape
    split at done
    · cases done
    · rename_i content found verified
      split at done
      · cases done
      · rename_i same
        cases done
        obtain ⟨contentSame, idSame⟩ := not_or.mp same
        rw [not_not] at contentSame idSame
        exact ⟨parsed, shape, rfl, contentSame ▸ idSame ▸ verified⟩

theorem signatureFailureStage_mem (code : ErrorCode) :
    signatureFailureStage code ∈ [Stage.signatures, .keys] := by
  cases code <;> decide

theorem verifyEntry_eq_error {entry : StoredAttestation} {id : String} {failed : CheckRecord}
    (done : verifyEntry primitives ctx entry id = .error failed) :
    failed.stage ∈ [Stage.signatures, .keys] ∧ failed.ok = false := by
  simp only [verifyEntry] at done
  split at done
  · cases done
    exact ⟨signatureFailureStage_mem _, rfl⟩
  · split at done
    · cases done
      exact ⟨signatureFailureStage_mem _, rfl⟩
    · split at done
      · cases done
        exact ⟨List.mem_cons_self, rfl⟩
      · cases done

theorem mem_verifyEntries {entries : List (StoredAttestation × String)} {id : String}
    {content : AttestationContent} (member : (id, content) ∈ (verifyEntries primitives ctx entries).2) :
    ∃ entry alg, (entry, id) ∈ entries ∧ entry.content = content ∧
      verifyEntry primitives ctx entry id = .ok alg := by
  induction entries with
  | nil => cases member
  | cons first entries inductionHypothesis =>
    obtain ⟨entry, entryId⟩ := first
    simp only [verifyEntries] at member
    split at member
    · obtain ⟨found, alg, foundMember, rest⟩ := inductionHypothesis member
      exact ⟨found, alg, List.mem_cons_of_mem _ foundMember, rest⟩
    · rename_i alg verified
      rcases List.mem_cons.mp member with same | member
      · cases same
        exact ⟨entry, alg, List.mem_cons_self, rfl, verified⟩
      · obtain ⟨found, alg, foundMember, rest⟩ := inductionHypothesis member
        exact ⟨found, alg, List.mem_cons_of_mem _ foundMember, rest⟩

/-- Without a failed check every entry is verified, in stored order. -/
theorem verifyEntries_all {entries : List (StoredAttestation × String)}
    (clean : NoFailure (verifyEntries primitives ctx entries).1 [.signatures, .keys]) :
    (verifyEntries primitives ctx entries).2 = entries.map fun entry => (entry.2, entry.1.content) := by
  induction entries with
  | nil => rfl
  | cons first entries inductionHypothesis =>
    obtain ⟨entry, entryId⟩ := first
    simp only [verifyEntries] at clean ⊢
    split
    · rename_i failed here
      simp only [here] at clean
      -- a failed entry would leave a failed check
      obtain ⟨inside, notOk⟩ := verifyEntry_eq_error here
      have passed := clean failed List.mem_cons_self inside
      rw [notOk] at passed
      cases passed
    · rename_i alg here
      simp only [here] at clean
      have rest : NoFailure (verifyEntries primitives ctx entries).1 [.signatures, .keys] :=
        fun check member => clean check (List.mem_cons_of_mem _ (List.mem_cons_of_mem _ member))
      simp only [inductionHypothesis rest, List.map_cons]

/-- Without a failed check the verified set is the proof's attestations. -/
theorem verifiedSet_all {proof : Proof}
    (clean : NoFailure (signatureChecks primitives ctx proof) [.signatures, .keys]) :
    verifiedSet primitives ctx proof =
      proof.attestations.map fun stored =>
        (attestationMemberId primitives stored.content, stored.content) := by
  have entriesClean : NoFailure (verifyEntries primitives ctx (proofEntries primitives proof)).1
      [.signatures, .keys] := fun check member => clean check (List.mem_append_left _ member)
  rw [verifiedSet, verifyEntries_all entriesClean, proofEntries_eq, List.map_map]
  rfl

end

/-! ## Soundness of the verified set -/

/-- Everything a verified attestation satisfies: `parsed` is its envelope, `scheme` the scheme of its
    key. -/
structure AuthenticEntry (primitives : Primitives) (ctx : VerifyCtx) (entry : StoredAttestation)
    (id : String) (parsed : ParsedSign1) (scheme : Scheme) : Prop where
  envelope : parseSign1 entry.sign1 ctx.limits = .ok parsed
  envelopeBytes : entry.sign1 = sign1Bytes parsed.protectedRaw parsed.payload parsed.signature
  issuerIsKey : entry.content.issuer = scheme.keyRef parsed.kid
  kidLength : parsed.kid.length = scheme.kidLength
  admitted : scheme.Admits ctx.allowedAlgs parsed.alg parsed.kid
  signatureLength : parsed.signature.length = 64
  verified : primitives.Verifies scheme parsed.kid (sigStructure parsed.protectedRaw parsed.payload)
    parsed.signature
  payloadIsContent : parsed.payload = encodeCanonical (attestationToCbor entry.content)
  idIsPayload : id = attestationId primitives parsed.payload

section
variable {primitives : Primitives} {ctx : VerifyCtx}

theorem verifyEntry_sound {entry : StoredAttestation} {id : String} {alg : Int64}
    (done : verifyEntry primitives ctx entry id = .ok alg) :
    ∃ parsed scheme, AuthenticEntry primitives ctx entry id parsed scheme := by
  obtain ⟨_, _, _, verified⟩ := verifyEntry_eq_ok done
  obtain ⟨parsed, scheme, shape, signed, issuerIs, payloadIs, idIs, _⟩ := verifyAttestation_sound verified
  exact ⟨parsed, scheme, shape, (parseSign1_bytes shape).1, issuerIs.trans signed.issuerIs,
    signed.kidLength, signed.admitted, signed.signatureLength, signed.verified, payloadIs, idIs⟩

/-- An envelope by the key its kid names, around the stored content, is verified. -/
theorem verifyEntry_of_signed {entry : StoredAttestation} {id : String} {parsed : ParsedSign1}
    (signed : verifySign1 primitives entry.sign1 (selfBoundIssuer parsed) ctx.allowedAlgs ctx.limits =
      .ok parsed)
    (read : (decodeStrict parsed.payload ctx.limits >>= cborToAttestation ctx.limits) = .ok entry.content)
    (issuerIs : entry.content.issuer = selfBoundIssuer parsed)
    (named : attestationId primitives parsed.payload = id) :
    verifyEntry primitives ctx entry id = .ok parsed.alg := by
  obtain ⟨value, decoded, contentDone⟩ := bind_eq_ok.mp read
  have shape := (verifySign1WithAad_sound signed).1
  have verified : verifyAttestation primitives entry.sign1 (selfBoundIssuer parsed) ctx.allowedAlgs
      ctx.limits = .ok (entry.content, id) := by
    simp only [verifyAttestation, signed, decodeAndCheckCanonical_eq, decoded, contentDone, ok_bind,
      issuerIs, named, ne_eq, not_true_eq_false, if_false]
  simp only [verifyEntry, shape, verified, ne_eq, not_true_eq_false, or_self, if_false]

/-- The payload of a verified entry determines its content. -/
theorem verifyEntry_reads {entry : StoredAttestation} {id : String} {alg : Int64}
    (done : verifyEntry primitives ctx entry id = .ok alg) :
    (decodeStrict (encodeCanonical (attestationToCbor entry.content)) ctx.limits >>=
      cborToAttestation ctx.limits) = .ok entry.content := by
  obtain ⟨_, _, _, verified⟩ := verifyEntry_eq_ok done
  obtain ⟨parsed, _, shape, _, _, payloadIs, _⟩ := verifyAttestation_sound verified
  simp only [verifyAttestation, verifySign1, bind_eq_ok, decodeAndCheckCanonical_eq] at verified
  obtain ⟨found, signDone, value, decoded, content, contentDone, rest⟩ := verified
  -- the envelope was parsed twice, with the same result
  have same : found = parsed :=
    Except.ok.inj ((verifySign1WithAad_sound signDone).1.symm.trans shape)
  split at rest
  · cases rest
  · cases rest
    rw [← payloadIs, ← same, decoded]
    exact contentDone

/-- Where no two attestations of the proof collide, an id names one verified content. -/
theorem verifiedSet_functional {proof : Proof}
    (collisionFree : CollisionFree primitives
      (proof.attestations.map fun stored => encodeCanonical (attestationToCbor stored.content))) :
    Functional (verifiedSet primitives ctx proof) := by
  have named : ∀ id content, (id, content) ∈ verifiedSet primitives ctx proof →
      id = attestationMemberId primitives content ∧
      encodeCanonical (attestationToCbor content) ∈
        proof.attestations.map (fun stored => encodeCanonical (attestationToCbor stored.content)) ∧
      (decodeStrict (encodeCanonical (attestationToCbor content)) ctx.limits >>=
        cborToAttestation ctx.limits) = .ok content := by
    intro id content member
    obtain ⟨entry, alg, inEntries, rfl, verified⟩ := mem_verifyEntries member
    rw [proofEntries_eq, List.mem_map] at inEntries
    obtain ⟨_, storedMember, same⟩ := inEntries
    cases same
    exact ⟨rfl, List.mem_map_of_mem storedMember, verifyEntry_reads verified⟩
  intro id left right leftMember rightMember
  obtain ⟨leftNamed, leftIn, leftRead⟩ := named id left leftMember
  obtain ⟨rightNamed, rightIn, rightRead⟩ := named id right rightMember
  -- equal ids are equal payloads, and a payload is read in one way
  have payloads := collisionFree _ leftIn _ rightIn (idWith_inj (leftNamed.symm.trans rightNamed))
  rw [payloads, rightRead] at leftRead
  exact (Except.ok.inj leftRead).symm

end

/-- Every member of the verified set is an attestation of the proof, signed under an allowed
    algorithm by the key that is its issuer, over its own content, and carries the id of that content. -/
theorem verifiedSet_sound (primitives : Primitives) (ctx : VerifyCtx) (proof : Proof) (id : String)
    (content : AttestationContent) (member : (id, content) ∈ verifiedSet primitives ctx proof) :
    ∃ entry ∈ proof.attestations, entry.content = content ∧
      ∃ parsed scheme, AuthenticEntry primitives ctx entry id parsed scheme := by
  obtain ⟨entry, alg, inEntries, contentIs, verified⟩ := mem_verifyEntries member
  rw [proofEntries_eq, List.mem_map] at inEntries
  obtain ⟨_, storedMember, same⟩ := inEntries
  cases same
  exact ⟨entry, storedMember, contentIs, verifyEntry_sound verified⟩

/-- A proof with the signed statement about `acct:2` as its only member. -/
def signedProof : Proof :=
  { bareProof with
    proofId := "prf:v1:_eBwOzAfNrKuX-VL_gHMEajMktMCnFP4xkEiHrXBkdA"
    attestations := [{ content := settledStatement "acct:2", sign1 := secondSign1 }] }

theorem secondSign1_entry :
    verifyEntry statementPrimitives VerifyCtx.default
      { content := settledStatement "acct:2", sign1 := secondSign1 }
      (attestationMemberId statementPrimitives (settledStatement "acct:2")) = .ok coseEd25519 := by
  have bound : selfBoundIssuer secondParsed = testIssuer := by decide +kernel
  have read : (decodeStrict (statementBytes "acct:2") Limits.default >>= cborToAttestation Limits.default) =
      .ok (settledStatement "acct:2") := by decide +kernel
  refine @verifyEntry_of_signed _ _ _ _ secondParsed ?_ read ?_ rfl
  · rw [bound]
    exact secondSign1_verifies
  · rw [bound]
    rfl

theorem signedProof_verified :
    ∃ parsed scheme, AuthenticEntry statementPrimitives VerifyCtx.default
      { content := settledStatement "acct:2", sign1 := secondSign1 }
      (attestationMemberId statementPrimitives (settledStatement "acct:2")) parsed scheme := by
  have member : (attestationMemberId statementPrimitives (settledStatement "acct:2"),
      settledStatement "acct:2") ∈ verifiedSet statementPrimitives VerifyCtx.default signedProof := by
    simp only [verifiedSet, proofEntries_eq, signedProof, List.map_cons, List.map_nil, verifyEntries,
      secondSign1_entry, List.mem_cons, true_or]
  obtain ⟨entry, inProof, _, authentic⟩ := verifiedSet_sound _ _ _ _ _ member
  cases List.mem_singleton.mp inProof
  exact authentic

end ProofEngine

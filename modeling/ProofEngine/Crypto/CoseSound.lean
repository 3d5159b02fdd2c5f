import ProofEngine.Crypto.Cose
import ProofEngine.Format.CborInjective

/-! # What an accepted signature covers

`verifySign1WithAad_sound` lists everything an accepted envelope satisfies.  The signed bytes
determine header, domain and payload, so a signature counts in one domain only. -/

namespace ProofEngine

open Text CborValue

/-! ## Schemes -/

/-- The two signature schemes. -/
inductive Scheme where
  | ed25519
  | p256
  deriving DecidableEq, Repr

namespace Scheme

def lead : Scheme → String
  | .ed25519 => "key:ed25519:"
  | .p256 => "key:p256:"

/-- The key reference of a raw key. -/
def keyRef (scheme : Scheme) (kid : Bytes) : String := scheme.lead ++ b64uNopad kid

def kidLength : Scheme → Nat
  | .ed25519 => 32
  | .p256 => 64

/-- Which algorithm numbers a policy admits for a scheme; the deprecated ones only on request. -/
def Admits (scheme : Scheme) (allowed : AllowedAlgs) (alg : Int64) (kid : Bytes) : Prop :=
  match scheme with
  | .ed25519 => (alg = coseEd25519 ∧ allowed.isAllowed alg) ∨
      (allowed.allowDeprecated ∧ alg = -8 ∧ kid.length = 32)
  | .p256 => (alg = coseEsp256 ∧ allowed.isAllowed alg) ∨
      (allowed.allowDeprecated ∧ alg = -7 ∧ kid.length = 64 ∧ allowed.esp256)

end Scheme

/-- The relation the signature primitives decide. -/
def Primitives.Verifies (primitives : Primitives) : Scheme → (key message signature : Bytes) → Prop
  | .ed25519, key, message, signature => primitives.ed25519Verify key message signature = true
  | .p256, key, message, signature => primitives.p256Verify key message signature = true

section
variable {primitives : Primitives}

theorem b64uDecode_eq_ok {text : String} {bytes : Bytes} :
    b64uDecode primitives text = .ok bytes ↔ b64uNopad bytes = text := by
  rw [b64uNopad, ← Base64Url.decode_eq_some, b64uDecode]
  cases Base64Url.decode text <;> simp

theorem parseKeyref_eq_ok {lead wrongLead notCanonical wrongSize keyRef : String} {size : Nat} {key : Bytes}
    (done : parseKeyref primitives lead size wrongLead notCanonical wrongSize keyRef = .ok key) :
    keyRef = lead ++ b64uNopad key ∧ key.length = size := by
  simp only [parseKeyref] at done
  split at done
  · contradiction
  · rename_i rest stripped
    simp only [bind_eq_ok, b64uDecode_eq_ok] at done
    obtain ⟨raw, decoded, done⟩ := done
    split at done
    · contradiction
    · split at done
      · contradiction
      · rename_i size
        cases done
        exact ⟨by rw [strip_eq_some stripped, decoded], not_not.mp size⟩

theorem verifyEd25519_eq_ok {issuer : String} {parsed : ParsedSign1} {aad : Bytes} {nothing : Unit}
    (done : verifyEd25519 primitives issuer parsed aad = .ok nothing) :
    issuer = Scheme.ed25519.keyRef parsed.kid ∧ parsed.kid.length = 32 ∧
      primitives.Verifies .ed25519 parsed.kid
        (sigStructureWithAad parsed.protectedRaw aad parsed.payload) parsed.signature := by
  simp only [verifyEd25519, bind_eq_ok] at done
  obtain ⟨expect, keyDone, done⟩ := done
  obtain ⟨issuerIs, length⟩ := parseKeyref_eq_ok keyDone
  split at done
  · contradiction
  · rename_i same
    simp only [bind_eq_ok] at done
    obtain ⟨_, _, done⟩ := done
    rw [not_not] at same
    subst same
    split at done
    · contradiction
    · split at done
      · rename_i verified
        exact ⟨issuerIs, length, verified⟩
      · contradiction

theorem verifyEsp256_eq_ok {issuer : String} {parsed : ParsedSign1} {aad : Bytes} {nothing : Unit}
    (done : verifyEsp256 primitives issuer parsed aad = .ok nothing) :
    issuer = Scheme.p256.keyRef parsed.kid ∧ parsed.kid.length = 64 ∧
      primitives.Verifies .p256 parsed.kid
        (sigStructureWithAad parsed.protectedRaw aad parsed.payload) parsed.signature := by
  simp only [verifyEsp256, bind_eq_ok] at done
  obtain ⟨expect, keyDone, done⟩ := done
  obtain ⟨issuerIs, length⟩ := parseKeyref_eq_ok keyDone
  split at done
  · contradiction
  · rename_i same
    simp only [bind_eq_ok] at done
    obtain ⟨_, _, _, _, done⟩ := done
    rw [not_not] at same
    subst same
    split at done
    · rename_i verified
      exact ⟨issuerIs, length, verified⟩
    · contradiction

/-! ## The algorithm gate -/

theorem isAllowed_cases {allowed : AllowedAlgs} {alg : Int64} (permitted : allowed.isAllowed alg = true) :
    alg = coseEd25519 ∨ alg = coseEsp256 := by
  simp only [AllowedAlgs.isAllowed] at permitted
  split at permitted
  · rename_i ed25519
    exact .inl ed25519
  · split at permitted
    · rename_i esp256
      exact .inr esp256
    · contradiction

/-- Past the gate, the operation chosen for an algorithm is the scheme the policy admits it for. -/
theorem gate_sound {allowed : AllowedAlgs} {parsed : ParsedSign1} {historical : Option Int64} {nothing : Unit}
    (historicalDone : historicalOp allowed parsed = .ok historical)
    (allowedDone : checkAllowed allowed historical parsed.alg = .ok nothing) :
    (historical.getD parsed.alg = coseEd25519 ∧ Scheme.ed25519.Admits allowed parsed.alg parsed.kid) ∨
      (historical.getD parsed.alg = coseEsp256 ∧ Scheme.p256.Admits allowed parsed.alg parsed.kid) := by
  simp only [historicalOp] at historicalDone
  split at historicalDone
  · split at historicalDone
    · contradiction
    · rename_i permitted
      simp only [Bool.not_eq_true', Bool.not_eq_false] at permitted
      split at historicalDone
      · rename_i isEdDsa
        cases historicalDone
        exact .inl ⟨rfl, .inr ⟨permitted, isEdDsa.1, isEdDsa.2⟩⟩
      · split at historicalDone
        · rename_i isEs256
          cases historicalDone
          exact .inr ⟨rfl, .inr ⟨permitted, isEs256⟩⟩
        · split at historicalDone
          · contradiction
          · contradiction
  · cases historicalDone
    simp only [checkAllowed, Option.isNone_none, Bool.true_and] at allowedDone
    split at allowedDone
    · split at allowedDone
      · contradiction
      · contradiction
    · rename_i permitted
      simp only [Bool.not_eq_true', Bool.not_eq_false] at permitted
      rcases isAllowed_cases permitted with isEd25519 | isEsp256
      · exact .inl ⟨isEd25519, .inl ⟨isEd25519, permitted⟩⟩
      · exact .inr ⟨isEsp256, .inl ⟨isEsp256, permitted⟩⟩

/-! ## The envelope's parts -/

theorem protectedFromCbor_eq_ok {value : CborValue} {b : Bytes} (done : protectedFromCbor value = .ok b) :
    value = .bytes b := by
  cases value with
  | bytes c =>
    cases done
    rfl
  | _ => contradiction

theorem checkUnprotected_eq_ok {value : CborValue} {nothing : Unit}
    (done : checkUnprotected value = .ok nothing) : value = .map [] := by
  cases value with
  | map pairs =>
    cases pairs with
    | nil => rfl
    | cons pair pairs => contradiction
  | _ => contradiction

theorem payloadFromCbor_eq_ok {limits : Limits} {value : CborValue} {b : Bytes}
    (done : payloadFromCbor limits value = .ok b) : value = .bytes b := by
  cases value with
  | bytes c =>
    simp only [payloadFromCbor] at done
    split at done
    · contradiction
    · cases done
      rfl
  | _ => contradiction

theorem signatureFromCbor_eq_ok {limits : Limits} {value : CborValue} {b : Bytes}
    (done : signatureFromCbor limits value = .ok b) : value = .bytes b := by
  cases value with
  | bytes c =>
    simp only [signatureFromCbor] at done
    split at done
    · contradiction
    · cases done
      rfl
  | _ => contradiction

/-- Everything an accepted envelope satisfies. -/
structure SignedBy (primitives : Primitives) (allowed : AllowedAlgs) (aad : Bytes) (issuer : String)
    (parsed : ParsedSign1) (scheme : Scheme) : Prop where
  admitted : scheme.Admits allowed parsed.alg parsed.kid
  issuerIs : issuer = scheme.keyRef parsed.kid
  kidLength : parsed.kid.length = scheme.kidLength
  signatureLength : parsed.signature.length = 64
  verified : primitives.Verifies scheme parsed.kid
    (sigStructureWithAad parsed.protectedRaw aad parsed.payload) parsed.signature

theorem verifySign1WithAad_sound {bytes aad : Bytes} {issuer : String} {allowed : AllowedAlgs}
    {limits : Limits} {parsed : ParsedSign1}
    (done : verifySign1WithAad primitives bytes issuer allowed limits aad = .ok parsed) :
    parseSign1 bytes limits = .ok parsed ∧ ∃ scheme, SignedBy primitives allowed aad issuer parsed scheme := by
  simp only [verifySign1WithAad] at done
  split at done
  · contradiction
  · simp only [bind_eq_ok] at done
    obtain ⟨found, parseDone, historical, historicalDone, _, allowedDone, done⟩ := done
    -- the gate pins the algorithm before a key is looked at
    have gate := gate_sound historicalDone allowedDone
    split at done
    · contradiction
    · rename_i signatureLength
      simp only [bind_eq_ok] at done
      obtain ⟨_, verifyDone, done⟩ := done
      cases done
      refine ⟨parseDone, ?_⟩
      rcases gate with ⟨op, admitted⟩ | ⟨op, admitted⟩
      · rw [verifyOp, op, if_pos rfl] at verifyDone
        obtain ⟨issuerIs, kidLength, verified⟩ := verifyEd25519_eq_ok verifyDone
        exact ⟨.ed25519, admitted, issuerIs, kidLength, not_not.mp signatureLength, verified⟩
      · rw [verifyOp, op, if_neg (by decide), if_pos rfl] at verifyDone
        obtain ⟨issuerIs, kidLength, verified⟩ := verifyEsp256_eq_ok verifyDone
        exact ⟨.p256, admitted, issuerIs, kidLength, not_not.mp signatureLength, verified⟩

/-- The bytes of an envelope. -/
def sign1Bytes (protectedRaw payload signature : Bytes) : Bytes :=
  encodeCanonical (.array [.bytes protectedRaw, .map [], .bytes payload, .bytes signature])

/-- A parsed envelope is the canonical array of its parts, each no longer than a field may be. -/
theorem parseSign1_parts {bytes : Bytes} {limits : Limits} {parsed : ParsedSign1}
    (done : parseSign1 bytes limits = .ok parsed) :
    bytes = sign1Bytes parsed.protectedRaw parsed.payload parsed.signature ∧
      parsed.protectedRaw.length ≤ limits.maxFieldSize.toNat ∧ parsed.payload.length ≤ limits.maxFieldSize.toNat ∧
      parsed.signature.length ≤ limits.maxFieldSize.toNat := by
  simp only [parseSign1] at done
  split at done
  · contradiction
  · simp only [bind_eq_ok] at done
    obtain ⟨outer, decoded, done⟩ := done
    obtain ⟨whole, canonical⟩ := decodeStrict_sound decoded
    rw [if_neg (by simp [whole])] at done
    split at done
    · rename_i protectedItem unprotectedItem payloadItem signatureItem
      simp only [bind_eq_ok] at done
      obtain ⟨_, protectedDone, _, unprotectedDone, _, payloadDone, _, signatureDone, ⟨alg, kid⟩, _, _, _,
        done⟩ := done
      cases done
      have bounded : ∀ b : Bytes, CborValue.bytes b ∈
          [protectedItem, unprotectedItem, payloadItem, signatureItem] → b.length ≤ limits.maxFieldSize.toNat := by
        intro b member
        exact ((everywhere_array.mp canonical).2 _ member).self.admitted
      rw [protectedFromCbor_eq_ok protectedDone, checkUnprotected_eq_ok unprotectedDone,
        payloadFromCbor_eq_ok payloadDone, signatureFromCbor_eq_ok signatureDone] at whole bounded
      exact ⟨whole, bounded _ (by simp), bounded _ (by simp), bounded _ (by simp)⟩
    · contradiction
    · contradiction

/-- The parts of a parsed envelope fit in memory. -/
theorem parseSign1_bytes {bytes : Bytes} {limits : Limits} {parsed : ParsedSign1}
    (done : parseSign1 bytes limits = .ok parsed) :
    bytes = sign1Bytes parsed.protectedRaw parsed.payload parsed.signature ∧
      parsed.protectedRaw.length < 2 ^ 64 ∧ parsed.payload.length < 2 ^ 64 ∧
      parsed.signature.length < 2 ^ 64 := by
  obtain ⟨whole, protectedSmall, payloadSmall, signatureSmall⟩ := parseSign1_parts done
  have memory := limits.maxFieldSize.toNat_lt
  exact ⟨whole, protectedSmall.trans_lt memory, payloadSmall.trans_lt memory, signatureSmall.trans_lt memory⟩

end

/-! ## Domain separation -/

/-- A byte slice as memory can hold it. -/
def Slice : Type := { bytes : Bytes // bytes.length < 2 ^ 64 }

/-- The parts of an envelope are determined by its bytes. -/
theorem sign1Bytes_inj {protectedRaw payload signature otherProtected otherPayload otherSignature : Slice}
    (same : sign1Bytes protectedRaw.1 payload.1 signature.1 =
      sign1Bytes otherProtected.1 otherPayload.1 otherSignature.1) :
    protectedRaw = otherProtected ∧ payload = otherPayload ∧ signature = otherSignature := by
  -- slices fit in memory, so each head spells the true length
  have inDomain : ∀ first second third : Slice,
      (array [.bytes first.1, .map [], .bytes second.1, .bytes third.1]).Everywhere Delimitable := by
    intro first second third
    have small : (array [.bytes first.1, .map [], .bytes second.1, .bytes third.1]).Addressable := by
      simp [Addressable, extent]
    refine everywhere_array.mpr ⟨⟨trivial, trivial, small⟩, ?_⟩
    simp only [List.forall_mem_cons, List.not_mem_nil, false_implies, implies_true, and_true,
      everywhere_bytes, everywhere_map]
    exact ⟨⟨trivial, trivial, first.2⟩, ⟨List.Pairwise.nil, trivial, by simp [Addressable, extent]⟩,
      ⟨trivial, trivial, second.2⟩, ⟨trivial, trivial, third.2⟩⟩
  have values := encodeValue_selfDelimiting.injective (inDomain protectedRaw payload signature)
    (inDomain otherProtected otherPayload otherSignature) same
  simp only [CborValue.array.injEq, List.cons.injEq, CborValue.bytes.injEq, and_true, true_and] at values
  exact ⟨Subtype.ext values.1, Subtype.ext values.2.1, Subtype.ext values.2.2⟩

theorem sigStructureWithAad_regular (protectedRaw aad payload : Slice) :
    (array [.text "Signature1", .bytes protectedRaw.1, .bytes aad.1, .bytes payload.1]).Everywhere
      Delimitable := by
  have small : (array [.text "Signature1", .bytes protectedRaw.1, .bytes aad.1,
      .bytes payload.1]).Addressable := by simp [Addressable, extent]
  refine everywhere_array.mpr ⟨⟨trivial, trivial, small⟩, ?_⟩
  simp only [List.forall_mem_cons, List.not_mem_nil, false_implies, implies_true, and_true,
    everywhere_text, everywhere_bytes]
  have label : len "Signature1" < 2 ^ 64 := by decide +kernel
  exact ⟨⟨trivial, trivial, label⟩, ⟨trivial, trivial, protectedRaw.2⟩,
    ⟨trivial, trivial, aad.2⟩, ⟨trivial, trivial, payload.2⟩⟩

/-- The signed bytes determine header, domain and payload. -/
theorem sigStructureWithAad_inj {protectedRaw aad payload otherProtected otherAad otherPayload : Slice}
    (same : sigStructureWithAad protectedRaw.1 aad.1 payload.1 =
      sigStructureWithAad otherProtected.1 otherAad.1 otherPayload.1) :
    protectedRaw = otherProtected ∧ aad = otherAad ∧ payload = otherPayload := by
  have values := encodeValue_selfDelimiting.injective
    (sigStructureWithAad_regular protectedRaw aad payload)
    (sigStructureWithAad_regular otherProtected otherAad otherPayload) same
  simp only [CborValue.array.injEq, List.cons.injEq, CborValue.bytes.injEq, and_true, true_and] at values
  exact ⟨Subtype.ext values.1, Subtype.ext values.2.1, Subtype.ext values.2.2⟩

/-- The encoding is one to one up to the stored order of map entries and no encoding extends
    another, so bytes signed under one domain are never signed under another. -/
theorem encodeCanonical_injective_prefixFree :
    (∀ value other : MachineValue, value.1.Everywhere NegativeNint → other.1.Everywhere NegativeNint →
      encodeCanonical value.1 = encodeCanonical other.1 → value.1.sortMaps = other.1.sortMaps) ∧
    (∀ value other : MachineValue, value.1.Everywhere NegativeNint → other.1.Everywhere NegativeNint →
      ∀ tail, tail ≠ [] → encodeCanonical other.1 ≠ encodeCanonical value.1 ++ tail) ∧
    (∀ protectedRaw aad payload otherProtected otherAad otherPayload : Slice,
      sigStructureWithAad protectedRaw.1 aad.1 payload.1 =
        sigStructureWithAad otherProtected.1 otherAad.1 otherPayload.1 →
      protectedRaw = otherProtected ∧ aad = otherAad ∧ payload = otherPayload) ∧
    (∀ protectedRaw payload otherProtected otherAad otherPayload : Slice, otherAad.1 ≠ externalAad →
      sigStructure protectedRaw.1 payload.1 ≠
        sigStructureWithAad otherProtected.1 otherAad.1 otherPayload.1) := by
  refine ⟨?_, ?_, fun _ _ _ _ _ _ => sigStructureWithAad_inj, ?_⟩
  · intro value other negative otherNegative same
    exact (encodeCanonical_delimited value.2 other.2 negative otherNegative
      (congrArg (· ++ []) same)).1
  · intro value other negative otherNegative tail nonempty extension
    -- read the longer encoding as the shorter one with a tail
    have ends : encodeCanonical value.1 ++ tail = encodeCanonical other.1 ++ [] := by
      rw [extension, List.append_nil]
    exact nonempty (encodeCanonical_delimited value.2 other.2 negative otherNegative ends).2
  · intro protectedRaw payload otherProtected otherAad otherPayload different same
    have parts := @sigStructureWithAad_inj protectedRaw ⟨externalAad, by decide +kernel⟩ payload
      otherProtected otherAad otherPayload same
    exact different (congrArg Subtype.val parts.2.1).symm

end ProofEngine

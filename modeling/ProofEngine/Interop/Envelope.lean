import ProofEngine.Crypto.Create
import ProofEngine.Format.CborExact
import ProofEngine.Interop.Members
import ProofEngine.Verify.Signatures

/-! # Envelopes in both verifiers

An envelope the second verifier takes is one the engine takes, unless its header has `true` for the label 1:
the comparison with `{1, 4}` does not tell the two apart. -/

namespace ProofEngine.Interop

open StableSort Text CborValue

/-- The primitives of both sides decide the same. -/
structure SameRelation (runtime : Runtime) (primitives : Primitives) : Prop where
  sha256 : ∀ data, runtime.sha256 data = (primitives.sha256 data).1
  ed25519 : ∀ key message signature, runtime.edVerify key message signature = true ↔
    key.length = 32 ∧ signature.length = 64 ∧ primitives.ed25519KeyError key = none ∧
      primitives.ed25519Verify key message signature = true
  p256 : ∀ key message signature, runtime.p256Verify key message signature = true ↔
    key.length = 64 ∧ signature.length = 64 ∧ primitives.p256PointError (0x04 :: key) = none ∧
      primitives.p256KeyError (0x04 :: key) = none ∧ primitives.p256SignatureError signature = none ∧
      primitives.p256Verify key message signature = true

def Runtime.verify (runtime : Runtime) : Scheme → (key message signature : Bytes) → Bool
  | .ed25519 => runtime.edVerify
  | .p256 => runtime.p256Verify

/-- The algorithm number of a scheme. -/
def algorithm : Scheme → Int64
  | .ed25519 => coseEd25519
  | .p256 => coseEsp256

/-! ## Reading the second verifier backwards -/

section
variable {runtime : Runtime}

theorem equalsInt_of_neg {n : Int} (negative : n < 0) {v : Value} : equalsInt n v = true ↔ v = .int n := by
  cases v with
  | int m => simp [equalsInt]
  | bool b =>
    cases b <;> simp [equalsInt] <;> omega
  | _ => simp [equalsInt]

theorem schemeOf_eq_ok {alg : Value} {lead : String} {wantLen : Nat} {verify : Bytes → Bytes → Bytes → Bool}
    (done : schemeOf runtime alg = .ok (lead, wantLen, verify)) :
    ∃ scheme, alg = .int (algorithm scheme).toInt ∧ lead = scheme.lead ∧ wantLen = scheme.kidLength ∧
      verify = runtime.verify scheme := by
  have ed25519 : (algorithm .ed25519).toInt = -19 := by decide
  have p256 : (algorithm .p256).toInt = -9 := by decide
  simp only [schemeOf] at done
  split_ifs at done with isEd25519 isP256
  · cases done
    exact ⟨.ed25519, by rw [ed25519]; exact (equalsInt_of_neg (by decide)).mp isEd25519, rfl, rfl, rfl⟩
  · cases done
    exact ⟨.p256, by rw [p256]; exact (equalsInt_of_neg (by decide)).mp isP256, rfl, rfl, rfl⟩
  · cases done

theorem afterScheme_eq_ok {lead rest : String} {v : Value} (done : afterScheme lead v = .ok rest) :
    v = .str (lead ++ rest) := by
  cases v with
  | str s =>
    simp only [afterScheme] at done
    split at done
    · rename_i stripped
      cases done
      rw [strip_eq_some stripped]
    · cases done
  | _ => cases done

theorem expectedKey_eq_ok {rest : String} {wantLen : Nat} {kid : Bytes} {nothing : Unit}
    (done : expectedKey rest wantLen kid = .ok nothing) : b64u kid = rest ∧ kid.length = wantLen := by
  simp only [expectedKey] at done
  split at done
  · cases done
  · simp only [bind_eq_ok, ensure_eq_ok] at done
    obtain ⟨_, written, length, rfl⟩ := done
    exact ⟨written, length⟩

theorem enc_bytes {b : Bytes} (small : b.length < 2 ^ 64) : enc (.bytes b) = .ok (encodeValue (.bytes b)) :=
  @enc_toPython (.bytes b) trivial small trivial

/-- Both sides sign the same bytes. -/
theorem toBeSigned_eq {protectedRaw payload : Bytes} (headerSmall : protectedRaw.length < 2 ^ 64)
    (payloadSmall : payload.length < 2 ^ 64) :
    toBeSigned protectedRaw payload = .ok (sigStructure protectedRaw payload) := by
  have context : enc (.str "Signature1") = .ok (encodeValue (.text "Signature1")) :=
    @enc_toPython (.text "Signature1") trivial (show len "Signature1" < 2 ^ 64 by decide +kernel) trivial
  have four : encodeHead 4 4 = [0x84] := by decide
  rw [toBeSigned, context, ok_bind, enc_bytes headerSmall, ok_bind, ← externalAad, enc_bytes (by decide +kernel),
    ok_bind, enc_bytes payloadSmall, ok_bind]
  have spelled : ∀ items, encodeCanonical (.array items) =
      encodeHead 4 (UInt64.ofNat items.length) ++ encodeItems items := fun items => by
    rw [encodeCanonical, encodeValue]
  simp only [sigStructure, sigStructureWithAad, spelled, encodeItems, List.length_cons, List.length_nil,
    List.append_nil, List.append_assoc]
  rw [← four]
  rfl

/-- A map that is all of `raw` and is encoded as `raw` again. -/
theorem mapOf_readable {raw : Bytes} {pairs : Pairs} (read : mapOf raw = .ok pairs)
    (again : encAny (.map pairs) = .ok raw) :
    ∃ entries, pairs = toPythonPairs entries ∧ raw = encodeCanonical (.map entries) ∧ Readable (.map entries) := by
  simp only [mapOf, bind_eq_ok, ensure_eq_ok] at read
  obtain ⟨⟨v, rest⟩, decoded, _, rfl, read⟩ := read
  have whole : v = .map pairs := by
    cases v with
    | map others =>
      cases read
      rfl
    | _ => cases read
  rw [whole] at decoded
  obtain ⟨value, same, written, readable⟩ := checkCanonical_readable (checkCanonical_eq_ok.mpr ⟨decoded, again⟩)
  obtain ⟨entries, rfl, pairsAre⟩ := toPython_eq_map.mp same
  exact ⟨entries, pairsAre, written, readable⟩

/-- The parts of an envelope: header, its bytes, the key id, the signature and the scheme. -/
structure EnvelopeParts where
  header : Entries
  protectedRaw : Bytes
  kid : Bytes
  signature : Bytes
  scheme : Scheme

/-- An envelope as a value. -/
def EnvelopeParts.value (parts : EnvelopeParts) (payload : Bytes) : CborValue :=
  .array [.bytes parts.protectedRaw, .map [], .bytes payload, .bytes parts.signature]

/-- What the second verifier has checked of an envelope over `payload`. -/
structure SignatureChecked (runtime : Runtime) (sign1 : Bytes) (issuer : String) (payload : Bytes)
    (parts : EnvelopeParts) : Prop where
  envelope : sign1 = encodeCanonical (parts.value payload)
  readable : Readable (parts.value payload)
  headerBytes : parts.protectedRaw = encodeCanonical (.map parts.header)
  headerReadable : Readable (.map parts.header)
  kid : getInt (toPythonPairs parts.header) 4 = .bytes parts.kid
  alg : getInt (toPythonPairs parts.header) 1 = .int (algorithm parts.scheme).toInt
  issuerIs : issuer = parts.scheme.keyRef parts.kid
  kidLength : parts.kid.length = parts.scheme.kidLength
  verified : runtime.verify parts.scheme parts.kid (sigStructure parts.protectedRaw payload) parts.signature = true

theorem verifyParts_eq_ok {protectedRaw payload signature found kid : Bytes} {v : Value}
    (headerSmall : protectedRaw.length < 2 ^ 64) (payloadSmall : payload.length < 2 ^ 64)
    (done : verifyParts runtime protectedRaw payload signature v = .ok (found, kid)) :
    found = payload ∧ ∃ header scheme, protectedRaw = encodeCanonical (.map header) ∧ Readable (.map header) ∧
      getInt (toPythonPairs header) 4 = .bytes kid ∧
      getInt (toPythonPairs header) 1 = .int (algorithm scheme).toInt ∧ v = .str (scheme.keyRef kid) ∧
      kid.length = scheme.kidLength ∧
      runtime.verify scheme kid (sigStructure protectedRaw payload) signature = true := by
  simp only [verifyParts, bind_eq_ok, ensure_eq_ok, asBytes_eq_ok, toBeSigned_eq headerSmall payloadSmall] at done
  obtain ⟨pairs, read, _, again, _, rfl, _, _, key, kidIs, ⟨lead, wantLen, verify⟩, schemeDone, done⟩ := done
  obtain ⟨scheme, algIs, rfl, rfl, rfl⟩ := schemeOf_eq_ok schemeDone
  obtain ⟨rest, afterDone, _, keyDone, message, signed, _, verified, done⟩ := done
  cases signed
  cases done
  obtain ⟨header, rfl, written, readable⟩ := mapOf_readable read again
  obtain ⟨rfl, kidLength⟩ := expectedKey_eq_ok keyDone
  exact ⟨rfl, header, scheme, written, readable, kidIs, algIs, afterScheme_eq_ok afterDone, kidLength, verified⟩

theorem verifySign1_eq_ok {sign1 payload kid : Bytes} {v : Value}
    (done : verifySign1 runtime sign1 v = .ok (payload, kid)) :
    ∃ issuer parts, v = .str issuer ∧ SignatureChecked runtime sign1 issuer payload parts := by
  simp only [verifySign1, bind_eq_ok] at done
  obtain ⟨_, accepted, done⟩ := done
  obtain ⟨value, rfl, written, readable⟩ := checkCanonical_readable accepted
  split at done
  · rename_i prot unprot payloadItem signatureItem four
    simp only [bind_eq_ok, asBytes_eq_ok] at done
    obtain ⟨protectedRaw, rfl, done⟩ := done
    split at done
    · simp only [bind_eq_ok, asBytes_eq_ok] at done
      obtain ⟨body, rfl, signature, rfl, done⟩ := done
      -- a map of four pairs has tuples where the parts should be
      have parts : value = .array [.bytes protectedRaw, .map [], .bytes body, .bytes signature] := by
        cases value with
        | array items =>
          simp only [toPython, elements, Option.some.injEq, toPythonItems_eq] at four
          have length : items.length = 4 := by simpa using congrArg List.length four
          obtain ⟨first, second, third, fourth, rfl⟩ := List.length_eq_four.mp length
          simp only [List.map_cons, List.map_nil, List.cons.injEq, and_true] at four
          obtain ⟨firstIs, secondIs, thirdIs, fourthIs⟩ := four
          obtain ⟨empty, rfl, emptyIs⟩ := toPython_eq_map.mp secondIs
          have hollow : empty = [] := by
            cases empty with
            | nil => rfl
            | cons pair pairs => cases emptyIs
          rw [toPython_eq_bytes.mp firstIs, toPython_eq_bytes.mp thirdIs, toPython_eq_bytes.mp fourthIs, hollow]
        | map pairs =>
          cases pairs with
          | nil => cases four
          | cons pair pairs => cases four
        | _ => cases four
      subst parts
      have small : ∀ b : Bytes, CborValue.bytes b ∈ [.bytes protectedRaw, .map [], .bytes body, .bytes signature] →
          b.length < 2 ^ 64 := fun b member => (Canonical.addressable (readable.item member).canonical).self
      obtain ⟨rfl, header, scheme, headerBytes, headerReadable, kidIs, algIs, issuerIs, kidLength, verified⟩ :=
        verifyParts_eq_ok (small _ (by simp)) (small _ (by simp)) done
      exact ⟨_, ⟨header, protectedRaw, kid, signature, scheme⟩, issuerIs, written, readable, headerBytes,
        headerReadable, kidIs, algIs, rfl, kidLength, verified⟩
    · cases done
  · cases done

/-! ## Headers -/

/-- The envelope decodes within the default limits and so does its header, with one algorithm and one key id. -/
def HeaderStated (sign1 : Bytes) : Prop :=
  ∃ protectedRaw payload signature alg kid,
    decodeStrict sign1 Limits.default =
      .ok (.array [.bytes protectedRaw, .map [], .bytes payload, .bytes signature]) ∧
    decodeStrict protectedRaw Limits.default = .ok (.map [(.uint 1, alg), (.uint 4, kid)])

/-- Values in canonical form are equal when their encodings are, under whatever limits. -/
theorem Canonical.unique {limits otherLimits : Limits} {value other : CborValue} (canonical : Canonical limits value)
    (otherCanonical : Canonical otherLimits other) (same : encodeCanonical value = encodeCanonical other) :
    value = other := by
  have sized : ∀ {limits value}, Canonical limits value → Sized value := fun canonical part inside =>
    ⟨(canonical part inside).negative, (Canonical.addressable canonical) part inside⟩
  rw [← canonical.sortMaps_eq, ← otherCanonical.sortMaps_eq]
  exact Sized.sortMaps_eq (sized canonical) (sized otherCanonical) same

theorem headerFromEntries_pair {first second : CborValue × CborValue} {alg : Int64} {kid : Bytes}
    (ascending : Ascending [first, second])
    (done : headerFromEntries none none [first, second] = .ok (some alg, some kid)) :
    ∃ algValue kidValue, first = (.uint 1, algValue) ∧ second = (.uint 4, kidValue) := by
  obtain ⟨firstKey, firstValue⟩ := first
  obtain ⟨secondKey, secondValue⟩ := second
  have below : encodeCanonical firstKey < encodeCanonical secondKey :=
    (List.pairwise_cons.mp ascending).1 _ List.mem_cons_self
  have oneBelowFour : encodeCanonical (.uint 1) < encodeCanonical (.uint 4) := by decide +kernel
  simp only [headerFromEntries] at done
  -- two algorithms leave no key id, two key ids no algorithm, and four comes after one
  split_ifs at done with firstIsOne secondIsOne secondIsFour firstIsFour secondIsOne secondIsFour
  · simp [bind_eq_ok] at done
  · exact ⟨firstValue, secondValue, by rw [firstIsOne], by rw [secondIsFour]⟩
  · simp [bind_eq_ok, headerError] at done
  · rw [firstIsFour, secondIsOne] at below
    exact absurd below (lt_asymm oneBelowFour)
  · simp [bind_eq_ok] at done
  · simp [bind_eq_ok, headerError] at done
  · cases done

theorem headerStated_of_parseSign1 {sign1 : Bytes} {parsed : ParsedSign1}
    (done : parseSign1 sign1 Limits.default = .ok parsed) : HeaderStated sign1 := by
  simp only [parseSign1] at done
  split at done
  · cases done
  · simp only [bind_eq_ok] at done
    obtain ⟨outer, decoded, done⟩ := done
    rw [if_neg (not_not.mpr (decodeStrict_sound decoded).1.symm)] at done
    split at done
    · rename_i protectedItem unprotectedItem payloadItem signatureItem
      simp only [bind_eq_ok] at done
      obtain ⟨protectedRaw, protectedDone, _, unprotectedDone, _, payloadDone, _, signatureDone, ⟨alg, kid⟩,
        headerDone, _⟩ := done
      rw [protectedFromCbor_eq_ok protectedDone, checkUnprotected_eq_ok unprotectedDone,
        payloadFromCbor_eq_ok payloadDone, signatureFromCbor_eq_ok signatureDone] at decoded
      simp only [parseProtected, bind_eq_ok] at headerDone
      obtain ⟨inner, innerDecoded, headerDone⟩ := headerDone
      obtain ⟨written, canonical⟩ := decodeStrict_sound innerDecoded
      rw [if_neg (not_not.mpr written.symm)] at headerDone
      split at headerDone
      · rename_i pairs
        split at headerDone
        · cases headerDone
        · rename_i two
          obtain ⟨first, second, rfl⟩ := List.length_eq_two.mp (not_not.mp two)
          obtain ⟨⟨foundAlg, foundKid⟩, entriesDone, headerDone⟩ := bind_eq_ok.mp headerDone
          cases foundAlg with
          | none => cases headerDone
          | some foundAlg =>
            cases foundKid with
            | none => cases headerDone
            | some foundKid =>
              obtain ⟨algValue, kidValue, rfl, rfl⟩ := headerFromEntries_pair canonical.ascending entriesDone
              exact ⟨protectedRaw, _, _, algValue, kidValue, decoded, innerDecoded⟩
      · cases headerDone
    · cases done
    · cases done

/-! ## Envelopes that were accepted -/

/-- The parts of an envelope as the engine parses them. -/
def EnvelopeParts.parsed (parts : EnvelopeParts) (payload : Bytes) : ParsedSign1 where
  alg := algorithm parts.scheme
  kid := parts.kid
  payload := payload
  signature := parts.signature
  protectedRaw := parts.protectedRaw

section
variable {primitives : Primitives} {allowed : AllowedAlgs} {sign1 payload : Bytes} {issuer : String}
  {parts : EnvelopeParts}

theorem toPython_eq_negative {value : CborValue} {n : Int64} (negative : n.toInt < 0)
    (same : toPython value = .int n.toInt) : value = .nint n := by
  cases value with
  | nint m => exact congrArg CborValue.nint (Int64.toInt_inj.mp (Value.int.inj same))
  | uint m =>
    have natural := Value.int.inj same
    omega
  | _ => cases same

theorem SignatureChecked.decoded (checked : SignatureChecked runtime sign1 issuer payload parts)
    (stated : HeaderStated sign1) :
    decodeStrict sign1 Limits.default = .ok (parts.value payload) ∧
      decodeStrict parts.protectedRaw Limits.default =
        .ok (.map [(.uint 1, .nint (algorithm parts.scheme)), (.uint 4, .bytes parts.kid)]) := by
  obtain ⟨protectedRaw, body, signature, alg, kid, decoded, headerDecoded⟩ := stated
  obtain ⟨written, canonical⟩ := decodeStrict_sound decoded
  have same := Canonical.unique checked.readable.canonical canonical (checked.envelope.symm.trans written)
  rw [← same] at decoded
  simp only [EnvelopeParts.value, CborValue.array.injEq, List.cons.injEq, CborValue.bytes.injEq] at same
  rw [← same.1] at headerDecoded
  obtain ⟨headerWritten, headerCanonical⟩ := decodeStrict_sound headerDecoded
  have header := Canonical.unique checked.headerReadable.canonical headerCanonical
    (checked.headerBytes.symm.trans headerWritten)
  have algFound := checked.alg
  have kidFound := checked.kid
  rw [CborValue.map.inj header] at algFound kidFound
  -- the two values are found under their labels
  have negative : (algorithm parts.scheme).toInt < 0 := by
    cases parts.scheme <;> decide
  have algIs : alg = .nint (algorithm parts.scheme) := toPython_eq_negative negative algFound
  have kidIs : kid = .bytes parts.kid := toPython_eq_bytes.mp kidFound
  rw [algIs, kidIs] at headerDecoded
  exact ⟨decoded, headerDecoded⟩

theorem SignatureChecked.signatureLength (checked : SignatureChecked runtime sign1 issuer payload parts)
    (relation : SameRelation runtime primitives) : parts.signature.length = 64 := by
  have verified := checked.verified
  cases scheme : parts.scheme with
  | ed25519 =>
    rw [scheme] at verified
    exact ((relation.ed25519 _ _ _).mp verified).2.1
  | p256 =>
    rw [scheme] at verified
    exact ((relation.p256 _ _ _).mp verified).2.1

theorem SignatureChecked.parseSign1 (checked : SignatureChecked runtime sign1 issuer payload parts)
    (relation : SameRelation runtime primitives) (stated : HeaderStated sign1) :
    ProofEngine.parseSign1 sign1 Limits.default = .ok (parts.parsed payload) := by
  obtain ⟨decoded, headerDecoded⟩ := checked.decoded stated
  have signatureLeSig : 64 ≤ Limits.default.maxSigSize.toNat := by decide
  have signatureLength := checked.signatureLength relation
  have small := (decodeStrict_eq_ok.mp decoded).size
  have lengths := length_sign1Bytes_ge parts.protectedRaw payload parts.signature
  rw [sign1Bytes, ← EnvelopeParts.value, ← checked.envelope] at lengths
  have header : parseProtected parts.protectedRaw Limits.default = .ok (algorithm parts.scheme, parts.kid) := by
    rw [parseProtected, headerDecoded, ok_bind, if_neg (not_not.mpr (decodeStrict_sound headerDecoded).1.symm)]
    rfl
  have shape : checkKidShape (algorithm parts.scheme) parts.kid = .ok () := by
    have length := checked.kidLength
    cases scheme : parts.scheme <;> rw [scheme] at length <;>
      simp [checkKidShape, algorithm, coseEd25519, coseEsp256, length, Scheme.kidLength]
  rw [ProofEngine.parseSign1, if_neg (by omega), decoded, ok_bind,
    if_neg (not_not.mpr (decodeStrict_sound decoded).1.symm)]
  simp only [EnvelopeParts.value, protectedFromCbor, checkUnprotected, payloadFromCbor, signatureFromCbor, ok_bind]
  rw [if_neg (by omega), if_neg (by omega), ok_bind, ok_bind, header, ok_bind]
  simp only [shape, ok_bind]
  rfl

theorem parseKeyref_keyRef {scheme : Scheme} {kid : Bytes} (length : kid.length = scheme.kidLength)
    (wrongLead notCanonical wrongSize : String) :
    parseKeyref primitives scheme.lead scheme.kidLength wrongLead notCanonical wrongSize (scheme.keyRef kid) =
      .ok kid := by
  have stripped : strip (scheme.keyRef kid) scheme.lead = some (b64uNopad kid) := strip_append _ _
  have decoded : ProofEngine.b64uDecode primitives (b64uNopad kid) = .ok kid := b64uDecode_eq_ok.mpr rfl
  simp [parseKeyref, stripped, decoded, length]

/-- The operation of the scheme accepts what the second verifier accepted. -/
theorem SignatureChecked.verifyOp (checked : SignatureChecked runtime sign1 issuer payload parts)
    (relation : SameRelation runtime primitives) :
    ProofEngine.verifyOp primitives (algorithm parts.scheme) (parts.scheme.keyRef parts.kid) (parts.parsed payload)
      externalAad = .ok () := by
  have verified := checked.verified
  have key := @parseKeyref_keyRef primitives _ _ checked.kidLength
  have sameKid : parts.kid = (parts.parsed payload).kid := rfl
  cases scheme : parts.scheme with
  | ed25519 =>
    rw [scheme] at verified key
    obtain ⟨_, length, wellFormed, accepted⟩ := (relation.ed25519 _ _ _).mp verified
    rw [ProofEngine.verifyOp, algorithm, if_pos rfl, verifyEd25519, parseEd25519Keyref]
    rw [show parseKeyref primitives "key:ed25519:" 32 _ _ _ _ = _ from key _ _ _, ok_bind,
      if_neg (not_not.mpr sameKid), wellFormed, liftError, ok_bind]
    exact (if_neg (not_not.mpr length)).trans (if_pos accepted)
  | p256 =>
    rw [scheme] at verified key
    obtain ⟨_, length, point, wellFormed, shape, accepted⟩ := (relation.p256 _ _ _).mp verified
    rw [ProofEngine.verifyOp, algorithm, if_neg (by decide), if_pos rfl, verifyEsp256, parseP256Keyref]
    rw [show parseKeyref primitives "key:p256:" 64 _ _ _ _ = _ from key _ _ _, ok_bind,
      if_neg (not_not.mpr sameKid), p256VerifyKey, point, wellFormed]
    simp only [liftError, ok_bind, EnvelopeParts.parsed, shape]
    exact if_pos accepted

theorem SignatureChecked.verifySign1 (checked : SignatureChecked runtime sign1 issuer payload parts)
    (relation : SameRelation runtime primitives) (ed25519 : allowed.ed25519 = true) (esp256 : allowed.esp256 = true)
    (stated : HeaderStated sign1) :
    ProofEngine.verifySign1 primitives sign1 (parts.scheme.keyRef parts.kid) allowed Limits.default =
      .ok (parts.parsed payload) := by
  have historical : historicalOp allowed (parts.parsed payload) = .ok none := by
    have current : AllowedAlgs.isDeprecated (algorithm parts.scheme) = false := by
      cases parts.scheme <;> decide
    exact if_neg (by simp [EnvelopeParts.parsed, current])
  have admitted : checkAllowed allowed none (algorithm parts.scheme) = .ok () := by
    cases parts.scheme <;>
      simp [checkAllowed, AllowedAlgs.isAllowed, algorithm, coseEd25519, coseEsp256, ed25519, esp256]
  have signatureLength : (parts.parsed payload).signature.length = 64 := checked.signatureLength relation
  rw [ProofEngine.verifySign1, verifySign1WithAad, if_neg (by decide +kernel), checked.parseSign1 relation stated,
    ok_bind, historical, ok_bind]
  change (checkAllowed allowed none (algorithm parts.scheme) >>= _) = _
  rw [admitted, ok_bind, if_neg (not_not.mpr signatureLength)]
  change (ProofEngine.verifyOp primitives (algorithm parts.scheme) _ _ externalAad >>= _) = _
  rw [checked.verifyOp relation, ok_bind]

theorem selfBoundIssuer_parsed (parts : EnvelopeParts) (payload : Bytes) :
    selfBoundIssuer (parts.parsed payload) = parts.scheme.keyRef parts.kid := by
  cases scheme : parts.scheme with
  | ed25519 => exact if_pos (congrArg algorithm scheme)
  | p256 =>
    have isP256 : (parts.parsed payload).alg = coseEsp256 := congrArg algorithm scheme
    rw [selfBoundIssuer, isP256, if_neg (by decide)]
    exact if_pos rfl

/-- The engine verifies an entry with an accepted envelope exactly when the header is stated. -/
theorem SignatureChecked.verifyEntry_iff {ctx : VerifyCtx} {entry : StoredAttestation} {id : String}
    (checked : SignatureChecked runtime entry.sign1 entry.content.issuer payload parts)
    (relation : SameRelation runtime primitives) (limits : ctx.limits = Limits.default)
    (ed25519 : ctx.allowedAlgs.ed25519 = true) (esp256 : ctx.allowedAlgs.esp256 = true)
    (read : (decodeStrict payload Limits.default >>= cborToAttestation Limits.default) = .ok entry.content)
    (named : attestationId primitives payload = id) :
    (∃ alg, verifyEntry primitives ctx entry id = .ok alg) ↔ HeaderStated entry.sign1 := by
  constructor
  · rintro ⟨alg, done⟩
    obtain ⟨parsed, shape, _⟩ := verifyEntry_eq_ok done
    rw [limits] at shape
    exact headerStated_of_parseSign1 shape
  · intro stated
    refine ⟨_, @verifyEntry_of_signed _ _ _ _ (parts.parsed payload) ?_ ?_ ?_ named⟩
    · rw [selfBoundIssuer_parsed, limits]
      exact checked.verifySign1 relation ed25519 esp256 stated
    · rw [limits]
      exact read
    · rw [selfBoundIssuer_parsed]
      exact checked.issuerIs

end

/-! ## Attestation entries -/

/-- What the second verifier has checked of an attestation entry with the given content. -/
structure EntryChecked (runtime : Runtime) (entries content : Entries) : Prop where
  closed : ∀ entry ∈ entries, ∃ key ∈ ["content", "sign1"], entry.1 = .text key
  contentFound : findField entries "content" = some (.map content)
  contentChecked : ContentChecked content
  envelope : ∃ sign1 issuer parts, findField entries "sign1" = some (.bytes sign1) ∧
    findField content "issuer" = some (.text issuer) ∧
    SignatureChecked runtime sign1 issuer (encodeCanonical (.map content)) parts

theorem keyRef_bounded {scheme : Scheme} {kid : Bytes} (length : kid.length = scheme.kidLength) :
    BoundedText (scheme.keyRef kid) := by
  have body := Base64Url.len_encode_le kid
  have ed25519 : len "key:ed25519:" = 12 := by decide +kernel
  have p256 : len "key:p256:" = 9 := by decide +kernel
  have whole : len (scheme.keyRef kid) = len scheme.lead + len (b64uNopad kid) := len_append _ _
  rw [length] at body
  have leadLength : 0 < len scheme.lead ∧ len scheme.lead ≤ 12 := by
    cases scheme <;> simp [Scheme.lead, ed25519, p256]
  have kidLength : scheme.kidLength ≤ 64 := by
    cases scheme <;> decide
  have total : 0 < len (scheme.keyRef kid) ∧ len (scheme.keyRef kid) ≤ 1024 := by
    rw [whole, b64uNopad]
    omega
  refine ⟨?_, total.2⟩
  rw [Bool.eq_false_iff]
  intro empty
  rw [String.isEmpty_iff.mp empty] at total
  exact absurd total.1 (by decide +kernel)

theorem verifyAttestation_eq_ok {value : CborValue} {id : String} {issuerValue : Value} (readable : Readable value)
    (done : verifyAttestation runtime (toPython value) = .ok (id, issuerValue)) :
    ∃ entries content, value = .map entries ∧ EntryChecked runtime entries content ∧
      id = objId runtime "att" (encodeCanonical (.map content)) := by
  simp only [verifyAttestation, bind_eq_ok, closed_eq_ok] at done
  obtain ⟨_, ⟨entries, rfl, rfl, closed⟩, _, contentDone, contentRaw, written, done⟩ := done
  obtain ⟨contentValue, contentFound, rfl⟩ := req_eq_ok.mp contentDone
  have inner := readable.field contentFound
  rw [inner.encAny] at written
  cases written
  simp only [mapOf_eq_ok inner, asBytes_eq_ok, ensure_eq_ok] at done
  obtain ⟨_, ⟨content, rfl, rfl⟩, _, contentClosed, _, claimDone, _, refDone, _, sign1Done, sign1, sign1Is,
    _, issuerDone, ⟨found, kid⟩, signed, _, same, done⟩ := done
  cases done
  obtain ⟨_, sign1Found, rfl⟩ := req_eq_ok.mp sign1Done
  obtain ⟨issuer, parts, rfl, checked⟩ := verifySign1_eq_ok signed
  obtain ⟨issuerCbor, issuerFound, issuerIs⟩ := req_eq_ok.mp issuerDone
  rw [toPython_eq_str.mp issuerIs] at issuerFound
  rw [toPython_eq_bytes.mp sign1Is] at sign1Found
  have authenticated : found = encodeCanonical (.map content) := same
  rw [authenticated] at checked
  have issuerBounded : BoundedText issuer := by
    rw [checked.issuerIs]
    exact keyRef_bounded checked.kidLength
  have unique := inner.ascending.uniqueKeys
  exact ⟨entries, content, rfl, ⟨closed, contentFound,
    ⟨closed_of_subset (by decide) (checkKnown_eq_ok.mp contentClosed), ⟨issuer, issuerFound, issuerBounded⟩,
      checkClaim_get inner claimDone, fun _ => checkOptRef_get unique refDone⟩, sign1, issuer, parts, sign1Found,
    issuerFound, checked⟩, rfl⟩

theorem cborToAttestationEntry_iff {entries content : Entries} (checked : EntryChecked runtime entries content)
    (canonical : Canonical Limits.default (.map entries)) :
    (∃ stored, cborToAttestationEntry Limits.default (.map entries) = .ok stored) ↔ ContentStated content := by
  have inner := canonical.findField checked.contentFound
  rw [← cborToAttestation_iff checked.contentChecked inner]
  obtain ⟨sign1, issuer, parts, sign1Found, _, signature⟩ := checked.envelope
  constructor
  · rintro ⟨stored, done⟩
    simp only [cborToAttestationEntry, bind_eq_ok, requireField_eq_ok] at done
    obtain ⟨_, _, _, contentFound, parsed, contentDone, _⟩ := done
    cases checked.contentFound.symm.trans contentFound
    exact ⟨parsed, contentDone⟩
  · rintro ⟨parsed, contentDone⟩
    have small : sign1.length ≤ Limits.default.maxFieldSize.toNat := (canonical.findField sign1Found).self.admitted
    have fieldLeProof : Limits.default.maxFieldSize.toNat ≤ Limits.default.maxProofSize.toNat := by decide
    have nonempty : sign1.isEmpty = false := by
      rw [signature.envelope, EnvelopeParts.value, encodeCanonical, encodeValue]
      rfl
    have admitted : sign1FromCbor Limits.default (.bytes sign1) = .ok sign1 := by
      rw [sign1FromCbor, nonempty, Bool.false_or, if_neg]
      rw [decide_eq_true_iff]
      omega
    have known : checkClosed ["content", "sign1"] "AttestationEntry" entries = .ok () :=
      checkClosed_eq_ok.mpr checked.closed
    refine ⟨⟨parsed, sign1⟩, ?_⟩
    rw [cborToAttestationEntry, known, ok_bind,
      requireField_eq_ok.mpr checked.contentFound, ok_bind, contentDone, ok_bind, requireField_eq_ok.mpr sign1Found,
      ok_bind, admitted]
    rfl

end

end ProofEngine.Interop

import ProofEngine.Interop.Base64
import ProofEngine.Interop.MiniCbor
import ProofEngine.Lib.CodePoints

/-! # The second verifier

Parsing, canonical form, identifiers, signatures and the proof id, checked over dynamically typed values.
A check that fails ends the run; a run that ends without failing has accepted the proof. -/

namespace ProofEngine.Interop

open StableSort Text

/-- Hash and signature checks, and how the language prints values in messages. -/
structure Runtime where
  sha256 : Bytes → Bytes
  edVerify : (pub message signature : Bytes) → Bool
  p256Verify : (pub message signature : Bytes) → Bool
  repr : Value → String
  display : Value → String

abbrev Pairs := List (Value × Value)

def fail {α : Type} (message : String) : Py α := .error (.interopFail message)

def ensure (condition : Prop) [Decidable condition] (message : String) : Py Unit :=
  if condition then .ok () else fail message

/-! ## Values -/

def isStr (key : String) : Value → Bool
  | .str s => s == key
  | _ => false

/-- Equality with an integer; `True` is 1. -/
def equalsInt (n : Int) : Value → Bool
  | .int m => m == n
  | .bool b => (if b then 1 else 0) == n
  | _ => false

/-- `dict(d).get(key)`: of equal keys the last one counts, and an absent key is `None`. -/
def get (d : Pairs) (key : String) : Value :=
  match d.reverse.find? fun entry => isStr key entry.1 with
  | some entry => entry.2
  | none => .none

def getInt (d : Pairs) (key : Int) : Value :=
  match d.reverse.find? fun entry => equalsInt key entry.1 with
  | some entry => entry.2
  | none => .none

def req (d : Pairs) (key : String) : Py Value :=
  match d.find? fun entry => isStr key entry.1 with
  | some entry => .ok entry.2
  | none => fail ("missing field " ++ key)

/-- A map is a list of its pairs.  They are tuples; as lists here, since no check tells the two apart. -/
def elements : Value → Option (List Value)
  | .list items => some items
  | .map pairs => some (pairs.map fun pair => .list [pair.1, pair.2])
  | _ => none

def asBytes (message : String) : Value → Py Bytes
  | .bytes b => .ok b
  | _ => fail message

def asInt (message : String) : Value → Py Int
  | .int n => .ok n
  | _ => fail message

def asStr (message : String) : Value → Py String
  | .str s => .ok s
  | _ => fail message

/-- What counts as false in a condition. -/
def falsy : Value → Bool
  | .none => true
  | .bool b => !b
  | .int n => n == 0
  | .str s => s.isEmpty
  | .bytes b => b.isEmpty
  | .list items => items.isEmpty
  | .map pairs => pairs.isEmpty

/-- `str.isspace`: white space and the separators U+001C to U+001F. -/
def isSpace (char : Char) : Bool := isWhitespace char || (0x1c ≤ char.val && char.val ≤ 0x1f)

def b64u (data : Bytes) : String := Base64Url.encode data

/-- The map that is all of `raw`; the codec's own errors are not caught. -/
def mapOf (raw : Bytes) : Py Pairs := do
  let (v, rest) ← dec (maxDepth + 1) raw
  ensure (rest = []) "trailing bytes"
  match v with
  | .map pairs => .ok pairs
  | _ => fail "top-level map expected"

/-! ## Shared checks -/

/-- No caller lets text be empty. -/
def checkText (s : Value) (what : String) (maxLen : Nat) : Py Unit :=
  match s with
  | .str s => ensure (s.isEmpty = false ∧ len s ≤ maxLen) (what ++ " length out of bounds")
  | _ => fail (what ++ " must be text")

/-- One entry of metadata or of a claim. -/
def checkEntry (what : String) (entry : Value × Value) : Py Unit := do
  let key ← asStr (what ++ " key out of bounds") entry.1
  ensure (key.isEmpty = false ∧ len key ≤ 64) (what ++ " key out of bounds")
  match entry.2 with
  | .bool _ => .ok ()
  | .int n => ensure (0 ≤ n) (what ++ " value must be text/uint/bool")
  | .str s => ensure (len s ≤ 1024) (what ++ " value too long")
  | _ => fail (what ++ " value must be text/uint/bool")

def checkEntries (what : String) : Pairs → Py Unit
  | [] => .ok ()
  | entry :: entries => do
    checkEntry what entry
    checkEntries what entries

section
variable (runtime : Runtime)

def objId (kind : String) (canonical : Bytes) : String := kind ++ ":v1:" ++ b64u (runtime.sha256 canonical)

/-- A typed reference that may be absent or null. -/
def checkOptRef (s : Value) (what lead : String) : Py Unit :=
  match s with
  | .str s => do
    checkText (.str s) what 1024
    ensure (startsWith s lead = true) (what ++ " " ++ runtime.repr (.str s) ++ " must start with " ++ lead)
  | .none => .ok ()
  | _ => fail (what ++ " must be text or null")

def checkKnown (allowed : List String) (what : String) : Pairs → Py Unit
  | [] => .ok ()
  | (key, _) :: pairs => do
    ensure (allowed.any (fun name => isStr name key) = true) ("unknown " ++ what ++ " field " ++ runtime.repr key)
    checkKnown allowed what pairs

/-- The pairs of a map without unknown fields. -/
def closed (allowed : List String) (what : String) : Value → Py Pairs
  | .map pairs => do
    checkKnown runtime allowed what pairs
    .ok pairs
  | _ => fail (what ++ " must be map")

/-! ## Signatures -/

/-- The reference after the lead of its scheme.  Only text has a `startswith` that takes text. -/
def afterScheme (lead : String) : Value → Py String
  | .str s =>
    match strip s lead with
    | some rest => .ok rest
    | none => fail "issuer/keyref scheme mismatch"
  | .bytes _ => .error .typeError
  | _ => .error .attributeError

/-- Lead of the key reference, length of the key, and the operation. -/
def schemeOf (alg : Value) : Py (String × Nat × (Bytes → Bytes → Bytes → Bool)) :=
  if equalsInt (-19) alg then .ok ("key:ed25519:", 32, runtime.edVerify)
  else if equalsInt (-9) alg then .ok ("key:p256:", 64, runtime.p256Verify)
  else fail ("unknown/deprecated alg " ++ runtime.display alg)

def toBeSigned (protRaw payload : Bytes) : Py Bytes := do
  let context ← enc (.str "Signature1")
  let header ← enc (.bytes protRaw)
  let aad ← enc (.bytes (utf8 "PE1"))
  let body ← enc (.bytes payload)
  .ok ([0x84] ++ context ++ header ++ aad ++ body)

/-- The key of a reference, which must be the key id of the header. -/
def expectedKey (rest : String) (wantLen : Nat) (kid : Bytes) : Py Unit :=
  match b64uDecode rest with
  | none => fail "bad keyref base64url"
  | some expect => do
    ensure (b64u expect = rest) "keyref is not canonical base64url"
    ensure (expect.length = wantLen ∧ expect = kid) "kid does not match issuer key"

/-- The keys of the header are 1 and 4, as `set` compares them. -/
def headerKeys (pd : Pairs) : Bool :=
  pd.all (fun entry => equalsInt 1 entry.1 || equalsInt 4 entry.1) && pd.any (fun entry => equalsInt 1 entry.1) &&
    pd.any fun entry => equalsInt 4 entry.1

def verifyParts (protRaw payload signature : Bytes) (expectedKeyref : Value) : Py (Bytes × Bytes) := do
  let pd ← mapOf protRaw
  let again ← encAny (.map pd)
  ensure (again = protRaw) "protected not canonical"
  ensure (headerKeys pd = true) "protected must be exactly \x7b1, 4\x7d"
  let kid ← asBytes "kid must be bstr" (getInt pd 4)
  let (lead, wantLen, verify) ← schemeOf runtime (getInt pd 1)
  let rest ← afterScheme lead expectedKeyref
  expectedKey rest wantLen kid
  let message ← toBeSigned protRaw payload
  ensure (verify kid message signature = true) "SIGNATURE_INVALID"
  .ok (payload, kid)

def verifySign1 (sign1 : Bytes) (expectedKeyref : Value) : Py (Bytes × Bytes) := do
  let v ← checkCanonical sign1
  match elements v with
  | some [prot, unprot, payload, signature] => do
    let protRaw ← asBytes "protected must be bstr" prot
    match unprot with
    | .map [] => do
      let payload ← asBytes "embedded payload/signature required" payload
      let signature ← asBytes "embedded payload/signature required" signature
      verifyParts runtime protRaw payload signature expectedKeyref
    | _ => fail "unprotected must be empty"
  | _ => fail "Sign1 must be a 4-array"

/-! ## Members -/

def eventFields : List String := ["v", "type", "subject", "effective_at", "payload_ref", "metadata"]

def attestationFields : List String :=
  ["v", "issuer", "subject", "claim", "issued_at", "expires_at", "evidence_ref"]

def evidenceFields : List String := ["v", "kind", "digest", "attestation_ref", "hint"]

def relFields : List String := ["v", "from", "type", "to", "evidence_ref", "attestation_ref"]

def propFields : List String := ["v", "kind", "subject", "predicate", "object", "at_time", "context"]

def proofFields : List String :=
  ["v", "proof_id", "proposition", "events", "attestations", "evidence", "relationships", "referenced_proofs",
   "vocabularies", "created_at"]

def members (outer : Pairs) (key : String) : Py (List Value) := do
  match elements (← req outer key) with
  | some items => .ok items
  | none => fail (key ++ " must be array")

def checkMetadata : Value → Py Unit
  | .none => .ok ()
  | .map pairs => do
    ensure (pairs.length ≤ 16) "event.metadata size out of bounds"
    checkEntries "event.metadata" pairs
  | _ => fail "event.metadata size out of bounds"

def verifyEvent (m : Value) : Py String := do
  let md ← closed runtime eventFields "event" m
  checkText (get md "type") "event.type" 1024
  checkText (get md "subject") "event.subject" 1024
  checkMetadata (get md "metadata")
  let raw ← encAny m
  .ok (objId runtime "evt" raw)

def checkClaim : Value → Py Unit
  | .map pairs => do
    ensure (1 ≤ pairs.length ∧ pairs.length ≤ 16) "attestation.claim size out of bounds"
    checkText (get pairs "type") "attestation.claim.type" 128
    checkEntries "attestation.claim" (pairs.filter fun entry => !isStr "type" entry.1)
  | _ => fail "attestation.claim size out of bounds"

/-- Id and issuer of an attestation entry. -/
def verifyAttestation (entry : Value) : Py (String × Value) := do
  let pairs ← closed runtime ["content", "sign1"] "attestation entry" entry
  let contentRaw ← encAny (← req pairs "content")
  let payload ← mapOf contentRaw
  checkKnown runtime attestationFields "attestation" payload
  checkClaim (get payload "claim")
  checkOptRef runtime (get payload "evidence_ref") "attestation.evidence_ref" "evd:v1:"
  let sign1 ← asBytes "sign1 must be bstr" (← req pairs "sign1")
  -- the issuer comes from the payload, never from the key id alone
  let issuer ← req payload "issuer"
  let (authPayload, _) ← verifySign1 runtime sign1 issuer
  ensure (authPayload = contentRaw) "envelope content differs from authenticated payload"
  .ok (objId runtime "att" contentRaw, issuer)

def checkHint : Value → Py Unit
  | .str s => ensure (len s ≤ 256) "evidence.hint too long"
  | .none => .ok ()
  | _ => fail "evidence.hint must be text or null"

def verifyEvidence (m : Value) : Py String := do
  let ed ← closed runtime evidenceFields "evidence" m
  checkText (get ed "kind") "evidence.kind" 1024
  checkHint (get ed "hint")
  checkOptRef runtime (get ed "attestation_ref") "evidence.attestation_ref" "att:v1:"
  let raw ← encAny m
  .ok (objId runtime "evd" raw)

def verifyRelationship (m : Value) : Py String := do
  let rd ← closed runtime relFields "relationship" m
  checkText (get rd "from") "relationship.from" 1024
  checkText (get rd "to") "relationship.to" 1024
  checkText (get rd "type") "relationship.type" 1024
  checkOptRef runtime (get rd "evidence_ref") "relationship.evidence_ref" "evd:v1:"
  checkOptRef runtime (get rd "attestation_ref") "relationship.attestation_ref" "att:v1:"
  let raw ← encAny m
  .ok (objId runtime "rel" raw)

/-! ## References and vocabularies -/

def checkReference (x : String) : Py Unit :=
  match strip x "prf:v1:" with
  | none => fail "referenced proof id must start with prf:v1:"
  | some rest =>
    match b64uDecode rest with
    | none => fail "referenced proof id is not base64url"
    | some raw => ensure (b64u raw = rest ∧ raw.length = 32) "referenced proof id digest must be 32 bytes"

def checkReferences : List String → Py Unit
  | [] => .ok ()
  | x :: xs => do
    checkReference x
    checkReferences xs

def referencedProofs (refsRaw : Value) : Py (List String) :=
  match refsRaw with
  | .none => .ok []
  | _ =>
    match elements refsRaw with
    | none => fail "referenced_proofs must be an array of text"
    | some items => do
      let refs ← items.mapM (asStr "referenced_proofs must be an array of text")
      checkReferences refs
      ensure (sortOn codePoints refs = refs ∧ refs.Nodup) "referenced_proofs must be sorted with no duplicates"
      .ok refs

def vocabulary : Value → Py (String × Int)
  | .map pairs => do
    ensure ((pairs.all fun entry => isStr "ns" entry.1 || isStr "version" entry.1) = true ∧
        (pairs.any fun entry => isStr "ns" entry.1) = true ∧ (pairs.any fun entry => isStr "version" entry.1) = true)
      "vocabulary must be exactly \x7bns, version\x7d"
    let ns ← asStr "vocabulary ns length out of bounds" (get pairs "ns")
    ensure (ns.isEmpty = false ∧ ns.length ≤ 128) "vocabulary ns length out of bounds"
    ensure (ns.toList.contains ':' = false ∧ ns.toList.any isSpace = false)
      "vocabulary ns must not contain ':' or whitespace"
    let version ← asInt "vocabulary version must be a uint" (get pairs "version")
    ensure (0 ≤ version) "vocabulary version must be a uint"
    .ok (ns, version)
  | _ => fail "vocabulary must be a map"

/-- The loop over declarations, with the namespaces seen so far. -/
def vocabularyLoop : (seen : List String) → List Value → Py (List (String × Int))
  | _, [] => .ok []
  | seen, item :: items => do
    let (ns, version) ← vocabulary item
    ensure (ns ∉ seen) "vocabularies must be sorted by ns with no duplicates"
    let others ← vocabularyLoop (ns :: seen) items
    .ok ((ns, version) :: others)

def vocabularies (vocs : Value) : Py (List (String × Int)) :=
  if falsy vocs then .ok []
  else
    match elements vocs with
    | none => fail "vocabularies must be an array"
    | some items => do
      let declared ← vocabularyLoop [] items
      ensure (declared.map Prod.fst = sortOn codePoints (declared.map Prod.fst))
        "vocabularies must be sorted by ns with no duplicates"
      .ok declared

/-! ## Proofs -/

def sortedStrs (ids : List String) : Value := .list ((sortOn codePoints ids).map .str)

def binding (prop : Value) (created : Int) (eventIds attIds evdIds relIds refs : List String)
    (vocs : List (String × Int)) : Pairs :=
  [(.str "attestations", sortedStrs attIds),
   (.str "created_at", .int created),
   (.str "events", sortedStrs eventIds),
   (.str "evidence", sortedStrs evdIds),
   (.str "relationships", sortedStrs relIds),
   (.str "proposition", prop),
   (.str "v", .int 1)]
  ++ (if refs.isEmpty then [] else [(.str "referenced_proofs", sortedStrs refs)])
  ++ (if vocs.isEmpty then []
      else [(.str "vocabularies", .list (vocs.map fun declared =>
        .map [(.str "ns", .str declared.1), (.str "version", .int declared.2)]))])

structure Verified where
  proofId : String
  createdAt : Int
  eventIds : List String
  attestationIds : List String
  evidenceIds : List String
  relationshipIds : List String
  referencedProofs : List String
  issuers : List Value

/-- Stages 1 to 6 and the binding of the proof id. -/
def verifyProof (proofRaw : Bytes) : Py Verified := do
  let outer ← checkCanonical proofRaw
  let d ← closed runtime proofFields "proof" outer
  ensure (equalsInt 1 (get d "v") = true) "unsupported proof version"
  let prop ← req d "proposition"
  let _ ← closed runtime propFields "proposition" prop
  let created ← asInt "created_at must be a uint" (get d "created_at")
  let eventIds ← (← members d "events").mapM (verifyEvent runtime)
  let attested ← (← members d "attestations").mapM (verifyAttestation runtime)
  let evdIds ← (← members d "evidence").mapM (verifyEvidence runtime)
  let relIds ← (← members d "relationships").mapM (verifyRelationship runtime)
  let refs ← referencedProofs (get d "referenced_proofs")
  let vocs ← vocabularies (get d "vocabularies")
  let bound ← encAny (.map (binding prop created eventIds (attested.map Prod.fst) evdIds relIds refs vocs))
  let recomputed := objId runtime "prf" bound
  ensure (isStr recomputed (get d "proof_id") = true) "ID_MISMATCH on proof_id"
  .ok { proofId := recomputed, createdAt := created, eventIds, attestationIds := attested.map Prod.fst,
        evidenceIds := evdIds, relationshipIds := relIds, referencedProofs := refs, issuers := attested.map Prod.snd }

end

end ProofEngine.Interop

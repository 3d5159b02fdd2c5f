import ProofEngine.Cli.Compose
import ProofEngine.Cli.Evaluate
import ProofEngine.Cli.FreeIdentity
import ProofEngine.Crypto.StatusBuild

/-! # Artifact files

Every artifact travels in a JSON file of its own.  The creating commands write these files and the loaders read them;
a loader takes nothing from a file that the bytes in it do not bear out. -/

namespace ProofEngine

open Text

/-! ## Wrappers -/

def eventWrapperAllowed : List String := ["cbor", "id", "kind", "container_version"]

def evidenceWrapperAllowed : List String := ["cbor", "id", "kind", "container_version"]

def relationshipWrapperAllowed : List String := ["cbor", "id", "kind", "container_version"]

def attestationWrapperAllowed : List String :=
  ["cbor", "id", "kind", "issuer", "sign1_b64", "sign1", "container_version"]

/-- A field that may be absent or null, and is a string otherwise. -/
def optStr (json : Json) (file key : String) : Except String (Option String) :=
  match json.get key with
  | none | some .null => .ok none
  | some value =>
    match value.asStr with
    | some text => .ok (some text)
    | none => .error (file ++ ": `" ++ key ++ "` must be a string")

/-- The signature of a wrapper, under either name. -/
def wrappedSign1 (label : String) (json : Json) : Except String String :=
  match ((json.get "sign1_b64").orElse fun _ => json.get "sign1").bind Json.asStr with
  | some encoded => .ok encoded
  | none => .error (label ++ ": missing `sign1_b64`")

def wrappedIssuer (json : Json) (path : String) : Except String String := do
  match ← optStr json path "issuer" with
  | some issuer => .ok issuer
  | none => .error (path ++ ": missing `issuer`")

def checkWrappedId (json : Json) (path id : String) : Except String Unit := do
  match ← optStr json path "id" with
  | some expect =>
    if expect ≠ id then .error (path ++ ": id mismatch (file says " ++ expect ++ ", bytes are " ++ id ++ ")")
    else .ok ()
  | none => .ok ()

/-! ## Loaders -/

section
variable (libraries : Libraries) (primitives : Primitives)

/-- A member that only its id vouches for. -/
def memberOfText {α : Type} (allowed : List String) (kind : String) (parse : Limits → CborValue → Result α)
    (path label text : String) : Except String α := do
  let json ← parseJson libraries label text
  rejectUnknownWrapperFields json label allowed
  let bytes ← wrappedBytes libraries path json
  let expect ← optStr json path "id"
  let _ ← labelled path (verifyMember primitives kind parse bytes expect Limits.default)
  let value ← labelled path (decodeStrict bytes Limits.default)
  labelled path (parse Limits.default value)

def loadMember {α : Type} (allowed : List String) (kind : String) (parse : Limits → CborValue → Result α)
    (path : String) : Command α := do
  let (text, label) ← readInputText path
  Command.of (memberOfText libraries primitives allowed kind parse path label text)

def loadEvent (path : String) : Command EventContent :=
  loadMember libraries primitives eventWrapperAllowed IdKind.event cborToEvent path

def loadEvidence (path : String) : Command Evidence :=
  loadMember libraries primitives evidenceWrapperAllowed IdKind.evidence cborToEvidence path

def loadRelationship (path : String) : Command Relationship :=
  loadMember libraries primitives relationshipWrapperAllowed IdKind.rel cborToRelationship path

/-- The envelope is authenticated, and the bytes next to it have to say the same. -/
def attestationOfText (path label text : String) : Except String CreatedAttestation := do
  let json ← parseJson libraries label text
  rejectUnknownWrapperFields json label attestationWrapperAllowed
  let encoded ← wrappedSign1 label json
  let bytes ← wrappedBytes libraries path json
  let sign1 ← labelled (path ++ ": bad sign1_b64") (b64uDecode primitives encoded)
  let issuer ← wrappedIssuer json path
  let (content, id) ← labelled path (verifyAttestation primitives sign1 issuer .strict Limits.default)
  checkWrappedId json path id
  let value ← labelled path (decodeStrict bytes Limits.default)
  if encodeCanonical value ≠ bytes then .error (path ++ ": attestation CBOR is not canonical")
  else
    let described ← labelled path (cborToAttestation Limits.default value)
    if described ≠ content then .error (path ++ ": envelope payload does not match CBOR bytes")
    else .ok { content, canonical := bytes, id, sign1 }

def loadAttestation (path : String) : Command CreatedAttestation := do
  let (text, label) ← readInputText path
  Command.of (attestationOfText libraries primitives path label text)

end

/-! ## Inputs of the creating commands -/

/-- The bytes of a file or of standard input, up to the cap. -/
def readInputBytes (path : String) : Command Bytes := fun world =>
  if path = "-" then
    let buffer := world.stdin.take (maxInputFileBytes + 1)
    let after := { world with stdin := world.stdin.drop (maxInputFileBytes + 1) }
    if maxInputFileBytes < buffer.length then
      .error ("stdin: input too large (>" ++ toString maxInputFileBytes ++ " bytes)") after
    else .ok buffer after
  else
    match world.files path with
    | .error failure => .error ("read " ++ path ++ ": " ++ failure.text) world
    | .ok bytes =>
      if maxInputFileBytes < bytes.length then
        .error (path ++ ": file too large (>" ++ toString maxInputFileBytes ++ " bytes)") world
      else .ok bytes world

abbrev Seed := { seed : Bytes // seed.length = 32 }

def testSeed : Seed := ⟨List.replicate 32 9, List.length_replicate⟩

section
-- `fromSeed` is the signing library's key of a seed
variable (libraries : Libraries) (fromSeed : Seed → Ed25519Key)

def loadKeyMaterial (seed what : String) : Except String Ed25519Key :=
  if seed = "test" then .ok (fromSeed testSeed)
  else
    match Hex.decode seed with
    | none => .error (what ++ " bad hex: " ++ libraries.hexError seed)
    | some bytes =>
      if size : bytes.length = 32 then .ok (fromSeed ⟨bytes, size⟩)
      else .error (what ++ " must be `test` or 64 hex chars (32 bytes)")

def loadKeyOpt (cli : Cli) : Command Ed25519Key :=
  match cli.opt "seed", cli.opt "seed-file" with
  | some _, some _ => throw "--seed and --seed-file are mutually exclusive"
  | none, some path => do
    let seed ← readInputFile path
    Command.of (loadKeyMaterial libraries fromSeed (trim seed) "--seed-file")
  | some seed, none =>
    if cli.has "production" then
      throw ("--seed exposes raw key material in argv (ps/history); in --production use --seed-file <path> " ++
        "(or stdin file) instead")
    else Command.of (loadKeyMaterial libraries fromSeed seed "--seed")
  | none, none => throw "missing required flag --seed (or --seed-file)"

end

/-- A digest of 64 or 96 hexadecimal characters, or that of a file. -/
def digestInput (libraries : Libraries) (primitives : Primitives) (cli : Cli) (command fileFlag hexFlag : String) :
    Command HashRef :=
  match cli.opt fileFlag with
  | some path => do
    let bytes ← (readInputBytes path).under (command ++ " " ++ fileFlag ++ ": ")
    Command.of (displayed (HashRef.new .sha256 (primitives.sha256 bytes).1))
  | none =>
    match cli.req hexFlag with
    | .ok hex => Command.of (hashRefFromHex libraries.hexError hex)
    | .error _ => throw ("missing required flag --" ++ hexFlag ++ " (or --" ++ fileFlag ++ " <path> to hash a file)")

/-! ## Contents -/

def eventContent (cli : Cli) (payloadRef : HashRef) : Except String EventContent := do
  let eventType ← cli.req "type"
  let subject ← cli.req "subject"
  let effectiveAt ← cli.reqU64 "effective-at"
  let metadata ← parseFields (cli.opt "meta")
  .ok { v := 1, eventType, subject, effectiveAt, payloadRef, metadata }

/-- A reference of the wrong type is refused before anything is made. -/
def typedRef (cli : Cli) (flag lead : String) : Except String Unit :=
  match cli.opt flag with
  | none => .ok ()
  | some reference =>
    if startsWith reference lead then .ok ()
    else
      .error ("`--" ++ flag ++ " " ++ reference ++ "` must start with " ++ lead ++
        " (typed reference; wrong-typed ids fail closed)")

/-- A digest that a claim states is hexadecimal, and an evidence is named that it can be held against. -/
def checkDigestField (cli : Cli) (field : String × MetaValue) : Except String Unit :=
  if field.1 ≠ "evidence_digest" then .ok ()
  else
    match field.2 with
    | .text s =>
      let norm := ((strip s "0x").orElse fun _ => strip s "0X").getD s |>.toList.map Char.toLower
      if !((norm.length = 64 || norm.length = 96) && norm.all fun char => Hex.digits.contains char) then
        .error (String.join ["`--claim evidence_digest=", s, "` must be 64 (sha-256) or 96 (sha-384) hex chars ",
          "(optional 0x); mismatched/malformed digests fail EVIDENCE closed at verify"])
      else if (cli.opt "evidence-ref").isNone then
        .error ("`--claim evidence_digest=…` requires `--evidence-ref <evd:v1:…>` to bind it to (digest without a " ++
          "bound evidence fails EVIDENCE closed at verify)")
      else .ok ()
    | _ =>
      .error ("`--claim evidence_digest=…` must be text hex (numbers/bools cannot encode a digest; non-text fails " ++
        "EVIDENCE closed at verify)")

def checkDigestFields (cli : Cli) : List (String × MetaValue) → Except String Unit
  | [] => .ok ()
  | field :: fields => do
    checkDigestField cli field
    checkDigestFields cli fields

def attestationContent (cli : Cli) (key : Ed25519Key) : Except String AttestationContent := do
  typedRef cli "evidence-ref" "evd:v1:"
  let fields ← parseFields (cli.opt "claim")
  checkDigestFields cli fields
  let subject ← cli.req "subject"
  let claimType ← cli.req "claim-type"
  let issuedAt ← cli.reqU64 "issued-at"
  let expiresAt ← cli.optU64 "expires-at"
  .ok
    { v := 1, issuer := key.keyRef, subject, claim := { claimType, fields }, issuedAt, expiresAt
      evidenceRef := cli.opt "evidence-ref" }

/-- A reference of `relate` is an artifact id of the right type. -/
def relateRef (cli : Cli) (flag lead : String) : Except String Unit :=
  match cli.opt flag with
  | none => .ok ()
  | some reference =>
    if Cli.looksLikeArtifactId reference then typedRef cli flag lead
    else
      .error ("`--" ++ flag ++ " " ++ reference ++ "` is not an artifact id (want `evd:…` / `att:…`); use the id " ++
        "from the artifact file")

def relationshipContent (cli : Cli) : Except String Relationship := do
  let relType ← cli.req "type"
  let source ← cli.req "from"
  Cli.relateEndpoint "from" (relType = RelType.equivalent) source
  let target ← cli.req "to"
  Cli.relateEndpoint "to" (relType = RelType.equivalent) target
  relateRef cli "evidence-ref" "evd:v1:"
  relateRef cli "attestation-ref" "att:v1:"
  let content : Relationship :=
    { v := 1, relType, source, target, evidenceRef := cli.opt "evidence-ref"
      attestationRef := cli.opt "attestation-ref" }
  if !cli.has "allow-ungrounded" && RelType.requiresGrounding relType && content.evidenceRef.isNone &&
      content.attestationRef.isNone then
    .error (String.join ["`--type ", relType, "` is trust-relevant and requires grounding (--evidence-ref ",
      "<evd:v1:…> and/or --attestation-ref <att:v1:…>); bare ", relType, " edges always fail at verify with ",
      "RELATIONSHIP_UNGROUNDED — add backing or pass --allow-ungrounded for an intentional negative-test vector"])
  else .ok content

/-- What `revoke`, `withdraw`, `compromise` and `supersede` are asked to sign. -/
def statusRequest (cli : Cli) (kind : String) : Except String StatusRequest :=
  if kind = "revoke" then do
    let target ← cli.req "target"
    .ok (.revoke target (cli.opt "reason"))
  else if kind = "withdraw" then do
    let target ← cli.req "target"
    .ok (.withdraw target (cli.opt "reason"))
  else if kind = "compromise" then do
    let atTime ← cli.reqU64 "compromised-at"
    let target ← cli.req "target"
    .ok (.compromise target atTime (cli.opt "reason"))
  else
    match (cli.opt "old").orElse fun _ => cli.opt "target" with
    | none => .error "supersede: missing required flag --old (alias --target)"
    | some old =>
      match (cli.opt "new").orElse fun _ => cli.opt "successor" with
      | none => .error "supersede: missing required flag --new (alias --successor)"
      | some new => .ok (.supersede old new)

/-! ## The creating commands -/

/-- The fields of a wrapper, all of them texts. -/
abbrev WrapperFields := List (String × String)

def wrapper (fields : WrapperFields) : Json := .object (fields.map fun field => (field.1, .string field.2))

def wrappedMember (kind id : String) (canonical : Bytes) : WrapperFields :=
  [("kind", kind), ("id", id), ("cbor", Hex.encode canonical)]

def wrappedAttestation (created : CreatedAttestation) : WrapperFields :=
  [("kind", "attestation"), ("id", created.id), ("issuer", created.content.issuer),
    ("cbor", Hex.encode created.canonical), ("sign1_b64", b64uNopad created.sign1)]

def wrappedStatus (created : CreatedAttestation) : WrapperFields :=
  [("kind", "status"), ("id", created.id), ("issuer", created.content.issuer),
    ("claim_type", created.content.claim.claimType), ("cbor", Hex.encode created.canonical),
    ("sign1_b64", b64uNopad created.sign1)]

section
variable (libraries : Libraries) (primitives : Primitives) (fromSeed : Seed → Ed25519Key)

/-- Where every creating command ends: what was made goes into the file that `--out` names. -/
def writeArtifact {α : Type} (cli : Cli) (fields : α → WrapperFields) (result : Except String α) : Command α := do
  let created ← Command.of result
  let out ← Command.of (cli.req "out")
  writeJson libraries out (wrapper (fields created))
  pure created

def writeEvent (cli : Cli) : Command CreatedEvent := do
  let payloadRef ← digestInput libraries primitives cli "create-event" "payload-file" "payload-hex"
  let content ← Command.of (eventContent cli payloadRef)
  writeArtifact libraries cli (fun created => wrappedMember "event" created.id created.canonical)
    (labelled "create-event" (createEvent primitives content Limits.default))

def writeAttestation (cli : Cli) : Command CreatedAttestation := do
  let key ← loadKeyOpt libraries fromSeed cli
  let content ← Command.of (attestationContent cli key)
  writeArtifact libraries cli wrappedAttestation (labelled "attest" (attest primitives content key Limits.default))

def writeEvidence (cli : Cli) : Command CreatedEvidence := do
  let digest ← digestInput libraries primitives cli "add-evidence" "digest-file" "digest-hex"
  Command.of (typedRef cli "attestation-ref" "att:v1:")
  let kind ← Command.of (cli.req "kind")
  writeArtifact libraries cli (fun created => wrappedMember "evidence" created.id created.canonical)
    (labelled "add-evidence"
      (makeEvidence primitives kind digest (cli.opt "attestation-ref") (cli.opt "hint") Limits.default))

def writeRelationship (cli : Cli) : Command CreatedRelationship := do
  let content ← Command.of (relationshipContent cli)
  writeArtifact libraries cli (fun created => wrappedMember "relationship" created.id created.canonical)
    (labelled "relate" (makeRelationship primitives content Limits.default))

def writeStatusObject (cli : Cli) (kind : String) : Command CreatedAttestation := do
  let key ← loadKeyOpt libraries fromSeed cli
  let issuedAt ← Command.of (cli.reqU64 "at")
  let request ← Command.of (statusRequest cli kind)
  writeArtifact libraries cli wrappedStatus (labelled kind (request.build primitives key issuedAt Limits.default))

end

end ProofEngine

import ProofEngine.Cli.ArtifactFiles
import ProofEngine.Crypto.RaisedLimits

/-! # What is loaded is borne out

A file that loads holds the canonical bytes of its content, and an id that it claims is the id of these bytes.  What
loads as signed was signed by the key it names.  Nothing else in the file is believed.  In a run of creating commands,
the file of an artifact is loaded as that artifact until another command is given the same name. -/

namespace ProofEngine

open Text

/-! ## What a load finds -/

section
variable {libraries : Libraries} {primitives : Primitives} {path : String} {world after : World}

theorem World.SameFiles.trans {first second third : World} (before : first.SameFiles second)
    (after : second.SameFiles third) : first.SameFiles third :=
  ⟨after.1.trans before.1, after.2.trans before.2⟩

theorem World.afterRead_sameFiles (world : World) (path : String) : world.SameFiles (world.afterRead path) := by
  rw [World.afterRead]
  split
  · exact ⟨rfl, rfl⟩
  · exact .refl _

theorem parseJson_eq_ok {label text : String} {json : Json} (done : parseJson libraries label text = .ok json) :
    libraries.fromStr text = .ok json := by
  rw [parseJson] at done
  split at done
  · rename_i found parsed
    cases done
    exact parsed
  · cases done

theorem loaded_eq_ok {α : Type} (parse : String → String → Except String α) {value : α}
    (done : (readInputText path >>= fun input => Command.of (parse input.2 input.1)) world = .ok value after) :
    (∃ text, inputText path world = .ok text ∧ parse (wrapperLabel path) text = .ok value) ∧ world.SameFiles after := by
  rw [load_eq parse] at done
  obtain ⟨parsed, rfl⟩ := Command.of_eq_ok.mp done
  obtain ⟨text, read, parsed⟩ := bind_eq_ok.mp parsed
  exact ⟨⟨text, read, parsed⟩, world.afterRead_sameFiles path⟩

/-- The wrapper has these bytes in its `cbor` field, and claims no other id than this one. -/
structure Json.States (json : Json) (canonical : Bytes) (id : String) : Prop where
  cbor : ∃ hex, json.get "cbor" = some (.string hex) ∧ Hex.decode hex = some canonical
  id : ∀ claimed, json.get "id" = some claimed → claimed = .null ∨ claimed = .string id

theorem wrappedBytes_eq_ok {json : Json} {canonical : Bytes}
    (done : wrappedBytes libraries path json = .ok canonical) :
    ∃ hex, json.get "cbor" = some (.string hex) ∧ Hex.decode hex = some canonical := by
  rw [wrappedBytes] at done
  split at done
  · cases done
  · rename_i hex found
    obtain ⟨value, got, text⟩ := Option.bind_eq_some_iff.mp found
    rw [asStr_eq_some.mp text] at got
    split at done
    · rename_i bytes decoded
      cases done
      exact ⟨hex, got, decoded⟩
    · cases done

/-- A field that is read as `found` is that text, or as good as absent. -/
theorem optStr_eq_ok {json : Json} {key : String} {found : Option String} (done : optStr json path key = .ok found) :
    ∀ claimed, json.get key = some claimed → claimed = .null ∨ ∃ text, claimed = .string text ∧ found = some text := by
  intro claimed got
  rw [optStr, got] at done
  cases claimed with
  | null => exact .inl rfl
  | string text =>
    cases done
    exact .inr ⟨text, rfl, rfl⟩
  | _ => cases done

theorem verifyId_eq_ok {kind id : String} {canonical : Bytes} (done : verifyId primitives kind id canonical = .ok ()) :
    id = idWith primitives kind canonical := by
  rw [verifyId] at done
  split at done
  · cases done
  · rename_i rest stripped
    obtain ⟨raw, decoded, done⟩ := bind_eq_ok.mp done
    split at done
    · cases done
    · split at done
      · cases done
      · split at done
        · cases done
        · rename_i same
          rw [not_not] at same
          rw [strip_eq_some stripped, ← b64uDecode_eq_ok.mp decoded, same]
          rfl

theorem verifyMember_claimed {α : Type} {kind id : String} {parse : Limits → CborValue → Result α} {canonical : Bytes}
    {limits : Limits} {result : α × String}
    (done : verifyMember primitives kind parse canonical (some id) limits = .ok result) :
    id = idWith primitives kind canonical := by
  simp only [verifyMember, bind_eq_ok] at done
  obtain ⟨_, _, _, _, _, claimed, _⟩ := done
  exact verifyId_eq_ok claimed

theorem memberOfText_eq_ok {α : Type} {allowed : List String} {kind label text : String}
    {parse : Limits → CborValue → Result α} {content : α}
    (done : memberOfText libraries primitives allowed kind parse path label text = .ok content) :
    ∃ json canonical, libraries.fromStr text = .ok json ∧ json.States canonical (idWith primitives kind canonical) ∧
      (decodeStrict canonical Limits.default >>= parse Limits.default) = .ok content := by
  simp only [memberOfText, bind_eq_ok] at done
  obtain ⟨json, parsedJson, _, _, canonical, held, expect, claimed, _, verified, value, decoded, parsed⟩ := done
  rw [labelled_eq_ok] at verified decoded parsed
  refine ⟨json, canonical, parseJson_eq_ok parsedJson, ⟨wrappedBytes_eq_ok held, ?_⟩,
    bind_eq_ok.mpr ⟨value, decoded, parsed⟩⟩
  intro stated got
  rcases optStr_eq_ok claimed stated got with null | ⟨id, rfl, rfl⟩
  · exact .inl null
  · exact .inr (congrArg Json.string (verifyMember_claimed verified))

theorem checkWrappedId_eq_ok {json : Json} {id : String} (done : checkWrappedId json path id = .ok ()) :
    ∀ claimed, json.get "id" = some claimed → claimed = .null ∨ claimed = .string id := by
  intro stated got
  obtain ⟨expect, read, agreed⟩ := bind_eq_ok.mp done
  rcases optStr_eq_ok read stated got with null | ⟨text, rfl, rfl⟩
  · exact .inl null
  · dsimp only at agreed
    split at agreed
    · cases agreed
    · rename_i same
      exact .inr (congrArg Json.string (not_not.mp same))

/-- A loaded attestation is authentic: the envelope of its file verifies against the issuer it names. -/
structure CreatedAttestation.Authentic (primitives : Primitives) (created : CreatedAttestation) : Prop where
  verified : verifyAttestation primitives created.sign1 created.content.issuer .strict Limits.default =
    .ok (created.content, created.id)
  spelled : created.canonical = encodeCanonical (attestationToCbor created.content)

theorem attestationOfText_eq_ok {label text : String} {created : CreatedAttestation}
    (done : attestationOfText libraries primitives path label text = .ok created) :
    (∃ json, libraries.fromStr text = .ok json ∧ json.States created.canonical created.id) ∧
      created.Authentic primitives := by
  simp only [attestationOfText, bind_eq_ok] at done
  obtain ⟨json, parsedJson, _, _, encoded, _, bytes, held, sign1, _, issuer, _, ⟨content, id⟩, verified, _, claimed,
    value, decoded, done⟩ := done
  split at done
  · cases done
  · obtain ⟨described, parsed, done⟩ := bind_eq_ok.mp done
    split at done
    · cases done
    · rename_i same
      rw [not_not] at same
      cases done
      subst same
      rw [labelled_eq_ok] at verified decoded parsed
      obtain ⟨_, _, _, _, issuerSame, _⟩ := verifyAttestation_sound verified
      obtain ⟨_, written, spelled⟩ := attestationCodec_reencodes _ _ _ _ decoded parsed
      cases written
      refine ⟨⟨json, parseJson_eq_ok parsedJson, wrappedBytes_eq_ok held, ?_⟩, by rw [issuerSame, verified],
        spelled.symm⟩
      exact checkWrappedId_eq_ok claimed

theorem CreatedAttestation.Authentic.named {created : CreatedAttestation} (authentic : created.Authentic primitives) :
    created.id = attestationMemberId primitives created.content := by
  obtain ⟨_, _, _, _, _, payload, named, _⟩ := verifyAttestation_sound authentic.verified
  rw [named, payload]
  rfl

theorem strict_admits {scheme : Scheme} {alg : Int64} {kid : Bytes} (admitted : scheme.Admits .strict alg kid) :
    scheme = .ed25519 ∧ alg = coseEd25519 := by
  have modern : AllowedAlgs.strict.allowDeprecated = false := rfl
  have single : AllowedAlgs.strict.isAllowed coseEsp256 = false := by decide
  cases scheme with
  | ed25519 =>
    rcases admitted with ⟨alg, _⟩ | ⟨deprecated, _⟩
    · exact ⟨rfl, alg⟩
    · rw [modern] at deprecated
      cases deprecated
  | p256 =>
    rcases admitted with ⟨rfl, allowed⟩ | ⟨deprecated, _⟩
    · rw [single] at allowed
      cases allowed
    · rw [modern] at deprecated
      cases deprecated

/-- What the strict loader accepts, the pipeline accepts as an entry. -/
theorem CreatedAttestation.Authentic.verifyEntry {created : CreatedAttestation} {ctx : VerifyCtx}
    (authentic : created.Authentic primitives) (limits : ctx.limits = Limits.default)
    (permitted : ctx.allowedAlgs.ed25519 = true) :
    ∃ alg, ProofEngine.verifyEntry primitives ctx ⟨created.content, created.sign1⟩
      (attestationMemberId primitives created.content) = .ok alg := by
  have named := authentic.named
  have verified := authentic.verified
  simp only [verifyAttestation, decodeAndCheckCanonical_eq, bind_eq_ok] at verified
  obtain ⟨parsed, signed, value, decoded, content, contentDone, done⟩ := verified
  obtain ⟨_, scheme, signedBy⟩ := verifySign1WithAad_sound signed
  obtain ⟨rfl, alg⟩ := strict_admits signedBy.admitted
  -- the verifier reads the issuer off the key id, which is where the loader found it
  have bound : selfBoundIssuer parsed = created.content.issuer := by
    rw [selfBoundIssuer, if_pos alg, signedBy.issuerIs]
    rfl
  split at done
  · cases done
  · obtain ⟨rfl, id⟩ := Prod.mk.inj (Except.ok.inj done)
    refine ⟨_, verifyEntry_of_signed ?_ ?_ bound.symm (id.trans named)⟩
    · rw [limits, bound]
      exact verifySign1_widens permitted (Limits.Below.refl _) created.sign1 _ parsed signed
    · rw [limits]
      exact bind_eq_ok.mpr ⟨value, decoded, contentDone⟩

end

/-! ## What a file states -/

/-- The wrapper at `path` holds these bytes and claims no other id than this one. -/
def FileStates (libraries : Libraries) (path : String) (world : World) (canonical : Bytes) (id : String) : Prop :=
  ∃ text json, inputText path world = .ok text ∧ libraries.fromStr text = .ok json ∧ json.States canonical id

/-- The envelope is an Ed25519 signature by the issuer over the canonical bytes of the content. -/
def SignedContent (primitives : Primitives) (content : AttestationContent) (sign1 : Bytes) : Prop :=
  ∃ parsed, parseSign1 sign1 Limits.default = .ok parsed ∧
    SignedBy primitives .strict externalAad content.issuer parsed .ed25519 ∧
    parsed.payload = encodeCanonical (attestationToCbor content)

section
variable {libraries : Libraries} {primitives : Primitives} {path : String} {world after : World}

theorem signedContent_of_verified {content : AttestationContent} {sign1 : Bytes} {issuer id : String}
    (verified : verifyAttestation primitives sign1 issuer .strict Limits.default = .ok (content, id)) :
    SignedContent primitives content sign1 := by
  obtain ⟨parsed, scheme, shape, signed, rfl, payload, _⟩ := verifyAttestation_sound verified
  obtain ⟨rfl, _⟩ := strict_admits signed.admitted
  exact ⟨parsed, shape, signed, payload⟩

theorem loadMember_sound {α : Type} {allowed : List String} {kind : String} {codec : MemberCodec α} {content : α}
    (reencodes : codec.Reencodes)
    (done : loadMember libraries primitives allowed kind codec.fromCbor path world = .ok content after) :
    ∃ encoded, codec.toCbor content = .ok encoded ∧
      FileStates libraries path world (encodeCanonical encoded) (idWith primitives kind (encodeCanonical encoded)) := by
  obtain ⟨⟨text, read, parsed⟩, _⟩ :=
    loaded_eq_ok (memberOfText libraries primitives allowed kind codec.fromCbor path) done
  obtain ⟨json, canonical, parsedJson, states, decoded⟩ := memberOfText_eq_ok parsed
  obtain ⟨value, strict, shaped⟩ := bind_eq_ok.mp decoded
  obtain ⟨encoded, written, rfl⟩ := reencodes _ _ _ _ strict shaped
  exact ⟨encoded, written, text, json, read, parsedJson, states⟩

theorem loadAttestation_sound {created : CreatedAttestation}
    (done : loadAttestation libraries primitives path world = .ok created after) :
    FileStates libraries path world created.canonical created.id ∧ created.Authentic primitives := by
  obtain ⟨⟨text, read, parsed⟩, _⟩ := loaded_eq_ok (attestationOfText libraries primitives path) done
  obtain ⟨⟨json, parsedJson, states⟩, authentic⟩ := attestationOfText_eq_ok parsed
  exact ⟨⟨text, json, read, parsedJson, states⟩, authentic⟩

theorem loadStatus_sound {status : SignedStatus}
    (done : loadStatus libraries primitives path world = .ok status after) :
    SignedContent primitives status.content status.sign1 ∧ (claimKind status.content).isStatus = true := by
  obtain ⟨⟨text, _, parsed⟩, _⟩ := loaded_eq_ok (statusOfText libraries primitives path) done
  simp only [statusOfText, bind_eq_ok] at parsed
  obtain ⟨_, _, _, _, parsed⟩ := parsed
  split at parsed
  · cases parsed
  · split at parsed
    · cases parsed
    · split at parsed
      · cases parsed
      · obtain ⟨content, verified, done⟩ := bind_eq_ok.mp parsed
        cases done
        rw [labelled_eq_ok, verifyStatusObject] at verified
        obtain ⟨⟨found, id⟩, signed, verified⟩ := bind_eq_ok.mp verified
        dsimp only at verified
        split at verified
        · cases verified
        · rename_i status
          cases verified
          exact ⟨signedContent_of_verified signed, by simpa using status⟩

end

/-- Whatever stands in a file: what loads as a member is spelled by the bytes in the file and claimed under the id of
    these bytes; what loads as signed is signed by its issuer's Ed25519 key over its canonical bytes. -/
theorem loads_sound (libraries : Libraries) (primitives : Primitives) (path : String) (world after : World) :
    (∀ content, loadEvent libraries primitives path world = .ok content after → ∃ encoded,
      eventToCbor content = .ok encoded ∧ FileStates libraries path world (encodeCanonical encoded)
        (eventId primitives (encodeCanonical encoded))) ∧
    (∀ content, loadEvidence libraries primitives path world = .ok content after →
      FileStates libraries path world (encodeCanonical (evidenceToCbor content))
        (evidenceMemberId primitives content)) ∧
    (∀ content, loadRelationship libraries primitives path world = .ok content after →
      FileStates libraries path world (encodeCanonical (relationshipToCbor content))
        (relationshipMemberId primitives content)) ∧
    (∀ created, loadAttestation libraries primitives path world = .ok created after →
      FileStates libraries path world created.canonical created.id ∧
        created.canonical = encodeCanonical (attestationToCbor created.content) ∧
        created.id = attestationMemberId primitives created.content ∧
        SignedContent primitives created.content created.sign1) ∧
    ∀ status, loadStatus libraries primitives path world = .ok status after →
      SignedContent primitives status.content status.sign1 ∧ (claimKind status.content).isStatus = true := by
  refine ⟨?_, ?_, ?_, ?_, ?_⟩
  · intro content done
    exact loadMember_sound eventCodec_reencodes done
  · intro content done
    obtain ⟨encoded, written, states⟩ := loadMember_sound evidenceCodec_reencodes done
    cases written
    exact states
  · intro content done
    obtain ⟨encoded, written, states⟩ := loadMember_sound relationshipCodec_reencodes done
    cases written
    exact states
  · intro created done
    obtain ⟨states, authentic⟩ := loadAttestation_sound done
    exact ⟨states, authentic.spelled, authentic.named, signedContent_of_verified authentic.verified⟩
  · intro status done
    exact loadStatus_sound done

theorem loadedAttestation_signed :
    signedAttestation.canonical = encodeCanonical (attestationToCbor signedAttestation.content) ∧
      SignedContent signingPrimitives signedAttestation.content signedAttestation.sign1 := by
  have attested : attest signingPrimitives (settledStatement "acct:2") testSigner Limits.default =
      .ok signedAttestation := by decide +kernel
  have made : attestStep.artifact.Made signingPrimitives fun _ => testSigner :=
    ⟨settledStatement "acct:2", testSeed, attested⟩
  have loaded : loadAttestation artifactLibraries signingPrimitives "attestation.json" attestedWorld =
      .ok signedAttestation attestedWorld :=
    made.loads (fun _ => testSigner_genuine) attestStep_fits attestStep_reads (by decide)
      (World.withOutput_self (by decide))
  obtain ⟨_, spelled, _, signed⟩ :=
    (loads_sound artifactLibraries signingPrimitives "attestation.json" attestedWorld attestedWorld).2.2.2.1 _ loaded
  exact ⟨spelled, signed⟩

/-! ## What is written is loaded -/

section
variable {libraries : Libraries} {primitives : Primitives} {fromSeed : Seed → Ed25519Key}

/-- What loads as signed was read from its envelope, so it fits there. -/
theorem SignedContent.length_le {content : AttestationContent} {sign1 : Bytes}
    (signed : SignedContent primitives content sign1) :
    (encodeCanonical (attestationToCbor content)).length ≤ Limits.default.maxFieldSize.toNat := by
  obtain ⟨parsed, shape, _, payload⟩ := signed
  rw [← payload]
  exact (parseSign1_parts shape).2.2.1

theorem Artifact.fits_of_loads {artifact : Artifact} {path : String} {world : World}
    (made : artifact.Made primitives fromSeed) (loaded : artifact.LoadsFrom libraries primitives path world) :
    artifact.Fits := by
  cases artifact with
  | event created => trivial
  | evidence created => trivial
  | relationship created => trivial
  | attestation created =>
    obtain ⟨_, authentic⟩ := loadAttestation_sound loaded
    rw [Artifact.Fits, authentic.spelled]
    exact (signedContent_of_verified authentic.verified).length_le
  | status created =>
    obtain ⟨_, content, seed, done⟩ := made
    obtain ⟨_, spelled, _⟩ := attest_eq_ok done
    rw [Artifact.Fits, spelled]
    exact (loadStatus_sound loaded).1.length_le

/-- In any run of creating commands, the file of an artifact is loaded as that artifact until another command is
    given the same name, unless more was signed than a field may hold; and files that no command names stay as they
    were. -/
theorem artifacts_load (genuine : ∀ seed, (fromSeed seed).Genuine primitives) {world after : World}
    {steps : List CreationStep} (run : CreationRun libraries primitives fromSeed world steps after) :
    (∀ earlier step later path, steps = earlier ++ step :: later → step.Writes path → path ≠ "-" →
      (∀ other ∈ later, ¬ other.Writes path) → ReadsWrapper libraries step.artifact.wrapped →
        (step.artifact.LoadsFrom libraries primitives path after ↔ step.artifact.Fits)) ∧
    ∀ path, (∀ step ∈ steps, ¬ step.Writes path) → after.files path = world.files path := by
  refine ⟨?_, fun path other => run.frame other⟩
  induction run with
  | nil world =>
    intro earlier step later path split
    cases earlier <;> cases split
  | @step world between next after first steps kept done rest inductionHypothesis =>
    intro earlier step later path split writes file last reads
    cases earlier with
    | cons _ earlier =>
      exact inductionHypothesis earlier step later path (List.cons.inj split).2 writes file last reads
    | nil =>
      obtain ⟨rfl, rfl⟩ := List.cons.inj split
      obtain ⟨made, middle, out, _, named, rfl⟩ := Creation.run_eq_ok done
      obtain rfl : out = path := Except.ok.inj (named.symm.trans writes)
      refine ⟨Artifact.fits_of_loads made, fun fits => ?_⟩
      exact made.loads genuine fits reads file ((rest.frame last).trans (World.withOutput_self file))

end

theorem attestation_loads :
    loadAttestation artifactLibraries signingPrimitives "attestation.json" attestedWorld =
        .ok signedAttestation attestedWorld ∧
      attestedWorld.files "proof.json" = emptyDirectory.files "proof.json" := by
  have writes : attestStep.Writes "attestation.json" := rfl
  have others : ∀ step ∈ [attestStep], ¬ step.Writes "proof.json" := by
    intro step member named
    rw [List.mem_singleton.mp member] at named
    exact absurd (Except.ok.inj (writes.symm.trans named)) (by decide)
  have alone : ∀ step ∈ ([] : List CreationStep), ¬ step.Writes "attestation.json" := by
    intro step member
    cases member
  obtain ⟨loads, frame⟩ := artifacts_load (fun _ => testSigner_genuine) attestStep_run
  have loaded := loads [] attestStep [] "attestation.json" rfl writes (by decide) alone attestStep_reads
  exact ⟨loaded.mpr attestStep_fits, frame "proof.json" others⟩

end ProofEngine

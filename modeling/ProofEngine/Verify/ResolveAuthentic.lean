import ProofEngine.Verify.ResolveSearch

/-! # Authenticity of resolved proofs

The search compares the id it asked for with the id in the report, and that is the id the bytes claim, not the
one recomputed from them.  So bytes with changed content that keep their claim are resolved and followed;
exactly the searches that meet no such bytes are authentic. -/

namespace ProofEngine

open BreadthFirst

section
variable (primitives : Primitives) (orders : Bytes → HashOrder) (store : ArtifactStore) (ctx : VerifyCtx)

/-- The bytes spell a proof, and its id recomputed from its content is `id`. -/
def Recomputes (id : String) (bytes : Bytes) : Prop :=
  ∃ proof, (decodeStrict bytes ctx.limits >>= cborToProof ctx.limits) = .ok proof ∧
    recomputedProofId primitives proof = .ok id

/-- If the bytes spell a proof that claims `id`, the claim is true. -/
def ClaimsTruly (id : String) (bytes : Bytes) : Prop :=
  ∀ proof, (decodeStrict bytes ctx.limits >>= cborToProof ctx.limits) = .ok proof → proof.proofId = id →
    recomputedProofId primitives proof = .ok id

/-- Resolved proofs come from bytes that recompute to their id; other bytes that were fetched are recorded as a
    mismatch and not followed. -/
structure Authentic (search : Resolution) : Prop where
  resolved : ∀ proof ∈ search.resolved, ∃ bytes, store proof.id = .ok (some bytes) ∧
    verifyProof primitives (orders bytes) ctx bytes = .ok proof.report ∧ Recomputes primitives ctx proof.id bytes
  mismatched : ∀ id ∈ search.reads, ∀ bytes, store id = .ok (some bytes) → ¬ Recomputes primitives ctx id bytes →
    (∃ reference ∈ search.unresolved, reference.id = id ∧ ∃ found, reference.reason = .idMismatch found) ∧
      ∀ proof ∈ search.resolved, proof.id ≠ id

end

section
variable {primitives : Primitives} {orders : Bytes → HashOrder} {store : ArtifactStore} {ctx : VerifyCtx}
  {maxTransitiveDepth : UInt64} {root : VerifyReport} {search : Resolution}

theorem report_of_claims {order : HashOrder} {bytes : Bytes} {report : VerifyReport} {proof : Proof}
    (verified : verifyProof primitives order ctx bytes = .ok report)
    (read : (decodeStrict bytes ctx.limits >>= cborToProof ctx.limits) = .ok proof) :
    report.proofId = some proof.proofId := by
  obtain ⟨_, _, _, _, stages⟩ := stagesRan_of_read read verified
  exact stages.proofId_eq

theorem Fetches.recomputes {id : String} {report : VerifyReport}
    (fetched : Fetches primitives orders store ctx id report)
    (truly : ∀ bytes, store id = .ok (some bytes) → ClaimsTruly primitives ctx id bytes) :
    ∃ bytes, store id = .ok (some bytes) ∧ verifyProof primitives (orders bytes) ctx bytes = .ok report ∧
      Recomputes primitives ctx id bytes := by
  obtain ⟨bytes, held, verified, named⟩ := fetched
  obtain ⟨proof, read, claims⟩ := claims_of_report verified named
  exact ⟨bytes, held, verified, proof, read, truly bytes held proof read claims⟩

section
variable (searching : Resolving primitives orders store ctx maxTransitiveDepth root search)
include searching

theorem Resolving.authentic
    (truly : ∀ id ∈ search.reads, ∀ bytes, store id = .ok (some bytes) → ClaimsTruly primitives ctx id bytes) :
    Authentic primitives orders store ctx search := by
  have resolved : ∀ proof ∈ search.resolved, ∃ bytes, store proof.id = .ok (some bytes) ∧
      verifyProof primitives (orders bytes) ctx bytes = .ok proof.report ∧
      Recomputes primitives ctx proof.id bytes := by
    intro proof member
    obtain ⟨fetched, read, _⟩ := searching.fetched proof member
    exact fetched.recomputes (truly proof.id read)
  refine ⟨resolved, ?_⟩
  intro id read bytes held other
  have notResolved : ∀ proof ∈ search.resolved, proof.id ≠ id := by
    rintro proof member rfl
    obtain ⟨bytes', held', _, recomputes⟩ := resolved proof member
    rw [held] at held'
    cases held'
    exact other recomputes
  refine ⟨?_, notResolved⟩
  rcases searching.answered id read with ⟨proof, member, named⟩ | ⟨reference, member, named, failed⟩
  · exact absurd named (notResolved proof member)
  · refine ⟨reference, member, named, ?_⟩
    generalize reference.reason = reason at failed
    cases failed with
    | store storeFailed =>
      rw [held] at storeFailed
      cases storeFailed
    | unavailable absent =>
      rw [held] at absent
      cases absent
    | idMismatch _ _ _ => exact ⟨_, rfl⟩

/-- Bytes with a false claim that were fetched are resolved, and so break authenticity. -/
theorem Resolving.claimsTruly (authentic : Authentic primitives orders store ctx search) {id : String}
    (read : id ∈ search.reads) {bytes : Bytes} (held : store id = .ok (some bytes)) :
    ClaimsTruly primitives ctx id bytes := by
  intro proof spelled claims
  by_contra untrue
  have other : ¬ Recomputes primitives ctx id bytes := by
    rintro ⟨proof', spelled', recomputed⟩
    rw [spelled] at spelled'
    cases spelled'
    exact untrue recomputed
  obtain ⟨_, notResolved⟩ := authentic.mismatched id read bytes held other
  rcases searching.answered id read with ⟨resolved, member, named⟩ | ⟨reference, _, _, failed⟩
  · exact notResolved resolved member named
  · generalize reference.reason = reason at failed
    cases failed with
    | store storeFailed =>
      rw [held] at storeFailed
      cases storeFailed
    | unavailable absent =>
      rw [held] at absent
      cases absent
    | idMismatch held' verified mismatch =>
      -- the report carries the claimed id, so no mismatch was seen
      rw [held] at held'
      cases held'
      exact mismatch (claims ▸ report_of_claims verified spelled)

end

end

/-- A search is authentic exactly when all bytes it fetched that claim the id they were fetched under are
    telling the truth. -/
theorem authentic_iff (primitives : Primitives) (orders : Bytes → HashOrder) (store : ArtifactStore) (ctx : VerifyCtx)
    (maxTransitiveDepth : UInt64) (bytes : Bytes) (root : VerifyReport) (search : Resolution)
    (done : resolveSearch primitives orders store ctx maxTransitiveDepth bytes = .ok (root, search)) :
    Authentic primitives orders store ctx search ↔
      ∀ id ∈ search.reads, ∀ fetched, store id = .ok (some fetched) → ClaimsTruly primitives ctx id fetched := by
  obtain ⟨_, searching, _⟩ := resolveSearch_searching done
  exact ⟨fun authentic id read fetched held => searching.claimsTruly authentic read held, searching.authentic⟩

theorem leafStore_authentic :
    ∃ root search, resolveSearch linkedPrimitives (fun _ => .inserted) (leafStore (bytesOf leafProof)) VerifyCtx.default
        1 (bytesOf linkingProof) = .ok (root, search) ∧ search.reads = [leafId] ∧
      Authentic linkedPrimitives (fun _ => .inserted) (leafStore (bytesOf leafProof)) VerifyCtx.default search := by
  have asked : ((resolveSearch linkedPrimitives (fun _ => .inserted) (leafStore (bytesOf leafProof)) VerifyCtx.default
      1 (bytesOf linkingProof)).map fun found => found.2.reads) = .ok [leafId] := by decide +kernel
  obtain ⟨⟨root, search⟩, done, reads⟩ := map_eq_ok.mp asked
  refine ⟨root, search, done, reads, (authentic_iff _ _ _ _ _ _ root search done).mpr ?_⟩
  have spelled : (decodeStrict (bytesOf leafProof) VerifyCtx.default.limits >>=
      cborToProof VerifyCtx.default.limits) = .ok leafProof := by decide +kernel
  have recomputed : recomputedProofId linkedPrimitives leafProof = .ok leafId := by decide +kernel
  rw [reads]
  intro id member fetched held proof read _
  rw [List.mem_singleton.mp member] at held ⊢
  cases held
  rw [spelled] at read
  cases read
  exact recomputed

/-- Changed content under a kept id is resolved as the proof that was asked for. -/
theorem tamperedProof_resolved :
    recomputedProofId linkedPrimitives tamperedProof ≠ .ok leafId ∧
    ∃ root search, resolveSearch linkedPrimitives (fun _ => .inserted) (leafStore (bytesOf tamperedProof))
        VerifyCtx.default 1 (bytesOf linkingProof) = .ok (root, search) ∧
      search.resolved.map ResolvedProof.id = [leafId] ∧ search.unresolved = [] ∧
      ¬ Authentic linkedPrimitives (fun _ => .inserted) (leafStore (bytesOf tamperedProof)) VerifyCtx.default
        search := by
  have found : ((resolveSearch linkedPrimitives (fun _ => .inserted) (leafStore (bytesOf tamperedProof))
      VerifyCtx.default 1 (bytesOf linkingProof)).map fun found =>
        (found.2.resolved.map ResolvedProof.id, found.2.unresolved)) = .ok ([leafId], []) := by decide +kernel
  have spelled : (decodeStrict (bytesOf tamperedProof) VerifyCtx.default.limits >>=
      cborToProof VerifyCtx.default.limits) = .ok tamperedProof := by decide +kernel
  have recomputed : recomputedProofId linkedPrimitives tamperedProof ≠ .ok leafId := by decide +kernel
  obtain ⟨⟨root, search⟩, done, result⟩ := map_eq_ok.mp found
  obtain ⟨resolved, unresolved⟩ := Prod.mk.inj result
  refine ⟨recomputed, root, search, done, resolved, unresolved, ?_⟩
  intro authentic
  obtain ⟨proof, member, named⟩ := List.mem_map.mp (resolved ▸ List.mem_cons_self : leafId ∈ _)
  obtain ⟨bytes, held, _, spelledProof, read, sameId⟩ := authentic.resolved proof member
  rw [named] at held sameId
  cases held
  rw [spelled] at read
  cases read
  exact recomputed sameId

end ProofEngine

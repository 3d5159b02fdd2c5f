import ProofEngine.Api.ServerExact

/-! # Runs of the server

The counters after any number of connections are those of the answers given, and a request for the counters is
answered with those of the answers before it. -/

namespace ProofEngine.Api

open Text

/-! ## What is counted -/

def Metrics.count (metrics : Metrics) : Served → Metrics
  | .dropped => metrics
  | .answered status bytesIn body => metrics.record status bytesIn (len body)

/-- The counters of a server that gave these answers since it started. -/
def tally (served : List Served) : Metrics := served.foldl Metrics.count .zero

def Served.isAnswered : Served → Bool
  | .dropped => false
  | .answered _ _ _ => true

def Served.isOk : Served → Bool
  | .dropped => false
  | .answered status _ _ => 200 ≤ status && status < 300

def Served.isRefusal (served : Served) : Bool := served.isAnswered && !served.isOk

def Served.bytesIn : Served → Nat
  | .dropped => 0
  | .answered _ bytesIn _ => bytesIn

def Served.bytesOut : Served → Nat
  | .dropped => 0
  | .answered _ _ body => len body

/-- Each counter is a count of the answers, or the sum of their sizes, in 64 bits. -/
structure Accounts (served : List Served) (metrics : Metrics) : Prop where
  requests : metrics.requests = UInt64.ofNat (served.countP Served.isAnswered)
  ok2xx : metrics.ok2xx = UInt64.ofNat (served.countP Served.isOk)
  err4xx : metrics.err4xx = UInt64.ofNat (served.countP Served.isRefusal)
  bytesIn : metrics.bytesIn = UInt64.ofNat (served.map Served.bytesIn).sum
  bytesOut : metrics.bytesOut = UInt64.ofNat (served.map Served.bytesOut).sum
  balanced : metrics.requests = metrics.ok2xx + metrics.err4xx

theorem countP_isAnswered (served : List Served) :
    served.countP Served.isAnswered = served.countP Served.isOk + served.countP Served.isRefusal := by
  induction served with
  | nil => rfl
  | cons first served inductionHypothesis =>
    simp only [List.countP_cons, inductionHypothesis]
    cases first with
    | dropped =>
      simp [Served.isAnswered, Served.isOk, Served.isRefusal]
    | answered status bytesIn body =>
      cases ok : Served.isOk (.answered status bytesIn body) with
      | true => simp [Served.isAnswered, Served.isRefusal, ok]; omega
      | false => simp [Served.isAnswered, Served.isRefusal, ok]; omega

/-- What one connection adds to the counters. -/
theorem Metrics.count_eq (metrics : Metrics) (served : Served) :
    metrics.count served =
      { requests := metrics.requests + UInt64.ofNat served.isAnswered.toNat
        ok2xx := metrics.ok2xx + UInt64.ofNat served.isOk.toNat
        err4xx := metrics.err4xx + UInt64.ofNat served.isRefusal.toNat
        bytesIn := metrics.bytesIn + UInt64.ofNat served.bytesIn
        bytesOut := metrics.bytesOut + UInt64.ofNat served.bytesOut } := by
  cases served with
  | dropped => simp [Metrics.count, Served.isAnswered, Served.isOk, Served.isRefusal, Served.bytesIn, Served.bytesOut]
  | answered status bytesIn body =>
    by_cases ok : 200 ≤ status ∧ status < 300
    · simp [Metrics.count, Metrics.record, Served.isAnswered, Served.isOk, Served.isRefusal, Served.bytesIn,
        Served.bytesOut, ok]
    · have failing : (decide (200 ≤ status) && decide (status < 300)) = false := by simpa using ok
      simp [Metrics.count, Metrics.record, Served.isAnswered, Served.isOk, Served.isRefusal, Served.bytesIn,
        Served.bytesOut, ok, failing]

theorem foldl_count (served : List Served) (metrics : Metrics) :
    served.foldl Metrics.count metrics =
      { requests := metrics.requests + UInt64.ofNat (served.countP Served.isAnswered)
        ok2xx := metrics.ok2xx + UInt64.ofNat (served.countP Served.isOk)
        err4xx := metrics.err4xx + UInt64.ofNat (served.countP Served.isRefusal)
        bytesIn := metrics.bytesIn + UInt64.ofNat (served.map Served.bytesIn).sum
        bytesOut := metrics.bytesOut + UInt64.ofNat (served.map Served.bytesOut).sum } := by
  have counted : ∀ (test : Served → Bool) (first : Served) (served : List Served),
      (first :: served).countP test = (test first).toNat + served.countP test := by
    intro test first served
    rw [List.countP_cons, Nat.add_comm]
    cases test first <;> rfl
  induction served generalizing metrics with
  | nil => simp
  | cons first served inductionHypothesis =>
    simp only [List.foldl_cons, inductionHypothesis, Metrics.count_eq, counted, List.map_cons, List.sum_cons,
      UInt64.ofNat_add, UInt64.add_assoc]

theorem tally_accounts (served : List Served) : Accounts served (tally served) := by
  have whole := foldl_count served .zero
  rw [← tally] at whole
  refine { requests := ?_, ok2xx := ?_, err4xx := ?_, bytesIn := ?_, bytesOut := ?_, balanced := ?_ }
  · simp [whole, Metrics.zero]
  · simp [whole, Metrics.zero]
  · simp [whole, Metrics.zero]
  · simp [whole, Metrics.zero]
  · simp [whole, Metrics.zero]
  · simp [whole, Metrics.zero, countP_isAnswered, UInt64.ofNat_add]

/-! ## One connection -/

/-- The statuses of the server; a connection without an answer has none of them. -/
def statuses : List Nat := [200, 400, 404, 405, 413, 422]

section
variable {primitives : Primitives} {order : HashOrder} {libraries : Libraries} {metrics : Metrics}

/-- An answer with one of the statuses, which is counted, or no answer. -/
def Handled (metrics : Metrics) (outcome : Outcome (Served × Metrics)) : Prop :=
  ∃ served, outcome = .ok (served, metrics.count served) ∧ (served = .dropped ∨ served.status ∈ statuses)

theorem respondWith_handled {status : Nat} (known : status ∈ statuses) (body : String) :
    Handled metrics (.ok (respondWith metrics status body)) := ⟨_, rfl, .inr known⟩

theorem dropped_handled : Handled metrics (.ok (.dropped, metrics)) := ⟨_, rfl, .inl rfl⟩

theorem dispatch_handled (head : RequestHead) (body : Bytes) :
    Handled metrics (dispatch primitives order libraries metrics head body) := by
  unfold dispatch
  by_cases counters : head.method = "GET" ∧ head.path = "/v1/metrics"
  · rw [if_pos counters]
    exact respondWith_handled (by decide) _
  · rw [if_neg counters]
    obtain ⟨response, done, status⟩ := route_answers primitives order libraries head.method head.path body
    rw [done, ok_bind]
    have wider : ∀ status ∈ [200, 400, 404, 405, 422], status ∈ statuses := by decide
    exact ⟨.answered response.status body.length (libraries.toText response.body), rfl, .inr (wider _ status)⟩

theorem handleBody_handled (head : RequestHead) (length : Nat) (ending : Ending) (rest : List Bytes) (body : Bytes) :
    Handled metrics (handleBody primitives order libraries metrics head length ending rest body) := by
  unfold handleBody
  cases Pieces.readCount length (maxBodyBytes + 16384) rest body with
  | filled body => exact dispatch_handled head _
  | ended body =>
    cases ending with
    | closed => exact dispatch_handled head _
    | failed => exact dropped_handled
  | tooLong => exact respondWith_handled (by decide) _

theorem handleInner_handled (primitives : Primitives) (order : HashOrder) (libraries : Libraries) (metrics : Metrics)
    (stream : Stream) :
    Handled metrics (handleInner primitives order libraries metrics stream) := by
  unfold handleInner
  cases Pieces.readUntil headerMark maxHeadBytes stream.pieces [] with
  | ended => exact dropped_handled
  | tooLong => exact respondWith_handled (by decide) _
  | found raw headerEnd rest =>
    dsimp only
    generalize requestHead (fromUtf8Lossy (raw.take headerEnd)) = head
    by_cases strict : (!head.strict) = true
    · rw [if_pos strict]
      exact respondWith_handled (by decide) _
    · rw [if_neg strict]
      by_cases posted : head.method = "POST"
      · rw [if_pos posted]
        cases head.contentLength with
        | none => exact respondWith_handled (by decide) _
        | some length =>
          dsimp only
          by_cases modest : length.toNat ≤ maxBodyBytes
          · rw [if_pos modest]
            exact handleBody_handled head _ _ _ _
          · rw [if_neg modest]
            exact respondWith_handled (by decide) _
      · rw [if_neg posted]
        exact dispatch_handled head _

/-! ## Runs -/

/-- The streams that were accepted. -/
def accepted (incoming : List (Except String Stream)) : List Stream := incoming.filterMap Except.toOption

/-- A run serves every accepted stream, in order, on the counters of those before it. -/
theorem serve_run (primitives : Primitives) (order : HashOrder) (libraries : Libraries) (metrics : Metrics)
    (incoming : List (Except String Stream)) : ∃ served,
    serve primitives order libraries metrics incoming = .ok (served, served.foldl Metrics.count metrics) ∧
      served.length = (accepted incoming).length ∧
      (∀ answer ∈ served, answer = .dropped ∨ answer.status ∈ statuses) ∧
      ∀ before stream later, accepted incoming = before ++ stream :: later →
        ∃ answer rest, served = served.take before.length ++ answer :: rest ∧
          handleInner primitives order libraries ((served.take before.length).foldl Metrics.count metrics) stream =
            .ok (answer, ((served.take before.length).foldl Metrics.count metrics).count answer) := by
  induction incoming generalizing metrics with
  | nil => exact ⟨[], rfl, rfl, by simp, fun before stream later cut => by cases before <;> cases cut⟩
  | cons first incoming inductionHypothesis =>
    cases first with
    | error message => exact inductionHypothesis metrics
    | ok stream =>
      obtain ⟨answer, handled, known⟩ := handleInner_handled primitives order libraries metrics stream
      obtain ⟨served, done, sizes, others, each⟩ := inductionHypothesis (metrics.count answer)
      refine ⟨answer :: served, ?_, ?_, ?_, ?_⟩
      · rw [serve, handled, ok_bind]
        dsimp only
        rw [done, ok_bind]
        rfl
      · rw [List.length_cons, sizes]
        rfl
      · intro other member
        rcases List.mem_cons.mp member with rfl | member
        · exact known
        · exact others other member
      · intro before found later cut
        have split : stream :: accepted incoming = before ++ found :: later := cut
        cases before with
        | nil =>
          obtain ⟨rfl, _⟩ := List.cons.inj split
          exact ⟨answer, served, rfl, handled⟩
        | cons head before =>
          obtain ⟨inner, rest, splits, run⟩ := each before found later (List.cons.inj split).2
          refine ⟨inner, rest, ?_, ?_⟩
          · rw [List.length_cons, List.take_succ_cons, List.cons_append, ← splits]
          · rw [List.length_cons, List.take_succ_cons, List.foldl_cons]
            exact run

end

end ProofEngine.Api

import ProofEngine.Api.Server

/-! # What a connection is answered with

The answer is a function of the bytes of the stream and of how it ends: the pieces they come in do not show, unless
the head is so long that the last piece of it can reach over the bound. -/

namespace ProofEngine.Api

open Text Pieces

section
variable {primitives : Primitives} {order : HashOrder} {libraries : Libraries} {metrics : Metrics}

theorem headerMark_ne_nil : headerMark ≠ [] := by decide +kernel

theorem route_of_ne_post {method : String} (other : method ≠ "POST") (path : String) (body : Bytes) :
    route primitives order libraries method path body = route primitives order libraries method path [] := by
  unfold route
  rw [if_pos other, if_pos other]

theorem answer_call_of_ne_post {method : String} (other : method ≠ "POST") (path : String) (body : Bytes) :
    answer primitives order libraries metrics (.call method path body) =
      answer primitives order libraries metrics (.call method path []) := by
  simp only [answer, route_of_ne_post other path body]

/-- The reply, without what is counted. -/
def replied (outcome : Outcome (Served × Metrics)) : Outcome (Option (Nat × String)) :=
  outcome.map fun result => result.1.reply

theorem dispatch_replied (head : RequestHead) (body : Bytes) :
    replied (dispatch primitives order libraries metrics head body) =
      answer primitives order libraries metrics (.call head.method head.path body) := by
  unfold dispatch answer
  by_cases counters : head.method = "GET" ∧ head.path = "/v1/metrics"
  · simp only [if_pos counters]
    rfl
  · simp only [if_neg counters]
    cases route primitives order libraries head.method head.path body with
    | error failure => rfl
    | ok response => rfl

/-- The rest of a body is read to the length that was announced, or to the end of the stream. -/
theorem handleBody_replied {size length : Nat} (small : size ≤ readSize) (modest : length ≤ maxBodyBytes)
    {rest : List Bytes} (bounded : ∀ piece ∈ rest, piece.length ≤ size) (head : RequestHead) (ending : Ending)
    (body : Bytes) :
    replied (handleBody primitives order libraries metrics head length ending rest body) =
      answer primitives order libraries metrics
        (if (body ++ rest.flatten).length < length ∧ ending = .failed then .incomplete
          else .call head.method head.path ((body ++ rest.flatten).take length)) := by
  have room : length + size ≤ maxBodyBytes + 16384 + 1 := by
    rw [readSize] at small
    omega
  obtain ⟨more, done, full, inside⟩ | ⟨done, short⟩ := readCount_eq room bounded body
  · obtain ⟨unread, whole⟩ := inside
    have enough : ¬ ((body ++ rest.flatten).length < length ∧ ending = .failed) := by
      rw [← whole, ← List.append_assoc, List.length_append]
      omega
    rw [handleBody, done, if_neg enough, ← whole, ← List.append_assoc, List.take_append_of_le_length full]
    exact dispatch_replied head _
  · rw [handleBody, done]
    cases ending with
    | closed =>
      have received : ¬ ((body ++ rest.flatten).length < length ∧ Ending.closed = .failed) := fun both => by cases both.2
      rw [if_neg received]
      exact dispatch_replied head _
    | failed =>
      rw [if_pos ⟨short, rfl⟩]
      rfl

theorem requestOf_of_found {bytes : Bytes} {ending : Ending} {headerEnd : Nat}
    (found : findHeaderEnd bytes = some headerEnd) (within : headerEnd ≤ maxHeadBytes) :
    requestOf bytes ending =
      requestOfHead (requestHead (fromUtf8Lossy (bytes.take headerEnd))) (bytes.drop headerEnd) ending := by
  have fits : ¬ maxHeadBytes < headerEnd := by omega
  simp only [requestOf, found, if_neg fits]

/-- A head that was read is answered as the head of the whole stream. -/
theorem handleInner_found {stream : Stream} {size : Nat} (small : size ≤ readSize) {raw : Bytes} {headerEnd : Nat} {rest : List Bytes}
    (read : readUntil headerMark maxHeadBytes stream.pieces [] = .found raw headerEnd rest)
    (remaining : ∀ piece ∈ rest, piece.length ≤ size) (whole : raw ++ rest.flatten = stream.bytes)
    (ended : headerEnd ≤ raw.length) :
    replied (handleInner primitives order libraries metrics stream) =
      answer primitives order libraries metrics (requestOfHead
        (requestHead (fromUtf8Lossy (stream.bytes.take headerEnd))) (stream.bytes.drop headerEnd) stream.ending) := by
  rw [← whole, List.take_append_of_le_length ended, List.drop_append_of_le_length ended, handleInner, read]
  dsimp only
  generalize requestHead (fromUtf8Lossy (raw.take headerEnd)) = head
  unfold requestOfHead
  by_cases strict : (!head.strict) = true
  · rw [if_pos strict, if_pos strict]
    rfl
  · rw [if_neg strict, if_neg strict]
    by_cases posted : head.method = "POST"
    · rw [if_pos posted, if_pos posted]
      cases announced : head.contentLength with
      | none => rfl
      | some length =>
        dsimp only
        by_cases modest : length.toNat ≤ maxBodyBytes
        · rw [if_pos modest, if_pos modest]
          exact handleBody_replied small modest remaining head stream.ending _
        · rw [if_neg modest, if_neg modest]
          rfl
    · rw [if_neg posted, if_neg posted, dispatch_replied, answer_call_of_ne_post posted]

/-- With no piece longer than `size`, only a head that ends within `size` of the bound can be taken for too long. -/
theorem handleInner_replied (primitives : Primitives) (order : HashOrder) (libraries : Libraries) (metrics : Metrics)
    {stream : Stream} {size : Nat} (small : size ≤ readSize)
    (bounded : ∀ piece ∈ stream.pieces, piece.length ≤ size) :
    replied (handleInner primitives order libraries metrics stream) =
        answer primitives order libraries metrics (requestOf stream.bytes stream.ending) ∨
      (∃ headerEnd, findHeaderEnd stream.bytes = some headerEnd ∧ maxHeadBytes + 2 ≤ headerEnd + size ∧
          headerEnd ≤ maxHeadBytes ∧ maxHeadBytes < stream.bytes.length) ∧
        replied (handleInner primitives order libraries metrics stream) =
          .ok (some (413, errText libraries "headers too large")) := by
  have absent : Pieces.findEnd headerMark [] = none := rfl
  have described := readUntil_describes headerMark_ne_nil bounded absent (Nat.zero_le maxHeadBytes)
  rw [List.nil_append] at described
  cases search : readUntil headerMark maxHeadBytes stream.pieces [] with
  | ended =>
    rw [search] at described
    obtain ⟨absent, short⟩ := described
    have fits : ¬ maxHeadBytes < stream.bytes.length := by
      rw [Stream.bytes]
      omega
    have endless : findHeaderEnd stream.bytes = none := absent
    left
    simp only [handleInner, search, requestOf, endless, if_neg fits]
    rfl
  | tooLong =>
    rw [search] at described
    obtain ⟨long, late⟩ := described
    have refused : replied (handleInner primitives order libraries metrics stream) =
        .ok (some (413, errText libraries "headers too large")) := by
      simp only [handleInner, search]
      rfl
    cases found : findHeaderEnd stream.bytes with
    | none =>
      left
      have exceeded : maxHeadBytes < stream.bytes.length := long
      simp only [refused, requestOf, found, if_pos exceeded]
      rfl
    | some headerEnd =>
      have near := late headerEnd found
      by_cases beyond : maxHeadBytes < headerEnd
      · left
        simp only [refused, requestOf, found, if_pos beyond]
        rfl
      · exact .inr ⟨⟨headerEnd, rfl, near, Nat.le_of_not_lt beyond, long⟩, refused⟩
  | found raw headerEnd rest =>
    rw [search] at described
    obtain ⟨whole, found, ended, short⟩ := described
    have remaining : ∀ piece ∈ rest, piece.length ≤ size :=
      fun piece member => bounded piece ((readUntil_rest search).subset member)
    have here : findHeaderEnd stream.bytes = some headerEnd := found
    left
    rw [handleInner_found small search remaining whole ended, requestOf_of_found here (ended.trans short)]

theorem pieces_bounded (stream : Stream) : ∀ piece ∈ stream.pieces, piece.length ≤ readSize := by
  intro piece member
  obtain ⟨chunk, _, rfl⟩ := List.mem_map.mp member
  exact chunk.bounded

/-! ## Streams of given bytes -/

def single (byte : UInt8) : Chunk where
  bytes := [byte]
  filled := List.cons_ne_nil _ _
  bounded := (by decide : 1 ≤ readSize)

/-- Every byte on its own. -/
def singles (bytes : Bytes) : List Chunk := bytes.map single

theorem singles_pieces (bytes : Bytes) : (singles bytes).map Chunk.bytes = bytes.map fun byte => [byte] := by
  rw [singles, List.map_map]
  rfl

theorem singles_flatten (bytes : Bytes) : ((singles bytes).map Chunk.bytes).flatten = bytes := by
  rw [singles_pieces]
  induction bytes with
  | nil => rfl
  | cons byte bytes inductionHypothesis => rw [List.map_cons, List.flatten_cons, inductionHypothesis]; rfl

/-- The head ends so close to the bound that a piece can reach from before its end to over the bound. -/
def Straddles (bytes : Bytes) : Prop :=
  ∃ headerEnd, findHeaderEnd bytes = some headerEnd ∧ maxHeadBytes + 2 ≤ headerEnd + readSize ∧
    headerEnd ≤ maxHeadBytes ∧ maxHeadBytes < bytes.length

/-- All but the last byte of the head by themselves, and then as much as a read brings. -/
theorem straddling_refused {bytes : Bytes} (straddles : Straddles bytes) (ending : Ending) : ∃ stream : Stream,
    stream.bytes = bytes ∧ stream.ending = ending ∧
      replied (handleInner primitives order libraries metrics stream) =
        .ok (some (413, errText libraries "headers too large")) := by
  obtain ⟨headerEnd, found, near, within, long⟩ := straddles
  have ended : headerMark.length ≤ headerEnd ∧ headerEnd ≤ bytes.length := findEnd_le found
  have markSize : headerMark.length = 4 := by decide +kernel
  have filled : (bytes.drop (headerEnd - 1)).take readSize ≠ [] := by
    intro empty
    have size := congrArg List.length empty
    rw [List.length_take, List.length_drop, List.length_nil, readSize] at size
    omega
  let last : Chunk := { bytes := (bytes.drop (headerEnd - 1)).take readSize, filled, bounded := List.length_take_le _ _ }
  let stream : Stream :=
    { chunks := singles (bytes.take (headerEnd - 1)) ++ last :: singles ((bytes.drop (headerEnd - 1)).drop readSize)
      ending }
  have pieces : stream.pieces = (singles (bytes.take (headerEnd - 1))).map Chunk.bytes ++
      ((bytes.drop (headerEnd - 1)).take readSize :: (singles ((bytes.drop (headerEnd - 1)).drop readSize)).map
        Chunk.bytes) := by
    rw [Stream.pieces, List.map_append, List.map_cons]
  refine ⟨stream, ?_, rfl, ?_⟩
  · rw [Stream.bytes, pieces, List.flatten_append, List.flatten_cons, singles_flatten, singles_flatten,
      List.take_append_drop, List.take_append_drop]
  · -- before the end of the head there is no mark
    have absent : findEnd headerMark ([] ++ ((singles (bytes.take (headerEnd - 1))).map Chunk.bytes).flatten) = none := by
      rw [List.nil_append, singles_flatten]
      cases early : findEnd headerMark (bytes.take (headerEnd - 1)) with
      | none => rfl
      | some stop =>
        have same := findEnd_append early (bytes.drop (headerEnd - 1))
        rw [List.take_append_drop] at same
        have bound := (findEnd_le early).2
        rw [List.length_take] at bound
        have unique : some stop = some headerEnd := same.symm.trans found
        cases unique
        omega
    have short : ([] ++ ((singles (bytes.take (headerEnd - 1))).map Chunk.bytes).flatten).length ≤ maxHeadBytes := by
      rw [List.nil_append, singles_flatten, List.length_take]
      omega
    have exceeded : maxHeadBytes <
        (bytes.take (headerEnd - 1) ++ (bytes.drop (headerEnd - 1)).take readSize).length := by
      rw [List.length_append, List.length_take, List.length_take, List.length_drop]
      rw [readSize] at near ⊢
      omega
    have search : readUntil headerMark maxHeadBytes stream.pieces [] = .tooLong := by
      rw [pieces, readUntil_append absent short, readUntil, List.nil_append, singles_flatten, if_pos exceeded]
    simp only [handleInner, search]
    rfl

end

end ProofEngine.Api

import ProofEngine.Api.ServerExact

/-! # Requests as clients write them

A request line, header lines, an empty line and a body, in seven-bit text.  What a client means is what the server
reads, whatever the pieces it arrives in. -/

namespace ProofEngine.Api

open Text Pieces

/-! ## The text -/

/-- A word of a request line. -/
def IsWord (word : String) : Prop :=
  word.toList ≠ [] ∧ ∀ char ∈ word.toList, char.toNat < 128 ∧ isWhitespace char = false

/-- A header line. -/
def IsHeader (line : String) : Prop :=
  line.toList ≠ [] ∧ ∀ char ∈ line.toList, char.toNat < 128 ∧ char ≠ '\r' ∧ char ≠ '\n'

structure Message where
  method : String
  path : String
  version : String
  headers : List String
  words : IsWord method ∧ IsWord path ∧ IsWord version
  lines : ∀ line ∈ headers, IsHeader line

def endOfLine : List Char := ['\r', '\n']

def Message.requestLine (message : Message) : List Char :=
  message.method.toList ++ ' ' :: (message.path.toList ++ ' ' :: message.version.toList)

def Message.textLines (message : Message) : List (List Char) :=
  message.requestLine :: message.headers.map String.toList

/-- Every line with its end, and the empty line. -/
def Message.chars (message : Message) : List Char :=
  (message.textLines.flatMap fun line => line ++ endOfLine) ++ endOfLine

def Message.bytes (message : Message) : Bytes := message.chars.map fun char => UInt8.ofNat char.toNat

/-- What the server is meant to read. -/
def Message.head (message : Message) : RequestHead where
  method := message.method
  path := message.path
  version := message.version
  contentLength := message.headers.foldl headerStep none

/-! ## Reading it -/

/-- A line that stays one. -/
def IsLine (line : List Char) : Prop := line ≠ [] ∧ ∀ char ∈ line, char.toNat < 128 ∧ char ≠ '\r' ∧ char ≠ '\n'

theorem isWord_of_all {word : String} (filled : word.toList.isEmpty = false)
    (solid : (word.toList.all fun char => char.toNat < 128 && !isWhitespace char) = true) : IsWord word := by
  refine ⟨fun empty => by simp [empty] at filled, fun char member => ?_⟩
  have plain := List.all_eq_true.mp solid char member
  rwa [Bool.and_eq_true, decide_eq_true_eq, Bool.not_eq_true'] at plain

theorem isHeader_of_all {line : String} (filled : line.toList.isEmpty = false)
    (level : (line.toList.all fun char => char.toNat < 128 && char != '\r' && char != '\n') = true) :
    IsHeader line := by
  refine ⟨fun empty => by simp [empty] at filled, fun char member => ?_⟩
  have plain := List.all_eq_true.mp level char member
  rwa [Bool.and_eq_true, Bool.and_eq_true, decide_eq_true_eq, bne_iff_ne, bne_iff_ne, and_assoc] at plain

theorem IsWord.plain {word : String} (isWord : IsWord word) :
    ∀ char ∈ word.toList, char.toNat < 128 ∧ char ≠ '\r' ∧ char ≠ '\n' := by
  intro char member
  obtain ⟨ascii, solid⟩ := isWord.2 char member
  refine ⟨ascii, ?_, ?_⟩
  · rintro rfl
    cases solid
  · rintro rfl
    cases solid

theorem Message.isLine (message : Message) : ∀ line ∈ message.textLines, IsLine line := by
  obtain ⟨method, path, version⟩ := message.words
  intro line member
  rcases List.mem_cons.mp member with rfl | member
  · refine ⟨?_, fun char member => ?_⟩
    · intro empty
      exact method.1 (List.append_eq_nil_iff.mp empty).1
    · have space : (' ').toNat < 128 ∧ ' ' ≠ '\r' ∧ ' ' ≠ '\n' := by decide
      simp only [Message.requestLine, List.mem_append, List.mem_cons] at member
      rcases member with member | rfl | member | rfl | member
      · exact method.plain char member
      · exact space
      · exact path.plain char member
      · exact space
      · exact version.plain char member
  · obtain ⟨text, header, rfl⟩ := List.mem_map.mp member
    exact message.lines text header

theorem Message.ascii (message : Message) : ∀ char ∈ message.chars, char.toNat < 128 := by
  have ends : ∀ char ∈ endOfLine, char.toNat < 128 := by simp [endOfLine]
  intro char member
  rcases List.mem_append.mp member with member | member
  · obtain ⟨line, isLine, member⟩ := List.mem_flatMap.mp member
    rcases List.mem_append.mp member with member | member
    · exact ((message.isLine line isLine).2 char member).1
    · exact ends char member
  · exact ends char member

theorem fromUtf8Lossy_bytes (message : Message) : fromUtf8Lossy message.bytes = String.ofList message.chars := by
  rw [fromUtf8Lossy, Message.bytes, List.length_map, lossyChars_ascii message.ascii]

/-- The head of a text made of lines ends after the empty line. -/
theorem findEnd_lines {textLines : List (List Char)} (each : ∀ line ∈ textLines, IsLine line) (filled : textLines ≠ [])
    (body : Bytes) :
    findHeaderEnd ((((textLines.flatMap fun line => line ++ endOfLine) ++ endOfLine).map
        fun char => UInt8.ofNat char.toNat) ++ body) =
      some ((textLines.flatMap fun line => line ++ endOfLine) ++ endOfLine).length := by
  have mark : headerMark = [13, 10, 13, 10] := by decide +kernel
  -- in a line there is no carriage return
  have solid : ∀ line, IsLine line → (13 : UInt8) ∉ line.map fun char => UInt8.ofNat char.toNat := by
    intro line isLine member
    obtain ⟨char, member, same⟩ := List.mem_map.mp member
    obtain ⟨ascii, notReturn, _⟩ := isLine.2 char member
    have value := congrArg UInt8.toNat same
    rw [UInt8.toNat_ofNat', Nat.mod_eq_of_lt (by omega)] at value
    exact notReturn (Char.ext (UInt32.toNat_inj.mp value))
  induction textLines with
  | nil => exact absurd rfl filled
  | cons line textLines inductionHypothesis =>
    have lineSolid := solid line (each line List.mem_cons_self)
    cases textLines with
    | nil =>
      have whole : ((([line].flatMap fun line => line ++ endOfLine) ++ endOfLine).map
          fun char => UInt8.ofNat char.toNat) ++ body =
            (line.map fun char => UInt8.ofNat char.toNat) ++ ([13, 10, 13, 10] ++ body) := by
        simp [endOfLine]
      rw [whole, findHeaderEnd, mark, findEnd_skip lineSolid, findEnd_mark]
      simp [endOfLine, Nat.add_comm]
    | cons next textLines =>
      have others := inductionHypothesis (fun other member => each other (List.mem_cons_of_mem _ member))
        (List.cons_ne_nil _ _)
      obtain ⟨nextFilled, _⟩ := each next (List.mem_cons_of_mem _ List.mem_cons_self)
      have nextSolid := solid next (each next (List.mem_cons_of_mem _ List.mem_cons_self))
      obtain ⟨first, nextRest, rfl⟩ := List.exists_cons_of_ne_nil nextFilled
      have different : (13 : UInt8) ≠ UInt8.ofNat first.toNat := fun same => nextSolid (by rw [same]; simp)
      rw [findHeaderEnd, mark] at others ⊢
      rw [List.flatMap_cons, List.append_assoc, List.map_append, List.append_assoc, List.map_append]
      have ends : (endOfLine.map fun char => UInt8.ofNat char.toNat) = [13, 10] := by decide
      rw [ends]
      generalize after : (((first :: nextRest) :: textLines).flatMap fun line => line ++ endOfLine) ++ endOfLine = rest
        at others ⊢
      obtain ⟨more, spelled⟩ : ∃ more, rest = first :: more := by
        rw [← after, List.flatMap_cons, List.cons_append, List.cons_append, List.cons_append]
        exact ⟨_, rfl⟩
      rw [spelled] at others ⊢
      simp only [List.map_cons, List.cons_append, List.append_assoc, List.nil_append] at others ⊢
      rw [findEnd_line lineSolid (by decide) different, others, Option.map_some, List.length_map]
      simp only [List.length_append, List.length_cons, endOfLine, List.length_nil, Option.some.injEq]
      omega

theorem lineChars_textLines {textLines : List (List Char)} (each : ∀ line ∈ textLines, IsLine line) :
    lineChars [] ((textLines.flatMap fun line => line ++ endOfLine) ++ endOfLine) = textLines ++ [[]] := by
  have returned : ∀ line : List Char, dropReturn (line ++ ['\r']) = line := by
    intro line
    simp [dropReturn]
  induction textLines with
  | nil => decide +kernel
  | cons line textLines inductionHypothesis =>
    have others := inductionHypothesis fun other member => each other (List.mem_cons_of_mem _ member)
    have solid : '\n' ∉ line ++ ['\r'] := by
      intro member
      rcases List.mem_append.mp member with member | member
      · exact ((each line List.mem_cons_self).2 _ member).2.2 rfl
      · revert member
        decide
    have split : ((line :: textLines).flatMap fun line => line ++ endOfLine) ++ endOfLine =
        (line ++ ['\r']) ++ '\n' :: ((textLines.flatMap fun line => line ++ endOfLine) ++ endOfLine) := by
      simp [endOfLine]
    rw [split, lineChars_line solid, others, List.reverse_nil, List.nil_append, returned]
    rfl

theorem Message.lines_chars (message : Message) :
    Text.lines (String.ofList message.chars) = (String.ofList message.requestLine :: message.headers) ++ [""] := by
  rw [Text.lines, String.toList_ofList, Message.chars, lineChars_textLines message.isLine, List.map_append,
    Message.textLines, List.map_cons, List.map_map]
  have same : (String.ofList ∘ String.toList) = id := by
    funext text
    exact String.ofList_toList
  rw [same, List.map_id]
  rfl

theorem Message.words_requestLine (message : Message) :
    splitWhitespace (String.ofList message.requestLine) = [message.method, message.path, message.version] := by
  obtain ⟨method, path, version⟩ := message.words
  have solid : ∀ {word : String}, IsWord word → ∀ char ∈ word.toList, isWhitespace char = false :=
    fun isWord char member => (isWord.2 char member).2
  have space : isWhitespace ' ' = true := by decide
  have filled : ∀ {word : String}, IsWord word → (!word.toList.isEmpty) = true := by
    intro word isWord
    simpa using isWord.1
  rw [splitWhitespace, String.toList_ofList, Message.requestLine,
    List.splitOnP_append_cons_of_forall_mem (solid method) ' ' space,
    List.splitOnP_append_cons_of_forall_mem (solid path) ' ' space, List.splitOnP_eq_singleton (solid version)]
  simp only [List.filter_cons, filled method, filled path, filled version, if_true, List.filter_nil, List.map_cons,
    List.map_nil, String.ofList_toList]

/-- The head that was written is the head that is read. -/
theorem requestHead_chars (message : Message) : requestHead (String.ofList message.chars) = message.head := by
  have kept : ∀ line ∈ message.headers, (!line.isEmpty) = true := by
    intro line member
    have filled := (message.lines line member).1
    cases empty : line.isEmpty with
    | false => rfl
    | true =>
      rw [String.isEmpty_iff.mp empty] at filled
      exact absurd rfl filled
  have taken : (message.headers ++ [""]).takeWhile (fun line => !line.isEmpty) = message.headers := by
    rw [List.takeWhile_append_of_pos kept]
    simp
  rw [requestHead, message.lines_chars]
  simp only [List.cons_append, List.headD_cons, List.drop_succ_cons, List.drop_zero, taken, message.words_requestLine]
  rfl

theorem requestOf_bytes (message : Message) (short : message.bytes.length ≤ maxHeadBytes) (body : Bytes)
    (ending : Ending) :
    findHeaderEnd (message.bytes ++ body) = some message.bytes.length ∧
      requestOf (message.bytes ++ body) ending = requestOfHead message.head body ending := by
  have found : findHeaderEnd (message.bytes ++ body) = some message.bytes.length := by
    rw [Message.bytes, List.length_map]
    exact findEnd_lines message.isLine (List.cons_ne_nil _ _) body
  refine ⟨found, ?_⟩
  rw [requestOf_of_found found short, List.take_left, List.drop_left, fromUtf8Lossy_bytes, requestHead_chars]

/-! ## Posting a body -/

/-- The length that a header line announces, if it is one of these. -/
def announcedLength (line : String) : Option String :=
  (strip line "Content-Length:").orElse fun _ => strip line "content-length:"

def lengthHeader (length : Nat) : String := "Content-Length: " ++ toString length

theorem lengthHeader_eq (length : Nat) : lengthHeader length = "Content-Length: " ++ toString length := rfl

theorem parseU64_toString {n : Nat} (small : n < 2 ^ 64) : parseU64 (toString n) = some (UInt64.ofNat n) := by
  have spelled : (toString n).toList = Nat.toDigits 10 n := Nat.toList_repr
  have value := Nat.ofDigitChars_toDigits (b := 10) (n := n) (by decide) (by decide)
  have decimal : ∀ char ∈ Nat.toDigits 10 n, char.isDigit = true :=
    fun char member => Nat.isDigit_of_mem_toDigits (by decide) (by decide) member
  rw [Nat.ofDigitChars_eq_foldl] at value
  obtain ⟨first, digits, digitsOf⟩ := List.exists_cons_of_ne_nil (Nat.toDigits_ne_nil (n := n) (b := 10))
  rw [digitsOf] at spelled value decimal
  have unsigned : first ≠ '+' := by
    rintro rfl
    exact absurd (decimal '+' List.mem_cons_self) (by decide)
  have zero : ('0').toNat = 48 := rfl
  rw [zero] at value
  have all : (first :: digits).all Char.isDigit = true := List.all_eq_true.mpr decimal
  rw [parseU64, spelled]
  split
  · rename_i plus
    exact absurd (List.cons.inj plus).1 unsigned
  · simp only [all, List.isEmpty_cons, Bool.not_true, Bool.or_self, Bool.false_eq_true, if_false, value, if_pos small]

theorem headerStep_length {n : Nat} (small : n < 2 ^ 64) (length : Option UInt64) :
    headerStep length (lengthHeader n) = some (UInt64.ofNat n) := by
  have parts : lengthHeader n = "Content-Length:" ++ (" " ++ toString n) := by
    have name : "Content-Length: " = "Content-Length:" ++ " " := by decide +kernel
    have whole : lengthHeader n = "Content-Length:" ++ " " ++ toString n := congrArg (· ++ toString n) name
    exact whole.trans String.append_assoc
  have solid : ∀ char ∈ (toString n).toList, isWhitespace char = false := by
    intro char member
    have spelled : (toString n).toList = Nat.toDigits 10 n := Nat.toList_repr
    rw [spelled] at member
    have digit := Nat.isDigit_of_mem_toDigits (by decide) (by decide) member
    rw [Char.isDigit, Bool.and_eq_true, decide_eq_true_eq, decide_eq_true_eq] at digit
    obtain ⟨low, high⟩ := digit
    rw [ge_iff_le, UInt32.le_iff_toNat_le] at low
    rw [UInt32.le_iff_toNat_le] at high
    have bounds : 48 ≤ char.val.toNat ∧ char.val.toNat ≤ 57 := ⟨low, high⟩
    simp only [isWhitespace, Bool.or_eq_false_iff, Bool.and_eq_false_iff, decide_eq_false_iff_not, beq_eq_false_iff_ne,
      ne_eq, ← UInt32.toNat_inj, UInt32.le_iff_toNat_le]
    simp only [UInt32.reduceToNat]
    omega
  have space : isWhitespace ' ' = true := by decide
  have trimmed : trim (" " ++ toString n) = toString n := by
    have dropped : (" " ++ toString n).toList.dropWhile isWhitespace = (toString n).toList.dropWhile isWhitespace := by
      have blank : (" " : String).toList = [' '] := rfl
      rw [String.toList_append, blank, List.singleton_append, List.dropWhile_cons_of_pos space]
    rw [trim, dropped]
    exact trim_eq_self solid
  rw [headerStep, parts, strip_append]
  simp only [Option.orElse_some, trimmed, parseU64_toString small]

/-- A request that posts a body: other header lines may stand around the one with the length. -/
structure Post where
  path : String
  before : List String
  after : List String
  body : Bytes
  word : IsWord path
  header : ∀ line ∈ before ++ after, IsHeader line
  last : ∀ line ∈ after, announcedLength line = none
  modest : body.length ≤ maxBodyBytes

theorem lengthHeader_isHeader (n : Nat) : IsHeader (lengthHeader n) := by
  have name : IsHeader "Content-Length: " := isHeader_of_all (by decide +kernel) (by decide +kernel)
  have spelled : (toString n).toList = Nat.toDigits 10 n := Nat.toList_repr
  refine ⟨?_, fun char member => ?_⟩
  · intro empty
    rw [lengthHeader_eq, String.toList_append, spelled] at empty
    exact Nat.toDigits_ne_nil (List.append_eq_nil_iff.mp empty).2
  · rw [lengthHeader_eq, String.toList_append, spelled] at member
    rcases List.mem_append.mp member with member | member
    · exact name.2 char member
    · have digit := Nat.isDigit_of_mem_toDigits (by decide) (by decide) member
      refine ⟨?_, ?_, ?_⟩
      · rw [Char.isDigit, Bool.and_eq_true, decide_eq_true_eq, decide_eq_true_eq] at digit
        have high := UInt32.le_iff_toNat_le.mp digit.2
        exact Nat.lt_of_le_of_lt high (by decide)
      · rintro rfl
        cases digit
      · rintro rfl
        cases digit

def Post.message (post : Post) : Message where
  method := "POST"
  path := post.path
  version := "HTTP/1.1"
  headers := post.before ++ lengthHeader post.body.length :: post.after
  words := ⟨isWord_of_all (by decide +kernel) (by decide +kernel), post.word,
    isWord_of_all (by decide +kernel) (by decide +kernel)⟩
  lines := by
    intro line member
    rcases List.mem_append.mp member with member | member
    · exact post.header line (List.mem_append_left _ member)
    · rcases List.mem_cons.mp member with rfl | member
      · exact lengthHeader_isHeader _
      · exact post.header line (List.mem_append_right _ member)

/-- The bytes of the request. -/
def Post.bytes (post : Post) : Bytes := post.message.bytes ++ post.body

theorem Post.contentLength (post : Post) : post.message.head.contentLength = some (UInt64.ofNat post.body.length) := by
  have small : post.body.length < 2 ^ 64 := Nat.lt_of_le_of_lt post.modest (by decide)
  have later : ∀ (lines : List String), (∀ line ∈ lines, announcedLength line = none) → ∀ length : Option UInt64,
      lines.foldl headerStep length = length := by
    intro lines
    induction lines with
    | nil => exact fun _ _ => rfl
    | cons line lines inductionHypothesis =>
      intro unnamed length
      have skipped : headerStep length line = length := by
        have absent := unnamed line List.mem_cons_self
        rw [announcedLength] at absent
        rw [headerStep, absent]
      rw [List.foldl_cons, skipped]
      exact inductionHypothesis (fun other member => unnamed other (List.mem_cons_of_mem _ member)) length
  have whole : post.message.head.contentLength =
      (post.before ++ lengthHeader post.body.length :: post.after).foldl headerStep none := rfl
  rw [whole, List.foldl_append, List.foldl_cons, headerStep_length small, later _ post.last]

theorem Post.requestOf (post : Post) (short : post.message.bytes.length ≤ maxHeadBytes) (more : Bytes)
    (ending : Ending) : requestOf (post.bytes ++ more) ending = .call "POST" post.path post.body := by
  have size : (UInt64.ofNat post.body.length).toNat = post.body.length := by
    rw [UInt64.toNat_ofNat']
    exact Nat.mod_eq_of_lt (Nat.lt_of_le_of_lt post.modest (by decide))
  have strict : (!post.message.head.strict) = false := by
    have filled : post.path.isEmpty = false := by
      cases empty : post.path.isEmpty with
      | false => rfl
      | true =>
        have named := post.word.1
        rw [String.isEmpty_iff.mp empty] at named
        exact absurd rfl named
    have method : ("POST" : String).isEmpty = false := by decide +kernel
    have version : (("HTTP/1.1" : String) == "HTTP/1.1") = true := beq_self_eq_true _
    simp only [RequestHead.strict, Message.head, Post.message, filled, method, version, Bool.or_true, Bool.and_self,
      Bool.not_false, Bool.not_true]
  have method : post.message.head.method = "POST" := rfl
  have received : ¬ ((post.body ++ more).length < post.body.length ∧ ending = .failed) := by
    rw [List.length_append]
    omega
  rw [Post.bytes, List.append_assoc, (requestOf_bytes post.message short _ ending).2, requestOfHead, strict,
    if_neg Bool.false_ne_true, if_pos method, post.contentLength]
  dsimp only
  rw [size, if_pos post.modest, if_neg received, List.take_left]
  rfl

/-- A posted request gets the verifier's answer to its body: in whatever pieces it arrives, whatever else is in its
    head, and whatever follows it on the connection. -/
theorem post_delivered (primitives : Primitives) (order : HashOrder) (libraries : Libraries) (metrics : Metrics)
    (post : Post) (short : post.message.bytes.length ≤ readSize + 1) (more : Bytes) (stream : Stream)
    (sent : stream.bytes = post.bytes ++ more) :
    replied (handleInner primitives order libraries metrics stream) =
      (route primitives order libraries "POST" post.path post.body).map fun response =>
        some (response.status, libraries.toText response.body) := by
  have within : post.message.bytes.length ≤ maxHeadBytes := short.trans (by decide)
  have other : ¬ (("POST" : String) = "GET" ∧ post.path = "/v1/metrics") := fun both => absurd both.1 (by decide)
  obtain proper | ⟨⟨headerEnd, found, near, _, _⟩, _⟩ :=
    handleInner_replied primitives order libraries metrics (le_refl readSize) (pieces_bounded stream)
  · rw [proper, sent, post.requestOf within, answer, if_neg other]
    cases route primitives order libraries "POST" post.path post.body with
    | error failure => rfl
    | ok response => rfl
  · -- the head ends too early to reach the bound in one piece
    rw [sent, Post.bytes, List.append_assoc, (requestOf_bytes post.message within _ stream.ending).1] at found
    cases found
    rw [maxHeadBytes, readSize] at near
    rw [readSize] at short
    omega

/-- A request to ingest no records. -/
def recordsBody : Bytes := utf8 "\x7b\"records\":\"\"\x7d"

/-- A JSON library on that body and on its answer. -/
def recordsLibraries : Libraries where
  fromSlice bytes :=
    if bytes = recordsBody then .ok (.object [("records", .string "")])
    else .error "expected value at line 1 column 1"
  fromStr _ := .error "expected value at line 1 column 1"
  toText _ := "\x7b\"dry_run\":false,\"ids\":[],\"ingested\":0,\"skipped\":[]\x7d"

theorem recordsPath_isWord : IsWord "/v1/ingest" := isWord_of_all (by decide +kernel) (by decide +kernel)

theorem usualHeaders : ∀ line ∈ ["Host: localhost"] ++ ["Connection: close"], IsHeader line := by
  have host : IsHeader "Host: localhost" := isHeader_of_all (by decide +kernel) (by decide +kernel)
  have connection : IsHeader "Connection: close" := isHeader_of_all (by decide +kernel) (by decide +kernel)
  intro line member
  rcases List.mem_append.mp member with first | last
  · exact List.mem_singleton.mp first ▸ host
  · exact List.mem_singleton.mp last ▸ connection

theorem connection_announces_nothing : ∀ line ∈ ["Connection: close"], announcedLength line = none := by
  intro line member
  rw [List.mem_singleton.mp member]
  decide +kernel

theorem recordsBody_modest : recordsBody.length ≤ maxBodyBytes := by decide +kernel

def recordsPost : Post where
  path := "/v1/ingest"
  before := ["Host: localhost"]
  after := ["Connection: close"]
  body := recordsBody
  word := recordsPath_isWord
  header := usualHeaders
  last := connection_announces_nothing
  modest := recordsBody_modest

theorem recordsPost_routed :
    (route measurementPrimitives HashOrder.inserted recordsLibraries "POST" recordsPost.path recordsPost.body).map
        (fun response => some (response.status, recordsLibraries.toText response.body)) =
      .ok (some (200, "\x7b\"dry_run\":false,\"ids\":[],\"ingested\":0,\"skipped\":[]\x7d")) := rfl

/-- Head and body byte by byte, and with another request behind them. -/
theorem recordsPost_delivered :
    replied (handleInner measurementPrimitives HashOrder.inserted recordsLibraries .zero
        { chunks := singles (recordsPost.bytes ++ recordsPost.bytes), ending := .closed }) =
      .ok (some (200, "\x7b\"dry_run\":false,\"ids\":[],\"ingested\":0,\"skipped\":[]\x7d")) :=
  (post_delivered measurementPrimitives HashOrder.inserted recordsLibraries .zero recordsPost (by decide +kernel)
    recordsPost.bytes { chunks := singles (recordsPost.bytes ++ recordsPost.bytes), ending := .closed }
    (singles_flatten _)).trans recordsPost_routed

end ProofEngine.Api

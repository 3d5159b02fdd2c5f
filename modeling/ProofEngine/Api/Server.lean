import ProofEngine.Api.Route
import ProofEngine.Cli.Args
import ProofEngine.Lib.Pieces

/-! # The server

One request on a connection, read as its bytes arrive.  The head must end within the first 16 KiB that are read, a
posted body is as long as the head says, and everything that is answered is counted. -/

namespace ProofEngine.Api

open Text Pieces

/-! ## Connections -/

/-- Room for what one read brings. -/
def readSize : Nat := 8192

def maxHeadBytes : Nat := 16384

def maxBodyBytes : Nat := 8 * 2 ^ 20

/-- What one read brings. -/
structure Chunk where
  bytes : Bytes
  filled : bytes ≠ []
  bounded : bytes.length ≤ readSize

/-- What the reads after the last chunk bring. -/
inductive Ending where
  | closed
  | failed
  deriving DecidableEq, Repr

structure Stream where
  chunks : List Chunk
  ending : Ending

def Stream.pieces (stream : Stream) : List Bytes := stream.chunks.map Chunk.bytes

def Stream.bytes (stream : Stream) : Bytes := stream.pieces.flatten

/-! ## Counters -/

structure Metrics where
  requests : UInt64
  ok2xx : UInt64
  err4xx : UInt64
  bytesIn : UInt64
  bytesOut : UInt64
  deriving DecidableEq, Repr

def Metrics.zero : Metrics := { requests := 0, ok2xx := 0, err4xx := 0, bytesIn := 0, bytesOut := 0 }

def Metrics.snapshot (metrics : Metrics) : Json :=
  .object [("requests_total", .number (toString metrics.requests)), ("responses_2xx", .number (toString metrics.ok2xx)),
    ("responses_4xx", .number (toString metrics.err4xx)), ("bytes_in", .number (toString metrics.bytesIn)),
    ("bytes_out", .number (toString metrics.bytesOut))]

/-- The counters wrap around. -/
def Metrics.record (metrics : Metrics) (status bytesIn bytesOut : Nat) : Metrics where
  requests := metrics.requests + 1
  ok2xx := if 200 ≤ status ∧ status < 300 then metrics.ok2xx + 1 else metrics.ok2xx
  err4xx := if 200 ≤ status ∧ status < 300 then metrics.err4xx else metrics.err4xx + 1
  bytesIn := metrics.bytesIn + UInt64.ofNat bytesIn
  bytesOut := metrics.bytesOut + UInt64.ofNat bytesOut

/-! ## The head of a request -/

/-- The empty line, with the end of the line before it. -/
def headerMark : Bytes := utf8 "\r\n\r\n"

def findHeaderEnd (raw : Bytes) : Option Nat := findEnd headerMark raw

structure RequestHead where
  method : String
  path : String
  version : String
  contentLength : Option UInt64
  deriving DecidableEq, Repr

/-- A later length replaces an earlier one, also when it cannot be read. -/
def headerStep (length : Option UInt64) (line : String) : Option UInt64 :=
  match (strip line "Content-Length:").orElse fun _ => strip line "content-length:" with
  | some value => parseU64 (trim value)
  | none => length

def requestHead (text : String) : RequestHead :=
  let words := splitWhitespace ((lines text).headD "")
  { method := words.getD 0 ""
    path := words.getD 1 ""
    version := words.getD 2 ""
    contentLength := (((lines text).drop 1).takeWhile fun line => !line.isEmpty).foldl headerStep none }

/-- A request line has a method, a path and one of two versions. -/
def RequestHead.strict (head : RequestHead) : Bool :=
  !head.method.isEmpty && !head.path.isEmpty && (head.version == "HTTP/1.0" || head.version == "HTTP/1.1")

/-! ## Answers -/

/-- What becomes of a connection. -/
inductive Served where
  /-- Nothing is written. -/
  | dropped
  | answered (status bytesIn : Nat) (body : String)
  deriving DecidableEq, Repr

/-- The status for the access log. -/
def Served.status : Served → Nat
  | .dropped => 0
  | .answered status _ _ => status

def Served.reply : Served → Option (Nat × String)
  | .dropped => none
  | .answered status _ body => some (status, body)

def reason (status : Nat) : String :=
  if status = 200 then "OK"
  else if status = 400 then "Bad Request"
  else if status = 404 then "Not Found"
  else if status = 405 then "Method Not Allowed"
  else if status = 413 then "Content Too Large"
  else if status = 422 then "Unprocessable Entity"
  else "Error"

def respond (status : Nat) (body : String) : Bytes :=
  utf8 (String.join ["HTTP/1.1 ", toString status, " ", reason status,
    "\r\nContent-Type: application/json\r\nContent-Length: ", toString (len body), "\r\nConnection: close\r\n\r\n"]) ++
    utf8 body

/-- What is written on the connection. -/
def Served.written : Served → Bytes
  | .dropped => []
  | .answered status _ body => respond status body

section
variable (primitives : Primitives) (order : HashOrder) (libraries : Libraries)

def errText (message : String) : String := libraries.toText (errJson message)

def respondWith (metrics : Metrics) (status : Nat) (body : String) : Served × Metrics :=
  (.answered status 0 body, metrics.record status 0 (len body))

/-- A request that was read is answered from the counters or by the verifier. -/
def dispatch (metrics : Metrics) (head : RequestHead) (body : Bytes) : Outcome (Served × Metrics) :=
  if head.method = "GET" ∧ head.path = "/v1/metrics" then
    .ok (respondWith metrics 200 (libraries.toText metrics.snapshot))
  else do
    let response ← route primitives order libraries head.method head.path body
    let out := libraries.toText response.body
    .ok (.answered response.status body.length out, metrics.record response.status body.length (len out))

/-- The rest of a posted body and the answer to it. -/
def handleBody (metrics : Metrics) (head : RequestHead) (length : Nat) (ending : Ending) (rest : List Bytes)
    (body : Bytes) : Outcome (Served × Metrics) :=
  match readCount length (maxBodyBytes + 16384) rest body with
  | .filled body => dispatch primitives order libraries metrics head (body.take length)
  | .ended body =>
    match ending with
    | .closed => dispatch primitives order libraries metrics head (body.take length)
    | .failed => .ok (.dropped, metrics)
  | .tooLong => .ok (respondWith metrics 413 (errText libraries "body too large"))

def handleInner (metrics : Metrics) (stream : Stream) : Outcome (Served × Metrics) :=
  match readUntil headerMark maxHeadBytes stream.pieces [] with
  | .ended => .ok (.dropped, metrics)
  | .tooLong => .ok (respondWith metrics 413 (errText libraries "headers too large"))
  | .found raw headerEnd rest =>
    let head := requestHead (fromUtf8Lossy (raw.take headerEnd))
    let body := raw.drop headerEnd
    if !head.strict then .ok (respondWith metrics 400 (errText libraries "bad request line"))
    else if head.method = "POST" then
      match head.contentLength with
      | some length =>
        if length.toNat ≤ maxBodyBytes then
          handleBody primitives order libraries metrics head length.toNat stream.ending rest body
        else .ok (respondWith metrics 413 (errText libraries "body required with Content-Length ≤ 8 MiB"))
      | none => .ok (respondWith metrics 413 (errText libraries "body required with Content-Length ≤ 8 MiB"))
    else dispatch primitives order libraries metrics head body

/-- The connections are served one after the other; those that could not be accepted are passed over. -/
def serve (metrics : Metrics) : List (Except String Stream) → Outcome (List Served × Metrics)
  | [] => .ok ([], metrics)
  | .error _ :: incoming => serve metrics incoming
  | .ok stream :: incoming => do
    let (served, metrics) ← handleInner primitives order libraries metrics stream
    let (others, metrics) ← serve metrics incoming
    .ok (served :: others, metrics)

end

/-! ## The request of a whole stream -/

/-- What a stream asks for. -/
inductive Request where
  | incomplete
  | headersTooLarge
  | badRequestLine
  | lengthRequired
  | call (method path : String) (body : Bytes)
  deriving DecidableEq, Repr

/-- The request of a head and the bytes after it. -/
def requestOfHead (head : RequestHead) (after : Bytes) (ending : Ending) : Request :=
  if !head.strict then .badRequestLine
  else if head.method = "POST" then
    match head.contentLength with
    | some length =>
      if length.toNat ≤ maxBodyBytes then
        if after.length < length.toNat ∧ ending = .failed then .incomplete
        else .call head.method head.path (after.take length.toNat)
      else .lengthRequired
    | none => .lengthRequired
  -- only a posted body is read
  else .call head.method head.path []

/-- The request of a stream that is there as a whole. -/
def requestOf (bytes : Bytes) (ending : Ending) : Request :=
  match findHeaderEnd bytes with
  | none => if maxHeadBytes < bytes.length then .headersTooLarge else .incomplete
  | some headerEnd =>
    if maxHeadBytes < headerEnd then .headersTooLarge
    else requestOfHead (requestHead (fromUtf8Lossy (bytes.take headerEnd))) (bytes.drop headerEnd) ending

section
variable (primitives : Primitives) (order : HashOrder) (libraries : Libraries)

/-- The answer to a request. -/
def answer (metrics : Metrics) : Request → Outcome (Option (Nat × String))
  | .incomplete => .ok none
  | .headersTooLarge => .ok (some (413, errText libraries "headers too large"))
  | .badRequestLine => .ok (some (400, errText libraries "bad request line"))
  | .lengthRequired => .ok (some (413, errText libraries "body required with Content-Length ≤ 8 MiB"))
  | .call method path body =>
    if method = "GET" ∧ path = "/v1/metrics" then .ok (some (200, libraries.toText metrics.snapshot))
    else do
      let response ← route primitives order libraries method path body
      .ok (some (response.status, libraries.toText response.body))

end

end ProofEngine.Api

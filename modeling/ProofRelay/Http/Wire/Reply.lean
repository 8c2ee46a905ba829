import ProofRelay.Http.Wire.Basic

/-!
Responses on the wire.  `Wire.readReply` reads what a server sent until the connection was closed: heads of
interim responses, which are passed over, the head of the response, and its body, which is chunked, has a
length, or ends with the connection.  A head that is not complete or not well formed is no reply; a body that
is cut short, or chunked in a wrong way, fails after the bytes that arrived.
-/

namespace ProofRelay.Http.Wire

open Utf8 (encode)

/-! ## Reading -/

/-- The first line of a response: the minor version and the status. -/
def statusLine? (line : Bytes) : Option (Nat × Status) := do
  let mark := line.take 7
  let minor ← decimal? 2 ((line.drop 7).take 1)
  let code := (line.drop 9).take 3
  let status ← Status.ofCode? (← decimal? 1000 code)
  let rest := line.drop 12
  if mark = encode "HTTP/1." && (line.drop 8).head? = some 0x20 && code.length = 3
      && (rest.isEmpty || rest.head? = some 0x20) && rest.all isValueByte then
    some (minor, status)
  else none

/-- One frame, unless there is nothing in it. -/
def frames (bs : Bytes) : List Frame := if bs.isEmpty then [] else [.data bs]

/-- A chunked body as it arrives. -/
def chunkedBody (bs : Bytes) : Incoming :=
  let (c, _, ended) := ChunkReader.run {} bs
  ⟨frames c.data.reverse ++ (if ended && !c.trailers.isEmpty then [.trailers] else []), !ended⟩

/-- The body of the response to a request with the given method. -/
def body (method : Method) (minor : Nat) (head : Head) (bs : Bytes) : Option Incoming :=
  let code := head.status.code
  if code = 101 || code = 204 || code = 304 || method = .head
      || method = .connect && head.status.isSuccess then some ⟨[], false⟩
  else if head.headers.has .transferEncoding then
    if minor = 0 then none
    else if isChunked head.headers then some (chunkedBody bs)
    else some ⟨frames bs, false⟩
  else match announcedLength head.headers with
    | none => some ⟨frames bs, false⟩
    | some none => none
    | some (some n) => if n ≤ greatestLength then some ⟨frames (bs.take n), bs.length < n⟩ else none

/-- Whether a status is that of an interim response. -/
def isInterim (s : Status) : Bool := s.code < 200 && s.code ≠ 101

/-- Reads what was sent in answer to a request; each interim response takes a byte, so as many steps as bytes
are enough. -/
def readSteps (method : Method) : (steps : Nat) → Bytes → Reply
  | 0, _ => none
  | steps + 1, bs => do
    let ((minor, status), headers, rest) ← (readHead statusLine? bs).toOption
    if isInterim status then readSteps method steps rest
    else return (⟨status, headers⟩, ← body method minor ⟨status, headers⟩ rest)

/-- Reads what was sent in answer to a request with the given method. -/
def readReply (method : Method) (bs : Bytes) : Reply := readSteps method (bs.length + 1) bs

/-! ## Writing -/

/-- How the end of a body is marked. -/
inductive Framing
  | chunked
  | length
  /-- By closing the connection. -/
  | close
deriving DecidableEq, Repr

/-- A response as a server sends it.  With `truncated` the connection closes before the end that the framing
announces. -/
def writeReply (status : Status) (headers : List (Bytes × Bytes)) (chunks : List Bytes)
    (framing : Framing) (truncated : Bool) : Bytes :=
  let data := chunks.flatten
  let announced := match framing with
    | .chunked => [(encode "transfer-encoding", encode "chunked")]
    | .length =>
      let n := if truncated then data.length + 1 else data.length
      [(encode "content-length", encode (toString n))]
    | .close => []
  let sent := match framing with
    | .chunked => (chunks.filter (!·.isEmpty)).flatMap chunk ++ (if truncated then [] else lastChunk)
    | _ => data
  encode ("HTTP/1.1 " ++ toString status.code ++ " ") ++ lineEnd
    ++ writeHeaders (headers ++ announced) ++ sent

end ProofRelay.Http.Wire

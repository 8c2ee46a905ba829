import ProofRelay.Http.Wire.Basic

/-!
Requests on the wire.  `Wire.writeRequest` is what a client sends: the body is chunked if the headers name a
transfer encoding, and otherwise has the length that they announce, which is the true one unless the caller says
another.  `Wire.readRequest` is how a server reads it; a head that it cannot accept is answered by a status
alone.
-/

namespace ProofRelay.Http.Wire

open Utf8 (encode)

/-! ## Writing -/

/-- The value with one more item after a comma. -/
def withItem (v : HeaderValue) (item : String) : HeaderValue :=
  (HeaderValue.ofBytes? (v.bytes ++ encode (", " ++ item))).getD v

/-- Makes `chunked` the last of the transfer encodings. -/
def chunkedLast (h : Headers) : Headers :=
  if isChunked h then h else h.updateLast .transferEncoding (withItem · "chunked")

/-- The headers and the bytes with which a body is sent. -/
def framed (h : Headers) (body : Bytes) : Headers × Bytes :=
  if body.isEmpty then (h.remove .transferEncoding, [])
  else if h.has .transferEncoding then
    let h := if (announcedLength h).join.isSome then h.remove .contentLength else h
    (chunkedLast h, chunk body ++ lastChunk)
  else match (announcedLength h).join with
    | some n => (h, body.take n)
    | none => (h.insert .contentLength (.ofText (toString body.length)), body)

/-- What a request asks for: the authority to connect to, or a path with its query. -/
def target (r : Request) : String := if r.method = .connect then r.uri.authority.getD "" else r.uri.target

/-- The first line of a request. -/
def requestLine (r : Request) : String := r.method.name ++ " " ++ target r ++ " HTTP/1.1"

/-- The headers of a request as they are sent; the host is named unless the caller names one. -/
def sentHeaders (r : Request) : Headers :=
  let h := if r.headers.has .host then r.headers else r.headers.append .host (.ofText r.uri.hostText)
  (framed h r.body).1

/-- The bytes after the head of a request. -/
def sentBody (r : Request) : Bytes := (framed r.headers r.body).2

/-- A request as a client sends it. -/
def writeRequest (r : Request) : Bytes :=
  encode (requestLine r) ++ lineEnd ++ writeHeaders (headerBytes (sentHeaders r)) ++ sentBody r

/-! ## Reading -/

/-- The status that answers a head that cannot be accepted, unless it is only incomplete. -/
def HeadFault.status? : HeadFault → Option Status
  | .incomplete => none
  | .malformed => some .badRequest
  | .tooLarge => some .headersTooLarge

/-- The first line of a request. -/
def requestLine? (line : Bytes) : Option (Method × Uri) := do
  let method := line.takeWhile (· ≠ 0x20)
  let rest := line.drop (method.length + 1)
  let target := rest.takeWhile (· ≠ 0x20)
  let uri ← Uri.parse? (← Utf8.decode? target)
  let version := rest.drop target.length
  if method.isEmpty || !method.all isNameByte
      || version ≠ encode " HTTP/1.1" && version ≠ encode " HTTP/1.0" then none
  else some (⟨Utf8.ascii method⟩, uri)

/-- How the body of a request is announced. -/
inductive Announced
  | nothing
  | length (n : Nat)
  | chunked
  /-- A transfer encoding that is not chunked. -/
  | unknown
deriving DecidableEq, Repr

/-- Takes one more header into account.  After a transfer encoding lengths do not count; before one they must be
lengths, and the same. -/
def Announced.push (a : Announced) (name : HeaderName) (v : HeaderValue) : Except HeadFault Announced :=
  if name = .transferEncoding then .ok (if endsChunked v then .chunked else .unknown)
  else if name = .contentLength then
    match a, length? v.bytes with
    | .chunked, _ | .unknown, _ => .ok a
    | _, none => .error .malformed
    | .length n, some m => if m = n then .ok a else .error .malformed
    | .nothing, some m => if m ≤ greatestLength then .ok (.length m) else .error .tooLarge
  else .ok a

/-- How the headers of a request announce its body. -/
def announced (h : Headers) : Except HeadFault Announced := do
  let a ← h.entries.foldlM (fun (a : Announced) (name, v) => a.push name v) .nothing
  if a = .unknown then .error .malformed else .ok a

/-- The body of a request, and what comes after it. -/
def requestBody? (a : Announced) (bs : Bytes) : Option (Bytes × Bytes) :=
  match a with
  | .length n => if n ≤ bs.length then some (bs.take n, bs.drop n) else none
  | .chunked =>
    match ChunkReader.run {} bs with
    | (c, rest, true) => some (c.data.reverse, rest)
    | (_, _, false) => none
  | _ => some ([], bs)

/-- What a server makes of what a client sent. -/
inductive Received
  /-- A request, and what was sent after it. -/
  | request (r : Request) (rest : Bytes)
  /-- A head that is answered by a status alone. -/
  | refused (status : Status)
  /-- The connection closed before the end of a request. -/
  | incomplete
deriving DecidableEq, Repr

/-- Reads the first request of a connection. -/
def readRequest (bs : Bytes) : Received :=
  let head := do
    let ((method, uri), headers, rest) ← readHead requestLine? bs
    return (method, uri, headers, ← announced headers, rest)
  match head with
  | .error fault => (fault.status?.map .refused).getD .incomplete
  | .ok (method, uri, headers, a, rest) =>
    match requestBody? a rest with
    | some (body, rest) => .request { method, uri, headers, body } rest
    | none => .incomplete

end ProofRelay.Http.Wire

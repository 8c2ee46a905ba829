import ProofRelay.Http.Message

/-!
HTTP/1.1 on the wire, as far as requests and responses have it in common: the lines of a head, the length that
headers announce, and chunked bodies.  A head has a greatest size and a greatest number of headers, and so have
the extensions and the trailers of a chunked body.
-/

namespace ProofRelay.Http.Wire

open Utf8 (encode)

/-! ## Heads -/

/-- Why no head can be read. -/
inductive HeadFault
  /-- The connection closed before its end. -/
  | incomplete
  | malformed
  /-- It has too many bytes or too many headers. -/
  | tooLarge
deriving DecidableEq, Repr

/-- The most bytes of a head. -/
def greatestHead : Nat := 8192 + 4096 * 100

/-- The most headers of a head, and the most lines of trailers. -/
def greatestHeaderCount : Nat := 100

def lineFeed : UInt8 := 0x0A

def carriageReturn : UInt8 := 0x0D

/-- Takes a carriage return off the end. -/
def dropReturn (bs : Bytes) : Bytes :=
  if bs.getLast? = some carriageReturn then bs.dropLast else bs

/-- Reads a line: the bytes before its line feed, or its carriage return and line feed, and those after it.
Inside a line there is no carriage return. -/
def line (bs : Bytes) : Except HeadFault (Bytes × Bytes) :=
  let before := bs.takeWhile (· ≠ lineFeed)
  let content := dropReturn before
  if content.contains carriageReturn then .error .malformed
  else match bs.drop before.length with
    | [] => .error .incomplete
    | _ :: rest => .ok (content, rest)

/-- Drops blank lines. -/
def skipBlankLines : Bytes → Bytes
  | 0x0A :: rest => skipBlankLines rest
  | 0x0D :: 0x0A :: rest => skipBlankLines rest
  | bs => bs

/-- The number below `limit` that digits write. -/
def decimal? (limit : Nat) (bs : Bytes) : Option Nat :=
  if bs.isEmpty then none
  else bs.foldlM (fun n b =>
    let next := n * 10 + (b.toNat - 0x30)
    if 0x30 ≤ b && b ≤ 0x39 && next < limit then some next else none) 0

def headerLine? (line : Bytes) : Option (HeaderName × HeaderValue) := do
  let name := line.takeWhile (· ≠ 0x3A)
  let rest := line.drop name.length
  if rest.isEmpty then none
  else
    return (← HeaderName.ofBytes? name, ← HeaderValue.ofBytes? (trimPadding (rest.drop 1)))

/-- Header lines up to a blank line; there may be `left` more.  Each line takes a byte at least, so as many
steps as bytes are enough. -/
def headerLines (left : Nat) : (steps : Nat) → Bytes →
    Except HeadFault (List (HeaderName × HeaderValue) × Bytes)
  | 0, _ => .error .incomplete
  | steps + 1, bs => do
    let (first, rest) ← line bs
    if first.isEmpty then .ok ([], rest)
    else match headerLine? first, left with
      | none, _ => .error .malformed
      | some _, 0 => .error .tooLarge
      | some header, left + 1 =>
        let (headers, rest) ← headerLines left steps rest
        .ok (header :: headers, rest)

/-- Reads a head: a first line, which `first` reads, and headers. -/
def head (first : Bytes → Option α) (bs : Bytes) : Except HeadFault (α × Headers × Bytes) := do
  let window := skipBlankLines (bs.take greatestHead)
  let (top, rest) ← line window
  match first top with
  | none => .error .malformed
  | some x =>
    let (headers, rest) ← headerLines greatestHeaderCount (rest.length + 1) rest
    .ok (x, ⟨headers⟩, rest)

/-- Reads a head from all that was sent, and gives what comes after it. -/
def readHead (first : Bytes → Option α) (bs : Bytes) : Except HeadFault (α × Headers × Bytes) :=
  match head first bs with
  | .ok (x, headers, rest) =>
    .ok (x, headers, bs.drop ((bs.take greatestHead).length - rest.length))
  | .error .incomplete => .error (if bs.length < greatestHead then .incomplete else .tooLarge)
  | .error fault => .error fault

/-! ## Announced bodies -/

/-- Whether the last transfer encoding in a value is `chunked`. -/
def endsChunked (v : HeaderValue) : Bool :=
  let last := (v.bytes.reverse.takeWhile (· ≠ 0x2C)).reverse
  v.text?.isSome && (Utf8.ascii (trimPadding last)).map Char.toLower = "chunked"

/-- Whether the last of the transfer encodings is `chunked`. -/
def isChunked (h : Headers) : Bool := (h.values .transferEncoding).getLast?.any endsChunked

/-- The greatest length of a body. -/
def greatestLength : Nat := UInt64.size - 3

/-- The length that digits write, if sixty-four bits hold it. -/
def length? (bs : Bytes) : Option Nat := decimal? UInt64.size bs

/-- The parts of bytes between commas. -/
def commaParts (bs : Bytes) : List Bytes :=
  bs.foldr (fun b parts =>
    match parts with
    | [] => [[b]]
    | first :: rest => if b = 0x2C then [] :: first :: rest else (b :: first) :: rest) [[]]

/-- The length that the headers announce: none if they announce none, and an inner none if they announce
something that is no length, or several lengths. -/
def announcedLength (h : Headers) : Option (Option Nat) :=
  match h.values .contentLength with
  | [] => none
  | vs =>
    match (vs.flatMap fun v => commaParts v.bytes).map fun part => length? (trimPadding part) with
    | some n :: rest => some (if rest.all (· = some n) then some n else none)
    | _ => some none

/-! ## Chunked bodies -/

/-- Where reading a chunked body stands. -/
inductive ChunkSpot
  /-- At the first digit of a size. -/
  | sizeStart
  | size (n : Nat)
  /-- After the blanks behind a size. -/
  | afterSize (n : Nat)
  | extension (n : Nat)
  /-- At the line feed behind a size. -/
  | sizeEnd (n : Nat)
  /-- Inside a chunk, with so many bytes to come. -/
  | body (left : Nat)
  | bodyCr
  | bodyLf
  /-- At the start of a line after the last chunk. -/
  | trailerStart
  | trailer
  | trailerLf
  | lastLf
  | done
deriving DecidableEq, Repr

/-- What has been read of a chunked body. -/
structure ChunkReader where
  spot : ChunkSpot := .sizeStart
  /-- The data, last byte first. -/
  data : Bytes := []
  /-- How many bytes the extensions have. -/
  extensionSize : Nat := 0
  /-- The bytes of the trailers, last byte first. -/
  trailers : Bytes := []
  trailerSize : Nat := 0
  /-- How many lines of trailers there are. -/
  trailerLines : Nat := 0
deriving DecidableEq, Repr

/-- No chunked body has as many bytes of extensions, or as many of trailers. -/
def chunkExcess : Nat := 16384

/-- The value of a hexadecimal digit. -/
def hexValue? (b : UInt8) : Option Nat :=
  if 0x30 ≤ b && b ≤ 0x39 then some (b.toNat - 0x30)
  else if 0x41 ≤ b && b ≤ 0x46 then some (b.toNat - 0x37)
  else if 0x61 ≤ b && b ≤ 0x66 then some (b.toNat - 0x57)
  else none

namespace ChunkReader

/-- Goes to another spot. -/
def at_ (c : ChunkReader) (spot : ChunkSpot) : ChunkReader := { c with spot }

/-- Keeps a byte of the trailers, unless they become too large. -/
def keep (c : ChunkReader) (b : UInt8) : Option ChunkReader :=
  if c.trailerSize + 1 < chunkExcess then
    some { c with trailers := b :: c.trailers, trailerSize := c.trailerSize + 1 }
  else none

/-- Keeps a byte of the line that ends the trailers, if there are any. -/
def keepLast (c : ChunkReader) (b : UInt8) : Option ChunkReader :=
  if c.trailers.isEmpty then some c else c.keep b

/-- Whether the trailers are headers. -/
def trailersRead (c : ChunkReader) : Bool :=
  c.trailers.isEmpty || (headerLines c.trailerLines (c.trailerSize + 1) c.trailers.reverse).isOk

/-- Reads what may follow the digits of a size. -/
def afterDigits (c : ChunkReader) (n : Nat) (b : UInt8) : Option ChunkReader :=
  if isPadding b then some (c.at_ (.afterSize n))
  else if b = 0x3B then some (c.at_ (.extension n))
  else if b = 0x0D then some (c.at_ (.sizeEnd n))
  else none

/-- Reads a byte; none if it may not stand there. -/
def step (c : ChunkReader) (b : UInt8) : Option ChunkReader :=
  match c.spot with
  | .sizeStart => (hexValue? b).map fun d => c.at_ (.size d)
  | .size n =>
    match hexValue? b with
    | some d => if n * 16 + d < UInt64.size then some (c.at_ (.size (n * 16 + d))) else none
    | none => c.afterDigits n b
  | .afterSize n => c.afterDigits n b
  | .extension n =>
    if b = 0x0D then some (c.at_ (.sizeEnd n))
    else if b = 0x0A then none
    else if c.extensionSize + 1 < chunkExcess then some { c with extensionSize := c.extensionSize + 1 }
    else none
  | .sizeEnd n => if b = 0x0A then some (c.at_ (if n = 0 then .trailerStart else .body n)) else none
  | .body left =>
    some { c with data := b :: c.data, spot := if left ≤ 1 then .bodyCr else .body (left - 1) }
  | .bodyCr => if b = 0x0D then some (c.at_ .bodyLf) else none
  | .bodyLf => if b = 0x0A then some (c.at_ .sizeStart) else none
  | .trailerStart =>
    if b = 0x0D then (c.keepLast b).map (·.at_ .lastLf) else (c.keep b).map (·.at_ .trailer)
  | .trailer => (c.keep b).map (·.at_ (if b = 0x0D then .trailerLf else .trailer))
  | .trailerLf =>
    if b = 0x0A && c.trailerLines < greatestHeaderCount then
      (c.keep b).map fun c => { c with trailerLines := c.trailerLines + 1, spot := .trailerStart }
    else none
  | .lastLf =>
    if b = 0x0A then (c.keepLast b).bind fun c => if c.trailersRead then some (c.at_ .done) else none
    else none
  | .done => some c

/-- Reads up to the end of the body or the first byte that may not stand there; gives what was read, what comes
after the body, and whether there was an end. -/
def run (c : ChunkReader) : Bytes → ChunkReader × Bytes × Bool
  | [] => (c, [], c.spot = .done)
  | b :: rest =>
    if c.spot = .done then (c, b :: rest, true)
    else match c.step b with
      | some c => run c rest
      | none => (c, rest, false)

end ChunkReader

/-! ## Writing -/

/-- A number in hexadecimal digits, in capitals. -/
def hexText (n : Nat) : Bytes := encode ((String.ofList (Nat.toDigits 16 n)).map Char.toUpper)

def lineEnd : Bytes := [0x0D, 0x0A]

/-- A chunk with its size before it. -/
def chunk (data : Bytes) : Bytes := hexText data.length ++ lineEnd ++ data ++ lineEnd

/-- The chunk without data that ends a body, and no trailers. -/
def lastChunk : Bytes := 0x30 :: lineEnd ++ lineEnd

/-- Header lines, and the blank line after them. -/
def writeHeaders (entries : List (Bytes × Bytes)) : Bytes :=
  entries.flatMap (fun (name, value) => name ++ [0x3A, 0x20] ++ value ++ lineEnd) ++ lineEnd

/-- The names and values of headers. -/
def headerBytes (h : Headers) : List (Bytes × Bytes) :=
  h.entries.map fun (name, v) => (encode name.text, v.bytes)

end ProofRelay.Http.Wire

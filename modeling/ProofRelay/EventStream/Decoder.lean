import ProofRelay.EventStream.Line
import ProofRelay.Queue

/-!
The decoder of event streams.  It takes a body in pieces of any size (`Decoder.push`) and queues the messages
that are complete (`Decoder.next?`).  A line ends with a line feed, a carriage return, or both; the first line
may begin with a byte order mark; each line is decoded by itself, with invalid bytes replaced.

    (d.push as).push bs = d.push (as ++ bs)                                (push_append)
-/

namespace ProofRelay.EventStream

/-- Takes the byte order mark off the front, if it is there. -/
def dropMark : Bytes → Bytes
  | 0xEF :: 0xBB :: 0xBF :: rest => rest
  | bs => bs

/-- What is kept between two pieces of a body. -/
structure Decoder where
  /-- The bytes of the line that has not ended, last byte first. -/
  line : Bytes := []
  /-- Whether the last byte was a carriage return, so that a line feed now belongs to it. -/
  afterCr : Bool := false
  /-- Whether a line has ended. -/
  started : Bool := false
  /-- The data of the event that has not ended. -/
  data : Option String := none
  /-- The messages that are complete. -/
  queue : Queue String := {}
deriving DecidableEq, Repr

namespace Decoder

/-- Takes a line: a blank one completes the message of its event, a data line adds to it. -/
def takeLine (d : Decoder) (line : Line) : Decoder :=
  match line, d.data with
  | .blank, some message => { d with data := none, queue := d.queue.push message }
  | .blank, none => d
  | line, before =>
    match line.data? with
    | some value => { d with data := some (joinData before value) }
    | none => d

def endLine (d : Decoder) : Decoder :=
  let bytes := d.line.reverse
  let text := Utf8.decodeLossy (if d.started then bytes else dropMark bytes)
  { d with line := [], started := true : Decoder }.takeLine (.ofText text)

/-- Takes one byte. -/
def pushByte (d : Decoder) (b : UInt8) : Decoder :=
  if d.afterCr && b = lf then { d with afterCr := false }
  else
    let d := { d with afterCr := false }
    if b = lf then d.endLine
    else if b = cr then { d.endLine with afterCr := true }
    else { d with line := b :: d.line }

/-- Takes a piece of the body. -/
def push (d : Decoder) (bs : Bytes) : Decoder := bs.foldl pushByte d

theorem push_append (d : Decoder) (as bs : Bytes) : d.push (as ++ bs) = (d.push as).push bs :=
  List.foldl_append

/-- The oldest message, and the decoder without it. -/
def next? (d : Decoder) : Option (String × Decoder) :=
  match d.queue.pop? with
  | none => none
  | some (message, queue) => some (message, { d with queue })

/-- All messages, and the decoder without them. -/
def drain (d : Decoder) : List String × Decoder := (d.queue.toList, { d with queue := {} })

end Decoder
end ProofRelay.EventStream

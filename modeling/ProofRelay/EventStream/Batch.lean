import ProofRelay.EventStream.Line

/-!
The messages of a whole event stream, read at once.  The stream is cut into lines and the lines into
events; what no line end and no blank line ends is left out.  The message of an event is made of the
values of its data lines.
-/

namespace ProofRelay.EventStream.Batch

variable {α : Type} [BEq α]

/-- The pieces of a list that a mark ends; what is after the last mark is left out. -/
def ended (mark : α) (xs : List α) : List (List α) := (xs.splitOn mark).dropLast

/-- A list without these first items, if it begins with them. -/
def without (start xs : List α) : List α := if start.isPrefixOf xs then xs.drop start.length else xs

/-- The stream with line feeds at the ends of its lines: a carriage return before a line feed is
dropped, and any other is a line feed. -/
def plainEnds : Bytes → Bytes
  | [] => []
  | b :: rest =>
    if b = cr then
      if rest.head? = some lf then plainEnds rest else lf :: plainEnds rest
    else b :: plainEnds rest

/-- The texts of the lines of a stream, without the byte order mark before the first one. -/
def lines (bs : Bytes) : List String :=
  ((ended lf (plainEnds bs)).modifyHead (without byteOrderMark)).map Utf8.decodeLossy

/-- The value of a data line: what comes after the first colon and one blank. -/
def value? (line : String) : Option String :=
  let name := line.toList.takeWhile (· ≠ ':')
  let rest := (line.toList.dropWhile (· ≠ ':')).tail
  if name = "data".toList then some (String.ofList (without [' '] rest)) else none

/-- The message of an event; an event without data lines has none. -/
def message? (event : List String) : Option String :=
  match event.filterMap value? with
  | [] => none
  | values => some ("\n".intercalate values)

def messages (bs : Bytes) : List String := (ended "" (lines bs)).filterMap message?

end ProofRelay.EventStream.Batch

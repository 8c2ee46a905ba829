import ProofRelay.Text.Utf8

/-!
The lines of an event stream.  A line is blank, a comment, or a field with a value; of the fields only `data`
matters.  Several data lines make one message, with line feeds between their values, and a message is written as
such lines (`frame`).
-/

namespace ProofRelay.EventStream

/-- Line feed. -/
def lf : UInt8 := 0x0A

/-- Carriage return. -/
def cr : UInt8 := 0x0D

/-- The byte order mark of UTF-8. -/
def byteOrderMark : Bytes := [0xEF, 0xBB, 0xBF]

/-- What a line says. -/
inductive Line
  /-- The end of an event. -/
  | blank
  | comment
  | field (name value : String)
deriving DecidableEq, Repr

/-- Reads a line.  The name of a field ends at the first colon, and one blank after it is no part of the
value; a line without a colon is the name of a field without a value. -/
def Line.ofChars (cs : List Char) : Line :=
  match cs with
  | [] => .blank
  | ':' :: _ => .comment
  | cs =>
    let name := String.ofList (cs.takeWhile (· ≠ ':'))
    match cs.dropWhile (· ≠ ':') with
    | _ :: ' ' :: value => .field name (String.ofList value)
    | _ :: value => .field name (String.ofList value)
    | [] => .field name ""

/-- Reads a line. -/
def Line.ofText (s : String) : Line := Line.ofChars s.toList

/-- The name of the field that carries a message. -/
def dataField : String := "data"

/-- The value of a data line. -/
def Line.data? : Line → Option String
  | .field name value => if name = dataField then some value else none
  | _ => none

/-- Adds the value of a data line to those before it. -/
def joinData (before : Option String) (value : String) : String :=
  match before with
  | none => value
  | some s => s ++ "\n" ++ value

/-! ## Writing -/

/-- The pieces of a text between its line feeds; there is always one more piece than line feeds. -/
def splitLines : List Char → List (List Char)
  | [] => [[]]
  | c :: cs =>
    if c = '\n' then [] :: splitLines cs
    else match splitLines cs with
      | [] => [[c]]
      | first :: rest => (c :: first) :: rest

/-- Writes a message as an event: one data line for each line of the message, and a blank line.  An empty message
is written as a blank line alone, which ends no event. -/
def frame (message : String) : String :=
  if message.isEmpty then "\n"
  else String.ofList <|
    (splitLines message.toList).flatMap (fun line => "data: ".toList ++ line ++ ['\n']) ++ ['\n']

end ProofRelay.EventStream

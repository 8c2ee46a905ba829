import ProofRelay.Text.Unprintable

/-!
Quoted text, as error messages show it: between double quotes, with a backslash before a quote or a
backslash, short escapes for the usual controls, and the code point of every other character that would
not be seen.
-/

namespace ProofRelay.Text

/-- One character inside quotes. -/
def quoteChar (c : Char) : String :=
  match c with
  | '\x00' => "\\0"
  | '\t' => "\\t"
  | '\n' => "\\n"
  | '\r' => "\\r"
  | '"' => "\\\""
  | '\\' => "\\\\"
  | c => if isUnprintable c then "\\u\x7b" ++ String.ofList (Nat.toDigits 16 c.toNat) ++ "\x7d"
         else String.singleton c

/-- A text between double quotes, each character in its visible form. -/
def quote (s : String) : String := "\"" ++ String.join (s.toList.map quoteChar) ++ "\""

/-- An optional text: `None`, or the quoted text in `Some(…)`. -/
def quoteOption : Option String → String
  | none => "None"
  | some s => "Some(" ++ quote s ++ ")"

end ProofRelay.Text

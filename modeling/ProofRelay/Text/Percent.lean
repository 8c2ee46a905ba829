import ProofRelay.Text.Utf8

/-!
Percent-encoding.  A percent sign with two hexadecimal digits after it stands for a byte; any other percent
sign stands for itself.
-/

namespace ProofRelay.Text.Percent

/-- The value of a hexadecimal digit. -/
def hexValue? (b : UInt8) : Option UInt8 :=
  if 0x30 ≤ b && b ≤ 0x39 then some (b - 0x30)
  else if 0x41 ≤ b && b ≤ 0x46 then some (b - 0x37)
  else if 0x61 ≤ b && b ≤ 0x66 then some (b - 0x57)
  else none

/-- The bytes that percent-encoded bytes stand for. -/
def decode : Bytes → Bytes
  | 0x25 :: a :: b :: rest =>
    match hexValue? a, hexValue? b with
    | some high, some low => (high * 16 + low) :: decode rest
    | _, _ => 0x25 :: decode (a :: b :: rest)
  | b :: rest => b :: decode rest
  | [] => []
termination_by bs => bs.length

/-- The text that a percent-encoded text stands for, if it is one. -/
def decodeText? (s : String) : Option String := Utf8.decode? (decode (Utf8.encode s))

end ProofRelay.Text.Percent

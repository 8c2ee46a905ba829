/-!
Text and its bytes.  `Utf8.encode` writes a text as UTF-8.  `Utf8.decodeLossy` reads any bytes, with one
U+FFFD in place of each maximal part that no text encodes, and `Utf8.decode?` reads the bytes of a text only.

The reading is done byte by byte (`Utf8.Reading.push`), so bytes may come in pieces:

    (Reading.pushAll r (as ++ bs)) = (r.pushAll as).pushAll bs             (Reading.pushAll_append)
-/

namespace ProofRelay

/-- The contents of a body, a header value or a chunk of a stream. -/
abbrev Bytes := List UInt8

namespace Utf8

/-- The bytes of a text. -/
def encode (s : String) : Bytes := s.toList.flatMap String.utf8EncodeChar

@[simp] theorem encode_empty : encode "" = [] := rfl

theorem encode_append (s t : String) : encode (s ++ t) = encode s ++ encode t := by
  simp [encode, String.toList_append]

/-- What stands for bytes that are no part of a text. -/
def replacement : Char := '\uFFFD'

/-- A character whose lead byte has been read: the bits so far, how many bytes are still owed, and the
least and the greatest next byte that some character allows. -/
structure Started where
  bits : Nat
  owed : Nat
  low : Nat
  high : Nat
deriving DecidableEq, Repr

/-- The characters read so far and the one that is not complete yet. -/
structure Reading where
  text : String := ""
  started : Option Started := none
deriving DecidableEq, Repr

namespace Reading

/-- Adds a complete character. -/
def emit (r : Reading) (c : Char) : Reading := { text := r.text.push c, started := none }

/-- Reads a byte that begins a character, or that no character can begin with. -/
def lead (r : Reading) (b : UInt8) : Reading :=
  let n := b.toNat
  if n < 0x80 then r.emit (Char.ofNat n)
  else if n < 0xC2 then r.emit replacement
  else if n < 0xE0 then { r with started := some ⟨n - 0xC0, 1, 0x80, 0xBF⟩ }
  else if n = 0xE0 then { r with started := some ⟨0, 2, 0xA0, 0xBF⟩ }
  else if n = 0xED then { r with started := some ⟨0xD, 2, 0x80, 0x9F⟩ }
  else if n < 0xF0 then { r with started := some ⟨n - 0xE0, 2, 0x80, 0xBF⟩ }
  else if n = 0xF0 then { r with started := some ⟨0, 3, 0x90, 0xBF⟩ }
  else if n < 0xF4 then { r with started := some ⟨n - 0xF0, 3, 0x80, 0xBF⟩ }
  else if n = 0xF4 then { r with started := some ⟨4, 3, 0x80, 0x8F⟩ }
  else r.emit replacement

/-- Reads one byte.  A byte that cannot continue the started character ends it as invalid and is then
read as the beginning of the next one. -/
def push (r : Reading) (b : UInt8) : Reading :=
  match r.started with
  | none => r.lead b
  | some p =>
    if p.low ≤ b.toNat ∧ b.toNat ≤ p.high then
      let bits := p.bits * 64 + (b.toNat - 0x80)
      if p.owed ≤ 1 then r.emit (Char.ofNat bits)
      else { r with started := some ⟨bits, p.owed - 1, 0x80, 0xBF⟩ }
    else (r.emit replacement).lead b

/-- Reads bytes in order. -/
def pushAll (r : Reading) (bs : Bytes) : Reading := bs.foldl push r

@[simp] theorem pushAll_nil (r : Reading) : r.pushAll [] = r := rfl

@[simp] theorem pushAll_cons (r : Reading) (b : UInt8) (bs : Bytes) :
    r.pushAll (b :: bs) = (r.push b).pushAll bs := rfl

theorem pushAll_append (r : Reading) (as bs : Bytes) :
    r.pushAll (as ++ bs) = (r.pushAll as).pushAll bs := List.foldl_append

/-- The text at the end of the bytes: a character cut short is invalid. -/
def finish (r : Reading) : String :=
  match r.started with
  | none => r.text
  | some _ => r.text.push replacement

end Reading

/-- Reads any bytes as text. -/
def decodeLossy (bs : Bytes) : String := (Reading.pushAll {} bs).finish

/-- Reads the bytes of a text; other bytes have none. -/
def decode? (bs : Bytes) : Option String :=
  let s := decodeLossy bs
  if encode s = bs then some s else none

/-- Bytes read as ASCII characters; for text that is known to be ASCII. -/
def ascii (bs : Bytes) : String := String.ofList (bs.map fun b => Char.ofNat b.toNat)

end Utf8
end ProofRelay

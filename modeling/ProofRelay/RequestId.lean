/-!
Ids of requests: 122 random bits as the text of a version-4 UUID, in lower case with hyphens.
-/

namespace ProofRelay

/-- The id that ties a request to its proof. -/
structure RequestId where
  text : String
deriving DecidableEq, Repr

namespace RequestId

/-- How many bits of an id are random. -/
def randomBits : Nat := 122

/-- The `count` lowest hexadecimal digits of a number, highest first. -/
def hexDigits : (count : Nat) → Nat → List Char
  | 0, _ => []
  | count + 1, n => hexDigits count (n / 16) ++ [Nat.digitChar (n % 16)]

/-- The id of random bits. -/
def ofBits (bits : BitVec 122) : RequestId :=
  let n := bits.toNat
  let low := hexDigits 12 n
  let clock := hexDigits 3 (n >>> 48)
  let variant := Nat.digitChar (8 + (n >>> 60) % 4)
  let rest := n >>> 62
  let high := hexDigits 15 rest
  ⟨String.ofList (high.take 8 ++ '-' :: (high.drop 8).take 4 ++ '-' :: '4' :: high.drop 12
    ++ '-' :: variant :: clock ++ '-' :: low)⟩

/-- Whether a character is a digit or a letter from `a` to `f`. -/
def isHexChar (c : Char) : Bool := c.isDigit || 'a' ≤ c && c ≤ 'f'

/-- Whether a text has the form of an id: groups of 8, 4, 4, 4 and 12 hexadecimal digits, the third beginning
with the version and the fourth with the variant. -/
def isWellFormed (s : String) : Bool :=
  let cs := s.toList
  let isHyphen (i : Nat) := i = 8 || i = 13 || i = 18 || i = 23
  cs.length = 36 && cs.zipIdx.all fun (c, i) =>
    if isHyphen i then c = '-'
    else if i = 14 then c = '4'
    else if i = 19 then c = '8' || c = '9' || c = 'a' || c = 'b'
    else isHexChar c

end RequestId
end ProofRelay

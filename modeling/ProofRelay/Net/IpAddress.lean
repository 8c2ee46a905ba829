import ProofRelay.Decimal.Natural

/-!
IP addresses and sockets, and their texts.  An address of version 4 is four numbers with points between them; one of version
6 is eight groups of hexadecimal digits with colons between them, where `::` stands once for groups of zeros,
and the last two groups may be written as an address of version 4.
-/

namespace ProofRelay.Net

inductive IpAddress
  /-- Four octets. -/
  | v4 (octets : List Nat)
  /-- Eight groups of sixteen bits. -/
  | v6 (groups : List Nat)
deriving DecidableEq, Repr

namespace IpAddress

/-! ## Reading -/

/-- The pieces of a text between occurrences of a mark. -/
def splitAt (mark : Char) : List Char → List (List Char)
  | [] => [[]]
  | c :: cs =>
    if c = mark then [] :: splitAt mark cs
    else match splitAt mark cs with
      | [] => [[c]]
      | piece :: rest => (c :: piece) :: rest

/-- An octet: at most three digits, without a zero before others. -/
def octet? (cs : List Char) : Option Nat :=
  if 3 < cs.length || (cs.head? = some '0' && 1 < cs.length) || !cs.all Char.isDigit then none
  else (Decimal.Natural.parse 255 cs).toOption

/-- Four octets. -/
def octets? (cs : List Char) : Option (List Nat) := do
  let octets ← (splitAt '.' cs).mapM octet?
  if octets.length = 4 then some octets else none

/-- The value of a hexadecimal digit. -/
def hexValue? (c : Char) : Option Nat :=
  if c.isDigit then some (c.toNat - '0'.toNat)
  else if 'a' ≤ c && c ≤ 'f' then some (c.toNat - 'a'.toNat + 10)
  else if 'A' ≤ c && c ≤ 'F' then some (c.toNat - 'A'.toNat + 10)
  else none

/-- A group: one to four hexadecimal digits. -/
def group? (cs : List Char) : Option Nat :=
  if cs.isEmpty || 4 < cs.length then none
  else cs.foldlM (fun n c => (hexValue? c).map (n * 16 + ·)) 0

/-- Groups with colons between them; the last one may be an address of version 4, which is two groups. -/
def groups? : List (List Char) → Option (List Nat)
  | [] => some []
  | [last] =>
    match octets? last with
    | some [a, b, c, d] => some [a * 256 + b, c * 256 + d]
    | _ => (group? last).map ([·])
  | piece :: rest => do return (← group? piece) :: (← groups? rest)

/-- The parts before and after the first double colon. -/
def splitGap : List Char → Option (List Char × List Char)
  | ':' :: ':' :: rest => some ([], rest)
  | c :: rest => (splitGap rest).map fun (before, after) => (c :: before, after)
  | [] => none

/-- The groups of a part that may be empty. -/
def side? (cs : List Char) : Option (List Nat) :=
  if cs.isEmpty then some [] else groups? (splitAt ':' cs)

/-- Eight groups, of which some may be left out. -/
def allGroups? (cs : List Char) : Option (List Nat) :=
  match splitGap cs with
  | none => do
    let groups ← groups? (splitAt ':' cs)
    if groups.length = 8 then some groups else none
  | some (before, after) => do
    let head ← side? before
    let tail ← side? after
    if before.contains '.' || 7 < head.length + tail.length then none
    else some (head ++ List.replicate (8 - head.length - tail.length) 0 ++ tail)

/-- Reads an address. -/
def parse? (s : String) : Option IpAddress :=
  match octets? s.toList with
  | some octets => some (.v4 octets)
  | none => (allGroups? s.toList).map .v6

/-! ## Writing -/

/-- The text of octets. -/
def writeOctets (octets : List Nat) : String := ".".intercalate (octets.map toString)

/-- The text of groups. -/
def writeGroups (groups : List Nat) : String :=
  ":".intercalate (groups.map fun g => String.ofList (Nat.toDigits 16 g))

/-- How many zeros a list begins with. -/
def leadingZeros (groups : List Nat) : Nat := (groups.takeWhile (· = 0)).length

/-- The place and the length of the first of the longest runs of zeros. -/
def longestGap (groups : List Nat) : Nat × Nat :=
  (List.range groups.length).foldl (fun best i =>
    let length := leadingZeros (groups.drop i)
    if best.2 < length then (i, length) else best) (0, 0)

/-- The text of an address. -/
def write : IpAddress → String
  | v4 octets => writeOctets octets
  | v6 groups =>
    match groups with
    | [0, 0, 0, 0, 0, 0xFFFF, high, low] =>
      "::ffff:" ++ writeOctets [high / 256, high % 256, low / 256, low % 256]
    | _ =>
      let (place, length) := longestGap groups
      if length < 2 then writeGroups groups
      else writeGroups (groups.take place) ++ "::" ++ writeGroups (groups.drop (place + length))

/-! ## Meaning -/

/-- Whether an address stands for all addresses of a host. -/
def isUnspecified : IpAddress → Bool
  | v4 octets => octets.all (· = 0)
  | v6 groups => groups.all (· = 0)

/-- The address of a host for itself. -/
def loopback : IpAddress := .v4 [127, 0, 0, 1]

/-- The address at which one reaches a listener on this host. -/
def reachable (a : IpAddress) : IpAddress := if a.isUnspecified then loopback else a

end IpAddress

/-- A socket: a host and a number there. -/
structure Socket where
  host : IpAddress
  number : UInt16
deriving DecidableEq, Repr

namespace Socket

/-- The text of a socket. -/
def write (s : Socket) : String :=
  match s.host with
  | .v4 _ => s.host.write ++ ":" ++ toString s.number.toNat
  | .v6 _ => "[" ++ s.host.write ++ "]:" ++ toString s.number.toNat

/-- The socket at which one reaches a listener on this host. -/
def reachable (s : Socket) : Socket := { s with host := s.host.reachable }

end Socket
end ProofRelay.Net

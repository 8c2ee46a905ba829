import ProofRelay.Json.Value

/-!
Reading JSON tokens from bytes.  A reader takes the bytes at which a token stands and gives what it read
together with the bytes after it, or the first failure that it meets: a text that ends too early, that is
not JSON, or that is JSON of another shape than the one asked for.

Values that nobody asked for are skipped (`skipValue`) and not read: their texts may hold any bytes, their
numbers may be of any size and their nesting of any depth.
-/

namespace ProofRelay.Json

/-- What reads a value from the front of bytes. -/
abbrev Reader (α : Type) := Bytes → Except Failure (α × Bytes)

/-- The character of an ASCII byte. -/
def asChar (b : UInt8) : Char := Char.ofNat b.toNat

/-- Whether a byte is a blank between tokens. -/
def isBlank (b : UInt8) : Bool := b = 0x20 || b = 0x0A || b = 0x09 || b = 0x0D

/-- The bytes after the blanks at the front. -/
def skipBlanks (bs : Bytes) : Bytes := bs.dropWhile isBlank

/-- The value of a decimal digit. -/
def digit? (b : UInt8) : Option Nat :=
  if 0x30 ≤ b ∧ b ≤ 0x39 then some (b.toNat - 0x30) else none

/-- The digits at the front, and the bytes after them. -/
def spanDigits : Bytes → List Nat × Bytes
  | [] => ([], [])
  | b :: rest =>
    match digit? b with
    | none => ([], b :: rest)
    | some d => let (ds, rest) := spanDigits rest
                (d :: ds, rest)

/-- Reads the rest of a word. -/
def word (value : α) : List Char → Reader α
  | [], rest => .ok (value, rest)
  | _ :: _, [] => .error .truncated
  | c :: cs, b :: rest => if asChar b = c then word value cs rest else .error .malformed

/-! ## Numbers -/

/-- No exponent counts for more than this. -/
def greatestScale : Nat := 2147483647

/-- The exponent after its mark: an optional sign and at least one digit. -/
def exponent : Reader Int := fun bs =>
  let (isNegative, bs) := match bs with
    | 0x2B :: rest => (false, rest)
    | 0x2D :: rest => (true, rest)
    | _ => (false, bs)
  match spanDigits bs with
  | ([], []) => .error .truncated
  | ([], _) => .error .malformed
  | (ds, rest) =>
    let e : Nat := ds.foldl (fun n d => min greatestScale (n * 10 + d)) 0
    .ok (if isNegative then -(e : Int) else e, rest)

/-- The end of a number that is a double: an optional exponent after the digits. -/
def scaled (isNegative : Bool) (significand : Nat) (shift : Int) : Reader Number := fun bs => do
  let (e, rest) ← match bs with
    | 0x65 :: rest => exponent rest
    | 0x45 :: rest => exponent rest
    | _ => .ok (0, bs)
  match Number.ofParts? isNegative significand (shift + e) with
  | some n => .ok (n, rest)
  | none => .error .malformed

/-- Takes digits into a significand below the limit; the first one that does not fit and all after it are
only counted. -/
def takeDigits (significand : Nat) : List Nat → Nat × Nat
  | [] => (significand, 0)
  | d :: ds =>
    if significand * 10 + d < Number.wholeLimit then takeDigits (significand * 10 + d) ds
    else (significand, ds.length + 1)

/-- The digits after the point.  Those that do not fit into the significand are dropped. -/
def fraction (isNegative : Bool) (significand : Nat) (dropped : Nat) : Reader Number := fun bs =>
  match spanDigits bs with
  | ([], []) => .error .truncated
  | ([], _) => .error .malformed
  | (ds, rest) =>
    let (significand, ignored) := takeDigits significand ds
    scaled isNegative significand (dropped - (ds.length - ignored : Nat)) rest

/-- A number after its sign. -/
def number (isNegative : Bool) : Reader Number := fun bs =>
  let (ds, rest) := spanDigits bs
  match ds, rest with
  | [], [] => .error .truncated
  | [], _ => .error .malformed
  | 0 :: _ :: _, _ => .error .malformed
  | ds, rest =>
    let (significand, dropped) := takeDigits 0 ds
    match rest with
    | 0x2E :: rest => fraction isNegative significand dropped rest
    | _ =>
      if dropped ≠ 0 ∨ rest.head? = some 0x65 ∨ rest.head? = some 0x45 then
        scaled isNegative significand dropped rest
      else match Number.ofDigits? isNegative significand with
        | some n => .ok (n, rest)
        | none => .error .malformed

/-! ## Texts -/

/-- The byte for which a short escape stands. -/
def shortEscape? (b : UInt8) : Option UInt8 :=
  match asChar b with
  | '"' => some 0x22
  | '\\' => some 0x5C
  | '/' => some 0x2F
  | 'b' => some 0x08
  | 'f' => some 0x0C
  | 'n' => some 0x0A
  | 'r' => some 0x0D
  | 't' => some 0x09
  | _ => none

/-- The value of a hexadecimal digit. -/
def hexDigit? (b : UInt8) : Option Nat :=
  if 0x30 ≤ b ∧ b ≤ 0x39 then some (b.toNat - 0x30)
  else if 0x41 ≤ b ∧ b ≤ 0x46 then some (b.toNat - 0x41 + 10)
  else if 0x61 ≤ b ∧ b ≤ 0x66 then some (b.toNat - 0x61 + 10)
  else none

/-- The value of four hexadecimal digits. -/
def hexUnit? (a b c d : UInt8) : Option Nat := do
  return (← hexDigit? a) * 4096 + (← hexDigit? b) * 256 + (← hexDigit? c) * 16 + (← hexDigit? d)

/-- The bytes of a code point, last byte first. -/
def reversedBytes (n : Nat) : Bytes := (String.utf8EncodeChar (Char.ofNat n)).reverse

/-- The bytes of a text up to its closing quote, with escapes replaced; `read` are those before, last byte
first.  A character beyond U+FFFF is escaped as two units, which must stand together. -/
def textBytes (read : Bytes) : Reader Bytes
  | [] => .error .truncated
  | b :: rest =>
    if b = 0x22 then .ok (read.reverse, rest)
    else if b = 0x5C then
      match rest with
      | [] => .error .truncated
      | 0x75 :: rest =>
        match rest with
        | u₁ :: u₂ :: u₃ :: u₄ :: rest =>
          match hexUnit? u₁ u₂ u₃ u₄ with
          | none => .error .malformed
          | some unit =>
            if unit < 0xD800 ∨ 0xDFFF < unit then textBytes (reversedBytes unit ++ read) rest
            else if 0xDC00 ≤ unit then .error .malformed
            else match rest with
              | [] => .error .truncated
              | [0x5C] => .error .truncated
              | 0x5C :: 0x75 :: rest =>
                match rest with
                | v₁ :: v₂ :: v₃ :: v₄ :: rest =>
                  match hexUnit? v₁ v₂ v₃ v₄ with
                  | none => .error .malformed
                  | some low =>
                    if low < 0xDC00 ∨ 0xDFFF < low then .error .malformed
                    else
                      let point := 0x10000 + (unit - 0xD800) * 1024 + (low - 0xDC00)
                      textBytes (reversedBytes point ++ read) rest
                | _ => .error .truncated
              | _ => .error .malformed
        | _ => .error .truncated
      | e :: rest =>
        match shortEscape? e with
        | some c => textBytes (c :: read) rest
        | none => .error .malformed
    else if b < 0x20 then .error .malformed
    else textBytes (b :: read) rest

/-- A text after its opening quote.  Its bytes must be UTF-8. -/
def text : Reader String := fun bs => do
  let (bytes, rest) ← textBytes [] bs
  match Utf8.decode? bytes with
  | some s => .ok (s, rest)
  | none => .error .malformed

/-! ## Skipping -/

/-- Skips a text after its opening quote. -/
def skipText : Bytes → Except Failure Bytes
  | [] => .error .truncated
  | b :: rest =>
    if b = 0x22 then .ok rest
    else if b = 0x5C then
      match rest with
      | [] => .error .truncated
      | 0x75 :: rest =>
        match rest with
        | u₁ :: u₂ :: u₃ :: u₄ :: rest =>
          if (hexUnit? u₁ u₂ u₃ u₄).isSome then skipText rest else .error .malformed
        | _ => .error .truncated
      | e :: rest => if (shortEscape? e).isSome then skipText rest else .error .malformed
    else if b < 0x20 then .error .malformed
    else skipText rest

/-- Skips digits, of which there must be one. -/
def skipDigits (bs : Bytes) : Except Failure Bytes :=
  match spanDigits bs with
  | ([], _) => .error .malformed
  | (_, rest) => .ok rest

def skipExponent : Bytes → Except Failure Bytes
  | [] => .ok []
  | b :: rest =>
    if b = 0x65 ∨ b = 0x45 then
      match rest with
      | 0x2B :: rest => skipDigits rest
      | 0x2D :: rest => skipDigits rest
      | rest => skipDigits rest
    else .ok (b :: rest)

/-- Skips a number after its sign. -/
def skipNumber (bs : Bytes) : Except Failure Bytes :=
  match spanDigits bs with
  | ([], _) => .error .malformed
  | (0 :: _ :: _, _) => .error .malformed
  | (_, 0x2E :: rest) => do skipExponent (← skipDigits rest)
  | (_, rest) => skipExponent rest

/-- What encloses a value. -/
inductive Frame
  | list
  | object
deriving DecidableEq, Repr

/-- Where skipping stands: before a value, after the opening of the innermost frame, before a key, or after
a value. -/
inductive Spot
  | value
  | opened
  | key
  | after
deriving DecidableEq, Repr

/-- The byte that closes a frame. -/
def Frame.closing : Frame → UInt8
  | .list => 0x5D
  | .object => 0x7D

/-- Skips to the end of a value inside `frames`, innermost first.  Each step reads a byte or comes before one
that does, so twice as many steps as bytes are enough. -/
def skipLoop : (steps : Nat) → Spot → List Frame → Bytes → Except Failure Bytes
  | 0, _, _, _ => .error .malformed
  | n + 1, spot, frames, bs =>
    match spot, frames with
    | .after, [] => .ok bs
    | spot, frames =>
      match spot, frames, skipBlanks bs with
      | _, _, [] => .error .truncated
      | .value, frames, b :: rest =>
        match asChar b with
        | '[' => skipLoop n .opened (.list :: frames) rest
        | '\x7b' => skipLoop n .opened (.object :: frames) rest
        | '"' => do skipLoop n .after frames (← skipText rest)
        | 'n' => do skipLoop n .after frames (← word () ['u', 'l', 'l'] rest).2
        | 't' => do skipLoop n .after frames (← word () ['r', 'u', 'e'] rest).2
        | 'f' => do skipLoop n .after frames (← word () ['a', 'l', 's', 'e'] rest).2
        | '-' => do skipLoop n .after frames (← skipNumber rest)
        | _ =>
          if (digit? b).isSome then do skipLoop n .after frames (← skipNumber (b :: rest))
          else .error .malformed
      | .opened, f :: frames, b :: rest =>
        if b = f.closing then skipLoop n .after frames rest
        else skipLoop n (if f = .object then .key else .value) (f :: frames) (b :: rest)
      | .key, frames, b :: rest =>
        if b = 0x22 then do
          match skipBlanks (← skipText rest) with
          | [] => .error .truncated
          | c :: rest => if c = 0x3A then skipLoop n .value frames rest else .error .malformed
        else .error .malformed
      | .after, f :: frames, b :: rest =>
        if b = f.closing then skipLoop n .after frames rest
        else if b = 0x2C then skipLoop n (if f = .object then .key else .value) (f :: frames) rest
        else .error .malformed
      | _, [], _ => .error .malformed

def skipValue (bs : Bytes) : Except Failure Bytes := skipLoop (2 * bs.length + 2) .value [] bs

/-! ## Lists and objects -/

/-- What an item of a list or object must be preceded by. -/
inductive Separator
  /-- Nothing: it is the first one. -/
  | none
  | comma
deriving DecidableEq, Repr

/-- Whether another item follows in a list that ends with `closing`: the bytes at the item, or nothing with
the closing byte still to be read. -/
def nextItem (closing : UInt8) (separator : Separator) (bs : Bytes) : Except Failure (Option Bytes) :=
  match skipBlanks bs with
  | [] => .error .truncated
  | b :: rest =>
    if b = closing then .ok none
    else match separator with
      | .none => .ok (some (b :: rest))
      | .comma =>
        if b ≠ 0x2C then .error .malformed
        else match skipBlanks rest with
          | [] => .error .truncated
          | c :: rest => if c = closing then .error .malformed else .ok (some (c :: rest))

/-- The items of a list after its opening bracket, up to its end.  Each item takes a byte, so as many steps
as bytes are enough. -/
def items (item : Reader α) : (steps : Nat) → Separator → List α → Reader (List α)
  | 0, _, _, _ => .error .malformed
  | n + 1, separator, found, bs => do
    match ← nextItem 0x5D separator bs with
    | none => .ok (found.reverse, (skipBlanks bs).drop 1)
    | some bs =>
      let (x, rest) ← item bs
      items item n .comma (x :: found) rest

/-- Reads the colon after a key. -/
def colon (bs : Bytes) : Except Failure Bytes :=
  match skipBlanks bs with
  | [] => .error .truncated
  | b :: rest => if b = 0x3A then .ok rest else .error .malformed

/-- The entries of an object after its opening brace, up to its end.  `entry` is given the key and what was
found before, and reads from the colon on. -/
def entries (entry : String → σ → Reader σ) : (steps : Nat) → Separator → σ → Reader σ
  | 0, _, _, _ => .error .malformed
  | n + 1, separator, found, bs => do
    match ← nextItem 0x7D separator bs with
    | none => .ok (found, (skipBlanks bs).drop 1)
    | some (0x22 :: rest) =>
      let (key, rest) ← text rest
      let (found, rest) ← entry key found rest
      entries entry n .comma found rest
    | some _ => .error .malformed

/-! ## Values -/

/-- The nesting that is read. -/
def nestingLimit : Nat := 127

/-- A value that may hold lists and objects, read by `inner`; with no inner reader the nesting is too deep. -/
def valueWith (inner : Option (Reader Value)) : Reader Value := fun bs =>
  match skipBlanks bs with
  | [] => .error .truncated
  | b :: rest =>
    match asChar b with
    | 'n' => word .null ['u', 'l', 'l'] rest
    | 't' => word (.flag true) ['r', 'u', 'e'] rest
    | 'f' => word (.flag false) ['a', 'l', 's', 'e'] rest
    | '"' => do
      let (s, rest) ← text rest
      .ok (.text s, rest)
    | '-' => do
      let (n, rest) ← number true rest
      .ok (.number n, rest)
    | '[' =>
      match inner with
      | none => .error .malformed
      | some inner => do
        let (found, rest) ← items inner (rest.length + 1) .none [] rest
        .ok (.list found, rest)
    | '\x7b' =>
      match inner with
      | none => .error .malformed
      | some inner => do
        let entry (key : String) (found : List (String × Value)) : Reader (List (String × Value)) :=
          fun bs => do
            let (v, rest) ← inner (← colon bs)
            .ok (insertEntry key v found, rest)
        let (found, rest) ← entries entry (rest.length + 1) .none [] rest
        .ok (.object found, rest)
    | _ =>
      if (digit? b).isSome then do
        let (n, rest) ← number false (b :: rest)
        .ok (.number n, rest)
      else .error .malformed

/-- A value that holds at most `depth` lists and objects inside each other. -/
def valueWithin : (depth : Nat) → Reader Value
  | 0 => valueWith none
  | depth + 1 => valueWith (some (valueWithin depth))

/-- A value of any shape. -/
def value : Reader Value := valueWithin nestingLimit

/-! ## Whole texts -/

/-- Reads a text that holds one value and nothing after it. -/
def document (read : Reader α) (bs : Bytes) : Except Failure α := do
  let (x, rest) ← read bs
  if (skipBlanks rest).isEmpty then .ok x else .error .malformed

/-- Reads a value of any shape from its text. -/
def Value.parse (bs : Bytes) : Except Failure Value := document value bs

end ProofRelay.Json

import ProofRelay.Json.Number
import ProofRelay.Text.Utf8

/-!
JSON values and their text.  `Value.write` puts no blanks between tokens and writes the entries of an object
in the order in which they stand; `Value.ofEntries` builds an object with its keys in order, each once, with
the last value given for it.
-/

namespace ProofRelay.Json

inductive Value
  | null
  | flag (b : Bool)
  | number (n : Number)
  | text (s : String)
  | list (items : List Value)
  | object (entries : List (String × Value))
deriving Repr

/-- Why a JSON text was not read, or a value not written. -/
inductive Failure
  /-- The text is not JSON. -/
  | malformed
  /-- The text is JSON of another shape. -/
  | mistyped
  /-- The text ends too early. -/
  | truncated
deriving DecidableEq, Repr

/-! ## Writing -/

/-- Two hexadecimal digits. -/
def hexByte (n : Nat) : List Char := [Nat.digitChar (n / 16), Nat.digitChar (n % 16)]

/-- A character inside a quoted text: quotes, backslashes and control characters are escaped. -/
def escapeChar (c : Char) : List Char :=
  match c with
  | '"' => ['\\', '"']
  | '\\' => ['\\', '\\']
  | '\x08' => ['\\', 'b']
  | '\x0c' => ['\\', 'f']
  | '\n' => ['\\', 'n']
  | '\r' => ['\\', 'r']
  | '\t' => ['\\', 't']
  | c => if c.toNat < 0x20 then '\\' :: 'u' :: '0' :: '0' :: hexByte c.toNat else [c]

/-- A text between quotes. -/
def writeText (s : String) : String :=
  String.ofList ('"' :: s.toList.flatMap escapeChar ++ ['"'])

mutual

/-- The text of a value, after `out`. -/
def Value.writeAfter (out : String) : Value → String
  | .null => out ++ "null"
  | .flag b => out ++ (if b then "true" else "false")
  | .number n => out ++ n.write
  | .text s => out ++ writeText s
  | .list items => (Value.writeItemsAfter (out.push '[') items).push ']'
  | .object entries => (Value.writeEntriesAfter (out.push '\x7b') entries).push '\x7d'

/-- The texts of values, with commas between them, after `out`. -/
def Value.writeItemsAfter (out : String) : List Value → String
  | [] => out
  | [v] => v.writeAfter out
  | v :: rest => Value.writeItemsAfter ((v.writeAfter out).push ',') rest

/-- The texts of entries, with commas between them, after `out`. -/
def Value.writeEntriesAfter (out : String) : List (String × Value) → String
  | [] => out
  | [(k, v)] => v.writeAfter ((out ++ writeText k).push ':')
  | (k, v) :: rest =>
    Value.writeEntriesAfter ((v.writeAfter ((out ++ writeText k).push ':')).push ',') rest

end

/-- The text of a value. -/
def Value.write (v : Value) : String := v.writeAfter ""

theorem Value.writeItemsAfter_cons_cons (out : String) (v w : Value) (rest : List Value) :
    Value.writeItemsAfter out (v :: w :: rest)
      = Value.writeItemsAfter ((v.writeAfter out).push ',') (w :: rest) := by
  rw [writeItemsAfter]; simp

theorem Value.writeEntriesAfter_cons_cons (out : String) (k : String) (v : Value) (e : String × Value)
    (rest : List (String × Value)) :
    Value.writeEntriesAfter out ((k, v) :: e :: rest)
      = Value.writeEntriesAfter ((v.writeAfter ((out ++ writeText k).push ':')).push ',') (e :: rest) := by
  rw [writeEntriesAfter]; simp

mutual

/-- What stands before the text of a value does not change it. -/
theorem Value.writeAfter_eq (out : String) : (v : Value) → v.writeAfter out = out ++ v.writeAfter ""
  | .null => by simp [writeAfter]
  | .flag b => by simp [writeAfter]
  | .number n => by simp [writeAfter]
  | .text s => by simp [writeAfter]
  | .list items => by
    rw [writeAfter, writeAfter, writeItemsAfter_eq _ items, writeItemsAfter_eq ("".push '[') items]
    simp [String.push_eq_append, String.append_assoc]
  | .object entries => by
    rw [writeAfter, writeAfter, writeEntriesAfter_eq _ entries,
      writeEntriesAfter_eq ("".push '\x7b') entries]
    simp [String.push_eq_append, String.append_assoc]

theorem Value.writeItemsAfter_eq (out : String) :
    (vs : List Value) → Value.writeItemsAfter out vs = out ++ Value.writeItemsAfter "" vs
  | [] => by simp [writeItemsAfter]
  | [v] => writeAfter_eq out v
  | v :: w :: rest => by
    rw [writeItemsAfter_cons_cons, writeItemsAfter_cons_cons, writeItemsAfter_eq _ (w :: rest),
      writeItemsAfter_eq ((v.writeAfter "").push ',') (w :: rest), writeAfter_eq out v]
    simp [String.push_eq_append, String.append_assoc]

theorem Value.writeEntriesAfter_eq (out : String) :
    (es : List (String × Value)) → Value.writeEntriesAfter out es = out ++ Value.writeEntriesAfter "" es
  | [] => by simp [writeEntriesAfter]
  | [(k, v)] => by
    rw [writeEntriesAfter, writeEntriesAfter, writeAfter_eq _ v, writeAfter_eq (("" ++ writeText k).push ':') v]
    simp [String.push_eq_append, String.append_assoc]
  | (k, v) :: e :: rest => by
    rw [writeEntriesAfter_cons_cons, writeEntriesAfter_cons_cons, writeEntriesAfter_eq _ (e :: rest),
      writeEntriesAfter_eq ((v.writeAfter (("" ++ writeText k).push ':')).push ',') (e :: rest), writeAfter_eq _ v,
      writeAfter_eq (("" ++ writeText k).push ':') v]
    simp [String.push_eq_append, String.append_assoc]

end

/-! ## Objects -/

/-- Puts an entry at its place in an ordered list of entries, in place of one with the same key. -/
def insertEntry (key : String) (v : Value) : List (String × Value) → List (String × Value)
  | [] => [(key, v)]
  | (k, w) :: rest =>
    if key = k then (key, v) :: rest
    else if key < k then (key, v) :: (k, w) :: rest
    else (k, w) :: insertEntry key v rest

/-- The object with the given entries. -/
def Value.ofEntries (entries : List (String × Value)) : Value :=
  .object (entries.foldl (fun found (k, v) => insertEntry k v found) [])

/-- Puts an entry with a number for its key at its place in an ordered list, in place of an equal one. -/
def insertNumbered (key : Int) (v : Value) : List (Int × Value) → List (Int × Value)
  | [] => [(key, v)]
  | (k, w) :: rest =>
    if key = k then (key, v) :: rest
    else if key < k then (key, v) :: (k, w) :: rest
    else (k, w) :: insertNumbered key v rest

/-- The object of a map whose keys are numbers, in the order of the numbers. -/
def Value.ofNumbered (entries : List (Int × Value)) : Value :=
  .object ((entries.foldl (fun found (k, v) => insertNumbered k v found) []).map
    fun (k, v) => (toString k, v))

/-- The object of a map that has lists for keys: only the empty one has a text. -/
def Value.ofListKeyed? (entries : List (List Value × Value)) : Except Failure Value :=
  if entries.isEmpty then .ok (.object []) else .error .malformed

end ProofRelay.Json

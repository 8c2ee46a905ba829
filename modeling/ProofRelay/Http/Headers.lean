import ProofRelay.Text.Utf8

/-!
Header names, header values and the headers of a message.  A name is kept in lower case, so names that
differ only in case are one name; a value is any bytes without controls.  `Headers` keeps the values of a
name in order, and what an operation does is said by `Headers.values`:

    (h.append n v).values m = h.values m ++ [v]      if m = n, else h.values m      (values_append)
    (h.insert n v).values m = [v]                    if m = n, else h.values m      (values_insert)
    (h.merge g).values m    = g.values m             if g has any, else h.values m  (values_merge)
-/

namespace ProofRelay.Http

/-! ## Names -/

/-- Whether a byte may stand in a header name. -/
def isNameByte (b : UInt8) : Bool :=
  let c := Char.ofNat b.toNat
  c.isAlphanum && b < 0x80 || "!#$%&'*+-.^_\x60|~".contains c

/-- The longest header name. -/
def greatestNameLength : Nat := 65535

/-- A header name in lower case. -/
structure HeaderName where
  text : String
deriving DecidableEq, Repr

namespace HeaderName

/-- The name that bytes write, in any case of letters. -/
def ofBytes? (bs : Bytes) : Option HeaderName :=
  if bs.isEmpty || !bs.all isNameByte || greatestNameLength < bs.length then none
  else some ⟨(Utf8.ascii bs).map Char.toLower⟩

def requestId : HeaderName := ⟨"t-request-id"⟩
def proxyUrl : HeaderName := ⟨"t-proxy-url"⟩
def redacted : HeaderName := ⟨"t-redacted"⟩
def proveFailedRequest : HeaderName := ⟨"t-prove-failed-req"⟩
def contentType : HeaderName := ⟨"content-type"⟩
def contentLength : HeaderName := ⟨"content-length"⟩
def transferEncoding : HeaderName := ⟨"transfer-encoding"⟩
def connection : HeaderName := ⟨"connection"⟩
def accept : HeaderName := ⟨"accept"⟩
def cacheControl : HeaderName := ⟨"cache-control"⟩
def host : HeaderName := ⟨"host"⟩

end HeaderName

/-! ## Values -/

/-- Whether a byte may stand in a header value. -/
def isValueByte (b : UInt8) : Bool := 0x20 ≤ b && b ≠ 0x7F || b = 0x09

/-- Whether a byte is a blank that may stand beside a value. -/
def isPadding (b : UInt8) : Bool := b = 0x20 || b = 0x09

/-- Takes the blanks off both ends. -/
def trimPadding (bs : Bytes) : Bytes :=
  ((bs.dropWhile isPadding).reverse.dropWhile isPadding).reverse

theorem mem_of_mem_trimPadding {bs : Bytes} {b : UInt8} (h : b ∈ trimPadding bs) : b ∈ bs := by
  unfold trimPadding at h
  rw [List.mem_reverse] at h
  have h := List.mem_reverse.1 ((List.dropWhile_sublist _).mem h)
  exact (List.dropWhile_sublist _).mem h

structure HeaderValue where
  bytes : Bytes
  no_controls : bytes.all isValueByte = true
deriving DecidableEq, Repr

namespace HeaderValue

/-- The value with the given bytes, if there are no controls among them. -/
def ofBytes? (bs : Bytes) : Option HeaderValue :=
  if h : bs.all isValueByte = true then some ⟨bs, h⟩ else none

def ofText? (s : String) : Option HeaderValue := ofBytes? (Utf8.encode s)

/-- The value of a text without controls; the empty value for any other. -/
def ofText (s : String) : HeaderValue := (ofText? s).getD ⟨[], rfl⟩

/-- The text of a value that is visible ASCII, blanks and tabs; other values do not read as text. -/
def text? (v : HeaderValue) : Option String :=
  if v.bytes.all fun b => 0x20 ≤ b && b < 0x7F || b = 0x09 then some (Utf8.ascii v.bytes) else none

/-- The value without the blanks at its ends. -/
def trimmed (v : HeaderValue) : HeaderValue where
  bytes := trimPadding v.bytes
  no_controls := List.all_eq_true.2 fun _ h => List.all_eq_true.1 v.no_controls _ (mem_of_mem_trimPadding h)

end HeaderValue

/-! ## Headers -/

/-- The headers of a message, in order. -/
structure Headers where
  entries : List (HeaderName × HeaderValue) := []
deriving DecidableEq, Repr

namespace Headers

def empty : Headers := {}

/-- The values of a name, in order. -/
def values (h : Headers) (name : HeaderName) : List HeaderValue :=
  h.entries.filterMap fun (n, v) => if n = name then some v else none

def first? (h : Headers) (name : HeaderName) : Option HeaderValue := (h.values name).head?

/-- The first value of a name, if it reads as text. -/
def text? (h : Headers) (name : HeaderName) : Option String := (h.first? name).bind (·.text?)

def has (h : Headers) (name : HeaderName) : Bool := h.entries.any fun (n, _) => n = name

/-- Adds a value after those that its name has. -/
def append (h : Headers) (name : HeaderName) (v : HeaderValue) : Headers :=
  ⟨h.entries ++ [(name, v)]⟩

/-- Takes all values of a name away. -/
def remove (h : Headers) (name : HeaderName) : Headers :=
  ⟨h.entries.filter fun (n, _) => n ≠ name⟩

/-- Sets the only value of a name. -/
def insert (h : Headers) (name : HeaderName) (v : HeaderValue) : Headers :=
  (h.remove name).append name v

/-- Sets the values of every name that `g` has to those in `g`. -/
def merge (h g : Headers) : Headers :=
  ⟨h.entries.filter (fun (n, _) => !g.has n) ++ g.entries⟩

/-- Changes the value of the first entry that has a name. -/
def updateFirst (name : HeaderName) (f : HeaderValue → HeaderValue) :
    List (HeaderName × HeaderValue) → List (HeaderName × HeaderValue)
  | [] => []
  | (n, v) :: rest => if n = name then (n, f v) :: rest else (n, v) :: updateFirst name f rest

/-- Changes the last value of a name, if it has one. -/
def updateLast (h : Headers) (name : HeaderName) (f : HeaderValue → HeaderValue) : Headers :=
  ⟨(updateFirst name f h.entries.reverse).reverse⟩

/-- Headers from pairs, each value added after those before it. -/
def ofList (pairs : List (HeaderName × HeaderValue)) : Headers := ⟨pairs⟩

/-- The names in order of their text, each once. -/
def names (h : Headers) : List HeaderName :=
  let sorted := (h.entries.map (·.1.text)).mergeSort (· ≤ ·)
  sorted.eraseDups.map HeaderName.mk

@[simp] theorem values_empty (n : HeaderName) : empty.values n = [] := rfl

theorem values_append (h : Headers) (n m : HeaderName) (v : HeaderValue) :
    (h.append n v).values m = if n = m then h.values m ++ [v] else h.values m := by
  by_cases hn : n = m <;> simp [append, values, hn]

theorem values_remove (h : Headers) (n m : HeaderName) :
    (h.remove n).values m = if n = m then [] else h.values m := by
  simp only [remove, values, List.filterMap_filter]
  by_cases hn : n = m
  · subst hn; simp
  · simp only [if_neg hn]
    congr 1
    funext ⟨k, w⟩
    by_cases hk : k = m
    · subst hk; simp [Ne.symm hn]
    · simp [hk]

theorem values_insert (h : Headers) (n m : HeaderName) (v : HeaderValue) :
    (h.insert n v).values m = if n = m then [v] else h.values m := by
  by_cases hn : n = m <;> simp [insert, values_append, values_remove, hn]

theorem has_iff {h : Headers} {n : HeaderName} : h.has n = true ↔ h.values n ≠ [] := by
  simp only [has, values, List.any_eq_true, decide_eq_true_eq, ne_eq, List.filterMap_eq_nil_iff]
  constructor
  · rintro ⟨⟨k, v⟩, hmem, rfl⟩ hnone
    simpa using hnone _ hmem
  · intro hnot
    refine Classical.byContradiction fun hno => hnot ?_
    intro ⟨k, v⟩ hmem
    by_cases hk : k = n
    · exact absurd ⟨(k, v), hmem, hk⟩ hno
    · simp [hk]

theorem values_merge (h g : Headers) (n : HeaderName) :
    (h.merge g).values n = if g.values n = [] then h.values n else g.values n := by
  have hsplit : (h.merge g).values n
      = (h.entries.filterMap fun (k, v) => if k = n ∧ g.has n = false then some v else none)
        ++ g.values n := by
    simp only [merge, values, List.filterMap_append, List.filterMap_filter]
    congr 2
    funext ⟨k, v⟩
    by_cases hk : k = n
    · subst hk; cases g.has k <;> simp
    · simp [hk]
  by_cases hg : g.values n = []
  · have hno : g.has n = false := by
      cases hh : g.has n
      · rfl
      · exact absurd hg (has_iff.1 hh)
    rw [hsplit, hg]
    simp only [hno, and_true, List.append_nil, if_true]
    rfl
  · rw [hsplit, if_neg hg]
    simp [has_iff.2 hg]

end Headers
end ProofRelay.Http

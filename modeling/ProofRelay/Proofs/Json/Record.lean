import ProofRelay.Proofs.Json.Objects
import ProofRelay.Proofs.Json.Skipping

/-!
Records are read from objects.  The text of a field may spell its characters in any way (`Field.Spells`), and the
members of an object that carries the fields of a record stand in any order, with members of other names among them
that hold any value (`Carries`, `IsRecord`).  A shape reads all the fields, in the order in which they stand:

    IsRecord shape fields bs → shape.read (bs ++ rest) = .ok (fields, rest)    (read_of_isRecord)

`writeFields` makes such a text (`isRecord_writeFields`).
-/

namespace ProofRelay.Json

/-! ## Counts -/

/-- The number that digits write. -/
def ofDigits (n : Nat) (ds : List Nat) : Nat := ds.foldl (fun n d => n * 10 + d) n

theorem le_ofDigits (n : Nat) (ds : List Nat) : n ≤ ofDigits n ds := by
  induction ds generalizing n with
  | nil => exact Nat.le_refl n
  | cons d ds ih => exact Nat.le_trans (by omega) (ih (n * 10 + d))

theorem takeDigits_of_lt {n : Nat} {ds : List Nat} (h : ofDigits n ds < Number.wholeLimit) :
    takeDigits n ds = (ofDigits n ds, 0) := by
  induction ds generalizing n with
  | nil => rfl
  | cons d ds ih =>
    have hlt : n * 10 + d < Number.wholeLimit := Nat.lt_of_le_of_lt (le_ofDigits _ ds) h
    rw [takeDigits, if_pos hlt]
    exact ih h

/-- A whole number is read from its digits. -/
theorem number_of_span {bs rest : Bytes} {d : Nat} {ds : List Nat} (hspan : spanDigits bs = (d :: ds, rest))
    (hzero : d = 0 → ds = []) (hlt : ofDigits 0 (d :: ds) < Number.wholeLimit) (hrest : EndsNumber rest) :
    number false bs = .ok (.whole (ofDigits 0 (d :: ds)), rest) := by
  have hends : rest.head? ≠ some 0x2E ∧ rest.head? ≠ some 0x65 ∧ rest.head? ≠ some 0x45 :=
    ⟨fun h => (hrest _ h).2.1 rfl, fun h => (hrest _ h).2.2.1 rfl, fun h => (hrest _ h).2.2.2 rfl⟩
  rw [number, hspan]
  simp only []
  split
  · exact absurd ‹d :: ds = []› (List.cons_ne_nil d ds)
  · exact absurd ‹d :: ds = []› (List.cons_ne_nil d ds)
  · next heq =>
    obtain ⟨rfl, rfl⟩ := List.cons.inj heq
    cases hzero rfl
  · rw [takeDigits_of_lt hlt]
    simp only []
    split
    · exact absurd rfl hends.1
    · rw [if_neg (by simp [hends])]
      rfl

theorem toNat_of_isDigit {c : Char} (h : c.isDigit = true) : 0x30 ≤ c.toNat ∧ c.toNat ≤ 0x39 :=
  Char.isDigit_iff_toNat.mp h

theorem digit?_ofNat_toNat {c : Char} (h : c.isDigit = true) :
    digit? (UInt8.ofNat c.toNat) = some (c.toNat - '0'.toNat) := by
  obtain ⟨hl, hu⟩ := toNat_of_isDigit h
  have hnat : (UInt8.ofNat c.toNat).toNat = c.toNat := Utf8.toNat_ofNat (by omega)
  have hrange : 0x30 ≤ UInt8.ofNat c.toNat ∧ UInt8.ofNat c.toNat ≤ 0x39 := by
    rw [UInt8.le_iff_toNat_le, UInt8.le_iff_toNat_le, hnat]
    exact ⟨hl, hu⟩
  rw [digit?, if_pos hrange, hnat]
  rfl

theorem encode_toString (n : Nat) :
    Utf8.encode (toString n) = (Nat.toDigits 10 n).map fun c => UInt8.ofNat c.toNat := by
  have hlist : (toString n).toList = Nat.toDigits 10 n := Nat.toList_repr
  rw [Utf8.encode_of_ascii, hlist]
  rw [hlist]
  intro c hc
  have hdigit := toNat_of_isDigit (Nat.isDigit_of_mem_toDigits (by decide) (by decide) hc)
  omega

theorem areDigits_encode_toString (n : Nat) : AreDigits (Utf8.encode (toString n)) := by
  rw [encode_toString]
  refine ⟨?_, ?_⟩
  · rw [Ne, List.map_eq_nil_iff]
    exact Nat.toDigits_ne_nil
  · intro b hb
    obtain ⟨c, hc, rfl⟩ := List.mem_map.mp hb
    rw [digit?_ofNat_toNat (Nat.isDigit_of_mem_toDigits (by decide) (by decide) hc)]
    rfl

theorem filterMap_digit?_encode_toString (n : Nat) :
    (Utf8.encode (toString n)).filterMap digit? = (Nat.toDigits 10 n).map fun c => c.toNat - '0'.toNat := by
  rw [encode_toString, List.filterMap_map, ← List.filterMap_eq_map]
  exact List.filterMap_congr fun c hc => digit?_ofNat_toNat (Nat.isDigit_of_mem_toDigits (by decide) (by decide) hc)

/-- No zero is written before another digit. -/
theorem toDigits_of_head_zero {n : Nat} {cs : List Char} (h : Nat.toDigits 10 n = '0' :: cs) : cs = [] := by
  induction n using Nat.strongRecOn generalizing cs with
  | ind n ih =>
    by_cases hlt : n < 10
    · rw [Nat.toDigits_of_lt_base hlt] at h
      exact (List.cons.inj h).2.symm
    · rw [Nat.toDigits_of_base_le (by decide) (by omega)] at h
      obtain ⟨c, cs', hcs⟩ := List.exists_cons_of_ne_nil (Nat.toDigits_ne_nil (n := n / 10) (b := 10))
      rw [hcs, List.cons_append] at h
      obtain ⟨rfl, -⟩ := List.cons.inj h
      have hvalue := Nat.ofDigitChars_ten_toDigits (n := n / 10)
      rw [hcs, ih (n / 10) (by omega) hcs] at hvalue
      have hzero : (0 : Nat) = n / 10 := hvalue
      omega

theorem ofDigits_toDigits (n : Nat) : ofDigits 0 ((Nat.toDigits 10 n).map fun c => c.toNat - '0'.toNat) = n := by
  have hvalue := Nat.ofDigitChars_ten_toDigits (n := n)
  rw [Nat.ofDigitChars_eq_foldl] at hvalue
  rw [ofDigits, List.foldl_map]
  simpa only [Nat.mul_comm] using hvalue

/-- **A count is read** from its digits. -/
theorem readCount_append {ws rest : Bytes} (hws : AreBlanks ws) (n : UInt64) (hrest : EndsNumber rest) :
    readCount (ws ++ (Utf8.encode (toString n.toNat) ++ rest)) = .ok (n, rest) := by
  have hdigits := areDigits_encode_toString n.toNat
  have hvalues := filterMap_digit?_encode_toString n.toNat
  obtain ⟨d, ds, hspan, hds⟩ := hdigits.span fun b hb => (hrest b hb).1
  rw [hvalues] at hds
  have hvalue : ofDigits 0 (d :: ds) = n.toNat := by rw [← hds, ofDigits_toDigits]
  have hzero : d = 0 → ds = [] := by
    rintro rfl
    obtain ⟨c, cs, hcs⟩ := List.exists_cons_of_ne_nil (Nat.toDigits_ne_nil (n := n.toNat) (b := 10))
    have hc := toNat_of_isDigit (Nat.isDigit_of_mem_toDigits (by decide) (by decide)
      (hcs ▸ List.mem_cons_self : c ∈ Nat.toDigits 10 n.toNat))
    rw [hcs, List.map_cons] at hds
    obtain ⟨hhead, rfl⟩ := List.cons.inj hds
    have hnat : c.toNat = '0'.toNat := by
      have h48 : '0'.toNat = 0x30 := rfl
      omega
    obtain rfl : c = '0' := Char.toNat_inj.mp hnat
    rw [toDigits_of_head_zero hcs]
    rfl
  have hnumber := number_of_span hspan hzero (by rw [hvalue]; exact n.toNat_lt) hrest
  rw [hvalue] at hnumber
  obtain ⟨b, more, hbytes⟩ := List.exists_cons_of_ne_nil hdigits.some_digit
  have hb := hdigits.isSome_digit? b (hbytes ▸ List.mem_cons_self)
  rw [hbytes] at hnumber ⊢
  have hsign : b ≠ 0x2D := by
    rintro rfl
    cases hb
  rw [readCount, List.cons_append, skipBlanks_append_cons hws (not_isBlank_of_isSome_digit? hb).1]
  simp only []
  rw [if_pos (.inr hb), if_neg hsign, ← List.cons_append, hnumber]
  simp [bind, Except.bind]

/-! ## Fields -/

def Field.kind : Field → FieldKind
  | .text _ => .text
  | .flag _ => .flag
  | .count _ => .count

/-- The bytes that spell a field: the characters of a text may be escaped or not. -/
inductive Field.Spells : Field → Bytes → Prop
  | text {s : String} {bs : Bytes} (writes : Writes s.toList bs) : Spells (.text s) (quoteByte :: (bs ++ [quoteByte]))
  | flag (b : Bool) : Spells (.flag b) (Utf8.encode (if b then "true" else "false"))
  | count (n : UInt64) : Spells (.count n) (Utf8.encode (toString n.toNat))

theorem Field.spells_write (f : Field) : f.Spells (Utf8.encode f.write) := by
  cases f with
  | text s =>
    obtain ⟨bs, hbs, hwrite⟩ := exists_encode_writeText s
    rw [Field.write, hwrite]
    exact .text hbs
  | flag b => exact .flag b
  | count n => exact .count n

theorem readText_append {ws bs : Bytes} {s : String} (hws : AreBlanks ws) (h : Writes s.toList bs) (rest : Bytes) :
    readText (ws ++ quoteByte :: (bs ++ quoteByte :: rest)) = .ok (s, rest) := by
  rw [readText, skipBlanks_append_cons hws (by decide)]
  simp only []
  rw [if_pos (by decide), text_of_writes h]

theorem readFlag_append {ws : Bytes} (hws : AreBlanks ws) (b : Bool) (rest : Bytes) :
    readFlag (ws ++ (Utf8.encode (if b then "true" else "false") ++ rest)) = .ok (b, rest) := by
  cases b
  · rw [if_neg (by decide), encode_false, readFlag, List.cons_append, skipBlanks_append_cons hws (by decide)]
    rfl
  · rw [if_pos rfl, encode_true, readFlag, List.cons_append, skipBlanks_append_cons hws (by decide)]
    rfl

/-- **A field is read** from any bytes that spell it. -/
theorem readField_append {ws bs rest : Bytes} {f : Field} (hws : AreBlanks ws) (h : f.Spells bs)
    (hrest : EndsNumber rest) : readField f.kind (ws ++ (bs ++ rest)) = .ok (f, rest) := by
  cases h with
  | text writes =>
    rw [List.cons_append, List.append_assoc]
    show (readText _).map _ = _
    rw [List.singleton_append, readText_append hws writes]
    rfl
  | flag b =>
    show (readFlag _).map _ = _
    rw [readFlag_append hws]
    rfl
  | count n =>
    show (readCount _).map _ = _
    rw [readCount_append hws n hrest]
    rfl

/-! ## Records -/

/-- Members carry fields of a shape, in this order: each member spells the next field, or has another name and any
value. -/
inductive Carries (shape : Shape) : List Member → Fields → Prop
  | nil : Carries shape [] []
  | field {name : String} {f : Field} {v : Bytes} {ms : List Member} {fields : Fields}
      (known : shape.lookup name = some f.kind) (spelled : f.Spells v) (later : Carries shape ms fields) :
      Carries shape (⟨name, v⟩ :: ms) ((name, f) :: fields)
  | other {name : String} {v : Bytes} {ms : List Member} {fields : Fields} (unknown : shape.lookup name = none)
      (value : IsValue v) (later : Carries shape ms fields) : Carries shape (⟨name, v⟩ :: ms) fields

/-- **A shape takes in the fields** that members carry. -/
theorem readsAll_of_carries {shape : Shape} {ms : List Member} {fields : Fields} (h : Carries shape ms fields)
    {found : Fields} (hnodup : ((found ++ fields).map Prod.fst).Nodup) :
    ReadsAll shape.entry ms found (found ++ fields) := by
  induction h generalizing found with
  | nil =>
    rw [List.append_nil]
    exact .nil
  | @field name f v ms fields known spelled later ih =>
    have hfirst : Reads shape.entry ⟨name, v⟩ found (found ++ [(name, f)]) := by
      intro ws ws' rest hws hws' hrest
      have habsent : found.lookup name = none := by
        rw [List.lookup_eq_none_iff]
        intro entry hentry
        rw [List.map_append, List.map_cons] at hnodup
        have hne := (List.nodup_append.mp hnodup).2.2 entry.1 (List.mem_map_of_mem hentry) name List.mem_cons_self
        simpa using fun heq => hne heq.symm
      rw [Shape.entry, known]
      simp only []
      rw [habsent, if_neg (by decide), colon_append hws]
      simp only [bind, Except.bind]
      rw [readField_append hws' spelled hrest]
    rw [List.append_cons] at hnodup ⊢
    exact .cons hfirst (ih hnodup)
  | @other name v ms fields unknown value later ih =>
    have hfirst : Reads shape.entry ⟨name, v⟩ found found := by
      intro ws ws' rest hws hws' hrest
      have hskip := skipValue_of_isValue hws' value hrest
      rw [List.append_assoc] at hskip
      rw [Shape.entry, unknown]
      simp only []
      rw [colon_append hws]
      simp only [bind, Except.bind]
      rw [hskip]
    exact .cons hfirst (ih hnodup)

/-- The bytes of an object that carries fields, with the blanks before it. -/
def IsRecord (shape : Shape) (fields : Fields) (bs : Bytes) : Prop :=
  ∃ ws ms body, AreBlanks ws ∧ Carries shape ms fields ∧ WritesMembers .none ms body ∧ bs = ws ++ 0x7B :: body

/-- **A record is read** from an object that carries its fields. -/
theorem read_of_isRecord {shape : Shape} {fields : Fields} {bs : Bytes} (h : IsRecord shape fields bs)
    (hnodup : (fields.map Prod.fst).Nodup) (rest : Bytes) : shape.read (bs ++ rest) = .ok (fields, rest) := by
  obtain ⟨ws, ms, body, hws, hms, hbody, rfl⟩ := h
  have hlength := length_le_of_writesMembers hbody
  have hentries := entries_of_writesMembers hbody (@readsAll_of_carries shape ms fields hms [] hnodup)
    (show ms.length < (body ++ rest).length + 1 by rw [List.length_append]; omega) rest
  rw [List.append_assoc, List.cons_append, Shape.read, skipBlanks_append_cons hws (by decide)]
  exact hentries

/-! ## Writing -/

/-- The members that are written for fields. -/
def members (fields : Fields) : List Member := fields.map fun (name, f) => ⟨name, Utf8.encode f.write⟩

theorem carries_members {shape : Shape} {fields : Fields}
    (h : ∀ entry ∈ fields, shape.lookup entry.1 = some entry.2.kind) : Carries shape (members fields) fields := by
  induction fields with
  | nil => exact .nil
  | cons entry fields ih =>
    exact .field (h entry List.mem_cons_self) entry.2.spells_write
      (ih fun e he => h e (List.mem_cons_of_mem _ he))

theorem encode_intercalate (s : String) (ss : List String) :
    Utf8.encode (",".intercalate (s :: ss)) =
      Utf8.encode s ++ ss.flatMap fun t => commaByte :: Utf8.encode t := by
  induction ss generalizing s with
  | nil => simp
  | cons t ss ih =>
    rw [String.intercalate_cons_cons, Utf8.encode_append, Utf8.encode_append, ih, List.flatMap_cons, List.append_assoc]
    rfl

theorem encode_member (name : String) (f : Field) :
    Utf8.encode (writeText name ++ ":" ++ f.write) = Member.written ⟨name, Utf8.encode f.write⟩ := by
  rw [Utf8.encode_append, Utf8.encode_append, List.append_assoc]
  rfl

/-- **What is written for a record** is an object that carries its fields. -/
theorem isRecord_writeFields {shape : Shape} {fields : Fields} (hne : fields ≠ [])
    (h : ∀ entry ∈ fields, shape.lookup entry.1 = some entry.2.kind) :
    IsRecord shape fields (Utf8.encode (writeFields fields)) := by
  obtain ⟨⟨name, f⟩, more, rfl⟩ := List.exists_cons_of_ne_nil hne
  refine ⟨[], _, _, .nil, carries_members h, writesMembers_written _ (members more), ?_⟩
  have hmore : (more.map fun entry => writeText entry.1 ++ ":" ++ entry.2.write).flatMap
      (fun t => commaByte :: Utf8.encode t) = (members more).flatMap fun m => commaByte :: m.written := by
    rw [members, List.flatMap_map, List.flatMap_map]
    simp only [encode_member]
  have hopening : Utf8.encode "\x7b" = [0x7B] := by decide +kernel
  have hclosing : Utf8.encode "\x7d" = [braceByte] := by decide +kernel
  rw [writeFields, Utf8.encode_append, Utf8.encode_append, List.map_cons, encode_intercalate, hmore, encode_member,
    hopening, hclosing, writtenBehind, List.nil_append, List.append_assoc, List.append_assoc, List.singleton_append]

end ProofRelay.Json

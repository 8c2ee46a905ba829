import ProofRelay.Proofs.Json.Tokens

/-!
Objects are read entry by entry.  The text of an object is told by its members in order, with the bytes of their
values and with blanks between any two tokens (`WritesMembers`).  Where a reader of entries takes each member from
what was found before it to what is found after it (`ReadsAll`), the object is read to its end:

    WritesMembers .none ms bs → ReadsAll entry ms x y → entries entry steps .none x (bs ++ rest) = .ok (y, rest)
                                                                           (entries_of_writesMembers)

Texts that are written have no blanks; their members are those given (`writesMembers_written`).
-/

namespace ProofRelay.Json

/-- The byte that ends an object. -/
def braceByte : UInt8 := 0x7D

/-- An entry of an object: its key and the bytes of its value. -/
structure Member where
  key : String
  value : Bytes

/-- The bytes of a member. -/
inductive WritesMember (m : Member) : Bytes → Prop
  | parts {k ws ws' : Bytes} (key : Writes m.key.toList k) (blanks : AreBlanks ws) (blanks' : AreBlanks ws') :
      WritesMember m (quoteByte :: (k ++ quoteByte :: (ws ++ colonByte :: (ws' ++ m.value))))

/-- What stands between a member and the one before it. -/
inductive Separates : Separator → Bytes → Prop
  | none : Separates .none []
  | comma {ws : Bytes} (blanks : AreBlanks ws) : Separates .comma (ws ++ [commaByte])

/-- The bytes of the members of an object from a point on, up to and with the closing brace. -/
inductive WritesMembers : Separator → List Member → Bytes → Prop
  | closing {separator : Separator} {ws : Bytes} (blanks : AreBlanks ws) :
      WritesMembers separator [] (ws ++ [braceByte])
  | member {separator : Separator} {m : Member} {ms : List Member} {lead ws e bs : Bytes}
      (separates : Separates separator lead) (blanks : AreBlanks ws) (first : WritesMember m e)
      (later : WritesMembers .comma ms bs) : WritesMembers separator (m :: ms) (lead ++ (ws ++ (e ++ bs)))

/-! ## Reading -/

theorem colon_append {ws : Bytes} (hws : AreBlanks ws) (rest : Bytes) : colon (ws ++ colonByte :: rest) = .ok rest := by
  rw [colon, skipBlanks_append_cons hws (by decide)]
  rfl

/-- What follows a member does not continue a number. -/
theorem endsNumber_of_writesMembers {ms : List Member} {bs : Bytes} (h : WritesMembers .comma ms bs) (rest : Bytes) :
    EndsNumber (bs ++ rest) := by
  cases h with
  | closing blanks =>
    rw [List.append_assoc]
    exact (endsNumber_cons (by decide) rest).append blanks
  | member separates =>
    cases separates with
    | comma blanks =>
      rw [List.append_assoc, List.append_assoc]
      exact (endsNumber_cons (by decide) _).append blanks

theorem length_le_of_writesMembers {separator : Separator} {ms : List Member} {bs : Bytes}
    (h : WritesMembers separator ms bs) : ms.length ≤ bs.length := by
  induction h with
  | closing => exact Nat.zero_le _
  | member separates blanks first later ih =>
    obtain ⟨-, -, -⟩ := first
    simp only [List.length_append, List.length_cons]
    omega

theorem nextItem_closing {closing : UInt8} (hclosing : isBlank closing = false) (separator : Separator) {ws : Bytes}
    (hws : AreBlanks ws) (rest : Bytes) : nextItem closing separator (ws ++ closing :: rest) = .ok none := by
  rw [nextItem, skipBlanks_append hws, skipBlanks_cons hclosing]
  simp

theorem nextItem_separates {closing b : UInt8} (hcomma : closing ≠ commaByte) (hb : isBlank b = false)
    (hne : b ≠ closing) {separator : Separator} {lead ws : Bytes} (hlead : Separates separator lead)
    (hws : AreBlanks ws) (rest : Bytes) :
    nextItem closing separator (lead ++ (ws ++ b :: rest)) = .ok (some (b :: rest)) := by
  rw [nextItem]
  cases hlead with
  | none =>
    rw [List.nil_append, skipBlanks_append hws, skipBlanks_cons hb]
    simp [hne]
  | comma blanks =>
    have hmark : (0x2C : UInt8) ≠ closing := hcomma.symm
    rw [List.append_assoc, skipBlanks_append blanks, List.cons_append, List.nil_append,
      skipBlanks_cons (by decide), commaByte]
    simp only []
    rw [if_neg hmark, if_neg (by decide), skipBlanks_append hws, skipBlanks_cons hb]
    simp [hne]

section
variable {σ : Type} {entry : String → σ → Reader σ}

theorem entries_closing (n : Nat) (separator : Separator) (found : σ) {ws : Bytes} (hws : AreBlanks ws) (rest : Bytes) :
    entries entry (n + 1) separator found (ws ++ braceByte :: rest) = .ok (found, rest) := by
  have hnext : nextItem 0x7D separator (ws ++ braceByte :: rest) = .ok none :=
    nextItem_closing (by decide) separator hws rest
  rw [entries, hnext]
  simp only [bind, Except.bind]
  rw [skipBlanks_append hws, skipBlanks_cons (by decide)]
  rfl

theorem entries_key (n : Nat) {separator : Separator} (found : σ) {lead ws k : Bytes} {key : String}
    (hlead : Separates separator lead) (hws : AreBlanks ws) (hkey : Writes key.toList k) (rest : Bytes) :
    entries entry (n + 1) separator found (lead ++ (ws ++ quoteByte :: (k ++ quoteByte :: rest))) =
      (entry key found rest >>= fun read => entries entry n .comma read.1 read.2) := by
  have hnext : nextItem 0x7D separator (lead ++ (ws ++ quoteByte :: (k ++ quoteByte :: rest))) =
      .ok (some (0x22 :: (k ++ quoteByte :: rest))) :=
    nextItem_separates (by decide) (by decide) (by decide) hlead hws _
  rw [entries, hnext]
  simp only [bind, Except.bind]
  rw [text_of_writes hkey]

/-- A reader of entries takes a member from what was found to what is found then. -/
def Reads (entry : String → σ → Reader σ) (m : Member) (found found' : σ) : Prop :=
  ∀ ws ws' rest, AreBlanks ws → AreBlanks ws' → EndsNumber rest →
    entry m.key found (ws ++ colonByte :: (ws' ++ (m.value ++ rest))) = .ok (found', rest)

/-- A reader of entries takes members, one after another, from what was found to what is found then. -/
inductive ReadsAll (entry : String → σ → Reader σ) : List Member → σ → σ → Prop
  | nil {found : σ} : ReadsAll entry [] found found
  | cons {m : Member} {ms : List Member} {found found₁ found₂ : σ} (first : Reads entry m found found₁)
      (later : ReadsAll entry ms found₁ found₂) : ReadsAll entry (m :: ms) found found₂

/-- **The members of an object are read**, up to its end. -/
theorem entries_of_writesMembers {separator : Separator} {ms : List Member} {bs : Bytes} {found found' : σ}
    (hbs : WritesMembers separator ms bs) (hms : ReadsAll entry ms found found') {steps : Nat}
    (hsteps : ms.length < steps) (rest : Bytes) :
    entries entry steps separator found (bs ++ rest) = .ok (found', rest) := by
  -- along the members: one step for each, and one more for the closing brace
  induction hbs generalizing found steps with
  | closing blanks =>
    obtain ⟨n, rfl⟩ := Nat.exists_eq_add_of_lt hsteps
    cases hms
    rw [List.append_assoc]
    exact entries_closing _ _ _ blanks rest
  | @member separator m ms lead ws e bs separates blanks first later ih =>
    obtain ⟨n, rfl⟩ := Nat.exists_eq_add_of_lt hsteps
    cases hms with
    | @cons _ _ _ found₁ _ hfirst hlater =>
    obtain ⟨key, blanks₁, blanks₂⟩ := first
    next k ws₁ ws₂ =>
    have hentry := hfirst ws₁ ws₂ (bs ++ rest) blanks₁ blanks₂ (endsNumber_of_writesMembers later rest)
    simp only [List.append_assoc, List.cons_append]
    rw [entries_key _ _ separates blanks key, hentry]
    exact ih hlater (by rw [List.length_cons]; omega)

end

/-! ## Writing -/

/-- The bytes of a member without blanks. -/
def Member.written (m : Member) : Bytes := Utf8.encode (writeText m.key) ++ colonByte :: m.value

theorem Member.writes_written (m : Member) : WritesMember m m.written := by
  obtain ⟨k, hk, hkey⟩ := exists_encode_writeText m.key
  have h : WritesMember m (quoteByte :: (k ++ quoteByte :: ([] ++ colonByte :: ([] ++ m.value)))) :=
    .parts hk .nil .nil
  rw [Member.written, hkey, List.cons_append, List.cons_append, List.append_assoc]
  exact h

/-- The members after a first one, each behind a comma, and the brace that ends them. -/
def writtenBehind (ms : List Member) : Bytes := ms.flatMap (fun m => commaByte :: m.written) ++ [braceByte]

theorem writesMembers_writtenBehind (ms : List Member) : WritesMembers .comma ms (writtenBehind ms) := by
  induction ms with
  | nil => exact .closing .nil
  | cons m ms ih =>
    have h := WritesMembers.member (.comma .nil) .nil m.writes_written ih
    simpa [writtenBehind] using h

/-- **Members that are written** without blanks. -/
theorem writesMembers_written (m : Member) (ms : List Member) :
    WritesMembers .none (m :: ms) (m.written ++ writtenBehind ms) := by
  have h := WritesMembers.member .none .nil m.writes_written (writesMembers_writtenBehind ms)
  simpa only [List.nil_append] using h

/-! ## Objects of texts -/

/-- The entries of an object whose values are texts. -/
def textEntries (es : List (String × String)) : List (String × Value) := es.map fun e => (e.1, .text e.2)

/-- The member that is written for a text. -/
def textMember (e : String × String) : Member := ⟨e.1, Utf8.encode (writeText e.2)⟩

/-- The text of an entry, behind others. -/
theorem encode_writeAfter_text (out : String) (e : String × String) :
    Utf8.encode ((Value.text e.2).writeAfter ((out ++ writeText e.1).push ':')) =
      Utf8.encode out ++ (textMember e).written := by
  have hcolon : Utf8.encode (String.singleton ':') = [colonByte] := by decide +kernel
  rw [Value.writeAfter, String.push_eq_append, Utf8.encode_append, Utf8.encode_append, Utf8.encode_append, hcolon,
    List.append_assoc, List.append_assoc, List.singleton_append, textMember, Member.written]

theorem encode_writeEntriesAfter (e : String × String) (es : List (String × String)) (out : String) :
    Utf8.encode (Value.writeEntriesAfter out (textEntries (e :: es))) ++ [braceByte] =
      Utf8.encode out ++ ((textMember e).written ++ writtenBehind (es.map textMember)) := by
  induction es generalizing e out with
  | nil =>
    rw [textEntries, List.map_cons, List.map_nil, Value.writeEntriesAfter, encode_writeAfter_text, List.append_assoc]
    rfl
  | cons e' es ih =>
    have hnext := ih e' (((Value.text e.2).writeAfter ((out ++ writeText e.1).push ':')).push ',')
    rw [textEntries, List.map_cons, List.map_cons, Value.writeEntriesAfter_cons_cons]
    have hcomma : Utf8.encode (String.singleton ',') = [commaByte] := by decide +kernel
    refine hnext.trans ?_
    rw [String.push_eq_append, Utf8.encode_append, encode_writeAfter_text, hcomma]
    simp only [writtenBehind, List.map_cons, List.flatMap_cons, List.append_assoc, List.cons_append, List.nil_append]

theorem encode_write_object (e : String × String) (es : List (String × String)) :
    Utf8.encode (Value.object (textEntries (e :: es))).write =
      0x7B :: ((textMember e).written ++ writtenBehind (es.map textMember)) := by
  have hopening : Utf8.encode ("".push '\x7b') = [0x7B] := by decide +kernel
  have hclosing : Utf8.encode (String.singleton '\x7d') = [braceByte] := by decide +kernel
  rw [Value.write, Value.writeAfter, String.push_eq_append, Utf8.encode_append, hclosing, encode_writeEntriesAfter,
    hopening, List.singleton_append]

theorem valueWith_text {inner : Option (Reader Value)} {ws bs : Bytes} {s : String} (hws : AreBlanks ws)
    (h : Writes s.toList bs) (rest : Bytes) :
    valueWith inner (ws ++ quoteByte :: (bs ++ quoteByte :: rest)) = .ok (.text s, rest) := by
  rw [valueWith, skipBlanks_append_cons hws (by decide)]
  show (text (bs ++ quoteByte :: rest) >>= fun read => .ok (Value.text read.1, read.2)) = _
  rw [text_of_writes h]
  rfl

/-- The reader of the entries of an object that is read as a value. -/
def valueEntry (inner : Reader Value) (key : String) (found : List (String × Value)) :
    Reader (List (String × Value)) := fun bs => do
  let (v, rest) ← inner (← colon bs)
  .ok (insertEntry key v found, rest)

theorem readsAll_textMember (inner : Option (Reader Value)) (es : List (String × String))
    (found : List (String × Value)) :
    ReadsAll (valueEntry (valueWith inner)) (es.map textMember) found
      ((textEntries es).foldl (fun found (k, v) => insertEntry k v found) found) := by
  induction es generalizing found with
  | nil => exact .nil
  | cons e es ih =>
    refine .cons (fun ws ws' rest hws hws' _ => ?_) (ih (insertEntry e.1 (.text e.2) found))
    obtain ⟨bs, hbs, hwrite⟩ := exists_encode_writeText e.2
    have hvalue : valueWith inner (ws' ++ ((textMember e).value ++ rest)) = .ok (.text e.2, rest) := by
      rw [textMember, hwrite, List.cons_append, List.cons_append, List.append_assoc, List.singleton_append]
      exact valueWith_text hws' hbs rest
    rw [valueEntry, colon_append hws]
    simp only [bind, Except.bind]
    rw [hvalue]
    rfl

theorem valueWith_object (inner : Reader Value) (bs : Bytes) :
    valueWith (some inner) (0x7B :: bs) =
      (entries (valueEntry inner) (bs.length + 1) .none [] bs >>= fun read => .ok (.object read.1, read.2)) := rfl

/-- **An object of texts** is read from what is written for it. -/
theorem parse_write_object (e : String × String) (es : List (String × String)) :
    Value.parse (Utf8.encode (Value.object (textEntries (e :: es))).write) =
      .ok (.ofEntries (textEntries (e :: es))) := by
  have hwritten := writesMembers_written (textMember e) (es.map textMember)
  have hentries := entries_of_writesMembers hwritten (readsAll_textMember (some (valueWithin 125)) (e :: es) [])
    (Nat.lt_succ_of_le (length_le_of_writesMembers hwritten)) []
  have hvalue : value = valueWith (some (valueWith (some (valueWithin 125)))) := by
    rw [value, show nestingLimit = 125 + 1 + 1 from rfl, valueWithin, valueWithin]
  rw [List.append_nil] at hentries
  rw [encode_write_object, Value.parse, document, hvalue, valueWith_object, hentries]
  rfl

end ProofRelay.Json

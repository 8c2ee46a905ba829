import ProofRelay.Json.Record
import ProofRelay.Proofs.Text.Lossy

/-!
JSON texts are read as what they write.  Inside the quotes each character is written by its own bytes or by an
escape, and one beyond U+FFFF may be escaped as two units (`WritesChar`).  A reader gives the characters whatever
was chosen (`text_of_writes`), and `writeText` makes one of the choices:

    Writes s.toList bs → text (bs ++ quote :: rest) = .ok (s, rest)                          (text_of_writes)
    encode (writeText s) = quote :: bs ++ [quote]  for some bs with Writes s.toList bs      (exists_writeText)
-/

namespace ProofRelay.Json

/-- The byte of a quote. -/
def quoteByte : UInt8 := 0x22

/-! ## Spellings -/

/-- The bytes that write a character inside quotes. -/
inductive WritesChar (c : Char) : Bytes → Prop
  /-- The character stands for itself. -/
  | plain (not_control : 0x20 ≤ c.toNat) (not_quote : c ≠ '"') (not_escape : c ≠ '\\') :
      WritesChar c (String.utf8EncodeChar c)
  | short {e b : UInt8} (escape : shortEscape? e = some b) (code : c.toNat = b.toNat) : WritesChar c [0x5C, e]
  /-- Four hexadecimal digits give its number. -/
  | unit {u₁ u₂ u₃ u₄ : UInt8} (code : hexUnit? u₁ u₂ u₃ u₄ = some c.toNat) :
      WritesChar c [0x5C, 0x75, u₁, u₂, u₃, u₄]
  /-- Two units give its number, ten bits each. -/
  | pair {u₁ u₂ u₃ u₄ v₁ v₂ v₃ v₄ : UInt8} {high low : Nat} (first : hexUnit? u₁ u₂ u₃ u₄ = some high)
      (second : hexUnit? v₁ v₂ v₃ v₄ = some low) (is_high : 0xD800 ≤ high ∧ high < 0xDC00)
      (is_low : 0xDC00 ≤ low ∧ low ≤ 0xDFFF)
      (code : c.toNat = 0x10000 + (high - 0xD800) * 1024 + (low - 0xDC00)) :
      WritesChar c [0x5C, 0x75, u₁, u₂, u₃, u₄, 0x5C, 0x75, v₁, v₂, v₃, v₄]

/-- The bytes that write characters inside quotes. -/
inductive Writes : List Char → Bytes → Prop
  | nil : Writes [] []
  | cons {c : Char} {cs : List Char} {as bs : Bytes} (first : WritesChar c as) (later : Writes cs bs) :
      Writes (c :: cs) (as ++ bs)

/-! ## Reading -/

/-- A byte that stands for itself inside quotes. -/
def IsPlain (b : UInt8) : Prop := b ≠ 0x22 ∧ b ≠ 0x5C ∧ 0x20 ≤ b

theorem textBytes_of_plain {bs : Bytes} (h : ∀ b ∈ bs, IsPlain b) (read rest : Bytes) :
    textBytes read (bs ++ rest) = textBytes (bs.reverse ++ read) rest := by
  induction bs generalizing read with
  | nil => rfl
  | cons b bs ih =>
    obtain ⟨hquote, hescape, hcontrol⟩ := h b List.mem_cons_self
    rw [List.cons_append, textBytes.eq_def]
    simp only []
    rw [if_neg hquote, if_neg hescape, if_neg (UInt8.not_lt.mpr hcontrol),
      ih (fun c hc => h c (List.mem_cons_of_mem _ hc)), List.reverse_cons, List.append_assoc]
    rfl

/-- The bytes of a character that stands for itself do so, too: a byte below 0x80 is the character. -/
theorem isPlain_of_mem_encodeChar {c : Char} (hcontrol : 0x20 ≤ c.toNat) (hquote : c ≠ '"') (hescape : c ≠ '\\')
    {b : UInt8} (hb : b ∈ String.utf8EncodeChar c) : IsPlain b := by
  by_cases hlt : b.toNat < 0x80
  · have hmem : b ∈ Utf8.encode (String.singleton c) := by
      rw [Utf8.encode_singleton]
      exact hb
    have hc : Char.ofNat b.toNat = c := by simpa using Utf8.mem_of_mem_encode hmem hlt
    have hnat : c.toNat = b.toNat := by
      rw [← hc]
      exact Utf8.toNat_val_ofNat (.inl (by omega))
    refine ⟨?_, ?_, UInt8.le_iff_toNat_le.mpr (hnat ▸ hcontrol)⟩
    · rintro rfl
      exact hquote hc.symm
    · rintro rfl
      exact hescape hc.symm
  · refine ⟨?_, ?_, UInt8.le_iff_toNat_le.mpr ?_⟩
    · rintro rfl
      exact hlt (by decide)
    · rintro rfl
      exact hlt (by decide)
    · exact Nat.le_trans (by decide) (Nat.le_of_not_lt hlt)

theorem toNat_lt_or (c : Char) : c.toNat < 0xD800 ∨ 0xDFFF < c.toNat ∧ c.toNat < 0x110000 := c.valid

theorem reversedBytes_toNat (c : Char) : reversedBytes c.toNat = (String.utf8EncodeChar c).reverse := by
  rw [reversedBytes, Char.ofNat_toNat]

theorem utf8EncodeChar_of_toNat {c : Char} {b : UInt8} (hb : b.toNat < 0x80) (h : c.toNat = b.toNat) :
    String.utf8EncodeChar c = [b] := by
  rw [← Char.ofNat_toNat c, h, Utf8.utf8EncodeChar_one hb]

theorem lt_of_shortEscape? {e b : UInt8} (h : shortEscape? e = some b) : e ≠ 0x75 ∧ b.toNat < 0x80 := by
  refine ⟨?_, ?_⟩
  · rintro rfl
    cases h
  · unfold shortEscape? at h
    split at h <;> first | (cases h; decide) | cases h

/-- **A character is read** from any bytes that write it. -/
theorem textBytes_of_writesChar {c : Char} {bs : Bytes} (h : WritesChar c bs) (read rest : Bytes) :
    textBytes read (bs ++ rest) = textBytes ((String.utf8EncodeChar c).reverse ++ read) rest := by
  cases h with
  | plain not_control not_quote not_escape =>
    exact textBytes_of_plain (fun b hb => isPlain_of_mem_encodeChar not_control not_quote not_escape hb) read rest
  | @short e b escape code =>
    obtain ⟨hne, hlt⟩ := lt_of_shortEscape? escape
    rw [utf8EncodeChar_of_toNat hlt code, List.cons_append, List.cons_append, List.nil_append, textBytes.eq_def]
    simp only []
    rw [if_neg (by decide), if_pos trivial, escape]
    rfl
  | unit code =>
    rw [textBytes.eq_def]
    simp only [List.cons_append, List.nil_append]
    rw [if_neg (by decide), if_pos trivial, code]
    simp only []
    rw [if_pos ((toNat_lt_or c).imp_right And.left), reversedBytes_toNat]
  | pair first second is_high is_low code =>
    rw [textBytes.eq_def]
    simp only [List.cons_append, List.nil_append]
    rw [if_neg (by decide), if_pos trivial, first]
    simp only []
    rw [if_neg (by omega), if_neg (by omega), second]
    simp only []
    rw [if_neg (by omega), ← code, reversedBytes_toNat]

/-- **The bytes of a text are read** from any bytes that write its characters. -/
theorem textBytes_of_writes {cs : List Char} {bs : Bytes} (h : Writes cs bs) (read rest : Bytes) :
    textBytes read (bs ++ quoteByte :: rest) = .ok (read.reverse ++ cs.flatMap String.utf8EncodeChar, rest) := by
  induction h generalizing read with
  | nil =>
    rw [List.nil_append, textBytes.eq_def]
    simp [quoteByte]
  | cons first later ih =>
    rw [List.append_assoc, textBytes_of_writesChar first, ih, List.reverse_append, List.reverse_reverse,
      List.flatMap_cons, List.append_assoc]

theorem decode?_encode (s : String) : Utf8.decode? (Utf8.encode s) = some s := by
  simp [Utf8.decode?]

/-- **A text is read** from any bytes that write its characters. -/
theorem text_of_writes {s : String} {bs : Bytes} (h : Writes s.toList bs) (rest : Bytes) :
    text (bs ++ quoteByte :: rest) = .ok (s, rest) := by
  have hbytes := textBytes_of_writes h [] rest
  have hdecode : Utf8.decode? (s.toList.flatMap String.utf8EncodeChar) = some s := decode?_encode s
  rw [List.reverse_nil, List.nil_append] at hbytes
  rw [text, hbytes]
  simp only [bind, Except.bind]
  rw [hdecode]

/-! ## Writing -/

/-- A control character is escaped as a unit. -/
theorem hexUnit?_hexByte : ∀ n < 0x20, (match (hexByte n).flatMap String.utf8EncodeChar with
    | [a, b] => hexUnit? 0x30 0x30 a b == some n
    | _ => false) = true := by
  decide +kernel

/-- What is written for a character writes it. -/
theorem writesChar_escapeChar (c : Char) : WritesChar c ((escapeChar c).flatMap String.utf8EncodeChar) := by
  have hescape : ∀ e : Char, e.toNat < 0x80 →
      ['\\', e].flatMap String.utf8EncodeChar = [0x5C, UInt8.ofNat e.toNat] := by
    intro e he
    have hsecond : String.utf8EncodeChar e = [UInt8.ofNat e.toNat] :=
      utf8EncodeChar_of_toNat (by rwa [Utf8.toNat_ofNat (by omega)]) (Utf8.toNat_ofNat (by omega)).symm
    rw [List.flatMap_cons, List.flatMap_cons, List.flatMap_nil, hsecond]
    rfl
  unfold escapeChar
  split
  · rw [hescape _ (by decide)]
    exact .short (b := 0x22) (by decide) (by decide)
  · rw [hescape _ (by decide)]
    exact .short (b := 0x5C) (by decide) (by decide)
  · rw [hescape _ (by decide)]
    exact .short (b := 0x08) (by decide) (by decide)
  · rw [hescape _ (by decide)]
    exact .short (b := 0x0C) (by decide) (by decide)
  · rw [hescape _ (by decide)]
    exact .short (b := 0x0A) (by decide) (by decide)
  · rw [hescape _ (by decide)]
    exact .short (b := 0x0D) (by decide) (by decide)
  · rw [hescape _ (by decide)]
    exact .short (b := 0x09) (by decide) (by decide)
  · next hquote hbackslash _ _ _ _ _ =>
    split
    · next hcontrol =>
      have hunit := hexUnit?_hexByte c.toNat hcontrol
      rw [List.flatMap_cons, List.flatMap_cons, List.flatMap_cons, List.flatMap_cons]
      split at hunit
      · next a b heq =>
        rw [heq]
        exact .unit (beq_iff_eq.mp hunit)
      · cases hunit
    · next hcontrol =>
      rw [List.flatMap_cons, List.flatMap_nil, List.append_nil]
      exact .plain (Nat.le_of_not_lt hcontrol) hquote hbackslash

theorem writes_escaped (cs : List Char) : Writes cs ((cs.flatMap escapeChar).flatMap String.utf8EncodeChar) := by
  induction cs with
  | nil => exact .nil
  | cons c cs ih =>
    rw [List.flatMap_cons, List.flatMap_append]
    exact .cons (writesChar_escapeChar c) ih

/-- **What is written for a text** writes its characters between quotes. -/
theorem exists_encode_writeText (s : String) :
    ∃ bs, Writes s.toList bs ∧ Utf8.encode (writeText s) = quoteByte :: bs ++ [quoteByte] := by
  refine ⟨_, writes_escaped s.toList, ?_⟩
  rw [writeText, Utf8.encode, String.toList_ofList, List.flatMap_append, List.flatMap_cons]
  rfl

end ProofRelay.Json

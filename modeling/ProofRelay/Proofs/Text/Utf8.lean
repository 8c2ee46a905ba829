import ProofRelay.Text.Utf8

/-!
Text that is written is read again.  The bytes of a character take a reading that is between two
characters to the next such point, with this character added (`pushAll_utf8EncodeChar`), so

    decodeLossy (encode s) = s                                             (decodeLossy_encode)

A text of ASCII characters has one byte for each of them, and reads as ASCII as well.
-/

namespace ProofRelay.Utf8

namespace Reading

variable {r : Reading} {b : UInt8}

/-! ## Lead bytes -/

theorem lead_one (h : b.toNat < 0x80) : r.lead b = r.emit (Char.ofNat b.toNat) := if_pos h

theorem lead_two (hl : 0xC2 ≤ b.toNat) (hu : b.toNat < 0xE0) :
    r.lead b = { r with started := some ⟨b.toNat - 0xC0, 1, 0x80, 0xBF⟩ } := by
  unfold lead
  simp only []
  rw [if_neg (by omega), if_neg (by omega), if_pos hu]

/-- The byte after the first of three may not make an overlong form or a surrogate. -/
theorem lead_three (hl : 0xE0 ≤ b.toNat) (hu : b.toNat < 0xF0) :
    r.lead b = { r with started := some ⟨b.toNat - 0xE0, 2, if b.toNat = 0xE0 then 0xA0 else 0x80,
      if b.toNat = 0xED then 0x9F else 0xBF⟩ } := by
  unfold lead
  simp only []
  rw [if_neg (by omega), if_neg (by omega), if_neg (by omega)]
  by_cases h0 : b.toNat = 0xE0
  · simp [h0]
  · by_cases h1 : b.toNat = 0xED
    · simp [h1]
    · simp [h0, h1, hu]

/-- The byte after the first of four may not make an overlong form or a number past the last character. -/
theorem lead_four (hl : 0xF0 ≤ b.toNat) (hu : b.toNat ≤ 0xF4) :
    r.lead b = { r with started := some ⟨b.toNat - 0xF0, 3, if b.toNat = 0xF0 then 0x90 else 0x80,
      if b.toNat = 0xF4 then 0x8F else 0xBF⟩ } := by
  unfold lead
  simp only []
  rw [if_neg (by omega), if_neg (by omega), if_neg (by omega), if_neg (by omega), if_neg (by omega),
    if_neg (by omega)]
  by_cases h0 : b.toNat = 0xF0
  · simp [h0]
  · by_cases h1 : b.toNat = 0xF4
    · simp [h1]
    · have hlt : b.toNat < 0xF4 := by omega
      simp [h0, h1, hlt]

/-! ## The bytes after them -/

theorem push_first (text : String) (b : UInt8) : push ⟨text, none⟩ b = lead ⟨text, none⟩ b := rfl

variable {bits owed low high : Nat}

theorem push_last {text : String} (hl : low ≤ b.toNat) (hu : b.toNat ≤ high) :
    push ⟨text, some ⟨bits, 1, low, high⟩⟩ b =
      ⟨text.push (Char.ofNat (bits * 64 + (b.toNat - 0x80))), none⟩ := by
  simp [push, hl, hu, emit]

theorem push_more {text : String} (hl : low ≤ b.toNat) (hu : b.toNat ≤ high) :
    push ⟨text, some ⟨bits, owed + 2, low, high⟩⟩ b =
      ⟨text, some ⟨bits * 64 + (b.toNat - 0x80), owed + 1, 0x80, 0xBF⟩⟩ := by
  simp [push, hl, hu]

end Reading

/-! ## Characters -/

/-- A number that fits a byte is the number of its byte. -/
theorem toNat_ofNat {n : Nat} (h : n < 256) : (UInt8.ofNat n).toNat = n := by
  simp [Nat.mod_eq_of_lt h]

/-- **A character** is read from its bytes. -/
theorem pushAll_utf8EncodeChar (text : String) (c : Char) :
    Reading.pushAll ⟨text, none⟩ (String.utf8EncodeChar c) = ⟨text.push c, none⟩ := by
  have hvalid : c.val.toNat < 0xD800 ∨ 0xDFFF < c.val.toNat ∧ c.val.toNat < 0x110000 := c.valid
  have hc : Char.ofNat c.val.toNat = c := Char.ofNat_toNat c
  unfold String.utf8EncodeChar
  simp only []
  generalize c.val.toNat = v at hvalid hc
  split
  · next h =>
    have hb : (UInt8.ofNat v).toNat = v := toNat_ofNat (by omega)
    simp only [Reading.pushAll_cons, Reading.pushAll_nil]
    rw [Reading.push_first, Reading.lead_one (by omega), hb, hc]
    rfl
  split
  · next h =>
    have h1 : (UInt8.ofNat (v / 64 % 32 + 192)).toNat = v / 64 + 192 := by
      rw [toNat_ofNat (by omega)]
      omega
    have h2 : (UInt8.ofNat (v % 64 + 128)).toNat = v % 64 + 128 := toNat_ofNat (by omega)
    have hbits : (v / 64 + 192 - 0xC0) * 64 + (v % 64 + 128 - 0x80) = v := by omega
    simp only [Reading.pushAll_cons, Reading.pushAll_nil]
    rw [Reading.push_first, Reading.lead_two (by omega) (by omega),
      Reading.push_last (by omega) (by omega), h1, h2, hbits, hc]
  split
  · next h =>
    have h1 : (UInt8.ofNat (v / 4096 % 16 + 224)).toNat = v / 4096 + 224 := by
      rw [toNat_ofNat (by omega)]
      omega
    have h2 : (UInt8.ofNat (v / 64 % 64 + 128)).toNat = v / 64 % 64 + 128 := toNat_ofNat (by omega)
    have h3 : (UInt8.ofNat (v % 64 + 128)).toNat = v % 64 + 128 := toNat_ofNat (by omega)
    have hbits : ((v / 4096 + 224 - 0xE0) * 64 + (v / 64 % 64 + 128 - 0x80)) * 64 + (v % 64 + 128 - 0x80) = v := by
      omega
    have hlow : (if v / 4096 + 224 = 0xE0 then 0xA0 else 0x80) ≤ v / 64 % 64 + 128 := by split <;> omega
    have hhigh : v / 64 % 64 + 128 ≤ if v / 4096 + 224 = 0xED then 0x9F else 0xBF := by split <;> omega
    simp only [Reading.pushAll_cons, Reading.pushAll_nil]
    rw [Reading.push_first, Reading.lead_three (by omega) (by omega), h1,
      Reading.push_more (by rw [h2]; exact hlow) (by rw [h2]; exact hhigh),
      Reading.push_last (by omega) (by omega), h2, h3, hbits, hc]
  · next h =>
    have h1 : (UInt8.ofNat (v / 262144 % 8 + 240)).toNat = v / 262144 + 240 := by
      rw [toNat_ofNat (by omega)]
      omega
    have h2 : (UInt8.ofNat (v / 4096 % 64 + 128)).toNat = v / 4096 % 64 + 128 := toNat_ofNat (by omega)
    have h3 : (UInt8.ofNat (v / 64 % 64 + 128)).toNat = v / 64 % 64 + 128 := toNat_ofNat (by omega)
    have h4 : (UInt8.ofNat (v % 64 + 128)).toNat = v % 64 + 128 := toNat_ofNat (by omega)
    have hbits : (((v / 262144 + 240 - 0xF0) * 64 + (v / 4096 % 64 + 128 - 0x80)) * 64 +
        (v / 64 % 64 + 128 - 0x80)) * 64 + (v % 64 + 128 - 0x80) = v := by omega
    have hlow : (if v / 262144 + 240 = 0xF0 then 0x90 else 0x80) ≤ v / 4096 % 64 + 128 := by split <;> omega
    have hhigh : v / 4096 % 64 + 128 ≤ if v / 262144 + 240 = 0xF4 then 0x8F else 0xBF := by split <;> omega
    simp only [Reading.pushAll_cons, Reading.pushAll_nil]
    rw [Reading.push_first, Reading.lead_four (by omega) (by omega), h1,
      Reading.push_more (by rw [h2]; exact hlow) (by rw [h2]; exact hhigh),
      Reading.push_more (by omega) (by omega), Reading.push_last (by omega) (by omega), h2, h3, h4, hbits, hc]

/-! ## Texts -/

theorem pushAll_flatMap (text : String) (cs : List Char) :
    Reading.pushAll ⟨text, none⟩ (cs.flatMap String.utf8EncodeChar) = ⟨text ++ String.ofList cs, none⟩ := by
  induction cs generalizing text with
  | nil => simp
  | cons c cs ih =>
    rw [List.flatMap_cons, Reading.pushAll_append, pushAll_utf8EncodeChar, ih]
    congr 1
    rw [← String.toList_inj]
    simp

/-- **A text is read from its bytes.** -/
@[simp] theorem decodeLossy_encode (s : String) : decodeLossy (encode s) = s := by
  unfold decodeLossy encode
  rw [pushAll_flatMap, String.ofList_toList]
  simp [Reading.finish]

/-! ## ASCII -/

/-- A byte below 0x80 is a character of the text. -/
theorem mem_of_mem_encode {s : String} {b : UInt8} (hb : b ∈ encode s) (hlt : b.toNat < 0x80) :
    Char.ofNat b.toNat ∈ s.toList := by
  obtain ⟨c, hc, hb⟩ := List.mem_flatMap.mp hb
  have hvalid : c.val.toNat < 0xD800 ∨ 0xDFFF < c.val.toNat ∧ c.val.toNat < 0x110000 := c.valid
  have hchar : Char.ofNat c.val.toNat = c := Char.ofNat_toNat c
  -- any other byte of a character is a lead byte or continues one
  have hhigh : ∀ n, 0x80 ≤ n → n < 256 → b ≠ UInt8.ofNat n := by
    rintro n hl hu rfl
    rw [toNat_ofNat hu] at hlt
    omega
  unfold String.utf8EncodeChar at hb
  simp only [] at hb
  generalize c.val.toNat = v at hvalid hchar hb
  split at hb
  · next h =>
    obtain rfl := List.mem_singleton.mp hb
    rw [toNat_ofNat (by omega), hchar]
    exact hc
  split at hb
  · simp only [List.mem_cons, List.not_mem_nil, or_false] at hb
    rcases hb with hb | hb <;> exact absurd hb (hhigh _ (by omega) (by omega))
  split at hb
  · simp only [List.mem_cons, List.not_mem_nil, or_false] at hb
    rcases hb with hb | hb | hb <;> exact absurd hb (hhigh _ (by omega) (by omega))
  · simp only [List.mem_cons, List.not_mem_nil, or_false] at hb
    rcases hb with hb | hb | hb | hb <;> exact absurd hb (hhigh _ (by omega) (by omega))

/-- A character that is not ASCII has a byte from 0x80 on. -/
theorem exists_high_of_mem {s : String} {c : Char} (hc : c ∈ s.toList) (h : 0x80 ≤ c.toNat) :
    ∃ b ∈ encode s, 0x80 ≤ b.toNat := by
  have hbyte : ∃ b ∈ String.utf8EncodeChar c, 0x80 ≤ b.toNat := by
    replace h : 0x80 ≤ c.val.toNat := h
    unfold String.utf8EncodeChar
    simp only []
    generalize c.val.toNat = v at h
    split
    · omega
    split
    · exact ⟨_, List.mem_cons_self, by rw [toNat_ofNat] <;> omega⟩
    split
    · exact ⟨_, List.mem_cons_self, by rw [toNat_ofNat] <;> omega⟩
    · exact ⟨_, List.mem_cons_self, by rw [toNat_ofNat] <;> omega⟩
  obtain ⟨b, hb, hhigh⟩ := hbyte
  exact ⟨b, List.mem_flatMap.mpr ⟨c, hc, hb⟩, hhigh⟩

/-- The bytes of ASCII characters. -/
theorem encode_of_ascii {s : String} (h : ∀ c ∈ s.toList, c.toNat < 0x80) :
    encode s = s.toList.map fun c => UInt8.ofNat c.toNat := by
  unfold encode
  generalize s.toList = cs at h
  induction cs with
  | nil => rfl
  | cons c cs ih =>
    have hc : c.val.toNat ≤ 127 := Nat.le_of_lt_succ (h c (by simp))
    have hbytes : String.utf8EncodeChar c = [UInt8.ofNat c.toNat] := by
      rw [String.utf8EncodeChar.eq_1, if_pos hc]
      rfl
    rw [List.flatMap_cons, hbytes, ih fun c hc => h c (List.mem_cons_of_mem _ hc)]
    rfl

theorem ascii_encode {s : String} (h : ∀ c ∈ s.toList, c.toNat < 0x80) : ascii (encode s) = s := by
  have hmap : (s.toList.map fun c => UInt8.ofNat c.toNat).map (fun b => Char.ofNat b.toNat) = s.toList := by
    rw [List.map_map]
    refine (List.map_congr_left fun c hc => ?_).trans (List.map_id' _)
    have hlt := h c hc
    show Char.ofNat (UInt8.ofNat c.toNat).toNat = c
    rw [toNat_ofNat (by omega)]
    exact Char.ofNat_toNat c
  rw [encode_of_ascii h, ascii, hmap, String.ofList_toList]

end ProofRelay.Utf8

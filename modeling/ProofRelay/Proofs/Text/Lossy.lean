import Mathlib.Data.List.Basic
import ProofRelay.Proofs.Text.Utf8

/-!
Bytes that are no text, read as one.  The first bytes of any are the encoding of a character, or are read as a
replacement (`decodeLossy_cons_cases`), and what is before and after an ASCII byte is read apart.  The bytes of
what was read (`mend`) are valid, and have the ASCII bytes of the old ones in the same places:

    mend (as ++ b :: bs) = mend as ++ b :: mend bs   for an ASCII byte b                  (mend_append_cons)
    b ∈ mend bs → b ∈ bs                             for an ASCII byte b                   (mem_of_mem_mend)
-/

namespace ProofRelay.Utf8

namespace Reading

/-! ## Lead bytes -/

/-- What a byte begins: a character of its own, nothing, or a character of two, three or four bytes. -/
theorem lead_cases (b : UInt8) :
    (b.toNat < 0x80 ∧ ∀ r : Reading, r.lead b = r.emit (Char.ofNat b.toNat)) ∨
    (0x80 ≤ b.toNat ∧ ∀ r : Reading, r.lead b = r.emit replacement) ∨
    (0xC2 ≤ b.toNat ∧ b.toNat < 0xE0 ∧ ∀ r : Reading,
      r.lead b = { r with started := some ⟨b.toNat - 0xC0, 1, 0x80, 0xBF⟩ }) ∨
    (0xE0 ≤ b.toNat ∧ b.toNat < 0xF0 ∧ ∀ r : Reading,
      r.lead b = { r with started := some ⟨b.toNat - 0xE0, 2, if b.toNat = 0xE0 then 0xA0 else 0x80,
        if b.toNat = 0xED then 0x9F else 0xBF⟩ }) ∨
    (0xF0 ≤ b.toNat ∧ b.toNat ≤ 0xF4 ∧ ∀ r : Reading,
      r.lead b = { r with started := some ⟨b.toNat - 0xF0, 3, if b.toNat = 0xF0 then 0x90 else 0x80,
        if b.toNat = 0xF4 then 0x8F else 0xBF⟩ }) := by
  rcases Nat.lt_or_ge b.toNat 0x80 with h1 | h1
  · exact .inl ⟨h1, fun _ => lead_one h1⟩
  rcases Nat.lt_or_ge b.toNat 0xC2 with h2 | h2
  · refine .inr (.inl ⟨h1, fun r => ?_⟩)
    unfold lead
    simp only []
    rw [if_neg (by omega), if_pos h2]
  rcases Nat.lt_or_ge b.toNat 0xE0 with h3 | h3
  · exact .inr (.inr (.inl ⟨h2, h3, fun _ => lead_two h2 h3⟩))
  rcases Nat.lt_or_ge b.toNat 0xF0 with h4 | h4
  · exact .inr (.inr (.inr (.inl ⟨h3, h4, fun _ => lead_three h3 h4⟩)))
  rcases Nat.lt_or_ge 0xF4 b.toNat with h5 | h5
  · refine .inr (.inl ⟨h1, fun r => ?_⟩)
    unfold lead
    simp only []
    rw [if_neg (by omega), if_neg (by omega), if_neg (by omega), if_neg (by omega), if_neg (by omega),
      if_neg (by omega), if_neg (by omega), if_neg (by omega), if_neg (by omega)]
  · exact .inr (.inr (.inr (.inr ⟨h4, h5, fun _ => lead_four h4 h5⟩)))

/-! ## What has been read -/

/-- The reading with a text before what it has read. -/
def behind (text : String) (r : Reading) : Reading := { r with text := text ++ r.text }

theorem append_push (s t : String) (c : Char) : (s ++ t).push c = s ++ t.push c := by
  rw [String.push_eq_append, String.push_eq_append, String.append_assoc]

theorem emit_behind (text : String) (r : Reading) (c : Char) :
    (r.behind text).emit c = (r.emit c).behind text := by
  simp only [behind, emit, append_push]

theorem lead_behind (text : String) (r : Reading) (b : UInt8) :
    (r.behind text).lead b = (r.lead b).behind text := by
  rcases lead_cases b with ⟨-, hl⟩ | ⟨-, hl⟩ | ⟨-, -, hl⟩ | ⟨-, -, hl⟩ | ⟨-, -, hl⟩ <;> rw [hl, hl]
  · exact emit_behind ..
  · exact emit_behind ..
  · rfl
  · rfl
  · rfl

theorem push_behind (text : String) (r : Reading) (b : UInt8) :
    (r.behind text).push b = (r.push b).behind text := by
  obtain ⟨read, started⟩ := r
  cases started with
  | none => exact lead_behind text ⟨read, none⟩ b
  | some p =>
    have hend := emit_behind text ⟨read, some p⟩
    unfold push
    simp only [behind]
    split
    · split
      · exact hend _
      · rfl
    · exact (congrArg (lead · b) (hend replacement)).trans (lead_behind ..)

theorem pushAll_behind (text : String) (r : Reading) (bs : Bytes) :
    (r.behind text).pushAll bs = (r.pushAll bs).behind text := by
  induction bs generalizing r with
  | nil => rfl
  | cons b bs ih => rw [pushAll_cons, push_behind, ih, pushAll_cons]

theorem finish_behind (text : String) (r : Reading) : (r.behind text).finish = text ++ r.finish := by
  obtain ⟨read, started⟩ := r
  cases started with
  | none => rfl
  | some p => exact append_push ..

/-- Between two characters, what has been read does not matter to what will be. -/
theorem finish_pushAll (text : String) (bs : Bytes) :
    (pushAll ⟨text, none⟩ bs).finish = text ++ decodeLossy bs := by
  have h := finish_behind text (pushAll {} bs)
  rw [← pushAll_behind] at h
  simpa [behind, decodeLossy] using h

/-! ## ASCII -/

/-- A character that has been started is continued by bytes from 0x80 on only. -/
def OwesHigh (r : Reading) : Prop := ∀ p, r.started = some p → 0x80 ≤ p.low

theorem owesHigh_of_none {r : Reading} (h : r.started = none) : r.OwesHigh := by
  intro p hp
  rw [h] at hp
  cases hp

theorem owesHigh_of_some {r : Reading} {p : Started} (h : r.started = some p) (hp : 0x80 ≤ p.low) :
    r.OwesHigh := by
  intro q hq
  rw [h] at hq
  rwa [← Option.some.inj hq]

theorem owesHigh_lead (r : Reading) (b : UInt8) : (r.lead b).OwesHigh := by
  rcases lead_cases b with ⟨-, hl⟩ | ⟨-, hl⟩ | ⟨-, -, hl⟩ | ⟨-, -, hl⟩ | ⟨-, -, hl⟩ <;> rw [hl]
  · exact owesHigh_of_none rfl
  · exact owesHigh_of_none rfl
  · exact owesHigh_of_some rfl (Nat.le_refl _)
  · refine owesHigh_of_some rfl ?_
    show 0x80 ≤ if _ then 0xA0 else 0x80
    split <;> decide
  · refine owesHigh_of_some rfl ?_
    show 0x80 ≤ if _ then 0x90 else 0x80
    split <;> decide

theorem owesHigh_push (r : Reading) (b : UInt8) : (r.push b).OwesHigh := by
  unfold push
  split
  · exact owesHigh_lead r b
  · simp only []
    split
    · split
      · exact owesHigh_of_none rfl
      · exact owesHigh_of_some rfl (Nat.le_refl _)
    · exact owesHigh_lead (r.emit replacement) b

theorem owesHigh_pushAll {r : Reading} (h : r.OwesHigh) (bs : Bytes) : (r.pushAll bs).OwesHigh := by
  induction bs generalizing r with
  | nil => exact h
  | cons b bs ih => exact ih (owesHigh_push r b)

/-- A byte below 0x80 ends what was started before it, and is a character itself. -/
theorem push_of_ascii {r : Reading} (h : r.OwesHigh) {b : UInt8} (hb : b.toNat < 0x80) :
    r.push b = ⟨r.finish.push (Char.ofNat b.toNat), none⟩ := by
  unfold push finish
  split
  · exact lead_one hb
  · next p hs =>
    have hlow := h p hs
    rw [if_neg (by omega)]
    exact lead_one hb

/-! ## The bytes of one character -/

/-- The bits of a character after the bytes that continue it. -/
def bitsWith (bits : Nat) (tail : Bytes) : Nat := tail.foldl (fun n b => n * 64 + (b.toNat - 0x80)) bits

theorem bitsWith_cons (bits : Nat) (b : UInt8) (tail : Bytes) :
    bitsWith bits (b :: tail) = bitsWith (bits * 64 + (b.toNat - 0x80)) tail := List.foldl_cons ..

/-- A byte that does not continue what was started ends it as invalid. -/
theorem push_other {text : String} {p : Started} {b : UInt8} (h : ¬ (p.low ≤ b.toNat ∧ b.toNat ≤ p.high)) :
    push ⟨text, some p⟩ b = push ⟨text.push replacement, none⟩ b := by
  simp only [push]
  rw [if_neg h]
  rfl

/-- A character that was started is completed, or what came of it is invalid. -/
theorem finish_of_started (owed bits low high : Nat) (bs : Bytes) :
    (∃ b tail rest, bs = b :: tail ++ rest ∧ tail.length = owed ∧ low ≤ b.toNat ∧ b.toNat ≤ high ∧
      (∀ t ∈ tail, 0x80 ≤ t.toNat ∧ t.toNat ≤ 0xBF) ∧
      (pushAll ⟨"", some ⟨bits, owed + 1, low, high⟩⟩ bs).finish =
        String.singleton (Char.ofNat (bitsWith bits (b :: tail))) ++ decodeLossy rest) ∨
    ∃ part rest, bs = part ++ rest ∧
      (pushAll ⟨"", some ⟨bits, owed + 1, low, high⟩⟩ bs).finish =
        String.singleton replacement ++ decodeLossy rest := by
  -- a byte out of bounds is read again as the first one of what follows, so it is part of the rest
  induction owed generalizing bits low high bs with
  | zero =>
    cases bs with
    | nil => exact .inr ⟨[], [], rfl, rfl⟩
    | cons b bs =>
      by_cases hb : low ≤ b.toNat ∧ b.toNat ≤ high
      · refine .inl ⟨b, [], bs, rfl, rfl, hb.1, hb.2, by simp, ?_⟩
        rw [pushAll_cons, push_last hb.1 hb.2, finish_pushAll]
        rfl
      · refine .inr ⟨[], b :: bs, rfl, ?_⟩
        rw [pushAll_cons, push_other hb, ← pushAll_cons, finish_pushAll]
        rfl
  | succ owed ih =>
    cases bs with
    | nil => exact .inr ⟨[], [], rfl, rfl⟩
    | cons b bs =>
      by_cases hb : low ≤ b.toNat ∧ b.toNat ≤ high
      · rw [pushAll_cons, push_more hb.1 hb.2]
        rcases ih (bits * 64 + (b.toNat - 0x80)) 0x80 0xBF bs with
          ⟨c, tail, rest, rfl, hlength, hl, hu, htail, hread⟩ | ⟨part, rest, rfl, hread⟩
        · refine .inl ⟨b, c :: tail, rest, rfl, by simp [hlength], hb.1, hb.2, ?_, ?_⟩
          · exact List.forall_mem_cons.mpr ⟨⟨hl, hu⟩, htail⟩
          · rw [bitsWith_cons, hread]
        · exact .inr ⟨b :: part, rest, rfl, hread⟩
      · refine .inr ⟨[], b :: bs, rfl, ?_⟩
        rw [pushAll_cons, push_other hb, ← pushAll_cons, finish_pushAll]
        rfl

end Reading

/-! ## Characters of bytes -/

/-- A byte that continues a character. -/
def Continues (b : UInt8) : Prop := 0x80 ≤ b.toNat ∧ b.toNat ≤ 0xBF

/-- The number of a character is its own. -/
theorem toNat_val_ofNat {n : Nat} (h : n < 0xD800 ∨ 0xDFFF < n ∧ n < 0x110000) :
    (Char.ofNat n).val.toNat = n := by
  rw [Char.ofNat, dif_pos h]
  rfl

theorem ofNat_eq {n : Nat} {b : UInt8} (h : n = b.toNat) : UInt8.ofNat n = b := by
  rw [h, UInt8.ofNat_toNat]

theorem utf8EncodeChar_one {b : UInt8} (h : b.toNat < 0x80) :
    String.utf8EncodeChar (Char.ofNat b.toNat) = [b] := by
  unfold String.utf8EncodeChar
  simp only []
  rw [toNat_val_ofNat (.inl (by omega)), if_pos (by omega), UInt8.ofNat_toNat]

/-- Bytes below 0x80 are those of the text that they read as in ASCII. -/
theorem encode_ascii {bs : Bytes} (h : ∀ b ∈ bs, b.toNat < 0x80) : encode (ascii bs) = bs := by
  rw [encode, ascii, String.toList_ofList, List.flatMap_map]
  induction bs with
  | nil => rfl
  | cons b bs ih =>
    rw [List.flatMap_cons, utf8EncodeChar_one (h b List.mem_cons_self),
      ih fun c hc => h c (List.mem_cons_of_mem _ hc)]
    rfl

/-- What the bounds of the byte behind a lead byte say. -/
theorem continues_of_bounds {lead first last low high : Nat} {c : UInt8} (h : 0x80 ≤ low ∧ high ≤ 0xBF)
    (hl : (if lead = first then low else 0x80) ≤ c.toNat) (hu : c.toNat ≤ if lead = last then high else 0xBF) :
    Continues c ∧ (lead = first → low ≤ c.toNat) ∧ (lead = last → c.toNat ≤ high) := by
  refine ⟨⟨?_, ?_⟩, fun hfirst => ?_, fun hlast => ?_⟩
  · split at hl <;> omega
  · split at hu <;> omega
  · rwa [if_pos hfirst] at hl
  · rwa [if_pos hlast] at hu

theorem utf8EncodeChar_two {b c : UInt8} (hl : 0xC2 ≤ b.toNat) (hu : b.toNat < 0xE0) (hc : Continues c) :
    String.utf8EncodeChar (Char.ofNat ((b.toNat - 0xC0) * 64 + (c.toNat - 0x80))) = [b, c] := by
  obtain ⟨hcl, hcu⟩ := hc
  unfold String.utf8EncodeChar
  simp only []
  rw [toNat_val_ofNat (.inl (by omega)), if_neg (by omega), if_pos (by omega), ofNat_eq (b := b) (by omega),
    ofNat_eq (b := c) (by omega)]

theorem utf8EncodeChar_three {b c d : UInt8} (hl : 0xE0 ≤ b.toNat) (hu : b.toNat < 0xF0) (hc : Continues c)
    (hd : Continues d) (hlow : b.toNat = 0xE0 → 0xA0 ≤ c.toNat) (hhigh : b.toNat = 0xED → c.toNat ≤ 0x9F) :
    String.utf8EncodeChar
      (Char.ofNat (((b.toNat - 0xE0) * 64 + (c.toNat - 0x80)) * 64 + (d.toNat - 0x80))) = [b, c, d] := by
  obtain ⟨hcl, hcu⟩ := hc
  obtain ⟨hdl, hdu⟩ := hd
  have hvalid : ((b.toNat - 0xE0) * 64 + (c.toNat - 0x80)) * 64 + (d.toNat - 0x80) < 0xD800 ∨
      0xDFFF < ((b.toNat - 0xE0) * 64 + (c.toNat - 0x80)) * 64 + (d.toNat - 0x80) ∧
      ((b.toNat - 0xE0) * 64 + (c.toNat - 0x80)) * 64 + (d.toNat - 0x80) < 0x110000 := by omega
  unfold String.utf8EncodeChar
  simp only []
  rw [toNat_val_ofNat hvalid, if_neg (by omega), if_neg (by omega), if_pos (by omega),
    ofNat_eq (b := b) (by omega), ofNat_eq (b := c) (by omega), ofNat_eq (b := d) (by omega)]

theorem utf8EncodeChar_four {b c d e : UInt8} (hl : 0xF0 ≤ b.toNat) (hu : b.toNat ≤ 0xF4) (hc : Continues c)
    (hd : Continues d) (he : Continues e) (hlow : b.toNat = 0xF0 → 0x90 ≤ c.toNat)
    (hhigh : b.toNat = 0xF4 → c.toNat ≤ 0x8F) :
    String.utf8EncodeChar
      (Char.ofNat ((((b.toNat - 0xF0) * 64 + (c.toNat - 0x80)) * 64 + (d.toNat - 0x80)) * 64 +
        (e.toNat - 0x80))) = [b, c, d, e] := by
  obtain ⟨hcl, hcu⟩ := hc
  obtain ⟨hdl, hdu⟩ := hd
  obtain ⟨hel, heu⟩ := he
  unfold String.utf8EncodeChar
  simp only []
  rw [toNat_val_ofNat (.inr (by omega)), if_neg (by omega), if_neg (by omega), if_neg (by omega),
    ofNat_eq (b := b) (by omega), ofNat_eq (b := c) (by omega), ofNat_eq (b := d) (by omega),
    ofNat_eq (b := e) (by omega)]

/-! ## Parts of the bytes -/

/-- What is before and after a byte below 0x80 is read apart. -/
theorem decodeLossy_append_cons {b : UInt8} (hb : b.toNat < 0x80) (as bs : Bytes) :
    decodeLossy (as ++ b :: bs) = (decodeLossy as).push (Char.ofNat b.toNat) ++ decodeLossy bs := by
  have h : (Reading.pushAll {} as).OwesHigh := Reading.owesHigh_pushAll (Reading.owesHigh_of_none rfl) as
  rw [decodeLossy, Reading.pushAll_append, Reading.pushAll_cons, Reading.push_of_ascii h hb,
    Reading.finish_pushAll]
  rfl

theorem decodeLossy_cons (b : UInt8) (bs : Bytes) :
    decodeLossy (b :: bs) = (Reading.pushAll (Reading.lead {} b) bs).finish := rfl

/-- **The first part** of any bytes is a character's encoding, or is read as a replacement. -/
theorem decodeLossy_cons_cases (b : UInt8) (bs : Bytes) :
    ∃ part rest c, bs = part ++ rest ∧ decodeLossy (b :: bs) = String.singleton c ++ decodeLossy rest ∧
      (c = replacement ∨ String.utf8EncodeChar c = b :: part) := by
  rw [decodeLossy_cons]
  rcases Reading.lead_cases b with
    ⟨hb, hread⟩ | ⟨hb, hread⟩ | ⟨hl, hu, hread⟩ | ⟨hl, hu, hread⟩ | ⟨hl, hu, hread⟩ <;>
    rw [hread]
  · exact ⟨[], bs, Char.ofNat b.toNat, rfl, Reading.finish_pushAll .., .inr (utf8EncodeChar_one hb)⟩
  · exact ⟨[], bs, replacement, rfl, Reading.finish_pushAll .., .inl rfl⟩
  · rcases Reading.finish_of_started 0 (b.toNat - 0xC0) 0x80 0xBF bs with
      ⟨c, tail, rest, rfl, hlength, hcl, hcu, htail, hread⟩ | ⟨part, rest, rfl, hread⟩
    · obtain rfl := List.length_eq_zero_iff.mp hlength
      exact ⟨[c], rest, _, rfl, hread, .inr (utf8EncodeChar_two hl hu ⟨hcl, hcu⟩)⟩
    · exact ⟨part, rest, replacement, rfl, hread, .inl rfl⟩
  · rcases Reading.finish_of_started 1 (b.toNat - 0xE0) (if b.toNat = 0xE0 then 0xA0 else 0x80)
        (if b.toNat = 0xED then 0x9F else 0xBF) bs with
      ⟨c, tail, rest, rfl, hlength, hcl, hcu, htail, hread⟩ | ⟨part, rest, rfl, hread⟩
    · obtain ⟨d, rfl⟩ := List.length_eq_one_iff.mp hlength
      obtain ⟨hc, hlow, hhigh⟩ := continues_of_bounds (by decide) hcl hcu
      exact ⟨[c, d], rest, _, rfl, hread, .inr (utf8EncodeChar_three hl hu hc (htail d (by simp)) hlow hhigh)⟩
    · exact ⟨part, rest, replacement, rfl, hread, .inl rfl⟩
  · rcases Reading.finish_of_started 2 (b.toNat - 0xF0) (if b.toNat = 0xF0 then 0x90 else 0x80)
        (if b.toNat = 0xF4 then 0x8F else 0xBF) bs with
      ⟨c, tail, rest, rfl, hlength, hcl, hcu, htail, hread⟩ | ⟨part, rest, rfl, hread⟩
    · obtain ⟨d, e, rfl⟩ := List.length_eq_two.mp hlength
      obtain ⟨hc, hlow, hhigh⟩ := continues_of_bounds (by decide) hcl hcu
      have hchar := utf8EncodeChar_four hl hu hc (htail d (by simp)) (htail e (by simp)) hlow hhigh
      exact ⟨[c, d, e], rest, _, rfl, hread, .inr hchar⟩
    · exact ⟨part, rest, replacement, rfl, hread, .inl rfl⟩

/-- A character that was read and is no replacement was written in the bytes. -/
theorem infix_of_mem {bs : Bytes} {c : Char} (hc : c ∈ (decodeLossy bs).toList) (hne : c ≠ replacement) :
    String.utf8EncodeChar c <:+: bs := by
  -- the first part has no fixed length, so the induction is on the number of bytes
  induction hn : bs.length using Nat.strongRecOn generalizing bs with
  | _ n ih =>
    cases bs with
    | nil => cases hc
    | cons b bs =>
      obtain ⟨part, rest, d, rfl, hread, hpart⟩ := decodeLossy_cons_cases b bs
      rw [hread, String.toList_append, String.toList_singleton, List.singleton_append, List.mem_cons] at hc
      rcases hc with rfl | hc
      · rw [hpart.resolve_left hne]
        exact ⟨[], rest, rfl⟩
      · have hrest : rest.length < n := by
          rw [← hn, List.length_cons, List.length_append]
          omega
        exact (ih rest.length hrest hc rfl).trans ⟨b :: part, [], by simp⟩

/-- The first one was written first. -/
theorem prefix_of_head? {bs : Bytes} {c : Char} (hc : (decodeLossy bs).toList.head? = some c)
    (hne : c ≠ replacement) : String.utf8EncodeChar c <+: bs := by
  cases bs with
  | nil => cases hc
  | cons b bs =>
    obtain ⟨part, rest, d, rfl, hread, hpart⟩ := decodeLossy_cons_cases b bs
    rw [hread, String.toList_append, String.toList_singleton, List.singleton_append, List.head?_cons] at hc
    obtain rfl := Option.some.inj hc
    rw [hpart.resolve_left hne]
    exact ⟨rest, rfl⟩

/-- A text at the front is read as itself. -/
theorem decodeLossy_encode_append (s : String) (bs : Bytes) :
    decodeLossy (encode s ++ bs) = s ++ decodeLossy bs := by
  have hs : Reading.pushAll {} (encode s) = ⟨s, none⟩ := by
    rw [encode, pushAll_flatMap, String.ofList_toList, String.empty_append]
  rw [decodeLossy, Reading.pushAll_append, hs, Reading.finish_pushAll]

/-! ## Mending -/

theorem encode_singleton (c : Char) : encode (String.singleton c) = String.utf8EncodeChar c := by
  rw [encode, String.toList_singleton, List.flatMap_singleton]

/-- The bytes of the text that bytes are read as. -/
def mend (bs : Bytes) : Bytes := encode (decodeLossy bs)

/-- What was mended is read as before. -/
@[simp] theorem decodeLossy_mend (bs : Bytes) : decodeLossy (mend bs) = decodeLossy bs := decodeLossy_encode _

theorem mend_append_cons {b : UInt8} (hb : b.toNat < 0x80) (as bs : Bytes) :
    mend (as ++ b :: bs) = mend as ++ b :: mend bs := by
  have hpush : encode ((decodeLossy as).push (Char.ofNat b.toNat)) = mend as ++ [b] := by
    rw [String.push_eq_append, encode_append, encode_singleton, utf8EncodeChar_one hb]
    rfl
  rw [mend, decodeLossy_append_cons hb, encode_append, hpush, List.append_assoc, List.singleton_append]
  rfl

/-- No byte below 0x80 is made by mending. -/
theorem mem_of_mem_mend {b : UInt8} (hb : b.toNat < 0x80) {bs : Bytes} (h : b ∈ mend bs) : b ∈ bs := by
  have hne : Char.ofNat b.toNat ≠ replacement := by
    intro heq
    have hval : (Char.ofNat b.toNat).val.toNat = b.toNat := toNat_val_ofNat (.inl (by omega))
    have hreplacement : replacement.val.toNat = 0xFFFD := by decide
    rw [heq, hreplacement] at hval
    omega
  have hinfix := infix_of_mem (mem_of_mem_encode h hb) hne
  rw [utf8EncodeChar_one hb] at hinfix
  exact hinfix.subset (List.mem_singleton_self b)

theorem mend_utf8EncodeChar_append (c : Char) (bs : Bytes) :
    mend (String.utf8EncodeChar c ++ bs) = String.utf8EncodeChar c ++ mend bs := by
  rw [mend, ← encode_singleton, decodeLossy_encode_append, encode_append]
  rfl

/-- A character that is no replacement is written first in mended bytes just if it was before. -/
theorem prefix_mend_iff {c : Char} (hne : c ≠ replacement) (bs : Bytes) :
    String.utf8EncodeChar c <+: mend bs ↔ String.utf8EncodeChar c <+: bs := by
  constructor
  · rintro ⟨rest, hrest⟩
    refine prefix_of_head? ?_ hne
    rw [← decodeLossy_mend, ← hrest, ← encode_singleton, decodeLossy_encode_append, String.toList_append,
      String.toList_singleton, List.singleton_append, List.head?_cons]
  · rintro ⟨rest, rfl⟩
    rw [mend_utf8EncodeChar_append]
    exact List.prefix_append ..

end ProofRelay.Utf8

import ProofRelay.Proofs.Json.Tokens

/-!
Values that nobody asked for are skipped to their end, whatever they hold.  A value is told together with the lists
and objects in it, with blanks between any two tokens (`IsPart`).  Skipping gets over it in at most two steps for
each of its bytes (`skips_of_isPart`), so it has steps enough for any nesting:

    IsValue v → skipValue (ws ++ v ++ rest) = .ok rest                     (skipValue_of_isValue)
-/

namespace ProofRelay.Json

/-! ## Values -/

def Frame.opening : Frame → UInt8
  | .list => 0x5B
  | .object => 0x7B

/-- Where skipping stands before an entry of a frame. -/
def Frame.spot : Frame → Spot
  | .list => .value
  | .object => .key

/-- What is told of a value and the values inside it: the whole value, one entry of a list or object, or the entries
of one from a point on, with the byte that closes it. -/
inductive Part
  | value
  | entry (f : Frame)
  | entries (f : Frame)

inductive IsPart : Part → Bytes → Prop
  | null : IsPart .value (Utf8.encode "null")
  | flag (b : Bool) : IsPart .value (Utf8.encode (if b then "true" else "false"))
  | number {bs : Bytes} (number : IsNumber bs) : IsPart .value bs
  | negative {bs : Bytes} (number : IsNumber bs) : IsPart .value (0x2D :: bs)
  | text {bs : Bytes} (quoted : IsQuoted bs) : IsPart .value (quoteByte :: bs ++ [quoteByte])
  | empty {f : Frame} {ws : Bytes} (blanks : AreBlanks ws) : IsPart .value (f.opening :: ws ++ [f.closing])
  | filled {f : Frame} {bs : Bytes} (entries : IsPart (.entries f) bs) : IsPart .value (f.opening :: bs)
  | item {v : Bytes} (value : IsPart .value v) : IsPart (.entry .list) v
  | member {k ws ws' v : Bytes} (key : IsQuoted k) (blanks : AreBlanks ws) (blanks' : AreBlanks ws')
      (value : IsPart .value v) :
      IsPart (.entry .object) (quoteByte :: k ++ quoteByte :: ws ++ colonByte :: ws' ++ v)
  | last {f : Frame} {ws e ws' : Bytes} (blanks : AreBlanks ws) (entry : IsPart (.entry f) e)
      (blanks' : AreBlanks ws') : IsPart (.entries f) (ws ++ e ++ ws' ++ [f.closing])
  | more {f : Frame} {ws e ws' bs : Bytes} (blanks : AreBlanks ws) (entry : IsPart (.entry f) e)
      (blanks' : AreBlanks ws') (later : IsPart (.entries f) bs) :
      IsPart (.entries f) (ws ++ e ++ ws' ++ commaByte :: bs)

/-- The bytes of a value. -/
abbrev IsValue (bs : Bytes) : Prop := IsPart .value bs

/-! ## Skipping values -/

theorem skipLoop_blanks {ws : Bytes} (h : AreBlanks ws) (n : Nat) {spot : Spot} {frames : List Frame}
    (hspot : spot ≠ .after ∨ frames ≠ []) (bs : Bytes) :
    skipLoop n spot frames (ws ++ bs) = skipLoop n spot frames bs := by
  cases n with
  | zero => rfl
  | succ n =>
    cases frames with
    | nil => cases spot <;> simp_all [skipLoop, skipBlanks_append]
    | cons f frames => cases spot <;> simp [skipLoop, skipBlanks_append h]

theorem skipLoop_word {w : String} (hw : w ∈ ["null", "true", "false"]) (n : Nat) (frames : List Frame)
    (rest : Bytes) : skipLoop (n + 1) .value frames (Utf8.encode w ++ rest) = skipLoop n .after frames rest := by
  simp only [List.mem_cons, List.not_mem_nil, or_false] at hw
  rcases hw with rfl | rfl | rfl
  · rw [encode_null]
    rfl
  · rw [encode_true]
    rfl
  · rw [encode_false]
    rfl

theorem skipLoop_text {bs : Bytes} (h : IsQuoted bs) (n : Nat) (frames : List Frame) (rest : Bytes) :
    skipLoop (n + 1) .value frames (quoteByte :: bs ++ quoteByte :: rest) = skipLoop n .after frames rest := by
  show (do skipLoop n .after frames (← skipText (bs ++ quoteByte :: rest))) = _
  rw [skipText_append h]
  rfl

theorem skipLoop_negative {bs rest : Bytes} (h : IsNumber bs) (hrest : EndsNumber rest) (n : Nat)
    (frames : List Frame) : skipLoop (n + 1) .value frames (0x2D :: bs ++ rest) = skipLoop n .after frames rest := by
  show (do skipLoop n .after frames (← skipNumber (bs ++ rest))) = _
  rw [skipNumber_append h hrest]
  rfl

theorem skipLoop_opening (f : Frame) (n : Nat) (frames : List Frame) (bs : Bytes) :
    skipLoop (n + 1) .value frames (f.opening :: bs) = skipLoop n .opened (f :: frames) bs := by
  cases f <;> rfl

theorem skipLoop_closing (f : Frame) {spot : Spot} (hspot : spot = .opened ∨ spot = .after) (n : Nat)
    (frames : List Frame) (rest : Bytes) :
    skipLoop (n + 1) spot (f :: frames) (f.closing :: rest) = skipLoop n .after frames rest := by
  rcases hspot with rfl | rfl <;> cases f <;> rfl

theorem skipLoop_comma (f : Frame) (n : Nat) (frames : List Frame) (bs : Bytes) :
    skipLoop (n + 1) .after (f :: frames) (commaByte :: bs) = skipLoop n f.spot (f :: frames) bs := by
  cases f <;> rfl

theorem skipLoop_key {k ws : Bytes} (hk : IsQuoted k) (hws : AreBlanks ws) (n : Nat) (frames : List Frame)
    (bs : Bytes) : skipLoop (n + 1) .key (.object :: frames) (quoteByte :: k ++ quoteByte :: ws ++ colonByte :: bs) =
      skipLoop n .value (.object :: frames) bs := by
  have hquote : isBlank quoteByte = false := by decide
  have hcolon : isBlank colonByte = false := by decide
  rw [List.append_assoc, List.cons_append, List.cons_append, skipLoop.eq_def]
  simp only [skipBlanks_cons hquote]
  rw [if_pos (by decide), skipText_append hk]
  simp only [bind, Except.bind]
  rw [skipBlanks_append_cons hws hcolon]
  rfl

theorem not_isBlank_of_isSome_digit? {b : UInt8} (hb : (digit? b).isSome) :
    isBlank b = false ∧ b ≠ 0x5D ∧ b ≠ 0x7D := by
  have hdigits : ∀ k : Fin 256, (digit? (UInt8.ofFin k)).isSome →
      isBlank (UInt8.ofFin k) = false ∧ UInt8.ofFin k ≠ 0x5D ∧ UInt8.ofFin k ≠ 0x7D := by
    decide +kernel
  exact hdigits b.toFin hb

theorem skipLoop_digit {b : UInt8} (hb : (digit? b).isSome) (n : Nat) (frames : List Frame) (bs : Bytes) :
    skipLoop (n + 1) .value frames (b :: bs) = (skipNumber (b :: bs) >>= skipLoop n .after frames) := by
  have hdigits : ∀ k : Fin 256, (digit? (UInt8.ofFin k)).isSome → k.val ∈ List.range' 0x30 10 := by
    decide +kernel
  have hmem := hdigits b.toFin hb
  simp only [List.range', List.mem_cons, List.not_mem_nil, or_false] at hmem
  have heq : ∀ m < 256, b.toFin.val = m → b = UInt8.ofNat m := by
    intro m hm h
    rw [← UInt8.toNat_inj, Utf8.toNat_ofNat hm]
    exact h
  rcases hmem with h | h | h | h | h | h | h | h | h | h <;> rw [heq _ (by decide) h] <;> rfl

theorem skipLoop_number {bs rest : Bytes} (h : IsNumber bs) (hrest : EndsNumber rest) (n : Nat)
    (frames : List Frame) : skipLoop (n + 1) .value frames (bs ++ rest) = skipLoop n .after frames rest := by
  have hskip := skipNumber_append h hrest
  obtain ⟨whole, -, -, -⟩ := h
  next ds fs es =>
  obtain ⟨b, ds', rfl⟩ := List.exists_cons_of_ne_nil whole.some_digit
  have hb := whole.isSome_digit? b List.mem_cons_self
  simp only [List.cons_append] at hskip ⊢
  rw [skipLoop_digit hb, hskip]
  rfl

/-! ## Parts -/

def Part.spot : Part → Spot
  | .value => .value
  | .entry f => f.spot
  | .entries f => f.spot

/-- What encloses a part, given what encloses its value, list or object. -/
def Part.inside : Part → List Frame → List Frame
  | .value, frames => frames
  | .entry f, frames => f :: frames
  | .entries f, frames => f :: frames

/-- What encloses the bytes after a part. -/
def Part.behind : Part → List Frame → List Frame
  | .value, frames => frames
  | .entry f, frames => f :: frames
  | .entries _, frames => frames

/-- Skipping gets over the bytes of a part, in at most two steps for each of them. -/
def Skips (part : Part) (bs : Bytes) : Prop :=
  ∃ steps ≤ 2 * bs.length, ∀ n frames rest, EndsNumber rest →
    skipLoop (n + steps) part.spot (part.inside frames) (bs ++ rest) = skipLoop n .after (part.behind frames) rest

theorem Skips.of_one {bs : Bytes} (hne : bs ≠ []) (h : ∀ n frames rest, EndsNumber rest →
    skipLoop (n + 1) .value frames (bs ++ rest) = skipLoop n .after frames rest) : Skips .value bs :=
  ⟨1, by have := List.length_pos_iff.mpr hne; omega, h⟩

theorem endsNumber_closing (f : Frame) (rest : Bytes) : EndsNumber (f.closing :: rest) :=
  endsNumber_cons (by cases f <;> decide) rest

theorem endsNumber_comma (rest : Bytes) : EndsNumber (commaByte :: rest) := endsNumber_cons (by decide) rest

/-- An entry is skipped with the blanks around it. -/
theorem Skips.blanks {f : Frame} {ws e ws' : Bytes} (hws : AreBlanks ws) (h : Skips (.entry f) e)
    (hws' : AreBlanks ws') : Skips (.entry f) (ws ++ e ++ ws') := by
  obtain ⟨steps, hsteps, hskip⟩ := h
  refine ⟨steps, by simp only [List.length_append]; omega, fun n frames rest hrest => ?_⟩
  have hbehind := hskip n frames (ws' ++ rest) (hrest.append hws')
  rw [List.append_assoc, List.append_assoc, skipLoop_blanks hws _ (.inr (by simp [Part.inside])), hbehind,
    skipLoop_blanks hws' _ (.inr (by simp [Part.behind]))]

/-- What a value or an entry begins with is neither a blank nor the end of what encloses it. -/
theorem exists_cons_of_isPart {part : Part} {bs : Bytes} (h : IsPart part bs) (hpart : ∀ f, part ≠ .entries f) :
    ∃ b more, bs = b :: more ∧ isBlank b = false ∧ b ≠ 0x5D ∧ b ≠ 0x7D := by
  induction h with
  | null => exact ⟨_, _, encode_null, by decide⟩
  | flag b =>
    cases b
    · exact ⟨_, _, encode_false, by decide⟩
    · exact ⟨_, _, encode_true, by decide⟩
  | number number =>
    obtain ⟨whole, -, -, -⟩ := number
    next ds fs es =>
    obtain ⟨b, ds', rfl⟩ := List.exists_cons_of_ne_nil whole.some_digit
    exact ⟨b, _, rfl, not_isBlank_of_isSome_digit? (whole.isSome_digit? b List.mem_cons_self)⟩
  | negative => exact ⟨_, _, rfl, by decide⟩
  | text => exact ⟨_, _, rfl, by decide⟩
  | @empty f => exact ⟨_, _, rfl, by cases f <;> decide⟩
  | @filled f => exact ⟨_, _, rfl, by cases f <;> decide⟩
  | item value ih => exact ih (by simp)
  | member => exact ⟨_, _, rfl, by decide⟩
  | @last f => exact absurd rfl (hpart f)
  | @more f => exact absurd rfl (hpart f)

theorem exists_append_cons_of_entries {f : Frame} {bs : Bytes} (h : IsPart (.entries f) bs) :
    ∃ ws b more, AreBlanks ws ∧ bs = ws ++ b :: more ∧ isBlank b = false ∧ b ≠ f.closing := by
  have hentry : ∀ ws e after, AreBlanks ws → IsPart (.entry f) e →
      ∃ ws' b more, AreBlanks ws' ∧ ws ++ e ++ after = ws' ++ b :: more ∧ isBlank b = false ∧ b ≠ f.closing := by
    intro ws e after hws he
    obtain ⟨b, more, rfl, hblank, hlist, hobject⟩ := exists_cons_of_isPart he (by simp)
    refine ⟨ws, b, more ++ after, hws, by rw [List.append_assoc, List.cons_append], hblank, ?_⟩
    cases f
    · exact hlist
    · exact hobject
  cases h with
  | last blanks entry =>
    rw [List.append_assoc]
    exact hentry _ _ _ blanks entry
  | more blanks entry =>
    rw [List.append_assoc]
    exact hentry _ _ _ blanks entry

theorem skipLoop_opened {f : Frame} {b : UInt8} (hblank : isBlank b = false) (hb : b ≠ f.closing) (n : Nat)
    (frames : List Frame) (bs : Bytes) :
    skipLoop (n + 1) .opened (f :: frames) (b :: bs) = skipLoop n f.spot (f :: frames) (b :: bs) := by
  rw [skipLoop.eq_def]
  simp only [skipBlanks_cons hblank]
  rw [if_neg hb]
  cases f <;> rfl

/-- **A part is skipped.** -/
theorem skips_of_isPart {part : Part} {bs : Bytes} (h : IsPart part bs) : Skips part bs := by
  -- the opening byte of a list or object pays for two steps, all others for one each
  induction h with
  | null => exact .of_one (by decide +kernel) fun n frames rest _ => skipLoop_word (by decide) n frames rest
  | flag b =>
    cases b
    · exact .of_one (by decide +kernel) fun n frames rest _ => skipLoop_word (by decide) n frames rest
    · exact .of_one (by decide +kernel) fun n frames rest _ => skipLoop_word (by decide) n frames rest
  | number number =>
    refine .of_one ?_ fun n frames rest hrest => skipLoop_number number hrest n frames
    obtain ⟨whole, -, -, -⟩ := number
    exact List.append_ne_nil_of_left_ne_nil whole.some_digit _
  | negative number =>
    exact .of_one (List.cons_ne_nil _ _) fun n frames rest hrest => skipLoop_negative number hrest n frames
  | text quoted =>
    refine .of_one (List.cons_ne_nil _ _) fun n frames rest _ => ?_
    rw [List.append_assoc]
    exact skipLoop_text quoted n frames rest
  | @empty f ws blanks =>
    refine ⟨2, by simp only [List.length_append, List.length_cons]; omega, fun n frames rest _ => ?_⟩
    have hclose := skipLoop_closing f (.inl rfl) n frames rest
    rw [List.append_assoc, List.cons_append]
    show skipLoop (n + 1 + 1) .value frames (f.opening :: (ws ++ f.closing :: rest)) = _
    rw [skipLoop_opening, skipLoop_blanks blanks _ (.inr (List.cons_ne_nil _ _)), hclose]
    rfl
  | @filled f bs entries ih =>
    obtain ⟨steps, hsteps, hskip⟩ := ih
    refine ⟨steps + 2, by simp only [List.length_cons]; omega, fun n frames rest hrest => ?_⟩
    have hentries : skipLoop (n + steps) f.spot (f :: frames) (bs ++ rest) = skipLoop n .after frames rest :=
      hskip n frames rest hrest
    obtain ⟨ws, b, more, hws, rfl, hblank, hb⟩ := exists_append_cons_of_entries entries
    rw [List.append_assoc, skipLoop_blanks hws _ (.inr (List.cons_ne_nil _ _))] at hentries
    rw [List.cons_append, ← Nat.add_assoc, List.append_assoc]
    show skipLoop (n + steps + 1 + 1) .value frames (f.opening :: (ws ++ (b :: more ++ rest))) = _
    rw [skipLoop_opening, skipLoop_blanks hws _ (.inr (List.cons_ne_nil _ _)), List.cons_append,
      skipLoop_opened hblank hb]
    exact hentries
  | item value ih =>
    obtain ⟨steps, hsteps, hskip⟩ := ih
    exact ⟨steps, hsteps, fun n frames rest hrest => hskip n (.list :: frames) rest hrest⟩
  | @member k ws ws' v key blanks blanks' value ih =>
    obtain ⟨steps, hsteps, hskip⟩ := ih
    refine ⟨steps + 1, by simp only [List.length_append, List.length_cons]; omega, fun n frames rest hrest => ?_⟩
    have hvalue := hskip n (.object :: frames) rest hrest
    have hkey := skipLoop_key key blanks (n + steps) frames (ws' ++ (v ++ rest))
    rw [skipLoop_blanks blanks' _ (.inr (List.cons_ne_nil _ _))] at hkey
    rw [show quoteByte :: k ++ quoteByte :: ws ++ colonByte :: ws' ++ v ++ rest =
      quoteByte :: k ++ quoteByte :: ws ++ colonByte :: (ws' ++ (v ++ rest)) by simp]
    exact hkey.trans hvalue
  | @last f ws e ws' blanks entry blanks' ih =>
    obtain ⟨steps, hsteps, hskip⟩ := ih.blanks blanks blanks'
    refine ⟨steps + 1, by simp only [List.length_append, List.length_cons] at *; omega, fun n frames rest hrest => ?_⟩
    have hentry := hskip (n + 1) frames (f.closing :: rest) (endsNumber_closing f rest)
    rw [List.append_assoc, ← Nat.add_assoc, Nat.add_right_comm]
    exact hentry.trans (skipLoop_closing f (.inr rfl) n frames rest)
  | @more f ws e ws' bs blanks entry blanks' later ih ihLater =>
    obtain ⟨steps, hsteps, hskip⟩ := ih.blanks blanks blanks'
    obtain ⟨more, hmore, hskipMore⟩ := ihLater
    refine ⟨more + 1 + steps, by simp only [List.length_append, List.length_cons] at *; omega,
      fun n frames rest hrest => ?_⟩
    have hentry := hskip (n + more + 1) frames (commaByte :: (bs ++ rest)) (endsNumber_comma _)
    rw [List.append_assoc, ← Nat.add_assoc, ← Nat.add_assoc]
    exact (hentry.trans (skipLoop_comma f _ frames _)).trans (hskipMore n frames rest hrest)

/-- **A value is skipped**, with the blanks before it. -/
theorem skipValue_of_isValue {ws v rest : Bytes} (hws : AreBlanks ws) (h : IsValue v) (hrest : EndsNumber rest) :
    skipValue (ws ++ v ++ rest) = .ok rest := by
  obtain ⟨steps, hsteps, hskip⟩ := skips_of_isPart h
  obtain ⟨n, hn⟩ := Nat.exists_eq_add_of_le (show steps + 1 ≤ 2 * (ws ++ v ++ rest).length + 2 by
    simp only [List.length_append]; omega)
  have hvalue := hskip (n + 1) [] rest hrest
  rw [skipValue, hn, List.append_assoc, skipLoop_blanks hws _ (.inl (by decide))]
  rw [show steps + 1 + n = n + 1 + steps by omega]
  exact hvalue.trans rfl

end ProofRelay.Json

import Mathlib.Data.List.TakeWhile
import ProofRelay.Http.Uri

/-!
Where an address leads when a path is put behind it.  What a text has from its path on (`fromPath`)
is followed by what is put behind the text, so the path of the whole is the two together, or what the
text alone has up to its first `?` or `#`:

    parse? (base ++ rest) = some uri → uri.path = pathOf (fromPath base ++ rest)   (path_of_parse?_append)
-/

namespace ProofRelay.Http.Uri

/-- The path of a text that begins with it. -/
def pathOf (cs : List Char) : String :=
  let path := cs.takeWhile (!endsPath ·)
  if path.isEmpty then "/" else String.ofList path

theorem toLower_eq_slash {c : Char} (h : c.toLower = '/') : c = '/' := by
  unfold Char.toLower at h
  split at h
  · next hupper =>
    have hval : (c.val + ('a'.val - 'A'.val)).toNat = 47 := congrArg (fun d : Char => d.val.toNat) h
    have hl : 65 ≤ c.val.toNat := UInt32.le_iff_toNat_le.mp hupper.1
    have hu : c.val.toNat ≤ 90 := UInt32.le_iff_toNat_le.mp hupper.2
    have hshift : ('a'.val - 'A'.val).toNat = 32 := by decide
    rw [UInt32.toNat_add, hshift] at hval
    omega
  · exact h

theorem drop_length_takeWhile {p : Char → Bool} (cs : List Char) :
    cs.drop (cs.takeWhile p).length = cs.dropWhile p := by
  have h : (cs.takeWhile p ++ cs.dropWhile p).drop (cs.takeWhile p).length = cs.dropWhile p :=
    List.drop_left
  rwa [List.takeWhile_append_dropWhile] at h

theorem takeWhile_append_cons {p : Char → Bool} {d : Char} (hd : p d = false) (xs rest : List Char) :
    (xs ++ d :: rest).takeWhile p = xs.takeWhile p := by
  have hnone : (d :: rest).takeWhile p = [] := List.takeWhile_cons_of_neg (by simp [hd])
  rw [List.takeWhile_append, hnone, List.append_nil]
  split
  · next hlen => exact ((List.takeWhile_prefix _).eq_of_length hlen).symm
  · rfl

theorem dropWhile_append_cons {p : Char → Bool} {d : Char} (hd : p d = false) (xs rest : List Char) :
    (xs ++ d :: rest).dropWhile p = xs.dropWhile p ++ d :: rest := by
  rw [List.dropWhile_append, List.dropWhile_cons_of_neg (by simp [hd])]
  split
  · next hempty => rw [List.isEmpty_iff.mp hempty, List.nil_append]
  · rfl

theorem takeWhile_prefix_append {p : Char → Bool} (xs rest : List Char) :
    xs.takeWhile p <+: (xs ++ rest).takeWhile p := by
  rw [List.takeWhile_append]
  split
  · exact (List.takeWhile_prefix p).trans (List.prefix_append _ _)
  · exact List.prefix_rfl

/-! ## Schemes -/

theorem isSchemeChar_slash : isSchemeChar '/' = false := by
  rw [isSchemeChar, String.contains_char_eq]
  decide

/-- No scheme begins with a slash. -/
theorem splitScheme_slash (cs : List Char) : splitScheme ('/' :: cs) = some (none, '/' :: cs) := by
  have hnone : ∀ mark : String, mark.toList.head? = some 'h' → afterMark mark ('/' :: cs) = none := by
    intro mark hh
    rw [afterMark, if_neg]
    intro heq
    rw [← heq, List.head?_map, List.head?_take] at hh
    split at hh
    · cases hh
    · cases hh
  rw [splitScheme, hnone "http://" rfl, hnone "https://" rfl,
    List.takeWhile_cons_of_neg (by simp [isSchemeChar_slash])]
  rfl

/-- A scheme is marked by slashes. -/
theorem slash_mem_of_splitScheme {cs behind : List Char} {scheme : Scheme}
    (h : splitScheme cs = some (some scheme, behind)) : '/' ∈ cs := by
  have hmark : ∀ mark rest, '/' ∈ mark.toList → afterMark mark cs = some rest → '/' ∈ cs := by
    intro mark rest hslash hafter
    rw [afterMark] at hafter
    split at hafter
    · next htake =>
      rw [← htake] at hslash
      obtain ⟨d, hd, hlower⟩ := List.mem_map.mp hslash
      rw [toLower_eq_slash hlower] at hd
      exact List.mem_of_mem_take hd
    · cases hafter
  unfold splitScheme at h
  split at h
  · next rest hhttp => exact hmark "http://" rest (by decide) hhttp
  · next rest _ hhttps => exact hmark "https://" rest (by decide) hhttps
  · simp only [] at h
    split at h
    · next rest hdrop =>
      exact List.mem_of_mem_drop (by rw [hdrop]; simp)
    · cases h

/-- A text that begins like the address of an HTTP server has its scheme. -/
theorem splitScheme_of_http {scheme : Scheme} (h : scheme = .http ∨ scheme = .https) (cs : List Char) :
    splitScheme ((scheme.write ++ "://").toList ++ cs) = some (some scheme, cs) := by
  have hmark : ∀ mark : String, mark.toList.map Char.toLower = mark.toList →
      afterMark mark (mark.toList ++ cs) = some cs := by
    intro mark hlower
    rw [afterMark, ← String.length_toList, List.take_left, List.drop_left, if_pos hlower]
  rcases h with rfl | rfl
  · have htext : (Scheme.http.write ++ "://") = "http://" := by decide +kernel
    rw [htext, splitScheme, hmark "http://" (by decide +kernel)]
  · have htext : (Scheme.https.write ++ "://") = "https://" := by decide +kernel
    have hnone : afterMark "http://" ("https://".toList ++ cs) = none := by
      rw [afterMark, show "http://".length = 7 from rfl,
        List.take_append_of_le_length (by decide +kernel)]
      exact if_neg (by decide +kernel)
    rw [htext, splitScheme, hnone, hmark "https://" (by decide +kernel)]

section
variable {base tail : List Char} {c : Char} (hbase : base.getLast? ≠ some '/') (hc : c.toLower ≠ '/')

include hbase hc

/-- A slash that is put behind a text does not make a mark that ends in two of them. -/
theorem afterMark_append {mark : String} {name : List Char} (hmark : mark.toList = name ++ ['/', '/'])
    (hname : '/' ∉ name) :
    afterMark mark (base ++ '/' :: c :: tail) = (afterMark mark base).map (· ++ '/' :: c :: tail) := by
  unfold afterMark
  have hlength : mark.length = name.length + 2 := by
    rw [← String.length_toList, hmark, List.length_append]
    rfl
  generalize mark.length = n at hlength
  by_cases hle : n ≤ base.length
  · rw [List.take_append_of_le_length hle, List.drop_append_of_le_length hle]
    split <;> rfl
  · have hshort : (base.take n).map Char.toLower ≠ mark.toList := by
      intro h
      have hlen := congrArg List.length h
      rw [List.length_map, List.length_take, hmark, List.length_append] at hlen
      simp at hlen
      omega
    have hlong : ((base ++ '/' :: c :: tail).take n).map Char.toLower ≠ mark.toList := by
      obtain ⟨k, hk⟩ : ∃ k, n - base.length = k + 1 := ⟨n - base.length - 1, by omega⟩
      have htake : (base ++ '/' :: c :: tail).take n = base ++ '/' :: (c :: tail).take k := by
        rw [List.take_append, List.take_of_length_le (by omega), hk, List.take_succ_cons]
      -- what comes behind the slash cannot be one more slash
      have hnext : ∀ xs, ((c :: tail).take k).map Char.toLower = xs → xs ≠ ['/'] := by
        rintro xs rfl h
        cases k with
        | zero => simp at h
        | succ k => simp [hc] at h
      rw [htake, hmark, List.map_append, List.map_cons]
      intro h
      rcases List.append_eq_append_iff.mp h with ⟨as, hname', has⟩ | ⟨as, hbase', has⟩
      · cases as with
        | nil => exact hnext _ (List.cons.inj has).2 rfl
        | cons a as =>
          have ha : a = '/' := (List.cons.inj has).1.symm
          exact hname (by rw [hname', ha]; simp)
      · cases as with
        | nil => exact hnext _ (List.cons.inj has).2.symm rfl
        | cons a as =>
          cases as with
          | nil =>
            have ha : '/' = a := (List.cons.inj has).1
            have hlast : (base.map Char.toLower).getLast? = some '/' := by
              rw [hbase', ← ha]
              simp
            rw [List.getLast?_map] at hlast
            obtain ⟨d, hd, hlower⟩ := Option.map_eq_some_iff.mp hlast
            exact hbase (by rw [hd, toLower_eq_slash hlower])
          | cons b as => simp at has
    rw [if_neg hshort, if_neg hlong]
    rfl

theorem splitScheme_append :
    splitScheme (base ++ '/' :: c :: tail) =
      match splitScheme base with
      | none => none
      | some (some scheme, rest) => some (some scheme, rest ++ '/' :: c :: tail)
      | some (none, _) => some (none, base ++ '/' :: c :: tail) := by
  have hne : c ≠ '/' := by
    rintro rfl
    exact hc (by decide)
  unfold splitScheme
  rw [afterMark_append hbase hc (show "http://".toList = "http:".toList ++ ['/', '/'] from rfl) (by decide),
    afterMark_append hbase hc (show "https://".toList = "https:".toList ++ ['/', '/'] from rfl) (by decide)]
  cases afterMark "http://" base with
  | some rest => rfl
  | none =>
    cases afterMark "https://" base with
    | some rest => rfl
    | none =>
      simp only [Option.map_none]
      rw [takeWhile_append_cons isSchemeChar_slash,
        List.drop_append_of_le_length (List.takeWhile_prefix _).length_le]
      -- the scheme ends in the text that comes first, or there is none
      have hlast : (base.drop (base.takeWhile isSchemeChar).length).getLast? ≠ some '/' := by
        rw [List.getLast?_drop]
        split
        · simp
        · exact hbase
      generalize base.drop (base.takeWhile isSchemeChar).length = behind at hlast
      rcases behind with _ | ⟨d1, _ | ⟨d2, _ | ⟨d3, behind⟩⟩⟩
      · rfl
      · simp [hne]
      · have hd2 : d2 ≠ '/' := by
          rintro rfl
          exact hlast rfl
        simp [hd2]
      · by_cases h1 : d1 = ':'
        · by_cases h2 : d2 = '/'
          · by_cases h3 : d3 = '/'
            · subst h1 h2 h3
              simp only [List.cons_append]
              split <;> rfl
            · simp [h1, h2, h3]
          · simp [h1, h2]
        · simp [h1]

end

/-! ## Paths -/

theorem path_of_pathAndQuery? {cs : List Char} {path : String} {query : Option String}
    (h : pathAndQuery? cs = some (path, query)) : path = pathOf cs := by
  unfold pathAndQuery? at h
  simp only [] at h
  split at h
  · cases h
  · split at h
    · split at h
      · cases h
        rfl
      · cases h
    · cases h
      rfl

theorem not_endsAuthority_slash : (!endsAuthority '/') = false := by decide

/-- A text with a scheme is an address if it is short enough, its authority is one, and a path can be read
behind that. -/
theorem parse?_of_splitScheme {s : String} {scheme : Scheme} {behind : List Char}
    (h : splitScheme s.toList = some (some scheme, behind)) :
    parse? s =
      if greatestLength < s.utf8ByteSize ∨ isAuthority (behind.takeWhile (!endsAuthority ·)) = false ∨
          behind.takeWhile (!endsAuthority ·) = [] then none
      else (pathAndQuery? (behind.dropWhile (!endsAuthority ·))).map fun (path, query) =>
        ⟨some scheme, some (String.ofList (behind.takeWhile (!endsAuthority ·))), path, query⟩ := by
  unfold parse?
  simp only []
  generalize s.toList = cs at h
  generalize hauthority : behind.takeWhile (!endsAuthority ·) = authority
  split
  · next hlong => rw [if_pos (.inl hlong)]
  · next hshort =>
    split
    · cases h
    · exact absurd (slash_mem_of_splitScheme h) (by decide)
    · rw [splitScheme_slash] at h
      cases h
    · rw [h]
      simp only [Option.bind_eq_bind, Option.bind_some, drop_length_takeWhile, hshort, false_or, hauthority,
        List.isEmpty_iff]
      cases isAuthority authority with
      | false => rfl
      | true =>
        by_cases hempty : authority = []
        · simp [hempty]
        · rw [if_neg (by simp), if_neg hempty, if_neg (by simp [hempty]), Option.map_eq_bind]
          rfl

section
variable {base rest : String} {c : Char} {tail : List Char} {uri : Uri}
  (hbase : base.toList.getLast? ≠ some '/') (hrest : rest.toList = '/' :: c :: tail) (hc : c.toLower ≠ '/')

include hbase hrest hc

/-- What is an address with a path behind it is empty, is a path itself, or has a scheme. -/
theorem exists_scheme_of_parse?_append (h : parse? (base ++ rest) = some uri) :
    base.toList = [] ∨ (∃ cs, base.toList = '/' :: cs) ∨
      ∃ scheme behind, splitScheme base.toList = some (some scheme, behind) := by
  unfold parse? at h
  simp only [String.toList_append, hrest] at h
  generalize base.toList = cs at hbase h
  split at h
  · cases h
  cases cs with
  | nil => exact .inl rfl
  | cons b cs =>
    by_cases hb : b = '/'
    · exact .inr (.inl ⟨cs, by rw [hb]⟩)
    refine .inr (.inr ?_)
    split at h
    · next heq => cases heq
    · next heq => simp at heq
    · next heq => exact absurd (List.cons.inj heq).1 hb
    · rw [splitScheme_append hbase hc] at h
      cases hs : splitScheme (b :: cs) with
      | none => simp [hs] at h
      | some found =>
        obtain ⟨scheme, behind⟩ := found
        cases scheme with
        | none =>
          -- an authority alone ends before the slash
          simp only [hs, Option.bind_eq_bind, Option.bind_some, drop_length_takeWhile,
            dropWhile_append_cons (p := (!endsAuthority ·)) not_endsAuthority_slash] at h
          split at h
          · cases h
          · simp at h
        | some scheme => exact ⟨scheme, behind, rfl⟩

/-- The parts of an address that has a path behind a text with a scheme. -/
theorem parts_of_parse?_append {scheme : Scheme} {behind : List Char}
    (hs : splitScheme base.toList = some (some scheme, behind)) (h : parse? (base ++ rest) = some uri) :
    (base ++ rest).utf8ByteSize ≤ greatestLength ∧
      isAuthority (behind.takeWhile (!endsAuthority ·)) = true ∧
      behind.takeWhile (!endsAuthority ·) ≠ [] ∧
      ∃ path query,
        pathAndQuery? (behind.dropWhile (!endsAuthority ·) ++ rest.toList) = some (path, query) ∧
        uri = ⟨some scheme, some (String.ofList (behind.takeWhile (!endsAuthority ·))), path, query⟩ := by
  have hwhole : splitScheme (base ++ rest).toList = some (some scheme, behind ++ '/' :: c :: tail) := by
    rw [String.toList_append, hrest, splitScheme_append hbase hc, hs]
  rw [parse?_of_splitScheme hwhole, takeWhile_append_cons not_endsAuthority_slash,
    dropWhile_append_cons not_endsAuthority_slash, ← hrest] at h
  split at h
  · cases h
  · next hnot =>
    obtain ⟨⟨path, query⟩, hpath, rfl⟩ := Option.map_eq_some_iff.mp h
    simp only [not_or, Nat.not_lt, Bool.not_eq_false] at hnot
    exact ⟨hnot.1, hnot.2.1, hnot.2.2, path, query, hpath, rfl⟩

end

theorem pathOf_eq {cs : List Char} (hne : cs ≠ []) (h : ∀ c ∈ cs, endsPath c = false) :
    pathOf cs = String.ofList cs := by
  have hself : cs.takeWhile (!endsPath ·) = cs :=
    List.takeWhile_eq_self_iff.mpr fun c hc => by simp [h c hc]
  simp [pathOf, hself, hne]

/-- What is behind a path that was ended is no part of it. -/
theorem takeWhile_endsPath_append {cs : List Char} (h : ∃ d ∈ cs, endsPath d = true) (rest : List Char) :
    (cs ++ rest).takeWhile (!endsPath ·) = cs.takeWhile (!endsPath ·) := by
  obtain ⟨d, hd, hends⟩ := h
  rw [List.takeWhile_append, if_neg]
  intro hlen
  have hself := (List.takeWhile_prefix (!endsPath ·)).eq_of_length hlen
  have hnot := List.takeWhile_eq_self_iff.mp hself d hd
  rw [hends] at hnot
  cases hnot

/-- What is put behind an ended path is lost. -/
theorem pathOf_append_of_endsPath {cs : List Char} (h : ∃ d ∈ cs, endsPath d = true) (rest : List Char) :
    pathOf (cs ++ rest) = pathOf cs := by
  simp only [pathOf, takeWhile_endsPath_append h]

/-- What can be read with something behind it can be read alone; if nothing ends its path, there is no
query. -/
theorem pathAndQuery?_of_append {cs rest : List Char} (hrest : ∀ d ∈ rest, endsPath d = false)
    {path : String} {query : Option String} (h : pathAndQuery? (cs ++ rest) = some (path, query)) :
    ∃ own, pathAndQuery? cs = some (pathOf cs, own) ∧
      ((∀ d ∈ cs, endsPath d = false) → query = none) := by
  have hplain : ∀ xs : List Char, (∀ d ∈ xs, endsPath d = false) → xs.takeWhile (!endsPath ·) = xs :=
    fun xs hxs => List.takeWhile_eq_self_iff.mpr fun d hd => by simp [hxs d hd]
  by_cases hcut : ∀ d ∈ cs, endsPath d = false
  · have hall : ∀ d ∈ cs ++ rest, endsPath d = false := List.forall_mem_append.mpr ⟨hcut, hrest⟩
    simp only [pathAndQuery?, hplain _ hall, List.drop_length] at h
    split at h
    · cases h
    · next hpath =>
      simp only [Bool.not_eq_true', Bool.not_eq_false, List.all_append, Bool.and_eq_true] at hpath
      cases h
      exact ⟨none, by simp [pathAndQuery?, pathOf, hplain _ hcut, hpath.1], fun _ => rfl⟩
  · have hsome : ∃ d ∈ cs, endsPath d = true := by simpa using hcut
    have hlen : (cs.takeWhile (!endsPath ·)).length ≤ cs.length := (List.takeWhile_prefix _).length_le
    simp only [pathAndQuery?, takeWhile_endsPath_append hsome, List.drop_append_of_le_length hlen] at h
    split at h
    · cases h
    · next hpath =>
      simp only [pathAndQuery?, hpath]
      rcases hbehind : cs.drop (cs.takeWhile (!endsPath ·)).length with _ | ⟨d, behind⟩
      · exact ⟨none, rfl, fun h => absurd h hcut⟩
      · by_cases hd : d = '?'
        · subst hd
          rw [hbehind] at h
          split at h
          · next heq =>
            obtain rfl := (List.cons.inj heq).2
            split at h
            · next hquery =>
              have hown : (behind.takeWhile (· ≠ '#')).all isQueryChar = true :=
                List.all_eq_true.mpr fun e he =>
                  List.all_eq_true.mp hquery e ((takeWhile_prefix_append behind rest).subset he)
              simp only [hown]
              exact ⟨_, rfl, fun h => absurd h hcut⟩
            · cases h
          · next hne => exact absurd rfl (hne _)
        · refine ⟨none, ?_, fun h => absurd h hcut⟩
          simp [hd, pathOf]

/-- **The address of a text itself**, which a path behind it leaves as it is: only the path and the query
may differ. -/
theorem exists_own_of_parse?_append {base rest : String} {c : Char} {tail : List Char} {uri : Uri}
    {scheme : Scheme} {behind : List Char} (hbase : base.toList.getLast? ≠ some '/')
    (hrest : rest.toList = '/' :: c :: tail) (hc : c.toLower ≠ '/')
    (hends : ∀ d ∈ rest.toList, endsPath d = false)
    (hs : splitScheme base.toList = some (some scheme, behind)) (h : parse? (base ++ rest) = some uri) :
    ∃ own, parse? base = some own ∧ own.scheme = some scheme ∧ uri.scheme = own.scheme ∧
      uri.authority = own.authority ∧ own.path = pathOf (behind.dropWhile (!endsAuthority ·)) ∧
      uri.path = pathOf (behind.dropWhile (!endsAuthority ·) ++ rest.toList) ∧
      ((∀ d ∈ behind.dropWhile (!endsAuthority ·), endsPath d = false) → uri.query = none) := by
  obtain ⟨hsize, hauthority, hne, path, query, hread, rfl⟩ := parts_of_parse?_append hbase hrest hc hs h
  obtain ⟨own, hown, hquery⟩ := pathAndQuery?_of_append hends hread
  refine ⟨⟨some scheme, _, _, own⟩, ?_, rfl, rfl, rfl, rfl, path_of_pathAndQuery? hread, hquery⟩
  have hshort : ¬(greatestLength < base.utf8ByteSize) := by
    rw [String.utf8ByteSize_append] at hsize
    omega
  rw [parse?_of_splitScheme hs, if_neg (by simp [hshort, hauthority, hne]), hown]
  rfl

end ProofRelay.Http.Uri

import Mathlib.Data.List.DropRight
import ProofRelay.Config.Environment
import ProofRelay.Proofs.Config

/-!
Where the addresses of an accepted configuration lead.  A configuration is accepted for how the address of its
prover begins (`accepted_iff`).  Paths can be put behind an address in which nothing ends a path
(`Config.IsOpen`); behind a `?` or a `#` they are part of a query or are dropped, and all addresses lead where
the address of the prover leads alone (`leads_of_accepted`):

    open      http://prover:8080/api/     ↦  http://prover:8080/api/proxy
    not open  http://prover:8080/api?a=1  ↦  http://prover:8080/api?a=1/proxy
-/

namespace ProofRelay.Config

/-! ## Accepted configurations -/

/-- A configuration that building gives, or the environment. -/
def Accepted (c : Config) : Prop := (∃ d : Draft, d.build = .ok c) ∨ ∃ vars, ofEnvironment vars = .ok c

theorem checkUrl_eq_ok_iff {url : String} : checkUrl url = .ok () ↔ isHttpUrl url = true := by
  rw [checkUrl]
  split
  · next h => exact iff_of_true rfl h
  · next h => exact iff_of_false (by simp) h

theorem isHttpUrl_of_build {d : Draft} {c : Config} (h : d.build = .ok c) : isHttpUrl c.proverUrl = true := by
  rw [Draft.build] at h
  split at h
  · cases h
  · next filled hfill =>
    cases hcheck : checkUrl filled.proverUrl with
    | error error =>
      rw [hcheck] at h
      cases h
    | ok =>
      rw [hcheck] at h
      cases h
      exact checkUrl_eq_ok_iff.mp hcheck

theorem isHttpUrl_of_ofEnvironment {vars : Environment.Variables} {c : Config}
    (h : ofEnvironment vars = .ok c) : isHttpUrl c.proverUrl = true := by
  unfold ofEnvironment at h
  cases hdraft : Environment.draft vars with
  | error error =>
    rw [hdraft] at h
    cases h
  | ok d =>
    simp only [hdraft, bind, Except.bind] at h
    split at h
    · cases h
    · next filled hfill =>
      cases hcheck : checkUrl filled.proverUrl with
      | error error =>
        rw [hcheck] at h
        cases h
      | ok =>
        rw [hcheck] at h
        cases h
        exact checkUrl_eq_ok_iff.mp hcheck

/-- **A configuration is accepted** for how the address of its prover begins, whatever else is in it. -/
theorem accepted_iff {c : Config} : c.Accepted ↔ isHttpUrl c.proverUrl = true := by
  refine ⟨?_, fun h => ?_⟩
  · rintro (⟨d, hd⟩ | ⟨vars, hvars⟩)
    · exact isHttpUrl_of_build hd
    · exact isHttpUrl_of_ofEnvironment hvars
  · refine .inl ⟨⟨some c.proverUrl, some c.throwOnError, some c.proofTimeoutMs, some c.gateTimeoutMs⟩, ?_⟩
    simp [Draft.build, Draft.fill?, checkUrl_eq_ok_iff.mpr h, Except.map]

/-! ## The address of the prover -/

/-- Whether paths can be put behind the address of the prover: nothing in it ends a path. -/
def IsOpen (c : Config) : Prop := ∀ d ∈ c.proverUrl.toList, Http.Uri.endsPath d = false

instance (c : Config) : Decidable c.IsOpen :=
  decidable_of_iff (c.proverUrl.toList.all (!Http.Uri.endsPath ·) = true) (by simp [IsOpen])

theorem toList_trimSlashes (url : String) :
    (trimSlashes url).toList = url.toList.rdropWhile (· = '/') := by
  rw [trimSlashes, String.toList_ofList, List.rdropWhile]

theorem trimSlashes_eq_self {url : String} (h : url.toList.getLast? ≠ some '/') : trimSlashes url = url := by
  rw [← String.toList_inj, toList_trimSlashes, List.rdropWhile_eq_self_iff]
  intro hne hlast
  exact h (by rw [List.getLast?_eq_getLast_of_ne_nil hne, of_decide_eq_true hlast])

/-- The slashes that are trimmed end no path. -/
theorem isOpen_iff {c : Config} : c.IsOpen ↔ ∀ d ∈ c.base.toList, Http.Uri.endsPath d = false := by
  have hslash : ∀ d ∈ c.proverUrl.toList.rtakeWhile (· = '/'), Http.Uri.endsPath d = false := by
    intro d hd
    have hd : d = '/' := by simpa using List.mem_rtakeWhile_imp hd
    rw [hd]
    decide
  rw [IsOpen, base, toList_trimSlashes]
  conv_lhs => rw [← List.rdropWhile_append_rtakeWhile (p := (· = '/')) (l := c.proverUrl.toList)]
  rw [List.forall_mem_append]
  exact and_iff_left hslash

/-- The address of an HTTP server without the slashes at its end: the mark of the scheme may be cut. -/
theorem base_of_isHttpUrl {c : Config} (h : isHttpUrl c.proverUrl = true) :
    ∃ scheme, (scheme = Http.Scheme.http ∨ scheme = .https) ∧
      (c.base = scheme.write ++ ":" ∨ ∃ behind, c.base.toList = (scheme.write ++ "://").toList ++ behind) := by
  obtain ⟨scheme, hscheme, behind, hbehind⟩ : ∃ scheme, (scheme = Http.Scheme.http ∨ scheme = .https) ∧
      ∃ behind, c.proverUrl.toList = (scheme.write ++ "://").toList ++ behind := by
    rw [isHttpUrl, Bool.or_eq_true, List.isPrefixOf_iff_prefix, List.isPrefixOf_iff_prefix] at h
    rcases h with ⟨behind, hb⟩ | ⟨behind, hb⟩
    · exact ⟨.http, .inl rfl, behind, hb.symm⟩
    · exact ⟨.https, .inr rfl, behind, hb.symm⟩
  refine ⟨scheme, hscheme, ?_⟩
  have hcut : (scheme.write ++ "://").toList.reverse.dropWhile (· = '/') =
      (scheme.write ++ ":").toList.reverse := by
    rcases hscheme with rfl | rfl <;> decide +kernel
  rw [base, trimSlashes, hbehind, List.reverse_append, List.dropWhile_append, hcut]
  split
  · exact .inl (by rw [List.reverse_reverse, String.ofList_toList])
  · refine .inr ⟨(behind.reverse.dropWhile (· = '/')).reverse, ?_⟩
    rw [String.toList_ofList, List.reverse_append, List.reverse_reverse]

/-- A path is ended behind the authority only. -/
theorem isOpen_iff_behind {c : Config} {scheme : Http.Scheme} {behind : List Char}
    (hscheme : scheme = .http ∨ scheme = .https)
    (hbase : c.base.toList = (scheme.write ++ "://").toList ++ behind) :
    c.IsOpen ↔ ∀ d ∈ behind.dropWhile (!Http.Uri.endsAuthority ·), Http.Uri.endsPath d = false := by
  have hmark : ∀ d ∈ (scheme.write ++ "://").toList, Http.Uri.endsPath d = false := by
    have hall : (scheme.write ++ "://").toList.all (!Http.Uri.endsPath ·) = true := by
      rcases hscheme with rfl | rfl <;> decide +kernel
    intro d hd
    simpa using List.all_eq_true.mp hall d hd
  have hauthority : ∀ d ∈ behind.takeWhile (!Http.Uri.endsAuthority ·), Http.Uri.endsPath d = false := by
    intro d hd
    have hnot := List.mem_takeWhile_imp hd
    simp only [Http.Uri.endsAuthority, Bool.not_or, Bool.and_eq_true] at hnot
    simp_all [Http.Uri.endsPath]
  rw [isOpen_iff, hbase, List.forall_mem_append]
  conv_lhs => rw [← List.takeWhile_append_dropWhile (p := (!Http.Uri.endsAuthority ·)) (l := behind)]
  rw [List.forall_mem_append]
  exact ⟨fun h => h.2.2, fun h => ⟨hmark, hauthority, h⟩⟩

theorem getLast?_dropWhile_behind {c : Config} {mark behind : List Char} {p : Char → Bool}
    (hbase : c.base.toList = mark ++ behind) : (behind.dropWhile p).getLast? ≠ some '/' := by
  intro hlast
  have hmem : behind.dropWhile p ≠ [] := by
    intro hnil
    rw [hnil] at hlast
    cases hlast
  refine c.getLast?_base ?_
  rw [hbase, ← List.takeWhile_append_dropWhile (p := p) (l := behind), ← List.append_assoc,
    List.getLast?_append_of_ne_nil _ hmem, hlast]

/-- A path behind a text that is empty or a path without a slash at its end. -/
theorem pathOf_append_eq {cs : List Char} {path : String} (hlast : cs.getLast? ≠ some '/')
    (hcs : ∀ d ∈ cs, Http.Uri.endsPath d = false) (hne : path.toList ≠ [])
    (hends : ∀ d ∈ path.toList, Http.Uri.endsPath d = false) :
    Http.Uri.pathOf (cs ++ path.toList) = trimSlashes (Http.Uri.pathOf cs) ++ path := by
  rw [Http.Uri.pathOf_eq (by simp [hne]) (List.forall_mem_append.mpr ⟨hcs, hends⟩)]
  by_cases hnil : cs = []
  · have hroot : trimSlashes (Http.Uri.pathOf []) = "" := by decide +kernel
    rw [hnil, hroot, List.nil_append, String.ofList_toList, String.empty_append]
  · rw [Http.Uri.pathOf_eq hnil hcs, trimSlashes_eq_self (by rwa [String.toList_ofList]),
      String.ofList_append, String.ofList_toList]

/-! ## Where addresses lead -/

/-- Where an address leads that has `path` behind the address of the prover: by HTTP, and to the same host as
the address of the prover alone.  The path is put behind that address's own one, or is lost. -/
structure Leads (c : Config) (path : String) (uri : Http.Uri) : Prop where
  scheme : uri.scheme = some .http ∨ uri.scheme = some .https
  own : ∃ own, Http.Uri.parse? c.base = some own ∧ uri.scheme = own.scheme ∧ uri.authority = own.authority ∧
    (c.IsOpen → uri.path = trimSlashes own.path ++ path ∧ uri.query = none) ∧
    (¬c.IsOpen → uri.path = own.path)

theorem leads_of_accepted {c : Config} (h : c.Accepted) {path : String} {d : Char} {tail : List Char}
    {uri : Http.Uri} (hpath : path.toList = '/' :: d :: tail) (hd : d.toLower ≠ '/')
    (hends : ∀ e ∈ path.toList, Http.Uri.endsPath e = false)
    (hparse : Http.Uri.parse? (c.base ++ path) = some uri) : c.Leads path uri := by
  have hlast := c.getLast?_base
  obtain ⟨scheme, hscheme, hcut | ⟨behind, hbase⟩⟩ := base_of_isHttpUrl (accepted_iff.mp h)
  · -- what is left of a mark has no slash, so it is no scheme
    have hno : c.base.toList ≠ [] ∧ '/' ∉ c.base.toList := by
      rw [hcut]
      rcases hscheme with rfl | rfl <;> exact ⟨by decide +kernel, by decide +kernel⟩
    rcases Http.Uri.exists_scheme_of_parse?_append hlast hpath hd hparse with hnil | ⟨cs, hcs⟩ | ⟨s, behind, hs⟩
    · exact absurd hnil hno.1
    · exact absurd (by rw [hcs]; simp) hno.2
    · exact absurd (Http.Uri.slash_mem_of_splitScheme hs) hno.2
  · have hs : Http.Uri.splitScheme c.base.toList = some (some scheme, behind) := by
      rw [hbase]
      exact Http.Uri.splitScheme_of_http hscheme behind
    obtain ⟨own, hown, hownScheme, huriScheme, hauthority, hownPath, huriPath, hquery⟩ :=
      Http.Uri.exists_own_of_parse?_append hlast hpath hd hends hs hparse
    have hopen := isOpen_iff_behind hscheme hbase
    have hscheme' : uri.scheme = some .http ∨ uri.scheme = some .https := by
      rw [huriScheme, hownScheme]
      exact hscheme.imp (congrArg some) (congrArg some)
    refine ⟨hscheme', own, hown, huriScheme, hauthority, fun h => ⟨?_, hquery (hopen.mp h)⟩, fun h => ?_⟩
    · rw [hownPath, huriPath]
      exact pathOf_append_eq (getLast?_dropWhile_behind hbase) (hopen.mp h) (by simp [hpath]) hends
    · have hsome := mt hopen.mpr h
      rw [huriPath, hownPath, Http.Uri.pathOf_append_of_endsPath (by simpa using hsome)]

/-- Whether addresses with a path behind the address of the prover end in it: paths can be put there, or the
address ends in it by itself. -/
def Reaches (c : Config) (path : String) : Prop :=
  c.IsOpen ∨ ∃ own, Http.Uri.parse? c.base = some own ∧ path.toList <:+ own.path.toList

theorem Leads.suffix_iff {c : Config} {path : String} {uri : Http.Uri} (h : c.Leads path uri) :
    path.toList <:+ uri.path.toList ↔ c.Reaches path := by
  obtain ⟨own, hown, -, -, hopen, hlost⟩ := h.own
  by_cases ho : c.IsOpen
  · refine iff_of_true ?_ (.inl ho)
    rw [(hopen ho).1, String.toList_append]
    exact List.suffix_append _ _
  · rw [hlost ho, Reaches]
    refine ⟨fun hs => .inr ⟨own, hown, hs⟩, ?_⟩
    rintro (h | ⟨own', hown', hs⟩)
    · exact absurd h ho
    · rw [hown] at hown'
      rwa [Option.some.inj hown']

/-- No path ends in both the path of the proxy and that of a proof: an id has no `y`. -/
theorem isOpen_of_reaches {c : Config} {bits : BitVec 122} (hproxy : c.Reaches ProverPath.proxy.text)
    (hproof : c.Reaches (proofPath (.ofBits bits))) : c.IsOpen := by
  rcases hproxy with h | ⟨own, hown, hp⟩
  · exact h
  rcases hproof with h | ⟨own', hown', hq⟩
  · exact h
  rw [hown] at hown'
  obtain rfl := Option.some.inj hown'
  have hlast : (proofPath (.ofBits bits)).toList.getLast? = some 'y' := by
    obtain ⟨before, hp⟩ := hp
    obtain ⟨before', hq⟩ := hq
    rw [← List.getLast?_append_of_ne_nil before' (by simp [toList_proofPath]), hq, ← hp, toList_proxy]
    simp
  rw [toList_proofPath, ← List.cons_append, ← List.cons_append,
    List.getLast?_append_of_ne_nil _ (by simp)] at hlast
  rcases List.mem_cons.mp (List.mem_of_getLast? hlast) with hslash | hid
  · cases hslash
  · exact absurd (RequestId.isIdChar_of_mem bits 'y' hid) (by rw [RequestId.IsIdChar]; decide)

/-- **Where the addresses of a configuration lead.**

* It is accepted just if the address of its prover begins like that of an HTTP server.
* If it is, every address that has a path behind that of the prover leads by HTTP to the same host; its path
  ends in the path that was put there if and only if nothing in the address of the prover ends a path, or that
  address ends in the very path by itself.
* With an address that ends a path, requests and proofs cannot both be reached. -/
theorem endpoints_of_accepted (c : Config) :
    (c.Accepted ↔ isHttpUrl c.proverUrl = true) ∧
    (c.Accepted →
      (∀ uri, Http.Uri.parse? (c.endpoint .proxy) = some uri →
        c.Leads ProverPath.proxy.text uri ∧
        (ProverPath.proxy.text.toList <:+ uri.path.toList ↔ c.Reaches ProverPath.proxy.text)) ∧
      ∀ bits uri, Http.Uri.parse? (c.proofUrl (.ofBits bits)) = some uri →
        c.Leads (proofPath (.ofBits bits)) uri ∧
        ((proofPath (.ofBits bits)).toList <:+ uri.path.toList ↔ c.Reaches (proofPath (.ofBits bits)))) ∧
    ∀ bits, c.Reaches ProverPath.proxy.text ∧ c.Reaches (proofPath (.ofBits bits)) ↔ c.IsOpen := by
  refine ⟨accepted_iff, fun h => ⟨fun uri hparse => ?_, fun bits uri hparse => ?_⟩,
    fun bits => ⟨fun h => isOpen_of_reaches h.1 h.2, fun h => ⟨.inl h, .inl h⟩⟩⟩
  · have hleads : c.Leads ProverPath.proxy.text uri :=
      leads_of_accepted h toList_proxy (by decide) endsPath_proxy hparse
    exact ⟨hleads, hleads.suffix_iff⟩
  · rw [proofUrl_eq] at hparse
    have hleads : c.Leads (proofPath (.ofBits bits)) uri :=
      leads_of_accepted h (toList_proofPath _) (by decide) (endsPath_proofPath bits) hparse
    exact ⟨hleads, hleads.suffix_iff⟩

/-- Trimmed slashes and a path of the prover's own. -/
theorem endpoints_of_accepted_with_slashes :
    ∃ c : Config, c.proverUrl = "http://prover:8080/api//" ∧ c.Accepted ∧
      ∃ uri, Http.Uri.parse? (c.endpoint .proxy) = some uri ∧ uri.path = "/api/proxy" ∧
        ProverPath.proxy.text.toList <:+ uri.path.toList := by
  let c : Config := ⟨"http://prover:8080/api//", false, defaultProofTimeoutMs, defaultGateTimeoutMs⟩
  have haccepted : c.Accepted := accepted_iff.mpr (by decide +kernel)
  have hparse : Http.Uri.parse? (c.endpoint .proxy) =
      some ⟨some .http, some "prover:8080", "/api/proxy", none⟩ := by decide +kernel
  have hopen : c.IsOpen := by decide +kernel
  exact ⟨c, rfl, haccepted, _, hparse, rfl,
    (((endpoints_of_accepted c).2.1 haccepted).1 _ hparse).2.mpr (.inl hopen)⟩

/-- Behind a query, requests and proofs are asked of the root of the server. -/
theorem endpoints_lost_in_query :
    ∃ c : Config, Draft.build { proverUrl := some "http://prover:8080?tenant=1" } = .ok c ∧
      Http.Uri.parse? (c.endpoint .proxy) =
        some ⟨some .http, some "prover:8080", "/", some "tenant=1/proxy"⟩ ∧
      (Http.Uri.parse? (c.proofUrl (.ofBits 0))).map Http.Uri.path = some "/" := by
  refine ⟨⟨"http://prover:8080?tenant=1", false, defaultProofTimeoutMs, defaultGateTimeoutMs⟩, ?_, ?_, ?_⟩ <;>
    decide +kernel

end ProofRelay.Config

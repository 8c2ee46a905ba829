import Mathlib.Data.List.DropRight
import Mathlib.Tactic.ByContra
import ProofRelay.Proofs.EventStream.Feed
import ProofRelay.Proofs.Http.Headers

/-!
Which heads open a channel.  A channel is opened by how the content type begins, not by its media type
(`IsEventStream`): the part before the first `;`, without blanks around it and in any case of letters.  The two
differ on the content types of which the beginning says too much or too little (`Misjudged`):

    text/event-stream; charset=utf-8      opens, and is an event stream
    text/event-streams                    opens, and is none
    Text/Event-Stream                     is refused, and is one

    the channel is opened  ↔  the first content type reads as a text that begins with `text/event-stream`
    this is the same as what its media type says  ↔  the text is not misjudged          (opens_iff_begins_with_type)
-/

namespace ProofRelay.EventStream

/-! ## Media types -/

/-- Whether a character is a blank that may stand around a media type. -/
def isTypeBlank (c : Char) : Bool := c = ' ' || c = '\t'

/-- The media type of a content type: what stands before the first `;`, without the blanks around it. -/
def mediaType (contentType : String) : List Char :=
  ((contentType.toList.takeWhile (· ≠ ';')).dropWhile isTypeBlank).rdropWhile isTypeBlank

/-- Whether a content type is that of event streams, in any case of letters. -/
def IsEventStream (contentType : String) : Prop := (mediaType contentType).map Char.toLower = mime.toList

instance (contentType : String) : Decidable (IsEventStream contentType) := by
  unfold IsEventStream; infer_instance

/-- Whether characters have blanks only before the first `;` in them. -/
def Blank (cs : List Char) : Prop := ∀ c ∈ cs.takeWhile (· ≠ ';'), isTypeBlank c = true

/-- Whether characters write the type of event streams in any case of letters. -/
def Spells (cs : List Char) : Prop := cs.map Char.toLower = mime.toList

theorem spells_mime : Spells mime.toList := by
  rw [Spells]
  decide

/-- No character of the type is a `;` or a blank, in whatever case. -/
theorem Spells.plain {cs : List Char} (h : Spells cs) {c : Char} (hc : c ∈ cs) :
    c ≠ ';' ∧ isTypeBlank c = false := by
  have hmem : c.toLower ∈ mime.toList := h ▸ List.mem_map_of_mem hc
  refine ⟨?_, ?_⟩
  · rintro rfl
    exact absurd hmem (by decide)
  · rw [Bool.eq_false_iff, isTypeBlank]
    intro hblank
    simp only [Bool.or_eq_true, decide_eq_true_eq] at hblank
    rcases hblank with rfl | rfl <;> exact absurd hmem (by decide)

theorem Spells.length_eq {cs : List Char} (h : Spells cs) : cs.length = mime.toList.length := by
  rw [← h, List.length_map]

theorem Spells.ne_nil {cs : List Char} (h : Spells cs) : cs ≠ [] := by
  rintro rfl
  exact absurd h.length_eq (by decide)

theorem takeWhile_dropWhile_eq_nil (p : Char → Bool) (cs : List Char) : (cs.dropWhile p).takeWhile p = [] := by
  induction cs with
  | nil => rfl
  | cons c cs ih => by_cases h : p c = true <;> simp [h, ih]

/-- What is trimmed at the end does not depend on what is before it. -/
theorem rdropWhile_append_of_pos {p : Char → Bool} {ys : List Char} (h : ∀ c ∈ ys, p c = true) (xs : List Char) :
    (xs ++ ys).rdropWhile p = xs.rdropWhile p := by
  rw [List.rdropWhile, List.rdropWhile, List.reverse_append, List.dropWhile_append_of_pos]
  intro c hc
  exact h c (List.mem_reverse.mp hc)

/-- **A content type is that of event streams** just if the type stands in it in any case of letters, with
blanks only before it, and behind it up to the first `;`. -/
theorem isEventStream_iff {contentType : String} :
    IsEventStream contentType ↔ ∃ before spelled behind, contentType.toList = before ++ spelled ++ behind ∧
      (∀ c ∈ before, isTypeBlank c = true) ∧ Spells spelled ∧ Blank behind := by
  constructor
  · intro h
    have hfront := List.takeWhile_append_dropWhile (p := (· ≠ ';')) (l := contentType.toList)
    have hleft := List.takeWhile_append_dropWhile (p := isTypeBlank) (l := contentType.toList.takeWhile (· ≠ ';'))
    have hright := List.rdropWhile_append_rtakeWhile (p := isTypeBlank)
      (l := (contentType.toList.takeWhile (· ≠ ';')).dropWhile isTypeBlank)
    refine ⟨(contentType.toList.takeWhile (· ≠ ';')).takeWhile isTypeBlank, mediaType contentType,
      ((contentType.toList.takeWhile (· ≠ ';')).dropWhile isTypeBlank).rtakeWhile isTypeBlank ++
        contentType.toList.dropWhile (· ≠ ';'), ?_, fun c hc => List.mem_takeWhile_imp hc, h, ?_⟩
    · rw [mediaType, ← List.append_assoc, List.append_assoc (List.takeWhile _ _), hright, hleft, hfront]
    · -- behind the type are the blanks that are trimmed, and the rest begins with `;`
      intro c hc
      rw [List.takeWhile_append] at hc
      split at hc
      · rcases List.mem_append.mp hc with hc | hc
        · exact List.mem_rtakeWhile_imp hc
        · rw [takeWhile_dropWhile_eq_nil] at hc
          cases hc
      · exact List.mem_rtakeWhile_imp ((List.takeWhile_sublist _).mem hc)
  · rintro ⟨before, spelled, behind, htext, hbefore, hspelled, hbehind⟩
    have hbefore' : ∀ c ∈ before, (decide (c ≠ ';')) = true := by
      intro c hc
      rw [decide_eq_true_eq]
      rintro rfl
      exact absurd (hbefore _ hc) (by decide)
    have hspelled' : ∀ c ∈ spelled, (decide (c ≠ ';')) = true := fun c hc => by
      simpa using (hspelled.plain hc).1
    obtain ⟨c, cs, hcs⟩ := List.exists_cons_of_ne_nil hspelled.ne_nil
    have hfirst : isTypeBlank c = false := (hspelled.plain (hcs ▸ List.mem_cons_self)).2
    have hlast : spelled.rdropWhile isTypeBlank = spelled := by
      rw [List.rdropWhile_eq_self_iff]
      intro hne
      rw [(hspelled.plain (List.getLast_mem hne)).2]
      exact Bool.false_ne_true
    have htype : mediaType contentType = spelled := by
      rw [mediaType, htext, List.append_assoc, List.takeWhile_append_of_pos hbefore',
        List.takeWhile_append_of_pos hspelled', List.dropWhile_append_of_pos hbefore, hcs, List.cons_append,
        List.dropWhile_cons_of_neg (by simp [hfirst]), ← List.cons_append, ← hcs,
        rdropWhile_append_of_pos hbehind, hlast]
    rw [IsEventStream, htype]
    exact hspelled

/-- Behind no blanks and in its own case of letters is where the type stands in a content type that begins with
it. -/
theorem eq_of_begins {before spelled behind rest : List Char}
    (h : mime.toList ++ rest = before ++ spelled ++ behind) (hbefore : ∀ c ∈ before, isTypeBlank c = true)
    (hspelled : Spells spelled) : before = [] ∧ spelled = mime.toList ∧ behind = rest := by
  cases before with
  | nil =>
    obtain ⟨hsame, hrest⟩ := List.append_inj h hspelled.length_eq.symm
    exact ⟨rfl, hsame.symm, hrest.symm⟩
  | cons b before =>
    have hb : 't' = b := by
      have hhead := congrArg List.head? h
      simpa [mime] using hhead
    exact absurd (hbefore b List.mem_cons_self) (by rw [← hb]; decide)

/-- A content type that begins with the type is that of event streams just if only blanks follow. -/
theorem isEventStream_of_begins {contentType : String} {rest : List Char}
    (h : contentType.toList = mime.toList ++ rest) : IsEventStream contentType ↔ Blank rest := by
  rw [isEventStream_iff]
  constructor
  · rintro ⟨before, spelled, behind, htext, hbefore, hspelled, hbehind⟩
    rw [h] at htext
    rw [← (eq_of_begins htext hbefore hspelled).2.2]
    exact hbehind
  · intro hblank
    exact ⟨[], mime.toList, rest, by rw [h, List.nil_append], by simp, spells_mime, hblank⟩

/-! ## Content types that are misjudged -/

/-- A content type whose beginning does not tell its media type. -/
inductive Misjudged (contentType : String) : Prop
  /-- It begins with the type, and goes on before a `;` ends it. -/
  | longer (rest : List Char) (text : contentType.toList = mime.toList ++ rest) (goes_on : ¬Blank rest)
  /-- It is the type, behind blanks or in another case of letters. -/
  | respelled (before spelled behind : List Char) (text : contentType.toList = before ++ spelled ++ behind)
      (before_blank : ∀ c ∈ before, isTypeBlank c = true) (spells : Spells spelled) (behind_blank : Blank behind)
      (other : before ≠ [] ∨ spelled ≠ mime.toList)

/-- **The beginning of a content type** tells its media type just if it is not misjudged. -/
theorem begins_iff_isEventStream {contentType : String} :
    (mime.toList <+: contentType.toList ↔ IsEventStream contentType) ↔ ¬Misjudged contentType := by
  constructor
  · intro h hmis
    cases hmis with
    | longer rest text goes_on => exact goes_on ((isEventStream_of_begins text).mp (h.mp ⟨rest, text.symm⟩))
    | respelled before spelled behind text before_blank spells behind_blank other =>
      obtain ⟨rest, hrest⟩ := h.mpr
        (isEventStream_iff.mpr ⟨before, spelled, behind, text, before_blank, spells, behind_blank⟩)
      rw [← hrest] at text
      obtain ⟨hnil, hsame, -⟩ := eq_of_begins text before_blank spells
      exact other.elim (fun hne => hne hnil) (fun hne => hne hsame)
  · intro hnot
    constructor
    · rintro ⟨rest, hrest⟩
      rw [isEventStream_of_begins hrest.symm]
      by_contra hblank
      exact hnot (.longer rest hrest.symm hblank)
    · intro hstream
      obtain ⟨before, spelled, behind, text, hbefore, hspelled, hbehind⟩ := isEventStream_iff.mp hstream
      by_contra hbegins
      refine hnot (.respelled before spelled behind text hbefore hspelled hbehind ?_)
      by_contra hsame
      rw [not_or, not_not, not_not] at hsame
      obtain ⟨rfl, rfl⟩ := hsame
      exact hbegins ⟨behind, by rw [text, List.nil_append]⟩

/-! ## Heads -/

namespace Feed

/-- Whether the first item of a channel says that it is open. -/
def Opens (reply : Http.Reply) : Prop := (connecting reply).next.1 = .opened

theorem accepts_iff {contentType : String} :
    accepts contentType = true ↔ mime.toList <+: contentType.toList :=
  String.startsWith_string_iff

/-- A success head opens a channel for the beginning of its content type alone. -/
theorem opens_iff {head : Http.Head} (hsuccess : head.status.isSuccess = true) (body : Http.Incoming) :
    Opens (some (head, body)) ↔ (head.headers.text? .contentType).any accepts = true := by
  rw [Opens, next, refusal?]
  simp only [hsuccess]
  by_cases h : (head.headers.text? .contentType).any accepts = true
  · simp [h]
  · simp [h]

/-- A success head that opens no channel is a failure that carries what the content type says, and nothing
follows. -/
theorem take_of_not_opens {head : Http.Head} (hsuccess : head.status.isSuccess = true) {body : Http.Incoming}
    (h : ¬Opens (some (head, body))) (polls : Nat) :
    take polls (connecting (some (head, body))) =
      [Item.failed (.contentType (head.headers.text? .contentType)), .ended].take polls := by
  rw [opens_iff hsuccess, Bool.not_eq_true] at h
  rw [take_connecting, Batch.items]
  simp [hsuccess, h]

end Feed

/-- **Which success heads open a channel.**

* A channel is opened if and only if the first content type reads as text and begins with the type of event
  streams.
* Otherwise it fails, and the failure carries what the first content type reads as, if it does; however often it
  is asked, nothing of the body is given.
* For all content types of a head but the misjudged ones, and for no others, this is what the media type says. -/
theorem opens_iff_begins_with_type {head : Http.Head} (hsuccess : head.status.isSuccess = true)
    (body : Http.Incoming) :
    let opens := Feed.Opens (some (head, body))
    let said := head.headers.Says .contentType
    (opens ↔ ∃ text, said text ∧ mime.toList <+: text.toList) ∧
    (¬opens → ∃ carried, (∀ text, carried = some text ↔ said text) ∧
      ∀ polls, Feed.take polls (.connecting (some (head, body))) =
        [Item.failed (.contentType carried), .ended].take polls) ∧
    ((opens ↔ ∃ text, said text ∧ IsEventStream text) ↔ ∀ text, said text → ¬Misjudged text) := by
  intro opens said
  have hsaid : ∀ text, head.headers.text? .contentType = some text ↔ said text := fun text =>
    Http.Headers.says_iff.symm
  have hopens : opens ↔ ∃ text, said text ∧ mime.toList <+: text.toList := by
    refine (Feed.opens_iff hsuccess body).trans ?_
    rw [Option.any_eq_true]
    simp only [hsaid, Feed.accepts_iff]
  refine ⟨hopens, fun h => ⟨_, hsaid, Feed.take_of_not_opens hsuccess h⟩, ?_⟩
  rw [hopens]
  cases htext : head.headers.text? .contentType with
  | none =>
    have hnone : ∀ text, ¬said text := Http.Headers.text?_eq_none_iff.mp htext
    simp [hnone]
  | some text =>
    have hone : ∀ other, said other ↔ other = text := by
      intro other
      rw [← hsaid, htext, Option.some.injEq, eq_comm]
    simp only [hone, exists_eq_left, forall_eq]
    exact begins_iff_isEventStream

/-- A parameter behind the type does no harm, and another type is refused with its text. -/
theorem opens_iff_begins_with_type_of_parameter :
    let head (contentType : String) : Http.Head :=
      ⟨.ok, Http.Headers.empty.append .contentType (.ofText contentType)⟩
    let body : Http.Incoming := ⟨[.data (Utf8.encode "data: a\n\n")], false⟩
    Feed.Opens (some (head "text/event-stream ;charset=utf-8", body)) ∧
      IsEventStream "text/event-stream ;charset=utf-8" ∧
      ∀ polls, Feed.take polls (.connecting (some (head "text/plain", body))) =
        [Item.failed (.contentType (some "text/plain")), .ended].take polls := by
  intro head body
  have hstream := @opens_iff_begins_with_type (head "text/event-stream ;charset=utf-8") (by decide) body
  have hplain := @opens_iff_begins_with_type (head "text/plain") (by decide) body
  have hbegins : mime.toList <+: "text/event-stream ;charset=utf-8".toList := by decide
  have hsaid : (head "text/event-stream ;charset=utf-8").headers.Says .contentType
        "text/event-stream ;charset=utf-8" ∧
      (head "text/plain").headers.Says .contentType "text/plain" := by
    rw [Http.Headers.says_iff, Http.Headers.says_iff]
    decide +kernel
  refine ⟨hstream.1.mpr ⟨_, hsaid.1, hbegins⟩, by decide +kernel, fun polls => ?_⟩
  obtain ⟨carried, hcarried, htake⟩ := hplain.2.1 (by unfold Feed.Opens; decide +kernel)
  rw [(hcarried "text/plain").mpr hsaid.2] at htake
  exact htake polls

/-- A longer type opens a channel and its messages are taken, and the type in another case of letters is refused. -/
theorem media_types_misjudged :
    let reply (contentType : String) : Http.Reply :=
      some (⟨.ok, Http.Headers.empty.append .contentType (.ofText contentType)⟩,
        ⟨[.data (Utf8.encode "data: a\n\n")], false⟩)
    ¬IsEventStream "text/event-streams" ∧
      Feed.items (reply "text/event-streams") = [.opened, .message "a", .ended] ∧
      IsEventStream "Text/Event-Stream" ∧
      Feed.items (reply "Text/Event-Stream") =
        [.failed (.contentType (some "Text/Event-Stream")), .ended] := by
  decide +kernel

end ProofRelay.EventStream

import ProofRelay.Proofs.Config.Endpoints
import ProofRelay.Proofs.Exchange.Effects
import ProofRelay.Proofs.Exchange.Provenance
import ProofRelay.Proofs.Network.Lines

/-!
Whose proof a response carries.  All calls share the slots of one prover, and their connections, requests and
answers, the failures of these, and the ends of retentions come in any order.  A call takes from its channel
nothing but what is published for the id that the address of the channel names (`Call.Sound`), and that is the
id of its own request if the address of the prover, behind which it is put, has neither a query nor a fragment
(`Call.Sound.awaited?_eq`).
-/

namespace ProofRelay.Network

open Prover

namespace Call

/-- The id for whose proof the channel of a call waits, if it waits at a prover for any. -/
def awaited? (c : Call) : Option String :=
  (Http.Uri.parse? (c.config.proofUrl c.id)).bind fun uri => Prover.awaited? uri.path

/-- Whether a text is the proof that the channel of a call waits for. -/
def Awaits (c : Call) (text : String) : Prop := ∃ id, c.awaited? = some id ∧ Published id text

/-- What a call has of its channel is what its channel waits for. -/
structure Sound (slots : Slots) (c : Call) : Prop where
  id : ∃ bits, c.id = .ofBits bits
  header : ∃ v, c.exchange.request.headers.values .requestId = [v] ∧ v.text? = some c.id.text
  line : ∀ line, c.line = some line → line.Carries slots c.awaited?
  exchange : c.exchange.Bears c.Awaits

/-! ## Beginning -/

theorem eq_ok_of_toOption {ε α : Type} {e : Except ε α} {a : α} (h : e.toOption = some a) : e = .ok a := by
  cases e with
  | ok b =>
    cases h
    rfl
  | error error => cases h

theorem sound_make {now : Instant} {config : Config} {method : Http.Method} {url : String}
    {steps : List ProxyRequest.Step} {bits : BitVec 122} {c : Call}
    (h : make? now config method url steps bits = some c) (slots : Slots) : c.Sound slots := by
  simp only [make?, Option.bind_eq_bind, Option.bind_eq_some_iff] at h
  obtain ⟨r, hr, x, hx, hc⟩ := h
  cases hc
  replace hr := eq_ok_of_toOption hr
  replace hx := eq_ok_of_toOption hx
  have hstart := Exchange.start_cases hr config bits
    (fun url => (EventStream.address url).map fun _ => ()) now
  rw [hx] at hstart
  split at hstart
  · cases hstart
  · cases hstart
  · obtain ⟨y, hy, -, hheader, -⟩ := hstart
    cases hy
    exact ⟨⟨bits, rfl⟩, hheader, (by rintro _ ⟨⟩), Exchange.bears_start hx⟩

/-! ## One thing happens -/

variable {c : Call} {slots slots' : Slots}

theorem Sound.keepsIds (h : c.Sound slots) (hk : slots.KeepsIds slots') : c.Sound slots' :=
  { h with line := fun line hl => (h.line line hl).keepsIds hk }

theorem Sound.step (h : c.Sound slots) (now : Instant) {stimulus : Exchange.Stimulus}
    (hm : ∀ text, stimulus = .arrive (.message text) → c.Awaits text) : (c.step now stimulus).Sound slots where
  id := h.id
  header := by
    rw [Call.step, Exchange.request_step]
    exact h.header
  line := h.line
  exchange := h.exchange.step now hm

theorem Sound.setLine (h : c.Sound slots) (hk : slots.KeepsIds slots') {line : Line}
    (hl : line.Carries slots' c.awaited?) : ({ c with line := some line } : Call).Sound slots' :=
  { h.keepsIds hk with
    line := by
      rintro _ ⟨⟩
      exact hl }

theorem Sound.arrive (h : c.Sound slots) (now : Instant) {item : Item} {line : Line}
    (hm : ∀ text, item = .message text → c.Awaits text) (hl : line.Carries slots c.awaited?) :
    (c.arrive now item line).Sound slots := by
  have hstep : (c.step now (.arrive item)).Sound slots :=
    h.step now fun text heq => hm text (Exchange.Stimulus.arrive.inj heq)
  exact hstep.setLine (.refl slots) hl

theorem Sound.read (h : c.Sound slots) (now : Instant) {line : Line} (hl : c.line = some line)
    (reading : Reading) : (c.read now line reading).Sound slots := by
  have hcarries := h.line line hl
  have hgone : ({ line with reader := .gone } : Line).Carries slots c.awaited? := True.intro
  cases reading with
  | head =>
    simp only [Call.read]
    split
    · next head hr =>
      split
      · exact h.arrive now (by rintro _ ⟨⟩) hgone
      · next hopen => exact h.arrive now (by rintro _ ⟨⟩) (hcarries.opened hr hopen)
    · exact h
  | chunk size =>
    simp only [Call.read]
    split
    · next d hr => exact h.setLine (.refl slots) (hcarries.chunk hr size)
    · exact h
  | message =>
    simp only [Call.read]
    split
    · next d hr =>
      split
      · next message rest hn =>
        obtain ⟨hrest, hawaits⟩ := hcarries.message hr hn
        refine h.arrive now ?_ hrest
        rintro _ ⟨⟩
        exact hawaits
      · exact h
    · exact h
  | ending =>
    simp only [Call.read]
    split
    · split
      · exact h.arrive now (by rintro _ ⟨⟩) hgone
      · exact h
    · exact h
  | failure =>
    simp only [Call.read]
    split
    · exact h
    · exact h.arrive now (by rintro _ ⟨⟩) hgone

variable {p : Prover}

/-- The channel of a call is opened by the stream of a subscriber to the id that it waits for. -/
theorem connect_carries (hp : p.Sound) {now : Instant} {line : Line} {p' : Prover}
    (h : c.connect p now = some (line, p')) : p.Continues p' ∧ line.Carries p'.slots c.awaited? := by
  unfold Call.connect at h
  split at h
  · next uri huri =>
    have hparse : Http.Uri.parse? (c.config.proofUrl c.id) = some uri := by
      unfold EventStream.address at huri
      split at huri
      · next hu =>
        cases huri
        exact hu
      · cases huri
    simp only [Option.some.injEq, Prod.mk.injEq] at h
    obtain ⟨rfl, rfl⟩ := h
    refine ⟨hp.handle .., fun hopen => ?_⟩
    obtain ⟨id, hid, hhandle⟩ := handle_get_eq_stream hp hopen
    refine ⟨id, ?_, ?_⟩
    · rw [Call.awaited?, hparse]
      exact hid
    · have hget : (EventStream.request uri).method = .get := rfl
      rw [hget, hhandle]
      exact ⟨rfl, Nat.lt_succ_self _, fun sub hsub => hp.origin.id_of_subscribe hsub⟩
  · cases h

/-- **Whatever happens to a call,** it is sound, and its prover goes on. -/
theorem Sound.act (h : c.Sound p.slots) (hp : p.Sound) (now : Instant) (a : Act) :
    p.Continues (c.act p now a).2 ∧ (c.act p now a).1.Sound (c.act p now a).2.slots := by
  have hsame : p.Continues p ∧ c.Sound p.slots := ⟨hp.continues, h⟩
  have hother : ∀ {stimulus : Exchange.Stimulus}, (∀ text, stimulus ≠ .arrive (.message text)) →
      p.Continues p ∧ (c.step now stimulus).Sound p.slots :=
    fun hne => ⟨hp.continues, h.step now fun text heq => absurd heq (hne text)⟩
  cases a with
  | connect =>
    simp only [Call.act]
    split
    · next line p' hconnect =>
      obtain ⟨hcontinues, hcarries⟩ := connect_carries hp hconnect
      split
      · exact ⟨hcontinues, h.setLine hcontinues.keepsIds hcarries⟩
      · exact hsame
    · exact hsame
  | miss =>
    simp only [Call.act]
    split
    · exact ⟨hp.continues, h.arrive now (by rintro _ ⟨⟩) True.intro⟩
    · exact hsame
  | read reading =>
    simp only [Call.act]
    split
    · next line hl => exact ⟨hp.continues, h.read now hl reading⟩
    · exact hsame
  | serve =>
    simp only [Call.act]
    split
    · next line hl =>
      have hpoll := hp.poll line.body
      exact ⟨hpoll, h.setLine hpoll.keepsIds ((h.line line hl).poll hp)⟩
    · exact hsame
  | hangUp =>
    simp only [Call.act]
    split
    · next line hl =>
      have hdrop := hp.dropBody line.body
      exact ⟨hdrop, h.setLine hdrop.keepsIds (h.line line hl).silent⟩
    · exact hsame
  | look => exact hother (by rintro _ ⟨⟩)
  | resume => exact hother (by rintro _ ⟨⟩)
  | abandon => exact hother (by rintro _ ⟨⟩)
  | deliver =>
    simp only [Call.act]
    split
    · have hhandle := hp.handle now c.exchange.request.method c.exchange.request.uri.path
        c.exchange.request.headers c.exchange.request.body
      exact ⟨hhandle, { h.keepsIds hhandle.keepsIds with }⟩
    · exact hsame
  | reply =>
    simp only [Call.act]
    split
    · exact hother (by rintro _ ⟨⟩)
    · exact hsame
  | fail error => exact hother (by rintro _ ⟨⟩)

end Call

/-- Behind a query, any id can be waited for: the one that the address of the prover names. -/
example : (Http.Uri.parse? (Config.proofUrl ⟨"http://prover:8080/proof/a?", false, 1000, 50⟩ (.ofBits 0))).bind
    (fun uri => Prover.awaited? uri.path) = some "a" := by
  decide +kernel

/-! ## Runs -/

/-- The prover holds its own proofs only, and calls have what their channels wait for. -/
structure Sound (n : Network) : Prop where
  prover : n.prover.Sound
  calls : ∀ c ∈ n.calls, c.Sound n.prover.slots

theorem Sound.step {n : Network} (h : n.Sound) (now : Instant) (move : Move) : (n.step now move).Sound := by
  cases move with
  | call config method url steps bits =>
    refine ⟨h.prover, fun c hc => ?_⟩
    rcases List.mem_append.mp hc with hc | hc
    · exact h.calls c hc
    · exact Call.sound_make (Option.mem_toList.mp hc) _
  | act index a =>
    simp only [Network.step]
    split
    · next c hc =>
      obtain ⟨hcontinues, hsound⟩ := (h.calls c (List.mem_of_getElem? hc)).act h.prover now a
      refine ⟨hcontinues.sound, fun c' hc' => ?_⟩
      rcases List.mem_or_eq_of_mem_set hc' with hc' | rfl
      · exact (h.calls c' hc').keepsIds hcontinues.keepsIds
      · exact hsound
    · exact h
  | expire =>
    have hexpire := h.prover.expire now
    exact ⟨hexpire.sound, fun c hc => (h.calls c hc).keepsIds hexpire.keepsIds⟩

/-- Whether a call was made at an open address and its response has a proof. -/
def Call.isProven (c : Call) : Bool :=
  decide c.config.IsOpen &&
    match c.exchange.result? with
    | some (.ok r) => r.hasProof
    | _ => false

end ProofRelay.Network

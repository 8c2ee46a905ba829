import ProofRelay.Proofs.Prover.Handling
import ProofRelay.Proofs.Prover.Retention

/-!
A prover at work.  Requests are answered, streams are read and dropped, and retentions end, in any order and at
any time (`run`).  Of all this the slots see a few moves only (`history`): a request publishes for one id, or
subscribes to one, or does nothing to them (`deeds`).  So what holds of all histories of slots holds of a prover:

    (p.run moves).slots = p.slots.run (p.history moves)                                      (slots_run)
    every slot has somebody who keeps it                                                    (slots_kept)
-/

namespace ProofRelay.Prover

/-! ## Runs -/

/-- What can happen to a prover. -/
inductive Move
  /-- A request is answered. -/
  | request (method : Http.Method) (path : String) (headers : Http.Headers) (body : Bytes)
  /-- The stream of a subscriber is read. -/
  | poll (number : Nat)
  /-- The stream of a subscriber is dropped. -/
  | drop (number : Nat)
  /-- The retention at a place of the agenda ends, if its time has come. -/
  | lapse (index : Nat)
deriving Repr

/-- One thing happens. -/
def step (p : Prover) (now : Instant) : Move → Prover
  | .request method path headers body => (p.handle now method path headers body).2
  | .poll number => (p.poll (.proof number)).2.2
  | .drop number => p.dropBody (.proof number)
  | .lapse index => { p with slots := p.slots.lapse now index }

/-- Several things happen, each at its moment. -/
def run (p : Prover) (moves : List (Instant × Move)) : Prover :=
  moves.foldl (fun p (now, move) => p.step now move) p

theorem run_append (p : Prover) (as bs : List (Instant × Move)) :
    p.run (as ++ bs) = (p.run as).run bs := List.foldl_append

theorem run_cons (p : Prover) (now : Instant) (move : Move) (later : List (Instant × Move)) :
    p.run ((now, move) :: later) = (p.step now move).run later := rfl

theorem run_concat (p : Prover) (moves : List (Instant × Move)) (now : Instant) (move : Move) :
    p.run (moves ++ [(now, move)]) = (p.run moves).step now move := run_append ..

/-! ## What the slots see -/

/-- The id whose proof a request publishes, if it is accepted and proven. -/
def published? (method : Http.Method) (path : String) (headers : Http.Headers) (body : Bytes) :
    Option String :=
  match Route.ofPath? path with
  | some .proxy =>
    if greatestBody < body.length then none
    else (readProxied method headers body).bind fun r => if proves r then some r.id else none
  | _ => none

/-- The id to whose proof a request subscribes. -/
def subscribed? (mode : ProofMode) (method : Http.Method) (path : String) : Option String :=
  if mode = .prove ∧ (method = .get ∨ method = .head) then awaited? path else none

/-- What a move does to the slots.  One who asks for the head of a stream alone is gone at once. -/
def deeds (p : Prover) : Move → List Slots.Move
  | .request method path headers body =>
    match published? method path headers body, subscribed? p.mode method path with
    | some id, _ => [.publish id (payloadFor id).raw]
    | none, some id => .subscribe id :: if method = .head then [.leave p.slots.nextNumber] else []
    | none, none => []
  | .poll number => [.poll number]
  | .drop number => [.leave number]
  | .lapse index => [.lapse index]

/-- What a run does to the slots. -/
def history (p : Prover) : List (Instant × Move) → List (Instant × Slots.Move)
  | [] => []
  | (now, move) :: later => (p.deeds move).map (now, ·) ++ (p.step now move).history later

theorem history_append (p : Prover) (as bs : List (Instant × Move)) :
    p.history (as ++ bs) = p.history as ++ (p.run as).history bs := by
  induction as generalizing p with
  | nil => rfl
  | cons e later ih =>
    obtain ⟨now, move⟩ := e
    rw [List.cons_append, history, history, ih, run_cons, List.append_assoc]

variable {p : Prover} {now : Instant}

theorem leavesOutBody_get (status : Http.Status) : leavesOutBody .get status = false := by
  have hne : Http.Method.get ≠ .head ∧ Http.Method.get ≠ .connect := by decide
  simp [leavesOutBody, hne]

theorem leavesOutBody_head (status : Http.Status) : leavesOutBody .head status = true := by
  simp [leavesOutBody]

/-- An answer that gives no stream of a subscriber, and what it does to the slots. -/
structure Plain (p : Prover) (now : Instant) (published : Option String) (answered : ProverReply × Prover) :
    Prop where
  body : ∀ number, answered.1.body ≠ .proof number
  mode : answered.2.mode = p.mode
  slots : answered.2.slots =
    match published with
    | some id => p.slots.publish now id (payloadFor id).raw
    | none => p.slots

section
variable (p : Prover) (now : Instant) (method : Http.Method) (path : String) (headers : Http.Headers)
  (body : Bytes)

/-- **An answer** gives the stream of a new subscriber, or it is one that subscribes to nothing. -/
theorem answer_cases {route : Route} (hroute : Route.ofPath? path = some route) :
    (∃ id, published? method path headers body = none ∧ subscribed? p.mode method path = some id ∧
      p.answer now method headers body route =
        (.stream (.proof p.slots.nextNumber), { p with slots := (p.slots.subscribe id).2 })) ∨
    subscribed? p.mode method path = none ∧
      Plain p now (published? method path headers body) (p.answer now method headers body route) := by
  cases route with
  | notaryInfo =>
    refine .inr ⟨by simp [subscribed?, awaited?, hroute], ?_⟩
    have hpublished : published? method path headers body = none := by rw [published?, hroute]
    rw [hpublished, answer]
    split <;> exact ⟨by rintro _ ⟨⟩, rfl, rfl⟩
  | proxy =>
    refine .inr ⟨by simp [subscribed?, awaited?, hroute], ?_⟩
    rw [published?, hroute, answer]
    simp only []
    split
    · exact ⟨by rintro _ ⟨⟩, rfl, rfl⟩
    · rw [proxy]
      cases hr : readProxied method headers body with
      | none => exact ⟨by rintro _ ⟨⟩, rfl, rfl⟩
      | some r =>
        refine ⟨by rintro _ ⟨⟩, rfl, ?_⟩
        simp only [record, Option.bind_some]
        cases hproves : proves r with
        | true => rfl
        | false => rfl
  | proof encodedId =>
    have hpublished : published? method path headers body = none := by rw [published?, hroute]
    have hawaited : awaited? path = Text.Percent.decodeText? encodedId := by rw [awaited?, hroute]
    rw [hpublished, subscribed?, hawaited, answer]
    by_cases hmethod : method = .get ∨ method = .head
    · rw [if_pos hmethod]
      cases hid : Text.Percent.decodeText? encodedId with
      | none => exact .inr ⟨by simp, by rintro _ ⟨⟩, rfl, rfl⟩
      | some id =>
        by_cases hmode : p.mode = .prove
        · exact .inl ⟨id, rfl, by simp [hmode, hmethod], awaitProof_of_prove hmode id⟩
        · refine .inr ⟨by simp [hmode], ?_⟩
          simp only [awaitProof]
          cases hm : p.mode with
          | prove => exact absurd hm hmode
          | never | close | notFound | plainText => exact ⟨by rintro _ ⟨⟩, hm.symm ▸ rfl, rfl⟩
    · rw [if_neg hmethod]
      exact .inr ⟨by simp [hmethod], by rintro _ ⟨⟩, rfl, rfl⟩

/-- **The answer that is given** leaves the body out for one who asks for the head alone, so its stream is
dropped. -/
theorem handle_cases :
    (∃ id, published? method path headers body = none ∧ subscribed? p.mode method path = some id ∧
      if method = .head then
        (p.handle now method path headers body).1.body = .whole [] ∧
          (p.handle now method path headers body).2 =
            { p with slots := (p.slots.subscribe id).2.release p.slots.nextNumber }
      else
        (p.handle now method path headers body).1.body = .proof p.slots.nextNumber ∧
          (p.handle now method path headers body).2 = { p with slots := (p.slots.subscribe id).2 }) ∨
    subscribed? p.mode method path = none ∧
      Plain p now (published? method path headers body) (p.handle now method path headers body) := by
  unfold handle
  cases hroute : Route.ofPath? path with
  | none =>
    have hpublished : published? method path headers body = none := by rw [published?, hroute]
    rw [hpublished]
    exact .inr ⟨by simp [subscribed?, awaited?, hroute], by rintro _ ⟨⟩, rfl, rfl⟩
  | some route =>
    rcases answer_cases p now method path headers body hroute with
      ⟨id, hpublished, hsubscribed, heq⟩ | ⟨hsubscribed, hplain⟩
    · refine .inl ⟨id, hpublished, hsubscribed, ?_⟩
      simp only [heq]
      have hmethod : method = .get ∨ method = .head := by
        by_contra hne
        simp [subscribed?, hne] at hsubscribed
      rcases hmethod with rfl | rfl
      · have hne : Http.Method.get ≠ .head := by decide
        rw [if_neg hne, leavesOutBody_get, if_neg (by simp)]
        exact ⟨rfl, rfl⟩
      · rw [if_pos rfl, leavesOutBody_head, if_pos rfl]
        exact ⟨rfl, rfl⟩
    · refine .inr ⟨hsubscribed, ?_⟩
      obtain ⟨hbody, hmode, hslots⟩ := hplain
      rcases heq : p.answer now method headers body route with ⟨reply, p'⟩
      simp only [heq] at hbody hmode hslots ⊢
      split
      · have hdrop : p'.dropBody reply.body = p' := by
          cases hreply : reply.body with
          | proof number => exact absurd hreply (hbody number)
          | whole bytes => rfl
          | silent => rfl
        exact ⟨by rintro _ ⟨⟩, by rw [hdrop, hmode], by rw [hdrop, hslots]⟩
      · exact ⟨hbody, hmode, hslots⟩

end

/-- **What one thing does to the slots** are its deeds. -/
theorem slots_step (p : Prover) (now : Instant) (move : Move) :
    (p.step now move).mode = p.mode ∧
      (p.step now move).slots = p.slots.run ((p.deeds move).map (now, ·)) := by
  cases move with
  | poll number =>
    rw [step, slots_poll]
    exact ⟨rfl, rfl⟩
  | drop number => exact ⟨rfl, rfl⟩
  | lapse index => exact ⟨rfl, rfl⟩
  | request method path headers body =>
    rw [step, deeds]
    rcases handle_cases p now method path headers body with
      ⟨id, hpublished, hsubscribed, hhandle⟩ | ⟨hsubscribed, hplain⟩
    · rw [hpublished, hsubscribed]
      by_cases hhead : method = .head
      · rw [if_pos hhead] at hhandle
        rw [hhandle.2, if_pos hhead]
        exact ⟨rfl, rfl⟩
      · rw [if_neg hhead] at hhandle
        rw [hhandle.2, if_neg hhead]
        exact ⟨rfl, rfl⟩
    · refine ⟨hplain.mode, ?_⟩
      rw [hplain.slots, hsubscribed]
      cases published? method path headers body <;> rfl

/-- **What a run does to the slots** is its history. -/
theorem slots_run (p : Prover) (moves : List (Instant × Move)) :
    (p.run moves).slots = p.slots.run (p.history moves) := by
  induction moves generalizing p with
  | nil => rfl
  | cons e later ih =>
    obtain ⟨now, move⟩ := e
    rw [run_cons, ih, history, Slots.run_append, (slots_step p now move).2]

section
variable {method : Http.Method} {path : String} {headers : Http.Headers} {body : Bytes} {number : Nat}
  {id : String}

/-- One who is given a stream has subscribed to the id that the path names, and does nothing else. -/
theorem deeds_of_stream (h : (p.handle now method path headers body).1.body = .proof number)
    (hid : awaited? path = some id) :
    number = p.slots.nextNumber ∧ p.deeds (.request method path headers body) = [.subscribe id] := by
  rcases handle_cases p now method path headers body with ⟨k, hpublished, hsubscribed, hhandle⟩ | ⟨-, hplain⟩
  · obtain ⟨-, hk⟩ := Option.ite_none_right_eq_some.mp hsubscribed
    rw [hid] at hk
    cases hk
    by_cases hhead : method = .head
    · rw [if_pos hhead, h] at hhandle
      cases hhandle.1
    · rw [if_neg hhead, h] at hhandle
      cases hhandle.1
      exact ⟨rfl, by simp [deeds, hpublished, hsubscribed, hhead]⟩
  · exact absurd h (hplain.body number)

theorem slots_of_stream (h : (p.handle now method path headers body).1.body = .proof number)
    (hid : awaited? path = some id) :
    number = p.slots.nextNumber ∧
      (p.step now (.request method path headers body)).slots = (p.slots.subscribe id).2 := by
  obtain ⟨hnumber, hdeeds⟩ := deeds_of_stream h hid
  refine ⟨hnumber, ?_⟩
  rw [(slots_step p now _).2, hdeeds]
  rfl

theorem history_of_stream (h : (p.handle now method path headers body).1.body = .proof number)
    (hid : awaited? path = some id) (later : List (Instant × Move)) :
    p.history ((now, .request method path headers body) :: later) =
      (now, .subscribe id) :: (p.step now (.request method path headers body)).history later := by
  rw [history, (deeds_of_stream h hid).2]
  rfl

end

/-- The slot of a subscriber is polled by one who reads its stream only. -/
theorem eq_of_poll_mem_deeds {move : Move} {number : Nat} (h : Slots.Move.poll number ∈ p.deeds move) :
    move = .poll number := by
  cases move with
  | request method path headers body =>
    rw [deeds] at h
    split at h
    · simp at h
    · split at h <;> simp at h
    · simp at h
  | poll n => simpa [deeds, eq_comm] using h
  | drop | lapse => simp [deeds] at h

/-- A subscriber that is there goes away by dropping its stream only; one who asks for the head alone has a number
of its own. -/
theorem eq_of_leave_mem_deeds {move : Move} {number : Nat} (hn : number < p.slots.nextNumber)
    (h : Slots.Move.leave number ∈ p.deeds move) : move = .drop number := by
  cases move with
  | request method path headers body =>
    rw [deeds] at h
    split at h
    · simp at h
    · split at h
      · have hnew : number = p.slots.nextNumber := by simpa using h
        exact absurd hn (hnew ▸ Nat.lt_irrefl _)
      · simp at h
    · simp at h
  | drop n => simpa [deeds, eq_comm] using h
  | poll | lapse => simp [deeds] at h

/-- Nothing is published but what is to be published for an id. -/
theorem eq_of_publish_mem_deeds {move : Move} {id proof : String}
    (h : Slots.Move.publish id proof ∈ p.deeds move) : proof = notaryPubKey ++ "|proof-for-" ++ id := by
  cases move with
  | request method path headers body =>
    rw [deeds] at h
    split at h
    · simp only [List.mem_singleton, Slots.Move.publish.injEq] at h
      rw [h.2, h.1, raw_payloadFor]
    · split at h <;> simp at h
    · simp at h
  | poll | drop | lapse => simp [deeds] at h

theorem eq_of_publish_mem_history {moves : List (Instant × Move)} {t : Instant} {id proof : String}
    (h : (t, Slots.Move.publish id proof) ∈ p.history moves) :
    proof = notaryPubKey ++ "|proof-for-" ++ id := by
  induction moves generalizing p with
  | nil => cases h
  | cons e later ih =>
    rw [history] at h
    rcases List.mem_append.mp h with hmem | hmem
    · obtain ⟨deed, hdeed, heq⟩ := List.mem_map.mp hmem
      cases heq
      exact eq_of_publish_mem_deeds hdeed
    · exact ih hmem

/-! ## Who keeps a slot -/

/-- The slots of a prover that has just begun come from a history alone. -/
theorem slots_run_start (mode : ProofMode) (moves : List (Instant × Move)) :
    (({ mode } : Prover).run moves).slots = Slots.empty.run (({ mode } : Prover).history moves) :=
  slots_run { mode } moves

open Slots (publications retention)

/-- **No slot is left behind.**  Every slot has a subscriber that is not gone, or a publication of its id whose
retention has not ended; so when no subscriber is left and all retentions are over, no slot is: neither when those
end whose time has come, nor in a run in which as many have ended, one by one, as proofs were published. -/
theorem slots_kept (mode : ProofMode) (moves : List (Instant × Move)) :
    let p := ({ mode } : Prover).run moves
    let published id := publications id (({ mode } : Prover).history moves)
    (∀ id, p.slots.has id = true →
      (∃ number sub, p.slots.subscriber? number = some sub ∧ sub.id = id) ∨
        ∃ began ∈ published id, (began + retention, id) ∈ p.slots.retained.entries) ∧
      (∀ now, p.slots.subscribers = [] → (∀ id, ∀ began ∈ published id, began + retention ≤ now) →
        (p.expire now).slots.entries = []) ∧
      (p.slots.subscribers = [] →
        (∀ id, (Slots.empty.lapses id (({ mode } : Prover).history moves)).length = (published id).length) →
        p.slots.entries = []) := by
  intro p published
  have hslots : p.slots = Slots.empty.run (({ mode } : Prover).history moves) := slots_run_start mode moves
  refine ⟨?_, ?_, ?_⟩
  · intro id hhas
    rw [hslots] at hhas ⊢
    rcases Slots.kept_run hhas with hsub | ⟨due, hdue⟩
    · exact .inl hsub
    · obtain ⟨began, hbegan, rfl⟩ := Slots.exists_of_mem_retained hdue
      exact .inr ⟨began, hbegan, hdue⟩
  · intro now hgone hover
    rw [hslots] at hgone
    rw [expire, hslots]
    exact Slots.entries_expire_eq_nil hgone hover
  · intro hgone hended
    rw [hslots] at hgone ⊢
    exact Slots.entries_eq_nil hgone hended

/-- A proof is published, somebody waits for another and goes away, and the retention is over. -/
theorem slots_kept_of_departure :
    let headers := (Http.Headers.empty.append .requestId (.ofText "a")).append .proxyUrl (.ofText "http://t/")
    let moves := [(0, Move.request .post "/proxy" headers []), (5, .request .get "/proof/b" .empty []),
      (10, .drop 0)]
    let p := ({ mode := .prove } : Prover).run moves
    p.slots.has "a" = true ∧ p.slots.subscribers = [] ∧ (30000, "a") ∈ p.slots.retained.entries ∧
      (p.expire 30000).slots.entries = [] ∧ (p.step 30000 (.lapse 0)).slots.entries = [] := by
  intro headers moves p
  have hkept := slots_kept .prove moves
  have hhistory : ({ mode := .prove } : Prover).history moves =
      [(0, .publish "a" (payloadFor "a").raw), (5, .subscribe "b"), (10, .leave 0)] := by decide +kernel
  have hgone : p.slots.subscribers = [] := by decide +kernel
  have hhas : p.slots.has "a" = true := by decide +kernel
  have hpublished : ∀ id, ∀ began ∈ publications id (({ mode := .prove } : Prover).history moves), began = 0 := by
    intro id began hbegan
    rw [hhistory] at hbegan
    by_cases hid : "a" = id
    · simpa [publications, hid] using hbegan
    · simp [publications, hid] at hbegan
  refine ⟨hhas, hgone, ?_, ?_, ?_⟩
  · rcases hkept.1 "a" hhas with ⟨number, sub, hsub, -⟩ | ⟨began, hbegan, hmem⟩
    · have hnone : p.slots.subscriber? number = none := by
        rw [Slots.subscriber?, hgone]
        rfl
      rw [hnone] at hsub
      cases hsub
    · rw [hpublished "a" began hbegan] at hmem
      exact hmem
  · refine hkept.2.1 30000 hgone fun id began hbegan => ?_
    rw [hpublished id began hbegan]
    decide
  · rw [← run_concat]
    let all := moves ++ [(30000, Move.lapse 0)]
    refine (slots_kept .prove all).2.2 (by decide +kernel) fun id => ?_
    -- no retention is left, so all have ended
    have hretained : (({ mode := .prove } : Prover).run all).slots.retained.entries = [] := by decide +kernel
    have hrun := Slots.retentions_run .empty id (({ mode := .prove } : Prover).history all)
    rw [← slots_run_start, Slots.retentions, hretained] at hrun
    simpa [Slots.retentions, Slots.empty, Agenda.empty] using hrun

/-! ## What is read -/

/-- What a delivery is to one who reads the stream. -/
def polledOf : Delivery → Polled
  | .proof text => .data (Utf8.encode (EventStream.frame text))
  | .pending => .pending
  | .finished => .finished

theorem eq_pending_of_polledOf {delivery : Delivery} (h : polledOf delivery = .pending) : delivery = .pending := by
  cases delivery with
  | pending => rfl
  | proof | finished => cases h

theorem eq_proof_of_polledOf {delivery : Delivery} {event : Bytes} (h : polledOf delivery = .data event) :
    ∃ text, delivery = .proof text := by
  cases delivery with
  | proof text => exact ⟨text, rfl⟩
  | pending | finished => cases h

theorem poll_fst (p : Prover) (number : Nat) :
    (p.poll (.proof number)).1 = polledOf (p.slots.delivery number) := by
  rw [poll, Slots.poll]
  cases p.slots.delivery number <;> rfl

/-- The events that a subscriber gets with a move. -/
def pushed (p : Prover) (number : Nat) : Move → List Bytes
  | .poll n =>
    match (p.poll (.proof n)).1 with
    | .data event => if n = number then [event] else []
    | _ => []
  | _ => []

/-- The events that a subscriber gets in a run. -/
def events (number : Nat) (p : Prover) : List (Instant × Move) → List Bytes
  | [] => []
  | (now, move) :: later => p.pushed number move ++ (p.step now move).events number later

theorem events_append (number : Nat) (p : Prover) (as bs : List (Instant × Move)) :
    p.events number (as ++ bs) = p.events number as ++ (p.run as).events number bs := by
  induction as generalizing p with
  | nil => rfl
  | cons e later ih =>
    obtain ⟨now, move⟩ := e
    rw [List.cons_append, events, events, ih, run_cons, List.append_assoc]

end ProofRelay.Prover

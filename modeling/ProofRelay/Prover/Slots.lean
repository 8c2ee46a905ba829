import ProofRelay.Clock

/-!
Proof slots.  A slot holds the proof of one id until it is claimed.  Slots are made by whoever comes first, the
one who publishes or the one who subscribes, and they are removed by id: when a subscriber has its proof, when
a subscriber goes away, and when the retention of a publication is over.  A subscriber keeps what its slot held
when it was removed.
-/

namespace ProofRelay

/-- One who waits for the proof of an id. -/
structure Subscriber where
  id : String
  /-- The proof, once its slot has one. -/
  proof : Option String
  /-- Whether its slot is still there. -/
  attached : Bool
deriving DecidableEq, Repr

/-- The proof slots of a prover. -/
structure Slots where
  /-- The slots by id, with the proofs in them. -/
  entries : List (String × Option String) := []
  /-- The subscribers that have no proof and are not gone, each with its number. -/
  subscribers : List (Nat × Subscriber) := []
  /-- The number of the next subscriber. -/
  nextNumber : Nat := 0
  /-- The publications whose retention is not over. -/
  retained : Agenda String := .empty
deriving Repr

/-- What a subscriber gets when it is polled. -/
inductive Delivery
  | pending
  /-- The proof; an empty one if the slot went away without it. -/
  | proof (text : String)
  /-- There is no such subscriber, or it has its proof. -/
  | finished
deriving DecidableEq, Repr

namespace Slots

def empty : Slots := {}

/-- How long a publication waits for its subscriber. -/
def retention : Duration := 30000

/-- The proof in the slot of an id; an inner none if the slot is empty. -/
def held? (s : Slots) (id : String) : Option (Option String) := s.entries.lookup id

def has (s : Slots) (id : String) : Bool := (s.held? id).isSome

def subscriber? (s : Slots) (number : Nat) : Option Subscriber := s.subscribers.lookup number

/-- Changes the subscribers that are attached to the slot of an id. -/
def mapAttached (f : Subscriber → Subscriber) (id : String) (subscribers : List (Nat × Subscriber)) :
    List (Nat × Subscriber) :=
  subscribers.map fun (number, s) => (number, if s.attached ∧ s.id = id then f s else s)

def setEntry (id : String) (proof : Option String) (entries : List (String × Option String)) :
    List (String × Option String) :=
  (id, proof) :: entries.filter fun (k, _) => k ≠ id

/-- Subscribes to the proof of an id, and gives the number of the subscriber. -/
def subscribe (s : Slots) (id : String) : Nat × Slots :=
  let held := s.held? id
  (s.nextNumber,
    { s with
      entries := if held.isSome then s.entries else setEntry id none s.entries
      subscribers := s.subscribers ++ [(s.nextNumber, ⟨id, held.join, true⟩)]
      nextNumber := s.nextNumber + 1 })

def publish (s : Slots) (now : Instant) (id proof : String) : Slots :=
  { s with
    entries := setEntry id (some proof) s.entries
    subscribers := mapAttached (fun sub => { sub with proof := some proof }) id s.subscribers
    retained := s.retained.add (now + retention) id }

/-- Removes the slot of an id. -/
def forget (s : Slots) (id : String) : Slots :=
  { s with
    entries := s.entries.filter fun (k, _) => k ≠ id
    subscribers := mapAttached (fun sub => { sub with attached := false }) id s.subscribers }

/-- Takes a subscriber away, and the slot of its id with it. -/
def release (s : Slots) (number : Nat) : Slots :=
  match s.subscriber? number with
  | none => s
  | some sub =>
    { s with subscribers := s.subscribers.filter fun (n, _) => n ≠ number }.forget sub.id

/-- What a subscriber would get now. -/
def delivery (s : Slots) (number : Nat) : Delivery :=
  match s.subscriber? number with
  | none => .finished
  | some sub =>
    match sub.proof, sub.attached with
    | some proof, _ => .proof proof
    | none, true => .pending
    | none, false => .proof ""

/-- Polls for a subscriber; once it has its proof it is released. -/
def poll (s : Slots) (number : Nat) : Delivery × Slots :=
  match s.delivery number with
  | .proof text => (.proof text, s.release number)
  | other => (other, s)

/-- Lets the retentions end whose time has come. -/
def expire (s : Slots) (now : Instant) : Slots :=
  (s.retained.due now).foldl forget { s with retained := s.retained.after now }

/-- The id of the retention at a place of the agenda, if its time has come. -/
def overdue? (s : Slots) (now : Instant) (index : Nat) : Option String :=
  s.retained.entries[index]?.bind fun (due, id) => if due ≤ now then some id else none

/-- Lets one retention end, if its time has come. -/
def lapse (s : Slots) (now : Instant) (index : Nat) : Slots :=
  match s.overdue? now index with
  | some id => { s with retained := ⟨s.retained.entries.eraseIdx index⟩ }.forget id
  | none => s

/-! ## Runs -/

/-- What can happen to the slots. -/
inductive Move
  | subscribe (id : String)
  | publish (id proof : String)
  | poll (number : Nat)
  /-- A subscriber goes away. -/
  | leave (number : Nat)
  /-- The retention at a place of the agenda ends, if its time has come. -/
  | lapse (index : Nat)
deriving DecidableEq, Repr

/-- One thing happens. -/
def step (s : Slots) (now : Instant) : Move → Slots
  | .subscribe id => (s.subscribe id).2
  | .publish id proof => s.publish now id proof
  | .poll number => (s.poll number).2
  | .leave number => s.release number
  | .lapse index => s.lapse now index

/-- Several things happen, each at its moment. -/
def run (s : Slots) (moves : List (Instant × Move)) : Slots :=
  moves.foldl (fun s (now, move) => s.step now move) s

theorem run_append (s : Slots) (as bs : List (Instant × Move)) :
    s.run (as ++ bs) = (s.run as).run bs := List.foldl_append

theorem run_cons (s : Slots) (now : Instant) (move : Move) (later : List (Instant × Move)) :
    s.run ((now, move) :: later) = (s.step now move).run later := rfl

theorem run_concat (s : Slots) (moves : List (Instant × Move)) (now : Instant) (move : Move) :
    s.run (moves ++ [(now, move)]) = (s.run moves).step now move := run_append ..

/-! ## What the operations do to the slots -/

theorem lookup_filter_ne (id k : String) (entries : List (String × Option String)) :
    (entries.filter fun (n, _) => n ≠ id).lookup k = if k = id then none else entries.lookup k := by
  induction entries with
  | nil => simp
  | cons e rest ih =>
    obtain ⟨n, v⟩ := e
    by_cases hn : n = id
    · subst hn
      rw [List.filter_cons_of_neg (by simp), ih, List.lookup_cons]
      by_cases hk : k = n
      · simp [hk]
      · have : (k == n) = false := by simp [hk]
        rw [this]
    · rw [List.filter_cons_of_pos (by simp [hn]), List.lookup_cons, List.lookup_cons, ih]
      by_cases hk : k = n
      · subst hk; simp [hn]
      · have : (k == n) = false := by simp [hk]
        rw [this]

theorem lookup_setEntry (id k : String) (proof : Option String) (entries : List (String × Option String)) :
    (setEntry id proof entries).lookup k = if k = id then some proof else entries.lookup k := by
  unfold setEntry
  rw [List.lookup_cons]
  by_cases hk : k = id
  · simp [hk]
  · have : (k == id) = false := by simp [hk]
    rw [this, lookup_filter_ne, if_neg hk, if_neg hk]

theorem held?_publish (s : Slots) (now : Instant) (id proof k : String) :
    (s.publish now id proof).held? k = if k = id then some (some proof) else s.held? k :=
  lookup_setEntry id k (some proof) s.entries

theorem held?_forget (s : Slots) (id k : String) :
    (s.forget id).held? k = if k = id then none else s.held? k :=
  lookup_filter_ne id k s.entries

theorem held?_subscribe (s : Slots) (id k : String) :
    (s.subscribe id).2.held? k = if k = id then some (s.held? id).join else s.held? k := by
  unfold subscribe held?
  by_cases hk : k = id
  · subst hk
    cases h : s.entries.lookup k with
    | none => simp [lookup_setEntry]
    | some held => simp [h]
  · cases h : s.entries.lookup id with
    | none => simp [lookup_setEntry, hk]
    | some held => simp [hk]

end Slots
end ProofRelay

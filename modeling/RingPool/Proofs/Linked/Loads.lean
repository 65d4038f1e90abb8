import RingPool.Proofs.Linked.Order

/-!
# What a call of the consumer loads

A call of the consumer loads the link of the stub and, if that is missing, the head; a pop that
waits loads the link again after each pause.  `loads` lists the loads of a run, each with the
state in which it is made, and `linkers` the producers that make the link from the stub.  Both
come from the moves alone.

A load is made in a state that the run comes to.  There the head is the stub exactly if pops
have returned all that was swapped in, the values of all pushes that are over among them
(`LoadedIn`).
-/

set_option autoImplicit false

namespace RingPool

variable {producers : Nat} {α : Type}

namespace LinkedQueue

def stubLink (queue : LinkedQueue α) : Option Address :=
  (queue.heap.get? queue.stub).bind Node.next

def IsEmpty (queue : LinkedQueue α) : Prop := queue.head = queue.stub

instance (queue : LinkedQueue α) : Decidable queue.IsEmpty :=
  inferInstanceAs (Decidable (queue.head = queue.stub))

theorem stubLink_of_get? {queue : LinkedQueue α} {node : Node α}
    (found : queue.heap.get? queue.stub = some node) : queue.stubLink = node.next := by
  rw [stubLink, found]
  rfl

end LinkedQueue

/-- A load of the consumer, of the link of the stub or of the head, with the state in which it
is made. -/
inductive ConsumerLoad (producers : Nat) (α : Type) where
  | link (system : LinkedSystem producers α)
  | head (system : LinkedSystem producers α)

def ConsumerLoad.system : ConsumerLoad producers α → LinkedSystem producers α
  | .link system | .head system => system

def Missed (loads : List (ConsumerLoad producers α)) : Prop :=
  ∀ system, ConsumerLoad.link system ∈ loads → system.queue.stubLink = none

namespace LinkedMove

def byProducer : LinkedMove producers α → Bool
  | .push _ _ | .advance _ _ => true
  | .pop | .isEmpty | .consume => false

def Continues : LinkedMove producers α → Prop
  | .pop | .isEmpty => False
  | .push _ _ | .advance _ _ | .consume => True

theorem Continues.eq_consume {move : LinkedMove producers α} (continues : move.Continues)
    (own : ¬ move.byProducer = true) : move = .consume := by
  cases move with
  | push | advance => exact absurd rfl own
  | pop | isEmpty => exact continues.elim
  | consume => rfl

end LinkedMove

namespace LinkedSystem

variable {β : Type}

/-- What `note` says of the moves of a run, in their order. -/
def noted (note : LinkedSystem producers α → LinkedMove producers α → Option β)
    (system : LinkedSystem producers α) : List (LinkedMove producers α) → List β
  | [] => []
  | move :: moves =>
      match system.next move with
      | .error _ => []
      | .ok (after, _) => (note system move).toList ++ after.noted note moves

def load? (system : LinkedSystem producers α) :
    LinkedMove producers α → Option (ConsumerLoad producers α)
  | .consume =>
      match system.consumer with
      | some (.pop ⟨_, .look⟩) | some (.pop ⟨_, .lookAgain⟩) | some (.isEmpty .look) =>
          some (.link system)
      | some (.pop ⟨_, .peek⟩) | some (.isEmpty .peek) => some (.head system)
      | _ => none
  | .push _ _ | .advance _ _ | .pop | .isEmpty => none

def loads (system : LinkedSystem producers α) (moves : List (LinkedMove producers α)) :
    List (ConsumerLoad producers α) :=
  system.noted load? moves

def linker? (system : LinkedSystem producers α) : LinkedMove producers α → Option (Fin producers)
  | .advance producer _ =>
      match system.pendingLink producer with
      | some (before, _) => if before = system.queue.stub then some producer else none
      | none => none
  | .push _ _ | .pop | .isEmpty | .consume => none

def linkers (system : LinkedSystem producers α) (moves : List (LinkedMove producers α)) :
    List (Fin producers) :=
  system.noted linker? moves

section Runs

variable {system : LinkedSystem producers α}
  {note : LinkedSystem producers α → LinkedMove producers α → Option β}

theorem exists_of_run_cons {final : LinkedSystem producers α} {move : LinkedMove producers α}
    {moves : List (LinkedMove producers α)} {events : List (LinkedEvent α)}
    (ran : system.run (move :: moves) = .ok (final, events)) :
    ∃ after event rest, system.next move = .ok (after, event) ∧
      after.run moves = .ok (final, rest) ∧ events = event.toList ++ rest := by
  cases step : system.next move with
  | error dead => simp [run, step, bind, Except.bind] at ran
  | ok stepped =>
      obtain ⟨after, event⟩ := stepped
      cases rest : after.run moves with
      | error dead => simp [run, step, rest, bind, Except.bind] at ran
      | ok reached =>
          obtain ⟨state, later⟩ := reached
          cases (run_cons step rest).symm.trans ran
          exact ⟨after, event, later, rfl, rest, rfl⟩

theorem noted_cons {after : LinkedSystem producers α} {move : LinkedMove producers α}
    {event : Option (LinkedEvent α)} (step : system.next move = .ok (after, event))
    (moves : List (LinkedMove producers α)) :
    system.noted note (move :: moves) = (note system move).toList ++ after.noted note moves := by
  rw [noted, step]

theorem noted_append {middle : LinkedSystem producers α} {first : List (LinkedMove producers α)}
    {events : List (LinkedEvent α)} (ran : system.run first = .ok (middle, events))
    (second : List (LinkedMove producers α)) :
    system.noted note (first ++ second) = system.noted note first ++ middle.noted note second := by
  induction first generalizing system events with
  | nil =>
      cases ran
      rfl
  | cons move first ih =>
      obtain ⟨after, event, rest, step, ran, -⟩ := exists_of_run_cons ran
      rw [List.cons_append, noted_cons step, noted_cons step, ih ran, List.append_assoc]

theorem noted_concat {final after : LinkedSystem producers α} {move : LinkedMove producers α}
    {moves : List (LinkedMove producers α)} {events : List (LinkedEvent α)}
    {event : Option (LinkedEvent α)} (ran : system.run moves = .ok (final, events))
    (step : final.next move = .ok (after, event)) :
    system.noted note (moves ++ [move]) =
      system.noted note moves ++ (note final move).toList := by
  rw [noted_append ran, noted_cons step]
  exact congrArg (system.noted note moves ++ ·) (List.append_nil _)

theorem loads_concat {final after : LinkedSystem producers α} {move : LinkedMove producers α}
    {moves : List (LinkedMove producers α)} {events : List (LinkedEvent α)}
    {event : Option (LinkedEvent α)} (ran : system.run moves = .ok (final, events))
    (step : final.next move = .ok (after, event)) :
    system.loads (moves ++ [move]) = system.loads moves ++ (final.load? move).toList :=
  noted_concat ran step

theorem linkers_concat {final after : LinkedSystem producers α} {move : LinkedMove producers α}
    {moves : List (LinkedMove producers α)} {events : List (LinkedEvent α)}
    {event : Option (LinkedEvent α)} (ran : system.run moves = .ok (final, events))
    (step : final.next move = .ok (after, event)) :
    system.linkers (moves ++ [move]) = system.linkers moves ++ (final.linker? move).toList :=
  noted_concat ran step

/-- What is noted at some place was noted of a move at that place, after the moves that the
notes before it are of. -/
theorem exists_of_noted_split {moves : List (LinkedMove producers α)} {first second : List β}
    {entry : β} (split : system.noted note moves = first ++ entry :: second) :
    ∃ early move late state events, moves = early ++ move :: late ∧
      system.run early = .ok (state, events) ∧ system.noted note early = first ∧
        note state move = some entry := by
  induction moves generalizing system first with
  | nil => simp [noted] at split
  | cons move moves ih =>
      cases step : system.next move with
      | error dead => simp [noted, step] at split
      | ok stepped =>
          obtain ⟨after, event⟩ := stepped
          rw [noted_cons step] at split
          cases found : note system move with
          | none =>
              rw [found, Option.toList_none, List.nil_append] at split
              obtain ⟨early, next, late, state, events, rfl, ran, before, here⟩ := ih split
              refine ⟨move :: early, next, late, state, _, rfl, run_cons step ran, ?_, here⟩
              rw [noted_cons step, found, before]
              rfl
          | some other =>
              rw [found] at split
              cases first with
              | nil =>
                  cases (List.cons.inj split).1
                  exact ⟨[], move, moves, system, [], rfl, rfl, rfl, found⟩
              | cons head first =>
                  obtain ⟨same, split⟩ := List.cons.inj split
                  obtain ⟨early, next, late, state, events, rfl, ran, before, here⟩ := ih split
                  refine ⟨move :: early, next, late, state, _, rfl, run_cons step ran, ?_, here⟩
                  rw [noted_cons step, found, before, ← same]
                  rfl

theorem allocatesFreshly_append {first second : List (LinkedMove producers α)}
    (fresh : system.AllocatesFreshly (first ++ second)) :
    system.AllocatesFreshly first ∧ ∀ middle events, system.run first = .ok (middle, events) →
      middle.AllocatesFreshly second := by
  induction first generalizing system with
  | nil =>
      refine ⟨trivial, fun middle events ran => ?_⟩
      cases ran
      exact fresh
  | cons move first ih =>
      obtain ⟨freshMove, freshRest⟩ := fresh
      refine ⟨⟨freshMove, fun after event step => (ih (freshRest after event step)).1⟩, ?_⟩
      intro middle events ran
      obtain ⟨after, event, rest, step, ran, -⟩ := exists_of_run_cons ran
      exact (ih (freshRest after event step)).2 middle rest ran

end Runs

/-- A load of the consumer is its own move, and it holds no value at that time. -/
theorem of_load? {system : LinkedSystem producers α} {move : LinkedMove producers α}
    {load : ConsumerLoad producers α} (made : system.load? move = some load) :
    move = .consume ∧ load.system = system ∧ system.taken = [] := by
  cases move with
  | push | advance | pop | isEmpty => cases made
  | consume =>
      simp only [load?] at made
      split at made
      case h_1 spins within | h_2 spins within | h_3 within | h_4 spins within | h_5 within =>
        cases made
        exact ⟨rfl, rfl, by simp [taken, within]⟩
      case h_6 => cases made

/-- A consumer that has taken no value finds the head at the stub exactly if all that was
swapped in is popped. -/
theorem Ordered.isEmpty_iff {system : LinkedSystem producers α} {nodes : List (Address × α)}
    {acts : List (LinkedAct producers α)} {events : List (LinkedEvent α)}
    (ordered : Ordered system nodes acts events) (chained : Chained system nodes)
    (untaken : system.taken = []) :
    system.queue.IsEmpty ↔ system.swapped.map Prod.snd = system.popped := by
  rw [LinkedQueue.IsEmpty, chained.head_eq_stub_iff, ordered.values, untaken, List.append_nil]
  simp

theorem Ordered.isEmpty_iff_remaining {system : LinkedSystem producers α}
    {nodes : List (Address × α)} {acts : List (LinkedAct producers α)}
    {events : List (LinkedEvent α)} (ordered : Ordered system nodes acts events)
    (chained : Chained system nodes) (untaken : system.taken = []) :
    system.queue.IsEmpty ↔ system.remaining = [] := by
  rw [LinkedQueue.IsEmpty, chained.head_eq_stub_iff, ordered.remaining_of_untaken untaken,
    List.map_eq_nil_iff]

/-- A load in the course of a run is made in a state that the run comes to, in which every push
that is over has swapped its value in; the queue is empty there if all of these are popped. -/
structure LoadedIn (moves : List (LinkedMove producers α)) (load : LinkedSystem producers α) :
    Prop where
  reached : ∃ early late events, moves = early ++ .consume :: late ∧
    start.run early = .ok (load, events) ∧ ∀ producer, load.pushes producer = none →
      valuesOf producer load.swapped = pushesOf producer (start.acts early)
  isEmpty_iff : load.queue.IsEmpty ↔ load.swapped.map Prod.snd = load.popped

theorem loadedIn_of_mem {before moves : List (LinkedMove producers α)}
    {first : LinkedSystem producers α} {events : List (LinkedEvent α)}
    (reached : start.run before = .ok (first, events))
    (fresh : (start : LinkedSystem producers α).AllocatesFreshly (before ++ moves))
    {load : ConsumerLoad producers α} (listed : load ∈ first.loads moves) :
    LoadedIn (before ++ moves) load.system := by
  obtain ⟨earlier, further, split⟩ := List.append_of_mem listed
  obtain ⟨early, move, late, state, seen, rfl, ran, -, made⟩ := exists_of_noted_split split
  obtain ⟨rfl, rfl, untaken⟩ := of_load? made
  have whole := run_append reached ran
  rw [← List.append_assoc] at fresh
  obtain ⟨final, all, comes, nodes, chained, ordered⟩ :=
    queued_run (before ++ early) (allocatesFreshly_append fresh).1
  cases whole.symm.trans comes
  refine ⟨⟨before ++ early, late, _, by simp, whole, fun producer free => ?_⟩,
    ordered.isEmpty_iff chained untaken⟩
  rw [ordered.pushed, free]
  exact (List.append_nil _).symm

end LinkedSystem

end RingPool

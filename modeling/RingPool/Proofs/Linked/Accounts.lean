import RingPool.Proofs.Linked.Loads

/-!
# A call of the consumer among the moves of the producers

A move of a producer leaves what the consumer is within, and adds to the values that remain at
their end.  It links the stub only if it stores the link that it was about to make from it.  So a
call that changes nothing of its own leaves what the producers alone would have made
(`Untouched`).

An account of a call says by its loads alone how it stands.  One that every move keeps
(`Accounts`) holds of the whole call (`Accounts.call_run`).
-/

set_option autoImplicit false

namespace RingPool

variable {producers : Nat} {α : Type}

namespace LinkedSystem

/-! ## What a producer's move leaves as it is -/

section Producers

variable {system after : LinkedSystem producers α} {nodes : List (Address × α)}
  {move : LinkedMove producers α} {event : Option (LinkedEvent α)}
  {act : Option (LinkedAct producers α)}

theorem load?_of_producer (theirs : move.byProducer = true) : system.load? move = none := by
  cases move with
  | push | advance => rfl
  | pop | isEmpty | consume => cases theirs

theorem ConsumerTurn.own {call : Option (ConsumerCall α)}
    (turn : ConsumerTurn system move call event) : move.byProducer = false := by
  cases turn <;> rfl

theorem LinkedEffect.of_producer (theirs : move.byProducer = true)
    (effect : LinkedEffect system move after event act) :
    after.consumer = system.consumer ∧ after.popped = system.popped ∧
      system.swapped <+: after.swapped ∧ event = none := by
  cases effect with
  | stay | pushStarts | creates | links => exact ⟨rfl, rfl, List.prefix_rfl, rfl⟩
  | swaps => exact ⟨rfl, rfl, List.prefix_append _ _, rfl⟩
  | turns turn => cases theirs.symm.trans turn.own
  | advances | frees => cases theirs

theorem LinkedEffect.turned_none (theirs : move.byProducer = true)
    (effect : LinkedEffect system move after event act) :
    LinkedEffect (system.turned none) move (after.turned none) event act := by
  cases effect with
  | stay _ idle =>
      cases move with
      | push | advance => exact .stay _ idle
      | pop | isEmpty | consume => cases theirs
  | pushStarts producer value free => exact .pushStarts producer value free
  | creates producer address value content within fresh =>
      exact .creates producer address value content within fresh
  | swaps producer address value node within => exact .swaps producer address value node within
  | links producer address value before linked node within found =>
      exact .links producer address value before linked node within found
  | turns turn => cases theirs.symm.trans turn.own
  | advances | frees => cases theirs

theorem remaining_head?_of_producer (theirs : move.byProducer = true)
    (effect : LinkedEffect system move after event act) {value : α}
    (next : system.remaining.head? = some value) : after.remaining.head? = some value := by
  obtain ⟨-, popped, ⟨new, swapped⟩, -⟩ := effect.of_producer theirs
  rw [remaining, List.head?_drop] at next ⊢
  rw [popped, ← swapped, List.map_append,
    List.getElem?_append_left (List.getElem?_eq_some_iff.mp next).1, next]

/-- The stub is linked by no move but that of the producer that is about to do so. -/
theorem Chained.stubLink_of_producer (chained : Chained system nodes)
    (theirs : move.byProducer = true) (effect : LinkedEffect system move after event act) :
    after.queue.stubLink = none ↔
      system.queue.stubLink = none ∧ system.linker? move = none := by
  have spares {change : LinkedSystem producers α} (same : change.queue.stub = system.queue.stub)
      (kept : change.queue.heap.get? system.queue.stub =
        system.queue.heap.get? system.queue.stub)
      (silent : system.linker? move = none) :
      change.queue.stubLink = none ↔
        system.queue.stubLink = none ∧ system.linker? move = none := by
    rw [LinkedQueue.stubLink, same, kept]
    exact (and_iff_left silent).symm
  cases effect with
  | stay _ idle =>
      refine spares rfl rfl ?_
      cases move with
      | push => rfl
      | advance producer address =>
          have free : system.pushes producer = none := idle
          simp [linker?, pendingLink, free]
      | pop | isEmpty | consume => cases theirs
  | pushStarts producer value free => exact spares rfl rfl rfl
  | creates producer address value content within fresh =>
      -- The stub is live, so the new node is another.
      refine spares rfl ?_ (by simp [linker?, pendingLink, within])
      rw [created_get?, if_neg]
      intro here
      obtain ⟨next, found⟩ := chained.spent
      cases fresh.symm.trans (here ▸ found)
  | swaps producer address value node within =>
      exact spares rfl rfl (by simp [linker?, pendingLink, within])
  | links producer address value before linked node within found =>
      by_cases here : before = system.queue.stub
      · have makes : system.linker? (.advance producer address) = some producer := by
          simp [linker?, pendingLink, within, here]
        have link : (system.joined producer before linked node).queue.stubLink = some linked :=
          LinkedQueue.stubLink_of_get? ((joined_get? ..).trans (if_pos here.symm))
        simp [makes, link]
      · refine spares rfl ?_ (by simp [linker?, pendingLink, within, here])
        exact (joined_get? ..).trans (if_neg (Ne.symm here))
  | turns turn => cases theirs.symm.trans turn.own
  | advances | frees => cases theirs

end Producers

/-- What holds of a call after each of the moves that begin no other holds at the end. -/
theorem run_continues {first : LinkedSystem producers α}
    (Holds : LinkedSystem producers α → List (LinkedMove producers α) → List (LinkedEvent α) →
      Prop)
    (kept : ∀ system done later, Holds system done later →
      first.run done = .ok (system, later) → ∀ move, LinkedMove.Continues move →
        system.AllocatesFresh move → ∃ after event act,
          LinkedEffect system move after event act ∧
            Holds after (done ++ [move]) (later ++ event.toList))
    {system : LinkedSystem producers α} {done : List (LinkedMove producers α)}
    {later : List (LinkedEvent α)} (holds : Holds system done later)
    (ran : first.run done = .ok (system, later)) (moves : List (LinkedMove producers α))
    (continues : ∀ move ∈ moves, LinkedMove.Continues move)
    (fresh : system.AllocatesFreshly moves) :
    ∃ final all, first.run (done ++ moves) = .ok (final, all) ∧
      Holds final (done ++ moves) all := by
  induction moves generalizing system done later with
  | nil => exact ⟨system, later, by rwa [List.append_nil], by rwa [List.append_nil]⟩
  | cons move moves ih =>
      obtain ⟨freshMove, freshRest⟩ := fresh
      obtain ⟨after, event, act, effect, holdsAfter⟩ :=
        kept system done later holds ran move (continues move List.mem_cons_self) freshMove
      have step := effect.next_eq.1
      have further : first.run (done ++ [move]) = .ok (after, later ++ event.toList) := by
        have once : system.run [move] = .ok (after, event.toList ++ []) := run_cons step rfl
        rw [List.append_nil] at once
        exact run_append ran once
      have whole := ih holdsAfter further
        (fun other listed => continues other (List.mem_cons_of_mem _ listed))
        (freshRest after event step)
      rwa [List.append_assoc] at whole

/-! ## A call that has changed nothing -/

/-- Without the call's own moves the same would have happened. -/
structure Untouched (first : LinkedSystem producers α) (done : List (LinkedMove producers α))
    (system : LinkedSystem producers α) : Prop where
  unlinked_iff : system.queue.stubLink = none ↔
    first.queue.stubLink = none ∧ first.linkers done = []
  unchanged : first.run (done.filter LinkedMove.byProducer) = .ok (system.turned none, [])

namespace Untouched

variable {first system after : LinkedSystem producers α} {done : List (LinkedMove producers α)}
  {later : List (LinkedEvent α)} {move : LinkedMove producers α}
  {event : Option (LinkedEvent α)} {act : Option (LinkedAct producers α)}

theorem producer (untouched : Untouched first done system) {nodes : List (Address × α)}
    (chained : Chained system nodes) (ran : first.run done = .ok (system, later))
    (theirs : move.byProducer = true) (effect : LinkedEffect system move after event act) :
    Untouched first (done ++ [move]) after where
  unlinked_iff := by
    rw [chained.stubLink_of_producer theirs effect, untouched.unlinked_iff,
      linkers_concat ran effect.next_eq.1, List.append_eq_nil_iff, Option.toList_eq_nil_iff,
      and_assoc]
  unchanged := by
    obtain ⟨-, -, -, rfl⟩ := effect.of_producer theirs
    have same : (done ++ [move]).filter LinkedMove.byProducer =
        done.filter LinkedMove.byProducer ++ [move] := by
      rw [List.filter_append, List.filter_cons_of_pos theirs, List.filter_nil]
    rw [same]
    exact run_append untouched.unchanged (run_cons (effect.turned_none theirs).next_eq.1 rfl)

theorem own (untouched : Untouched first done system)
    (ran : first.run done = .ok (system, later)) (consumers : move.byProducer = false)
    (effect : LinkedEffect system move after event act)
    (same : after.turned none = system.turned none) : Untouched first (done ++ [move]) after where
  unlinked_iff := by
    have queue : (after.turned none).queue = (system.turned none).queue :=
      congrArg LinkedSystem.queue same
    have silent : system.linker? move = none := by
      cases move with
      | push | advance => cases consumers
      | pop | isEmpty | consume => rfl
    rw [linkers_concat ran effect.next_eq.1, silent, Option.toList_none, List.append_nil,
      ← untouched.unlinked_iff]
    exact Iff.of_eq (congrArg (LinkedQueue.stubLink · = none) queue)
  unchanged := by
    rw [same, List.filter_append, List.filter_cons_of_neg (by simp [consumers]), List.filter_nil,
      List.append_nil]
    exact untouched.unchanged

theorem idle (free : first.consumer = none) : Untouched first [] first where
  unlinked_iff := (and_iff_left rfl).symm
  unchanged := by
    have same : first.turned none = first := by
      rw [turned, ← free]
    rw [same]
    rfl

theorem starts (free : first.consumer = none) {call : Option (ConsumerCall α)}
    (turn : ConsumerTurn first move call none) : Untouched first [move] (first.turned call) :=
  (Untouched.idle free).own rfl turn.own (.turns turn) rfl

end Untouched

/-! ## From the moves of a call to the call -/

/-- An account of a call by its loads that every move keeps.  While the loads are `Quiet`, the
call changes nothing. -/
structure Accounts (producers : Nat) (α : Type)
    (Stands : LinkedSystem producers α → List (ConsumerLoad producers α) →
      List (LinkedEvent α) → Prop)
    (Quiet : List (ConsumerLoad producers α) → Prop) : Prop where
  producer : ∀ {system after loads later move event act}, Stands system loads later →
    LinkedMove.byProducer move = true → LinkedEffect system move after event act →
      Stands after loads later
  consume : ∀ {system loads later nodes acts events}, Stands system loads later →
    Chained system nodes → Ordered system nodes acts events →
      ∃ after event act, LinkedEffect system .consume after event act ∧
        Stands after (loads ++ (system.load? .consume).toList) (later ++ event.toList) ∧
        (Quiet (loads ++ (system.load? .consume).toList) → after.turned none = system.turned none)
  earlier : ∀ {loads} more, Quiet (loads ++ more) → Quiet loads

/-- What holds of a call that began in `first` with the first of the moves `done`. -/
structure CallRun (Stands : LinkedSystem producers α → List (ConsumerLoad producers α) →
      List (LinkedEvent α) → Prop) (Quiet : List (ConsumerLoad producers α) → Prop)
    (first system : LinkedSystem producers α) (done : List (LinkedMove producers α))
    (later : List (LinkedEvent α)) : Prop where
  queued : ∃ acts events, Queued system acts events
  stands : Stands system (first.loads done) later
  untouched : Quiet (first.loads done) → Untouched first done system

namespace Accounts

variable {Stands : LinkedSystem producers α → List (ConsumerLoad producers α) →
    List (LinkedEvent α) → Prop} {Quiet : List (ConsumerLoad producers α) → Prop}
  {first : LinkedSystem producers α} {acts : List (LinkedAct producers α)}
  {events : List (LinkedEvent α)}

theorem next (accounts : Accounts producers α Stands Quiet) {system : LinkedSystem producers α}
    {done : List (LinkedMove producers α)} {later : List (LinkedEvent α)}
    (call : CallRun Stands Quiet first system done later)
    (ran : first.run done = .ok (system, later)) (move : LinkedMove producers α)
    (continues : move.Continues) (fresh : system.AllocatesFresh move) :
    ∃ after event act, LinkedEffect system move after event act ∧
      CallRun Stands Quiet first after (done ++ [move]) (later ++ event.toList) := by
  obtain ⟨acts, events, nodes, chained, ordered⟩ := call.queued
  by_cases theirs : move.byProducer = true
  · obtain ⟨after, event, act, effect, chainedAfter⟩ := chained.next move fresh
    have loads := loads_concat ran effect.next_eq.1
    rw [load?_of_producer theirs, Option.toList_none, List.append_nil] at loads
    obtain ⟨-, -, -, rfl⟩ := effect.of_producer theirs
    refine ⟨after, none, act, effect, ⟨_, _, _, chainedAfter, ordered.effect chained effect⟩, ?_,
      fun quiet => ?_⟩
    · rw [loads, Option.toList_none, List.append_nil]
      exact accounts.producer call.stands theirs effect
    · rw [loads] at quiet
      exact (call.untouched quiet).producer chained ran theirs effect
  · obtain rfl := continues.eq_consume theirs
    obtain ⟨after, event, act, effect, stands, same⟩ :=
      accounts.consume call.stands chained ordered
    have loads := loads_concat ran effect.next_eq.1
    rw [← loads] at stands same
    refine ⟨after, event, act, effect,
      ⟨_, _, _, chained.effect effect, ordered.effect chained effect⟩, stands, fun quiet => ?_⟩
    refine (call.untouched ?_).own ran rfl effect (same quiet)
    rw [loads] at quiet
    exact accounts.earlier _ quiet

/-- A call that an idle consumer begins keeps its account to the end. -/
theorem call_run (accounts : Accounts producers α Stands Quiet)
    (queued : Queued first acts events) (free : first.consumer = none)
    {move : LinkedMove producers α} {call : Option (ConsumerCall α)}
    (turn : ConsumerTurn first move call none) (stands : Stands (first.turned call) [] [])
    (silent : first.load? move = none) {moves : List (LinkedMove producers α)}
    (continues : ∀ move ∈ moves, LinkedMove.Continues move)
    (fresh : first.AllocatesFreshly (move :: moves)) :
    ∃ final later, first.run (move :: moves) = .ok (final, later) ∧
      CallRun Stands Quiet first final (move :: moves) later := by
  obtain ⟨nodes, chained, ordered⟩ := queued
  have effect := LinkedEffect.turns turn
  have step := turn.next_eq.1
  have ran : first.run [move] = .ok (first.turned call, []) := run_cons step rfl
  have begins : CallRun Stands Quiet first (first.turned call) [move] [] := by
    have loads : first.loads [move] = [] := by
      rw [LinkedSystem.loads, noted_cons step, silent]
      rfl
    refine ⟨⟨_, _, _, chained.effect effect, ordered.effect chained effect⟩, ?_,
      fun _ => .starts free turn⟩
    rwa [loads]
  exact run_continues (CallRun Stands Quiet first) (fun _ _ _ call ran => accounts.next call ran)
    begins ran moves continues (fresh.2 _ _ step)

end Accounts

end LinkedSystem

end RingPool

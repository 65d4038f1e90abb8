import RingPool.Proofs.Linked.Accounts

/-!
# How the consumer decides that a linked queue is empty

A pop and a check for emptiness decide by two loads that are made at different times, while
producers may stand still between the swap and the link of their pushes.  `PopReads` says what a
pop comes to from its loads alone: it returns nothing exactly if it missed the stub's link and
then found the head at the stub; it waits exactly if values were left at its load of the head;
and it waits for one link, whatever becomes of the others.  The first load after the link is made
finds it, and then the pop returns the value that was swapped in next.  `CheckReads` says the like
of a check.

Both are read off an account of the call (`PopStands`, `CheckStands`) that every move keeps.
-/

set_option autoImplicit false

namespace RingPool

variable {producers : Nat} {α : Type}

namespace LinkedSystem

/-- The consumer is within the loop of a pop that waits for a link. -/
def Spinning (system : LinkedSystem producers α) : Prop :=
  ∃ spins, system.consumer = some (.pop ⟨spins, .pause⟩) ∨
    system.consumer = some (.pop ⟨spins, .lookAgain⟩)

def EntersLoop (system : LinkedSystem producers α) (moves : List (LinkedMove producers α)) :
    Prop :=
  ∃ early late state events, moves = early ++ late ∧ system.run early = .ok (state, events) ∧
    state.Spinning

/-- What a pop comes to that begins in `first` with the first of `moves`. -/
structure PopReads (first : LinkedSystem producers α) (moves : List (LinkedMove producers α))
    (final : LinkedSystem producers α) (later : List (LinkedEvent α)) : Prop where
  returns_none_iff : (∃ spins, later = [.popped ⟨none, spins⟩]) ↔
    ∃ look peek, first.loads moves = [.link look, .head peek] ∧ look.queue.stubLink = none ∧
      peek.queue.IsEmpty
  enters_iff : first.EntersLoop moves ↔
    ∃ look peek again, first.loads moves = .link look :: .head peek :: again ∧
      look.queue.stubLink = none ∧ peek.remaining ≠ []
  spins_iff : final.Spinning ↔
    ∃ look peek again, first.loads moves = .link look :: .head peek :: again ∧
      Missed (first.loads moves) ∧ peek.remaining ≠ []
  /-- One push is about to make the link that the pop waits for. -/
  awaits : final.Spinning → final.queue.stubLink = none →
    ∃ producer node link, final.pendingLink producer = some (final.queue.stub, node) ∧
      final.queue.heap.get? node = some ⟨final.remaining.head?, link⟩ ∧
        ∀ other after, final.pendingLink other = some (final.queue.stub, after) →
          other = producer
  unlinked_iff : Missed (first.loads moves) →
    (final.queue.stubLink = none ↔ first.queue.stubLink = none ∧ first.linkers moves = [])
  /-- A pop that has not found the link has changed nothing. -/
  unchanged : Missed (first.loads moves) →
    first.run (moves.filter LinkedMove.byProducer) = .ok (final.turned none, [])
  /-- The load that finds the link is the last, and the pop returns within two steps. -/
  fetches : ∀ last, ConsumerLoad.link last ∈ first.loads moves → last.queue.stubLink ≠ none →
    ¬ final.Spinning ∧ (∃ earlier, first.loads moves = earlier ++ [.link last]) ∧
      ∃ value spins, last.remaining.head? = some value ∧
        ∀ more, (∀ move ∈ more, LinkedMove.Continues move) → final.AllocatesFreshly more →
          2 ≤ more.countP (fun move => !move.byProducer) →
            ∃ after rest, final.run more = .ok (after, rest) ∧
              later ++ rest = [.popped ⟨some value, spins⟩]

/-- The load that decides a check: of the link if it finds it, else of the head. -/
def Decides (loads : List (ConsumerLoad producers α)) (deciding : LinkedSystem producers α) :
    Prop :=
  (loads = [.link deciding] ∧ deciding.queue.stubLink ≠ none) ∨
    ∃ look, loads = [.link look, .head deciding] ∧ look.queue.stubLink = none

/-- What a check for emptiness comes to that begins in `first` with the first of `moves`. -/
structure CheckReads (first : LinkedSystem producers α) (moves : List (LinkedMove producers α))
    (final : LinkedSystem producers α) (later : List (LinkedEvent α)) : Prop where
  answers_iff : ∀ answer, later = [.checked answer] ↔
    ∃ deciding, Decides (first.loads moves) deciding ∧
      (answer = true ↔ deciding.queue.IsEmpty)
  unchanged : first.run (moves.filter LinkedMove.byProducer) = .ok (final.turned none, [])

/-! ## A value on its way out -/

/-- The link is found and `value` will be returned, in as many steps as said. -/
inductive Fetches (value : α) (spins : Nat) :
    Nat → LinkedSystem producers α → List (LinkedEvent α) → Prop where
  | advances {system : LinkedSystem producers α} (next : Address)
      (within : system.consumer = some (.pop ⟨spins, .advance next⟩))
      (first : system.remaining.head? = some value) : Fetches value spins 2 system []
  | frees {system : LinkedSystem producers α} (old : Address)
      (within : system.consumer = some (.pop ⟨spins, .free old (some value)⟩)) :
      Fetches value spins 1 system []
  | returned {system : LinkedSystem producers α} (idle : system.consumer = none) :
      Fetches value spins 0 system [.popped ⟨some value, spins⟩]

namespace Fetches

variable {value : α} {spins left : Nat} {system after : LinkedSystem producers α}
  {later : List (LinkedEvent α)} {nodes : List (Address × α)}
  {acts : List (LinkedAct producers α)} {events : List (LinkedEvent α)}

theorem le_two (fetches : Fetches value spins left system later) : left ≤ 2 := by
  cases fetches <;> decide

theorem not_spinning (fetches : Fetches value spins left system later) : ¬ system.Spinning := by
  rintro ⟨others, pausing | looking⟩
  · cases fetches <;> simp_all
  · cases fetches <;> simp_all

theorem load?_eq (fetches : Fetches value spins left system later) :
    system.load? .consume = none := by
  cases fetches with
  | advances next within | frees old within => simp [load?, within]
  | returned idle => simp [load?, idle]

theorem producer (fetches : Fetches value spins left system later)
    {move : LinkedMove producers α} (theirs : move.byProducer = true)
    {event : Option (LinkedEvent α)} {act : Option (LinkedAct producers α)}
    (effect : LinkedEffect system move after event act) :
    Fetches value spins left after later := by
  have same := (effect.of_producer theirs).1
  cases fetches with
  | advances next within first =>
      exact .advances next (same.trans within) (remaining_head?_of_producer theirs effect first)
  | frees old within => exact .frees old (same.trans within)
  | returned idle => exact .returned (same.trans idle)

theorem consume (fetches : Fetches value spins left system later)
    (chained : Chained system nodes) (ordered : Ordered system nodes acts events) :
    ∃ after event act, LinkedEffect system .consume after event act ∧
      Fetches value spins (left - 1) after (later ++ event.toList) := by
  cases fetches with
  | advances next within first =>
      obtain ⟨content, rest, rfl, -⟩ := chained.linked_of_advance within
      obtain ⟨link, loaded⟩ := chained.loaded (next, content) List.mem_cons_self
      have untaken : system.taken = [] := by simp [taken, within]
      rw [ordered.remaining_of_untaken untaken] at first
      cases first
      exact ⟨_, _, _, .advances spins next _ within loaded, .frees system.queue.stub rfl⟩
  | frees old within =>
      have live := (chained.retired old (by simp [retiring, within])).1
      exact ⟨_, _, _, .frees spins old (some value) within live, .returned rfl⟩
  | returned idle =>
      refine ⟨system, none, none, .stay .consume idle, ?_⟩
      rw [Option.toList_none, List.append_nil]
      exact .returned idle

/-- Whatever the producers do meanwhile, the value is returned. -/
theorem run (fetches : Fetches value spins left system later)
    (queued : Queued system acts events) (more : List (LinkedMove producers α))
    (continues : ∀ move ∈ more, LinkedMove.Continues move)
    (fresh : system.AllocatesFreshly more)
    (enough : left ≤ more.countP fun move => !move.byProducer) :
    ∃ after rest, system.run more = .ok (after, rest) ∧
      later ++ rest = [.popped ⟨some value, spins⟩] := by
  induction more generalizing system left later acts events with
  | nil =>
      obtain rfl : left = 0 := Nat.le_zero.mp enough
      cases fetches
      exact ⟨system, [], rfl, rfl⟩
  | cons move more ih =>
      obtain ⟨nodes, chained, ordered⟩ := queued
      obtain ⟨freshMove, freshRest⟩ := fresh
      have others : ∀ move ∈ more, LinkedMove.Continues move := fun other listed =>
        continues other (List.mem_cons_of_mem _ listed)
      by_cases theirs : move.byProducer = true
      · obtain ⟨after, event, act, effect, chainedAfter⟩ := chained.next move freshMove
        have step := effect.next_eq.1
        obtain ⟨-, -, -, rfl⟩ := effect.of_producer theirs
        rw [List.countP_cons_of_neg (by simp [theirs])] at enough
        obtain ⟨final, rest, ran, whole⟩ := ih (fetches.producer theirs effect)
          ⟨_, chainedAfter, ordered.effect chained effect⟩ others (freshRest _ _ step) enough
        exact ⟨final, rest, run_cons step ran, whole⟩
      · obtain rfl := (continues move List.mem_cons_self).eq_consume theirs
        obtain ⟨after, event, act, effect, fetchesAfter⟩ := fetches.consume chained ordered
        have step := effect.next_eq.1
        rw [List.countP_cons_of_pos rfl] at enough
        obtain ⟨final, rest, ran, whole⟩ := ih fetchesAfter
          ⟨_, chained.effect effect, ordered.effect chained effect⟩ others (freshRest _ _ step)
          (by omega)
        refine ⟨final, event.toList ++ rest, run_cons step ran, ?_⟩
        rwa [← List.append_assoc]

end Fetches

/-! ## The account of a pop -/

inductive PopStands : LinkedSystem producers α → List (ConsumerLoad producers α) →
    List (LinkedEvent α) → Prop where
  | looks {system : LinkedSystem producers α}
      (within : system.consumer = some (.pop ⟨0, .look⟩)) : PopStands system [] []
  | peeks {system look : LinkedSystem producers α}
      (within : system.consumer = some (.pop ⟨0, .peek⟩))
      (missed : Missed [.link look]) : PopStands system [.link look] []
  | ends {system look peek : LinkedSystem producers α} (idle : system.consumer = none)
      (missed : Missed [.link look]) (empty : peek.queue.IsEmpty)
      (drained : peek.remaining = []) :
      PopStands system [.link look, .head peek] [.popped ⟨none, 0⟩]
  | spins {system look peek : LinkedSystem producers α}
      {again : List (ConsumerLoad producers α)} (spinning : system.Spinning)
      (missed : Missed (.link look :: .head peek :: again)) (busy : ¬ peek.queue.IsEmpty)
      (ahead : peek.remaining ≠ []) :
      PopStands system (.link look :: .head peek :: again) []
  | fetches {system last : LinkedSystem producers α}
      {earlier : List (ConsumerLoad producers α)} {later : List (LinkedEvent α)} {value : α}
      {spins left : Nat} (missed : Missed earlier) (found : last.queue.stubLink ≠ none)
      (next : last.remaining.head? = some value)
      (fetches : Fetches value spins left system later) :
      PopStands system (earlier ++ [.link last]) later

theorem missed_nil : Missed ([] : List (ConsumerLoad producers α)) := by
  intro system listed
  cases listed

theorem missed_link_iff {system : LinkedSystem producers α}
    {loads : List (ConsumerLoad producers α)} :
    Missed (loads ++ [.link system]) ↔ Missed loads ∧ system.queue.stubLink = none := by
  constructor
  · intro missed
    exact ⟨fun other listed => missed other (List.mem_append_left _ listed),
      missed system (List.mem_append_right _ List.mem_cons_self)⟩
  · rintro ⟨missed, unlinked⟩ other listed
    rcases List.mem_append.mp listed with listed | listed
    · exact missed other listed
    · cases List.mem_singleton.mp listed
      exact unlinked

theorem missed_head_iff {system : LinkedSystem producers α}
    {loads : List (ConsumerLoad producers α)} :
    Missed (loads ++ [.head system]) ↔ Missed loads := by
  constructor
  · intro missed other listed
    exact missed other (List.mem_append_left _ listed)
  · intro missed other listed
    rcases List.mem_append.mp listed with listed | listed
    · exact missed other listed
    · cases List.mem_singleton.mp listed

theorem Chained.ne_nil_of_stubLink {system : LinkedSystem producers α}
    {nodes : List (Address × α)} (chained : Chained system nodes)
    (linked : system.queue.stubLink ≠ none) : nodes ≠ [] := by
  intro none
  obtain ⟨value, last⟩ := chained.last
  rw [chained.head_eq_stub_iff.mpr none] at last
  exact linked (LinkedQueue.stubLink_of_get? last)

namespace PopStands

variable {system after : LinkedSystem producers α} {loads : List (ConsumerLoad producers α)}
  {later : List (LinkedEvent α)} {nodes : List (Address × α)}
  {acts : List (LinkedAct producers α)} {events : List (LinkedEvent α)}

theorem producer (stands : PopStands system loads later) {move : LinkedMove producers α}
    (theirs : move.byProducer = true) {event : Option (LinkedEvent α)}
    {act : Option (LinkedAct producers α)}
    (effect : LinkedEffect system move after event act) : PopStands after loads later := by
  have same := (effect.of_producer theirs).1
  cases stands with
  | looks within => exact .looks (same.trans within)
  | peeks within missed => exact .peeks (same.trans within) missed
  | ends idle missed empty drained => exact .ends (same.trans idle) missed empty drained
  | spins spinning missed busy ahead =>
      refine .spins ?_ missed busy ahead
      rwa [Spinning, same]
  | fetches missed found next fetches =>
      exact .fetches missed found next (fetches.producer theirs effect)

theorem finds (chained : Chained system nodes) (ordered : Ordered system nodes acts events)
    (missed : Missed loads) {spins : Nat} {next : Address} (untaken : system.taken = [])
    (linked : system.queue.stubLink = some next)
    (within : after.consumer = some (.pop ⟨spins, .advance next⟩))
    (same : after.remaining = system.remaining) :
    PopStands after (loads ++ [.link system]) [] := by
  have found : system.queue.stubLink ≠ none := by simp [linked]
  obtain ⟨⟨address, value⟩, rest, rfl⟩ :=
    List.exists_cons_of_ne_nil (chained.ne_nil_of_stubLink found)
  have first : system.remaining.head? = some value := by
    rw [ordered.remaining_of_untaken untaken]
    rfl
  exact .fetches missed found first (.advances next within (same ▸ first))

theorem consume_peek {look : LinkedSystem producers α}
    (within : system.consumer = some (.pop ⟨0, .peek⟩)) (missed : Missed [.link look])
    (chained : Chained system nodes) (ordered : Ordered system nodes acts events) :
    ∃ after event act, LinkedEffect system .consume after event act ∧
      PopStands after [.link look, .head system] event.toList ∧
      after.turned none = system.turned none := by
  have untaken : system.taken = [] := by simp [taken, within]
  have drained := ordered.isEmpty_iff_remaining chained untaken
  -- This is the load that decides.
  by_cases empty : system.queue.IsEmpty
  · exact ⟨_, _, _, .turns (.popEnds 0 within empty), .ends rfl missed empty (drained.mp empty),
      rfl⟩
  · exact ⟨_, _, _, .turns (.popWaits 0 within empty),
      .spins ⟨0, Or.inl rfl⟩ (missed_head_iff.mpr missed) empty (mt drained.mpr empty), rfl⟩

theorem consume_spin {look peek : LinkedSystem producers α}
    {again : List (ConsumerLoad producers α)} (spinning : system.Spinning)
    (missed : Missed (.link look :: .head peek :: again)) (busy : ¬ peek.queue.IsEmpty)
    (ahead : peek.remaining ≠ []) (chained : Chained system nodes)
    (ordered : Ordered system nodes acts events) :
    ∃ after event act, LinkedEffect system .consume after event act ∧
      PopStands after ((.link look :: .head peek :: again) ++ (system.load? .consume).toList)
        event.toList ∧
      after.turned none = system.turned none := by
  obtain ⟨spins, within | within⟩ := spinning
  · have loads : system.load? .consume = none := by simp [load?, within]
    rw [loads, Option.toList_none, List.append_nil]
    exact ⟨_, _, _, .turns (.popPauses spins within),
      .spins ⟨spins + 1, Or.inr rfl⟩ missed busy ahead, rfl⟩
  · have untaken : system.taken = [] := by simp [taken, within]
    have loads : system.load? .consume = some (.link system) := by simp [load?, within]
    obtain ⟨link, spent⟩ := chained.spent
    have stubLink := LinkedQueue.stubLink_of_get? spent
    rw [loads]
    cases link with
    | none =>
        exact ⟨_, _, _, .turns (.popMissesAgain spins none within spent),
          .spins ⟨spins, Or.inl rfl⟩ (missed_link_iff.mpr ⟨missed, stubLink⟩) busy ahead, rfl⟩
    | some next =>
        exact ⟨_, _, _, .turns (.popFindsLate spins none next within spent),
          finds chained ordered missed untaken stubLink rfl rfl, rfl⟩

theorem consume (stands : PopStands system loads later) (chained : Chained system nodes)
    (ordered : Ordered system nodes acts events) :
    ∃ after event act, LinkedEffect system .consume after event act ∧
      PopStands after (loads ++ (system.load? .consume).toList) (later ++ event.toList) ∧
      (Missed (loads ++ (system.load? .consume).toList) →
        after.turned none = system.turned none) := by
  cases stands with
  | looks within =>
      have untaken : system.taken = [] := by simp [taken, within]
      have loads : system.load? .consume = some (.link system) := by simp [load?, within]
      obtain ⟨link, spent⟩ := chained.spent
      have stubLink := LinkedQueue.stubLink_of_get? spent
      rw [loads]
      cases link with
      | none =>
          exact ⟨_, _, _, .turns (.popMisses 0 none within spent),
            .peeks rfl (missed_link_iff.mpr ⟨missed_nil, stubLink⟩), fun _ => rfl⟩
      | some next =>
          exact ⟨_, _, _, .turns (.popFinds 0 none next within spent),
            finds chained ordered missed_nil untaken stubLink rfl rfl, fun _ => rfl⟩
  | peeks within missed =>
      have loads : system.load? .consume = some (.head system) := by simp [load?, within]
      rw [loads]
      obtain ⟨after, event, act, effect, stands, same⟩ :=
        consume_peek within missed chained ordered
      exact ⟨after, event, act, effect, stands, fun _ => same⟩
  | ends idle missed empty drained =>
      have loads : system.load? .consume = none := by simp [load?, idle]
      rw [loads]
      exact ⟨_, _, _, .stay .consume idle, .ends idle missed empty drained, fun _ => rfl⟩
  | spins spinning missed busy ahead =>
      obtain ⟨after, event, act, effect, stands, same⟩ :=
        consume_spin spinning missed busy ahead chained ordered
      exact ⟨after, event, act, effect, stands, fun _ => same⟩
  | fetches missed found next fetches =>
      rw [fetches.load?_eq, Option.toList_none, List.append_nil]
      obtain ⟨after, event, act, effect, further⟩ := fetches.consume chained ordered
      -- This pop has found its link.
      exact ⟨after, event, act, effect, .fetches missed found next further,
        fun all => absurd (missed_link_iff.mp all).2 found⟩

theorem returns_none_iff (stands : PopStands system loads later) :
    (∃ spins, later = [.popped ⟨none, spins⟩]) ↔
      ∃ look peek, loads = [.link look, .head peek] ∧ look.queue.stubLink = none ∧
        peek.queue.IsEmpty := by
  constructor
  · rintro ⟨spins, returned⟩
    cases stands with
    | looks | peeks | spins => cases returned
    | ends idle missed empty =>
        exact ⟨_, _, rfl, missed _ List.mem_cons_self, empty⟩
    | fetches missed found next fetches => cases fetches <;> cases returned
  · rintro ⟨look, peek, made, unlinked, empty⟩
    cases stands with
    | looks | peeks => cases made
    | ends => exact ⟨0, rfl⟩
    | spins spinning missed busy =>
        cases made
        exact absurd empty busy
    | fetches =>
        have last := congrArg List.getLast? made
        simp at last

theorem spinning_iff (stands : PopStands system loads later) :
    system.Spinning ↔
      ∃ look peek again, loads = .link look :: .head peek :: again ∧ Missed loads ∧
        peek.remaining ≠ [] := by
  constructor
  · intro spinning
    obtain ⟨count, pausing | looking⟩ := id spinning
    all_goals
      cases stands with
      | spins _ missed _ ahead => exact ⟨_, _, _, rfl, missed, ahead⟩
      | fetches missed found next fetches => exact absurd spinning fetches.not_spinning
      | looks | peeks | ends => simp_all
  · rintro ⟨look, peek, again, made, missed, ahead⟩
    cases stands with
    | looks | peeks => cases made
    | ends idle _ empty drained =>
        cases made
        exact absurd drained ahead
    | spins spinning => exact spinning
    | fetches _ found => exact absurd (missed_link_iff.mp missed).2 found

/-- A load that found the link is the last one. -/
theorem fetches_of_mem (stands : PopStands system loads later) {last : LinkedSystem producers α}
    (listed : ConsumerLoad.link last ∈ loads) (found : last.queue.stubLink ≠ none) :
    (∃ earlier, loads = earlier ++ [.link last]) ∧
      ∃ value spins left, last.remaining.head? = some value ∧
        Fetches value spins left system later := by
  cases stands with
  | looks => cases listed
  | peeks within missed => exact absurd (missed last listed) found
  | ends idle missed => exact absurd (missed_head_iff.mpr missed last listed) found
  | spins spinning missed => exact absurd (missed last listed) found
  | fetches missed _ next fetches =>
      rcases List.mem_append.mp listed with listed | listed
      · exact absurd (missed last listed) found
      · cases List.mem_singleton.mp listed
        exact ⟨⟨_, rfl⟩, _, _, _, next, fetches⟩

theorem accounts : Accounts producers α PopStands Missed where
  producer := fun stands theirs effect => stands.producer theirs effect
  consume := PopStands.consume
  earlier := fun _ missed other listed => missed other (List.mem_append_left _ listed)

end PopStands

section Pops

variable {first : LinkedSystem producers α} {acts : List (LinkedAct producers α)}
  {events : List (LinkedEvent α)} {moves : List (LinkedMove producers α)}

theorem pop_run (queued : Queued first acts events) (free : first.consumer = none)
    (continues : ∀ move ∈ moves, LinkedMove.Continues move)
    (fresh : first.AllocatesFreshly (.pop :: moves)) :
    ∃ final later, first.run (.pop :: moves) = .ok (final, later) ∧
      CallRun PopStands Missed first final (.pop :: moves) later :=
  PopStands.accounts.call_run queued free (.popStarts free) (.looks rfl) rfl continues fresh

theorem pop_run_of_split (queued : Queued first acts events) (free : first.consumer = none)
    (continues : ∀ move ∈ moves, LinkedMove.Continues move)
    (fresh : first.AllocatesFreshly (.pop :: moves)) {early late : List (LinkedMove producers α)}
    (split : .pop :: moves = early ++ late) (begun : early ≠ [])
    {state : LinkedSystem producers α} {seen : List (LinkedEvent α)}
    (ran : first.run early = .ok (state, seen)) :
    CallRun PopStands Missed first state early seen := by
  cases early with
  | nil => exact absurd rfl begun
  | cons move early =>
      obtain ⟨rfl, rfl⟩ := List.cons.inj split
      obtain ⟨final, later, comes, popRun⟩ := pop_run queued free
        (fun move listed => continues move (List.mem_append_left _ listed))
        (allocatesFreshly_append fresh).1
      cases ran.symm.trans comes
      exact popRun

theorem pop_enters_iff (queued : Queued first acts events) (free : first.consumer = none)
    (continues : ∀ move ∈ moves, LinkedMove.Continues move)
    (fresh : first.AllocatesFreshly (.pop :: moves)) :
    first.EntersLoop (.pop :: moves) ↔
      ∃ look peek again, first.loads (.pop :: moves) = .link look :: .head peek :: again ∧
        look.queue.stubLink = none ∧ peek.remaining ≠ [] := by
  constructor
  · rintro ⟨early, late, state, seen, split, ran, spinning⟩
    have begun : early ≠ [] := by
      rintro rfl
      cases ran
      obtain ⟨spins, within | within⟩ := spinning <;> cases free.symm.trans within
    have popRun := pop_run_of_split queued free continues fresh split begun ran
    obtain ⟨look, peek, again, made, missed, ahead⟩ := popRun.stands.spinning_iff.mp spinning
    rw [made] at missed
    refine ⟨look, peek, again ++ state.loads late, ?_, missed look List.mem_cons_self, ahead⟩
    rw [split, loads, noted_append ran]
    exact congrArg (· ++ state.loads late) made
  · rintro ⟨look, peek, again, made, unlinked, ahead⟩
    -- The loop is entered by the second load.
    have second : first.noted load? (.pop :: moves) = [.link look] ++ .head peek :: again := made
    obtain ⟨early, move, late, state, seen, split, ran, before, here⟩ :=
      exists_of_noted_split second
    obtain ⟨rfl, -, -⟩ := of_load? here
    have begun : early ≠ [] := by
      rintro rfl
      cases before
    have popRun := pop_run_of_split queued free continues fresh split begun ran
    obtain ⟨after, event, act, effect, further⟩ :=
      PopStands.accounts.next popRun ran .consume trivial trivial
    have step := effect.next_eq.1
    have loads := loads_concat ran step
    rw [here, show first.loads early = [.link look] from before] at loads
    have missed : Missed (first.loads (early ++ [.consume])) := by
      rw [loads]
      exact missed_head_iff.mpr (missed_link_iff.mpr ⟨missed_nil, unlinked⟩)
    refine ⟨early ++ [.consume], late, after, _, by simp [split],
      run_append ran (run_cons step rfl),
      further.stands.spinning_iff.mpr ⟨look, peek, [], loads, missed, ahead⟩⟩

/-- A pop that waits for a link waits for the push that is about to make it. -/
theorem Chained.awaits {system : LinkedSystem producers α} {nodes : List (Address × α)}
    (chained : Chained system nodes) (ordered : Ordered system nodes acts events)
    (spinning : system.Spinning) (unlinked : system.queue.stubLink = none) :
    ∃ producer node link, system.pendingLink producer = some (system.queue.stub, node) ∧
      system.queue.heap.get? node = some ⟨system.remaining.head?, link⟩ ∧
        ∀ other after, system.pendingLink other = some (system.queue.stub, after) →
          other = producer := by
  obtain ⟨ahead, untaken⟩ : nodes ≠ [] ∧ system.taken = [] := by
    obtain ⟨spins, within | within⟩ := spinning <;>
      exact ⟨chained.calling _ within, by simp [taken, within]⟩
  obtain ⟨⟨address, value⟩, rest, rfl⟩ := List.exists_cons_of_ne_nil ahead
  obtain ⟨link, loaded⟩ := chained.loaded (address, value) List.mem_cons_self
  -- The first node follows the stub, which is not linked to it, so a push is about to link it.
  rcases (List.isChain_cons_cons.mp chained.follows).1 with
    ⟨content, linked⟩ | ⟨content, producer, pushed, -, within⟩
  · cases unlinked.symm.trans (LinkedQueue.stubLink_of_get? linked)
  · refine ⟨producer, address, link, pendingLink_eq_some.mpr ⟨pushed, within⟩, ?_, ?_⟩
    · rw [ordered.remaining_of_untaken untaken]
      exact loaded
    · intro other after pending
      obtain ⟨others, stands⟩ := pendingLink_eq_some.mp pending
      exact chained.apart other producer _ (holding_of_push stands) (holding_of_push within)

theorem pop_reads (queued : Queued first acts events) (free : first.consumer = none)
    (continues : ∀ move ∈ moves, LinkedMove.Continues move)
    (fresh : first.AllocatesFreshly (.pop :: moves)) :
    ∃ final later, first.run (.pop :: moves) = .ok (final, later) ∧
      PopReads first (.pop :: moves) final later := by
  obtain ⟨final, later, ran, popRun⟩ := pop_run queued free continues fresh
  obtain ⟨acts, events, nodes, chained, ordered⟩ := id popRun.queued
  refine ⟨final, later, ran, ?_⟩
  exact {
    returns_none_iff := popRun.stands.returns_none_iff
    enters_iff := pop_enters_iff queued free continues fresh
    spins_iff := popRun.stands.spinning_iff
    awaits := chained.awaits ordered
    unlinked_iff := fun missed => (popRun.untouched missed).unlinked_iff
    unchanged := fun missed => (popRun.untouched missed).unchanged
    fetches := by
      intro last listed found
      obtain ⟨final, value, spins, left, next, fetches⟩ :=
        popRun.stands.fetches_of_mem listed found
      exact ⟨fetches.not_spinning, final, value, spins, next, fun more others freshMore enough =>
        fetches.run ⟨nodes, chained, ordered⟩ more others freshMore
          (fetches.le_two.trans enough)⟩ }

end Pops

/-! ## The account of a check -/

inductive CheckStands : LinkedSystem producers α → List (ConsumerLoad producers α) →
    List (LinkedEvent α) → Prop where
  | looks {system : LinkedSystem producers α}
      (within : system.consumer = some (.isEmpty .look)) : CheckStands system [] []
  | peeks {system look : LinkedSystem producers α}
      (within : system.consumer = some (.isEmpty .peek))
      (missed : look.queue.stubLink = none) : CheckStands system [.link look] []
  | finds {system look : LinkedSystem producers α} (idle : system.consumer = none)
      (found : look.queue.stubLink ≠ none) (busy : ¬ look.queue.IsEmpty) :
      CheckStands system [.link look] [.checked false]
  | ends {system look peek : LinkedSystem producers α} (idle : system.consumer = none)
      (missed : look.queue.stubLink = none) :
      CheckStands system [.link look, .head peek]
        [.checked (peek.queue.head == peek.queue.stub)]

namespace CheckStands

variable {system after : LinkedSystem producers α} {loads : List (ConsumerLoad producers α)}
  {later : List (LinkedEvent α)} {nodes : List (Address × α)}

theorem producer (stands : CheckStands system loads later) {move : LinkedMove producers α}
    (theirs : move.byProducer = true) {event : Option (LinkedEvent α)}
    {act : Option (LinkedAct producers α)}
    (effect : LinkedEffect system move after event act) : CheckStands after loads later := by
  have same := (effect.of_producer theirs).1
  cases stands with
  | looks within => exact .looks (same.trans within)
  | peeks within missed => exact .peeks (same.trans within) missed
  | finds idle found busy => exact .finds (same.trans idle) found busy
  | ends idle missed => exact .ends (same.trans idle) missed

theorem consume (stands : CheckStands system loads later) (chained : Chained system nodes) :
    ∃ after event act, LinkedEffect system .consume after event act ∧
      CheckStands after (loads ++ (system.load? .consume).toList) (later ++ event.toList) ∧
      after.turned none = system.turned none := by
  cases stands with
  | looks within =>
      have loads : system.load? .consume = some (.link system) := by simp [load?, within]
      obtain ⟨link, spent⟩ := chained.spent
      have stubLink := LinkedQueue.stubLink_of_get? spent
      rw [loads]
      cases link with
      | none =>
          exact ⟨_, _, _, .turns (.checkMisses none within spent), .peeks rfl stubLink, rfl⟩
      | some next =>
          have found : system.queue.stubLink ≠ none := by simp [stubLink]
          have busy : ¬ system.queue.IsEmpty := fun empty =>
            chained.ne_nil_of_stubLink found (chained.head_eq_stub_iff.mp empty)
          exact ⟨_, _, _, .turns (.checkFinds none next within spent), .finds rfl found busy, rfl⟩
  | peeks within missed =>
      have loads : system.load? .consume = some (.head system) := by simp [load?, within]
      rw [loads]
      exact ⟨_, _, _, .turns (.checkEnds within), .ends rfl missed, rfl⟩
  | finds idle found busy =>
      have loads : system.load? .consume = none := by simp [load?, idle]
      rw [loads]
      exact ⟨_, _, _, .stay .consume idle, .finds idle found busy, rfl⟩
  | ends idle missed =>
      have loads : system.load? .consume = none := by simp [load?, idle]
      rw [loads]
      exact ⟨_, _, _, .stay .consume idle, .ends idle missed, rfl⟩

theorem answers_iff (stands : CheckStands system loads later) (answer : Bool) :
    later = [.checked answer] ↔
      ∃ deciding, Decides loads deciding ∧ (answer = true ↔ deciding.queue.IsEmpty) := by
  constructor
  · rintro returned
    cases stands with
    | looks | peeks => cases returned
    | finds idle found busy =>
        cases returned
        exact ⟨_, Or.inl ⟨rfl, found⟩, iff_of_false Bool.false_ne_true busy⟩
    | ends idle missed =>
        cases returned
        exact ⟨_, Or.inr ⟨_, rfl, missed⟩, beq_iff_eq⟩
  · rintro ⟨deciding, ⟨made, found⟩ | ⟨look, made, missed⟩, agrees⟩
    · cases stands with
      | looks | ends => cases made
      | peeks within missed =>
          cases made
          exact absurd missed found
      | finds idle _ busy =>
          cases made
          cases answer with
          | false => rfl
          | true => exact absurd (agrees.mp rfl) busy
    · cases stands with
      | looks | peeks | finds => cases made
      | ends =>
          cases made
          have same : (deciding.queue.head == deciding.queue.stub) = answer :=
            Bool.eq_iff_iff.mpr (beq_iff_eq.trans agrees.symm)
          rw [same]

theorem accounts : Accounts producers α CheckStands fun _ => True where
  producer := fun stands theirs effect => stands.producer theirs effect
  consume := fun stands chained _ => by
    obtain ⟨after, event, act, effect, further, same⟩ := stands.consume chained
    exact ⟨after, event, act, effect, further, fun _ => same⟩
  earlier := fun _ _ => trivial

end CheckStands

theorem check_reads {first : LinkedSystem producers α} {acts : List (LinkedAct producers α)}
    {events : List (LinkedEvent α)} {moves : List (LinkedMove producers α)}
    (queued : Queued first acts events) (free : first.consumer = none)
    (continues : ∀ move ∈ moves, LinkedMove.Continues move)
    (fresh : first.AllocatesFreshly (.isEmpty :: moves)) :
    ∃ final later, first.run (.isEmpty :: moves) = .ok (final, later) ∧
      CheckReads first (.isEmpty :: moves) final later := by
  obtain ⟨final, later, ran, call⟩ := CheckStands.accounts.call_run queued free
    (.checkStarts free) (.looks rfl) rfl continues fresh
  exact ⟨final, later, ran, call.stands.answers_iff, (call.untouched trivial).unchanged⟩

end LinkedSystem

open LinkedSystem in
/-- Whatever the producers do meanwhile, a pop and a check for emptiness decide by what their
loads find, each in the state in which it is made: an empty queue is one of which all that was
swapped in is popped, and a value whose push is over is not missed. -/
theorem emptiness_decided_by_loads (before during : List (LinkedMove producers α))
    (continues : ∀ move ∈ during, move.Continues) {first : LinkedSystem producers α}
    {events : List (LinkedEvent α)} (reached : start.run before = .ok (first, events))
    (idle : first.consumer = none) :
    ((start : LinkedSystem producers α).AllocatesFreshly (before ++ .pop :: during) →
      ∃ final later, first.run (.pop :: during) = .ok (final, later) ∧
        PopReads first (.pop :: during) final later ∧
        ∀ load ∈ first.loads (.pop :: during), LoadedIn (before ++ .pop :: during) load.system) ∧
    ((start : LinkedSystem producers α).AllocatesFreshly (before ++ .isEmpty :: during) →
      ∃ final later, first.run (.isEmpty :: during) = .ok (final, later) ∧
        CheckReads first (.isEmpty :: during) final later ∧
        ∀ load ∈ first.loads (.isEmpty :: during),
          LoadedIn (before ++ .isEmpty :: during) load.system) := by
  constructor
  · intro fresh
    obtain ⟨freshBefore, freshAfter⟩ := allocatesFreshly_append fresh
    obtain ⟨state, seen, ran, queued⟩ := queued_run before freshBefore
    cases reached.symm.trans ran
    obtain ⟨final, later, comes, reads⟩ :=
      pop_reads queued idle continues (freshAfter first events reached)
    exact ⟨final, later, comes, reads, fun load => loadedIn_of_mem reached fresh⟩
  · intro fresh
    obtain ⟨freshBefore, freshAfter⟩ := allocatesFreshly_append fresh
    obtain ⟨state, seen, ran, queued⟩ := queued_run before freshBefore
    cases reached.symm.trans ran
    obtain ⟨final, later, comes, reads⟩ :=
      check_reads queued idle continues (freshAfter first events reached)
    exact ⟨final, later, comes, reads, fun load => loadedIn_of_mem reached fresh⟩

namespace LinkedSystem

def sampleAfter (count : Nat) : LinkedSystem 2 Nat :=
  match start.run (sampleMoves.take count) with
  | .ok (system, _) => system
  | .error _ => start

/-- What follows a pop of the sample run, up to the load that finds the link. -/
def lateMoves : List (LinkedMove 2 Nat) := (sampleMoves.drop 16).take 5

end LinkedSystem

open LinkedSystem in
/-- A value waits behind a link that is not made, with a push that is over behind it.  The pop
waits for the link and returns the value; a check sees that the queue is not empty. -/
theorem emptiness_decided_by_loads_sample :
    start.AllocatesFreshly (sampleMoves.take 15 ++ .pop :: lateMoves) ∧
      (∃ final later after rest spins,
        (sampleAfter 15).run (.pop :: lateMoves) = .ok (final, later) ∧
          final.run [.consume, .consume] = .ok (after, rest) ∧
            later ++ rest = [.popped ⟨some 20, spins⟩]) ∧
      ∃ final, (sampleAfter 15).run (.isEmpty :: lateMoves) = .ok (final, [.checked false]) := by
  have continues : ∀ move ∈ lateMoves, LinkedMove.Continues move := by
    simp [lateMoves, sampleMoves, LinkedMove.Continues]
  have fresh : start.AllocatesFreshly (sampleMoves.take 15 ++ .pop :: lateMoves) := by
    decide +kernel
  have freshCheck : start.AllocatesFreshly (sampleMoves.take 15 ++ .isEmpty :: lateMoves) := by
    decide +kernel
  have reached : start.run (sampleMoves.take 15) = .ok (sampleAfter 15, [.popped ⟨some 10, 0⟩]) :=
    rfl
  obtain ⟨pops, checks⟩ :=
    emptiness_decided_by_loads (sampleMoves.take 15) lateMoves continues reached rfl
  obtain ⟨final, later, ran, reads, -⟩ := pops fresh
  obtain ⟨checked, answers, answered, checkReads, -⟩ := checks freshCheck
  have loads : (sampleAfter 15).loads (.pop :: lateMoves) =
      [.link (sampleAfter 16), .head (sampleAfter 17), .link (sampleAfter 20)] := rfl
  have listed :
      ConsumerLoad.link (sampleAfter 20) ∈ (sampleAfter 15).loads (.pop :: lateMoves) := by
    simp [loads]
  obtain ⟨-, -, value, spins, next, fetches⟩ :=
    reads.fetches (sampleAfter 20) listed (by decide +kernel)
  have first : (sampleAfter 20).remaining.head? = some 20 := by decide +kernel
  obtain rfl : 20 = value := Option.some.inj (first.symm.trans next)
  obtain ⟨after, rest, ends, returned⟩ := fetches [.consume, .consume]
    (by simp [LinkedMove.Continues]) ⟨trivial, fun _ _ _ => ⟨trivial, fun _ _ _ => trivial⟩⟩
    (by decide)
  have busy : answers = [.checked false] :=
    (checkReads.answers_iff false).mpr ⟨_, Or.inr ⟨_, rfl, rfl⟩, by decide +kernel⟩
  rw [busy] at answered
  exact ⟨fresh, ⟨final, later, after, rest, spins, ran, ends, returned⟩, checked, answered⟩

end RingPool

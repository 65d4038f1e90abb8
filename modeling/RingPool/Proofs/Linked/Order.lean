import RingPool.Proofs.Linked.Chain

/-!
# Values leave a linked queue in the order of the swaps

Each value that was swapped in is one that a pop has returned, one that a pop is
about to return, or one that a node of the chain carries, in this order.  So what
pops return is a prefix of what was swapped in, whatever the interleaving, and
the values of one producer keep the order of its pushes.  Where no link is
pending, the consumer ends its call in a few steps, and pops then return all that
is left.
-/

set_option autoImplicit false

namespace RingPool

variable {producers : Nat} {α : Type}

/-- The value of a push of a producer that was accepted. -/
def LinkedAct.acceptedFrom? (producer : Fin producers) : LinkedAct producers α → Option α
  | .accepted other value => if other = producer then some value else none
  | _ => none

/-- The values that a producer's pushes were given, in their order. -/
def pushesOf (producer : Fin producers) (acts : List (LinkedAct producers α)) : List α :=
  acts.filterMap (LinkedAct.acceptedFrom? producer)

/-- The values of one producer in a history of swaps. -/
def valuesOf (producer : Fin producers) (history : List (Fin producers × α)) : List α :=
  (history.filter fun entry => entry.1 = producer).map Prod.snd

@[simp] theorem pushesOf_append (producer : Fin producers)
    (first second : List (LinkedAct producers α)) :
    pushesOf producer (first ++ second) = pushesOf producer first ++ pushesOf producer second :=
  List.filterMap_append

@[simp] theorem valuesOf_append (producer : Fin producers)
    (first second : List (Fin producers × α)) :
    valuesOf producer (first ++ second) = valuesOf producer first ++ valuesOf producer second := by
  simp [valuesOf]

theorem valuesOf_take_isPrefix (producer : Fin producers) (history : List (Fin producers × α))
    (count : Nat) : valuesOf producer (history.take count) <+: valuesOf producer history := by
  conv_rhs => rw [← List.take_append_drop count history]
  rw [valuesOf_append]
  exact List.prefix_append _ _

def Push.unswapped : Option (α × Push α) → List α
  | some (value, .create _) | some (value, .swap _) => [value]
  | some (_, .link _ _) | none => []

namespace LinkedSystem

def taken (system : LinkedSystem producers α) : List α :=
  match system.consumer with
  | some (.pop ⟨_, .free _ value⟩) => value.toList
  | _ => []

theorem taken_eq_nil {system : LinkedSystem producers α} (unretiring : system.retiring = none) :
    system.taken = [] := by
  unfold taken
  unfold retiring at unretiring
  split
  case h_1 spins old value within => simp [within] at unretiring
  case h_2 => rfl

/-- The values that were swapped in and that no pop has returned, in the order of the swaps. -/
def remaining (system : LinkedSystem producers α) : List α :=
  (system.swapped.map Prod.snd).drop system.popped.length

/-- Where each value stands that was given to a push. -/
structure Ordered (system : LinkedSystem producers α) (nodes : List (Address × α))
    (acts : List (LinkedAct producers α)) (events : List (LinkedEvent α)) : Prop where
  values : system.swapped.map Prod.snd = system.popped ++ system.taken ++ nodes.map Prod.snd
  pushed : ∀ producer, pushesOf producer acts =
    valuesOf producer system.swapped ++ Push.unswapped (system.pushes producer)
  returned : system.popped = poppedValues events

namespace Ordered

variable {system : LinkedSystem producers α} {nodes : List (Address × α)}
  {acts : List (LinkedAct producers α)} {events : List (LinkedEvent α)}

theorem start : Ordered (LinkedSystem.start : LinkedSystem producers α) [] [] [] where
  values := rfl
  pushed := fun _ => rfl
  returned := rfl

theorem pushStarts (ordered : Ordered system nodes acts events) {producer : Fin producers}
    (free : system.pushes producer = none) (value : α) :
    Ordered (system.setPush producer (some (value, .create value))) nodes
      (acts ++ [.accepted producer value]) events where
  values := ordered.values
  pushed := by
    intro other
    rw [pushesOf_append, ordered.pushed, setPush_pushes]
    by_cases here : other = producer
    · subst here
      simp [free, pushesOf, LinkedAct.acceptedFrom?, Push.unswapped]
    · simp [here, Ne.symm here, pushesOf, LinkedAct.acceptedFrom?]
  returned := ordered.returned

theorem continues (ordered : Ordered system nodes acts events) {producer : Fin producers}
    {push : Option (α × Push α)} (queue : LinkedQueue α)
    (same : Push.unswapped push = Push.unswapped (system.pushes producer))
    {extra : List (LinkedAct producers α)} (silent : ∀ other, pushesOf other extra = []) :
    Ordered ({ system with queue := queue }.setPush producer push) nodes (acts ++ extra)
      events where
  values := ordered.values
  pushed := by
    intro other
    rw [pushesOf_append, silent, List.append_nil, ordered.pushed, setPush_pushes]
    by_cases here : other = producer
    · subst here
      rw [if_pos rfl, same]
      rfl
    · rw [if_neg here]
      rfl
  returned := ordered.returned

theorem swaps (ordered : Ordered system nodes acts events) {producer : Fin producers} {value : α}
    {address : Address} (within : system.pushes producer = some (value, .swap address)) :
    Ordered (system.entered producer value address) (nodes ++ [(address, value)])
      (acts ++ [.queued address value]) events where
  values := by
    have values := ordered.values
    simp only [List.map_append, List.map_cons, List.map_nil, entered, setPush_swapped, values]
    simp [taken]
  pushed := by
    intro other
    have pushed := ordered.pushed other
    rw [pushesOf_append, pushed]
    by_cases here : other = producer
    · subst here
      simp [within, entered, setPush_pushes, pushesOf, LinkedAct.acceptedFrom?, valuesOf,
        Push.unswapped]
    · simp [here, Ne.symm here, entered, setPush_pushes, pushesOf, LinkedAct.acceptedFrom?,
        valuesOf]
  returned := ordered.returned

theorem turns (ordered : Ordered system nodes acts events) {move : LinkedMove producers α}
    {call : Option (ConsumerCall α)} {event : Option (LinkedEvent α)}
    (turn : ConsumerTurn system move call event) :
    Ordered (system.turned call) nodes acts (events ++ event.toList) where
  values := by
    have values := ordered.values
    rw [taken_eq_nil turn.retiring_eq.1] at values
    rw [taken_eq_nil turn.retiring_eq.2]
    exact values
  pushed := ordered.pushed
  returned := by
    rw [poppedValues_append, turn.poppedValues_eq, List.append_nil]
    exact ordered.returned

theorem advances (ordered : Ordered system nodes acts events) (chained : Chained system nodes)
    {spins : Nat} {next : Address}
    (within : system.consumer = some (.pop ⟨spins, .advance next⟩)) {node : Node α}
    (found : system.queue.heap.get? next = some node) (address : Address) :
    Ordered (system.advanced spins next node) nodes.tail (acts ++ [.left address]) events := by
  obtain ⟨value, rest, rfl, -⟩ := chained.linked_of_advance within
  obtain ⟨link, loaded⟩ := chained.loaded (next, value) List.mem_cons_self
  cases found.symm.trans loaded
  have untaken : system.taken = [] := by simp [taken, within]
  refine ⟨?values, ?pushed, ordered.returned⟩
  case values =>
    have values := ordered.values
    rw [untaken, List.append_nil, List.map_cons] at values
    simpa [advanced, taken] using values
  case pushed =>
    intro producer
    rw [pushesOf_append, ordered.pushed]
    simp [pushesOf, LinkedAct.acceptedFrom?, advanced]

theorem frees (ordered : Ordered system nodes acts events) {spins : Nat} {old : Address}
    {value : Option α} (within : system.consumer = some (.pop ⟨spins, .free old value⟩)) :
    Ordered (system.relieved old value) nodes (acts ++ [.freed old])
      (events ++ [.popped ⟨value, spins⟩]) where
  values := by
    have values := ordered.values
    simp only [taken, within] at values
    simpa [relieved, taken] using values
  pushed := by
    intro producer
    rw [pushesOf_append, ordered.pushed]
    simp [pushesOf, LinkedAct.acceptedFrom?, relieved]
  returned := by
    rw [poppedValues_append, ← ordered.returned]
    cases value <;> rfl

theorem effect (ordered : Ordered system nodes acts events) (chained : Chained system nodes)
    {move : LinkedMove producers α} {after : LinkedSystem producers α}
    {event : Option (LinkedEvent α)} {act : Option (LinkedAct producers α)}
    (effect : LinkedEffect system move after event act) :
    Ordered after (LinkedAct.applyTo act nodes) (acts ++ act.toList) (events ++ event.toList) := by
  have same : events ++ (none : Option (LinkedEvent α)).toList = events := List.append_nil events
  cases effect with
  | stay =>
      rw [same]
      simpa [LinkedAct.applyTo] using ordered
  | pushStarts producer value free =>
      rw [same]
      exact ordered.pushStarts free value
  | creates producer address value content within fresh =>
      rw [same]
      exact ordered.continues _ (by rw [within]; rfl) fun _ => rfl
  | swaps producer address value node within =>
      rw [same]
      exact ordered.swaps within
  | links producer address value before after node within found =>
      rw [same]
      exact ordered.continues _ (by rw [within]; rfl) fun _ => rfl
  | turns turn =>
      rw [Option.toList_none, List.append_nil]
      exact ordered.turns turn
  | advances spins next node within found =>
      rw [same]
      exact ordered.advances chained within found system.queue.stub
  | frees spins old value within live => exact ordered.frees within

end Ordered

def Queued (system : LinkedSystem producers α) (acts : List (LinkedAct producers α))
    (events : List (LinkedEvent α)) : Prop :=
  ∃ nodes, Chained system nodes ∧ Ordered system nodes acts events

theorem queued_run (moves : List (LinkedMove producers α))
    (fresh : (start : LinkedSystem producers α).AllocatesFreshly moves) :
    ∃ final events, start.run moves = .ok (final, events) ∧
      Queued final (start.acts moves) events := by
  refine run_invariant Queued ?_ [] [] ⟨[], .start, .start⟩ moves fresh
  rintro system acts events ⟨nodes, chained, ordered⟩ move fresh
  obtain ⟨after, event, act, effect, chainedAfter⟩ := chained.next move fresh
  exact ⟨after, event, act, effect, _, chainedAfter, ordered.effect chained effect⟩

/-! ## The consumer where no link is pending -/

def stepsLeft : Option (ConsumerCall α) → Nat
  | none => 0
  | some (.pop ⟨_, .free _ _⟩) | some (.isEmpty .peek) => 1
  | some (.pop ⟨_, .advance _⟩) | some (.isEmpty .look) => 2
  | some (.pop ⟨_, .lookAgain⟩) => 3
  | some (.pop ⟨_, .pause⟩) => 4
  | some (.pop ⟨_, .peek⟩) => 5
  | some (.pop ⟨_, .look⟩) => 6

theorem eq_none_of_stepsLeft {call : Option (ConsumerCall α)} (rested : stepsLeft call = 0) :
    call = none := by
  unfold stepsLeft at rested
  split at rested
  case h_1 => rfl
  all_goals cases rested

def AllLinked (system : LinkedSystem producers α) : Prop :=
  ∀ producer, system.pendingLink producer = none

theorem AllLinked.not_pending {system : LinkedSystem producers α} (linked : system.AllLinked)
    {producer : Fin producers} {value : α} {before after : Address} :
    system.pushes producer ≠ some (value, .link before after) := by
  intro within
  cases (linked producer).symm.trans (pendingLink_eq_some.mpr ⟨value, within⟩)

theorem AllLinked.of_pushes {system after : LinkedSystem producers α} (linked : system.AllLinked)
    (same : after.pushes = system.pushes) : after.AllLinked := by
  intro producer
  have missing := linked producer
  unfold pendingLink at missing ⊢
  rwa [same]

theorem Chained.stub_link {system : LinkedSystem producers α} {nodes : List (Address × α)}
    (chained : Chained system nodes) (linked : system.AllLinked) :
    system.queue.heap.get? system.queue.stub = some ⟨none, nodes.head?.map Prod.fst⟩ := by
  obtain ⟨link, spent⟩ := chained.spent
  cases nodes with
  | nil =>
      have ends : system.queue.stub = system.queue.head := Option.some.inj chained.ends
      obtain ⟨value, unlinked⟩ := chained.last
      rw [← ends] at unlinked
      cases spent.symm.trans unlinked
      exact spent
  | cons node rest =>
      rcases (List.isChain_cons_cons.mp chained.follows).1 with
        ⟨value, found⟩ | ⟨value, producer, pushed, -, pending⟩
      · cases spent.symm.trans found
        exact spent
      · exact absurd pending linked.not_pending

theorem consume_keeps {system after : LinkedSystem producers α}
    {event : Option (LinkedEvent α)} {act : Option (LinkedAct producers α)}
    (effect : LinkedEffect system .consume after event act) :
    after.pushes = system.pushes ∧ after.swapped = system.swapped := by
  cases effect <;> exact ⟨rfl, rfl⟩

theorem Chained.stepsLeft_lt {system after : LinkedSystem producers α}
    {nodes : List (Address × α)} (chained : Chained system nodes) (linked : system.AllLinked)
    (busy : system.consumer ≠ none) {event : Option (LinkedEvent α)}
    {act : Option (LinkedAct producers α)}
    (effect : LinkedEffect system .consume after event act) :
    stepsLeft after.consumer < stepsLeft system.consumer := by
  cases effect with
  | stay _ idle => exact absurd idle busy
  | advances spins next node within | frees spins old value within =>
      simp [within, advanced, relieved, stepsLeft]
  | turns turn =>
      cases turn with
      | popMissesAgain spins value within unlinked =>
          -- Only a pop that waits for a link looks again, and here none is to come.
          have ahead : nodes ≠ [] := chained.calling _ within
          obtain ⟨node, rest, rfl⟩ := List.exists_cons_of_ne_nil ahead
          cases unlinked.symm.trans (chained.stub_link linked)
      | popFinds spins value next within | popMisses spins value within | popEnds spins within
      | popWaits spins within | popPauses spins within | popFindsLate spins value next within
      | checkFinds value next within | checkMisses value within | checkEnds within =>
          simp [within, turned, stepsLeft]

theorem run_idle {system : LinkedSystem producers α} (idle : system.consumer = none)
    (count : Nat) : system.run (List.replicate count .consume) = .ok (system, []) := by
  induction count with
  | zero => rfl
  | succ count ih =>
      rw [List.replicate_succ]
      exact run_cons (LinkedEffect.stay .consume idle).next_eq.1 ih

/-- Where no link is pending, the call of the consumer comes to its end. -/
theorem comes_to_rest {system : LinkedSystem producers α} {acts : List (LinkedAct producers α)}
    {events : List (LinkedEvent α)} (queued : Queued system acts events)
    (linked : system.AllLinked) (steps : Nat) (few : stepsLeft system.consumer ≤ steps) :
    ∃ idle later record, system.run (List.replicate steps .consume) = .ok (idle, later) ∧
      idle.consumer = none ∧ idle.AllLinked ∧ idle.swapped = system.swapped ∧
        Queued idle record (events ++ later) := by
  -- A consumer within a call comes nearer to its end with each step; one that is idle stays.
  induction steps generalizing system acts events with
  | zero =>
      have idle : system.consumer = none := eq_none_of_stepsLeft (Nat.le_zero.mp few)
      exact ⟨system, [], acts, rfl, idle, linked, rfl, by rwa [List.append_nil]⟩
  | succ steps ih =>
      by_cases idle : system.consumer = none
      · exact ⟨system, [], acts, run_idle idle _, idle, linked, rfl, by rwa [List.append_nil]⟩
      · obtain ⟨nodes, chained, ordered⟩ := queued
        obtain ⟨after, event, act, effect, chainedAfter⟩ := chained.next .consume trivial
        have nearer := chained.stepsLeft_lt linked idle effect
        obtain ⟨pushes, swapped⟩ := consume_keeps effect
        obtain ⟨final, later, record, rest, rested, still, kept, reached⟩ :=
          ih ⟨_, chainedAfter, ordered.effect chained effect⟩ (linked.of_pushes pushes)
            (by omega)
        refine ⟨final, event.toList ++ later, record, ?_, rested, still, kept.trans swapped, ?_⟩
        · rw [List.replicate_succ]
          exact run_cons effect.next_eq.1 rest
        · rwa [← List.append_assoc]

def popMoves : List (LinkedMove producers α) := [.pop, .consume, .consume, .consume]

def popsMoves (count : Nat) : List (LinkedMove producers α) :=
  (List.replicate count popMoves).flatten

theorem popsMoves_succ (count : Nat) :
    (popsMoves (count + 1) : List (LinkedMove producers α)) = popMoves ++ popsMoves count := rfl

theorem Chained.pops_first {system : LinkedSystem producers α} {address : Address} {value : α}
    {rest : List (Address × α)} (chained : Chained system ((address, value) :: rest))
    (linked : system.AllLinked) (idle : system.consumer = none) :
    ∃ after, system.run popMoves = .ok (after, [.popped ⟨some value, 0⟩]) ∧
      Chained after rest ∧ after.AllLinked ∧ after.consumer = none := by
  have link := chained.stub_link linked
  obtain ⟨next, loaded⟩ := chained.loaded (address, value) List.mem_cons_self
  have starts := LinkedEffect.turns (.popStarts idle)
  -- The four steps of the pop, each as an effect on the state that the one before leaves.
  have looks : LinkedEffect (system.turned (some (.pop .start))) .consume
      (system.turned (some (.pop ⟨0, .advance address⟩))) none none :=
    .turns (.popFinds 0 none address rfl link)
  have moves : LinkedEffect (system.turned (some (.pop ⟨0, .advance address⟩))) .consume _ none
      _ := .advances 0 address _ rfl loaded
  have moved := ((chained.effect starts).effect looks).effect moves
  have frees := LinkedEffect.frees 0 system.queue.stub (some value) rfl
    (moved.retired system.queue.stub rfl).1
  refine ⟨_, ?_, moved.effect frees, linked.of_pushes rfl, rfl⟩
  exact run_cons starts.next_eq.1 (run_cons looks.next_eq.1 (run_cons moves.next_eq.1
    (run_cons frees.next_eq.1 rfl)))

theorem Chained.pops_none {system : LinkedSystem producers α} (chained : Chained system [])
    (linked : system.AllLinked) (idle : system.consumer = none) :
    ∃ after, system.run popMoves = .ok (after, [.popped ⟨none, 0⟩]) ∧
      Chained after [] ∧ after.AllLinked ∧ after.consumer = none := by
  have link := chained.stub_link linked
  have empty : system.queue.stub = system.queue.head := Option.some.inj chained.ends
  have starts := LinkedEffect.turns (.popStarts idle)
  have looks : LinkedEffect (system.turned (some (.pop .start))) .consume
      (system.turned (some (.pop ⟨0, .peek⟩))) none none :=
    .turns (.popMisses 0 none rfl link)
  have ends : LinkedEffect (system.turned (some (.pop ⟨0, .peek⟩))) .consume
      (system.turned none) _ none := .turns (.popEnds 0 rfl empty.symm)
  have stays : LinkedEffect (system.turned none) .consume _ none none := .stay .consume rfl
  refine ⟨_, ?_, ((chained.effect starts).effect looks).effect ends, linked.of_pushes rfl, rfl⟩
  exact run_cons starts.next_eq.1 (run_cons looks.next_eq.1 (run_cons ends.next_eq.1
    (run_cons stays.next_eq.1 rfl)))

/-- Pops that nobody comes between return what the chain carries, and then nothing. -/
theorem Chained.drains {system : LinkedSystem producers α} {nodes : List (Address × α)}
    (chained : Chained system nodes) (linked : system.AllLinked)
    (idle : system.consumer = none) (extra : Nat) :
    ∃ drained, system.run (popsMoves (nodes.length + extra)) = .ok (drained,
      nodes.map (fun node => .popped ⟨some node.2, 0⟩) ++
        List.replicate extra (.popped ⟨none, 0⟩)) := by
  induction nodes generalizing system with
  | cons node rest ih =>
      obtain ⟨after, first, chainedAfter, linkedAfter, idleAfter⟩ :=
        chained.pops_first linked idle
      obtain ⟨drained, others⟩ := ih chainedAfter linkedAfter idleAfter
      have whole := run_append first others
      rw [← popsMoves_succ, Nat.add_right_comm] at whole
      exact ⟨drained, whole⟩
  | nil =>
      induction extra generalizing system with
      | zero => exact ⟨system, rfl⟩
      | succ extra ih =>
          obtain ⟨after, first, chainedAfter, linkedAfter, idleAfter⟩ :=
            chained.pops_none linked idle
          obtain ⟨drained, others⟩ := ih chainedAfter linkedAfter idleAfter
          have whole := run_append first others
          exact ⟨drained, whole⟩

theorem Ordered.popped_isPrefix {system : LinkedSystem producers α} {nodes : List (Address × α)}
    {acts : List (LinkedAct producers α)} {events : List (LinkedEvent α)}
    (ordered : Ordered system nodes acts events) :
    system.popped <+: system.swapped.map Prod.snd := by
  rw [ordered.values, List.append_assoc]
  exact List.prefix_append _ _

/-- A consumer that has taken no value has all those before it that the chain carries. -/
theorem Ordered.remaining_of_untaken {system : LinkedSystem producers α}
    {nodes : List (Address × α)} {acts : List (LinkedAct producers α)}
    {events : List (LinkedEvent α)} (ordered : Ordered system nodes acts events)
    (untaken : system.taken = []) : system.remaining = nodes.map Prod.snd := by
  rw [remaining, ordered.values, untaken, List.append_nil, List.drop_left]

theorem Ordered.remaining_eq {system : LinkedSystem producers α} {nodes : List (Address × α)}
    {acts : List (LinkedAct producers α)} {events : List (LinkedEvent α)}
    (ordered : Ordered system nodes acts events) (idle : system.consumer = none) :
    system.remaining = nodes.map Prod.snd :=
  ordered.remaining_of_untaken (by simp [taken, idle])

theorem Ordered.valuesOf_isPrefix {system : LinkedSystem producers α} {nodes : List (Address × α)}
    {acts : List (LinkedAct producers α)} {events : List (LinkedEvent α)}
    (ordered : Ordered system nodes acts events) (producer : Fin producers) :
    valuesOf producer system.swapped <+: pushesOf producer acts := by
  rw [ordered.pushed]
  exact List.prefix_append _ _

end LinkedSystem

open LinkedSystem in
/-- Whatever the interleaving, the values that pops return are a prefix of the values
pushed in the order of the swaps, and those of one producer come in the order of
its pushes.  Where no link is pending, the consumer ends its call within six
steps, and further pops return exactly the values that remain and then nothing. -/
theorem pops_follow_swaps (moves : List (LinkedMove producers α))
    (fresh : (start : LinkedSystem producers α).AllocatesFreshly moves) :
    ∃ final events, start.run moves = .ok (final, events) ∧
      poppedValues events <+: final.swapped.map Prod.snd ∧
      (∀ producer,
        valuesOf producer (final.swapped.take (poppedValues events).length) <+:
            pushesOf producer (start.acts moves) ∧
          valuesOf producer final.swapped <+: pushesOf producer (start.acts moves) ∧
          (final.pushes producer = none →
            valuesOf producer final.swapped = pushesOf producer (start.acts moves))) ∧
      ((∀ producer, final.pendingLink producer = none) →
        ∃ idle later, final.run (List.replicate 6 .consume) = .ok (idle, later) ∧
          idle.consumer = none ∧ (final.consumer = none → idle = final) ∧
          final.swapped.map Prod.snd = poppedValues (events ++ later) ++ idle.remaining ∧
          ∀ extra, ∃ drained,
            idle.run (popsMoves (idle.remaining.length + extra)) = .ok (drained,
              idle.remaining.map (fun value => .popped ⟨some value, 0⟩) ++
                List.replicate extra (.popped ⟨none, 0⟩))) := by
  obtain ⟨final, events, ran, nodes, chained, ordered⟩ := queued_run moves fresh
  refine ⟨final, events, ran, ?prefixed, ?each, ?drains⟩
  case prefixed =>
    rw [← ordered.returned]
    exact ordered.popped_isPrefix
  case each =>
    intro producer
    have swapped := ordered.valuesOf_isPrefix producer
    refine ⟨(valuesOf_take_isPrefix producer _ _).trans swapped, swapped, fun free => ?_⟩
    rw [ordered.pushed, free]
    exact (List.append_nil _).symm
  case drains =>
    intro linked
    have few : stepsLeft final.consumer ≤ 6 := by
      unfold stepsLeft
      split <;> decide
    obtain ⟨idle, later, record, rested, free, still, swapped, left, chainedIdle, orderedIdle⟩ :=
      comes_to_rest ⟨nodes, chained, ordered⟩ linked 6 few
    have remaining := orderedIdle.remaining_eq free
    refine ⟨idle, later, rested, free, fun calm => ?_, ?_, fun extra => ?_⟩
    · cases (run_idle calm 6).symm.trans rested
      rfl
    · obtain ⟨rest, split⟩ := orderedIdle.popped_isPrefix
      rw [← swapped, ← orderedIdle.returned, LinkedSystem.remaining, ← split, List.drop_left]
    · have drains := chainedIdle.drains still free extra
      rw [remaining, List.length_map, List.map_map]
      exact drains

open LinkedSystem in
/-- In the sample run two values of four are popped, one of them across a link that
came late, and two pops return the others. -/
theorem pops_follow_swaps_sample :
    start.AllocatesFreshly sampleMoves ∧
      start.run sampleMoves = .ok (sampleEnd,
        [.popped ⟨some 10, 0⟩, .popped ⟨some 20, 1⟩, .checked false]) ∧
      sampleEnd.swapped = [(0, 10), (1, 20), (0, 11), (0, 12)] ∧
      (∀ producer, sampleEnd.pendingLink producer = none) ∧
      ∃ drained, sampleEnd.run (popsMoves 3) = .ok (drained,
        [.popped ⟨some 11, 0⟩, .popped ⟨some 12, 0⟩, .popped ⟨none, 0⟩]) := by
  have linked : ∀ producer, sampleEnd.pendingLink producer = none := by decide +kernel
  obtain ⟨final, events, ran, -, -, drains⟩ := pops_follow_swaps sampleMoves sample_allocatesFreshly
  cases sample_run.symm.trans ran
  obtain ⟨idle, later, -, -, same, -, drained⟩ := drains linked
  cases same (by rfl)
  exact ⟨sample_allocatesFreshly, sample_run, by decide +kernel, linked, drained 1⟩

end RingPool

import Mathlib.Tactic.ByContra
import RingPool.Linked.Interleaving

/-!
# What one move on a linked queue can do

A move touches at most one node: `touches` gives its address.  `act?` says what the
move means for the record of a run: a push accepted, a node made, queued, left
behind by the consumer or freed.  `LinkedEffect` lists every way in which a move
changes a system, with the guard under which it does so; the moves of the consumer
that change no node are one of them and have a list of their own, `ConsumerTurn`.

An effect determines what `next` and `act?` give (`LinkedEffect.next_eq`), and a
move whose node is live has one (`exists_effect`).  So an invariant that each
effect keeps holds after every run, together with the record of the run and what
the consumer observed (`run_invariant`).
-/

set_option autoImplicit false

namespace RingPool

variable {producers : Nat} {α : Type}

/-- What a move adds to the record of a run. -/
inductive LinkedAct (producers : Nat) (α : Type) where
  | accepted (producer : Fin producers) (value : α)
  | made (address : Address)
  | queued (address : Address) (value : α)
  | left (address : Address)
  | freed (address : Address)
  deriving DecidableEq, Repr

def LinkedQueue.Live (queue : LinkedQueue α) (address : Address) : Prop :=
  ∃ node, queue.heap.get? address = some node

def LinkedEvent.value? : LinkedEvent α → Option α
  | .popped result => result.value
  | .checked _ => none

def poppedValues (events : List (LinkedEvent α)) : List α :=
  events.filterMap LinkedEvent.value?

theorem poppedValues_append (first second : List (LinkedEvent α)) :
    poppedValues (first ++ second) = poppedValues first ++ poppedValues second :=
  List.filterMap_append

namespace LinkedSystem

/-- The addresses through which a move loads or stores. -/
def touches (system : LinkedSystem producers α) : LinkedMove producers α → List Address
  | .advance producer _ =>
      match system.pushes producer with
      | some (_, .link before _) => [before]
      | _ => []
  | .consume =>
      match system.consumer with
      | some (.pop ⟨_, .look⟩) | some (.pop ⟨_, .lookAgain⟩) => [system.queue.stub]
      | some (.pop ⟨_, .advance next⟩) => [next]
      | some (.pop ⟨_, .free old _⟩) => [old]
      | some (.isEmpty .look) => [system.queue.stub]
      | _ => []
  | .push _ _ | .pop | .isEmpty => []

def OutOfPlace (system : LinkedSystem producers α) : LinkedMove producers α → Prop
  | .push producer _ => system.pushes producer ≠ none
  | .advance producer _ => system.pushes producer = none
  | .pop | .isEmpty => system.consumer ≠ none
  | .consume => system.consumer = none

def act? (system : LinkedSystem producers α) :
    LinkedMove producers α → Option (LinkedAct producers α)
  | .push producer value =>
      match system.pushes producer with
      | some _ => none
      | none => some (.accepted producer value)
  | .advance producer address =>
      match system.pushes producer with
      | some (_, .create _) => some (.made address)
      | some (value, .swap node) => some (.queued node value)
      | _ => none
  | .consume =>
      match system.consumer with
      | some (.pop ⟨_, .advance _⟩) => some (.left system.queue.stub)
      | some (.pop ⟨_, .free old _⟩) => some (.freed old)
      | _ => none
  | .pop | .isEmpty => none

def acts (system : LinkedSystem producers α) :
    List (LinkedMove producers α) → List (LinkedAct producers α)
  | [] => []
  | move :: moves =>
      match system.next move with
      | .error _ => []
      | .ok (after, _) => (system.act? move).toList ++ after.acts moves

section States
variable (system : LinkedSystem producers α)

def created (producer : Fin producers) (value content : α) (address : Address) :
    LinkedSystem producers α :=
  { system with
    queue := { system.queue with
      heap := system.queue.heap.put address ⟨some content, none⟩ } }.setPush producer
    (some (value, .swap address))

def entered (producer : Fin producers) (value : α) (address : Address) :
    LinkedSystem producers α :=
  { system with
    queue := { system.queue with head := address }
    swapped := system.swapped ++ [(producer, value)] }.setPush producer
    (some (value, .link system.queue.head address))

def joined (producer : Fin producers) (before after : Address) (node : Node α) :
    LinkedSystem producers α :=
  { system with
    queue := { system.queue with
      heap := system.queue.heap.put before { node with next := some after } } }.setPush producer
    none

def turned (call : Option (ConsumerCall α)) : LinkedSystem producers α :=
  { system with consumer := call }

def advanced (spins : Nat) (next : Address) (node : Node α) : LinkedSystem producers α :=
  { system with
    queue := ⟨system.queue.heap.put next { node with value := none }, system.queue.head, next⟩
    consumer := some (.pop ⟨spins, .free system.queue.stub node.value⟩) }

def relieved (old : Address) (value : Option α) : LinkedSystem producers α :=
  { system with
    queue := { system.queue with heap := system.queue.heap.erase old }
    consumer := none
    popped := system.popped ++ value.toList }

end States

@[simp] theorem setPush_queue (system : LinkedSystem producers α) (producer : Fin producers)
    (push : Option (α × Push α)) : (system.setPush producer push).queue = system.queue := rfl

@[simp] theorem setPush_consumer (system : LinkedSystem producers α) (producer : Fin producers)
    (push : Option (α × Push α)) :
    (system.setPush producer push).consumer = system.consumer := rfl

@[simp] theorem setPush_swapped (system : LinkedSystem producers α) (producer : Fin producers)
    (push : Option (α × Push α)) :
    (system.setPush producer push).swapped = system.swapped := rfl

@[simp] theorem setPush_popped (system : LinkedSystem producers α) (producer : Fin producers)
    (push : Option (α × Push α)) : (system.setPush producer push).popped = system.popped := rfl

theorem setPush_pushes (system : LinkedSystem producers α) (producer other : Fin producers)
    (push : Option (α × Push α)) :
    (system.setPush producer push).pushes other =
      if other = producer then push else system.pushes other := rfl

theorem setPush_keeps {system : LinkedSystem producers α} {producer holder : Fin producers}
    {change : Option (α × Push α)} {push : α × Push α}
    (other : system.pushes producer ≠ some push) (within : system.pushes holder = some push) :
    (system.setPush producer change).pushes holder = some push := by
  rw [setPush_pushes, if_neg]
  · exact within
  · rintro rfl
    exact other within

theorem of_setPush {system : LinkedSystem producers α} {producer holder : Fin producers}
    {change : Option (α × Push α)} {push : α × Push α} (other : change ≠ some push)
    (within : (system.setPush producer change).pushes holder = some push) :
    system.pushes holder = some push := by
  rw [setPush_pushes] at within
  split at within
  case isTrue => exact absurd within other
  case isFalse => exact within

section States
variable (system : LinkedSystem producers α)

theorem created_pushes (producer other : Fin producers) (value content : α)
    (address : Address) :
    (system.created producer value content address).pushes other =
      if other = producer then some (value, .swap address) else system.pushes other := rfl

theorem entered_pushes (producer other : Fin producers) (value : α) (address : Address) :
    (system.entered producer value address).pushes other =
      if other = producer then some (value, .link system.queue.head address)
      else system.pushes other := rfl

theorem joined_pushes (producer other : Fin producers) (before after : Address)
    (node : Node α) :
    (system.joined producer before after node).pushes other =
      if other = producer then none else system.pushes other := rfl

theorem created_get? (producer : Fin producers) (value content : α) (address other : Address) :
    (system.created producer value content address).queue.heap.get? other =
      if other = address then some ⟨some content, none⟩ else system.queue.heap.get? other :=
  NodeHeap.get?_put _ _ _ _

theorem joined_get? (producer : Fin producers) (before after other : Address) (node : Node α) :
    (system.joined producer before after node).queue.heap.get? other =
      if other = before then some { node with next := some after }
      else system.queue.heap.get? other :=
  NodeHeap.get?_put _ _ _ _

theorem advanced_get? (spins : Nat) (next other : Address) (node : Node α) :
    (system.advanced spins next node).queue.heap.get? other =
      if other = next then some { node with value := none } else system.queue.heap.get? other :=
  NodeHeap.get?_put _ _ _ _

theorem relieved_get? (old other : Address) (value : Option α) :
    (system.relieved old value).queue.heap.get? other =
      if other = old then none else system.queue.heap.get? other :=
  NodeHeap.get?_erase _ _ _

end States

/-- The old stub that a pop is about to free. -/
def retiring (system : LinkedSystem producers α) : Option Address :=
  match system.consumer with
  | some (.pop ⟨_, .free old _⟩) => some old
  | _ => none

/-- The ways in which the consumer goes on without changing a node, with the call that
it is within afterwards and what it observes. -/
inductive ConsumerTurn (system : LinkedSystem producers α) :
    LinkedMove producers α → Option (ConsumerCall α) → Option (LinkedEvent α) → Prop where
  | popStarts (free : system.consumer = none) :
      ConsumerTurn system .pop (some (.pop .start)) none
  | checkStarts (free : system.consumer = none) :
      ConsumerTurn system .isEmpty (some (.isEmpty .look)) none
  | popFinds (spins : Nat) (value : Option α) (next : Address)
      (within : system.consumer = some (.pop ⟨spins, .look⟩))
      (linked : system.queue.heap.get? system.queue.stub = some ⟨value, some next⟩) :
      ConsumerTurn system .consume (some (.pop ⟨spins, .advance next⟩)) none
  | popMisses (spins : Nat) (value : Option α)
      (within : system.consumer = some (.pop ⟨spins, .look⟩))
      (unlinked : system.queue.heap.get? system.queue.stub = some ⟨value, none⟩) :
      ConsumerTurn system .consume (some (.pop ⟨spins, .peek⟩)) none
  | popEnds (spins : Nat) (within : system.consumer = some (.pop ⟨spins, .peek⟩))
      (empty : system.queue.head = system.queue.stub) :
      ConsumerTurn system .consume none (some (.popped ⟨none, spins⟩))
  | popWaits (spins : Nat) (within : system.consumer = some (.pop ⟨spins, .peek⟩))
      (ahead : system.queue.head ≠ system.queue.stub) :
      ConsumerTurn system .consume (some (.pop ⟨spins, .pause⟩)) none
  | popPauses (spins : Nat) (within : system.consumer = some (.pop ⟨spins, .pause⟩)) :
      ConsumerTurn system .consume (some (.pop ⟨spins + 1, .lookAgain⟩)) none
  | popFindsLate (spins : Nat) (value : Option α) (next : Address)
      (within : system.consumer = some (.pop ⟨spins, .lookAgain⟩))
      (linked : system.queue.heap.get? system.queue.stub = some ⟨value, some next⟩) :
      ConsumerTurn system .consume (some (.pop ⟨spins, .advance next⟩)) none
  | popMissesAgain (spins : Nat) (value : Option α)
      (within : system.consumer = some (.pop ⟨spins, .lookAgain⟩))
      (unlinked : system.queue.heap.get? system.queue.stub = some ⟨value, none⟩) :
      ConsumerTurn system .consume (some (.pop ⟨spins, .pause⟩)) none
  | checkFinds (value : Option α) (next : Address)
      (within : system.consumer = some (.isEmpty .look))
      (linked : system.queue.heap.get? system.queue.stub = some ⟨value, some next⟩) :
      ConsumerTurn system .consume none (some (.checked false))
  | checkMisses (value : Option α) (within : system.consumer = some (.isEmpty .look))
      (unlinked : system.queue.heap.get? system.queue.stub = some ⟨value, none⟩) :
      ConsumerTurn system .consume (some (.isEmpty .peek)) none
  | checkEnds (within : system.consumer = some (.isEmpty .peek)) :
      ConsumerTurn system .consume none
        (some (.checked (system.queue.head == system.queue.stub)))

/-- The ways in which a move changes a system, with what the consumer observes and
what comes on the record. -/
inductive LinkedEffect (system : LinkedSystem producers α) :
    LinkedMove producers α → LinkedSystem producers α → Option (LinkedEvent α) →
      Option (LinkedAct producers α) → Prop where
  | stay (move : LinkedMove producers α) (idle : system.OutOfPlace move) :
      LinkedEffect system move system none none
  | pushStarts (producer : Fin producers) (value : α)
      (free : system.pushes producer = none) :
      LinkedEffect system (.push producer value)
        (system.setPush producer (some (value, .create value))) none
        (some (.accepted producer value))
  | creates (producer : Fin producers) (address : Address) (value content : α)
      (within : system.pushes producer = some (value, .create content))
      (fresh : system.queue.heap.get? address = none) :
      LinkedEffect system (.advance producer address)
        (system.created producer value content address) none (some (.made address))
  | swaps (producer : Fin producers) (address : Address) (value : α) (node : Address)
      (within : system.pushes producer = some (value, .swap node)) :
      LinkedEffect system (.advance producer address) (system.entered producer value node) none
        (some (.queued node value))
  | links (producer : Fin producers) (address : Address) (value : α) (before after : Address)
      (node : Node α) (within : system.pushes producer = some (value, .link before after))
      (found : system.queue.heap.get? before = some node) :
      LinkedEffect system (.advance producer address) (system.joined producer before after node)
        none none
  | turns {move : LinkedMove producers α} {call : Option (ConsumerCall α)}
      {event : Option (LinkedEvent α)} (turn : ConsumerTurn system move call event) :
      LinkedEffect system move (system.turned call) event none
  | advances (spins : Nat) (next : Address) (node : Node α)
      (within : system.consumer = some (.pop ⟨spins, .advance next⟩))
      (found : system.queue.heap.get? next = some node) :
      LinkedEffect system .consume (system.advanced spins next node) none
        (some (.left system.queue.stub))
  | frees (spins : Nat) (old : Address) (value : Option α)
      (within : system.consumer = some (.pop ⟨spins, .free old value⟩))
      (live : system.queue.Live old) :
      LinkedEffect system .consume (system.relieved old value) (some (.popped ⟨value, spins⟩))
        (some (.freed old))

theorem ConsumerTurn.retiring_eq {system : LinkedSystem producers α}
    {move : LinkedMove producers α} {call : Option (ConsumerCall α)}
    {event : Option (LinkedEvent α)} (turn : ConsumerTurn system move call event) :
    system.retiring = none ∧ (system.turned call).retiring = none := by
  cases turn with
  | popStarts free | checkStarts free => exact ⟨by simp [retiring, free], rfl⟩
  | popFinds spins value next within | popMisses spins value within | popEnds spins within
  | popWaits spins within | popPauses spins within | popFindsLate spins value next within
  | popMissesAgain spins value within | checkFinds value next within
  | checkMisses value within | checkEnds within =>
      exact ⟨by simp [retiring, within], rfl⟩

theorem ConsumerTurn.poppedValues_eq {system : LinkedSystem producers α}
    {move : LinkedMove producers α} {call : Option (ConsumerCall α)}
    {event : Option (LinkedEvent α)} (turn : ConsumerTurn system move call event) :
    poppedValues event.toList = [] := by
  cases turn <;> rfl

theorem ConsumerTurn.next_eq {system : LinkedSystem producers α}
    {move : LinkedMove producers α} {call : Option (ConsumerCall α)}
    {event : Option (LinkedEvent α)} (turn : ConsumerTurn system move call event) :
    system.next move = .ok (system.turned call, event) ∧ system.act? move = none := by
  cases turn with
  | popStarts free | checkStarts free => simp [next, act?, free, turned]
  | popFinds spins value following within linked
  | popFindsLate spins value following within linked =>
      simp only [next, act?, within, Pop.step, LinkedQueue.load, linked, and_true]
      rfl
  | popMisses spins value within unlinked | popMissesAgain spins value within unlinked =>
      simp only [next, act?, within, Pop.step, LinkedQueue.load, unlinked, and_true]
      rfl
  | popEnds spins within empty =>
      simp [next, act?, within, Pop.step, empty, turned, bind, Except.bind, pure, Except.pure]
  | popWaits spins within ahead =>
      simp only [next, act?, within, Pop.step, if_neg ahead, and_true]
      rfl
  | popPauses spins within =>
      simp only [next, act?, within, Pop.step, and_true]
      rfl
  | checkFinds value following within linked =>
      simp only [next, act?, within, EmptyCheck.step, LinkedQueue.load, linked, and_true]
      rfl
  | checkMisses value within unlinked =>
      simp only [next, act?, within, EmptyCheck.step, LinkedQueue.load, unlinked, and_true]
      rfl
  | checkEnds within =>
      simp only [next, act?, within, EmptyCheck.step, and_true]
      rfl

/-- What an effect says of a move is what `next` and `act?` give for it. -/
theorem LinkedEffect.next_eq {system after : LinkedSystem producers α}
    {move : LinkedMove producers α} {event : Option (LinkedEvent α)}
    {act : Option (LinkedAct producers α)} (effect : LinkedEffect system move after event act) :
    system.next move = .ok (after, event) ∧ system.act? move = act := by
  cases effect with
  | stay _ idle =>
      cases move with
      | push producer value =>
          obtain ⟨held, within⟩ := Option.ne_none_iff_exists'.mp idle
          simp [next, act?, within]
      | advance producer address =>
          have within : system.pushes producer = none := idle
          simp [next, act?, within]
      | pop | isEmpty =>
          obtain ⟨call, within⟩ := Option.ne_none_iff_exists'.mp idle
          simp [next, act?, within]
      | consume =>
          have within : system.consumer = none := idle
          simp [next, act?, within]
  | pushStarts producer value free => simp [next, act?, free]
  | creates producer address value content within fresh =>
      simp only [next, act?, within, Push.step, LinkedQueue.create, fresh, and_true]
      rfl
  | swaps producer address value node within =>
      simp only [next, act?, within, Push.step, and_true]
      rfl
  | links producer address value before after node within found =>
      simp only [next, act?, within, Push.step, LinkedQueue.link, LinkedQueue.load, found,
        and_true]
      rfl
  | turns turn => exact turn.next_eq
  | advances spins following node within found =>
      simp only [next, act?, within, Pop.step, LinkedQueue.advance, LinkedQueue.load, found,
        and_true]
      rfl
  | frees spins old value within live =>
      obtain ⟨node, found⟩ := live
      simp only [next, act?, within, Pop.step, LinkedQueue.free, LinkedQueue.load, found,
        and_true]
      rfl

theorem pop_effect (system : LinkedSystem producers α) (pop : Pop α)
    (within : system.consumer = some (.pop pop))
    (live : ∀ touched ∈ system.touches .consume, system.queue.Live touched) :
    ∃ after event act, LinkedEffect system .consume after event act := by
  obtain ⟨spins, phase⟩ := pop
  cases phase with
  | look =>
      obtain ⟨⟨value, link⟩, found⟩ := live system.queue.stub (by simp [touches, within])
      cases link with
      | none => exact ⟨_, _, _, .turns (.popMisses spins value within found)⟩
      | some next => exact ⟨_, _, _, .turns (.popFinds spins value next within found)⟩
  | peek =>
      by_cases empty : system.queue.head = system.queue.stub
      · exact ⟨_, _, _, .turns (.popEnds spins within empty)⟩
      · exact ⟨_, _, _, .turns (.popWaits spins within empty)⟩
  | pause => exact ⟨_, _, _, .turns (.popPauses spins within)⟩
  | lookAgain =>
      obtain ⟨⟨value, link⟩, found⟩ := live system.queue.stub (by simp [touches, within])
      cases link with
      | none => exact ⟨_, _, _, .turns (.popMissesAgain spins value within found)⟩
      | some next => exact ⟨_, _, _, .turns (.popFindsLate spins value next within found)⟩
  | advance next =>
      obtain ⟨node, found⟩ := live next (by simp [touches, within])
      exact ⟨_, _, _, .advances spins next node within found⟩
  | free old value =>
      have found := live old (by simp [touches, within])
      exact ⟨_, _, _, .frees spins old value within found⟩

/-- A move that touches live nodes only, and that creates a node at a free address only,
has one of the effects. -/
theorem exists_effect (system : LinkedSystem producers α) (move : LinkedMove producers α)
    (live : ∀ address ∈ system.touches move, system.queue.Live address)
    (fresh : system.AllocatesFresh move) :
    ∃ after event act, LinkedEffect system move after event act := by
  cases move with
  | push producer value =>
      by_cases free : system.pushes producer = none
      · exact ⟨_, _, _, .pushStarts producer value free⟩
      · exact ⟨_, _, _, .stay _ free⟩
  | advance producer address =>
      cases within : system.pushes producer with
      | none => exact ⟨_, _, _, .stay _ within⟩
      | some held =>
          obtain ⟨value, push⟩ := held
          cases push with
          | create content =>
              have unused := fresh value content within
              exact ⟨_, _, _, .creates producer address value content within unused⟩
          | swap node => exact ⟨_, _, _, .swaps producer address value node within⟩
          | link before after =>
              obtain ⟨node, found⟩ := live before (by simp [touches, within])
              exact ⟨_, _, _, .links producer address value before after node within found⟩
  | pop =>
      by_cases free : system.consumer = none
      · exact ⟨_, _, _, .turns (.popStarts free)⟩
      · exact ⟨_, _, _, .stay _ free⟩
  | isEmpty =>
      by_cases free : system.consumer = none
      · exact ⟨_, _, _, .turns (.checkStarts free)⟩
      · exact ⟨_, _, _, .stay _ free⟩
  | consume =>
      cases within : system.consumer with
      | none => exact ⟨_, _, _, .stay _ within⟩
      | some call =>
          cases call with
          | pop pop => exact system.pop_effect pop within live
          | isEmpty check =>
              cases check with
              | peek => exact ⟨_, _, _, .turns (.checkEnds within)⟩
              | look =>
                  obtain ⟨⟨value, link⟩, found⟩ :=
                    live system.queue.stub (by simp [touches, within])
                  cases link with
                  | none => exact ⟨_, _, _, .turns (.checkMisses value within found)⟩
                  | some next => exact ⟨_, _, _, .turns (.checkFinds value next within found)⟩

theorem run_cons {system after : LinkedSystem producers α} {move : LinkedMove producers α}
    {event : Option (LinkedEvent α)} (step : system.next move = .ok (after, event))
    {final : LinkedSystem producers α} {moves : List (LinkedMove producers α)}
    {events : List (LinkedEvent α)} (rest : after.run moves = .ok (final, events)) :
    system.run (move :: moves) = .ok (final, event.toList ++ events) := by
  simp [run, step, rest, bind, Except.bind, pure, Except.pure]

theorem run_append {system middle final : LinkedSystem producers α}
    {first second : List (LinkedMove producers α)} {events later : List (LinkedEvent α)}
    (before : system.run first = .ok (middle, events))
    (after : middle.run second = .ok (final, later)) :
    system.run (first ++ second) = .ok (final, events ++ later) := by
  induction first generalizing system events with
  | nil =>
      cases before
      exact after
  | cons move first ih =>
      cases step : system.next move with
      | error dead => simp [run, step, bind, Except.bind] at before
      | ok stepped =>
          obtain ⟨next, event⟩ := stepped
          cases rest : next.run first with
          | error dead => simp [run, step, rest, bind, Except.bind] at before
          | ok reached =>
              obtain ⟨state, observed⟩ := reached
              have whole := run_cons step rest
              rw [before] at whole
              cases whole
              rw [List.cons_append, run_cons step (ih rest), List.append_assoc]

/-- What holds of a state together with the record and the events that led to it,
and is kept by each move, holds after a run. -/
theorem run_invariant
    (Holds : LinkedSystem producers α → List (LinkedAct producers α) →
      List (LinkedEvent α) → Prop)
    (kept : ∀ system acts events, Holds system acts events → ∀ move,
      system.AllocatesFresh move → ∃ after event act, LinkedEffect system move after event act ∧
        Holds after (acts ++ act.toList) (events ++ event.toList))
    (acts : List (LinkedAct producers α)) (events : List (LinkedEvent α))
    {system : LinkedSystem producers α} (holds : Holds system acts events)
    (moves : List (LinkedMove producers α)) (fresh : system.AllocatesFreshly moves) :
    ∃ final later, system.run moves = .ok (final, later) ∧
      Holds final (acts ++ system.acts moves) (events ++ later) := by
  induction moves generalizing system acts events with
  | nil => exact ⟨system, [], rfl, by simpa [LinkedSystem.acts] using holds⟩
  | cons move moves ih =>
      obtain ⟨freshMove, freshRest⟩ := fresh
      obtain ⟨after, event, act, effect, holdsAfter⟩ := kept system acts events holds move freshMove
      obtain ⟨step, recorded⟩ := effect.next_eq
      obtain ⟨final, later, rest, holdsFinal⟩ := ih _ _ holdsAfter (freshRest after event step)
      refine ⟨final, event.toList ++ later, run_cons step rest, ?_⟩
      simpa [LinkedSystem.acts, step, recorded] using holdsFinal

/-- A run with two producers: one value is popped across a link that comes late, and
a node is made where the first stub was. -/
def sampleMoves : List (LinkedMove 2 Nat) :=
  [.push 0 10, .advance 0 1, .advance 0 1, .advance 0 1,
    .push 1 20, .advance 1 2, .advance 1 2,
    .push 0 11, .advance 0 3, .advance 0 3, .advance 0 3,
    .pop, .consume, .consume, .consume,
    .pop, .consume, .consume, .consume, .advance 1 2, .consume, .consume, .consume,
    .push 0 12, .advance 0 0, .advance 0 0, .advance 0 0,
    .isEmpty, .consume]

def sampleEnd : LinkedSystem 2 Nat :=
  match start.run sampleMoves with
  | .ok (final, _) => final
  | .error _ => start

theorem sample_allocatesFreshly : start.AllocatesFreshly sampleMoves := by decide +kernel

theorem sample_run : start.run sampleMoves = .ok (sampleEnd,
    [.popped ⟨some 10, 0⟩, .popped ⟨some 20, 1⟩, .checked false]) := rfl

end LinkedSystem

end RingPool

import Mathlib.Data.List.Perm.Subperm
import Mathlib.Data.List.ReduceOption
import RingPool.Linked.Channel
import RingPool.Proofs.Linked.Order

/-!
# A channel from its first handle to its last

Between two calls nobody is at work on the queue of a channel, and all that matters
of it is the list of the values that it holds (`LinkedQueue.Holds`): the chain of
nodes after its stub, with all links made.  A push appends to that list, a pop takes
its first value, and what goes with the queue is the whole list.

Main statement: in every session what was popped, what was destroyed and what is still
held are together, in this order, what was pushed through the handles; and it is
destroyed in the step that gives up the last handle, or not at all.
-/

set_option autoImplicit false

namespace RingPool

open LinkedSystem

variable {producers : Nat} {α : Type}

def LinkedQueue.atRest (queue : LinkedQueue α) : LinkedSystem 1 α :=
  ⟨queue, fun _ => none, none, [], []⟩

/-- The values that a queue holds at rest, oldest first. -/
def LinkedQueue.Holds (queue : LinkedQueue α) (values : List α) : Prop :=
  ∃ nodes, Chained queue.atRest nodes ∧ nodes.map Prod.snd = values

/-! ## Calls that nobody interrupts -/

namespace LinkedSystem

/-- What a system has pushed and popped so far does not matter to its chain. -/
theorem Chained.atRest {system : LinkedSystem 1 α} {nodes : List (Address × α)}
    (chained : Chained system nodes) (noPush : ∀ producer, system.pushes producer = none)
    (idle : system.consumer = none) : Chained system.queue.atRest nodes := by
  obtain ⟨queue, pushes, consumer, swapped, popped⟩ := system
  have none : pushes = fun _ => none := funext noPush
  cases none
  cases idle
  exact { chained with }

/-- A pop that makes its steps one after the other is one that runs alone, and no push
goes on meanwhile. -/
theorem alone_of_consumes {system after : LinkedSystem producers α} {pop : Pop α}
    {result : Pop.Result α} (steps : Nat) (within : system.consumer = some (.pop pop))
    (ran : system.run (List.replicate steps .consume) = .ok (after, [.popped result])) :
    Pop.procedure.alone steps system.queue pop = (after.queue, .returned (.ok result)) ∧
      after.pushes = system.pushes := by
  induction steps generalizing system pop with
  | zero => cases ran
  | succ steps ih =>
      rw [List.replicate_succ, LinkedSystem.run, next, within] at ran
      rcases stepped : pop.step system.queue with dead | ⟨queue, later | returned⟩
      · simp [stepped, bind, Except.bind] at ran
      · have goes : Pop.procedure.step system.queue pop false = (queue, .running later) := by
          simp only [Pop.procedure, stepped, settleStep]
        rw [Procedure.alone, goes]
        simp only [stepped, bind, Except.bind, pure, Except.pure] at ran
        split at ran
        case h_1 => cases ran
        case h_2 final rest =>
          obtain ⟨reached, events⟩ := final
          cases ran
          exact ih rfl rest
      · have ends : Pop.procedure.step system.queue pop false =
            (queue, .returned (.ok returned)) := by
          simp only [Pop.procedure, stepped, settleStep]
        rw [Procedure.alone, ends]
        simp only [stepped, bind, Except.bind, pure, Except.pure] at ran
        rw [run_idle rfl] at ran
        cases ran
        exact ⟨rfl, rfl⟩

end LinkedSystem

namespace LinkedQueue

theorem atRest_allLinked (queue : LinkedQueue α) : queue.atRest.AllLinked := fun _ => rfl

/-- A pop is the run of its steps with nobody in between. -/
theorem pop_eq_of_run {queue : LinkedQueue α} {after : LinkedSystem 1 α} {result : Pop.Result α}
    (ran : queue.atRest.run popMoves = .ok (after, [.popped result])) :
    queue.pop = (after.queue, result.value) ∧ ∀ producer, after.pushes producer = none := by
  have starts : queue.atRest.next .pop = .ok (queue.atRest.turned (some (.pop .start)), none) :=
    rfl
  have rest : (queue.atRest.turned (some (.pop .start))).run (List.replicate 3 .consume) =
      .ok (after, [.popped result]) := by
    rw [popMoves, LinkedSystem.run, starts] at ran
    simp only [bind, Except.bind, pure, Except.pure] at ran
    split at ran
    case h_1 => cases ran
    case h_2 final rest =>
      obtain ⟨reached, events⟩ := final
      cases ran
      exact rest
  obtain ⟨alone, pushes⟩ := alone_of_consumes 3 rfl rest
  refine ⟨?_, congrFun pushes⟩
  rw [LinkedQueue.pop]
  simp only [show Pop.procedure.alone 3 queue .start = (after.queue, .returned (.ok result))
    from alone]

theorem push_eq {queue : LinkedQueue α} {content : Option α}
    (last : queue.heap.get? queue.head = some ⟨content, none⟩) (value : α) :
    queue.push value =
      ⟨(queue.heap.put queue.heap.fresh ⟨some value, none⟩).put queue.head
        ⟨content, some queue.heap.fresh⟩, queue.heap.fresh, queue.stub⟩ := by
  have different : queue.head ≠ queue.heap.fresh := by
    intro same
    rw [same, NodeHeap.get?_fresh] at last
    cases last
  have found : (queue.heap.put queue.heap.fresh ⟨some value, none⟩).get? queue.head =
      some ⟨content, none⟩ := by
    rw [NodeHeap.get?_put, if_neg different, last]
  simp [LinkedQueue.push, Procedure.alone, Push.procedure, Push.step, settleStep,
    LinkedQueue.create, LinkedQueue.link, LinkedQueue.load, found, bind, Except.bind, pure,
    Except.pure]

namespace Holds

variable {queue : LinkedQueue α} {values : List α}

theorem empty : (LinkedQueue.empty : LinkedQueue α).Holds [] :=
  ⟨[], Chained.start.atRest (fun _ => rfl) rfl, rfl⟩

theorem push (holds : queue.Holds values) (value : α) :
    (queue.push value).Holds (values ++ [value]) := by
  obtain ⟨nodes, chained, rfl⟩ := holds
  obtain ⟨content, last⟩ := chained.last
  have last : queue.heap.get? queue.head = some ⟨content, none⟩ := last
  have unused : queue.heap.get? queue.heap.fresh = none := queue.heap.get?_fresh
  -- The states between the moves of the push.
  let started := queue.atRest.setPush 0 (some (value, .create value))
  let made := started.created 0 value value queue.heap.fresh
  let entered := made.entered 0 value queue.heap.fresh
  have startedChained : Chained started nodes := chained.pushStarts rfl value
  have madeChained : Chained made nodes := startedChained.creates rfl unused
  have enteredChained : Chained entered (nodes ++ [(queue.heap.fresh, value)]) :=
    madeChained.swaps rfl
  have before : made.queue.heap.get? queue.head = some ⟨content, none⟩ := by
    have different : queue.head ≠ queue.heap.fresh := by
      intro same
      rw [same, unused] at last
      cases last
    rw [created_get?, if_neg different]
    exact last
  have within : entered.pushes 0 = some (value, .link queue.head queue.heap.fresh) := rfl
  have linked := enteredChained.links within before
  refine ⟨nodes ++ [(queue.heap.fresh, value)], ?_, by simp⟩
  rw [push_eq last]
  refine linked.atRest (fun producer => ?_) rfl
  rw [joined_pushes, if_pos (Subsingleton.elim _ _)]

theorem pushes (holds : queue.Holds values) (more : List α) :
    (more.foldl LinkedQueue.push queue).Holds (values ++ more) := by
  induction more generalizing queue values with
  | nil => rwa [List.append_nil]
  | cons value more ih =>
      have pushed := ih (holds.push value)
      rwa [List.append_assoc] at pushed

theorem pop (holds : queue.Holds values) :
    ∃ after, queue.pop = (after, values.head?) ∧ after.Holds values.tail := by
  obtain ⟨nodes, chained, rfl⟩ := holds
  cases nodes with
  | nil =>
      obtain ⟨after, ran, still, linked, idle⟩ := chained.pops_none queue.atRest_allLinked rfl
      obtain ⟨pops, pushes⟩ := pop_eq_of_run ran
      exact ⟨after.queue, pops, [], still.atRest pushes idle, rfl⟩
  | cons node rest =>
      obtain ⟨after, ran, still, linked, idle⟩ := chained.pops_first queue.atRest_allLinked rfl
      obtain ⟨pops, pushes⟩ := pop_eq_of_run ran
      exact ⟨after.queue, pops, rest, still.atRest pushes idle, rfl⟩

theorem isEmpty_eq (holds : queue.Holds values) : queue.isEmpty = values.isEmpty := by
  obtain ⟨nodes, chained, rfl⟩ := holds
  have link : queue.heap.get? queue.stub = some ⟨none, nodes.head?.map Prod.fst⟩ :=
    chained.stub_link queue.atRest_allLinked
  cases nodes with
  | nil =>
      have same : queue.head = queue.stub := chained.head_eq_stub_iff.mpr rfl
      simp [LinkedQueue.isEmpty, Procedure.alone, EmptyCheck.procedure, EmptyCheck.step,
        settleStep, LinkedQueue.load, link, same, bind, Except.bind, pure, Except.pure]
  | cons node rest =>
      simp [LinkedQueue.isEmpty, Procedure.alone, EmptyCheck.procedure, EmptyCheck.step,
        settleStep, LinkedQueue.load, link, bind, Except.bind, pure, Except.pure]

end Holds

theorem valuesFrom_chain {queue : LinkedQueue α} {address : Address} {value : Option α}
    {link : Option Address} (here : queue.heap.get? address = some ⟨value, link⟩)
    {nodes : List (Address × α)}
    (follows : (address :: nodes.map Prod.fst).IsChain queue.atRest.Follows)
    (loaded : ∀ node ∈ nodes, ∃ next, queue.heap.get? node.1 = some ⟨some node.2, next⟩)
    (ends : (address :: nodes.map Prod.fst).getLast? = some queue.head)
    (last : ∃ value, queue.heap.get? queue.head = some ⟨value, none⟩) {steps : Nat}
    (enough : nodes.length < steps) :
    queue.heap.valuesFrom steps (some address) = value.toList ++ nodes.map Prod.snd := by
  induction nodes generalizing address value link steps with
  | nil =>
      obtain ⟨steps, rfl⟩ := Nat.exists_eq_add_one_of_ne_zero (Nat.ne_of_gt enough)
      obtain ⟨content, last⟩ := last
      cases Option.some.inj ends
      cases here.symm.trans last
      cases steps <;> simp [NodeHeap.valuesFrom, here]
  | cons node rest ih =>
      obtain ⟨steps, rfl⟩ := Nat.exists_eq_add_one_of_ne_zero (Nat.ne_zero_of_lt enough)
      obtain ⟨first, others⟩ := List.isChain_cons_cons.mp follows
      obtain ⟨next, there⟩ := loaded node List.mem_cons_self
      rcases first with ⟨content, linked⟩ | ⟨content, producer, pushed, -, pending⟩
      · cases here.symm.trans linked
        have later := ih there others
          (fun node member => loaded node (List.mem_cons_of_mem _ member))
          ends (Nat.lt_of_succ_lt_succ enough)
        simp [NodeHeap.valuesFrom, here, later]
      · cases pending

namespace Holds

variable {queue : LinkedQueue α} {values : List α}

theorem leftovers_eq (holds : queue.Holds values) : queue.leftovers = values := by
  obtain ⟨nodes, chained, rfl⟩ := holds
  obtain ⟨next, spent⟩ := chained.spent
  -- The addresses on the path are distinct and in use, so the heap has as many.
  have inside : queue.path nodes ⊆ List.range queue.heap.cells.size := by
    intro address member
    obtain ⟨node, found⟩ := chained.live_of_mem member
    by_contra beyond
    have outside : queue.heap.cells[address]? = none := by simpa using beyond
    have missing : queue.heap.get? address = none := by simp [NodeHeap.get?, outside]
    cases missing.symm.trans found
  have enough := (chained.distinct.subperm inside).length_le
  simp only [LinkedQueue.path, List.length_cons, List.length_map, List.length_range] at enough
  exact valuesFrom_chain spent chained.follows chained.loaded chained.ends chained.last enough

end Holds

end LinkedQueue

def popsFrom : Nat → List α → List (Option α)
  | 0, _ => []
  | count + 1, values => values.head? :: popsFrom count values.tail

theorem popsFrom_values (count : Nat) (values : List α) :
    (popsFrom count values).reduceOption = values.take count := by
  induction count generalizing values with
  | zero => rfl
  | succ count ih =>
      cases values with
      | nil =>
          rw [popsFrom, List.head?_nil, List.tail_nil, List.reduceOption_cons_of_none, ih,
            List.take_nil, List.take_nil]
      | cons value values =>
          rw [popsFrom, List.head?_cons, List.tail_cons, List.reduceOption_cons_of_some, ih,
            List.take_succ_cons]

namespace Channel

variable {channel : Channel α}

def popRound (state : LinkedQueue α × Array (Option α)) : LinkedQueue α × Array (Option α) :=
  ((LinkedQueue.pop state.1).1, state.2.push (LinkedQueue.pop state.1).2)

/-- The rounds go by a list of numbers whose length alone matters. -/
theorem popRounds_eq (numbers : List Nat) {queue : LinkedQueue α} {values : List α}
    (holds : queue.Holds values) (popped : Array (Option α)) :
    ∃ after, numbers.foldl (fun state _ => popRound state) (queue, popped) =
        (after, popped ++ (popsFrom numbers.length values).toArray) ∧
      after.Holds (values.drop numbers.length) := by
  induction numbers generalizing queue values popped with
  | nil => exact ⟨queue, by simp [popsFrom], holds⟩
  | cons number numbers ih =>
      obtain ⟨after, pops, left⟩ := holds.pop
      obtain ⟨final, rest, still⟩ := ih left (popped.push values.head?)
      refine ⟨final, ?_, ?_⟩
      · rw [List.foldl_cons, popRound, pops, rest]
        simp [popsFrom]
      · rwa [List.length_cons, ← List.drop_tail]

theorem pop?_eq {values : List α} (holds : channel.queue.Holds values) (count : Nat)
    (held : channel.consumer = true) :
    ∃ queue, channel.pop? count = some ({ channel with queue }, popsFrom count values) ∧
      queue.Holds (values.drop count) := by
  obtain ⟨after, popped, left⟩ := popRounds_eq (List.range count) holds #[]
  rw [List.length_range] at popped left
  refine ⟨after, ?_, left⟩
  rw [pop?, if_pos held]
  change some ({ channel with
      queue := ((List.range count).foldl (fun state _ => popRound state) (channel.queue, #[])).1 },
    ((List.range count).foldl (fun state _ => popRound state) (channel.queue, #[])).2.toList) = _
  rw [popped]
  simp

theorem isHeld_of_hasProducer {number : Nat} (held : channel.hasProducer number = true) :
    channel.isHeld = true := by
  have member : true ∈ channel.producers := by
    rw [hasProducer, Array.getD_eq_getD_getElem?] at held
    cases found : channel.producers[number]? with
    | none => simp [found] at held
    | some flag =>
        rw [found] at held
        cases (held : flag = true)
        exact Array.mem_of_getElem? found
  simp [isHeld, member]

end Channel

/-! ## Sessions -/

namespace ChannelStep

def IsCall : ChannelStep α → Prop
  | .pushNothing _ _ | .malformed _ => False
  | .push _ _ | .clone _ | .dropProducer _ | .pop _ | .isEmpty | .dropConsumer | .unknown => True

/-- The values that a step pushes; through a handle that is not held there are none. -/
def pushed (channel : Channel α) : ChannelStep α → List α
  | .push number values => if channel.hasProducer number then values else []
  | _ => []

end ChannelStep

def ChannelReply.values : ChannelReply α → List α
  | .popped values => values.reduceOption
  | _ => []

def poppedIn (answers : List (ChannelAnswer α)) : List α :=
  answers.flatMap fun answer => answer.reply.values

def destroyedIn (answers : List (ChannelAnswer α)) : List α :=
  answers.flatMap ChannelAnswer.destroyed

namespace Channel

/-- A session that is not closed yet, with its channel. -/
def run (channel : Channel α) :
    List (ChannelStep α) → Except String (Channel α × List (ChannelAnswer α))
  | [] => .ok (channel, [])
  | step :: steps => do
      let (after, reply, destroyed) ← step.run channel
      let (final, answers) ← after.run steps
      pure (final, ⟨reply, destroyed, after.isEmpty?⟩ :: answers)

def pushed (channel : Channel α) : List (ChannelStep α) → List α
  | [] => []
  | step :: steps =>
      step.pushed channel ++
        match step.run channel with
        | .ok (after, _) => after.pushed steps
        | .error _ => []

theorem session_of_run {channel final : Channel α} {steps : List (ChannelStep α)}
    {answers : List (ChannelAnswer α)} (ran : channel.run steps = .ok (final, answers)) :
    channel.session steps = .ok (answers, final.close) := by
  induction steps generalizing channel answers with
  | nil =>
      cases ran
      rfl
  | cons step steps ih =>
      rw [run] at ran
      rw [session]
      cases made : step.run channel with
      | error field => simp [made, bind, Except.bind] at ran
      | ok result =>
          obtain ⟨after, reply, destroyed⟩ := result
          cases rest : after.run steps with
          | error field => simp [made, rest, bind, Except.bind] at ran
          | ok reached =>
              simp only [made, rest, bind, Except.bind, pure, Except.pure] at ran
              cases ran
              simp only [bind, Except.bind, ih rest, pure, Except.pure]

/-- What is pushed is popped first of all, then destroyed if no handle is left, and
waits in the queue otherwise. -/
def Settles (channel : Channel α) (pushed popped destroyed : List α) : Prop :=
  ∃ rest, channel.queue.Holds rest ∧ pushed = popped ++ rest ∧
    destroyed = if channel.isHeld then [] else rest

/-- The ways in which a call changes a channel, with its reply and what it destroys. -/
inductive Effect (channel : Channel α) :
    ChannelStep α → Channel α → ChannelReply α → List α → Prop where
  | refused (step : ChannelStep α) (nothing : step.pushed channel = []) :
      Effect channel step channel .refused []
  | pushes (number : Nat) (values : List α) (held : channel.hasProducer number = true) :
      Effect channel (.push number values)
        { channel with queue := values.foldl LinkedQueue.push channel.queue } .done []
  | clones (number : Nat) (held : channel.hasProducer number = true) :
      Effect channel (.clone number) { channel with producers := channel.producers.push true }
        (.cloned channel.producers.size) []
  | pops (count : Nat) (held : channel.consumer = true) (queue : LinkedQueue α)
      (values : List (Option α))
      (popped : channel.pop? count = some ({ channel with queue }, values)) :
      Effect channel (.pop count) { channel with queue } (.popped values) []
  | checks (held : channel.consumer = true) :
      Effect channel .isEmpty channel (.isEmpty channel.queue.isEmpty) []
  | releases (step : ChannelStep α) (after : Channel α) (held : channel.isHeld = true)
      (queue : after.queue = channel.queue) (nothing : step.pushed channel = []) :
      Effect channel step after .done after.destroyed

theorem exists_effect (channel : Channel α) {step : ChannelStep α} (call : step.IsCall) :
    ∃ after reply gone, step.run channel = .ok (after, reply, gone) ∧
      channel.Effect step after reply gone := by
  cases step with
  | pushNothing | malformed => cases call
  | unknown => exact ⟨channel, .refused, [], rfl, .refused _ rfl⟩
  | push number values =>
      by_cases held : channel.hasProducer number = true
      · exact ⟨_, _, _, by simp only [ChannelStep.run, push?, held, if_true],
          .pushes number values held⟩
      · exact ⟨channel, .refused, [], by simp [ChannelStep.run, push?, held],
          .refused _ (if_neg held)⟩
  | clone number =>
      by_cases held : channel.hasProducer number = true
      · exact ⟨_, _, _, by simp only [ChannelStep.run, clone?, held, if_true],
          .clones number held⟩
      · exact ⟨channel, .refused, [], by simp [ChannelStep.run, clone?, held], .refused _ rfl⟩
  | dropProducer number =>
      by_cases held : channel.hasProducer number = true
      · exact ⟨_, _, _, by simp only [ChannelStep.run, dropProducer?, held, if_true],
          .releases _ { channel with producers := channel.producers.setIfInBounds number false }
            (isHeld_of_hasProducer held) rfl rfl⟩
      · exact ⟨channel, .refused, [], by simp [ChannelStep.run, dropProducer?, held],
          .refused _ rfl⟩
  | pop count =>
      by_cases held : channel.consumer = true
      · exact ⟨_, _, _, by simp only [ChannelStep.run, pop?, held, if_true],
          .pops count held _ _ (if_pos held)⟩
      · exact ⟨channel, .refused, [], by simp [ChannelStep.run, pop?, held], .refused _ rfl⟩
  | isEmpty =>
      by_cases held : channel.consumer = true
      · exact ⟨_, _, _, by simp only [ChannelStep.run, isEmpty?, held, if_true],
          .checks held⟩
      · exact ⟨channel, .refused, [], by simp [ChannelStep.run, isEmpty?, held], .refused _ rfl⟩
  | dropConsumer =>
      by_cases held : channel.consumer = true
      · exact ⟨_, _, _, by simp only [ChannelStep.run, dropConsumer?, held, if_true],
          .releases _ { channel with consumer := false } (by simp [isHeld, held]) rfl rfl⟩
      · exact ⟨channel, .refused, [], by simp [ChannelStep.run, dropConsumer?, held],
          .refused _ rfl⟩

/-- What a call destroys is what the queue still holds, if it gives up the last handle. -/
theorem Effect.gone_eq {step : ChannelStep α} {channel after : Channel α}
    {reply : ChannelReply α} {gone : List α} (effect : channel.Effect step after reply gone) :
    gone = if channel.isHeld ∧ ¬ after.isHeld then channel.queue.leftovers else [] := by
  cases effect with
  | refused | checks => rw [if_neg fun both => both.2 both.1]
  | pushes number values held | pops count held queue values popped =>
      exact (if_neg fun both => both.2 both.1).symm
  | clones number held =>
      refine (if_neg fun both => both.2 ?_).symm
      simp [isHeld]
  | releases _ _ held queue nothing =>
      rw [destroyed, queue]
      by_cases kept : after.isHeld = true <;> simp [kept, held]

namespace Settles

variable {channel : Channel α} {pushed popped destroyed : List α}

theorem create : (Channel.create : Channel α).Settles [] [] [] :=
  ⟨[], LinkedQueue.Holds.empty, rfl, rfl⟩

theorem release (settles : channel.Settles pushed popped destroyed)
    (held : channel.isHeld = true) {after : Channel α} (queue : after.queue = channel.queue) :
    after.Settles pushed popped (destroyed ++ after.destroyed) := by
  obtain ⟨rest, holds, whole, gone⟩ := settles
  refine ⟨rest, queue ▸ holds, whole, ?_⟩
  rw [gone, if_pos held, Channel.destroyed, queue, holds.leftovers_eq]
  rfl

/-- A call moves values on from one place to the next. -/
theorem effect (settles : channel.Settles pushed popped destroyed) {step : ChannelStep α}
    {after : Channel α} {reply : ChannelReply α} {gone : List α}
    (effect : channel.Effect step after reply gone) :
    after.Settles (pushed ++ step.pushed channel) (popped ++ reply.values)
      (destroyed ++ gone) := by
  cases effect with
  | refused _ nothing =>
      rw [nothing]
      simpa [ChannelReply.values] using settles
  | checks held => simpa [ChannelStep.pushed, ChannelReply.values] using settles
  | pushes number values held =>
      obtain ⟨rest, holds, whole, gone⟩ := settles
      have alive := isHeld_of_hasProducer held
      refine ⟨rest ++ values, holds.pushes values, ?_, ?_⟩
      · simp [ChannelStep.pushed, held, whole, ChannelReply.values]
      · rw [gone, if_pos alive, List.append_nil]
        exact (if_pos alive).symm
  | clones number held =>
      obtain ⟨rest, holds, whole, gone⟩ := settles
      refine ⟨rest, holds, by simp [ChannelStep.pushed, ChannelReply.values, whole], ?_⟩
      rw [gone, if_pos (isHeld_of_hasProducer held), List.append_nil]
      exact (if_pos (by simp [isHeld])).symm
  | pops count held queue values returned =>
      obtain ⟨rest, holds, whole, gone⟩ := settles
      obtain ⟨after, pops, left⟩ := pop?_eq holds count held
      cases returned.symm.trans pops
      have alive : channel.isHeld = true := by simp [isHeld, held]
      refine ⟨rest.drop count, left, ?_, ?_⟩
      · simp [ChannelStep.pushed, ChannelReply.values, popsFrom_values, whole]
      · rw [gone, if_pos alive, List.append_nil]
        exact (if_pos alive).symm
  | releases _ _ held queue nothing =>
      rw [nothing]
      simpa [ChannelReply.values] using settles.release held queue

theorem run (settles : channel.Settles pushed popped destroyed) {steps : List (ChannelStep α)}
    (calls : ∀ step ∈ steps, step.IsCall) :
    ∃ final answers, channel.run steps = .ok (final, answers) ∧
      final.Settles (pushed ++ channel.pushed steps) (popped ++ poppedIn answers)
        (destroyed ++ destroyedIn answers) := by
  induction steps generalizing channel pushed popped destroyed with
  | nil => exact ⟨channel, [], rfl, by simpa [Channel.pushed, poppedIn, destroyedIn] using settles⟩
  | cons step steps ih =>
      obtain ⟨call, others⟩ := List.forall_mem_cons.mp calls
      obtain ⟨after, reply, gone, made, effect⟩ := channel.exists_effect call
      obtain ⟨final, answers, ran, settlesFinal⟩ := ih (settles.effect effect) others
      refine ⟨final, ⟨reply, gone, after.isEmpty?⟩ :: answers, ?_, ?_⟩
      · simp [Channel.run, made, ran, bind, Except.bind, pure, Except.pure]
      · simpa [Channel.pushed, made, poppedIn, destroyedIn] using settlesFinal

end Settles

/-- Whatever calls come, through handles held or given up: first what was popped, then
what was destroyed, then what goes at the end are the values pushed.  Nothing is
destroyed while a handle is held; the step that gives up the last one destroys all
that was not popped. -/
theorem values_are_popped_or_destroyed (steps : List (ChannelStep α))
    (calls : ∀ step ∈ steps, step.IsCall) :
    ∃ channel answers, create.run steps = .ok (channel, answers) ∧
      create.session steps = .ok (answers, channel.close) ∧
      poppedIn answers ++ destroyedIn answers ++ channel.close = create.pushed steps ∧
      (channel.isHeld = true → destroyedIn answers = []) ∧
      (channel.isHeld = false → channel.close = []) ∧
      (channel.consumer = true → ∃ isEmpty, channel.isEmpty? = some isEmpty ∧
        (isEmpty = true ↔ poppedIn answers = create.pushed steps)) ∧
      let waiting := (create.pushed steps).drop (poppedIn answers).length
      ∀ step : ChannelStep α, step.IsCall →
        ∃ after reply gone, step.run channel = .ok (after, reply, gone) ∧
          gone = (if channel.isHeld ∧ ¬ after.isHeld then waiting else []) ∧
          ∀ count, step = .pop count → channel.consumer = true →
            reply = .popped (popsFrom count waiting) := by
  obtain ⟨channel, answers, ran, settles⟩ := Settles.create.run calls
  obtain ⟨rest, holds, whole, gone⟩ := settles
  simp only [List.nil_append] at whole gone
  have waiting : (create.pushed steps).drop (poppedIn answers).length = rest := by
    rw [whole, List.drop_left]
  refine ⟨channel, answers, ran, session_of_run ran, ?whole, ?kept, ?closed, ?empty, ?next⟩
  case whole =>
    rw [whole, gone, close, holds.leftovers_eq, List.append_assoc]
    by_cases held : channel.isHeld = true <;> simp [held]
  case kept => exact fun held => gone.trans (if_pos held)
  case closed => exact fun free => if_neg (by simp [free])
  case empty =>
    intro held
    refine ⟨rest.isEmpty, by rw [isEmpty?, if_pos held, holds.isEmpty_eq], ?_⟩
    rw [whole, List.isEmpty_iff, List.self_eq_append_right]
  case next =>
    intro waiting' step call
    obtain ⟨after, reply, gone, made, effect⟩ := channel.exists_effect call
    refine ⟨after, reply, gone, made, ?_, ?_⟩
    · rw [effect.gone_eq, holds.leftovers_eq, ← waiting]
    · rintro count rfl held
      obtain ⟨queue, pops, left⟩ := pop?_eq holds count held
      rw [ChannelStep.run, pops] at made
      cases made
      rw [← waiting]

/-- Two producers push, one value is popped, and what comes after the consumer is gone
waits until the last producer goes. -/
def handOver : List (ChannelStep Nat) :=
  [.push 0 [10, 11], .clone 0, .push 1 [20], .pop 1, .dropProducer 0, .push 0 [12],
    .dropConsumer, .push 1 [21], .dropProducer 1]

theorem handOver_popped_or_destroyed :
    (∀ step ∈ handOver, step.IsCall) ∧
      ∃ answers, create.session handOver = .ok (answers, []) ∧
        poppedIn answers = [10] ∧ destroyedIn answers = [11, 20, 21] ∧
        poppedIn answers ++ destroyedIn answers = create.pushed handOver := by
  have calls : ∀ step ∈ handOver, step.IsCall := by simp [handOver, ChannelStep.IsCall]
  obtain ⟨channel, answers, -, session, whole, -⟩ := values_are_popped_or_destroyed handOver calls
  have given : (create.session handOver).toOption.map (fun (answers, closing) =>
      (poppedIn answers, destroyedIn answers, closing)) = some ([10], [11, 20, 21], []) := by
    decide +kernel
  rw [session] at given
  obtain ⟨popped, destroyed, closing⟩ : poppedIn answers = [10] ∧
    destroyedIn answers = [11, 20, 21] ∧ channel.close = [] := by
      simpa [Except.toOption] using given
  rw [closing] at session whole
  exact ⟨calls, answers, session, popped, destroyed, by simpa using whole⟩

end Channel

end RingPool

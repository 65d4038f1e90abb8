import RingPool.Interruption
import RingPool.Linked.Heap

/-!
# An unbounded queue of linked nodes

The nodes of the queue hang together from the consumer's `stub`, whose value is
already taken, to the producers' `head`, the node pushed last.  A push creates
a node, swaps the head to it and then links the node it displaced to it; other
pushes may come between the swap and the link.  A pop follows the stub's link,
takes the value of the node it leads to, makes that node the stub and frees the
old one.  It waits while the head is another node than the stub and the stub's
link is still to come.

`Push.step`, `Pop.step` and `EmptyCheck.step` are single atomic steps.  A step
that would touch a node that is not live stops with `DeadNode` instead.
Uninterrupted calls are runs of the same steps.
-/

set_option autoImplicit false

namespace RingPool

/-- A step would have touched an address at which no node is live, or created
a node where one is. -/
structure DeadNode where
  address : Address
  deriving DecidableEq, Repr

structure LinkedQueue (α : Type) where
  heap : NodeHeap α
  head : Address
  stub : Address

namespace LinkedQueue

variable {α : Type}

def empty : LinkedQueue α :=
  ⟨NodeHeap.empty.put 0 ⟨none, none⟩, 0, 0⟩

def load (queue : LinkedQueue α) (address : Address) : Except DeadNode (Node α) :=
  match queue.heap.get? address with
  | some node => .ok node
  | none => .error ⟨address⟩

def create (queue : LinkedQueue α) (address : Address) (value : α) :
    Except DeadNode (LinkedQueue α) :=
  match queue.heap.get? address with
  | some _ => .error ⟨address⟩
  | none => .ok { queue with heap := queue.heap.put address ⟨some value, none⟩ }

def link (queue : LinkedQueue α) (before after : Address) :
    Except DeadNode (LinkedQueue α) := do
  let node ← queue.load before
  pure { queue with heap := queue.heap.put before { node with next := some after } }

/-- Makes the node at `next` the stub and takes its value. -/
def advance (queue : LinkedQueue α) (next : Address) :
    Except DeadNode (LinkedQueue α × Option α) := do
  let node ← queue.load next
  pure (⟨queue.heap.put next { node with value := none }, queue.head, next⟩, node.value)

def free (queue : LinkedQueue α) (address : Address) : Except DeadNode (LinkedQueue α) := do
  let _ ← queue.load address
  pure { queue with heap := queue.heap.erase address }

/-- The values that the queue still owns, oldest first, once all links are
made. -/
def leftovers (queue : LinkedQueue α) : List α :=
  queue.heap.valuesFrom queue.heap.cells.size (some queue.stub)

end LinkedQueue

/-- Where a push stands: about to create its node, to swap the head to it, or
to link the displaced node to it. -/
inductive Push (α : Type) where
  | create (value : α)
  | swap (address : Address)
  | link (before address : Address)
  deriving DecidableEq, Repr

namespace Push

variable {α : Type}

def point : Push α → Option Point
  | .create _ => none
  | .swap _ => some .swap
  | .link _ _ => some .store

def step (queue : LinkedQueue α) (address : Address) :
    Push α → Except DeadNode (LinkedQueue α × Progress (Push α) Unit)
  | .create value => do
      let queue ← queue.create address value
      pure (queue, .running (.swap address))
  | .swap node =>
      pure ({ queue with head := node }, .running (.link queue.head node))
  | .link before node => do
      let queue ← queue.link before node
      pure (queue, .returned ())

end Push

/-- Where a pop stands: about to load the stub's link (for the first time, or
after a pause), to load the head, in a pause, about to move on to the next
node, or to free the old stub. -/
inductive Pop.Phase (α : Type) where
  | look
  | peek
  | pause
  | lookAgain
  | advance (next : Address)
  | free (old : Address) (value : Option α)
  deriving DecidableEq, Repr

structure Pop (α : Type) where
  spins : Nat
  phase : Pop.Phase α
  deriving DecidableEq, Repr

structure Pop.Result (α : Type) where
  value : Option α
  spins : Nat
  deriving DecidableEq, Repr

namespace Pop

variable {α : Type}

def start : Pop α := ⟨0, .look⟩

def point (pop : Pop α) : Option Point :=
  match pop.phase with
  | .look => some .load
  | .peek => some .load
  | .pause => some .spin
  | .lookAgain => some .load
  | .advance _ => none
  | .free _ _ => none

def step (queue : LinkedQueue α) (pop : Pop α) :
    Except DeadNode (LinkedQueue α × Progress (Pop α) (Pop.Result α)) :=
  match pop.phase with
  | .look => do
      let stub ← queue.load queue.stub
      match stub.next with
      | none => pure (queue, .running { pop with phase := .peek })
      | some next => pure (queue, .running { pop with phase := .advance next })
  | .peek =>
      if queue.head = queue.stub then pure (queue, .returned ⟨none, pop.spins⟩)
      else pure (queue, .running { pop with phase := .pause })
  | .pause => pure (queue, .running ⟨pop.spins + 1, .lookAgain⟩)
  | .lookAgain => do
      let stub ← queue.load queue.stub
      match stub.next with
      | none => pure (queue, .running { pop with phase := .pause })
      | some next => pure (queue, .running { pop with phase := .advance next })
  | .advance next => do
      let (moved, value) ← queue.advance next
      pure (moved, .running { pop with phase := .free queue.stub value })
  | .free old value => do
      let queue ← queue.free old
      pure (queue, .returned ⟨value, pop.spins⟩)

end Pop

inductive EmptyCheck where
  | look
  | peek
  deriving DecidableEq, Repr

namespace EmptyCheck

variable {α : Type}

def step (queue : LinkedQueue α) :
    EmptyCheck → Except DeadNode (LinkedQueue α × Progress EmptyCheck Bool)
  | .look => do
      let stub ← queue.load queue.stub
      match stub.next with
      | none => pure (queue, .running .peek)
      | some _ => pure (queue, .returned false)
  | .peek => pure (queue, .returned (queue.head == queue.stub))

end EmptyCheck

/-- A step that may stop at a dead node, as a step whose call then returns with
that as its result. -/
def settleStep {Memory Call Result : Type} (memory : Memory) :
    Except DeadNode (Memory × Progress Call Result) →
      Memory × Progress Call (Except DeadNode Result)
  | .error dead => (memory, .returned (.error dead))
  | .ok (changed, .running call) => (changed, .running call)
  | .ok (changed, .returned result) => (changed, .returned (.ok result))

section
variable {α : Type}

def Push.procedure : Procedure (LinkedQueue α) (Push α) (Except DeadNode Unit) where
  point := Push.point
  step := fun queue push _ => settleStep queue (push.step queue queue.heap.fresh)

def Pop.procedure : Procedure (LinkedQueue α) (Pop α) (Except DeadNode (Pop.Result α)) where
  point := Pop.point
  step := fun queue pop _ => settleStep queue (pop.step queue)

def EmptyCheck.procedure : Procedure (LinkedQueue α) EmptyCheck (Except DeadNode Bool) where
  point := fun _ => some .load
  step := fun queue check _ => settleStep queue (check.step queue)

def LinkedQueue.push (queue : LinkedQueue α) (value : α) : LinkedQueue α :=
  (Push.procedure.alone 3 queue (.create value)).1

/-- A pop that nobody interrupts.  It ends within three steps unless a link is
missing; then it would wait for ever, has changed nothing and returns no value. -/
def LinkedQueue.pop (queue : LinkedQueue α) : LinkedQueue α × Option α :=
  match Pop.procedure.alone 3 queue .start with
  | (queue, .returned (.ok result)) => (queue, result.value)
  | (queue, _) => (queue, none)

def LinkedQueue.isEmpty (queue : LinkedQueue α) : Bool :=
  match EmptyCheck.procedure.alone 2 queue .look with
  | (_, .returned (.ok isEmpty)) => isEmpty
  | _ => false

end

end RingPool

import RingPool.Linked.Queue

/-!
# Many producers and one consumer on a linked queue

A `LinkedSystem` is a linked queue with a number of producers on it, each within a push
or not, and a consumer, within a pop or a check for emptiness or not.  It keeps
the values pushed so far, in the order in which the head was swapped, and the
values popped so far.  A `LinkedMove` is one atomic step; the address of a new
node is part of the move that creates it, so that freed addresses can come
again.

A step that would touch a node that is not live ends the run with `DeadNode`.
-/

set_option autoImplicit false

namespace RingPool

inductive ConsumerCall (α : Type) where
  | pop (pop : Pop α)
  | isEmpty (check : EmptyCheck)
  deriving DecidableEq, Repr

structure LinkedSystem (producers : Nat) (α : Type) where
  queue : LinkedQueue α
  /-- The push that a producer is within, with its value. -/
  pushes : Fin producers → Option (α × Push α)
  consumer : Option (ConsumerCall α)
  /-- The values pushed, with their producers, in the order of the swaps. -/
  swapped : List (Fin producers × α)
  /-- What the pops that returned a value returned. -/
  popped : List α

inductive LinkedMove (producers : Nat) (α : Type) where
  | push (producer : Fin producers) (value : α)
  /-- A further step of a push; if it creates a node, it does so at `address`. -/
  | advance (producer : Fin producers) (address : Address)
  | pop
  | isEmpty
  /-- A further step of the consumer's call. -/
  | consume
  deriving DecidableEq, Repr

inductive LinkedEvent (α : Type) where
  | popped (result : Pop.Result α)
  | checked (isEmpty : Bool)
  deriving DecidableEq, Repr

namespace LinkedSystem

variable {producers : Nat} {α : Type}

def start : LinkedSystem producers α := ⟨.empty, fun _ => none, none, [], []⟩

def setPush (system : LinkedSystem producers α) (producer : Fin producers)
    (push : Option (α × Push α)) : LinkedSystem producers α :=
  { system with
    pushes := fun other => if other = producer then push else system.pushes other }

def recordSwap (system : LinkedSystem producers α) (producer : Fin producers) (value : α) :
    Push α → LinkedSystem producers α
  | .swap _ => { system with swapped := system.swapped ++ [(producer, value)] }
  | _ => system

/-- Makes a move; a move out of place changes nothing. -/
def next (system : LinkedSystem producers α) :
    LinkedMove producers α →
      Except DeadNode (LinkedSystem producers α × Option (LinkedEvent α))
  | .push producer value =>
      match system.pushes producer with
      | some _ => .ok (system, none)
      | none => .ok (system.setPush producer (some (value, .create value)), none)
  | .advance producer address =>
      match system.pushes producer with
      | none => .ok (system, none)
      | some (value, push) => do
          let (queue, progress) ← push.step system.queue address
          let after := { system.recordSwap producer value push with queue }
          match progress with
          | .running push => pure (after.setPush producer (some (value, push)), none)
          | .returned () => pure (after.setPush producer none, none)
  | .pop =>
      match system.consumer with
      | some _ => .ok (system, none)
      | none => .ok ({ system with consumer := some (.pop .start) }, none)
  | .isEmpty =>
      match system.consumer with
      | some _ => .ok (system, none)
      | none => .ok ({ system with consumer := some (.isEmpty .look) }, none)
  | .consume =>
      match system.consumer with
      | none => .ok (system, none)
      | some (.pop pop) => do
          match ← pop.step system.queue with
          | (queue, .running pop) =>
              pure ({ system with queue, consumer := some (.pop pop) }, none)
          | (queue, .returned result) =>
              pure ({ system with
                queue, consumer := none, popped := system.popped ++ result.value.toList },
                some (.popped result))
      | some (.isEmpty check) => do
          match ← check.step system.queue with
          | (queue, .running check) =>
              pure ({ system with queue, consumer := some (.isEmpty check) }, none)
          | (queue, .returned isEmpty) =>
              pure ({ system with queue, consumer := none }, some (.checked isEmpty))

def run (system : LinkedSystem producers α) :
    List (LinkedMove producers α) →
      Except DeadNode (LinkedSystem producers α × List (LinkedEvent α))
  | [] => .ok (system, [])
  | move :: moves => do
      let (after, event) ← system.next move
      let (final, events) ← after.run moves
      pure (final, event.toList ++ events)

/-- A new node is created only at an address that is not live. -/
def AllocatesFresh (system : LinkedSystem producers α) : LinkedMove producers α → Prop
  | .advance producer address =>
      ∀ value created, system.pushes producer = some (value, .create created) →
        system.queue.heap.get? address = none
  | _ => True

def AllocatesFreshly (system : LinkedSystem producers α) : List (LinkedMove producers α) → Prop
  | [] => True
  | move :: moves =>
      system.AllocatesFresh move ∧
        ∀ after event, system.next move = .ok (after, event) → after.AllocatesFreshly moves

def pendingLink (system : LinkedSystem producers α) (producer : Fin producers) :
    Option (Address × Address) :=
  match system.pushes producer with
  | some (_, .link before after) => some (before, after)
  | _ => none

section Decidability

instance (system : LinkedSystem producers α) : DecidablePred system.AllocatesFresh
  | .advance producer address =>
      match within : system.pushes producer with
      | some (value, .create created) =>
          decidable_of_iff (system.queue.heap.get? address = none)
            ⟨fun fresh _ _ _ => fresh, fun fresh => fresh value created within⟩
      | none | some (_, .swap _) | some (_, .link _ _) =>
          .isTrue fun value created creating => by simp [within] at creating
  | .push _ _ | .pop | .isEmpty | .consume => .isTrue trivial

instance decidableAllocatesFreshly (system : LinkedSystem producers α) :
    DecidablePred system.AllocatesFreshly
  | [] => .isTrue trivial
  | move :: moves =>
      match step : system.next move with
      | .error _ =>
          decidable_of_iff (system.AllocatesFresh move)
            ⟨fun fresh => ⟨fresh, fun _ _ ended => by simp [step] at ended⟩, And.left⟩
      | .ok (after, event) =>
          have := decidableAllocatesFreshly after moves
          decidable_of_iff (system.AllocatesFresh move ∧ after.AllocatesFreshly moves)
            ⟨fun ⟨fresh, rest⟩ => ⟨fresh, fun _ _ ended => by
                cases step.symm.trans ended
                exact rest⟩,
              fun ⟨fresh, rest⟩ => ⟨fresh, rest after event step⟩⟩

end Decidability

end LinkedSystem

end RingPool

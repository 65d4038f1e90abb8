import RingPool.Ring.Claim
import RingPool.Ring.Publication

/-!
# Rings

A `Ring` is a bounded first-in first-out queue: a ring memory, a transfer
policy and possibly a watermark.  This module holds the operations of a ring
that one thread has to itself; each is claim, slot access and publication run
to their ends.  An `exclusive` operation takes the path that is reserved for an
actor alone on its side.

Under the policy `fixed` a bulk moves whole or not at all, under `burst` as
much of it moves as fits.
-/

set_option autoImplicit false

namespace RingPool

inductive TransferPolicy where
  | fixed
  | burst
  deriving DecidableEq, Repr, Inhabited

def TransferPolicy.name : TransferPolicy → String
  | .fixed => "Fixed"
  | .burst => "Burst"

structure Enqueued where
  count : UInt32
  quotaExceeded : Bool
  deriving DecidableEq, Repr

def Enqueued.nothing : Enqueued := ⟨0, false⟩

def Enqueued.describe (enqueued : Enqueued) : String :=
  let count := enqueued.count
  let quota := enqueued.quotaExceeded
  s!"Enqueued \x7b count: {count}, quota_exceeded: {quota} \x7d"

/-- A bounded queue.  Without a watermark no enqueue reports an exceeded
quota. -/
structure Ring (α : Type) where
  core : Core α
  policy : TransferPolicy
  watermark : Option UInt32

/-- The request size of a list: its length, as far as a word can say it. -/
def requestSize (length : Nat) : UInt32 := UInt32.ofNat (min length (UInt32.size - 1))

/-- Publishes a reservation of an actor that nobody interrupts.  On a ring at
rest the reservation just granted is the next of its side
(`publish?_of_claim`), so that the wait is over at once. -/
def Core.publish {α : Type} (core : Core α) (reservation : Reservation) (exclusive : Bool) :
    Core α :=
  (core.publish? reservation exclusive).getD core

namespace Ring

variable {α : Type}

def create [Inhabited α] (slots : UInt32) (policy : TransferPolicy)
    (watermark : Option UInt32) : Except RingError (Ring α) :=
  match checkCapacity slots, watermark with
  | .error refusal, _ => .error refusal
  | .ok capacity, none => .ok ⟨.create capacity default 0, policy, none⟩
  | .ok capacity, some mark =>
      if slots ≤ mark then .error (.invalidWatermark mark slots)
      else .ok ⟨.create capacity default 0, policy, some mark⟩

def capacity (ring : Ring α) : UInt32 := ring.core.capacity.word

def usableCapacity (ring : Ring α) : UInt32 := ring.core.capacity.mask

def count (ring : Ring α) : UInt32 := ring.core.committed

def availSpace (ring : Ring α) : UInt32 := ring.usableCapacity - ring.count

def isEmpty (ring : Ring α) : Bool := ring.count == 0

def isFull (ring : Ring α) : Bool := ring.availSpace == 0

/-- The elements, oldest first. -/
def toList (ring : Ring α) : List α := ring.core.leftovers

def describe (ring : Ring α) : String :=
  let capacity := ring.capacity
  let count := ring.count
  let policy := ring.policy.name
  let watermark := match ring.watermark with
    | none => "None"
    | some mark => s!"Some({mark})"
  s!"Ring \x7b capacity: {capacity}, count: {count}, policy: {policy}, watermark: {watermark} \x7d"

/-- Whether the ring stands above its watermark once the reservation, granted
with the room that it observed, is published. -/
def exceedsQuota (ring : Ring α) (reservation : Reservation) : Bool :=
  match ring.watermark with
  | none => false
  | some mark => mark < ring.usableCapacity - reservation.observed + reservation.len

def produce (ring : Ring α) (items : List α) (exclusive : Bool) :
    Except RingError (Ring α × Enqueued) :=
  let requested := requestSize items.length
  if requested = 0 then .ok (ring, .nothing)
  else
    match ring.core.claim ⟨.producer, requested, ring.policy == .burst, exclusive⟩ with
    | (_, .short available) =>
        match ring.policy with
        | .fixed => .error (.capacityExceeded requested available)
        | .burst => .ok (ring, .nothing)
    | (core, .granted reservation) =>
        let filled := core.writeRange reservation.head (items.take reservation.len.toNat)
        .ok ({ ring with core := filled.publish reservation exclusive },
          ⟨reservation.len, ring.exceedsQuota reservation⟩)

def consume (ring : Ring α) (requested : UInt32) (exclusive : Bool) : Ring α × List α :=
  if requested = 0 then (ring, [])
  else
    match ring.core.claim ⟨.consumer, requested, ring.policy == .burst, exclusive⟩ with
    | (_, .short _) => (ring, [])
    | (core, .granted reservation) =>
        ({ ring with core := core.publish reservation exclusive },
          core.readRange reservation.head reservation.len.toNat)

/-- Moves elements from the front of `items` into the ring; the last component
is what stays of `items`. -/
def enqueueBulk (ring : Ring α) (items : List α) (exclusive : Bool) :
    Except RingError (Ring α × Enqueued × List α) :=
  match ring.produce items exclusive with
  | .error refusal => .error refusal
  | .ok (ring, enqueued) => .ok (ring, enqueued, items.drop enqueued.count.toNat)

def enqueueSlice (ring : Ring α) (items : List α) (exclusive : Bool) :
    Except RingError (Ring α × Enqueued) :=
  ring.produce items exclusive

def dequeueBulk (ring : Ring α) (most : UInt32) (exclusive : Bool) : Ring α × List α :=
  ring.consume most exclusive

/-- Takes as many elements as a buffer of `length` places asks for; they go to
its front. -/
def dequeueSlice (ring : Ring α) (length : Nat) (exclusive : Bool) : Ring α × List α :=
  ring.consume (requestSize length) exclusive

/-- Adds one element; none if there is no room, and then the element is still
the caller's. -/
def enqueue? (ring : Ring α) (item : α) (exclusive : Bool) : Option (Ring α) :=
  match ring.core.claim ⟨.producer, 1, false, exclusive⟩ with
  | (_, .short _) => none
  | (core, .granted reservation) =>
      some { ring with core :=
        (core.write reservation.head item).publish reservation exclusive }

/-- Takes the oldest element, if there is one. -/
def dequeue? (ring : Ring α) (exclusive : Bool) : Option (α × Ring α) :=
  match ring.core.claim ⟨.consumer, 1, false, exclusive⟩ with
  | (_, .short _) => none
  | (core, .granted reservation) =>
      some (core.read reservation.head,
        { ring with core := core.publish reservation exclusive })

end Ring

/-- On a memory at rest, a reservation just granted is the next of its side to
be published, also by the shared path. -/
theorem publish?_of_claim {α : Type} {core claimed : Core α} {request : Request}
    {reservation : Reservation} (rest : core.AtRest)
    (granted : core.claim request = (claimed, .granted reservation)) (exclusive : Bool) :
    claimed.publish? reservation exclusive =
      some (claimed.setTail reservation.side reservation.next) := by
  unfold Core.claim at granted
  split at granted
  case h_1 offer offered =>
    cases granted
    have head := Core.offer_head offered
    have side : reservation.side = request.side := by
      unfold Core.offer at offered
      simp only at offered
      split at offered <;> cases offered
      rfl
    obtain ⟨producers, consumers⟩ := rest
    unfold Core.publish?
    rw [head, side]
    cases request.side <;> simp [Core.setHead, Core.cursors, producers, consumers]
  case h_2 => cases granted

end RingPool

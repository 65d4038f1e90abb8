import RingPool.Interruption
import RingPool.Ring.Core

/-!
# Publishing a reservation, and counting what is published

A reservation is published by moving its side's tail to its end.  A shared
publication first waits until the tail has come to the start of its range, so
tails move in the order in which ranges were granted; an exclusive one stores
at once.

A count of the published entries is a call of its own, since it loads two
cursors, the consumers' tail first.
-/

set_option autoImplicit false

namespace RingPool

/-- Where a publication stands: about to load the tail, in a pause after it
found another tail, or about to store the tail. -/
inductive Publication.Phase where
  | check
  | pause
  | settle
  deriving DecidableEq, Repr

structure Publication where
  reservation : Reservation
  spins : Nat
  phase : Publication.Phase
  deriving DecidableEq, Repr

namespace Publication

variable {α : Type}

def start (reservation : Reservation) (exclusive : Bool) : Publication :=
  ⟨reservation, 0, if exclusive then .settle else .check⟩

def point (publication : Publication) : Option Point :=
  match publication.phase with
  | .check => some .load
  | .pause => some .spin
  | .settle => none

/-- One atomic step; the result is the number of pauses. -/
def step (core : Core α) (publication : Publication) : Core α × Progress Publication Nat :=
  let reservation := publication.reservation
  match publication.phase with
  | .check =>
      if (core.cursors reservation.side).tail = reservation.head then
        (core, .running { publication with phase := .settle })
      else (core, .running { publication with phase := .pause })
  | .pause => (core, .running ⟨reservation, publication.spins + 1, .check⟩)
  | .settle => (core.setTail reservation.side reservation.next, .returned publication.spins)

def procedure : Procedure (Core α) Publication Nat :=
  ⟨point, fun core publication _ => step core publication⟩

end Publication

/-- A publication that nobody interrupts: none if it would wait for ever, which
is when it is shared and its range is not the next of its side. -/
def Core.publish? {α : Type} (core : Core α) (reservation : Reservation) (exclusive : Bool) :
    Option (Core α) :=
  if exclusive || (core.cursors reservation.side).tail == reservation.head then
    some (core.setTail reservation.side reservation.next)
  else none

inductive Census where
  | start
  | seen (consumerTail : Cursor)
  deriving DecidableEq, Repr

namespace Census

variable {α : Type}

/-- One atomic step; the result is the count, kept to what a ring can hold. -/
def step (core : Core α) : Census → Core α × Progress Census UInt32
  | .start => (core, .running (.seen core.consumer.tail))
  | .seen consumerTail =>
      (core, .returned (min (core.producer.tail - consumerTail) core.capacity.mask))

def procedure : Procedure (Core α) Census UInt32 :=
  ⟨fun _ => some .load, fun core census _ => step core census⟩

/-- A count that nobody interrupts is the count at rest. -/
theorem step_seen_committed (core : Core α) :
    step core (.seen core.consumer.tail) = (core, .returned core.committed) := rfl

end Census

end RingPool

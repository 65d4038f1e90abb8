import RingPool.Ring.Basic

/-!
# Waiting for room or for an element

A blocking operation repeats its attempt until it succeeds or its deadline has
passed.  What happens between two attempts is not its own doing: each refused
attempt is followed by a `Pause`, which carries the reading of the clock and
what others do to the ring before the next attempt.  An operation that has
neither succeeded nor given up when its pauses run out is still waiting.

The clock is a parameter.  It may be unable to show the end of a timeout; then an operation has
no deadline and does not begin.
-/

set_option autoImplicit false

namespace RingPool

/-- What follows a refused attempt: a reading of the clock, and what others do
to the ring before the next attempt. -/
structure Pause (α : Type) where
  reading : Nat
  meanwhile : Ring α → Ring α

inductive Timeout where
  | infinite
  | nanoseconds (span : Nat)
  deriving DecidableEq, Repr

def Timeout.milliseconds (count : UInt64) : Timeout := .nanoseconds (count.toNat * 1000000)

structure ClockOverflow where
  deriving DecidableEq, Repr

/-- What is asked of a clock: the reading at which a span of nanoseconds ends that starts at
another, or that it cannot show it. -/
structure Clock where
  add (reading span : Nat) : Except ClockOverflow Nat

def Timeout.deadline (clock : Clock) (reading : Nat) :
    Timeout → Except ClockOverflow (Option Nat)
  | .infinite => .ok none
  | .nanoseconds span => (clock.add reading span).map some

/-- A deadline has passed once the clock shows more; without one it never
does. -/
def deadlinePassed (deadline : Option Nat) (reading : Nat) : Bool :=
  match deadline with
  | none => false
  | some last => last < reading

namespace Ring

variable {α : Type}

/-- Attempts to add an element until it succeeds (true) or gives up (false,
with the element still the caller's); none if it is still waiting. -/
def enqueueBlocking? (ring : Ring α) (item : α) (deadline : Option Nat) :
    List (Pause α) → Option (Ring α × Bool)
  | [] => (ring.enqueue? item false).map (·, true)
  | pause :: pauses =>
      match ring.enqueue? item false with
      | some ring => some (ring, true)
      | none =>
          if deadlinePassed deadline pause.reading then some (ring, false)
          else (pause.meanwhile ring).enqueueBlocking? item deadline pauses

def dequeueBlocking? (ring : Ring α) (deadline : Option Nat) :
    List (Pause α) → Option (Ring α × Option α)
  | [] => (ring.dequeue? false).map fun (item, ring) => (ring, some item)
  | pause :: pauses =>
      match ring.dequeue? false with
      | some (item, ring) => some (ring, some item)
      | none =>
          if deadlinePassed deadline pause.reading then some (ring, none)
          else (pause.meanwhile ring).dequeueBlocking? deadline pauses

end Ring

/-- The pauses of an operation that nobody comes to help: time goes by and
nothing else, so the first reading may as well be the one past the deadline. -/
def idlePauses {α : Type} (deadline : Option Nat) : List (Pause α) :=
  match deadline with
  | none => []
  | some last => [⟨last + 1, id⟩]

end RingPool

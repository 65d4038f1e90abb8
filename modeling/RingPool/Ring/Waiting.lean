import RingPool.Ring.Blocking
import RingPool.Ring.Operations

/-!
# Blocking operations of many actors on one ring

A blocking operation is a loop around transfers of one element.  It fixes its deadline once, and
then makes attempt after attempt until one succeeds, or until one is refused and the clock then
shows more than the deadline.  A `WaitingRing` is a ring with actors at work and with the loops
that some of them are within.  Each attempt is a transfer with atomic steps of its own, and so
others act between two attempts and during them.

An element that is to be stored goes into each attempt and comes back out of one that is refused.
The loop goes on with what came back.
-/

set_option autoImplicit false

namespace RingPool

inductive Errand (α : Type) where
  | enqueue (item : α)
  | dequeue

inductive WaitAnswer (α : Type) where
  | stored
  | handedBack (item : α)
  | taken (item : α)
  | nothing
  deriving DecidableEq, Repr

namespace Errand

variable {α : Type}

def order : Errand α → RingOrder α
  | .enqueue item => .enqueue item
  | .dequeue => .dequeue

def afterAttempt (errand : Errand α) : RingReceipt α → Progress (Errand α) (WaitAnswer α)
  | .stored _ _ _ => .returned .stored
  | .full (item :: _) => .running (.enqueue item)
  | .taken (item :: _) => .returned (.taken item)
  | .full [] | .exceeded _ _ | .taken [] => .running errand

def givenUp : Errand α → WaitAnswer α
  | .enqueue item => .handedBack item
  | .dequeue => .nothing

end Errand

/-- Where a loop stands: about to make an attempt, within one, or after one that was refused,
about to test the deadline. -/
inductive WaitStage where
  | ready
  | attempting
  | refused
  deriving DecidableEq, Repr

structure Wait (α : Type) where
  errand : Errand α
  deadline : Option Nat
  stage : WaitStage

structure WaitingRing (actors : Nat) (α : Type) where
  busy : BusyRing actors α
  waits : Fin actors → Option (Wait α)

def RingAct.actor {actors : Nat} {α : Type} : RingAct actors α → Fin actors
  | .start actor _ _ | .count actor | .advance actor _ => actor

inductive WaitAct (actors : Nat) (α : Type) where
  /-- An act of an actor that is not within a blocking operation. -/
  | ring (act : RingAct actors α)
  /-- The start of a blocking operation, at a reading of the clock. -/
  | wait (actor : Fin actors) (errand : Errand α) (timeout : Timeout) (reading : Nat)
  /-- A further step of the actor's blocking operation.  `refused` makes a compare-exchange of an
  attempt fail; `reading` is what the clock shows if the step tests the deadline. -/
  | advance (actor : Fin actors) (refused : Bool) (reading : Nat)

/-- What is observed: the result of a transfer or of a count, a test of a deadline, a deadline
that no clock can show, and what a blocking operation returns. -/
inductive WaitEvent (actors : Nat) (α : Type) where
  | reported (report : RingReport actors α)
  | tested (actor : Fin actors) (reading : Nat)
  | overflowed (actor : Fin actors)
  | answered (actor : Fin actors) (answer : WaitAnswer α)

namespace WaitingRing

variable {actors : Nat} {α : Type}

def start (capacity : Capacity) (policy : TransferPolicy) (watermark : Option UInt32) (blank : α)
    (origin : Cursor) : WaitingRing actors α :=
  ⟨.start capacity policy watermark blank origin, fun _ => none⟩

def looped (waiting : WaitingRing actors α) (actor : Fin actors) (busy : BusyRing actors α)
    (wait : Option (Wait α)) : WaitingRing actors α where
  busy := busy
  waits := fun other => if other = actor then wait else waiting.waits other

def stepWait (waiting : WaitingRing actors α) (actor : Fin actors) (refused : Bool) (reading : Nat)
    (wait : Wait α) : WaitingRing actors α × List (WaitEvent actors α) :=
  match wait.stage with
  | .ready =>
      (waiting.looped actor (waiting.busy.next (.start actor wait.errand.order false)).1
        (some { wait with stage := .attempting }), [])
  | .attempting =>
      match waiting.busy.next (.advance actor refused) with
      | (busy, some (.moved _ order receipt)) =>
          match wait.errand.afterAttempt receipt with
          | .running errand =>
              (waiting.looped actor busy (some ⟨errand, wait.deadline, .refused⟩),
                [.reported (.moved actor order receipt)])
          | .returned answer =>
              (waiting.looped actor busy none,
                [.reported (.moved actor order receipt), .answered actor answer])
      | (busy, _) => (waiting.looped actor busy (some wait), [])
  | .refused =>
      if deadlinePassed wait.deadline reading then
        (waiting.looped actor waiting.busy none,
          [.tested actor reading, .answered actor wait.errand.givenUp])
      else
        (waiting.looped actor waiting.busy (some { wait with stage := .ready }),
          [.tested actor reading])

/-- Makes an act and lists what is observed; an act out of place changes nothing. -/
def next (waiting : WaitingRing actors α) (clock : Clock) :
    WaitAct actors α → WaitingRing actors α × List (WaitEvent actors α)
  | .ring act =>
      match waiting.waits act.actor with
      | some _ => (waiting, [])
      | none =>
          let (busy, report) := waiting.busy.next act
          ({ waiting with busy }, report.toList.map .reported)
  | .wait actor errand timeout reading =>
      match waiting.waits actor, waiting.busy.tasks actor with
      | none, none =>
          match timeout.deadline clock reading with
          | .ok deadline =>
              (waiting.looped actor waiting.busy (some ⟨errand, deadline, .ready⟩), [])
          | .error _ => (waiting, [.overflowed actor])
      | _, _ => (waiting, [])
  | .advance actor refused reading =>
      match waiting.waits actor with
      | some wait => waiting.stepWait actor refused reading wait
      | none => (waiting, [])

def run (waiting : WaitingRing actors α) (clock : Clock) :
    List (WaitAct actors α) → WaitingRing actors α × List (WaitEvent actors α)
  | [] => (waiting, [])
  | act :: acts =>
      let (after, events) := waiting.next clock act
      let (final, later) := after.run clock acts
      (final, events ++ later)

end WaitingRing

end RingPool

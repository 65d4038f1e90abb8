/-!
# Calls cut at their atomic steps, and calls that others interrupt

A call on shared memory is a value that says how far the call has come, and a
`Procedure` gives its next atomic step.  Some steps stand at a watched `Point`:
just before them other actors may act.  `Procedure.replay` runs one call to its
end while given `Interrupt`s act at the k-th event of a kind; it serves to
replay one interleaving exactly.  A call that comes to its ninth pause is
abandoned, so that a replay always ends.

Runs of many calls at once use the same steps; this module says nothing about
them.
-/

set_option autoImplicit false

namespace RingPool

/-- The kinds of atomic event before which other actors may act: an acquiring
load, a compare-exchange, a pause of a waiting loop, a swap and a linking
store. -/
inductive Point where
  | load
  | exchange
  | spin
  | swap
  | store
  deriving DecidableEq, Repr

inductive Progress (Call Result : Type) where
  | running (call : Call)
  | returned (result : Result)
  deriving Repr

/-- The atomic steps of a kind of call.  `step` takes the memory and the call;
its flag tells a compare-exchange to fail although the values may match. -/
structure Procedure (Memory Call Result : Type) where
  point : Call → Option Point
  step : Memory → Call → Bool → Memory × Progress Call Result

/-- The same calls on a memory of which the old one is a part. -/
def Procedure.within {Part Whole Call Result : Type}
    (procedure : Procedure Part Call Result)
    (part : Whole → Part) (withPart : Whole → Part → Whole) :
    Procedure Whole Call Result where
  point := procedure.point
  step := fun whole call refused =>
    let (changed, progress) := procedure.step (part whole) call refused
    (withPart whole changed, progress)

/-- What an interruption leaves behind: the memory, the answers that the
intruders got, and whether the event that it precedes is to fail. -/
structure Intrusion (Memory Answer : Type) where
  memory : Memory
  answers : List Answer
  refused : Bool

/-- Acts of others just before the event of the given kind and number, counted
from one within the interrupted call. -/
structure Interrupt (Memory Answer : Type) where
  point : Point
  occurrence : Nat
  act : Memory → Intrusion Memory Answer

inductive Ending (Result : Type) where
  | returned (result : Result)
  | abandoned
  deriving Repr

/-- A replayed call: the memory after it, its end, and the answers of all
intruders in the order in which they acted. -/
structure Replay (Memory Result Answer : Type) where
  memory : Memory
  ending : Ending Result
  answers : List Answer

/-- The number of pauses after which a waiting call is given up. -/
def spinLimit : Nat := 8

section
variable {Memory Call Result Answer : Type}

def intrude (interrupts : List (Interrupt Memory Answer)) (point : Point) (occurrence : Nat)
    (memory : Memory) : Intrusion Memory Answer :=
  interrupts.foldl
    (fun before interrupt =>
      if interrupt.point = point ∧ interrupt.occurrence = occurrence then
        let after := interrupt.act before.memory
        ⟨after.memory, before.answers ++ after.answers, before.refused || after.refused⟩
      else before)
    ⟨memory, [], false⟩

/-- `replayFrom` with an explicit bound on the number of steps.  `passed` holds
the events that the call has come to. -/
def Procedure.replayFrom (procedure : Procedure Memory Call Result)
    (interrupts : List (Interrupt Memory Answer)) :
    Nat → List Point → List Answer → Memory → Call → Replay Memory Result Answer
  | 0, _, answers, memory, _ => ⟨memory, .abandoned, answers⟩
  | steps + 1, passed, answers, memory, call =>
      match procedure.point call with
      | none =>
          match procedure.step memory call false with
          | (memory, .returned result) => ⟨memory, .returned result, answers⟩
          | (memory, .running call) =>
              procedure.replayFrom interrupts steps passed answers memory call
      | some point =>
          let occurrence := passed.count point + 1
          if point = .spin ∧ spinLimit < occurrence then ⟨memory, .abandoned, answers⟩
          else
            let intrusion := intrude interrupts point occurrence memory
            let answers := answers ++ intrusion.answers
            match procedure.step intrusion.memory call intrusion.refused with
            | (memory, .returned result) => ⟨memory, .returned result, answers⟩
            | (memory, .running call) =>
                procedure.replayFrom interrupts steps (point :: passed) answers memory call

/-- Runs a call to its end under the given interrupts.  Each round of a retry
loop but the last is due to an interrupt and each round of a waiting loop to a
pause, which bounds the steps. -/
def Procedure.replay (procedure : Procedure Memory Call Result)
    (interrupts : List (Interrupt Memory Answer)) (memory : Memory) (call : Call) :
    Replay Memory Result Answer :=
  procedure.replayFrom interrupts (4 * (interrupts.length + spinLimit + 4)) [] [] memory call

def Procedure.alone (procedure : Procedure Memory Call Result) :
    Nat → Memory → Call → Memory × Ending Result
  | 0, memory, _ => (memory, .abandoned)
  | steps + 1, memory, call =>
      match procedure.step memory call false with
      | (memory, .returned result) => (memory, .returned result)
      | (memory, .running call) => procedure.alone steps memory call

end

end RingPool

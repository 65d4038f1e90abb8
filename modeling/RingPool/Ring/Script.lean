import RingPool.Script
import RingPool.Ring.Claim
import RingPool.Ring.Publication

/-!
# Scripts on one ring memory

These scripts drive the memory of a ring call by call, below the level of ring
operations: they claim, publish, read and write as they like, whether or not a
disciplined user would.

Reservations are known by number, in the order in which their claims return.
A granted producer claim fills its range with consecutive numbers.
-/

set_option autoImplicit false

namespace RingPool

inductive CoreAction where
  | claim (request : Request) (first : UInt64)
  | publish (number : Nat) (exclusive : Bool)
  | read (number : Nat)
  | write (number : Nat) (offset : UInt32) (value : UInt64)
  | index (number : Nat) (offset : UInt32)
  | census
  /-- A step that cannot be read because of a field.  If it names a reservation,
  that is looked up first. -/
  | malformed (field : String) (number : Option Nat)

inductive CoreReply where
  | granted (number : Nat) (reservation : Reservation) (attempts : Nat)
  | short (available : UInt32) (attempts : Nat)
  | published (spins : Nat)
  | abandoned
  | unknownReservation
  | values (numbers : List UInt64)
  | written
  | index (cursor : Cursor)
  | census (count : UInt32)
  | malformed (field : String)

structure CoreStage where
  core : Core UInt64
  granted : Array Reservation

namespace CoreStage

def create (capacity : Capacity) (origin : Cursor) : CoreStage :=
  ⟨.create capacity 0 origin, #[]⟩

def withCore (stage : CoreStage) (core : Core UInt64) : CoreStage := { stage with core }

def grant (stage : CoreStage) (reservation : Reservation) : CoreStage :=
  { stage with granted := stage.granted.push reservation }

def span (stage : CoreStage) (reservation : Reservation) : Nat :=
  min reservation.len.toNat stage.core.capacity.size

def fill (stage : CoreStage) (reservation : Reservation) (first : UInt64) : CoreStage :=
  match reservation.side with
  | .consumer => stage
  | .producer =>
      stage.withCore (stage.core.writeRange reservation.head
        ((List.range (stage.span reservation)).map fun offset => first + UInt64.ofNat offset))

def replay {Call Result : Type} (stage : CoreStage)
    (interrupts : List (Interrupt CoreStage (ScriptAnswer CoreReply)))
    (procedure : Procedure (Core UInt64) Call Result) (call : Call)
    (finish : CoreStage → Result → CoreStage × CoreReply) :
    CoreStage × ScriptAnswer CoreReply :=
  let replay := (procedure.within core withCore).replay interrupts stage call
  match replay.ending with
  | .abandoned => (replay.memory, ⟨.abandoned, replay.answers⟩)
  | .returned result =>
      let (stage, reply) := finish replay.memory result
      (stage, ⟨reply, replay.answers⟩)

def withReservation (stage : CoreStage) (number : Nat)
    (use : Reservation → CoreStage × ScriptAnswer CoreReply) :
    CoreStage × ScriptAnswer CoreReply :=
  match stage.granted[number]? with
  | none => (stage, ⟨.unknownReservation, []⟩)
  | some reservation => use reservation

def perform : Performer CoreAction CoreStage CoreReply := fun interrupts stage action =>
  match action with
  | .claim request first =>
      stage.replay interrupts Claim.procedure (Claim.start stage.core request)
        fun stage result =>
          match result with
          | ⟨.short available, attempts⟩ => (stage, .short available attempts)
          | ⟨.granted reservation, attempts⟩ =>
              ((stage.fill reservation first).grant reservation,
                .granted stage.granted.size reservation attempts)
  | .publish number exclusive =>
      stage.withReservation number fun reservation =>
        stage.replay interrupts Publication.procedure (Publication.start reservation exclusive)
          fun stage spins => (stage, .published spins)
  | .read number =>
      stage.withReservation number fun reservation =>
        (stage, ⟨.values (stage.core.readRange reservation.head (stage.span reservation)), []⟩)
  | .write number offset value =>
      stage.withReservation number fun reservation =>
        (stage.withCore (stage.core.write (reservation.index offset) value), ⟨.written, []⟩)
  | .index number offset =>
      stage.withReservation number fun reservation =>
        (stage, ⟨.index (reservation.index offset), []⟩)
  | .census =>
      stage.replay interrupts Census.procedure .start fun stage count => (stage, .census count)
  | .malformed field none => (stage, ⟨.malformed field, []⟩)
  | .malformed field (some number) =>
      stage.withReservation number fun _ => (stage, ⟨.malformed field, []⟩)

/-- Runs a script; each answer goes with the number of published entries after
the step. -/
def run (stage : CoreStage) (steps : List (ScriptStep CoreAction)) :
    CoreStage × List (ScriptAnswer CoreReply × UInt32) :=
  runScript perform (fun stage => stage.core.committed) stage steps

end CoreStage

end RingPool

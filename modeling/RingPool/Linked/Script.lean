import RingPool.Script
import RingPool.Linked.Queue

/-!
# Scripts on one linked queue

These scripts push, pop and check for emptiness with intruders at the atomic
steps.  A stalled push holds its link back; the link gets the next number and
is made by a later step, or when the script ends.  There is one consumer: while
it is within a call, its other calls are refused.
-/

set_option autoImplicit false

namespace RingPool

inductive LinkedAction where
  | push (value : String) (stalled : Bool)
  | link (number : Nat)
  | pop
  | isEmpty
  /-- A step that cannot be read because of a field. -/
  | malformed (field : String)

inductive LinkedReply where
  | pushed (held : Option Nat)
  | linked
  | unknownLink
  | popped (value : Option String) (spins : Nat)
  | isEmpty (answer : Bool)
  | abandoned
  | refused
  | malformed (field : String)
  /-- A step came to a node that is not live. -/
  | deadNode (address : Address)

/-- The queue that a script works on, the links held back (none once made), and
whether the consumer is within a call. -/
structure LinkedStage where
  queue : LinkedQueue String
  held : Array (Option (Address × Address))
  consuming : Bool

namespace LinkedStage

def create : LinkedStage := ⟨.empty, #[], false⟩

def withQueue (stage : LinkedStage) (queue : LinkedQueue String) : LinkedStage :=
  { stage with queue }

def pushing (stalled : Bool) :
    Procedure LinkedStage (Push String) (Except DeadNode (Option Nat)) where
  point := Push.point
  step := fun stage push _ =>
    match push, stalled with
    | .link before after, true =>
        ({ stage with held := stage.held.push (some (before, after)) },
          .returned (.ok (some stage.held.size)))
    | _, _ =>
        match push.step stage.queue stage.queue.heap.fresh with
        | .error dead => (stage, .returned (.error dead))
        | .ok (queue, .running push) => (stage.withQueue queue, .running push)
        | .ok (queue, .returned ()) => (stage.withQueue queue, .returned (.ok none))

def replay {Call Result : Type} (stage : LinkedStage)
    (interrupts : List (Interrupt LinkedStage (ScriptAnswer LinkedReply)))
    (procedure : Procedure LinkedStage Call (Except DeadNode Result)) (call : Call)
    (reply : Result → LinkedReply) : LinkedStage × ScriptAnswer LinkedReply :=
  let replay := procedure.replay interrupts stage call
  let reply := match replay.ending with
    | .abandoned => .abandoned
    | .returned (.error dead) => .deadNode dead.address
    | .returned (.ok result) => reply result
  (replay.memory, ⟨reply, replay.answers⟩)

def consume (stage : LinkedStage)
    (call : LinkedStage → LinkedStage × ScriptAnswer LinkedReply) :
    LinkedStage × ScriptAnswer LinkedReply :=
  if stage.consuming then (stage, ⟨.refused, []⟩)
  else
    let (stage, answer) := call { stage with consuming := true }
    ({ stage with consuming := false }, answer)

def release (stage : LinkedStage) (number : Nat) : LinkedStage × LinkedReply :=
  match stage.held[number]? with
  | some (some (before, after)) =>
      match stage.queue.link before after with
      | .error dead => (stage, .deadNode dead.address)
      | .ok queue => ({ stage with queue, held := stage.held.setIfInBounds number none }, .linked)
  | _ => (stage, .unknownLink)

def perform : Performer LinkedAction LinkedStage LinkedReply := fun interrupts stage action =>
  match action with
  | .push value stalled =>
      stage.replay interrupts (pushing stalled) (.create value) .pushed
  | .link number =>
      let (stage, reply) := stage.release number
      (stage, ⟨reply, []⟩)
  | .pop =>
      stage.consume fun stage =>
        stage.replay interrupts (Pop.procedure.within queue withQueue) .start
          fun result => .popped result.value result.spins
  | .isEmpty =>
      stage.consume fun stage =>
        stage.replay interrupts (EmptyCheck.procedure.within queue withQueue) .look .isEmpty
  | .malformed field => (stage, ⟨.malformed field, []⟩)

def releaseAll (stage : LinkedStage) : LinkedStage :=
  (List.range stage.held.size).foldl (fun stage number => (stage.release number).1) stage

def run (stage : LinkedStage) (steps : List (ScriptStep LinkedAction)) :
    List (ScriptAnswer LinkedReply) × List String :=
  let (final, answers) := runScript perform (fun _ => ()) stage steps
  (answers.map Prod.fst, final.releaseAll.queue.leftovers)

end LinkedStage

end RingPool

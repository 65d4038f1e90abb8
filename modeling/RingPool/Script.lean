import RingPool.Interruption

/-!
# Scripts: exact interleavings

A script is a list of steps.  A step may carry intruders, which say what other
actors do just before a given event of its call; their steps may carry
intruders of their own.  So a script fixes one interleaving of all its calls.

What a single call does is left open here: a `Performer` runs one action under
given interrupts, and `ScriptStep.run` turns intruders into interrupts.
-/

set_option autoImplicit false

namespace RingPool

mutual

/-- A step of a script; `refuse` makes the event that it precedes fail. -/
inductive ScriptStep (Action : Type) where
  | act (action : Action) (intruders : List (Intruder Action))
  | refuse

/-- Steps that others take just before an event of a call. -/
inductive Intruder (Action : Type) where
  | mk (point : Point) (occurrence : Nat) (steps : List (ScriptStep Action))

end

instance {Action : Type} : Inhabited (ScriptStep Action) := ⟨.refuse⟩

inductive ScriptAnswer (Reply : Type) where
  | mk (reply : Reply) (intruders : List (ScriptAnswer Reply))

abbrev Performer (Action Stage Reply : Type) :=
  List (Interrupt Stage (ScriptAnswer Reply)) → Stage → Action → Stage × ScriptAnswer Reply

section
variable {Action Stage Reply : Type}

mutual

def ScriptStep.run (perform : Performer Action Stage Reply) :
    ScriptStep Action → Stage → Intrusion Stage (ScriptAnswer Reply)
  | .act action intruders => fun stage =>
      let (stage, answer) := perform (Intruder.interrupts perform intruders) stage action
      ⟨stage, [answer], false⟩
  | .refuse => fun stage => ⟨stage, [], true⟩

def ScriptStep.runAll (perform : Performer Action Stage Reply) :
    List (ScriptStep Action) → Stage → Intrusion Stage (ScriptAnswer Reply)
  | [] => fun stage => ⟨stage, [], false⟩
  | step :: steps => fun stage =>
      let before := ScriptStep.run perform step stage
      let after := ScriptStep.runAll perform steps before.memory
      ⟨after.memory, before.answers ++ after.answers, before.refused || after.refused⟩

def Intruder.interrupt (perform : Performer Action Stage Reply) :
    Intruder Action → Interrupt Stage (ScriptAnswer Reply)
  | .mk point occurrence steps => ⟨point, occurrence, ScriptStep.runAll perform steps⟩

def Intruder.interrupts (perform : Performer Action Stage Reply) :
    List (Intruder Action) → List (Interrupt Stage (ScriptAnswer Reply))
  | [] => []
  | intruder :: rest =>
      Intruder.interrupt perform intruder :: Intruder.interrupts perform rest

end

/-- Runs a script; each answer goes with what is `seen` of the stage after the
step. -/
def runScript {View : Type} (perform : Performer Action Stage Reply) (seen : Stage → View)
    (stage : Stage) :
    List (ScriptStep Action) → Stage × List (ScriptAnswer Reply × View)
  | [] => (stage, [])
  | step :: steps =>
      let outcome := step.run perform stage
      let (final, answers) := runScript perform seen outcome.memory steps
      (final, outcome.answers.map (·, seen outcome.memory) ++ answers)

end

end RingPool

import RingPool.Pool.Basic

/-!
# The guards on the workers of a pool

A worker is used through a guard.  A `GuardedPool` is a pool with all guards that its claims
gave, each under the number of its claim and within a call or not, until it is dropped.  A
`GuardMove` claims a worker, drops a guard, starts a call through a guard or makes one further
step of such a call; who makes it does not matter, as a guard may pass from one thread to another
between its calls.

The flag in a slot says that there is a guard, but no guard looks at it: one that is dropped
clears the flag whatever it is, and one that works on its slot does not ask.  A guard is used for
one call at a time, and is not dropped during that; other moves out of place change nothing.
-/

set_option autoImplicit false

namespace RingPool

structure Guard (α : Type) where
  worker : UInt64
  call : Option (WorkerPhase α)

/-- Whether this is a guard on the worker's slot; a guard that was dropped is none. -/
def Guard.isOn {α : Type} (id : UInt64) : Option (Guard α) → Bool
  | some guard => guard.worker == id
  | none => false

structure GuardedPool (Source α : Type) where
  pool : Pool Source α
  guards : List (Option (Guard α))

inductive GuardMove (α : Type) where
  | claim (id : UInt64)
  | drop (guard : Nat)
  | alloc (guard : Nat)
  | free (guard : Nat) (object : α)
  | flush (guard : Nat)
  /-- A further step of the call that a guard is within. -/
  | advance (guard : Nat)

/-- What is observed when a claim is answered, with the number of the new guard or an error, or
when a call returns. -/
inductive GuardEvent (α : Type) where
  | claimed (id : UInt64) (answer : Except PoolError Nat)
  | returned (guard : Nat) (outcome : WorkerOutcome α)

namespace GuardedPool

variable {Source α : Type}

def start (pool : Pool Source α) : GuardedPool Source α := ⟨pool, []⟩

def alive (system : GuardedPool Source α) (id : UInt64) : Nat :=
  system.guards.countP (Guard.isOn id)

def setGuard (system : GuardedPool Source α) (number : Nat) (guard : Option (Guard α)) :
    GuardedPool Source α :=
  { system with guards := system.guards.set number guard }

def enter (system : GuardedPool Source α) (number : Nat) (phase : WorkerPhase α) :
    GuardedPool Source α :=
  match system.guards[number]? with
  | some (some ⟨worker, none⟩) => system.setGuard number (some ⟨worker, some phase⟩)
  | some (some ⟨_, some _⟩) | some none | none => system

def next [ObjectSource Source α] (system : GuardedPool Source α) :
    GuardMove α → GuardedPool Source α × Option (GuardEvent α)
  | .claim id =>
      match system.pool.claim id with
      | .ok pool =>
          ({ pool, guards := system.guards ++ [some ⟨id, none⟩] },
            some (.claimed id (.ok system.guards.length)))
      | .error refusal => (system, some (.claimed id (.error refusal)))
  | .drop number =>
      match system.guards[number]? with
      | some (some ⟨worker, none⟩) =>
          ({ system with pool := system.pool.release worker }.setGuard number none, none)
      | some (some ⟨_, some _⟩) | some none | none => (system, none)
  | .alloc number => (system.enter number .hit, none)
  | .free number object => (system.enter number (.put object), none)
  | .flush number => (system.enter number .check, none)
  | .advance number =>
      match system.guards[number]? with
      | some (some ⟨worker, some phase⟩) =>
          match system.pool.workplace? worker with
          | some place =>
              let (place, progress) := place.step system.pool.config phase
              let after := { system with pool := system.pool.withWorkplace worker place }
              match progress with
              | .running phase => (after.setGuard number (some ⟨worker, some phase⟩), none)
              | .returned outcome =>
                  (after.setGuard number (some ⟨worker, none⟩), some (.returned number outcome))
          | none => (system, none)
      | some (some ⟨_, none⟩) | some none | none => (system, none)

def run [ObjectSource Source α] (system : GuardedPool Source α) :
    List (GuardMove α) → GuardedPool Source α × List (GuardEvent α)
  | [] => (system, [])
  | move :: moves =>
      let (after, event) := system.next move
      let (final, events) := after.run moves
      (final, event.toList ++ events)

end GuardedPool

end RingPool

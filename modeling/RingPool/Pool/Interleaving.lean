import RingPool.Pool.Basic

/-!
# Many workers of one pool

A `PoolSystem` is a pool whose workers are each within a call or not, together with
the objects that callers hold.  A `PoolMove` claims or gives up a worker, starts
a call of a claimed worker, or makes one further step of its call; a step is
one call on a ring or on the source.  A move out of place changes nothing.
-/

set_option autoImplicit false

namespace RingPool

/-- A pool with its workers at work. -/
structure PoolSystem (Source α : Type) where
  pool : Pool Source α
  /-- The call that a worker is within. -/
  calls : UInt64 → Option (WorkerPhase α)
  /-- The objects that callers hold, the latest first. -/
  held : List α

inductive PoolMove (α : Type) where
  | claim (id : UInt64)
  | release (id : UInt64)
  | alloc (id : UInt64)
  /-- Starts to return an object that a caller holds. -/
  | free (id : UInt64) (object : α)
  | flush (id : UInt64)
  /-- A further step of a worker's call. -/
  | advance (id : UInt64)
  deriving DecidableEq, Repr

inductive PoolEvent (α : Type) where
  | claimed (id : UInt64) (refusal : Option PoolError)
  | returned (id : UInt64) (outcome : WorkerOutcome α)

namespace PoolSystem

variable {Source α : Type}

def start (pool : Pool Source α) : PoolSystem Source α := ⟨pool, fun _ => none, []⟩

def setCall (system : PoolSystem Source α) (id : UInt64) (call : Option (WorkerPhase α)) :
    PoolSystem Source α :=
  { system with calls := fun other => if other = id then call else system.calls other }

def isReady (system : PoolSystem Source α) (id : UInt64) : Bool :=
  system.pool.isClaimed id && (system.calls id).isNone

def receive (system : PoolSystem Source α) : WorkerOutcome α → PoolSystem Source α
  | .served (some object) => { system with held := object :: system.held }
  | _ => system

def next [ObjectSource Source α] [DecidableEq α] (system : PoolSystem Source α) :
    PoolMove α → PoolSystem Source α × Option (PoolEvent α)
  | .claim id =>
      match system.pool.claim id with
      | .ok pool => ({ system with pool }, some (.claimed id none))
      | .error refusal => (system, some (.claimed id (some refusal)))
  | .release id =>
      if system.isReady id then ({ system with pool := system.pool.release id }, none)
      else (system, none)
  | .alloc id => (if system.isReady id then system.setCall id (some .hit) else system, none)
  | .free id object =>
      if system.isReady id ∧ object ∈ system.held then
        (({ system with held := system.held.erase object }).setCall id (some (.put object)), none)
      else (system, none)
  | .flush id => (if system.isReady id then system.setCall id (some .check) else system, none)
  | .advance id =>
      match system.calls id, system.pool.workplace? id with
      | some phase, some place =>
          let (place, progress) := place.step system.pool.config phase
          let after := { system with pool := system.pool.withWorkplace id place }
          match progress with
          | .running phase => (after.setCall id (some phase), none)
          | .returned outcome =>
              ((after.setCall id none).receive outcome, some (.returned id outcome))
      | _, _ => (system, none)

def run [ObjectSource Source α] [DecidableEq α] (system : PoolSystem Source α) :
    List (PoolMove α) → PoolSystem Source α × List (PoolEvent α)
  | [] => (system, [])
  | move :: moves =>
      let (after, event) := system.next move
      let (final, events) := after.run moves
      (final, event.toList ++ events)

def inTransit : WorkerPhase α → List α
  | .stock object rest => object :: rest
  | .measure object => [object]
  | .gather object _ burst => object :: burst.toList
  | .stow object burst => object :: burst.toList
  | .put object => [object]
  | .retry object => [object]
  | .unload onward => held onward
  | .offload bulk onward => bulk ++ held onward
  | .reclaim object rest _ onward => object :: rest ++ held onward
  | _ => []
where
  /-- The object that a worker keeps meanwhile. -/
  held : Onward α → List α
    | .serve object => [object]
    | .retry object => [object]
    | .check => []

end PoolSystem

end RingPool

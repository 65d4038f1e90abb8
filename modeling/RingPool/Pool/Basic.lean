import RingPool.Pool.Worker

/-!
# Pools of recyclable objects

A `Pool` is a sizing, a shared ring, a slot for each worker and a source.  A
worker's slot is used through a guard: `Pool.claim` gives one if no other guard
on the slot is held, `Pool.release` gives it up.  The calls of a worker that
nobody interrupts are runs of its steps.  When a pool goes, it hands all cached
objects back to the source: the caches in the order of the workers, then the
shared ring, each front to back.
-/

set_option autoImplicit false

namespace RingPool

inductive PoolError where
  | config (fault : ConfigError)
  | prealloc (requested obtained : UInt32)
  | unknownWorker (id : UInt64) (workers : Nat)
  | workerBusy (id : UInt64)
  deriving DecidableEq, Repr

namespace PoolError

def message : PoolError → String
  | .config fault => "invalid pool configuration: " ++ fault.message
  | .prealloc requested obtained =>
      s!"object source produced {obtained} of {requested} preallocated objects"
  | .unknownWorker id workers => s!"worker {id} out of range (pool has {workers} workers)"
  | .workerBusy id => s!"worker {id} is already claimed"

def causes : PoolError → List String
  | .config fault => fault.message :: fault.causes
  | _ => []

end PoolError

def Ring.drainUpTo {α : Type} : Nat → Ring α → Array α → Ring α × Array α
  | 0, ring, taken => (ring, taken)
  | steps + 1, ring, taken =>
      match ring.dequeue? false with
      | none => (ring, taken)
      | some (item, ring) => Ring.drainUpTo steps ring (taken.push item)

/-- Takes all elements out of a ring; there are fewer than it has slots. -/
def Ring.drain {α : Type} (ring : Ring α) : Ring α × List α :=
  let (ring, taken) := Ring.drainUpTo ring.core.capacity.size ring #[]
  (ring, taken.toList)

/-- A ring for pooled objects: it moves as much of a bulk as fits. -/
def Ring.forObjects {α : Type} [Inhabited α] (capacity : Capacity) : Ring α :=
  ⟨.create capacity default 0, .burst, none⟩

def WorkerSlot.create {α : Type} [Inhabited α] (capacity : Capacity) : WorkerSlot α :=
  ⟨false, .forObjects capacity, .zero⟩

structure Pool (Source α : Type) where
  config : PoolConfig
  shared : Ring α
  slots : Array (WorkerSlot α)
  source : Source

namespace Pool

variable {Source α : Type}

/-- Hands all cached objects back to the source; the second component is their
number. -/
def drain [ObjectSource Source α] (pool : Pool Source α) : Pool Source α × Nat :=
  let drained := pool.slots.map fun slot =>
    let (cache, objects) := slot.cache.drain
    ({ slot with cache }, objects)
  let (shared, objects) := pool.shared.drain
  let returned := (drained.toList.flatMap Prod.snd) ++ objects
  ({ pool with
      shared
      slots := drained.map Prod.fst
      source := ObjectSource.freeAll pool.source returned },
    returned.length)

def destroy [ObjectSource Source α] (pool : Pool Source α) : Source × Nat :=
  let (drained, released) := pool.drain
  (drained.source, released)

/-- A pool whose shared ring holds the objects that the sizing asks for in
advance, as far as they fit.  If the source fails before it has given them all,
there is no pool and what it gave is handed back. -/
def create [Inhabited α] [ObjectSource Source α] (config : PoolConfig) (source : Source) :
    Except (PoolError × Source) (Pool Source α) :=
  match config.check with
  | .error fault => .error (.config fault, source)
  | .ok (localCapacity, sharedCapacity) =>
      let requested := min config.prealloc sharedCapacity.mask
      let (objects, source) := ObjectSource.allocUpTo source requested.toNat #[]
      let (shared, _, _) := (Ring.forObjects sharedCapacity).offerBulk objects.toList
      let pool : Pool Source α :=
        ⟨config, shared, Array.replicate config.workers.toNat (.create localCapacity), source⟩
      if objects.size < requested.toNat then
        .error (.prealloc requested (UInt32.ofNat objects.size), pool.destroy.1)
      else .ok pool

def claim (pool : Pool Source α) (id : UInt64) : Except PoolError (Pool Source α) :=
  match pool.slots[id.toNat]? with
  | none => .error (.unknownWorker id pool.slots.size)
  | some slot =>
      if slot.claimed then .error (.workerBusy id)
      else .ok { pool with
        slots := pool.slots.setIfInBounds id.toNat { slot with claimed := true } }

def release (pool : Pool Source α) (id : UInt64) : Pool Source α :=
  { pool with slots := pool.slots.modify id.toNat fun slot => { slot with claimed := false } }

def isClaimed (pool : Pool Source α) (id : UInt64) : Bool :=
  (pool.slots[id.toNat]?).any WorkerSlot.claimed

def sharedCount (pool : Pool Source α) : UInt32 := pool.shared.count

def localCount? (pool : Pool Source α) (id : UInt64) : Option UInt32 :=
  (pool.slots[id.toNat]?).map fun slot => slot.cache.count

def stats? (pool : Pool Source α) (id : UInt64) : Option WorkerStats :=
  (pool.slots[id.toNat]?).map WorkerSlot.stats

def workplace? (pool : Pool Source α) (id : UInt64) : Option (Workplace Source α) :=
  (pool.slots[id.toNat]?).map fun slot => ⟨slot, pool.shared, pool.source⟩

def withWorkplace (pool : Pool Source α) (id : UInt64) (place : Workplace Source α) :
    Pool Source α :=
  { pool with
    slots := pool.slots.setIfInBounds id.toNat place.slot
    shared := place.shared
    source := place.source }

/-- More steps than any uninterrupted call of a worker takes: a flush moves each
object of a full cache at most once to the shared ring or to the source, an
allocation asks for no larger burst than the shared ring has room for. -/
def stepBound (config : PoolConfig) : Nat :=
  8 * (config.localCapacity.toNat + config.sharedCapacity.toNat + 8)

def run [ObjectSource Source α] (pool : Pool Source α) (id : UInt64) (phase : WorkerPhase α) :
    Pool Source α × WorkerOutcome α :=
  match pool.workplace? id with
  | none => (pool, .done)
  | some place =>
      match (Workplace.procedure pool.config).alone (stepBound pool.config) place phase with
      | (place, .returned outcome) => (pool.withWorkplace id place, outcome)
      | (place, .abandoned) => (pool.withWorkplace id place, .panicked .endless)

def alloc [ObjectSource Source α] (pool : Pool Source α) (id : UInt64) :
    Pool Source α × WorkerOutcome α :=
  pool.run id .hit

def free [ObjectSource Source α] (pool : Pool Source α) (id : UInt64) (object : α) :
    Pool Source α × WorkerOutcome α :=
  pool.run id (.put object)

def flush [ObjectSource Source α] (pool : Pool Source α) (id : UInt64) :
    Pool Source α × WorkerOutcome α :=
  pool.run id .check

def describe (pool : Pool Source α) : String :=
  let config := pool.config.describe
  let shared := pool.sharedCount
  s!"Pool \x7b config: {config}, shared_count: {shared}, .. \x7d"

def describeWorker (pool : Pool Source α) (id : UInt64) : String :=
  let count := (pool.localCount? id).getD 0
  s!"Worker \x7b id: {id}, local_count: {count}, .. \x7d"

end Pool

end RingPool

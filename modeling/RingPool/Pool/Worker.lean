import RingPool.Ring.Basic
import RingPool.Pool.Config
import RingPool.Pool.Source

/-!
# What a worker of a pool does

A worker has a cache of its own and shares a ring and a source of objects with
the other workers.  It takes objects from its cache, then from the shared ring,
a bulk at a time, and last from the source, a burst at a time.  It returns
objects to its cache; when that is full, a bulk of it moves to the shared ring,
and what finds no room there goes back to the source.

Each call is cut into steps: one step is one call on a ring or on the source, so
that between two steps of one worker other workers may act on the shared ring
and the source.  `Workplace.step` is one step.  Between its calls a worker holds
nothing back: all objects on the way are part of the phase of the call.
-/

set_option autoImplicit false

namespace RingPool

/-- A worker's counters.  They are numbers without a bound, and so what is said of them holds of
counters in 64-bit words as long as none of these has counted to 2^64. -/
structure WorkerStats where
  /-- Allocations served from the cache. -/
  cacheHits : Nat
  /-- Allocations that took a bulk from the shared ring. -/
  sharedRefills : Nat
  /-- Bulks that the shared ring took at least one object of. -/
  sharedSpills : Nat
  /-- Objects obtained from the source. -/
  sourceAllocs : Nat
  /-- Objects handed back to the source because the shared ring was full. -/
  sourceFrees : Nat
  /-- Allocations that got no object. -/
  allocFailures : Nat
  deriving DecidableEq, Repr

namespace WorkerStats

def zero : WorkerStats := ⟨0, 0, 0, 0, 0, 0⟩

def sharedOps (stats : WorkerStats) : Nat := stats.sharedRefills + stats.sharedSpills

end WorkerStats

structure WorkerSlot (α : Type) where
  claimed : Bool
  cache : Ring α
  stats : WorkerStats

/-- What one worker can reach: its own slot, the shared ring and the source. -/
structure Workplace (Source α : Type) where
  slot : WorkerSlot α
  shared : Ring α
  source : Source

/-- What a worker goes on to do when the objects that the shared ring refused
are back at the source. -/
inductive Onward (α : Type) where
  /-- Gives the object to the caller. -/
  | serve (object : α)
  /-- Puts the object that the caller returns into the cache again. -/
  | retry (object : α)
  /-- Looks again whether the cache is empty. -/
  | check
  deriving DecidableEq, Repr

/-- Where a worker's call stands, named for the next step. -/
inductive WorkerPhase (α : Type) where
  /-- An allocation tries the cache. -/
  | hit
  /-- It takes a bulk from the shared ring. -/
  | refill
  /-- It puts the rest of the bulk into the cache. -/
  | stock (object : α) (rest : List α)
  /-- It asks the source for the caller's object. -/
  | ask
  /-- It reads how much room the shared ring has for a burst. -/
  | measure (object : α)
  /-- It asks the source for one more object of the burst. -/
  | gather (object : α) (more : Nat) (burst : Array α)
  /-- It offers the burst to the shared ring. -/
  | stow (object : α) (burst : Array α)
  /-- A return tries the cache. -/
  | put (object : α)
  /-- It tries the cache again after a bulk was moved out. -/
  | retry (object : α)
  /-- A flush looks whether the cache is empty. -/
  | check
  /-- A bulk is taken out of the cache. -/
  | unload (onward : Onward α)
  /-- The bulk is offered to the shared ring. -/
  | offload (bulk : List α) (onward : Onward α)
  /-- One object that the shared ring refused goes back to the source; `count`
  went before it. -/
  | reclaim (object : α) (rest : List α) (count : Nat) (onward : Onward α)

inductive Panic where
  /-- The cache is full right after a bulk was moved out of it. -/
  | cacheStillFull
  /-- The rest of a bulk does not fit into the empty cache. -/
  | cacheOverflow
  /-- The shared ring did not take and leave what it was offered. -/
  | miscount
  /-- A call took more steps than any call can. -/
  | endless
  deriving DecidableEq, Repr

inductive WorkerOutcome (α : Type) where
  | served (object : Option α)
  | done
  | panicked (panic : Panic)
  deriving DecidableEq, Repr

/-- Moves objects into a ring that other actors use too.  The last components
are how many it took and what stays; a ring that refuses the whole takes none. -/
def Ring.offerBulk {α : Type} (ring : Ring α) (items : List α) : Ring α × UInt32 × List α :=
  match ring.enqueueBulk items false with
  | .ok (ring, enqueued, left) => (ring, enqueued.count, left)
  | .error _ => (ring, 0, items)

namespace Workplace

variable {Source α : Type}

def withCache (place : Workplace Source α) (cache : Ring α) : Workplace Source α :=
  { place with slot := { place.slot with cache } }

def count (place : Workplace Source α) (change : WorkerStats → WorkerStats) :
    Workplace Source α :=
  { place with slot := { place.slot with stats := change place.slot.stats } }

def goOn : Onward α → Progress (WorkerPhase α) (WorkerOutcome α)
  | .serve object => .returned (.served (some object))
  | .retry object => .running (.retry object)
  | .check => .running .check

def reclaimAll (onward : Onward α) : List α → Progress (WorkerPhase α) (WorkerOutcome α)
  | [] => goOn onward
  | object :: rest => .running (.reclaim object rest 0 onward)

def step [ObjectSource Source α] (config : PoolConfig) (place : Workplace Source α) :
    WorkerPhase α → Workplace Source α × Progress (WorkerPhase α) (WorkerOutcome α)
  | .hit =>
      match place.slot.cache.dequeue? true with
      | some (object, cache) =>
          ((place.withCache cache).count fun stats =>
            { stats with cacheHits := stats.cacheHits + 1 },
            .returned (.served (some object)))
      | none => (place, .running .refill)
  | .refill =>
      let (shared, bulk) := place.shared.dequeueBulk config.bulkSize false
      match bulk with
      | [] => ({ place with shared }, .running .ask)
      | object :: rest =>
          (({ place with shared }).count fun stats =>
            { stats with sharedRefills := stats.sharedRefills + 1 },
            .running (.stock object rest))
  | .stock object rest =>
      match place.slot.cache.enqueueBulk rest true with
      | .ok (cache, _, []) => (place.withCache cache, .returned (.served (some object)))
      | .ok (cache, _, _ :: _) => (place.withCache cache, .returned (.panicked .cacheOverflow))
      | .error _ => (place, .returned (.panicked .cacheOverflow))
  | .ask =>
      match ObjectSource.alloc place.source with
      | (none, source) =>
          (({ place with source }).count fun stats =>
            { stats with allocFailures := stats.allocFailures + 1 },
            .returned (.served none))
      | (some object, source) => ({ place with source }, .running (.measure object))
  | .measure object =>
      let burst := min config.refillBurst place.shared.availSpace
      (place, .running (.gather object burst.toNat #[]))
  | .gather object 0 burst => (place, .running (.stow object burst))
  | .gather object (more + 1) burst =>
      match ObjectSource.alloc place.source with
      | (none, source) => ({ place with source }, .running (.stow object burst))
      | (some extra, source) =>
          ({ place with source }, .running (.gather object more (burst.push extra)))
  | .stow object burst =>
      let counted := place.count fun stats =>
        { stats with sourceAllocs := stats.sourceAllocs + burst.size + 1 }
      let (shared, stored, left) := place.shared.offerBulk burst.toList
      if stored.toNat + left.length = burst.size then
        ({ counted with shared }, reclaimAll (.serve object) left)
      else ({ counted with shared }, .returned (.panicked .miscount))
  | .put object =>
      match place.slot.cache.enqueue? object true with
      | some cache => (place.withCache cache, .returned .done)
      | none => (place, .running (.unload (.retry object)))
  | .retry object =>
      match place.slot.cache.enqueue? object true with
      | some cache => (place.withCache cache, .returned .done)
      | none => (place, .returned (.panicked .cacheStillFull))
  | .check =>
      if place.slot.cache.isEmpty then (place, .returned .done)
      else (place, .running (.unload .check))
  | .unload onward =>
      let (cache, bulk) := place.slot.cache.dequeueBulk config.bulkSize true
      match bulk with
      | [] => (place.withCache cache, goOn onward)
      | _ :: _ => (place.withCache cache, .running (.offload bulk onward))
  | .offload bulk onward =>
      let (shared, stored, left) := place.shared.offerBulk bulk
      (({ place with shared }).count fun stats =>
        if 0 < stored then { stats with sharedSpills := stats.sharedSpills + 1 } else stats,
        reclaimAll onward left)
  | .reclaim object rest before onward =>
      let returned := { place with source := ObjectSource.free place.source object }
      match rest with
      | [] =>
          (returned.count fun stats =>
            { stats with sourceFrees := stats.sourceFrees + before + 1 },
            goOn onward)
      | next :: rest => (returned, .running (.reclaim next rest (before + 1) onward))

def procedure [ObjectSource Source α] (config : PoolConfig) :
    Procedure (Workplace Source α) (WorkerPhase α) (WorkerOutcome α) where
  point := fun _ => none
  step := fun place phase _ => place.step config phase

end Workplace

end RingPool

import RingPool.Pool.Basic

/-!
# Traffic through a pool

Each worker takes objects and returns them, more from round to round and then
few again, and flushes its cache in the end.  The workers take turns round by
round; what is reported holds for every other schedule too.
-/

set_option autoImplicit false

namespace RingPool

/-- How many rounds there are, and after how many the number of objects taken
starts again from none. -/
structure PoolTraffic where
  rounds : Nat
  batch : Nat

structure PoolTraffic.Report where
  /-- Allocations that got no object. -/
  failures : Nat
  caches : List UInt32
  /-- The pool holds as many objects as its source misses. -/
  conserved : Bool
  /-- Destroying the pool hands back as many objects as it held. -/
  releasedAll : Bool
  /-- Objects that the source still misses after that. -/
  outstanding : Int

namespace PoolTraffic

def take (pool : Pool ScriptedSource UInt64) (id : UInt64) :
    Nat → List UInt64 → Nat → Pool ScriptedSource UInt64 × List UInt64 × Nat
  | 0, objects, failures => (pool, objects, failures)
  | more + 1, objects, failures =>
      match pool.alloc id with
      | (pool, .served (some object)) => take pool id more (object :: objects) failures
      | (pool, _) => take pool id more objects (failures + 1)

def turn (traffic : PoolTraffic) (number : Nat)
    (state : Pool ScriptedSource UInt64 × Nat) (id : Nat) :
    Pool ScriptedSource UInt64 × Nat :=
  let worker := UInt64.ofNat id
  let (pool, objects, failures) :=
    take state.1 worker (number % max traffic.batch 1) [] state.2
  (objects.foldr (fun object pool => (pool.free worker object).1) pool, failures)

def run (traffic : PoolTraffic) (pool : Pool ScriptedSource UInt64) : Report :=
  let workers := List.range pool.slots.size
  let (pool, failures) := (List.range traffic.rounds).foldl
    (fun state number => workers.foldl (traffic.turn number) state) (pool, 0)
  let pool := workers.foldl (fun pool id => (pool.flush (UInt64.ofNat id)).1) pool
  let caches := pool.slots.toList.map fun slot => slot.cache.count
  let objects := (caches.map UInt32.toNat).foldl (· + ·) 0 + pool.sharedCount.toNat
  let (source, released) := pool.destroy
  ⟨failures, caches, pool.source.outstanding == objects, released == objects,
    source.outstanding⟩

end PoolTraffic

end RingPool

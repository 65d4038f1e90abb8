import RingPool.Proofs.Pool.Ledger
import RingPool.Proofs.Pool.Spilling
import RingPool.Proofs.Ring.Endings

/-!
# What a pool that goes hands back

A pool that goes empties its rings one after the other and hands what it finds back to the
source; then its rings go, each with what is still in it.  A ring that is emptied refuses to give
anything more (`Ring.IsShelf.drain`), so that a pool that is emptied twice hands nothing back the
second time, and its rings have nothing left to drop.

Main statement: whatever its workers have done, a pool that is destroyed and one that is just
dropped take the same calls of the source, one for each object in a ring, in the order of the
rings and front to back in each.
-/

set_option autoImplicit false

namespace RingPool

variable {Source α : Type}

/-! ## One ring -/

theorem Ring.drainUpTo_of_refused {ring : Ring α} (refused : ring.dequeue? false = none)
    (steps : Nat) (taken : Array α) : Ring.drainUpTo steps ring taken = (ring, taken) := by
  cases steps with
  | zero => rfl
  | succ steps => rw [Ring.drainUpTo, refused]

namespace Ring.IsShelf

variable {ring : Ring α} {capacity : Capacity}

theorem dequeue?_of_empty (shelf : ring.IsShelf capacity) (empty : ring.toList = [])
    (exclusive : Bool) : ring.dequeue? exclusive = none := by
  rcases shelf.dequeue? exclusive with ⟨-, refused⟩ | ⟨first, changed, items, -⟩
  · exact refused
  · rw [empty] at items
    cases items

theorem drainUpTo (shelf : ring.IsShelf capacity) {steps : Nat}
    (enough : ring.toList.length ≤ steps) (taken : Array α) :
    ∃ emptied, Ring.drainUpTo steps ring taken = (emptied, taken ++ ring.toList) ∧
      emptied.toList = [] ∧ emptied.IsShelf capacity := by
  induction steps generalizing ring taken with
  | zero =>
      have empty := List.length_eq_zero_iff.mp (Nat.le_zero.mp enough)
      refine ⟨ring, ?_, empty, shelf⟩
      rw [Ring.drainUpTo, empty, Array.appendList_nil]
  | succ steps ih =>
      rcases shelf.dequeue? false with ⟨empty, refused⟩ | ⟨first, rest, items, removed, after⟩
      · refine ⟨ring, ?_, empty, shelf⟩
        rw [Ring.drainUpTo_of_refused refused, empty, Array.appendList_nil]
      · rw [items] at enough
        obtain ⟨emptied, drained, empty, last⟩ :=
          ih after (Nat.le_of_succ_le_succ enough) (taken.push first)
        refine ⟨emptied, ?_, empty, last⟩
        rw [Ring.drainUpTo, removed, items, Array.appendList_cons]
        exact drained

theorem drain (shelf : ring.IsShelf capacity) :
    ring.drain.2 = ring.toList ∧ ring.drain.1.toList = [] ∧ ring.drain.1.IsShelf capacity := by
  have enough : ring.toList.length ≤ ring.core.capacity.size := by
    rw [shelf.capacity]
    exact shelf.length_lt.le
  obtain ⟨emptied, drained, empty, last⟩ := shelf.drainUpTo enough #[]
  have given : ((#[] : Array α) ++ ring.toList).toList = ring.toList := Array.toList_appendList
  rw [Ring.drain, drained]
  exact ⟨given, empty, last⟩

theorem drain_of_empty (shelf : ring.IsShelf capacity) (empty : ring.toList = []) :
    ring.drain = (ring, []) := by
  rw [Ring.drain, Ring.drainUpTo_of_refused (shelf.dequeue?_of_empty empty false)]

end Ring.IsShelf

/-! ## All rings of a pool -/

namespace Pool

/-- The objects that the rings of a pool hold, in the order in which the rings are emptied. -/
def pooled (pool : Pool Source α) : List α :=
  pool.slots.toList.flatMap (fun slot => slot.cache.toList) ++ pool.shared.toList

def gauged (pool : Pool Source α) : Nat :=
  pool.slots.toList.foldr (fun slot total => slot.cache.count.toNat + total)
    pool.sharedCount.toNat

/-- What becomes of a pool that goes: the source, and the objects that its rings drop because they
still hold them.  A pool is emptied before its rings go, also one that `destroy` has emptied. -/
def drop [ObjectSource Source α] (pool : Pool Source α) : Source × List α :=
  let (emptied, _) := pool.drain
  (emptied.source, emptied.shared.drop ++
    emptied.slots.toList.flatMap fun slot => slot.cache.drop)

theorem drain_slots [ObjectSource Source α] (pool : Pool Source α) :
    pool.drain.1.slots = pool.slots.map fun slot => { slot with cache := slot.cache.drain.1 } :=
  Array.map_map

structure Shelved (pool : Pool Source α) (localCapacity sharedCapacity : Capacity) : Prop where
  shared : pool.shared.IsShelf sharedCapacity
  caches : ∀ slot ∈ pool.slots, slot.cache.IsShelf localCapacity

namespace Shelved

variable {pool : Pool Source α} {localCapacity sharedCapacity : Capacity}

theorem gauged_eq (shelved : pool.Shelved localCapacity sharedCapacity) :
    pool.gauged = pool.pooled.length := by
  have caches : ∀ slot ∈ pool.slots.toList, slot.cache.IsShelf localCapacity :=
    fun slot member => shelved.caches slot (Array.mem_toList_iff.mp member)
  rw [gauged, pooled, sharedCount, shelved.shared.count_toNat]
  generalize pool.slots.toList = slots at caches
  induction slots with
  | nil => rfl
  | cons slot slots ih =>
      rw [List.foldr_cons, ih fun other member => caches other (List.mem_cons_of_mem _ member),
        (caches slot List.mem_cons_self).count_toNat, List.flatMap_cons, List.append_assoc,
        ← List.length_append]

variable [ObjectSource Source α]

/-- A pool that is drained hands back what its rings held, and they are empty then. -/
theorem drain (shelved : pool.Shelved localCapacity sharedCapacity) :
    pool.drain.1.source = ObjectSource.freeAll pool.source pool.pooled ∧
      pool.drain.2 = pool.pooled.length ∧ pool.drain.1.pooled = [] ∧
      pool.drain.1.Shelved localCapacity sharedCapacity := by
  have caches : ∀ slot ∈ pool.slots.toList, slot.cache.drain.2 = slot.cache.toList :=
    fun slot member => (shelved.caches slot (Array.mem_toList_iff.mp member)).drain.1
  have returned : (pool.slots.map fun slot =>
        ({ slot with cache := slot.cache.drain.1 }, slot.cache.drain.2)).toList.flatMap Prod.snd ++
      pool.shared.drain.2 = pool.pooled := by
    rw [Array.toList_map, List.flatMap_map, shelved.shared.drain.1, pooled]
    exact congrArg (· ++ _) (List.flatMap_congr caches)
  refine ⟨congrArg (ObjectSource.freeAll pool.source) returned, congrArg List.length returned,
    ?_, shelved.shared.drain.2.2, ?_⟩
  · rw [pooled, drain_slots, Array.toList_map, List.flatMap_map]
    refine List.append_eq_nil_iff.mpr ⟨List.flatMap_eq_nil_iff.mpr ?_, shelved.shared.drain.2.1⟩
    exact fun slot member => (shelved.caches slot (Array.mem_toList_iff.mp member)).drain.2.1
  · intro slot member
    rw [drain_slots] at member
    obtain ⟨full, present, rfl⟩ := Array.mem_map.mp member
    exact (shelved.caches full present).drain.2.2

theorem drain_of_empty (shelved : pool.Shelved localCapacity sharedCapacity)
    (empty : pool.pooled = []) : pool.drain = (pool, 0) := by
  obtain ⟨source, number, -⟩ := shelved.drain
  rw [empty] at source number
  obtain ⟨caches, ring⟩ := List.append_eq_nil_iff.mp empty
  have shared : pool.drain.1.shared = pool.shared :=
    congrArg Prod.fst (shelved.shared.drain_of_empty ring)
  have slots : pool.drain.1.slots = pool.slots := by
    rw [drain_slots]
    refine (Array.map_congr_left fun slot member => ?_).trans (Array.map_id pool.slots)
    have none := List.flatMap_eq_nil_iff.mp caches slot (Array.mem_toList_iff.mpr member)
    rw [(shelved.caches slot member).drain_of_empty none]
    rfl
  calc pool.drain
      = (⟨pool.config, pool.drain.1.shared, pool.drain.1.slots, pool.drain.1.source⟩,
          pool.drain.2) := rfl
    _ = (pool, 0) := by
      rw [shared, slots, source, number]
      rfl

/-- What a pool drops when it goes is what it hands back when it is drained: the rings are empty
by then. -/
theorem drop_eq (shelved : pool.Shelved localCapacity sharedCapacity) :
    pool.drop = (pool.drain.1.source, []) := by
  obtain ⟨-, -, empty, -⟩ := shelved.drain
  obtain ⟨caches, shared⟩ := List.append_eq_nil_iff.mp empty
  refine congrArg (Prod.mk pool.drain.1.source) (List.append_eq_nil_iff.mpr ⟨?_, ?_⟩)
  · rw [Ring.drop_eq_toList]
    exact shared
  · refine List.flatMap_eq_nil_iff.mpr fun slot member => ?_
    rw [Ring.drop_eq_toList]
    exact List.flatMap_eq_nil_iff.mp caches slot member

end Shelved

theorem shelved_of_run [Inhabited α] [ObjectSource Source α] [DecidableEq α] {config : PoolConfig}
    {source : Source} {pool : Pool Source α} (opened : Pool.create config source = .ok pool)
    (held : List α) (moves : List (PoolMove α)) {reached : Pool Source α}
    (reaches : ({ PoolSystem.start pool with held }.run moves).1.pool = reached) :
    ∃ localCapacity sharedCapacity, reached.Shelved localCapacity sharedCapacity := by
  obtain ⟨localCapacity, sharedCapacity, -, -, shared, caches⟩ :=
    shelves_of_run opened held moves reaches
  exact ⟨localCapacity, sharedCapacity, shared, caches⟩

end Pool

/-- Each object that goes back to a recorded source goes on record, the latest first. -/
theorem Recorded.freeAll [ObjectSource Source α] (recorded : Recorded Source α)
    (objects : List α) :
    ObjectSource.freeAll recorded objects = ⟨ObjectSource.freeAll recorded.source objects,
      (objects.map .tookBack).reverse ++ recorded.calls⟩ := by
  induction objects generalizing recorded with
  | nil => rfl
  | cons object objects ih =>
      rw [List.map_cons, List.reverse_cons, List.append_assoc]
      exact ih (ObjectSource.free recorded object)

/-- In every state that the workers of a pool can reach, destroying the pool hands back each
object that a ring holds, once and in the order of the rings, calls the source for nothing else,
and tells how many objects the gauges counted.  The pool is emptied again when it goes, and this
changes nothing: the source has no further call, and the rings drop no object.  A pool that just
goes leaves the same. -/
theorem destroy_returns_what_is_pooled [Inhabited α] [ObjectSource Source α] [DecidableEq α]
    {config : PoolConfig} {source : Source} {pool : Pool (Recorded Source α) α}
    (opened : Pool.create config (Recorded.fresh source) = .ok pool) (held : List α)
    (moves : List (PoolMove α)) {reached : Pool (Recorded Source α) α}
    (reaches : ({ PoolSystem.start pool with held }.run moves).1.pool = reached) :
    ∃ left : Recorded Source α,
      left.calls = (reached.pooled.map .tookBack).reverse ++ reached.source.calls ∧
      left.source = ObjectSource.freeAll reached.source.source reached.pooled ∧
      reached.destroy = (left, reached.gauged) ∧
      reached.drain.1.drain = (reached.drain.1, 0) ∧
      reached.drain.1.drop = (left, []) ∧ reached.drop = (left, []) := by
  obtain ⟨localCapacity, sharedCapacity, shelved⟩ := Pool.shelved_of_run opened held moves reaches
  obtain ⟨source, number, empty, emptied⟩ := shelved.drain
  have again := emptied.drain_of_empty empty
  rw [Recorded.freeAll] at source
  refine ⟨reached.drain.1.source, ?_, ?_, ?_, again, ?_, shelved.drop_eq⟩
  · rw [source]
  · rw [source]
  · rw [shelved.gauged_eq, ← number]
    rfl
  · rw [emptied.drop_eq, again]

def narrowUse : List (PoolMove UInt64) :=
  List.flatten [narrowMoves, [.free 0 10], List.replicate 5 (.advance 0),
    [.free 1 11, .advance 1, .release 0, .release 1]]

def narrowLeft : Pool (Recorded ScriptedSource UInt64) UInt64 :=
  ({ PoolSystem.start (narrowPool (Recorded.fresh (ScriptedSource.create none []))) with
    held := [7, 8, 9, 10, 11] }.run narrowUse).1.pool

/-- One object went back while the pool was in use, and four go back when it is destroyed. -/
theorem destroy_returns_what_is_pooled_sample :
    narrowLeft.pooled = [9, 10, 11, 7] ∧ narrowLeft.source.calls = [.tookBack 8] ∧
    ∃ left : Recorded ScriptedSource UInt64,
      left.calls = [.tookBack 7, .tookBack 11, .tookBack 10, .tookBack 9, .tookBack 8] ∧
      narrowLeft.destroy = (left, 4) ∧ narrowLeft.drain.1.drop = (left, []) := by
  have pooled : narrowLeft.pooled = [9, 10, 11, 7] := by decide +kernel
  have before : narrowLeft.source.calls = [.tookBack 8] := by decide +kernel
  have gauged : narrowLeft.gauged = 4 := by decide +kernel
  obtain ⟨left, calls, -, destroyed, -, dropped, -⟩ :=
    destroy_returns_what_is_pooled (narrowPool_opens _) [7, 8, 9, 10, 11] narrowUse
      (show _ = narrowLeft from rfl)
  rw [pooled, before] at calls
  rw [gauged] at destroyed
  exact ⟨pooled, before, left, calls, destroyed, dropped⟩

end RingPool

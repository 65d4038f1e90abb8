import RingPool.Proofs.Pool.WholeCalls
import RingPool.Proofs.Ring.Coherence

/-!
# What an allocation takes, and from where

An allocation looks in the worker's cache, then in the shared ring, then it asks the source.
`Desk.alloc` says on lists what it takes and what it leaves behind, tier by tier.  A call of a
worker that nobody interrupts comes to just that, in every state that the workers of a pool can
reach (`alloc_takes_from_nearest_tier`): what it takes in bulk always fits, and so nothing goes
back to the source.
-/

set_option autoImplicit false

namespace RingPool

variable {Source α : Type} [ObjectSource Source α]

/-- What an allocation gives, and what it leaves.  A bulk from the shared ring is shorter than
the bulk size only if it empties the ring.  A burst from the source fills an empty ring at most,
and ends with the first failure. -/
def Desk.alloc (config : PoolConfig) (desk : Desk Source α) : Desk Source α × Option α :=
  match desk.cache, desk.shared with
  | object :: cache, _ =>
      (({ desk with cache }).count fun stats => { stats with cacheHits := stats.cacheHits + 1 },
        some object)
  | [], object :: rest =>
      let bulk := min config.bulkSize.toNat (object :: rest).length
      (({ desk with
          cache := ((object :: rest).take bulk).tail
          shared := (object :: rest).drop bulk }).count fun stats =>
            { stats with sharedRefills := stats.sharedRefills + 1 },
        some object)
  | [], [] =>
      match ObjectSource.alloc desk.source with
      | (none, source) =>
          (({ desk with source }).count fun stats =>
            { stats with allocFailures := stats.allocFailures + 1 }, none)
      | (some object, source) =>
          let burst := min config.refillBurst.toNat (config.sharedCapacity.toNat - 1)
          let (objects, source) := ObjectSource.allocUpTo source burst #[]
          (({ desk with shared := objects.toList, source }).count fun stats =>
            { stats with sourceAllocs := stats.sourceAllocs + objects.size + 1 },
            some object)

namespace Desk.Ends

variable {config : PoolConfig} {localCapacity sharedCapacity : Capacity}
  {desk final : Desk Source α} {outcome : WorkerOutcome α}

theorem gather {object : α} {more : Nat} {burst : Array α}
    (ends : Desk.Ends config localCapacity sharedCapacity
      { desk with source := (ObjectSource.allocUpTo desk.source more burst).2 }
      (.stow object (ObjectSource.allocUpTo desk.source more burst).1) final outcome) :
    Desk.Ends config localCapacity sharedCapacity desk (.gather object more burst) final
      outcome := by
  induction more generalizing desk burst with
  | zero => exact .goesOn rfl ends
  | succ more ih =>
      rw [ObjectSource.allocUpTo] at ends
      rcases answer : ObjectSource.alloc desk.source with ⟨_ | extra, source⟩
      · rw [answer] at ends
        exact .goesOn (by simp only [Desk.step, answer]) ends
      · rw [answer] at ends
        have gives : desk.step config localCapacity sharedCapacity
            (.gather object (more + 1) burst) =
              ({ desk with source }, .running (.gather object more (burst.push extra))) := by
          simp only [Desk.step, answer]
        exact .goesOn gives (ih ends)

/-- A bulk out of the shared ring fits beside the object that is given: it is no larger than
the cache, which is empty. -/
theorem refill (sizing : config.Fits localCapacity sharedCapacity) (empty : desk.cache = [])
    {object : α} {rest : List α} (shared : desk.shared = object :: rest) :
    Desk.Ends config localCapacity sharedCapacity desk .refill (desk.alloc config).1
      (.served (desk.alloc config).2) := by
  obtain ⟨more, bulk⟩ := Nat.exists_eq_succ_of_ne_zero (Nat.ne_of_gt sizing.bulkSize_pos)
  have takes : desk.step config localCapacity sharedCapacity .refill =
      (({ desk with shared := rest.drop more }).count fun stats =>
        { stats with sharedRefills := stats.sharedRefills + 1 },
        .running (.stock object (rest.take more))) := by
    simp only [Desk.step, shared, bulk, List.take_succ_cons, List.drop_succ_cons]
  have room : (rest.take more).length ≤ localCapacity.vacancy ([] : List α) := by
    have fits := sizing.bulkSize_le
    rw [Capacity.vacancy, List.length_take, List.length_nil]
    omega
  have stocks : (({ desk with shared := rest.drop more }).count fun stats =>
        { stats with sharedRefills := stats.sharedRefills + 1 }).step config localCapacity
          sharedCapacity (.stock object (rest.take more)) =
      ((desk.alloc config).1, .returned (.served (desk.alloc config).2)) := by
    have portion : min (more + 1) (object :: rest).length = min more rest.length + 1 :=
      Nat.succ_min_succ more rest.length
    simp only [Desk.step, Desk.alloc, Desk.count, empty, shared, bulk, portion,
      List.take_succ_cons, List.drop_succ_cons, List.tail_cons, ← List.take_eq_take_min,
      ← List.drop_eq_drop_min]
    rw [if_pos room, List.nil_append, List.take_of_length_le room]
  exact .goesOn takes (.returns stocks)

/-- A burst fits into the empty shared ring. -/
theorem ask (sizing : config.Fits localCapacity sharedCapacity) (empty : desk.cache = [])
    (shared : desk.shared = []) :
    Desk.Ends config localCapacity sharedCapacity desk .ask (desk.alloc config).1
      (.served (desk.alloc config).2) := by
  rcases answer : ObjectSource.alloc desk.source with ⟨_ | object, source⟩
  · have fails : desk.step config localCapacity sharedCapacity .ask =
        ((desk.alloc config).1, .returned (.served (desk.alloc config).2)) := by
      simp only [Desk.step, Desk.alloc, empty, shared, answer]
    exact .returns fails
  · have gives : desk.step config localCapacity sharedCapacity .ask =
        ({ desk with source }, .running (.measure object)) := by
      simp only [Desk.step, answer]
    have size : sharedCapacity.size = config.sharedCapacity.toNat :=
      size_of_checkCapacity sizing.sharedSlots
    have measures : ({ desk with source } : Desk Source α).step config localCapacity sharedCapacity
        (.measure object) = ({ desk with source }, .running (.gather object
          (min config.refillBurst.toNat (config.sharedCapacity.toNat - 1)) #[])) := by
      simp only [Desk.step, Capacity.vacancy, shared, List.length_nil, Nat.sub_zero, size]
    rcases burst : ObjectSource.allocUpTo source
      (min config.refillBurst.toNat (config.sharedCapacity.toNat - 1)) #[] with ⟨objects, last⟩
    have few := ObjectSource.allocUpTo_size_le source
      (min config.refillBurst.toNat (config.sharedCapacity.toNat - 1)) (#[] : Array α)
    rw [burst, Array.size_empty, Nat.zero_add] at few
    have room : objects.toList.length ≤ sharedCapacity.vacancy ([] : List α) := by
      rw [Capacity.vacancy, size, Array.length_toList, List.length_nil, Nat.sub_zero]
      exact few.trans (Nat.min_le_right _ _)
    have stows : ({ desk with source := last } : Desk Source α).step config localCapacity
        sharedCapacity (.stow object objects) =
          ((desk.alloc config).1, .returned (.served (desk.alloc config).2)) := by
      simp only [Desk.step, Desk.alloc, Desk.count, empty, shared, answer, burst]
      rw [List.nil_append, List.take_of_length_le room, List.drop_eq_nil_of_le room]
      rfl
    refine .goesOn gives (.goesOn measures (.gather ?_))
    simp only [burst]
    exact .returns stows

end Desk.Ends

theorem Desk.alloc_ends {config : PoolConfig} {localCapacity sharedCapacity : Capacity}
    (sizing : config.Fits localCapacity sharedCapacity) (desk : Desk Source α) :
    Desk.Ends config localCapacity sharedCapacity desk .hit (desk.alloc config).1
      (.served (desk.alloc config).2) := by
  cases cached : desk.cache with
  | cons object cache =>
      have hits : desk.step config localCapacity sharedCapacity .hit =
          ((desk.alloc config).1, .returned (.served (desk.alloc config).2)) := by
        simp only [Desk.step, Desk.alloc, cached]
      exact .returns hits
  | nil =>
      have misses : desk.step config localCapacity sharedCapacity .hit =
          (desk, .running .refill) := by
        simp only [Desk.step, cached]
      refine .goesOn misses ?_
      cases shared : desk.shared with
      | cons object rest => exact .refill sizing cached shared
      | nil =>
          have nothing : desk.step config localCapacity sharedCapacity .refill =
              (desk, .running .ask) := by
            simp only [Desk.step, shared, List.take_nil]
          exact .goesOn nothing (.ask sizing cached shared)

theorem Pool.alloc_of_cached {pool : Pool Source α} {id : UInt64} {slot : WorkerSlot α}
    (found : pool.slots[id.toNat]? = some slot) {object : α} {cache : Ring α}
    (cached : slot.cache.dequeue? true = some (object, cache)) :
    pool.alloc id =
      ({ pool with slots := pool.slots.setIfInBounds id.toNat { slot with
          cache
          stats := { slot.stats with cacheHits := slot.stats.cacheHits + 1 } } },
        .served (some object)) := by
  have hits : Workplace.step pool.config ⟨slot, pool.shared, pool.source⟩ .hit =
      (⟨{ slot with
          cache
          stats := { slot.stats with cacheHits := slot.stats.cacheHits + 1 } },
        pool.shared, pool.source⟩, .returned (.served (some object))) := by
    simp only [Workplace.step, cached]
    rfl
  exact Pool.run_of_returned found hits

/-- In every state that the workers of a pool can reach, an allocation that nobody interrupts
takes what `Desk.alloc` says: from the cache, else a bulk from the shared ring, else an object and
a burst from the source, which all fit.  The slots of the other workers stay as they are, and
while the cache has objects so does the shared ring. -/
theorem alloc_takes_from_nearest_tier [Inhabited α] [DecidableEq α] {config : PoolConfig}
    {source : Source} {pool : Pool Source α} (opened : Pool.create config source = .ok pool)
    (held : List α) (moves : List (PoolMove α)) {reached : Pool Source α}
    (reaches : ({ PoolSystem.start pool with held }.run moves).1.pool = reached) (id : UInt64)
    {slot : WorkerSlot α} (found : reached.slots[id.toNat]? = some slot) :
    ∃ after changed,
      reached.alloc id = (after, .served ((reached.desk slot).alloc config).2) ∧
      after.desk changed = ((reached.desk slot).alloc config).1 ∧
      after.slots = reached.slots.setIfInBounds id.toNat changed ∧
      changed.claimed = slot.claimed ∧ after.config = config ∧
      (slot.cache.toList ≠ [] → after.shared = reached.shared) := by
  obtain ⟨localCapacity, sharedCapacity, sizing, rfl, shared, caches⟩ :=
    Pool.shelves_of_run opened held moves reaches
  have cache := caches slot (Array.mem_of_getElem? found)
  obtain ⟨after, changed, ran, kept, slots, claimed, desk⟩ :=
    Pool.run_ends sizing found cache shared (Or.inl rfl)
      (Desk.alloc_ends sizing (reached.desk slot))
  refine ⟨after, changed, ran, desk, slots, claimed, kept, ?_⟩
  intro some
  rcases cache.dequeue? true with ⟨empty, -⟩ | ⟨object, rest, -, taken, -⟩
  · exact absurd empty some
  · have hits := Pool.alloc_of_cached found taken
    have same : after = _ := congrArg Prod.fst (ran.symm.trans hits)
    rw [same]

/-- A sizing in which a bulk is as large as a cache, and a burst as the shared ring. -/
def tightConfig : PoolConfig := ⟨2, 2, 4, 0, 2, 2⟩

def tightPool : Pool ScriptedSource UInt64 :=
  ⟨tightConfig, .forObjects sampleCapacity,
    Array.replicate 2 (.create PoolSystem.duoCapacity), ScriptedSource.create none []⟩

def tightMoves : List (PoolMove UInt64) :=
  List.flatten [[.claim 0, .claim 1, .alloc 1], List.replicate 9 (.advance 1)]

def tightReached : Pool ScriptedSource UInt64 :=
  ({ PoolSystem.start tightPool with held := [] }.run tightMoves).1.pool

def tightSlot : WorkerSlot UInt64 :=
  { WorkerSlot.create PoolSystem.duoCapacity with claimed := true }

theorem alloc_takes_from_nearest_tier_sample :
    tightReached.shared.toList = [1, 2, 3] ∧
      ∃ after, ∃ changed : WorkerSlot UInt64,
        tightReached.alloc 0 = (after, .served (some 1)) ∧
        changed.cache.toList = [2] ∧ after.shared.toList = [3] ∧
        after.source.calls = tightReached.source.calls := by
  have opened : Pool.create tightConfig (ScriptedSource.create none []) = .ok tightPool := rfl
  have found : tightReached.slots[(0 : UInt64).toNat]? = some tightSlot := rfl
  obtain ⟨after, changed, ran, desk, _⟩ :=
    alloc_takes_from_nearest_tier opened [] tightMoves rfl 0 found
  have given : ((tightReached.desk tightSlot).alloc tightConfig).2 = some 1 := by decide +kernel
  have cache : ((tightReached.desk tightSlot).alloc tightConfig).1.cache = [2] := by
    decide +kernel
  have shared : ((tightReached.desk tightSlot).alloc tightConfig).1.shared = [3] := by
    decide +kernel
  have source : ((tightReached.desk tightSlot).alloc tightConfig).1.source =
      tightReached.source := rfl
  refine ⟨by decide +kernel, after, changed, ?_, ?_, ?_, ?_⟩
  · exact ran.trans (congrArg (fun given => (after, WorkerOutcome.served given)) given)
  · exact (congrArg Desk.cache desk).trans cache
  · exact (congrArg Desk.shared desk).trans shared
  · have kept : after.source = tightReached.source := (congrArg Desk.source desk).trans source
    rw [kept]

end RingPool

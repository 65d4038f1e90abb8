import RingPool.Proofs.Pool.Allocation

/-!
# What a return leaves, and where

A full cache sheds a bulk before it takes the object that a caller returns: the front of the bulk
goes to the shared ring as far as there is room, the rest back to the source (`Desk.spill`).
`Desk.free` says on lists what a return comes to, on a cache with room and on a full one.

Main statement: in every state that the workers of a pool can reach, a return that nobody
interrupts comes to just that, and the worker's next allocation is served from its cache,
whatever other workers do in between.
-/

set_option autoImplicit false

namespace RingPool

variable {Source α : Type} [ObjectSource Source α]

/-- What is left when a bulk has been moved out of the cache.  It is cut in two: the shared ring
stores the front, the source takes back the rest. -/
def Desk.spill (config : PoolConfig) (desk : Desk Source α) : Desk Source α :=
  let bulk := desk.cache.take config.bulkSize.toNat
  let room := config.sharedCapacity.toNat - 1 - desk.shared.length
  { cache := desk.cache.drop config.bulkSize.toNat
    shared := desk.shared ++ bulk.take room
    stats := { desk.stats with
      sharedSpills := desk.stats.sharedSpills + if 0 < min bulk.length room then 1 else 0
      sourceFrees := desk.stats.sourceFrees + (bulk.length - room) }
    source := ObjectSource.freeAll desk.source (bulk.drop room) }

/-- What a return leaves.  A full cache holds one object fewer than it has slots, and a bulk of it
makes room. -/
def Desk.free (config : PoolConfig) (desk : Desk Source α) (object : α) : Desk Source α :=
  if desk.cache.length < config.localCapacity.toNat - 1 then
    { desk with cache := desk.cache ++ [object] }
  else
    let moved := min config.bulkSize.toNat (config.localCapacity.toNat - 1)
    let stored := min moved (config.sharedCapacity.toNat - 1 - desk.shared.length)
    { cache := desk.cache.drop moved ++ [object]
      shared := desk.shared ++ desk.cache.take stored
      stats := { desk.stats with
        sharedSpills := desk.stats.sharedSpills + if 0 < stored then 1 else 0
        sourceFrees := desk.stats.sourceFrees + (moved - stored) }
      source := ObjectSource.freeAll desk.source ((desk.cache.take moved).drop stored) }

namespace Desk.Ends

variable {config : PoolConfig} {localCapacity sharedCapacity : Capacity}
  {desk final : Desk Source α} {outcome : WorkerOutcome α} {onward : Onward α}
  {later : WorkerPhase α}

theorem reclaim (goes : Workplace.goOn onward = .running later) {object : α} {rest : List α}
    {before : Nat}
    (ends : Desk.Ends config localCapacity sharedCapacity
      (({ desk with source := ObjectSource.freeAll desk.source (object :: rest) }).count
        fun stats => { stats with sourceFrees := stats.sourceFrees + (before + rest.length + 1) })
      later final outcome) :
    Desk.Ends config localCapacity sharedCapacity desk (.reclaim object rest before onward) final
      outcome := by
  induction rest generalizing object desk before with
  | nil =>
      refine .goesOn ?_ ends
      simp only [Desk.step, goes]
      rfl
  | cons next rest ih =>
      refine .goesOn rfl (ih ?_)
      have counted : before + 1 + rest.length + 1 = before + (next :: rest).length + 1 := by
        rw [List.length_cons]
        omega
      rw [counted]
      exact ends

theorem reclaimAll (goes : Workplace.goOn onward = .running later) {next : Desk Source α}
    {phase : WorkerPhase α} {left : List α}
    (step : desk.step config localCapacity sharedCapacity phase =
      (next, Workplace.reclaimAll onward left))
    (ends : Desk.Ends config localCapacity sharedCapacity
      (({ next with source := ObjectSource.freeAll next.source left }).count
        fun stats => { stats with sourceFrees := stats.sourceFrees + left.length })
      later final outcome) :
    Desk.Ends config localCapacity sharedCapacity desk phase final outcome := by
  cases left with
  | nil =>
      rw [Workplace.reclaimAll, goes] at step
      exact .goesOn step ends
  | cons object rest =>
      refine .goesOn step (.reclaim goes ?_)
      rw [Nat.zero_add]
      exact ends

theorem spill (sizing : config.Fits localCapacity sharedCapacity)
    (goes : Workplace.goOn onward = .running later) (cached : desk.cache ≠ [])
    (ends : Desk.Ends config localCapacity sharedCapacity (desk.spill config) later final
      outcome) :
    Desk.Ends config localCapacity sharedCapacity desk (.unload onward) final outcome := by
  have room : config.sharedCapacity.toNat - 1 - desk.shared.length =
      sharedCapacity.vacancy desk.shared := by
    rw [Capacity.vacancy, size_of_checkCapacity sizing.sharedSlots]
  obtain ⟨first, rest, taken⟩ : ∃ first rest,
      desk.cache.take config.bulkSize.toNat = first :: rest := by
    refine List.exists_cons_of_ne_nil fun nothing => ?_
    rcases List.take_eq_nil_iff.mp nothing with none | empty
    · exact Nat.ne_of_gt sizing.bulkSize_pos none
    · exact cached empty
  have unloads : desk.step config localCapacity sharedCapacity (.unload onward) =
      ({ desk with cache := desk.cache.drop config.bulkSize.toNat },
        .running (.offload (first :: rest) onward)) := by
    simp only [Desk.step, taken]
  refine .goesOn unloads (.reclaimAll goes rfl ?_)
  convert ends using 1
  simp only [Desk.spill, Desk.count, taken, room, List.length_drop]
  split <;> rfl

end Desk.Ends

/-- A return to a full cache is a spill and then a return to a cache with room. -/
theorem Desk.free_of_full {config : PoolConfig} {desk : Desk Source α}
    (full : desk.cache.length = config.localCapacity.toNat - 1) (object : α) :
    desk.free config object =
      { desk.spill config with cache := (desk.spill config).cache ++ [object] } := by
  have bulk : (desk.cache.take config.bulkSize.toNat).length =
      min config.bulkSize.toNat desk.cache.length := List.length_take
  have stored : ∀ room, desk.cache.take (min (min config.bulkSize.toNat desk.cache.length) room) =
      (desk.cache.take config.bulkSize.toNat).take room := by
    intro room
    rw [List.take_take, Nat.min_comm _ room, ← Nat.min_assoc, ← List.take_eq_take_min]
  have refused : ∀ room, (desk.cache.take config.bulkSize.toNat).drop
      (min (min config.bulkSize.toNat desk.cache.length) room) =
        (desk.cache.take config.bulkSize.toNat).drop room := by
    intro room
    rw [← bulk, Nat.min_comm, ← List.drop_eq_drop_min]
  rw [Desk.free, if_neg (Nat.not_lt.mpr full.ge), ← full]
  simp only [Desk.spill, stored, refused, bulk, ← List.take_eq_take_min,
    ← List.drop_eq_drop_min, ← Nat.sub_eq_sub_min]

theorem Desk.free_ends {config : PoolConfig} {localCapacity sharedCapacity : Capacity}
    (sizing : config.Fits localCapacity sharedCapacity) (desk : Desk Source α)
    (within : desk.cache.length < localCapacity.size) (object : α) :
    Desk.Ends config localCapacity sharedCapacity desk (.put object) (desk.free config object)
      .done := by
  have size : localCapacity.size = config.localCapacity.toNat :=
    size_of_checkCapacity sizing.cacheSlots
  by_cases room : desk.cache.length < config.localCapacity.toNat - 1
  · have vacant : 0 < localCapacity.vacancy desk.cache := by
      rw [Capacity.vacancy, size]
      omega
    refine .returns ?_
    simp only [Desk.step, if_pos vacant, Desk.free, if_pos room]
  · have full : desk.cache.length = config.localCapacity.toNat - 1 := by omega
    have cached : desk.cache ≠ [] := by
      have slots := localCapacity.two_le_size
      refine List.ne_nil_of_length_pos ?_
      omega
    have crowded : ¬ 0 < localCapacity.vacancy desk.cache := by
      rw [Capacity.vacancy, size]
      omega
    have vacant : 0 < localCapacity.vacancy (desk.spill config).cache :=
      vacancy_drop_pos sizing within
    have puts : desk.step config localCapacity sharedCapacity (.put object) =
        (desk, .running (.unload (.retry object))) := by
      simp only [Desk.step, if_neg crowded]
    have retries : (desk.spill config).step config localCapacity sharedCapacity (.retry object) =
        (desk.free config object, .returned .done) := by
      simp only [Desk.step, if_pos vacant, Desk.free_of_full full]
    exact .goesOn puts (.spill sizing rfl cached (.returns retries))

theorem Pool.free_of_room {pool : Pool Source α} {id : UInt64} {slot : WorkerSlot α}
    (found : pool.slots[id.toNat]? = some slot) {object : α} {cache : Ring α}
    (added : slot.cache.enqueue? object true = some cache) :
    pool.free id object =
      ({ pool with slots := pool.slots.setIfInBounds id.toNat { slot with cache } }, .done) := by
  have puts : Workplace.step pool.config ⟨slot, pool.shared, pool.source⟩ (.put object) =
      (⟨{ slot with cache }, pool.shared, pool.source⟩, .returned .done) := by
    simp only [Workplace.step, added]
    rfl
  exact Pool.run_of_returned found puts

theorem Desk.free_cache_ne_nil (config : PoolConfig) (desk : Desk Source α) (object : α) :
    (desk.free config object).cache ≠ [] := by
  rw [Desk.free]
  split <;> exact List.append_ne_nil_of_right_ne_nil _ (List.cons_ne_nil object [])

/-- In every state that the workers of a pool can reach, a return that nobody interrupts leaves
what `Desk.free` says: it appends the object to a cache with room and changes nothing else, and
out of a full cache it first moves a bulk, cut between the shared ring and the source.  Whatever
other workers do then, the worker's next allocation takes the first object of its cache and
touches neither the shared ring nor the source. -/
theorem free_leaves_cache_stocked [Inhabited α] [DecidableEq α] {config : PoolConfig}
    {source : Source} {pool : Pool Source α} (opened : Pool.create config source = .ok pool)
    (held : List α) (moves : List (PoolMove α)) {reached : PoolSystem Source α}
    (reaches : ({ PoolSystem.start pool with held }.run moves).1 = reached) (id : UInt64)
    {slot : WorkerSlot α} (found : reached.pool.slots[id.toNat]? = some slot) (object : α) :
    ∃ after changed,
      reached.pool.free id object = (after, .done) ∧
      after.desk changed = (reached.pool.desk slot).free config object ∧
      after.slots = reached.pool.slots.setIfInBounds id.toNat changed ∧
      changed.claimed = slot.claimed ∧ after.config = config ∧
      (slot.cache.toList.length < config.localCapacity.toNat - 1 →
        after.shared = reached.pool.shared) ∧
      ∀ (left : List α) (others : List (PoolMove α)), (∀ move ∈ others, move.worker ≠ id) →
        ∀ later, ({ reached with pool := after, held := left }.run others).1.pool = later →
          ∃ first cache, changed.cache.toList = first :: cache.toList ∧
            later.slots[id.toNat]? = some changed ∧
            later.alloc id =
              ({ later with slots := later.slots.setIfInBounds id.toNat { changed with
                  cache
                  stats := { changed.stats with cacheHits := changed.stats.cacheHits + 1 } } },
                .served (some first)) := by
  obtain ⟨localCapacity, sharedCapacity, sizing, sameConfig, shared, caches⟩ :=
    Pool.shelves_of_run opened held moves (congrArg PoolSystem.pool reaches)
  have cache := caches slot (Array.mem_of_getElem? found)
  rw [← sameConfig] at sizing
  obtain ⟨last, ran, tidy, desk, claimed⟩ := Pool.run_reaches sizing found cache shared
    (Or.inr (Or.inl ⟨object, rfl⟩)) (Desk.free_ends sizing (reached.pool.desk slot)
      cache.length_lt object)
  rw [sameConfig] at desk
  refine ⟨reached.pool.withWorkplace id last, last.slot, ran, desk, rfl, claimed, sameConfig,
    ?_, ?_⟩
  · intro room
    rcases cache.enqueue? object true with ⟨full, -⟩ | ⟨-, added, put, -, -⟩
    · rw [cache.vacancy_eq, size_of_checkCapacity sizing.cacheSlots, sameConfig] at full
      omega
    · have frees := Pool.free_of_room found put
      have same : reached.pool.withWorkplace id last = _ := congrArg Prod.fst (ran.symm.trans frees)
      rw [same]
  · intro left others apart later reachesLater
    have stocked : last.slot.cache.toList ≠ [] := by
      have cached := (reached.pool.desk slot).free_cache_ne_nil config object
      rw [← desk] at cached
      exact cached
    have own : later.slots[id.toNat]? = some last.slot := by
      rw [← reachesLater, (PoolSystem.run_others _ apart).1]
      exact Array.getElem?_setIfInBounds_self_of_lt (Array.getElem?_eq_some_iff.mp found).1
    rcases tidy.cache.dequeue? true with ⟨empty, -⟩ | ⟨first, rest, items, taken, -⟩
    · exact absurd empty stocked
    · exact ⟨first, rest, items, own, Pool.alloc_of_cached own taken⟩

open PoolSystem (duoCapacity)

/-- A sizing whose shared ring holds only one object, and so half a bulk. -/
def narrowConfig : PoolConfig := ⟨2, 4, 2, 0, 2, 1⟩

def narrowPool {Source : Type} (source : Source) : Pool Source UInt64 :=
  ⟨narrowConfig, .forObjects duoCapacity, Array.replicate 2 (.create sampleCapacity), source⟩

def narrowMoves : List (PoolMove UInt64) :=
  [.claim 0, .claim 1, .free 0 7, .advance 0, .free 0 8, .advance 0, .free 0 9, .advance 0]

def narrowReached : PoolSystem ScriptedSource UInt64 :=
  ({ PoolSystem.start (narrowPool (ScriptedSource.create none [])) with held := [7, 8, 9, 10] }.run
    narrowMoves).1

theorem narrowPool_opens {Source : Type} [ObjectSource Source UInt64] (source : Source) :
    Pool.create narrowConfig source = .ok (narrowPool source) := rfl

theorem narrowReached_run :
    ({ PoolSystem.start (narrowPool (ScriptedSource.create none [])) with
        held := [7, 8, 9, 10] }.run narrowMoves).1 = narrowReached := rfl

theorem narrowReached_desk :
    ∃ slot, narrowReached.pool.slots[(0 : UInt64).toNat]? = some slot ∧
      narrowReached.pool.desk slot =
        ⟨[7, 8, 9], [], slot.stats, ScriptedSource.create none []⟩ := by
  refine ⟨_, rfl, ?_⟩
  refine congrArg₂ (fun cache shared => (⟨cache, shared, _, _⟩ : Desk ScriptedSource UInt64)) ?_ ?_
  · decide +kernel
  · decide +kernel

def narrowOthers : List (PoolMove UInt64) :=
  List.flatten [[.alloc 1], List.replicate 3 (.advance 1), [.alloc 1],
    List.replicate 5 (.advance 1)]

/-- A bulk of two objects moves out of the full cache: one of them is stored, the other goes back
to the source. -/
theorem free_leaves_cache_stocked_sample :
    (∃ slot, narrowReached.pool.slots[(0 : UInt64).toNat]? = some slot ∧
      slot.cache.toList = [7, 8, 9]) ∧
    (∀ move ∈ narrowOthers, move.worker ≠ 0) ∧
    ∃ after, ∃ changed : WorkerSlot UInt64,
      narrowReached.pool.free 0 10 = (after, .done) ∧
      changed.cache.toList = [9, 10] ∧ after.shared.toList = [7] ∧
      after.source.account.freed = #[8] ∧
      ((({ narrowReached with pool := after, held := [] }.run narrowOthers).1.pool.alloc 0).2 =
        .served (some 9)) := by
  have apart : ∀ move ∈ narrowOthers, move.worker ≠ 0 := by decide
  obtain ⟨slot, found, before⟩ := narrowReached_desk
  obtain ⟨after, changed, ran, desk, -, -, -, -, next⟩ :=
    free_leaves_cache_stocked (narrowPool_opens _) [7, 8, 9, 10] narrowMoves narrowReached_run 0
      found 10
  rw [before] at desk
  have cache : changed.cache.toList = [9, 10] := congrArg Desk.cache desk
  have stored : after.shared.toList = [7] := congrArg Desk.shared desk
  have freed : after.source.account.freed = #[8] :=
    congrArg (fun desk => desk.source.account.freed) desk
  obtain ⟨first, rest, items, -, takes⟩ := next [] narrowOthers apart _ rfl
  rw [cache] at items
  obtain rfl : 9 = first := (List.cons.inj items).1
  refine ⟨⟨slot, found, congrArg Desk.cache before⟩, apart, after, changed, ran, cache, stored,
    freed, ?_⟩
  rw [takes]

end RingPool

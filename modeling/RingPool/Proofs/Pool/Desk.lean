import RingPool.Proofs.Pool.Shelves

/-!
# A worker's step on lists of objects

A `Desk` is what a worker can reach, with each ring taken for the list that it
holds.  `Desk.step` is one step of a worker in these terms alone: no cursors, no
paths, and no check of what a ring took against what it left.  As long as its
rings are shelves, a worker's workplace does just what its desk does
(`Workplace.Tidy.step`), and they stay shelves.
-/

set_option autoImplicit false

namespace RingPool

variable {Source α : Type}

def Capacity.vacancy (capacity : Capacity) (items : List α) : Nat :=
  capacity.size - 1 - items.length

/-- What a worker can reach, its rings as lists. -/
structure Desk (Source α : Type) where
  cache : List α
  shared : List α
  stats : WorkerStats
  source : Source

namespace Desk

def count (desk : Desk Source α) (change : WorkerStats → WorkerStats) : Desk Source α :=
  { desk with stats := change desk.stats }

def step [ObjectSource Source α] (config : PoolConfig) (localCapacity sharedCapacity : Capacity)
    (desk : Desk Source α) :
    WorkerPhase α → Desk Source α × Progress (WorkerPhase α) (WorkerOutcome α)
  | .hit =>
      match desk.cache with
      | object :: cache =>
          (({ desk with cache }).count fun stats =>
            { stats with cacheHits := stats.cacheHits + 1 },
            .returned (.served (some object)))
      | [] => (desk, .running .refill)
  | .refill =>
      match desk.shared.take config.bulkSize.toNat with
      | [] => (desk, .running .ask)
      | object :: rest =>
          (({ desk with shared := desk.shared.drop config.bulkSize.toNat }).count fun stats =>
            { stats with sharedRefills := stats.sharedRefills + 1 },
            .running (.stock object rest))
  | .stock object rest =>
      let room := localCapacity.vacancy desk.cache
      ({ desk with cache := desk.cache ++ rest.take room },
        .returned (if rest.length ≤ room then .served (some object)
          else .panicked .cacheOverflow))
  | .ask =>
      match ObjectSource.alloc desk.source with
      | (none, source) =>
          (({ desk with source }).count fun stats =>
            { stats with allocFailures := stats.allocFailures + 1 },
            .returned (.served none))
      | (some object, source) => ({ desk with source }, .running (.measure object))
  | .measure object =>
      let burst := min config.refillBurst.toNat (sharedCapacity.vacancy desk.shared)
      (desk, .running (.gather object burst #[]))
  | .gather object 0 burst => (desk, .running (.stow object burst))
  | .gather object (more + 1) burst =>
      match ObjectSource.alloc desk.source with
      | (none, source) => ({ desk with source }, .running (.stow object burst))
      | (some extra, source) =>
          ({ desk with source }, .running (.gather object more (burst.push extra)))
  | .stow object burst =>
      let room := sharedCapacity.vacancy desk.shared
      (({ desk with shared := desk.shared ++ burst.toList.take room }).count fun stats =>
        { stats with sourceAllocs := stats.sourceAllocs + burst.size + 1 },
        Workplace.reclaimAll (.serve object) (burst.toList.drop room))
  | .put object =>
      if 0 < localCapacity.vacancy desk.cache then
        ({ desk with cache := desk.cache ++ [object] }, .returned .done)
      else (desk, .running (.unload (.retry object)))
  | .retry object =>
      if 0 < localCapacity.vacancy desk.cache then
        ({ desk with cache := desk.cache ++ [object] }, .returned .done)
      else (desk, .returned (.panicked .cacheStillFull))
  | .check =>
      match desk.cache with
      | [] => (desk, .returned .done)
      | _ :: _ => (desk, .running (.unload .check))
  | .unload onward =>
      match desk.cache.take config.bulkSize.toNat with
      | [] => (desk, Workplace.goOn onward)
      | object :: rest =>
          ({ desk with cache := desk.cache.drop config.bulkSize.toNat },
            .running (.offload (object :: rest) onward))
  | .offload bulk onward =>
      let room := sharedCapacity.vacancy desk.shared
      (({ desk with shared := desk.shared ++ bulk.take room }).count fun stats =>
        if 0 < min bulk.length room then { stats with sharedSpills := stats.sharedSpills + 1 }
        else stats,
        Workplace.reclaimAll onward (bulk.drop room))
  | .reclaim object rest before onward =>
      let returned := { desk with source := ObjectSource.free desk.source object }
      match rest with
      | [] =>
          (returned.count fun stats =>
            { stats with sourceFrees := stats.sourceFrees + before + 1 },
            Workplace.goOn onward)
      | next :: rest => (returned, .running (.reclaim next rest (before + 1) onward))

end Desk

-- On a phase that is known a step computes.
attribute [simp] Workplace.step Desk.step

namespace Workplace

def desk (place : Workplace Source α) : Desk Source α :=
  ⟨place.slot.cache.toList, place.shared.toList, place.slot.stats, place.source⟩

structure Tidy (place : Workplace Source α) (localCapacity sharedCapacity : Capacity) : Prop where
  cache : place.slot.cache.IsShelf localCapacity
  shared : place.shared.IsShelf sharedCapacity

/-- A step that comes to the given desk and goes on as given, on rings that are
shelves after it, by a worker that is claimed or not as before. -/
structure Reaches (place : Workplace Source α) (localCapacity sharedCapacity : Capacity)
    (after : Workplace Source α × Progress (WorkerPhase α) (WorkerOutcome α))
    (goal : Desk Source α × Progress (WorkerPhase α) (WorkerOutcome α)) : Prop where
  tidy : after.1.Tidy localCapacity sharedCapacity
  desk : after.1.desk = goal.1
  progress : after.2 = goal.2
  claimed : after.1.slot.claimed = place.slot.claimed

namespace Tidy

variable {place : Workplace Source α} {localCapacity sharedCapacity : Capacity}

theorem cacheVacancy (tidy : place.Tidy localCapacity sharedCapacity) :
    place.slot.cache.vacancy = localCapacity.vacancy place.desk.cache :=
  tidy.cache.vacancy_eq

theorem sharedVacancy (tidy : place.Tidy localCapacity sharedCapacity) :
    place.shared.vacancy = sharedCapacity.vacancy place.desk.shared :=
  tidy.shared.vacancy_eq

theorem drop_of_take_eq_nil {items : List α} {count : Nat} (none : items.take count = []) :
    items.drop count = items := by
  have whole := List.take_append_drop count items
  rwa [none, List.nil_append] at whole

variable [ObjectSource Source α]

theorem hit (tidy : place.Tidy localCapacity sharedCapacity) (config : PoolConfig) :
    place.Reaches localCapacity sharedCapacity (place.step config .hit)
      (place.desk.step config localCapacity sharedCapacity .hit) := by
  rcases tidy.cache.dequeue? true with ⟨empty, refused⟩ | ⟨first, changed, items, taken, shelf⟩
  · have none : place.desk.cache = [] := empty
    simp only [Workplace.step, refused, Desk.step, none]
    exact ⟨tidy, rfl, rfl, rfl⟩
  · have some : place.desk.cache = first :: changed.toList := items
    simp only [Workplace.step, taken, Desk.step, some]
    exact ⟨⟨shelf, tidy.shared⟩, rfl, rfl, rfl⟩

theorem refill (tidy : place.Tidy localCapacity sharedCapacity) (config : PoolConfig) :
    place.Reaches localCapacity sharedCapacity (place.step config .refill)
      (place.desk.step config localCapacity sharedCapacity .refill) := by
  have spec := tidy.shared.dequeueBulk config.bulkSize false
  rcases moved : place.shared.dequeueBulk config.bulkSize false with ⟨changed, bulk⟩
  rw [moved] at spec
  obtain ⟨shelf, left, taken⟩ := spec
  have front : place.desk.shared.take config.bulkSize.toNat = bulk := taken.symm
  simp only [Workplace.step, moved, Desk.step, front]
  cases bulk with
  | nil =>
      refine ⟨⟨tidy.cache, shelf⟩, ?_, rfl, rfl⟩
      have same : changed.toList = place.shared.toList := left.trans (drop_of_take_eq_nil front)
      simp only [desk, same]
  | cons object rest =>
      refine ⟨⟨tidy.cache, shelf⟩, ?_, rfl, rfl⟩
      simp only [desk, Desk.count, Workplace.count, left]

theorem stock (tidy : place.Tidy localCapacity sharedCapacity) (config : PoolConfig)
    (object : α) (rest : List α) :
    place.Reaches localCapacity sharedCapacity (place.step config (.stock object rest))
      (place.desk.step config localCapacity sharedCapacity (.stock object rest)) := by
  obtain ⟨changed, enqueued, moved, -, list, shelf⟩ := tidy.cache.enqueueBulk rest true
  rw [tidy.cacheVacancy] at moved list
  by_cases fits : rest.length ≤ localCapacity.vacancy place.desk.cache
  · rw [List.drop_eq_nil_of_le fits] at moved
    simp only [Workplace.step, moved, Desk.step, if_pos fits]
    refine ⟨⟨shelf, tidy.shared⟩, ?_, rfl, rfl⟩
    simp only [desk, withCache, list]
  · obtain ⟨first, others, excess⟩ : ∃ first others,
        rest.drop (localCapacity.vacancy place.desk.cache) = first :: others :=
      List.exists_cons_of_ne_nil (by simpa using fits)
    rw [excess] at moved
    simp only [Workplace.step, moved, Desk.step, if_neg fits]
    refine ⟨⟨shelf, tidy.shared⟩, ?_, rfl, rfl⟩
    simp only [desk, withCache, list]

theorem ask (tidy : place.Tidy localCapacity sharedCapacity) (config : PoolConfig) :
    place.Reaches localCapacity sharedCapacity (place.step config .ask)
      (place.desk.step config localCapacity sharedCapacity .ask) := by
  have same : place.desk.source = place.source := rfl
  rcases answer : ObjectSource.alloc place.source with ⟨_ | object, source⟩ <;>
    simp only [Workplace.step, Desk.step, same, answer] <;>
    exact ⟨⟨tidy.cache, tidy.shared⟩, rfl, rfl, rfl⟩

theorem measure (tidy : place.Tidy localCapacity sharedCapacity) (config : PoolConfig)
    (object : α) :
    place.Reaches localCapacity sharedCapacity (place.step config (.measure object))
      (place.desk.step config localCapacity sharedCapacity (.measure object)) := by
  have room : (min config.refillBurst place.shared.availSpace).toNat =
      min config.refillBurst.toNat (sharedCapacity.vacancy place.desk.shared) := by
    rw [UInt32.toNat_min, tidy.shared.availSpace_toNat, tidy.sharedVacancy]
  simp only [Workplace.step, Desk.step, room]
  exact ⟨tidy, rfl, rfl, rfl⟩

theorem gather (tidy : place.Tidy localCapacity sharedCapacity) (config : PoolConfig)
    (object : α) (more : Nat) (burst : Array α) :
    place.Reaches localCapacity sharedCapacity (place.step config (.gather object more burst))
      (place.desk.step config localCapacity sharedCapacity (.gather object more burst)) := by
  cases more with
  | zero => exact ⟨tidy, rfl, rfl, rfl⟩
  | succ more =>
      have same : place.desk.source = place.source := rfl
      rcases answer : ObjectSource.alloc place.source with ⟨_ | extra, source⟩ <;>
        simp only [Workplace.step, Desk.step, same, answer] <;>
        exact ⟨⟨tidy.cache, tidy.shared⟩, rfl, rfl, rfl⟩

/-- What a shelf takes of a burst and what it leaves are the burst. -/
theorem stow (tidy : place.Tidy localCapacity sharedCapacity) (config : PoolConfig)
    (object : α) (burst : Array α) :
    place.Reaches localCapacity sharedCapacity (place.step config (.stow object burst))
      (place.desk.step config localCapacity sharedCapacity (.stow object burst)) := by
  obtain ⟨changed, stored, moved, number, list, shelf⟩ := tidy.shared.offerBulk burst.toList
  rw [tidy.sharedVacancy] at moved number list
  have whole : stored.toNat +
      (burst.toList.drop (sharedCapacity.vacancy place.desk.shared)).length = burst.size := by
    rw [number, List.length_drop, Array.length_toList]
    omega
  simp only [Workplace.step, Desk.step, moved, if_pos whole]
  refine ⟨⟨tidy.cache, shelf⟩, ?_, rfl, rfl⟩
  simp only [desk, Desk.count, Workplace.count, list]

theorem put (tidy : place.Tidy localCapacity sharedCapacity) (config : PoolConfig)
    (object : α) :
    place.Reaches localCapacity sharedCapacity (place.step config (.put object))
      (place.desk.step config localCapacity sharedCapacity (.put object)) := by
  have room := tidy.cacheVacancy
  rcases tidy.cache.enqueue? object true with ⟨full, refused⟩ | ⟨free, changed, added, list, shelf⟩
  · simp only [Workplace.step, refused, Desk.step, ← room, full, Nat.lt_irrefl, if_false]
    exact ⟨tidy, rfl, rfl, rfl⟩
  · simp only [Workplace.step, added, Desk.step, ← room, free, if_true]
    refine ⟨⟨shelf, tidy.shared⟩, ?_, rfl, rfl⟩
    simp only [desk, withCache, list]

theorem retry (tidy : place.Tidy localCapacity sharedCapacity) (config : PoolConfig)
    (object : α) :
    place.Reaches localCapacity sharedCapacity (place.step config (.retry object))
      (place.desk.step config localCapacity sharedCapacity (.retry object)) := by
  have room := tidy.cacheVacancy
  rcases tidy.cache.enqueue? object true with ⟨full, refused⟩ | ⟨free, changed, added, list, shelf⟩
  · simp only [Workplace.step, refused, Desk.step, ← room, full, Nat.lt_irrefl, if_false]
    exact ⟨tidy, rfl, rfl, rfl⟩
  · simp only [Workplace.step, added, Desk.step, ← room, free, if_true]
    refine ⟨⟨shelf, tidy.shared⟩, ?_, rfl, rfl⟩
    simp only [desk, withCache, list]

theorem check (tidy : place.Tidy localCapacity sharedCapacity) (config : PoolConfig) :
    place.Reaches localCapacity sharedCapacity (place.step config .check)
      (place.desk.step config localCapacity sharedCapacity .check) := by
  have empty : place.slot.cache.isEmpty = place.desk.cache.isEmpty := tidy.cache.isEmpty
  cases items : place.desk.cache with
  | nil =>
      simp only [Workplace.step, Desk.step, empty, items, List.isEmpty_nil, if_true]
      exact ⟨tidy, rfl, rfl, rfl⟩
  | cons first rest =>
      simp only [Workplace.step, Desk.step, empty, items, List.isEmpty_cons,
        Bool.false_eq_true, if_false]
      exact ⟨tidy, rfl, rfl, rfl⟩

theorem unload (tidy : place.Tidy localCapacity sharedCapacity) (config : PoolConfig)
    (onward : Onward α) :
    place.Reaches localCapacity sharedCapacity (place.step config (.unload onward))
      (place.desk.step config localCapacity sharedCapacity (.unload onward)) := by
  have spec := tidy.cache.dequeueBulk config.bulkSize true
  rcases moved : place.slot.cache.dequeueBulk config.bulkSize true with ⟨changed, bulk⟩
  rw [moved] at spec
  obtain ⟨shelf, left, taken⟩ := spec
  have front : place.desk.cache.take config.bulkSize.toNat = bulk := taken.symm
  simp only [Workplace.step, moved, Desk.step, front]
  cases bulk with
  | nil =>
      refine ⟨⟨shelf, tidy.shared⟩, ?_, rfl, rfl⟩
      have same : changed.toList = place.slot.cache.toList :=
        left.trans (drop_of_take_eq_nil front)
      simp only [desk, withCache, same]
  | cons object rest =>
      refine ⟨⟨shelf, tidy.shared⟩, ?_, rfl, rfl⟩
      simp only [desk, withCache, left]

theorem offload (tidy : place.Tidy localCapacity sharedCapacity) (config : PoolConfig)
    (bulk : List α) (onward : Onward α) :
    place.Reaches localCapacity sharedCapacity (place.step config (.offload bulk onward))
      (place.desk.step config localCapacity sharedCapacity (.offload bulk onward)) := by
  obtain ⟨changed, stored, moved, number, list, shelf⟩ := tidy.shared.offerBulk bulk
  rw [tidy.sharedVacancy] at moved number list
  simp only [Workplace.step, Desk.step, moved, UInt32.lt_iff_toNat_lt, UInt32.toNat_zero, number]
  refine ⟨⟨tidy.cache, shelf⟩, ?_, rfl, rfl⟩
  simp only [desk, Desk.count, Workplace.count, list]

theorem reclaim (tidy : place.Tidy localCapacity sharedCapacity) (config : PoolConfig)
    (object : α) (rest : List α) (before : Nat) (onward : Onward α) :
    place.Reaches localCapacity sharedCapacity
      (place.step config (.reclaim object rest before onward))
      (place.desk.step config localCapacity sharedCapacity
        (.reclaim object rest before onward)) := by
  cases rest <;> exact ⟨⟨tidy.cache, tidy.shared⟩, rfl, rfl, rfl⟩

/-- On shelves a worker's step is that of its desk. -/
theorem step (tidy : place.Tidy localCapacity sharedCapacity) (config : PoolConfig)
    (phase : WorkerPhase α) :
    place.Reaches localCapacity sharedCapacity (place.step config phase)
      (place.desk.step config localCapacity sharedCapacity phase) := by
  cases phase with
  | hit => exact tidy.hit config
  | refill => exact tidy.refill config
  | stock object rest => exact tidy.stock config object rest
  | ask => exact tidy.ask config
  | measure object => exact tidy.measure config object
  | gather object more burst => exact tidy.gather config object more burst
  | stow object burst => exact tidy.stow config object burst
  | put object => exact tidy.put config object
  | retry object => exact tidy.retry config object
  | check => exact tidy.check config
  | unload onward => exact tidy.unload config onward
  | offload bulk onward => exact tidy.offload config bulk onward
  | reclaim object rest before onward => exact tidy.reclaim config object rest before onward

end Tidy

end Workplace

end RingPool

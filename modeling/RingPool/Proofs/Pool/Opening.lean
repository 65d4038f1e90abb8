import RingPool.Proofs.Pool.Desk

/-!
# How a pool opens

An accepted sizing gives two capacities of which the rings of the pool are made.
The source is asked for at most as many objects as the shared ring takes, so all
that it gives are in that ring when the pool opens, in the order in which they
came, and the caches are empty.
-/

set_option autoImplicit false

namespace RingPool

variable {Source α : Type}

/-- What the workers of a pool rely on of its sizing. -/
structure PoolConfig.Fits (config : PoolConfig) (localCapacity sharedCapacity : Capacity) :
    Prop where
  cacheSlots : checkCapacity config.localCapacity = .ok localCapacity
  sharedSlots : checkCapacity config.sharedCapacity = .ok sharedCapacity
  bulkSize_pos : 0 < config.bulkSize.toNat
  bulkSize_le : config.bulkSize.toNat ≤ localCapacity.size

theorem size_of_checkCapacity {slots : UInt32} {capacity : Capacity}
    (accepted : checkCapacity slots = .ok capacity) : capacity.size = slots.toNat := by
  unfold checkCapacity at accepted
  split at accepted
  case h_1 found =>
    cases accepted
    exact Capacity.size_of_ofSize? found
  case h_2 => cases accepted

theorem PoolConfig.checks_of_check {config : PoolConfig} {localCapacity sharedCapacity : Capacity}
    (accepted : config.check = .ok (localCapacity, sharedCapacity)) :
    checkCapacity config.localCapacity = .ok localCapacity ∧
      checkCapacity config.sharedCapacity = .ok sharedCapacity ∧
      config.bulkSize ≠ 0 ∧ config.bulkSize ≤ config.localCapacity ∧
      config.refillBurst ≤ config.sharedCapacity := by
  unfold PoolConfig.check at accepted
  split at accepted
  · cases accepted
  split at accepted
  · cases accepted
  case isFalse bulk =>
  split at accepted
  · cases accepted
  split at accepted
  · cases accepted
  · cases accepted
  case h_3 first second =>
  split at accepted
  · cases accepted
  case isFalse cacheTakes =>
  split at accepted
  · cases accepted
  case isFalse ringTakes =>
  split at accepted
  · cases accepted
  cases accepted
  exact ⟨first, second, bulk, UInt32.not_lt.mp cacheTakes, UInt32.not_lt.mp ringTakes⟩

theorem PoolConfig.fits_of_check {config : PoolConfig} {localCapacity sharedCapacity : Capacity}
    (accepted : config.check = .ok (localCapacity, sharedCapacity)) :
    config.Fits localCapacity sharedCapacity := by
  obtain ⟨first, second, bulk, cacheTakes, -⟩ := checks_of_check accepted
  refine ⟨first, second, Nat.pos_of_ne_zero fun zero => bulk (UInt32.toNat_inj.mp zero), ?_⟩
  rw [size_of_checkCapacity first]
  exact UInt32.le_iff_toNat_le.mp cacheTakes

theorem Ring.create_forObjects [Inhabited α] {slots : UInt32} {capacity : Capacity}
    (accepted : checkCapacity slots = .ok capacity) :
    Ring.create slots .burst none = .ok (Ring.forObjects capacity : Ring α) := by
  unfold Ring.create
  rw [accepted]
  rfl

section Source

variable [ObjectSource Source α]

theorem ObjectSource.allocUpTo_size_le (source : Source) (count : Nat) (obtained : Array α) :
    (allocUpTo source count obtained).1.size ≤ obtained.size + count := by
  induction count generalizing source obtained with
  | zero => exact Nat.le_refl _
  | succ count ih =>
      rw [allocUpTo]
      rcases alloc source with ⟨_ | object, source⟩
      · exact Nat.le_add_right _ _
      · refine (ih source (obtained.push object)).trans ?_
        rw [Array.size_push]
        omega

def PoolConfig.preallocated (config : PoolConfig) (sharedCapacity : Capacity) (source : Source) :
    Array α × Source :=
  ObjectSource.allocUpTo source (min config.prealloc sharedCapacity.mask).toNat #[]

theorem PoolConfig.preallocated_size_lt (config : PoolConfig) (sharedCapacity : Capacity)
    (source : Source) :
    (config.preallocated sharedCapacity source : Array α × Source).1.size <
      sharedCapacity.size := by
  have given := ObjectSource.allocUpTo_size_le source
    (min config.prealloc sharedCapacity.mask).toNat (#[] : Array α)
  have asked : (min config.prealloc sharedCapacity.mask).toNat ≤ sharedCapacity.mask.toNat := by
    rw [UInt32.toNat_min]
    exact Nat.min_le_right _ _
  have mask := sharedCapacity.mask_toNat
  have pos := sharedCapacity.size_pos
  rw [PoolConfig.preallocated]
  rw [Array.size_empty] at given
  omega

/-- All that the source gives in advance fits the empty shared ring. -/
theorem PoolConfig.prealloc_fits [Inhabited α] (config : PoolConfig) (sharedCapacity : Capacity)
    (source : Source) {objects : Array α} {left : Source}
    (given : config.preallocated sharedCapacity source = (objects, left)) :
    ∃ shared : Ring α,
      (Ring.forObjects sharedCapacity).offerBulk objects.toList =
        (shared, UInt32.ofNat objects.size, []) ∧
      shared.toList = objects.toList ∧ shared.IsShelf sharedCapacity := by
  have few := config.preallocated_size_lt sharedCapacity source (α := α)
  rw [given] at few
  change objects.size < sharedCapacity.size at few
  have empty := Ring.forObjects_isShelf (α := α) sharedCapacity
  obtain ⟨shared, stored, offered, number, list, shelf⟩ := empty.offerBulk objects.toList
  have vacancy : (Ring.forObjects sharedCapacity : Ring α).vacancy = sharedCapacity.size - 1 := by
    rw [empty.vacancy_eq, Ring.forObjects_toList, List.length_nil, Nat.sub_zero]
  have fits : objects.toList.length ≤ (Ring.forObjects sharedCapacity : Ring α).vacancy := by
    rw [vacancy, Array.length_toList]
    omega
  rw [Nat.min_eq_left fits, Array.length_toList] at number
  refine ⟨shared, ?_, ?_, shelf⟩
  · rw [offered, List.drop_eq_nil_of_le fits, ← number, UInt32.ofNat_toNat]
  · rw [list, Ring.forObjects_toList, List.nil_append, List.take_of_length_le fits]

/-- With an accepted sizing a pool is built around what the source gave in advance.  It opens if
that is all it asked for, and goes at once if it is not. -/
theorem Pool.create_eq [Inhabited α] {config : PoolConfig} {source left : Source}
    {localCapacity sharedCapacity : Capacity} {objects : Array α}
    (accepted : config.check = .ok (localCapacity, sharedCapacity))
    (given : config.preallocated sharedCapacity source = (objects, left)) :
    ∃ built : Pool Source α, built.config = config ∧ built.shared.IsShelf sharedCapacity ∧
      built.shared.toList = objects.toList ∧
      built.slots = Array.replicate config.workers.toNat (.create localCapacity) ∧
      built.source = left ∧
      Pool.create config source =
        if objects.size < (min config.prealloc sharedCapacity.mask).toNat then
          .error (.prealloc (min config.prealloc sharedCapacity.mask) (UInt32.ofNat objects.size),
            built.destroy.1)
        else .ok built := by
  obtain ⟨shared, offered, list, shelf⟩ := config.prealloc_fits sharedCapacity source given
  have asked : ObjectSource.allocUpTo source
      (min config.prealloc sharedCapacity.mask).toNat #[] = (objects, left) := given
  refine ⟨⟨config, shared, Array.replicate config.workers.toNat (.create localCapacity), left⟩,
    rfl, shelf, list, rfl, rfl, ?_⟩
  rw [Pool.create, accepted]
  simp only [asked, offered]

/-- A pool that opens has an accepted sizing, its shared ring holds what the source
gave in advance, and its workers have empty caches. -/
theorem Pool.of_create [Inhabited α] {config : PoolConfig} {source : Source}
    {pool : Pool Source α} (opened : Pool.create config source = .ok pool) :
    ∃ localCapacity sharedCapacity, config.Fits localCapacity sharedCapacity ∧
      pool.config = config ∧ pool.shared.IsShelf sharedCapacity ∧
      pool.slots = Array.replicate config.workers.toNat (.create localCapacity) ∧
      config.preallocated sharedCapacity source = (pool.shared.toList.toArray, pool.source) := by
  cases checked : config.check with
  | error fault =>
      rw [Pool.create, checked] at opened
      cases opened
  | ok capacities =>
      obtain ⟨localCapacity, sharedCapacity⟩ := capacities
      obtain ⟨objects, left, given⟩ : ∃ objects left,
          config.preallocated sharedCapacity source = (objects, left) := ⟨_, _, rfl⟩
      obtain ⟨built, sizing, shelf, list, slots, source, created⟩ := Pool.create_eq checked given
      rw [created] at opened
      split at opened
      case isTrue => cases opened
      case isFalse =>
      cases opened
      refine ⟨localCapacity, sharedCapacity, PoolConfig.fits_of_check checked, sizing, shelf,
        slots, ?_⟩
      rw [given, list, source]

end Source

end RingPool

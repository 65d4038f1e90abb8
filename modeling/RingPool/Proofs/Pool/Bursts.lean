import RingPool.Proofs.Pool.Allocation
import RingPool.Proofs.Pool.Construction

/-!
# How much of a burst the shared ring takes

A sizing is refused if its shared ring has fewer slots than a refill burst has objects.  The ring
takes one object fewer than it has slots, and a worker clamps a burst to what the ring takes.  So
a burst of as many objects as the ring has slots is accepted, and fills the ring with one fewer.

Main statement: an allocation that finds the cache and the shared ring empty, over a source that
does not fail, gets one object for the caller and then the burst or the filling of the ring,
whichever is less; it is the whole burst if and only if the ring has more slots than that.
-/

set_option autoImplicit false

namespace RingPool

variable {Source α : Type} [ObjectSource Source α]

/-- However many objects it is asked for, the source gives all of them. -/
def ObjectSource.Steady (source : Source) : Prop :=
  ∀ count, ∃ (objects : List α) (left : Source), Gives source objects left ∧
    objects.length = count

theorem ObjectSource.Steady.gives_next {source : Source} (steady : Steady source) (more : Nat) :
    ∃ (object : α) (extras : List α) (left : Source), Gives source (object :: extras) left ∧
      extras.length = more := by
  obtain ⟨objects, left, gives, length⟩ := steady (more + 1)
  obtain ⟨object, extras, rfl⟩ := List.exists_cons_of_length_eq_add_one length
  exact ⟨object, extras, left, gives, Nat.succ.inj length⟩

/-! ## What an accepted sizing says of a burst -/

namespace PoolConfig

variable {config : PoolConfig} {localCapacity sharedCapacity : Capacity}

/-- Capacities are far below the largest word, and so an accepted burst is what it is called. -/
theorem refillBurst_toNat_of_check
    (accepted : config.check = .ok (localCapacity, sharedCapacity)) :
    config.refillBurst.toNat = config.bulkSize.toNat * config.refillMultiplier.toNat := by
  obtain ⟨-, slots, -, -, fits⟩ := checks_of_check accepted
  have size := size_of_checkCapacity slots
  rw [UInt32.le_iff_toNat_le] at fits
  have bound := sharedCapacity.size_le_maxCapacity
  unfold refillBurst maxCapacity at *
  have word : UInt32.size = 4294967296 := rfl
  rw [UInt32.toNat_ofNat_of_lt' (by omega)] at fits ⊢
  omega

theorem exists_check_of_create [Inhabited α] {source : Source} {pool : Pool Source α}
    (opened : Pool.create config source = .ok pool) :
    ∃ localCapacity sharedCapacity, config.check = .ok (localCapacity, sharedCapacity) := by
  cases checked : config.check with
  | error fault =>
      rw [Pool.create, checked] at opened
      cases opened
  | ok capacities => exact ⟨capacities.1, capacities.2, rfl⟩

/-- How many objects a burst brings into the empty shared ring. -/
def stowed (config : PoolConfig) : Nat :=
  min config.refillBurst.toNat (config.sharedCapacity.toNat - 1)

end PoolConfig

/-- A source that gives an object and the burst leaves nothing out. -/
theorem Desk.alloc_of_gives {config : PoolConfig} {desk : Desk Source α} (cache : desk.cache = [])
    (shared : desk.shared = []) {object : α} {extras : List α} {left : Source}
    (gives : ObjectSource.Gives desk.source (object :: extras) left)
    (length : extras.length = config.stowed) :
    desk.alloc config = (⟨[], extras,
      { desk.stats with sourceAllocs := desk.stats.sourceAllocs + extras.length + 1 }, left⟩,
      some object) := by
  cases gives with
  | next gave further =>
      have burst := further.allocUpTo 0 #[]
      rw [Nat.add_zero, length, PoolConfig.stowed, ObjectSource.allocUpTo,
        List.toArray_appendList] at burst
      simp only [Desk.alloc, cache, shared, gave, burst, Desk.count]
      rfl

/-- Over a source that does not fail, an allocation that nobody interrupts and that finds the
worker's cache and the shared ring empty gives the first object that it gets, and leaves those
that follow in the shared ring, in their order.  They are a whole burst if and only if the shared
ring has more slots than a burst has objects; else the burst has as many as the ring has slots,
and one of them is not asked for. -/
theorem refill_is_burst_or_filling [Inhabited α] [DecidableEq α] {config : PoolConfig}
    {source : Source} {pool : Pool Source α} (opened : Pool.create config source = .ok pool)
    (held : List α) (moves : List (PoolMove α)) {reached : Pool Source α}
    (reaches : ({ PoolSystem.start pool with held }.run moves).1.pool = reached) (id : UInt64)
    {slot : WorkerSlot α} (found : reached.slots[id.toNat]? = some slot)
    (cache : slot.cache.toList = []) (shared : reached.shared.toList = [])
    (steady : ObjectSource.Steady reached.source) :
    let burst := config.refillBurst.toNat
    burst = config.bulkSize.toNat * config.refillMultiplier.toNat ∧
    ∃ (object : α) (extras : List α) (after : Pool Source α) (changed : WorkerSlot α),
      reached.alloc id = (after, .served (some object)) ∧
      after.slots = reached.slots.setIfInBounds id.toNat changed ∧
      after.shared.toList = extras ∧ changed.cache.toList = [] ∧
      ObjectSource.Gives reached.source (object :: extras) after.source ∧
      changed.stats =
        { slot.stats with sourceAllocs := slot.stats.sourceAllocs + extras.length + 1 } ∧
      extras.length = min burst (config.sharedCapacity.toNat - 1) ∧
      (extras.length = burst ↔ burst < config.sharedCapacity.toNat) ∧
      (extras.length ≠ burst → burst = config.sharedCapacity.toNat ∧
        extras.length + 1 = burst) := by
  intro burst
  obtain ⟨localCapacity, sharedCapacity, accepted⟩ := PoolConfig.exists_check_of_create opened
  have product := PoolConfig.refillBurst_toNat_of_check accepted
  obtain ⟨-, ringSlots, -, -, ringTakes⟩ := PoolConfig.checks_of_check accepted
  have fits : burst ≤ config.sharedCapacity.toNat := UInt32.le_iff_toNat_le.mp ringTakes
  have slots : 2 ≤ config.sharedCapacity.toNat := by
    rw [← size_of_checkCapacity ringSlots]
    exact sharedCapacity.two_le_size
  obtain ⟨localSize, sharedSize, sizing, rfl, shelf, caches⟩ :=
    Pool.shelves_of_run opened held moves reaches
  obtain ⟨after, changed, ran, -, changes, -, desk⟩ :=
    Pool.run_ends sizing found (caches slot (Array.mem_of_getElem? found)) shelf (Or.inl rfl)
      (Desk.alloc_ends sizing (reached.desk slot))
  obtain ⟨object, extras, left, gives, length⟩ := steady.gives_next reached.config.stowed
  have stocked : (reached.desk slot).alloc reached.config = _ :=
    Desk.alloc_of_gives cache shared gives length
  rw [stocked] at ran desk
  have number : extras.length = min burst (reached.config.sharedCapacity.toNat - 1) := length
  refine ⟨product, object, extras, after, changed, ran, changes, congrArg Desk.shared desk,
    congrArg Desk.cache desk, ?_, congrArg Desk.stats desk, number, ?_, ?_⟩
  · have source : after.source = left := congrArg Desk.source desk
    rw [source]
    exact gives
  · omega
  · omega

theorem ScriptedSource.steady {source : ScriptedSource} (unlimited : source.limit = none)
    (flawless : source.failing = []) : ObjectSource.Steady source := by
  intro count
  induction count generalizing source with
  | zero => exact ⟨[], source, .nothing source, rfl⟩
  | succ count ih =>
      let after : ScriptedSource := { source with
        calls := source.calls + 1
        next := source.next + 1
        outstanding := source.outstanding + 1
        account := { source.account with
          allocated := source.account.allocated.push source.next } }
      have gave : ObjectSource.alloc source = (some source.next, after) := by
        simp [ObjectSource.alloc, ScriptedSource.alloc, flawless, exhausted, unlimited, after]
      have unlimitedAfter : after.limit = none := unlimited
      have flawlessAfter : after.failing = [] := flawless
      obtain ⟨objects, left, gives, length⟩ := ih unlimitedAfter flawlessAfter
      exact ⟨source.next :: objects, left, .next gave gives, congrArg (· + 1) length⟩

/-- A sizing of which the shared ring takes one object more than a burst has. -/
def roomyConfig : PoolConfig := { tightConfig with refillMultiplier := 1 }

def roomyPool : Pool ScriptedSource UInt64 := { tightPool with config := roomyConfig }

def roomyReached : Pool ScriptedSource UInt64 :=
  ({ PoolSystem.start roomyPool with held := [] }.run [.claim 0]).1.pool

theorem refill_is_burst_or_filling_sample :
    roomyConfig.refillBurst.toNat = 2 ∧
      ∃ (object : UInt64) (extras : List UInt64) (after : Pool ScriptedSource UInt64),
        roomyReached.alloc 0 = (after, .served (some object)) ∧
        after.shared.toList = extras ∧ extras.length = 2 := by
  have opened : Pool.create roomyConfig (ScriptedSource.create none []) = .ok roomyPool := rfl
  have found : roomyReached.slots[(0 : UInt64).toNat]? = some tightSlot := rfl
  have steady : ObjectSource.Steady roomyReached.source := ScriptedSource.steady rfl rfl
  obtain ⟨-, object, extras, after, changed, ran, -, shared, -, -, -, -, whole, -⟩ :=
    refill_is_burst_or_filling opened [] [.claim 0] rfl 0 found rfl rfl steady
  have burst : roomyConfig.refillBurst.toNat = 2 := by decide
  have room : roomyConfig.refillBurst.toNat < roomyConfig.sharedCapacity.toNat := by decide
  exact ⟨burst, object, extras, after, ran, shared, (whole.mpr room).trans burst⟩

def tightBegun : Pool ScriptedSource UInt64 :=
  ({ PoolSystem.start tightPool with held := [] }.run [.claim 0]).1.pool

/-- A burst of four objects is accepted with a shared ring of four slots, which is left with three
of them; and the source has been asked for four objects, not for five. -/
theorem refill_falls_short_of_burst :
    Pool.create tightConfig (ScriptedSource.create none []) = .ok tightPool ∧
      ObjectSource.Steady tightBegun.source ∧
      tightBegun.slots[(0 : UInt64).toNat]? = some tightSlot ∧
      tightSlot.cache.toList = [] ∧ tightBegun.shared.toList = [] ∧
      tightConfig.refillBurst = 4 ∧
      (tightBegun.alloc 0).2 = .served (some 0) ∧
      (tightBegun.alloc 0).1.shared.toList = [1, 2, 3] ∧
      (tightBegun.alloc 0).1.source.calls = 4 := by
  refine ⟨rfl, ScriptedSource.steady rfl rfl, rfl, rfl, rfl, ?_, ?_, ?_, ?_⟩
  · decide
  · decide +kernel
  · decide +kernel
  · decide +kernel

end RingPool

import Mathlib.Algebra.BigOperators.Group.List.Basic
import RingPool.Proofs.Pool.Service

/-!
# When a pool has no object to give

Calls come one after another (`PoolSystem.useAll`), on a pool whose source has a fixed
number of objects.  Between them all objects are with callers, in the shared ring or in
caches (`PoolSystem.inventory_of_idle`), and an allocation that fails has found its own
cache, the shared ring and the source empty.  So nothing is lost in between: what is
beyond a worker's reach then is all there is (`PoolSystem.beyond`).

Main statement: a worker gets nothing if and only if the objects that callers hold and
those in the caches of other workers are all that the source gives; and it gets nothing
again until an object is returned or another worker's cache is flushed.
-/

set_option autoImplicit false

namespace RingPool

variable {Source α : Type}

/-- A call that nobody interrupts. -/
inductive PoolUse (α : Type) where
  | alloc (id : UInt64)
  /-- Returns an object that a caller holds. -/
  | free (id : UInt64) (object : α)
  | flush (id : UInt64)

namespace PoolSystem

/-! ## Calls one after another -/

theorem receive_eq (system : PoolSystem Source α) (outcome : WorkerOutcome α) :
    system.receive outcome =
      { system with held := handedOut (.returned outcome) ++ system.held } := by
  rcases outcome with (_ | object) | _ | panic <;> rfl

section Uses

variable [ObjectSource Source α] [DecidableEq α]

/-- The pool and what callers hold after a call.  An object that nobody holds is not
returned, and a worker that there is not returns none. -/
def use (system : PoolSystem Source α) : PoolUse α → PoolSystem Source α
  | .alloc id =>
      let (pool, outcome) := system.pool.alloc id
      { system with pool }.receive outcome
  | .free id object =>
      if object ∈ system.held ∧ id.toNat < system.pool.slots.size then
        let (pool, outcome) := system.pool.free id object
        { system with pool, held := system.held.erase object }.receive outcome
      else system
  | .flush id =>
      let (pool, outcome) := system.pool.flush id
      { system with pool }.receive outcome

def useAll (system : PoolSystem Source α) (uses : List (PoolUse α)) : PoolSystem Source α :=
  uses.foldl use system

end Uses

end PoolSystem

def PoolUse.worker : PoolUse α → UInt64
  | .alloc id => id
  | .free id _ => id
  | .flush id => id

def Pool.cachedElsewhere (pool : Pool Source α) (id : UInt64) : Nat :=
  ((pool.slots.toList.eraseIdx id.toNat).map fun slot => slot.cache.count.toNat).sum

namespace Pool

theorem cached_add_cachedElsewhere {pool : Pool Source α} {id : UInt64} {slot : WorkerSlot α}
    (found : pool.slots[id.toNat]? = some slot) :
    slot.cache.count.toNat + pool.cachedElsewhere id =
      (pool.slots.toList.map fun slot => slot.cache.count.toNat).sum := by
  obtain ⟨inside, same⟩ := Array.getElem?_eq_some_iff.mp found
  have known : id.toNat < (pool.slots.toList.map fun slot => slot.cache.count.toNat).length := by
    rw [List.length_map]
    exact inside
  have split := List.CommMonoid.add_sum_eraseIdx known
  rw [List.getElem_map, Array.getElem_toList, same, List.eraseIdx_map] at split
  exact split

theorem cachedElsewhere_congr {before after : Pool Source α} {id : UInt64}
    (others : ∀ index, index ≠ id.toNat → after.slots[index]? = before.slots[index]?) :
    after.cachedElsewhere id = before.cachedElsewhere id := by
  have same : after.slots.toList.eraseIdx id.toNat = before.slots.toList.eraseIdx id.toNat := by
    refine List.ext_getElem? fun index => ?_
    rw [List.getElem?_eraseIdx, List.getElem?_eraseIdx]
    split
    · rw [Array.getElem?_toList, Array.getElem?_toList]
      exact others index (by omega)
    · rw [Array.getElem?_toList, Array.getElem?_toList]
      exact others (index + 1) (by omega)
  rw [cachedElsewhere, cachedElsewhere, same]

end Pool

/-! ## What the objects of a pool come to between calls -/

theorem flatMap_range_getElem? {β γ : Type} (items : List β) (list : β → List γ) {count : Nat}
    (few : items.length ≤ count) :
    ((List.range count).flatMap fun index => items[index]?.elim [] list) = items.flatMap list := by
  induction items generalizing count with
  | nil => simp
  | cons first rest ih =>
      cases count with
      | zero => cases few
      | succ count =>
          rw [List.range_succ_eq_map, List.flatMap_cons, List.flatMap_cons, List.flatMap_map,
            ← ih (Nat.le_of_succ_le_succ few)]
          rfl

namespace PoolSystem

section Stock

variable {system : PoolSystem Source α}

theorem flatMap_ids (system : PoolSystem Source α)
    (few : system.pool.slots.size ≤ UInt64.size) :
    (Place.ids.map Place.cache).flatMap system.objectsAt =
      system.pool.slots.toList.flatMap fun slot => slot.cache.toList := by
  rw [← flatMap_range_getElem? _ _ few, ← List.map_coe_finRange_eq_range, Place.ids,
    List.flatMap_map, List.flatMap_map, List.flatMap_map]
  refine List.flatMap_congr fun id _ => ?_
  have same : (UInt64.ofFin id).toNat = id := rfl
  rw [objectsAt, same, Array.getElem?_toList]
  cases system.pool.slots[id.val]? <;> rfl

/-- While nobody is within a call, callers, the shared ring and the caches have all. -/
theorem inventory_of_idle (few : system.pool.slots.size ≤ UInt64.size)
    (idle : ∀ id, system.calls id = none) :
    system.inventory = system.held ++ (system.pool.shared.toList ++
      system.pool.slots.toList.flatMap fun slot => slot.cache.toList) := by
  have calls : (Place.ids.map Place.call).flatMap system.objectsAt = [] := by
    rw [List.flatMap_eq_nil_iff]
    intro place listed
    obtain ⟨id, -, rfl⟩ := List.mem_map.mp listed
    exact objectsAt_call_idle (idle id)
  rw [inventory, Place.all, List.flatMap_append, List.flatMap_append, calls, flatMap_ids system few,
    List.append_nil, ← List.append_assoc]
  simp only [List.flatMap_cons, List.flatMap_nil, List.append_nil]
  rfl

variable [DecidableEq α] {system : PoolSystem (Recorded Source α) α} {limit : Nat}
  {Live : Source → List α → Prop} {localCapacity sharedCapacity : Capacity}

theorem Sound.stock (sound : system.Sound limit Live localCapacity sharedCapacity)
    (few : system.pool.slots.size ≤ UInt64.size) (idle : ∀ id, system.calls id = none)
    {id : UInt64} {slot : WorkerSlot α} (found : system.pool.slots[id.toNat]? = some slot) :
    system.held.length + system.pool.shared.toList.length + slot.cache.toList.length +
      system.pool.cachedElsewhere id = (outstanding system.pool.source.calls).length := by
  have all := sound.balanced.perm.length_eq
  have split := Pool.cached_add_cachedElsewhere found
  have counts : (system.pool.slots.toList.map fun slot => slot.cache.count.toNat) =
      system.pool.slots.toList.map fun slot => slot.cache.toList.length :=
    List.map_congr_left fun slot listed =>
      (sound.tended.caches slot (Array.mem_toList_iff.mp listed)).count_toNat
  rw [counts, (sound.tended.cache found).count_toNat] at split
  rw [inventory_of_idle few idle, List.length_append, List.length_append, List.length_flatMap]
    at all
  omega

end Stock

/-! ## Exhaustion -/

structure Resting [DecidableEq α] (limit : Nat) (Live : Source → List α → Prop)
    (localCapacity sharedCapacity : Capacity) (workers : UInt64)
    (system : PoolSystem (Recorded Source α) α) : Prop where
  sound : system.Sound limit Live localCapacity sharedCapacity
  idle : ∀ id, system.calls id = none
  size : system.pool.slots.size = workers.toNat

section Exhaustion

variable [DecidableEq α] {limit : Nat} {Live : Source → List α → Prop}
  {localCapacity sharedCapacity : Capacity} {workers id : UInt64}
  {system after : PoolSystem (Recorded Source α) α}

theorem Resting.found
    (resting : system.Resting limit Live localCapacity sharedCapacity workers)
    (known : id < workers) : ∃ slot, system.pool.slots[id.toNat]? = some slot := by
  have inside : id.toNat < system.pool.slots.size := by
    rw [resting.size]
    exact UInt64.lt_iff_toNat_lt.mp known
  exact ⟨_, Array.getElem?_eq_getElem inside⟩

theorem Resting.returned
    (resting : system.Resting limit Live localCapacity sharedCapacity workers)
    (returned : Returned system id limit Live localCapacity sharedCapacity after) :
    after.Resting limit Live localCapacity sharedCapacity workers :=
  ⟨returned.sound, returned.idle, returned.size.trans resting.size⟩

theorem Resting.stock
    (resting : system.Resting limit Live localCapacity sharedCapacity workers)
    {slot : WorkerSlot α} (found : system.pool.slots[id.toNat]? = some slot) :
    system.held.length + system.pool.shared.toList.length + slot.cache.toList.length +
      system.pool.cachedElsewhere id = (outstanding system.pool.source.calls).length :=
  resting.sound.stock (resting.size.le.trans workers.toNat_lt.le) resting.idle found

/-- What neither is in the cache of a worker nor can come there without a return or the
flush of another cache: objects that callers hold and those in other caches. -/
def beyond (system : PoolSystem (Recorded Source α) α) (id : UInt64) : Nat :=
  system.held.length + system.pool.cachedElsewhere id

theorem Resting.beyond_le_limit
    (resting : system.Resting limit Live localCapacity sharedCapacity workers)
    (known : id < workers) : system.beyond id ≤ limit := by
  obtain ⟨slot, found⟩ := resting.found known
  have stock := resting.stock found
  have few := resting.sound.source.few
  rw [beyond]
  omega

omit [DecidableEq α] in
theorem receive_of_idle {outcome : WorkerOutcome α} {held : List α}
    (idleBefore : ∀ id, system.calls id = none) (idleAfter : ∀ id, after.calls id = none)
    (gave : after.held = handedOut (.returned outcome) ++ held) :
    ({ system with pool := after.pool, held } : PoolSystem (Recorded Source α) α).receive outcome =
      after := by
  have same : system.calls = after.calls :=
    funext fun id => (idleBefore id).trans (idleAfter id).symm
  rw [receive_eq, same, ← gave]

variable [ObjectSource Source α]

/-- An allocation gives nothing just if callers and the caches of other workers have all
objects there are. -/
theorem Resting.alloc_none_iff
    (resting : system.Resting limit Live localCapacity sharedCapacity workers)
    (limited : ObjectSource.Limited limit Live) (known : id < workers) :
    ∃ given, (system.pool.alloc id).2 = .served given ∧
      (given = none ↔ system.held.length + system.pool.cachedElsewhere id = limit) := by
  obtain ⟨slot, found⟩ := resting.found known
  obtain ⟨after, changed, given, ran, returned, held, own, -, nothing⟩ :=
    alloc_returns resting.sound limited resting.idle found
  have elsewhere := Pool.cachedElsewhere_congr returned.slots
  have stock := (resting.returned returned).stock own
  have few := returned.sound.source.few
  rw [elsewhere, held, List.length_append] at stock
  refine ⟨given, congrArg Prod.snd ran, ?_⟩
  constructor
  · intro none
    obtain ⟨empty, emptyShared, full⟩ := nothing none
    rw [none, empty, emptyShared] at stock
    simp only [Option.toList_none, List.length_nil] at stock
    omega
  · intro all
    cases given with
    | none => rfl
    | some object =>
        rw [Option.toList_some, List.length_singleton] at stock
        omega

theorem Resting.use_alloc
    (resting : system.Resting limit Live localCapacity sharedCapacity workers)
    (limited : ObjectSource.Limited limit Live) {slot : WorkerSlot α}
    (found : system.pool.slots[id.toNat]? = some slot) :
    Returned system id limit Live localCapacity sharedCapacity (system.use (.alloc id)) ∧
      ∃ changed given, (system.use (.alloc id)).pool.slots[id.toNat]? = some changed ∧
        (system.use (.alloc id)).held = given ++ system.held ∧
        slot.cache.toList.length ≤ changed.cache.toList.length + given.length := by
  obtain ⟨after, changed, given, ran, returned, held, own, lost, -⟩ :=
    alloc_returns resting.sound limited resting.idle found
  have gave : after.held = handedOut (.returned (.served given)) ++ system.held := by
    rw [held]
    cases given <;> rfl
  have same : system.use (.alloc id) = after := by
    rw [use, ran]
    exact receive_of_idle resting.idle returned.idle gave
  rw [same]
  exact ⟨returned, changed, given.toList, own, held, lost⟩

theorem Resting.use_free
    (resting : system.Resting limit Live localCapacity sharedCapacity workers)
    (limited : ObjectSource.Limited limit Live) {object : α} (owned : object ∈ system.held)
    (inside : id.toNat < system.pool.slots.size) :
    Returned system id limit Live localCapacity sharedCapacity (system.use (.free id object)) := by
  obtain ⟨after, outcome, ran, returned, held⟩ := call_returns resting.sound limited resting.idle
    (Array.getElem?_eq_getElem inside) (.free id object owned)
  have freed : system.pool.free id object = (after.pool, outcome) := ran
  have same : system.use (.free id object) = after := by
    rw [use, if_pos ⟨owned, inside⟩, freed]
    exact receive_of_idle resting.idle returned.idle held
  rw [same]
  exact returned

theorem Resting.use_flush
    (resting : system.Resting limit Live localCapacity sharedCapacity workers)
    (limited : ObjectSource.Limited limit Live) {slot : WorkerSlot α}
    (found : system.pool.slots[id.toNat]? = some slot) :
    Returned system id limit Live localCapacity sharedCapacity (system.use (.flush id)) ∧
      ∃ given, (system.use (.flush id)).held = given ++ system.held := by
  obtain ⟨after, outcome, ran, returned, held⟩ := call_returns resting.sound limited resting.idle
    found (.flush id)
  have flushed : system.pool.flush id = (after.pool, outcome) := ran
  have same : system.use (.flush id) = after := by
    rw [use, flushed]
    exact receive_of_idle resting.idle returned.idle held
  rw [same]
  exact ⟨returned, _, held⟩

omit [DecidableEq α] in
theorem run_of_absent {pool : Pool (Recorded Source α) α} (phase : WorkerPhase α)
    (absent : pool.slots[id.toNat]? = none) : pool.run id phase = (pool, .done) := by
  rw [Pool.run, Pool.workplace?, absent]
  rfl

theorem Resting.use
    (resting : system.Resting limit Live localCapacity sharedCapacity workers)
    (limited : ObjectSource.Limited limit Live) (use : PoolUse α) :
    Returned system use.worker limit Live localCapacity sharedCapacity (system.use use) := by
  have unchanged : ∀ id, Returned system id limit Live localCapacity sharedCapacity system :=
    fun id => ⟨resting.sound, resting.idle, fun _ _ => rfl, rfl⟩
  cases use with
  | alloc id =>
      cases found : system.pool.slots[id.toNat]? with
      | none =>
          have ran : system.pool.alloc id = (system.pool, .done) := run_of_absent .hit found
          rw [PoolSystem.use, ran]
          exact unchanged id
      | some slot => exact (resting.use_alloc limited found).1
  | free id object =>
      by_cases sensible : object ∈ system.held ∧ id.toNat < system.pool.slots.size
      · exact resting.use_free limited sensible.1 sensible.2
      · rw [PoolSystem.use, if_neg sensible]
        exact unchanged id
  | flush id =>
      cases found : system.pool.slots[id.toNat]? with
      | none =>
          have ran : system.pool.flush id = (system.pool, .done) := run_of_absent .check found
          rw [PoolSystem.use, ran]
          exact unchanged id
      | some slot => exact (resting.use_flush limited found).1

theorem Resting.useAll
    (resting : system.Resting limit Live localCapacity sharedCapacity workers)
    (limited : ObjectSource.Limited limit Live) (uses : List (PoolUse α)) :
    (system.useAll uses).Resting limit Live localCapacity sharedCapacity workers := by
  induction uses generalizing system with
  | nil => exact resting
  | cons use uses ih => exact ih (resting.returned (resting.use limited use))

theorem Resting.beyond_le_alloc
    (resting : system.Resting limit Live localCapacity sharedCapacity workers)
    (limited : ObjectSource.Limited limit Live) (known : id < workers) (other : UInt64) :
    system.beyond id ≤ (system.use (.alloc other)).beyond id := by
  cases found : system.pool.slots[other.toNat]? with
  | none =>
      have ran : system.pool.alloc other = (system.pool, .done) := run_of_absent .hit found
      rw [PoolSystem.use, ran]
      exact Nat.le_refl _
  | some slot =>
      obtain ⟨returned, changed, given, foundAfter, held, lost⟩ := resting.use_alloc limited found
      have elsewhere := Pool.cachedElsewhere_congr returned.slots
      rw [beyond, beyond, held, List.length_append]
      by_cases same : other = id
      · rw [← same, elsewhere]
        omega
      · -- The worker's own cache is as it was, and the caches together lost what was given.
        obtain ⟨own, foundOwn⟩ := resting.found known
        have apart : id.toNat ≠ other.toNat := fun equal => same (UInt64.toNat_inj.mp equal).symm
        have foundOwnAfter := (returned.slots id.toNat apart).trans foundOwn
        have before := Pool.cached_add_cachedElsewhere found
        have beforeOwn := Pool.cached_add_cachedElsewhere foundOwn
        have after := Pool.cached_add_cachedElsewhere foundAfter
        have afterOwn := Pool.cached_add_cachedElsewhere foundOwnAfter
        rw [(resting.sound.tended.cache found).count_toNat] at before
        rw [(returned.sound.tended.cache foundAfter).count_toNat] at after
        omega

theorem Resting.beyond_le_flush
    (resting : system.Resting limit Live localCapacity sharedCapacity workers)
    (limited : ObjectSource.Limited limit Live) (known : id < workers) :
    system.beyond id ≤ (system.use (.flush id)).beyond id := by
  obtain ⟨slot, found⟩ := resting.found known
  obtain ⟨returned, given, held⟩ := resting.use_flush limited found
  rw [beyond, beyond, held, List.length_append, Pool.cachedElsewhere_congr returned.slots]
  omega

end Exhaustion

end PoolSystem

/-- Whether a call neither returns an object nor flushes another worker's cache. -/
def PoolUse.BringsNothing (id : UInt64) : PoolUse α → Prop
  | .alloc _ => True
  | .free _ _ => False
  | .flush other => other = id

namespace PoolSystem

section Opening

variable [ObjectSource Source α] [DecidableEq α] {limit : Nat} {Live : Source → List α → Prop}
  {localCapacity sharedCapacity : Capacity} {workers id : UInt64}

/-- As long as no call brings anything, what is beyond reach stays there. -/
theorem Resting.stays_exhausted {system : PoolSystem (Recorded Source α) α}
    (resting : system.Resting limit Live localCapacity sharedCapacity workers)
    (limited : ObjectSource.Limited limit Live) (known : id < workers)
    (all : system.beyond id = limit) (uses : List (PoolUse α))
    (idly : ∀ use ∈ uses, use.BringsNothing id) : (system.useAll uses).beyond id = limit := by
  induction uses generalizing system with
  | nil => exact all
  | cons use uses ih =>
      have next := resting.returned (resting.use limited use)
      refine ih next ?_ fun later listed => idly later (List.mem_cons_of_mem _ listed)
      refine Nat.le_antisymm (next.beyond_le_limit known) ?_
      rw [← all]
      cases use with
      | alloc other => exact resting.beyond_le_alloc limited known other
      | free other object => exact (idly _ List.mem_cons_self).elim
      | flush other =>
          have same : other = id := idly _ List.mem_cons_self
          rw [same]
          exact resting.beyond_le_flush limited known

theorem Resting.start [Inhabited α] {config : PoolConfig} {source : Source}
    (accepted : config.check = .ok (localCapacity, sharedCapacity))
    (limited : ObjectSource.Limited limit Live) (untouched : Live source [])
    (enough : (min config.prealloc sharedCapacity.mask).toNat ≤ limit) :
    ∃ pool : Pool (Recorded Source α) α, Pool.create config (Recorded.fresh source) = .ok pool ∧
      ∃ localCapacity sharedCapacity,
        (PoolSystem.start pool).Resting limit Live localCapacity sharedCapacity
          config.workers := by
  have keeps : (Recorded.fresh source : Recorded Source α).Keeps limit Live :=
    ⟨untouched, Nat.zero_le _⟩
  have none : (outstanding (Recorded.fresh source : Recorded Source α).calls).length = 0 := rfl
  obtain ⟨size, kept⟩ := keeps.allocUpTo limited (min config.prealloc sharedCapacity.mask).toNat
    (by omega) #[]
  cases opened : (Pool.create config (Recorded.fresh source) :
    Except (PoolError × Recorded Source α) (Pool (Recorded Source α) α)) with
  | error refusal =>
      unfold Pool.create at opened
      simp only [accepted] at opened
      split at opened
      case isTrue less =>
          rw [size] at less
          exact absurd less (Nat.not_lt.mpr (Nat.le_add_left _ _))
      case isFalse => cases opened
  | ok pool =>
      obtain ⟨cacheSlots, sharedSlots, fits, -, -, slots, given⟩ := Pool.of_create opened
      have same : sharedSlots = sharedCapacity := by
        have equal := fits.sharedSlots.symm.trans (PoolConfig.fits_of_check accepted).sharedSlots
        cases equal
        rfl
      rw [PoolConfig.preallocated, same] at given
      rw [given] at kept
      obtain ⟨cacheCapacity, ringCapacity, tended⟩ := Tended.start opened []
      refine ⟨pool, rfl, cacheCapacity, ringCapacity,
        ⟨tended, Balanced.start opened, kept⟩, fun _ => rfl, ?_⟩
      change pool.slots.size = _
      rw [slots, Array.size_replicate]

end Opening

end PoolSystem

theorem Pool.cachedElsewhere_eq_zero {pool : Pool Source α} {workers id : UInt64}
    (size : pool.slots.size = workers.toNat) (known : id < workers)
    (empty : workers = 1 ∨
      ∀ other < workers, other ≠ id → pool.localCount? other = some 0) :
    pool.cachedElsewhere id = 0 := by
  rw [cachedElsewhere, List.sum_eq_zero_iff_forall_eq_nat]
  intro count listed
  obtain ⟨slot, remaining, rfl⟩ := List.mem_map.mp listed
  obtain ⟨index, apart, found⟩ := List.mem_eraseIdx_iff_getElem?.mp remaining
  rw [Array.getElem?_toList] at found
  have inside := (Array.getElem?_eq_some_iff.mp found).1
  have small : index < UInt64.size := (size ▸ inside).trans workers.toNat_lt
  have own : (UInt64.ofNat index).toNat = index := UInt64.toNat_ofNat_of_lt' small
  rcases empty with one | others
  · have single : workers.toNat = 1 := congrArg UInt64.toNat one
    have first := UInt64.lt_iff_toNat_lt.mp known
    omega
  · have below : UInt64.ofNat index < workers := by
      rw [UInt64.lt_iff_toNat_lt, own, ← size]
      exact inside
    have different : UInt64.ofNat index ≠ id := by
      rintro rfl
      exact apart own.symm
    have none := others _ below different
    rw [Pool.localCount?, own, found] at none
    exact congrArg UInt32.toNat (Option.some.inj none)

/-- A worker gets no object just when callers and the caches of other workers have all
that the source gives; with one worker, or if all other caches are empty, just when
callers hold all.  And then it gets none until a caller returns an object or another
worker's cache is flushed.  So it is for every accepted sizing, for every source that
gives an object just if fewer than `limit` are live and has those that the pool asks for
in advance, and for all calls, one after another and by any workers, in which callers
return what they hold. -/
theorem exhaustion_is_exact [Inhabited α] [ObjectSource Source α] [DecidableEq α]
    (config : PoolConfig) (localCapacity sharedCapacity : Capacity)
    (accepted : config.check = .ok (localCapacity, sharedCapacity)) (limit : Nat)
    (Live : Source → List α → Prop) (limited : ObjectSource.Limited limit Live)
    (source : Source) (untouched : Live source [])
    (enough : (min config.prealloc sharedCapacity.mask).toNat ≤ limit) :
    ∃ pool : Pool (Recorded Source α) α, Pool.create config (Recorded.fresh source) = .ok pool ∧
      ∀ uses, ∀ id < config.workers,
        let system := (PoolSystem.start pool).useAll uses
        ∃ given, (system.pool.alloc id).2 = .served given ∧
          (given = none ↔ system.held.length + system.pool.cachedElsewhere id = limit) ∧
          ((config.workers = 1 ∨
              ∀ other < config.workers, other ≠ id → system.pool.localCount? other = some 0) →
            (given = none ↔ system.held.length = limit)) ∧
          (given = none → ∀ later : List (PoolUse α), (∀ use ∈ later, use.BringsNothing id) →
            (((system.use (.alloc id)).useAll later).pool.alloc id).2 = .served none) := by
  obtain ⟨pool, opened, cacheCapacity, ringCapacity, start⟩ :=
    PoolSystem.Resting.start accepted limited untouched enough
  refine ⟨pool, opened, fun uses id known => ?_⟩
  intro system
  have resting : system.Resting limit Live cacheCapacity ringCapacity config.workers :=
    start.useAll limited uses
  obtain ⟨given, served, exactly⟩ := resting.alloc_none_iff limited known
  refine ⟨given, served, exactly, fun empty => ?_, fun none later idly => ?_⟩
  · rw [Pool.cachedElsewhere_eq_zero resting.size known empty] at exactly
    exact exactly
  · have next := resting.returned (resting.use limited (.alloc id))
    have exhausted := resting.stays_exhausted limited known (exactly.mp none) (.alloc id :: later)
      (by
        intro use listed
        rcases List.mem_cons.mp listed with rfl | listed
        · exact True.intro
        · exact idly use listed)
    have last := next.useAll limited later
    obtain ⟨again, servedAgain, exactAgain⟩ := last.alloc_none_iff limited known
    rw [servedAgain, exactAgain.mpr exhausted]

/-- The live objects of a numbering source that gives up to so many and never fails
before. -/
structure ScriptedSource.Lends (limit : Nat) (source : ScriptedSource) (objects : List UInt64) :
    Prop where
  bounded : source.limit = some limit
  willing : source.failing = []
  counted : source.outstanding = objects.length

theorem ScriptedSource.lends_limited (limit : Nat) :
    ObjectSource.Limited limit (ScriptedSource.Lends limit) where
  gives := by
    intro source objects lends room
    refine ⟨source.next, _, if_neg ?_, lends.bounded, lends.willing, ?_⟩
    · simp only [exhausted, lends.bounded, lends.willing, lends.counted, List.contains_nil,
        Bool.false_or, decide_eq_true_eq]
      omega
    · simp only [lends.counted, List.length_cons]
      omega
  refuses := by
    intro source objects lends full
    refine ⟨_, if_pos ?_, lends.bounded, lends.willing, lends.counted⟩
    simp only [exhausted, lends.bounded, lends.willing, lends.counted, List.contains_nil,
      Bool.false_or, decide_eq_true_eq]
    omega
  takesBack := by
    intro source objects object lends live
    refine ⟨lends.bounded, lends.willing, ?_⟩
    have some := List.length_pos_of_mem live
    have freed : (ObjectSource.free source object).outstanding = source.outstanding - 1 := rfl
    rw [freed, lends.counted, List.length_erase_of_mem live]
    omega

open PoolSystem (duoConfig duoCapacity duoPool duoPool_opens duoConfig_check)

def duoHoard : ScriptedSource := ScriptedSource.create (some 3) []

def duoUses : List (PoolUse UInt64) := [.alloc 0, .free 0 0, .alloc 1, .alloc 1]

def duoSpent : PoolSystem (Recorded ScriptedSource UInt64) UInt64 :=
  (PoolSystem.start (duoPool (Recorded.fresh duoHoard))).useAll duoUses

/-- With two objects held and one in the other cache there is none for the second
worker, nor is there when it has flushed its cache and the first worker has taken its
own. -/
theorem exhaustion_is_exact_sample :
    duoConfig.check = .ok (duoCapacity, duoCapacity) ∧
    ObjectSource.Limited 3 (ScriptedSource.Lends 3) ∧
    duoSpent.held = [2, 1] ∧ duoSpent.pool.cachedElsewhere 1 = 1 ∧
    (duoSpent.pool.alloc 1).2 = .served none ∧
    (((duoSpent.use (.alloc 1)).useAll [.flush 1, .alloc 0]).pool.alloc 1).2 = .served none := by
  have limited := ScriptedSource.lends_limited 3
  obtain ⟨pool, opened, exhausts⟩ := exhaustion_is_exact duoConfig duoCapacity duoCapacity
    duoConfig_check 3 _ limited duoHoard ⟨rfl, rfl, rfl⟩ (by decide)
  have same : pool = duoPool (Recorded.fresh duoHoard) := by
    rw [duoPool_opens] at opened
    exact (Except.ok.inj opened).symm
  rw [same] at exhausts
  obtain ⟨given, served, exactly, -, persists⟩ := exhausts duoUses 1 (by decide)
  have all : duoSpent.held.length + duoSpent.pool.cachedElsewhere 1 = 3 := by decide +kernel
  have none := exactly.mpr all
  refine ⟨duoConfig_check, limited, by decide +kernel, by decide +kernel, ?_,
    persists none [.flush 1, .alloc 0] ?_⟩
  · rw [none] at served
    exact served
  · simp [PoolUse.BringsNothing]

end RingPool

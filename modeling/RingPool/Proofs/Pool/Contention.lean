import RingPool.Proofs.Pool.Safety

/-!
# What a worker's counters say of the shared ring

A reservation on the shared ring shows as a head that moved, so the reservations of
a worker can be counted along a run without looking at its counters
(`PoolSystem.reservations`).  Refills from the shared ring and spills into it reserve
slots just when they are counted.  A burst from the source that is stowed in the shared
ring reserves slots too, and no counter says so.

Main statement: a worker's shared operations and its stowed bursts together are its
reservations.  `shared_ops_miss_a_burst` is a run in which the shared operations alone
are not.
-/

set_option autoImplicit false

namespace RingPool

variable {Source α : Type}

/-- The reservations of at least one slot between two states of a ring. -/
def Ring.reservations (before after : Ring α) : Nat :=
  (if 0 < Ring.reserved .producer before after then 1 else 0) +
    if 0 < Ring.reserved .consumer before after then 1 else 0

@[simp] theorem Ring.reservations_self (ring : Ring α) : Ring.reservations ring ring = 0 := by
  simp [Ring.reservations, Ring.reserved]

def WorkerPhase.stows : WorkerPhase α → Bool
  | .stow _ _ => true
  | _ => false

namespace Ring.IsShelf

variable {ring : Ring α} {capacity : Capacity}

theorem reservations_dequeueBulk (shelf : ring.IsShelf capacity) (most : UInt32)
    (exclusive : Bool) :
    Ring.reservations ring (ring.dequeueBulk most exclusive).1 =
      if 0 < (ring.dequeueBulk most exclusive).2.length then 1 else 0 := by
  obtain ⟨none, some⟩ := shelf.reserved_dequeueBulk most exclusive
  rw [Ring.reservations, none, some, if_neg (Nat.lt_irrefl 0), Nat.zero_add]

theorem reservations_offerBulk (shelf : ring.IsShelf capacity) (items : List α) :
    Ring.reservations ring (ring.offerBulk items).1 =
      if 0 < (ring.offerBulk items).2.1 then 1 else 0 := by
  obtain ⟨some, none⟩ := shelf.reserved_offerBulk items
  rw [Ring.reservations, none, some, if_neg (Nat.lt_irrefl 0), Nat.add_zero]
  simp only [UInt32.lt_iff_toNat_lt, UInt32.toNat_zero]

end Ring.IsShelf

/-- A step between two workplaces counts just what it reserves, bursts apart. -/
def Workplace.CountsReservations (before after : Workplace Source α) (stowing : Bool) : Prop :=
  before.slot.stats.sharedOps + Ring.reservations before.shared after.shared =
    after.slot.stats.sharedOps +
      if stowing then Ring.reservations before.shared after.shared else 0

namespace Workplace

theorem CountsReservations.of_same {before after : Workplace Source α}
    (ring : after.shared = before.shared)
    (ops : after.slot.stats.sharedOps = before.slot.stats.sharedOps) (stowing : Bool) :
    before.CountsReservations after stowing := by
  rw [CountsReservations, ring, ops, Ring.reservations_self, ite_self]

/-- A step reserves slots of the shared ring just if it counts a shared operation, or
stows objects of a burst. -/
theorem step_countsReservations [ObjectSource Source α] {place : Workplace Source α}
    {localCapacity sharedCapacity : Capacity} (tidy : place.Tidy localCapacity sharedCapacity)
    (config : PoolConfig) (phase : WorkerPhase α) :
    place.CountsReservations (place.step config phase).1 phase.stows := by
  cases phase with
  | hit => rw [step]; split <;> exact .of_same rfl rfl _
  | refill =>
      have reserved := tidy.shared.reservations_dequeueBulk config.bulkSize false
      rcases moved : place.shared.dequeueBulk config.bulkSize false with ⟨shared, bulk⟩
      rw [moved] at reserved
      cases bulk with
      | nil =>
          simp only [List.length_nil, Nat.lt_irrefl, if_false] at reserved
          simp [CountsReservations, step, moved, reserved, WorkerPhase.stows]
      | cons object rest =>
          simp only [List.length_cons, Nat.succ_pos, if_true] at reserved
          simp only [CountsReservations, step, moved, reserved, WorkerPhase.stows, count,
            WorkerStats.sharedOps, Bool.false_eq_true, if_false]
          omega
  | stock object rest => rw [step]; split <;> exact .of_same rfl rfl _
  | ask => rw [step]; split <;> exact .of_same rfl rfl _
  | measure object => exact .of_same rfl rfl _
  | gather object more burst =>
      cases more with
      | zero => exact .of_same rfl rfl _
      | succ more => rw [step]; split <;> exact .of_same rfl rfl _
  | stow object burst =>
      have same : (place.step config (.stow object burst)).1.slot.stats.sharedOps =
          place.slot.stats.sharedOps := by
        rw [step]
        split
        split <;> rfl
      rw [CountsReservations, same]
      rfl
  | put object => rw [step]; split <;> exact .of_same rfl rfl _
  | retry object => rw [step]; split <;> exact .of_same rfl rfl _
  | check => rw [step]; split <;> exact .of_same rfl rfl _
  | unload onward =>
      rw [step]
      split
      split <;> exact .of_same rfl rfl _
  | offload bulk onward =>
      have reserved := tidy.shared.reservations_offerBulk bulk
      rcases moved : place.shared.offerBulk bulk with ⟨shared, stored, left⟩
      rw [moved] at reserved
      simp only [CountsReservations, step, moved, reserved, WorkerPhase.stows, count,
        Bool.false_eq_true, if_false]
      split
      case isTrue =>
          simp only [WorkerStats.sharedOps]
          omega
      case isFalse => rfl
  | reclaim object rest before onward => cases rest <;> exact .of_same rfl rfl _

end Workplace

namespace PoolSystem

def reserves (id : UInt64) (before : PoolSystem Source α) (move : PoolMove α)
    (after : PoolSystem Source α) : Nat :=
  match move with
  | .advance worker =>
      if worker = id then Ring.reservations before.pool.shared after.pool.shared else 0
  | _ => 0

def stows (id : UInt64) (before : PoolSystem Source α) (move : PoolMove α)
    (after : PoolSystem Source α) : Nat :=
  match before.calls id with
  | some phase => if phase.stows then before.reserves id move after else 0
  | none => 0

theorem reserves_unchanged (id : UInt64) (system : PoolSystem Source α) (move : PoolMove α)
    {after : PoolSystem Source α} (same : after.pool.shared = system.pool.shared) :
    system.reserves id move after = 0 := by
  cases move with
  | advance worker => rw [reserves, same, Ring.reservations_self, ite_self]
  | _ => rfl

theorem stows_of_not_reserves {id : UInt64} {system after : PoolSystem Source α}
    {move : PoolMove α} (nothing : system.reserves id move after = 0) :
    system.stows id move after = 0 := by
  rw [stows]
  split
  case h_1 => rw [nothing, ite_self]
  case h_2 => rfl

section Run

variable [ObjectSource Source α] [DecidableEq α]

/-- What the moves of a run count for, added up. -/
def tally (count : PoolSystem Source α → PoolMove α → PoolSystem Source α → Nat)
    (system : PoolSystem Source α) : List (PoolMove α) → Nat
  | [] => 0
  | move :: moves =>
      count system move (system.next move).1 + (system.next move).1.tally count moves

def reservations (system : PoolSystem Source α) (id : UInt64) (moves : List (PoolMove α)) : Nat :=
  system.tally (reserves id) moves

/-- The reservations with which a worker stows bursts in a run. -/
def stowed (system : PoolSystem Source α) (id : UInt64) (moves : List (PoolMove α)) : Nat :=
  system.tally (stows id) moves

variable {localCapacity sharedCapacity : Capacity}

/-- A move counts a worker's reservations as shared operations, those of bursts apart. -/
theorem effect_sharedOps {system after : PoolSystem Source α} {move : PoolMove α}
    (tended : system.Tended localCapacity sharedCapacity) (effect : PoolEffect system move after)
    {id : UInt64} {slot : WorkerSlot α} (found : system.pool.slots[id.toNat]? = some slot) :
    ∃ changed, after.pool.slots[id.toNat]? = some changed ∧
      slot.stats.sharedOps + system.reserves id move after =
        changed.stats.sharedOps + system.stows id move after := by
  have quiet : ∀ {changed : WorkerSlot α}, changed.stats = slot.stats →
      after.pool.shared = system.pool.shared →
      slot.stats.sharedOps + system.reserves id move after =
        changed.stats.sharedOps + system.stows id move after := by
    intro changed stats shared
    have nothing := reserves_unchanged id system move shared
    rw [stats, nothing, stows_of_not_reserves nothing]
  cases effect with
  | stays => exact ⟨slot, found, quiet rfl rfl⟩
  | begins => exact ⟨slot, found, quiet rfl rfl⟩
  | guards worker held claimed foundHeld =>
      by_cases same : worker.toNat = id.toNat
      · rw [same, found] at foundHeld
        cases foundHeld
        refine ⟨{ slot with claimed }, ?_, quiet rfl rfl⟩
        rw [← same] at found ⊢
        exact system.guarded_slot found claimed
      · exact ⟨slot, (Array.getElem?_setIfInBounds_ne same).trans found, quiet rfl rfl⟩
  | works worker held phase foundHeld within =>
      by_cases same : worker = id
      · subst same
        rw [found] at foundHeld
        cases foundHeld
        refine ⟨_, system.worked_slot found _, ?_⟩
        have counts := Workplace.step_countsReservations (tended.tidy found)
          system.pool.config phase
        rw [stows, within, reserves, if_pos rfl]
        exact counts
      · have apart : worker.toNat ≠ id.toNat := fun equal => same (UInt64.toNat_inj.mp equal)
        refine ⟨slot, (Array.getElem?_setIfInBounds_ne apart).trans found, ?_⟩
        have nothing : system.reserves id (.advance worker) (system.worked worker
            ((system.workplace held).step system.pool.config phase)) = 0 := if_neg same
        rw [nothing, stows_of_not_reserves nothing]

theorem run_sharedOps {system : PoolSystem Source α}
    (tended : system.Tended localCapacity sharedCapacity) (moves : List (PoolMove α))
    {id : UInt64} {slot : WorkerSlot α} (found : system.pool.slots[id.toNat]? = some slot) :
    ∃ final, (system.run moves).1.pool.slots[id.toNat]? = some final ∧
      slot.stats.sharedOps + system.reservations id moves =
        final.stats.sharedOps + system.stowed id moves := by
  induction moves generalizing system slot with
  | nil => exact ⟨slot, found, rfl⟩
  | cons move moves ih =>
      have effect := effect_of_next system move
      obtain ⟨changed, foundChanged, counted⟩ := effect_sharedOps tended effect found
      obtain ⟨final, foundFinal, later⟩ := ih (tended.effect effect) foundChanged
      refine ⟨final, foundFinal, ?_⟩
      rw [reservations, stowed, tally, tally]
      rw [reservations, stowed] at later
      omega

end Run

end PoolSystem

/-- The shared operations that a worker counts and the bursts that it stows in the shared
ring are together the reservations that it was granted there, for every accepted sizing,
every source and every run of all workers, whatever objects their callers hold at first. -/
theorem shared_ops_and_bursts_are_reservations [Inhabited α] [ObjectSource Source α]
    [DecidableEq α] (config : PoolConfig) (source : Source) (pool : Pool Source α)
    (opened : Pool.create config source = .ok pool) (held : List α) (moves : List (PoolMove α))
    (id : UInt64) (known : id < config.workers) :
    ∃ slot,
      ({ PoolSystem.start pool with held }.run moves).1.pool.slots[id.toNat]? = some slot ∧
        slot.stats.sharedOps + { PoolSystem.start pool with held }.stowed id moves =
          { PoolSystem.start pool with held }.reservations id moves := by
  obtain ⟨localCapacity, sharedCapacity, tended⟩ := PoolSystem.Tended.start opened held
  obtain ⟨cacheCapacity, -, -, -, -, slots, -⟩ := Pool.of_create opened
  have found : { PoolSystem.start pool with held }.pool.slots[id.toNat]? =
      some (.create cacheCapacity) := by
    change pool.slots[id.toNat]? = _
    rw [slots, Array.getElem?_replicate, if_pos (UInt64.lt_iff_toNat_lt.mp known)]
  obtain ⟨final, foundFinal, counted⟩ := PoolSystem.run_sharedOps tended moves found
  refine ⟨final, foundFinal, ?_⟩
  have zero : (WorkerSlot.create cacheCapacity : WorkerSlot α).stats.sharedOps = 0 := rfl
  rw [zero, Nat.zero_add] at counted
  exact counted.symm

open PoolSystem (duoConfig duoPool duoPool_opens)

def duoStart : PoolSystem ScriptedSource UInt64 :=
  .start (duoPool (ScriptedSource.create none []))

/-- An allocation of one worker that finds nothing and stows a burst of one object. -/
def duoAllocation : List (PoolMove UInt64) :=
  [.claim 0, .alloc 0] ++ List.replicate 7 (.advance 0)

theorem shared_ops_and_bursts_are_reservations_sample :
    Pool.create duoConfig (ScriptedSource.create none []) =
      .ok (duoPool (ScriptedSource.create none [])) ∧
    (0 : UInt64) < duoConfig.workers ∧
    ∃ slot, (duoStart.run duoAllocation).1.pool.slots[(0 : UInt64).toNat]? = some slot ∧
      slot.stats.sharedOps + duoStart.stowed 0 duoAllocation =
        duoStart.reservations 0 duoAllocation :=
  ⟨duoPool_opens _, by decide, shared_ops_and_bursts_are_reservations duoConfig
    (ScriptedSource.create none []) (duoPool (ScriptedSource.create none []))
    (duoPool_opens _) [] duoAllocation 0 (by decide)⟩

/-- That call returns with one reservation taken and no shared operation counted. -/
theorem shared_ops_miss_a_burst :
    Pool.create duoConfig (ScriptedSource.create none []) =
      .ok (duoPool (ScriptedSource.create none [])) ∧
    (duoStart.run duoAllocation).1.held = [0] ∧
    ((duoStart.run duoAllocation).1.pool.slots[0]?).map
      (fun slot => slot.stats.sharedOps) = some 0 ∧
    duoStart.reservations 0 duoAllocation = 1 :=
  ⟨duoPool_opens _, by decide +kernel, by decide +kernel, by decide +kernel⟩

end RingPool

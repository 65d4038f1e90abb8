import RingPool.Proofs.Pool.Safety

/-!
# Calls of a worker that nobody interrupts

How far a call is from its end can be read off its phase and the length of the cache
(`WorkerPhase.stepsLeft`): a burst is gathered, stowed and handed back object by object,
and a flush passes each cached object on once.  Every step lowers that number, and at
the beginning of a call it is below the bound of `Pool.run`.  So a call that nobody
interrupts returns, and what its steps keep holds when it does (`call_returns`).
-/

set_option autoImplicit false

namespace RingPool

variable {Source α : Type}

def Onward.stepsLeft (cached : Nat) : Onward α → Nat
  | .serve _ => 0
  | .retry _ => 1
  | .check => 5 * cached + 1

/-- How many steps a call takes at most from here, if its worker has so many objects in
its cache and the shared ring so many slots. -/
def WorkerPhase.stepsLeft (sharedSlots cached : Nat) : WorkerPhase α → Nat
  | .hit => 2 * sharedSlots + 7
  | .refill => 2 * sharedSlots + 6
  | .stock _ _ => 1
  | .ask => 2 * sharedSlots + 5
  | .measure _ => 2 * sharedSlots + 4
  | .gather _ more burst => 2 * more + burst.size + 3
  | .stow _ burst => burst.size + 1
  | .put _ => cached + 4
  | .retry _ => 1
  | .check => 5 * cached + 1
  | .unload .check => if cached = 0 then 2 else 5 * cached
  | .unload _ => cached + 3
  | .offload bulk onward => bulk.length + 1 + onward.stepsLeft cached
  | .reclaim _ rest _ onward => rest.length + 1 + onward.stepsLeft cached

def Progress.stepsLeft (sharedSlots cached : Nat) :
    Progress (WorkerPhase α) (WorkerOutcome α) → Nat
  | .running phase => phase.stepsLeft sharedSlots cached
  | .returned _ => 0

theorem stepsLeft_goOn (sharedSlots cached : Nat) (onward : Onward α) :
    (Workplace.goOn onward).stepsLeft sharedSlots cached ≤ onward.stepsLeft cached := by
  cases onward <;> exact Nat.le_refl _

theorem stepsLeft_reclaimAll (sharedSlots cached : Nat) (onward : Onward α) (left : List α) :
    (Workplace.reclaimAll onward left).stepsLeft sharedSlots cached ≤
      left.length + onward.stepsLeft cached := by
  cases left with
  | nil =>
      rw [List.length_nil, Nat.zero_add]
      exact stepsLeft_goOn sharedSlots cached onward
  | cons object rest => exact Nat.le_refl _

theorem Desk.stepsLeft_lt [ObjectSource Source α] {config : PoolConfig}
    {localCapacity sharedCapacity : Capacity} (sizing : config.Fits localCapacity sharedCapacity)
    (desk : Desk Source α) (phase : WorkerPhase α) :
    (desk.step config localCapacity sharedCapacity phase).2.stepsLeft sharedCapacity.size
        (desk.step config localCapacity sharedCapacity phase).1.cache.length <
      phase.stepsLeft sharedCapacity.size desk.cache.length := by
  cases phase with
  | hit =>
      rw [Desk.step]
      split <;> simp [Progress.stepsLeft, WorkerPhase.stepsLeft]
  | refill =>
      rw [Desk.step]
      split <;> simp [Progress.stepsLeft, WorkerPhase.stepsLeft]
  | stock object rest => exact Nat.zero_lt_one
  | ask =>
      rw [Desk.step]
      split <;> simp [Progress.stepsLeft, WorkerPhase.stepsLeft]
  | measure object =>
      have room : sharedCapacity.vacancy desk.shared ≤ sharedCapacity.size := by
        rw [Capacity.vacancy]
        omega
      simp only [Desk.step, Progress.stepsLeft, WorkerPhase.stepsLeft, Array.size_empty]
      omega
  | gather object more burst =>
      cases more with
      | zero =>
          simp only [Desk.step, Progress.stepsLeft, WorkerPhase.stepsLeft]
          omega
      | succ more =>
          rw [Desk.step]
          split <;> simp only [Progress.stepsLeft, WorkerPhase.stepsLeft, Array.size_push] <;> omega
  | stow object burst =>
      have back := stepsLeft_reclaimAll sharedCapacity.size desk.cache.length (.serve object)
        (burst.toList.drop (sharedCapacity.vacancy desk.shared))
      rw [List.length_drop, Array.length_toList, Onward.stepsLeft] at back
      simp only [Desk.step, Desk.count, WorkerPhase.stepsLeft]
      omega
  | put object =>
      rw [Desk.step]
      split <;> simp [Progress.stepsLeft, WorkerPhase.stepsLeft]
  | retry object =>
      rw [Desk.step]
      split <;> exact Nat.zero_lt_one
  | check =>
      rw [Desk.step]
      split
      case h_1 => exact Nat.succ_pos _
      case h_2 object rest items =>
          simp only [Progress.stepsLeft, WorkerPhase.stepsLeft, items, List.length_cons]
          split <;> omega
  | unload onward =>
      have bulk := sizing.bulkSize_pos
      rw [Desk.step]
      split
      case h_1 nothing =>
          have back := stepsLeft_goOn sharedCapacity.size desk.cache.length onward
          have empty : desk.cache.length = 0 := by
            have length := congrArg List.length nothing
            rw [List.length_take, List.length_nil] at length
            omega
          cases onward <;> simp [WorkerPhase.stepsLeft, Onward.stepsLeft, empty] at back ⊢ <;> omega
      case h_2 object rest taken =>
          have length := congrArg List.length taken
          rw [List.length_take, List.length_cons] at length
          cases onward with
          | serve kept | retry kept =>
              simp only [Progress.stepsLeft, WorkerPhase.stepsLeft, Onward.stepsLeft,
                List.length_cons]
              omega
          | check =>
              simp only [Progress.stepsLeft, WorkerPhase.stepsLeft, Onward.stepsLeft,
                List.length_cons, List.length_drop]
              split <;> omega
  | offload bulk onward =>
      have back := stepsLeft_reclaimAll sharedCapacity.size desk.cache.length onward
        (bulk.drop (sharedCapacity.vacancy desk.shared))
      rw [List.length_drop] at back
      simp only [Desk.step, Desk.count, WorkerPhase.stepsLeft]
      omega
  | reclaim object rest before onward =>
      cases rest with
      | nil =>
          have back := stepsLeft_goOn sharedCapacity.size desk.cache.length onward
          simp only [Desk.step, Desk.count, WorkerPhase.stepsLeft, List.length_nil]
          omega
      | cons next rest =>
          simp only [Desk.step, Progress.stepsLeft, WorkerPhase.stepsLeft, List.length_cons]
          omega

theorem Pool.withWorkplace_withWorkplace (pool : Pool Source α) (id : UInt64)
    (first second : Workplace Source α) :
    (pool.withWorkplace id first).withWorkplace id second = pool.withWorkplace id second := by
  simp only [Pool.withWorkplace, Array.setIfInBounds_setIfInBounds]

namespace PoolSystem

variable [ObjectSource Source α] {localCapacity sharedCapacity : Capacity}

/-- A call whose steps all keep something ends in time, by a last step of which that
holds before. -/
theorem alone_returns (Inv : PoolSystem Source α → Prop) (id : UInt64)
    (tended : ∀ system, Inv system → system.Tended localCapacity sharedCapacity)
    (kept : ∀ system slot phase, Inv system → system.pool.slots[id.toNat]? = some slot →
      system.calls id = some phase →
      Inv (system.worked id ((system.workplace slot).step system.pool.config phase)))
    (steps : Nat) {system : PoolSystem Source α} {slot : WorkerSlot α} {phase : WorkerPhase α}
    (holds : Inv system) (found : system.pool.slots[id.toNat]? = some slot)
    (within : system.calls id = some phase)
    (enough : phase.stepsLeft sharedCapacity.size slot.cache.toList.length ≤ steps) :
    ∃ last lastSlot lastPhase place outcome, Inv last ∧
      last.pool.slots[id.toNat]? = some lastSlot ∧ last.calls id = some lastPhase ∧
      (last.workplace lastSlot).step last.pool.config lastPhase = (place, .returned outcome) ∧
      last.pool.withWorkplace id place = system.pool.withWorkplace id place ∧
      (Workplace.procedure system.pool.config).alone steps (system.workplace slot) phase =
        (place, .returned outcome) := by
  induction steps generalizing system slot phase with
  | zero =>
      have nearer := Desk.stepsLeft_lt (tended system holds).sizing
        (system.workplace slot).desk phase
      exact absurd (nearer.trans_le enough) (Nat.not_lt_zero _)
  | succ steps ih =>
      have reached := ((tended system holds).tidy found).step system.pool.config phase
      have nearer := Desk.stepsLeft_lt (tended system holds).sizing
        (system.workplace slot).desk phase
      rw [← reached.desk, ← reached.progress] at nearer
      have next := kept system slot phase holds found within
      rw [Procedure.alone]
      rcases stepped : (system.workplace slot).step system.pool.config phase with
        ⟨place, later | outcome⟩
      · rw [stepped] at next nearer
        have foundNext := system.worked_slot found (place, .running later)
        obtain ⟨last, lastSlot, lastPhase, final, outcome, holdsLast, foundLast, withinLast,
          lastStep, same, alone⟩ := ih next foundNext (if_pos rfl)
            (Nat.le_of_lt_succ (nearer.trans_le enough))
        have goes : (Workplace.procedure system.pool.config).step (system.workplace slot) phase
          false = (place, .running later) := stepped
        refine ⟨last, lastSlot, lastPhase, final, outcome, holdsLast, foundLast, withinLast,
          lastStep, ?_, ?_⟩
        · rw [same]
          exact Pool.withWorkplace_withWorkplace system.pool id place final
        · rw [goes]
          exact alone
      · have ends : (Workplace.procedure system.pool.config).step (system.workplace slot) phase
          false = (place, .returned outcome) := stepped
        refine ⟨system, slot, phase, place, outcome, holds, found, within, stepped, rfl, ?_⟩
        rw [ends]

theorem stepsLeft_le_stepBound {config : PoolConfig} {cache : List α} {phase : WorkerPhase α}
    (sizing : config.Fits localCapacity sharedCapacity)
    (within : cache.length < localCapacity.size)
    (begins : phase = .hit ∨ (∃ object, phase = .put object) ∨ phase = .check) :
    phase.stepsLeft sharedCapacity.size cache.length ≤ Pool.stepBound config := by
  have cacheSize := size_of_checkCapacity sizing.cacheSlots
  have sharedSize := size_of_checkCapacity sizing.sharedSlots
  rw [Pool.stepBound, ← cacheSize, ← sharedSize]
  rcases begins with rfl | ⟨object, rfl⟩ | rfl <;> simp only [WorkerPhase.stepsLeft] <;> omega

theorem run_returns (Inv : PoolSystem Source α → Prop) (id : UInt64)
    (tended : ∀ system, Inv system → system.Tended localCapacity sharedCapacity)
    (kept : ∀ system slot phase, Inv system → system.pool.slots[id.toNat]? = some slot →
      system.calls id = some phase →
      Inv (system.worked id ((system.workplace slot).step system.pool.config phase)))
    {system : PoolSystem Source α} {slot : WorkerSlot α} {phase : WorkerPhase α}
    (holds : Inv system) (found : system.pool.slots[id.toNat]? = some slot)
    (within : system.calls id = some phase)
    (begins : phase = .hit ∨ (∃ object, phase = .put object) ∨ phase = .check) :
    ∃ last lastSlot lastPhase place outcome, Inv last ∧
      last.pool.slots[id.toNat]? = some lastSlot ∧ last.calls id = some lastPhase ∧
      (last.workplace lastSlot).step last.pool.config lastPhase = (place, .returned outcome) ∧
      system.pool.run id phase = ((last.worked id (place, .returned outcome)).pool, outcome) := by
  have tidy := tended system holds
  have enough := stepsLeft_le_stepBound tidy.sizing (tidy.cache found).length_lt begins
  obtain ⟨last, lastSlot, lastPhase, place, outcome, holdsLast, foundLast, withinLast, lastStep,
    same, alone⟩ := alone_returns Inv id tended kept _ holds found within enough
  refine ⟨last, lastSlot, lastPhase, place, outcome, holdsLast, foundLast, withinLast, lastStep,
    ?_⟩
  have reach : system.pool.workplace? id = some (system.workplace slot) :=
    Pool.workplace?_of_found found
  have ended : (last.worked id (place, .returned outcome)).pool =
    system.pool.withWorkplace id place := same
  rw [Pool.run, reach, ended]
  simp only [alone]

end PoolSystem

end RingPool

import RingPool.Proofs.Pool.Calls

/-!
# A worker's call as a whole on lists of objects

`Desk.Ends` says where the steps of a desk lead that nobody interrupts, and with what outcome.
A worker's call on the rings of a pool leads to the same lists and has the same outcome
(`Pool.run_ends`): each step does (`Workplace.Tidy.step`), and there are no more of them than the
call is allowed.  So what a call does as a whole is worked out on lists alone.
-/

set_option autoImplicit false

namespace RingPool

variable {Source α : Type} [ObjectSource Source α] {config : PoolConfig}
  {localCapacity sharedCapacity : Capacity}

/-- The steps from a phase on lead to a desk and return an outcome there. -/
inductive Desk.Ends (config : PoolConfig) (localCapacity sharedCapacity : Capacity) :
    Desk Source α → WorkerPhase α → Desk Source α → WorkerOutcome α → Prop
  | returns {desk final : Desk Source α} {phase : WorkerPhase α} {outcome : WorkerOutcome α}
      (step : desk.step config localCapacity sharedCapacity phase = (final, .returned outcome)) :
      Ends config localCapacity sharedCapacity desk phase final outcome
  | goesOn {desk next final : Desk Source α} {phase later : WorkerPhase α}
      {outcome : WorkerOutcome α}
      (step : desk.step config localCapacity sharedCapacity phase = (next, .running later))
      (ends : Ends config localCapacity sharedCapacity next later final outcome) :
      Ends config localCapacity sharedCapacity desk phase final outcome

def Pool.desk (pool : Pool Source α) (slot : WorkerSlot α) : Desk Source α :=
  ⟨slot.cache.toList, pool.shared.toList, slot.stats, pool.source⟩

theorem Workplace.alone_ends (sizing : config.Fits localCapacity sharedCapacity)
    {place : Workplace Source α} (tidy : place.Tidy localCapacity sharedCapacity)
    {phase : WorkerPhase α} {final : Desk Source α} {outcome : WorkerOutcome α}
    (ends : Desk.Ends config localCapacity sharedCapacity place.desk phase final outcome)
    {steps : Nat}
    (enough : phase.stepsLeft sharedCapacity.size place.desk.cache.length ≤ steps) :
    ∃ last, (procedure config).alone steps place phase = (last, .returned outcome) ∧
      last.Tidy localCapacity sharedCapacity ∧ last.desk = final ∧
      last.slot.claimed = place.slot.claimed := by
  generalize begun : place.desk = desk at ends
  induction ends generalizing place steps with
  | @returns desk final phase outcome step =>
      subst begun
      have reached := tidy.step config phase
      have nearer := Desk.stepsLeft_lt sizing place.desk phase
      rw [step] at reached nearer
      obtain ⟨later, rfl⟩ : ∃ later, steps = later + 1 :=
        Nat.exists_eq_succ_of_ne_zero (Nat.ne_of_gt (nearer.trans_le enough))
      refine ⟨(place.step config phase).1, ?_, reached.tidy, reached.desk, reached.claimed⟩
      have goes : (procedure config).step place phase false =
          ((place.step config phase).1, .returned outcome) := Prod.ext rfl reached.progress
      rw [Procedure.alone, goes]
  | @goesOn desk next final phase later outcome step ends ih =>
      subst begun
      have reached := tidy.step config phase
      have nearer := Desk.stepsLeft_lt sizing place.desk phase
      rw [step] at reached nearer
      obtain ⟨rest, rfl⟩ : ∃ rest, steps = rest + 1 :=
        Nat.exists_eq_succ_of_ne_zero
          (Nat.ne_of_gt ((Nat.zero_le _).trans_lt (nearer.trans_le enough)))
      have inTime : later.stepsLeft sharedCapacity.size
          (place.step config phase).1.desk.cache.length ≤ rest := by
        rw [reached.desk]
        exact Nat.le_of_lt_succ (nearer.trans_le enough)
      obtain ⟨last, alone, lastTidy, lastDesk, claimed⟩ := ih reached.tidy inTime reached.desk
      refine ⟨last, ?_, lastTidy, lastDesk, claimed.trans reached.claimed⟩
      have goes : (procedure config).step place phase false =
          ((place.step config phase).1, .running later) := Prod.ext rfl reached.progress
      rw [Procedure.alone, goes]
      exact alone

theorem Pool.run_of_returned {pool : Pool Source α} {id : UInt64} {slot : WorkerSlot α}
    (found : pool.slots[id.toNat]? = some slot) {phase : WorkerPhase α}
    {last : Workplace Source α} {outcome : WorkerOutcome α}
    (step : Workplace.step pool.config ⟨slot, pool.shared, pool.source⟩ phase =
      (last, .returned outcome)) :
    pool.run id phase = (pool.withWorkplace id last, outcome) := by
  have bound : Pool.stepBound pool.config = (Pool.stepBound pool.config - 1) + 1 := by
    rw [Pool.stepBound]
    omega
  have goes : (Workplace.procedure pool.config).step ⟨slot, pool.shared, pool.source⟩ phase
      false = (last, .returned outcome) := step
  rw [Pool.run, Pool.workplace?_of_found found, bound]
  simp only [Procedure.alone, goes]

theorem Pool.run_reaches {pool : Pool Source α} {id : UInt64} {slot : WorkerSlot α}
    (sizing : pool.config.Fits localCapacity sharedCapacity)
    (found : pool.slots[id.toNat]? = some slot)
    (cache : slot.cache.IsShelf localCapacity) (shared : pool.shared.IsShelf sharedCapacity)
    {phase : WorkerPhase α}
    (begins : phase = .hit ∨ (∃ object, phase = .put object) ∨ phase = .check)
    {final : Desk Source α} {outcome : WorkerOutcome α}
    (ends : Desk.Ends pool.config localCapacity sharedCapacity (pool.desk slot) phase final
      outcome) :
    ∃ last : Workplace Source α, pool.run id phase = (pool.withWorkplace id last, outcome) ∧
      last.Tidy localCapacity sharedCapacity ∧ last.desk = final ∧
      last.slot.claimed = slot.claimed := by
  have enough := PoolSystem.stepsLeft_le_stepBound sizing cache.length_lt begins
  have tidy : Workplace.Tidy ⟨slot, pool.shared, pool.source⟩ localCapacity sharedCapacity :=
    ⟨cache, shared⟩
  obtain ⟨last, alone, lastTidy, desk, claimed⟩ :=
    Workplace.alone_ends sizing tidy ends enough
  refine ⟨last, ?_, lastTidy, desk, claimed⟩
  rw [Pool.run, Pool.workplace?_of_found found]
  simp only [alone]

/-- A worker's call changes its own slot, the shared ring and the source, to what its desk
comes to. -/
theorem Pool.run_ends {pool : Pool Source α} {id : UInt64} {slot : WorkerSlot α}
    (sizing : pool.config.Fits localCapacity sharedCapacity)
    (found : pool.slots[id.toNat]? = some slot)
    (cache : slot.cache.IsShelf localCapacity) (shared : pool.shared.IsShelf sharedCapacity)
    {phase : WorkerPhase α}
    (begins : phase = .hit ∨ (∃ object, phase = .put object) ∨ phase = .check)
    {final : Desk Source α} {outcome : WorkerOutcome α}
    (ends : Desk.Ends pool.config localCapacity sharedCapacity (pool.desk slot) phase final
      outcome) :
    ∃ after changed, pool.run id phase = (after, outcome) ∧ after.config = pool.config ∧
      after.slots = pool.slots.setIfInBounds id.toNat changed ∧
      changed.claimed = slot.claimed ∧ after.desk changed = final := by
  obtain ⟨last, ran, -, desk, claimed⟩ := run_reaches sizing found cache shared begins ends
  exact ⟨_, last.slot, ran, rfl, rfl, claimed, desk⟩

theorem PoolSystem.run_config [DecidableEq α] (system : PoolSystem Source α)
    (moves : List (PoolMove α)) :
    (system.run moves).1.pool.config = system.pool.config := by
  refine (run_invariant (fun later => later.pool.config = system.pool.config) (fun _ => True)
    ?_ rfl moves).1
  intro later same move
  refine ⟨?_, fun _ _ => True.intro⟩
  have effect := effect_of_next later move
  generalize (later.next move).1 = after at effect ⊢
  cases effect with
  | stays | guards | begins | works => exact same

/-- Whatever its workers do, a pool keeps its sizing, and its rings stay shelves. -/
theorem Pool.shelves_of_run [Inhabited α] [DecidableEq α] {source : Source}
    {pool : Pool Source α} (opened : Pool.create config source = .ok pool) (held : List α)
    (moves : List (PoolMove α)) {reached : Pool Source α}
    (reaches : ({ PoolSystem.start pool with held }.run moves).1.pool = reached) :
    ∃ localCapacity sharedCapacity, config.Fits localCapacity sharedCapacity ∧
      reached.config = config ∧ reached.shared.IsShelf sharedCapacity ∧
      ∀ slot ∈ reached.slots, slot.cache.IsShelf localCapacity := by
  obtain ⟨localCapacity, sharedCapacity, tended⟩ := PoolSystem.Tended.start opened held
  obtain ⟨sizing, shared, caches, -⟩ := (tended.run moves).1
  have sameConfig : reached.config = config := by
    obtain ⟨-, -, -, same, -⟩ := Pool.of_create opened
    rw [← reaches, PoolSystem.run_config]
    exact same
  rw [reaches] at sizing shared caches
  rw [sameConfig] at sizing
  exact ⟨localCapacity, sharedCapacity, sizing, sameConfig, shared, caches⟩

end RingPool

import RingPool.Proofs.Pool.Opening
import RingPool.Proofs.Pool.Moves

/-!
# No call of a worker panics

What a worker relies on before a step is a matter of its own cache and of how large
a bulk is: after a miss its cache is empty, the rest of a bulk is shorter than the
bulk, and a bulk moved out of a full cache makes room for the object that comes
back (`WorkerPhase.Fits`).  No other worker touches that cache, so each step of any
worker keeps this for all (`PoolSystem.Tended`), and none of them panics.

Main statement: for an accepted sizing the rings of the pool are built, what the
source gives in advance fits the shared ring, and in no run does a call panic or
the arithmetic of a ring fall below zero.
-/

set_option autoImplicit false

namespace RingPool

variable {Source α : Type}

def Onward.Fits (localCapacity : Capacity) (cache : List α) : Onward α → Prop
  | .retry _ => 0 < localCapacity.vacancy cache
  | _ => True

def WorkerPhase.Fits (config : PoolConfig) (localCapacity : Capacity) (cache : List α) :
    WorkerPhase α → Prop
  | .refill => cache = []
  | .stock _ rest => cache = [] ∧ rest.length < config.bulkSize.toNat
  | .retry _ => 0 < localCapacity.vacancy cache
  | .offload _ onward => onward.Fits localCapacity cache
  | .reclaim _ _ _ onward => onward.Fits localCapacity cache
  | _ => True

def GoesOn (config : PoolConfig) (localCapacity : Capacity) (cache : List α) :
    Progress (WorkerPhase α) (WorkerOutcome α) → Prop
  | .running phase => phase.Fits config localCapacity cache
  | .returned outcome => ∀ panic, outcome ≠ .panicked panic

section Step

variable {config : PoolConfig} {localCapacity sharedCapacity : Capacity} {cache : List α}
  {onward : Onward α}

theorem goesOn_served (given : Option α) :
    GoesOn config localCapacity cache (.returned (.served given)) := by
  intro panic same
  cases same

theorem goesOn_done : GoesOn config localCapacity cache (.returned .done) := by
  intro panic same
  cases same

theorem goOn_goesOn (fits : onward.Fits localCapacity cache) :
    GoesOn config localCapacity cache (Workplace.goOn onward) := by
  cases onward with
  | serve object => exact goesOn_served (some object)
  | retry object => exact fits
  | check => exact True.intro

theorem reclaimAll_goesOn (fits : onward.Fits localCapacity cache) (left : List α) :
    GoesOn config localCapacity cache (Workplace.reclaimAll onward left) := by
  cases left with
  | nil => exact goOn_goesOn fits
  | cons object rest => exact fits

/-- A bulk moved out of a cache makes room in it. -/
theorem vacancy_drop_pos (sizing : config.Fits localCapacity sharedCapacity)
    (within : cache.length < localCapacity.size) :
    0 < localCapacity.vacancy (cache.drop config.bulkSize.toNat) := by
  have bulk := sizing.bulkSize_pos
  have size := localCapacity.two_le_size
  rw [Capacity.vacancy, List.length_drop]
  omega

theorem rest_le_vacancy (sizing : config.Fits localCapacity sharedCapacity) {object : α}
    {rest : List α} (fits : (WorkerPhase.stock object rest).Fits config localCapacity cache) :
    rest.length ≤ localCapacity.vacancy cache := by
  obtain ⟨empty, short⟩ := fits
  have bulk := sizing.bulkSize_le
  rw [Capacity.vacancy, empty, List.length_nil]
  omega

/-- A worker that finds what it relies on does not panic and leaves what it relies on next. -/
theorem Desk.step_goesOn [ObjectSource Source α] (sizing : config.Fits localCapacity sharedCapacity)
    (desk : Desk Source α) (within : desk.cache.length < localCapacity.size)
    (phase : WorkerPhase α) (fits : phase.Fits config localCapacity desk.cache) :
    GoesOn config localCapacity (desk.step config localCapacity sharedCapacity phase).1.cache
      (desk.step config localCapacity sharedCapacity phase).2 := by
  cases phase with
  | hit =>
      rw [Desk.step]
      split
      case h_1 => exact goesOn_served _
      case h_2 empty => exact empty
  | refill =>
      rw [Desk.step]
      split
      case h_1 => exact True.intro
      case h_2 object rest taken =>
          have length := congrArg List.length taken
          rw [List.length_take, List.length_cons] at length
          exact ⟨fits, by omega⟩
  | stock object rest =>
      have room := rest_le_vacancy sizing fits
      rw [Desk.step, if_pos room]
      exact goesOn_served (some object)
  | ask =>
      rw [Desk.step]
      split
      case h_1 => exact goesOn_served none
      case h_2 => exact True.intro
  | measure object => exact True.intro
  | gather object more burst =>
      cases more with
      | zero => exact True.intro
      | succ more =>
          rw [Desk.step]
          split <;> exact True.intro
  | stow object burst =>
      have serves : (Onward.serve object).Fits localCapacity desk.cache := True.intro
      exact reclaimAll_goesOn serves _
  | put object =>
      rw [Desk.step]
      split
      case isTrue => exact goesOn_done
      case isFalse => exact True.intro
  | retry object =>
      have room : 0 < localCapacity.vacancy desk.cache := fits
      rw [Desk.step, if_pos room]
      exact goesOn_done
  | check =>
      rw [Desk.step]
      split
      case h_1 => exact goesOn_done
      case h_2 => exact True.intro
  | unload onward =>
      have room := vacancy_drop_pos sizing within
      rw [Desk.step]
      split
      case h_1 nothing =>
          rw [Workplace.Tidy.drop_of_take_eq_nil nothing] at room
          exact goOn_goesOn (by cases onward <;> first | exact True.intro | exact room)
      case h_2 => cases onward <;> first | exact True.intro | exact room
  | offload bulk onward => exact reclaimAll_goesOn fits _
  | reclaim object rest before onward =>
      cases rest with
      | nil => exact goOn_goesOn fits
      | cons next rest => exact fits

end Step

namespace PoolSystem

/-- Every ring of a pool is a shelf, and each worker that is within a call finds in
its cache what it relies on. -/
structure Tended (system : PoolSystem Source α) (localCapacity sharedCapacity : Capacity) :
    Prop where
  sizing : system.pool.config.Fits localCapacity sharedCapacity
  shared : system.pool.shared.IsShelf sharedCapacity
  caches : ∀ slot ∈ system.pool.slots, slot.cache.IsShelf localCapacity
  calls : ∀ id phase, system.calls id = some phase →
    ∃ slot, system.pool.slots[id.toNat]? = some slot ∧
      phase.Fits system.pool.config localCapacity slot.cache.toList

namespace Tended

variable {system : PoolSystem Source α} {localCapacity sharedCapacity : Capacity}

theorem cache (tended : system.Tended localCapacity sharedCapacity) {index : Nat}
    {slot : WorkerSlot α} (found : system.pool.slots[index]? = some slot) :
    slot.cache.IsShelf localCapacity :=
  tended.caches slot (Array.mem_of_getElem? found)

theorem tidy (tended : system.Tended localCapacity sharedCapacity) {index : Nat}
    {slot : WorkerSlot α} (found : system.pool.slots[index]? = some slot) :
    (system.workplace slot).Tidy localCapacity sharedCapacity :=
  ⟨tended.cache found, tended.shared⟩

theorem guarded (tended : system.Tended localCapacity sharedCapacity) {id : UInt64}
    {slot : WorkerSlot α} (found : system.pool.slots[id.toNat]? = some slot) (claimed : Bool) :
    (system.guarded id slot claimed).Tended localCapacity sharedCapacity where
  sizing := tended.sizing
  shared := tended.shared
  caches := by
    intro other listed
    rcases Array.mem_or_eq_of_mem_setIfInBounds listed with old | rfl
    · exact tended.caches other old
    · exact tended.caches slot (Array.mem_of_getElem? found)
  calls := by
    intro other phase within
    obtain ⟨held, foundOther, fits⟩ := tended.calls other phase within
    by_cases same : id.toNat = other.toNat
    · rw [← same, found] at foundOther
      cases foundOther
      refine ⟨{ slot with claimed }, ?_, fits⟩
      rw [← same]
      exact system.guarded_slot found claimed
    · refine ⟨held, ?_, fits⟩
      exact (Array.getElem?_setIfInBounds_ne same).trans foundOther

theorem begun [DecidableEq α] (tended : system.Tended localCapacity sharedCapacity)
    {move : PoolMove α} {id : UInt64} {slot : WorkerSlot α} {phase : WorkerPhase α} {held : List α}
    (found : system.pool.slots[id.toNat]? = some slot)
    (opens : Opens system.held move id phase held) :
    (system.begun id phase held).Tended localCapacity sharedCapacity where
  sizing := tended.sizing
  shared := tended.shared
  caches := tended.caches
  calls := by
    intro other later within
    change (if other = id then some phase else system.calls other) = some later at within
    split at within
    case isTrue same =>
        cases within
        subst same
        exact ⟨slot, found, by cases opens <;> exact True.intro⟩
    case isFalse => exact tended.calls other later within

variable [ObjectSource Source α]

theorem goesOn (tended : system.Tended localCapacity sharedCapacity) {id : UInt64}
    {slot : WorkerSlot α} {phase : WorkerPhase α}
    (found : system.pool.slots[id.toNat]? = some slot)
    (within : system.calls id = some phase) :
    GoesOn system.pool.config localCapacity
      ((system.workplace slot).step system.pool.config phase).1.slot.cache.toList
      ((system.workplace slot).step system.pool.config phase).2 := by
  obtain ⟨held, same, fits⟩ := tended.calls id phase within
  rw [found] at same
  cases same
  have reached := (tended.tidy found).step system.pool.config phase
  have cache : ((system.workplace slot).step system.pool.config phase).1.slot.cache.toList =
      ((system.workplace slot).desk.step system.pool.config localCapacity sharedCapacity
        phase).1.cache := congrArg Desk.cache reached.desk
  rw [reached.progress, cache]
  exact Desk.step_goesOn tended.sizing _ (tended.cache found).length_lt phase fits

theorem worked (tended : system.Tended localCapacity sharedCapacity) {id : UInt64}
    {slot : WorkerSlot α} {phase : WorkerPhase α}
    (found : system.pool.slots[id.toNat]? = some slot)
    (within : system.calls id = some phase) :
    (system.worked id ((system.workplace slot).step system.pool.config phase)).Tended
      localCapacity sharedCapacity := by
  have reached := (tended.tidy found).step system.pool.config phase
  have goes := tended.goesOn found within
  refine ⟨tended.sizing, reached.tidy.shared, ?_, ?_⟩
  · intro other listed
    rcases Array.mem_or_eq_of_mem_setIfInBounds listed with old | rfl
    · exact tended.caches other old
    · exact reached.tidy.cache
  · intro other later calling
    change (if other = id then callAfter _ else system.calls other) = some later at calling
    split at calling
    case isTrue same =>
        subst same
        refine ⟨_, system.worked_slot found _, ?_⟩
        revert goes calling
        cases ((system.workplace slot).step system.pool.config phase).2 with
        | running next =>
            intro goes calling
            cases calling
            exact goes
        | returned outcome =>
            intro _ calling
            cases calling
    case isFalse different =>
        obtain ⟨held, foundOther, fits⟩ := tended.calls other later calling
        exact ⟨held, (system.worked_slot_other different _).trans foundOther, fits⟩

theorem start [Inhabited α] {config : PoolConfig} {source : Source} {pool : Pool Source α}
    (opened : Pool.create config source = .ok pool) (held : List α) :
    ∃ localCapacity sharedCapacity,
      { PoolSystem.start pool with held }.Tended localCapacity sharedCapacity := by
  obtain ⟨localCapacity, sharedCapacity, fits, same, shelf, slots, -⟩ := Pool.of_create opened
  refine ⟨localCapacity, sharedCapacity, same ▸ fits, shelf, ?_, ?_⟩
  · intro slot listed
    change slot ∈ pool.slots at listed
    rw [slots] at listed
    rw [(Array.mem_replicate.mp listed).2]
    exact Ring.forObjects_isShelf localCapacity
  · intro id phase calling
    cases calling

variable [DecidableEq α]

theorem effect (tended : system.Tended localCapacity sharedCapacity) {move : PoolMove α}
    {after : PoolSystem Source α} (effect : PoolEffect system move after) :
    after.Tended localCapacity sharedCapacity := by
  cases effect with
  | stays => exact tended
  | guards id slot claimed found => exact tended.guarded found claimed
  | begins id slot phase held found idle opens => exact tended.begun found opens
  | works id slot phase found within => exact tended.worked found within

def Calm : PoolEvent α → Prop
  | .returned _ outcome => ∀ panic, outcome ≠ .panicked panic
  | .claimed _ _ => True

theorem next_calm (tended : system.Tended localCapacity sharedCapacity) (move : PoolMove α) :
    ∀ event ∈ (system.next move).2, Calm event := by
  intro event told
  cases event with
  | claimed id refusal => exact True.intro
  | returned id outcome =>
      obtain ⟨slot, phase, -, found, within, returned⟩ := next_returned told
      have goes := tended.goesOn found within
      rw [returned] at goes
      exact goes

theorem run (tended : system.Tended localCapacity sharedCapacity) (moves : List (PoolMove α)) :
    (system.run moves).1.Tended localCapacity sharedCapacity ∧
      ∀ event ∈ (system.run moves).2, Calm event :=
  run_invariant (fun system => system.Tended localCapacity sharedCapacity) Calm
    (fun _ tended move => ⟨tended.effect (effect_of_next _ move), tended.next_calm move⟩)
    tended moves

end Tended

end PoolSystem

open PoolSystem (duoConfig duoCapacity duoPool duoMoves duoConfig_check
  duoPool_opens)

/-- What the workers of a pool count and subtract on a ring is right: the free places
and the room that a producer observes are differences that do not fall below zero,
and a bulk is as long as the range of slots reserved for it. -/
structure Ring.CountsSafely (ring : Ring α) : Prop where
  count_le : ring.count ≤ ring.usableCapacity
  room_le : ring.core.room .producer ring.core.producer.head ≤ ring.usableCapacity
  bulk_length : ∀ most exclusive,
    (ring.dequeueBulk most exclusive).2.length =
      Ring.reserved .consumer ring (ring.dequeueBulk most exclusive).1

theorem Ring.IsShelf.countsSafely {ring : Ring α} {capacity : Capacity}
    (shelf : ring.IsShelf capacity) : ring.CountsSafely where
  count_le := ring.core.committed_le_mask
  room_le := shelf.room_producer_le
  bulk_length := fun most exclusive => (shelf.reserved_dequeueBulk most exclusive).2.symm

/-- A pool with an accepted sizing is built and worked on without a panic, whatever
its source answers, however its workers' steps are interleaved, and also if callers
return objects `held` that are none of its own: its rings are built, the objects got
in advance fit, no call panics, and the rings count safely. -/
theorem accepted_pools_never_panic [Inhabited α] [ObjectSource Source α] [DecidableEq α]
    (config : PoolConfig) (localCapacity sharedCapacity : Capacity)
    (accepted : config.check = .ok (localCapacity, sharedCapacity)) (source : Source) :
    Ring.create config.localCapacity .burst none = .ok (Ring.forObjects localCapacity : Ring α) ∧
    Ring.create config.sharedCapacity .burst none =
      .ok (Ring.forObjects sharedCapacity : Ring α) ∧
    (∃ shared : Ring α,
      (Ring.forObjects sharedCapacity).offerBulk
        (config.preallocated sharedCapacity source).1.toList =
          (shared, UInt32.ofNat (config.preallocated sharedCapacity source).1.size, [])) ∧
    ∀ pool : Pool Source α, Pool.create config source = .ok pool →
      ∀ (held : List α) (moves : List (PoolMove α)),
        let worked := { PoolSystem.start pool with held }.run moves
        (∀ id panic, PoolEvent.returned id (.panicked panic) ∉ worked.2) ∧
        worked.1.pool.shared.CountsSafely ∧
        ∀ slot ∈ worked.1.pool.slots, slot.cache.CountsSafely := by
  have fits := PoolConfig.fits_of_check accepted
  obtain ⟨shared, offered, -⟩ := config.prealloc_fits sharedCapacity source rfl
  refine ⟨Ring.create_forObjects fits.cacheSlots, Ring.create_forObjects fits.sharedSlots,
    ⟨shared, offered⟩, ?_⟩
  intro pool opened held moves worked
  obtain ⟨cacheCapacity, poolCapacity, tended⟩ := PoolSystem.Tended.start opened held
  obtain ⟨after, calm⟩ := tended.run moves
  refine ⟨fun id panic told => calm _ told panic rfl, after.shared.countsSafely, ?_⟩
  intro slot listed
  exact (after.caches slot listed).countsSafely

def duoWorked : PoolSystem ScriptedSource UInt64 × List (PoolEvent UInt64) :=
  { PoolSystem.start (duoPool (ScriptedSource.create none [])) with held := [7] }.run
    (duoMoves ++ [PoolMove.advance 1, .free 1 7, .advance 1])

theorem accepted_pools_never_panic_sample :
    duoConfig.check = .ok (duoCapacity, duoCapacity) ∧
    Pool.create duoConfig (ScriptedSource.create none []) =
      .ok (duoPool (ScriptedSource.create none [])) ∧
    (∀ id panic, PoolEvent.returned id (.panicked panic) ∉ duoWorked.2) ∧
    duoWorked.1.pool.shared.CountsSafely ∧
    ∀ slot ∈ duoWorked.1.pool.slots, slot.cache.CountsSafely := by
  obtain ⟨-, -, -, runs⟩ := accepted_pools_never_panic duoConfig duoCapacity duoCapacity
    duoConfig_check (ScriptedSource.create none [])
  exact ⟨duoConfig_check, duoPool_opens _, runs _ (duoPool_opens _) [7] _⟩

end RingPool

import Mathlib.Algebra.BigOperators.Group.Finset.Basic
import Mathlib.Algebra.Order.BigOperators.Group.List
import Mathlib.Algebra.Ring.Int.Defs
import RingPool.Proofs.Pool.Contention
import RingPool.Proofs.Pool.Ledger

/-!
# What the other counters of a worker say

What a worker counts besides its spills is a `Deed`, and a step shows how often it does
each (`Deed.times`): in how its call returns and in the calls that it makes on the
source.  The counters are not changed in those very steps.  A burst is counted when
it is stowed, objects handed back when the last of them is back, and a refill before
its call returns.  `Deed.owed` is the difference, and it is nothing between two calls.

Main statement: whenever no call is in progress, what the source gave in advance and
on request and what callers returned are together what callers were given, what the
rings hold and what went back to the source; and each worker's counters are the
numbers of its deeds.
-/

set_option autoImplicit false

namespace RingPool

variable {Source α : Type}

@[simp] def SourceCall.isGift : SourceCall α → Bool
  | .gave _ => true
  | _ => false

@[simp] def SourceCall.isReturn : SourceCall α → Bool
  | .tookBack _ => true
  | _ => false

namespace WorkerOutcome

@[simp] def isServed : WorkerOutcome α → Bool
  | .served (some _) => true
  | _ => false

@[simp] def isRefused : WorkerOutcome α → Bool
  | .served none => true
  | _ => false

end WorkerOutcome

@[simp] def PoolEvent.outcome? : PoolEvent α → Option (WorkerOutcome α)
  | .returned _ outcome => some outcome
  | .claimed _ _ => none

/-- What a worker counts, its spills apart. -/
inductive Deed where
  | cacheHit
  | sharedRefill
  | sourceAlloc
  | sourceFree
  | failure

namespace Deed

@[simp] def counter : Deed → WorkerStats → Nat
  | .cacheHit => WorkerStats.cacheHits
  | .sharedRefill => WorkerStats.sharedRefills
  | .sourceAlloc => WorkerStats.sourceAllocs
  | .sourceFree => WorkerStats.sourceFrees
  | .failure => WorkerStats.allocFailures

/-- How often a step does it that starts at a phase, ends the call with an outcome, if
it does, and makes some calls on the source. -/
@[simp] def times : Deed → WorkerPhase α → Option (WorkerOutcome α) → List (SourceCall α) → Nat
  | .cacheHit, .hit, outcome, _ => outcome.toList.countP WorkerOutcome.isServed
  | .sharedRefill, .stock _ _, outcome, _ => outcome.toList.countP WorkerOutcome.isServed
  | .sourceAlloc, _, _, calls => calls.countP SourceCall.isGift
  | .sourceFree, _, _, calls => calls.countP SourceCall.isReturn
  | .failure, _, outcome, _ => outcome.toList.countP WorkerOutcome.isRefused
  | .cacheHit, _, _, _ | .sharedRefill, _, _, _ => 0

/-- How often a call has done it and not counted it yet; less than nothing if it is
counted first. -/
@[simp] def owed : Deed → Option (WorkerPhase α) → Int
  | .sharedRefill, some (.stock _ _) => -1
  | .sourceAlloc, some (.measure _) => 1
  | .sourceAlloc, some (.gather _ _ burst) => burst.size + 1
  | .sourceAlloc, some (.stow _ burst) => burst.size + 1
  | .sourceFree, some (.reclaim _ _ before _) => before
  | _, _ => 0

end Deed

section Progress

open PoolSystem (callAfter)

def ended : Progress (WorkerPhase α) (WorkerOutcome α) → Option (WorkerOutcome α)
  | .running _ => none
  | .returned outcome => some outcome

@[simp] theorem ended_running (phase : WorkerPhase α) : ended (.running phase) = none := rfl

@[simp] theorem ended_returned (outcome : WorkerOutcome α) :
    ended (.returned outcome) = some outcome := rfl

@[simp] theorem owed_goOn (deed : Deed) (onward : Onward α) :
    deed.owed (callAfter (Workplace.goOn onward)) = 0 := by
  cases onward <;> cases deed <;> rfl

@[simp] theorem owed_reclaimAll (deed : Deed) (onward : Onward α) (left : List α) :
    deed.owed (callAfter (Workplace.reclaimAll onward left)) = 0 := by
  cases left with
  | nil => exact owed_goOn deed onward
  | cons object rest => cases deed <;> rfl

@[simp] theorem isRefused_goOn (onward : Onward α) :
    (ended (Workplace.goOn onward)).toList.countP WorkerOutcome.isRefused = 0 := by
  cases onward <;> rfl

@[simp] theorem isRefused_reclaimAll (onward : Onward α) (left : List α) :
    (ended (Workplace.reclaimAll onward left)).toList.countP WorkerOutcome.isRefused = 0 := by
  cases left with
  | nil => exact isRefused_goOn onward
  | cons object rest => rfl

end Progress

namespace Desk

open PoolSystem (callAfter)

variable [ObjectSource Source α] {config : PoolConfig}
  {localCapacity sharedCapacity : Capacity}

/-- A step counts what it does, up to what its call owes. -/
theorem step_counts (sizing : config.Fits localCapacity sharedCapacity)
    (desk : Desk (Recorded Source α) α) (phase : WorkerPhase α)
    (fits : phase.Fits config localCapacity desk.cache) (deed : Deed) :
    ∃ made,
      (desk.step config localCapacity sharedCapacity phase).1.source.calls =
        made ++ desk.source.calls ∧
      (deed.counter (desk.step config localCapacity sharedCapacity phase).1.stats : Int) +
          deed.owed (callAfter (desk.step config localCapacity sharedCapacity phase).2) =
        deed.counter desk.stats + deed.owed (some phase) +
          deed.times phase (ended (desk.step config localCapacity sharedCapacity phase).2)
            made := by
  have quiet : ∀ {after : Desk (Recorded Source α) α} {progress : Progress (WorkerPhase α) _},
      after.source = desk.source →
      (deed.counter after.stats : Int) + deed.owed (callAfter progress) =
        deed.counter desk.stats + deed.owed (some phase) +
          deed.times phase (ended progress) [] →
      ∃ made, after.source.calls = made ++ desk.source.calls ∧
        (deed.counter after.stats : Int) + deed.owed (callAfter progress) =
          deed.counter desk.stats + deed.owed (some phase) +
            deed.times phase (ended progress) made :=
    fun same counted => ⟨[], congrArg Recorded.calls same, counted⟩
  cases phase with
  | hit =>
      rw [Desk.step]
      split <;> refine quiet rfl ?_ <;> cases deed <;> simp [callAfter, count]
  | refill =>
      rw [Desk.step]
      split <;> refine quiet rfl ?_ <;> cases deed <;> simp [callAfter, count]
  | stock object rest =>
      rw [Desk.step, if_pos (rest_le_vacancy sizing fits)]
      refine quiet rfl ?_
      cases deed <;> simp [callAfter]
  | ask =>
      rw [Desk.step]
      rcases desk.source.alloc_cases with ⟨source, refused⟩ | ⟨object, source, gave⟩
      · rw [refused]
        refine ⟨[.refused], rfl, ?_⟩
        cases deed <;> simp [callAfter, count]
      · rw [gave]
        refine ⟨[.gave object], rfl, ?_⟩
        cases deed <;> simp [callAfter]
  | measure object =>
      refine quiet rfl ?_
      cases deed <;> simp [callAfter]
  | gather object more burst =>
      cases more with
      | zero =>
          refine quiet rfl ?_
          cases deed <;> simp [callAfter]
      | succ more =>
          rw [Desk.step]
          rcases desk.source.alloc_cases with ⟨source, refused⟩ | ⟨extra, source, gave⟩
          · rw [refused]
            refine ⟨[.refused], rfl, ?_⟩
            cases deed <;> simp [callAfter]
          · rw [gave]
            refine ⟨[.gave extra], rfl, ?_⟩
            cases deed <;> simp [callAfter, Int.add_assoc]
  | stow object burst =>
      refine quiet rfl ?_
      rw [Desk.step, owed_reclaimAll]
      cases deed <;> simp [count, Int.add_assoc]
  | put object =>
      rw [Desk.step]
      split <;> refine quiet rfl ?_ <;> cases deed <;> simp [callAfter]
  | retry object =>
      rw [Desk.step]
      split <;> refine quiet rfl ?_ <;> cases deed <;> simp [callAfter]
  | check =>
      rw [Desk.step]
      split <;> refine quiet rfl ?_ <;> cases deed <;> simp [callAfter]
  | unload onward =>
      rw [Desk.step]
      split
      case h_1 =>
          refine quiet rfl ?_
          rw [owed_goOn]
          cases deed <;> simp
      case h_2 =>
          refine quiet rfl ?_
          cases deed <;> simp [callAfter]
  | offload bulk onward =>
      refine quiet rfl ?_
      rw [Desk.step, owed_reclaimAll]
      -- Spills are counted apart.
      cases deed <;> simp [count] <;> split <;> rfl
  | reclaim object rest before onward =>
      refine ⟨[.tookBack object], by cases rest <;> rfl, ?_⟩
      cases rest with
      | nil =>
          rw [Desk.step, owed_goOn]
          cases deed <;> simp [count, Int.add_assoc]
      | cons next rest => cases deed <;> simp [callAfter, Int.add_assoc]

/-- The objects within a worker's reach, those that it handed back and those that it
asked for, the last against the others. -/
def balance (desk : Desk Source α) (carried : List α) (call : Option (WorkerPhase α)) : Int :=
  desk.cache.length + carried.length +
    (Deed.sourceFree.counter desk.stats + Deed.sourceFree.owed call) -
    (Deed.sourceAlloc.counter desk.stats + Deed.sourceAlloc.owed call)

open PoolSystem (carried carried_goOn carried_reclaimAll handedOut inTransit)

/-- A step moves objects between the worker, the shared ring and the source. -/
theorem step_balance (sizing : config.Fits localCapacity sharedCapacity)
    (desk : Desk Source α) (phase : WorkerPhase α)
    (fits : phase.Fits config localCapacity desk.cache) :
    (desk.step config localCapacity sharedCapacity phase).1.balance
        (carried (desk.step config localCapacity sharedCapacity phase).2)
        (callAfter (desk.step config localCapacity sharedCapacity phase).2) +
          (desk.step config localCapacity sharedCapacity phase).1.shared.length =
      desk.balance (inTransit phase) (some phase) + desk.shared.length := by
  cases phase with
  | hit =>
      rw [Desk.step]
      split
      case h_1 object cache items =>
          simp [balance, carried, handedOut, inTransit, callAfter, count, items]
      case h_2 => simp [balance, carried, inTransit, callAfter]
  | refill =>
      rw [Desk.step]
      split
      case h_1 => simp [balance, carried, inTransit, callAfter]
      case h_2 object rest taken =>
          have whole := congrArg List.length
            (List.take_append_drop config.bulkSize.toNat desk.shared)
          rw [taken] at whole
          simp [balance, carried, inTransit, callAfter, count] at whole ⊢
          omega
  | stock object rest =>
      have room := rest_le_vacancy sizing fits
      rw [Desk.step, if_pos room, List.take_of_length_le room]
      simp [balance, carried, handedOut, inTransit, callAfter]
      omega
  | ask =>
      rw [Desk.step]
      split
      case h_1 => simp [balance, carried, handedOut, inTransit, callAfter, count]
      case h_2 =>
          simp [balance, carried, inTransit, callAfter]
          omega
  | measure object => simp [balance, carried, inTransit, callAfter]
  | gather object more burst =>
      cases more with
      | zero => simp [balance, carried, inTransit, callAfter]
      | succ more =>
          rw [Desk.step]
          split
          case h_1 => simp [balance, carried, inTransit, callAfter]
          case h_2 =>
              simp [balance, carried, inTransit, callAfter]
              omega
  | stow object burst =>
      have whole := congrArg List.length
        (List.take_append_drop (sharedCapacity.vacancy desk.shared) burst.toList)
      rw [Desk.step, carried_reclaimAll, balance, owed_reclaimAll, owed_reclaimAll]
      simp [balance, inTransit, inTransit.held, count] at whole ⊢
      omega
  | put object =>
      rw [Desk.step]
      split <;> simp [balance, carried, handedOut, inTransit, inTransit.held, callAfter]
  | retry object =>
      have room : 0 < localCapacity.vacancy desk.cache := fits
      rw [Desk.step, if_pos room]
      simp [balance, carried, handedOut, inTransit, callAfter]
  | check =>
      rw [Desk.step]
      split <;> simp [balance, carried, handedOut, inTransit, inTransit.held, callAfter]
  | unload onward =>
      rw [Desk.step]
      split
      case h_1 =>
          rw [carried_goOn, balance, owed_goOn, owed_goOn]
          simp [balance, inTransit]
      case h_2 object rest taken =>
          have whole := congrArg List.length
            (List.take_append_drop config.bulkSize.toNat desk.cache)
          rw [taken] at whole
          simp [balance, carried, inTransit, callAfter] at whole ⊢
          omega
  | offload bulk onward =>
      have whole := congrArg List.length
        (List.take_append_drop (sharedCapacity.vacancy desk.shared) bulk)
      rw [Desk.step, carried_reclaimAll, balance, owed_reclaimAll, owed_reclaimAll]
      rw [List.length_append] at whole
      simp only [count, balance, inTransit, Deed.counter, Deed.owed, List.length_append]
      split <;> simp only [Int.natCast_add] <;> omega
  | reclaim object rest before onward =>
      cases rest with
      | nil =>
          rw [Desk.step, carried_goOn, balance, owed_goOn, owed_goOn]
          simp [balance, inTransit, count]
          omega
      | cons next rest =>
          simp [balance, carried, inTransit, callAfter]
          omega

end Desk

namespace PoolSystem

def sourceCalls (before after : PoolSystem (Recorded Source α) α) : List (SourceCall α) :=
  after.pool.source.calls.take
    (after.pool.source.calls.length - before.pool.source.calls.length)

theorem sourceCalls_of_append {before after : PoolSystem (Recorded Source α) α}
    {made : List (SourceCall α)}
    (calls : after.pool.source.calls = made ++ before.pool.source.calls) :
    before.sourceCalls after = made := by
  rw [sourceCalls, calls, List.length_append, Nat.add_sub_cancel, List.take_left]

section Moves

variable [ObjectSource Source α] [DecidableEq α]

def frees (before : PoolSystem Source α) (move : PoolMove α) (after : PoolSystem Source α) : Nat :=
  match move with
  | .free id _ => if before.calls id = none ∧ (after.calls id).isSome then 1 else 0
  | _ => 0

def serves (before : PoolSystem Source α) (move : PoolMove α) (_ : PoolSystem Source α) : Nat :=
  ((before.next move).2.bind PoolEvent.outcome?).toList.countP WorkerOutcome.isServed

def does (deed : Deed) (id : UInt64) (before : PoolSystem (Recorded Source α) α)
    (move : PoolMove α) (after : PoolSystem (Recorded Source α) α) : Nat :=
  match before.calls id with
  | some phase =>
      if move = .advance id then
        deed.times phase ((before.next move).2.bind PoolEvent.outcome?) (before.sourceCalls after)
      else 0
  | none => 0

theorem next_advance_event (system : PoolSystem Source α) {id : UInt64} {phase : WorkerPhase α}
    {slot : WorkerSlot α} (found : system.pool.slots[id.toNat]? = some slot)
    (within : system.calls id = some phase) :
    (system.next (.advance id)).2.bind PoolEvent.outcome? =
      ended ((system.workplace slot).step system.pool.config phase).2 := by
  have place : system.pool.workplace? id = some (system.workplace slot) :=
    Pool.workplace?_of_found found
  simp only [next, within, place]
  rcases (system.workplace slot).step system.pool.config phase with
    ⟨after, later | outcome⟩ <;> rfl

/-- What a move changes, with the outcome of the call that it ends. -/
inductive PoolReport (system : PoolSystem Source α) :
    PoolMove α → PoolSystem Source α → Option (WorkerOutcome α) → Prop
  | stays {move : PoolMove α} : PoolReport system move system none
  | guards {move : PoolMove α} (id : UInt64) (slot : WorkerSlot α) (claimed : Bool)
      (found : system.pool.slots[id.toNat]? = some slot) :
      PoolReport system move (system.guarded id slot claimed) none
  | begins {move : PoolMove α} (id : UInt64) (slot : WorkerSlot α) (phase : WorkerPhase α)
      (held : List α) (found : system.pool.slots[id.toNat]? = some slot)
      (idle : system.calls id = none) (opens : Opens system.held move id phase held) :
      PoolReport system move (system.begun id phase held) none
  | works (id : UInt64) (slot : WorkerSlot α) (phase : WorkerPhase α)
      (found : system.pool.slots[id.toNat]? = some slot)
      (within : system.calls id = some phase) :
      PoolReport system (.advance id)
        (system.worked id ((system.workplace slot).step system.pool.config phase))
        (ended ((system.workplace slot).step system.pool.config phase).2)

theorem report_of_next (system : PoolSystem Source α) (move : PoolMove α) :
    PoolReport system move (system.next move).1
      ((system.next move).2.bind PoolEvent.outcome?) := by
  have works : ∀ id slot phase, move = .advance id → system.pool.slots[id.toNat]? = some slot →
      system.calls id = some phase → PoolReport system move (system.next move).1
        ((system.next move).2.bind PoolEvent.outcome?) := by
    rintro id slot phase rfl found within
    rw [next_advance system found within, next_advance_event system found within]
    exact .works id slot phase found within
  cases told : (system.next move).2.bind PoolEvent.outcome? with
  | some outcome =>
      obtain ⟨event, observed, ends⟩ := Option.bind_eq_some_iff.mp told
      cases event with
      | claimed id refusal => cases ends
      | returned id result =>
          obtain ⟨slot, phase, same, found, within, -⟩ := next_returned observed
          rw [← told]
          exact works id slot phase same found within
  | none =>
      have effect := effect_of_next system move
      generalize same : (system.next move).1 = after at effect ⊢
      cases effect with
      | stays => exact .stays
      | guards id slot claimed found => exact .guards id slot claimed found
      | begins id slot phase held found idle opens =>
          exact .begins id slot phase held found idle opens
      | works id slot phase found within =>
          have report := works id slot phase rfl found within
          rwa [told, same] at report

/-- What each move adds to one number and takes from it, a run does. -/
theorem run_tally (Inv : PoolSystem Source α → Prop) (value : PoolSystem Source α → Int)
    (gain loss : PoolSystem Source α → PoolMove α → PoolSystem Source α → Nat)
    (kept : ∀ system, Inv system → ∀ move, Inv (system.next move).1 ∧
      value (system.next move).1 + loss system move (system.next move).1 =
        value system + gain system move (system.next move).1)
    {system : PoolSystem Source α} (holds : Inv system) (moves : List (PoolMove α)) :
    Inv (system.run moves).1 ∧
      value (system.run moves).1 + system.tally loss moves =
        value system + system.tally gain moves := by
  induction moves generalizing system with
  | nil => exact ⟨holds, rfl⟩
  | cons move moves ih =>
      obtain ⟨holdsNext, now⟩ := kept system holds move
      obtain ⟨holdsFinal, later⟩ := ih holdsNext
      refine ⟨holdsFinal, ?_⟩
      have whole : (system.run (move :: moves)).1 = ((system.next move).1.run moves).1 := rfl
      rw [whole, tally, tally, Int.natCast_add, Int.natCast_add]
      omega

end Moves

/-! ## What a worker did -/

def statsAt (system : PoolSystem Source α) (id : UInt64) : WorkerStats :=
  match system.pool.slots[id.toNat]? with
  | some slot => slot.stats
  | none => .zero

theorem statsAt_of_found {system : PoolSystem Source α} {id : UInt64} {slot : WorkerSlot α}
    (found : system.pool.slots[id.toNat]? = some slot) : system.statsAt id = slot.stats := by
  rw [statsAt, found]

theorem statsAt_guarded (system : PoolSystem Source α) {id : UInt64} {slot : WorkerSlot α}
    (found : system.pool.slots[id.toNat]? = some slot) (claimed : Bool) (other : UInt64) :
    (system.guarded id slot claimed).statsAt other = system.statsAt other := by
  by_cases same : id.toNat = other.toNat
  · have changed : (system.guarded id slot claimed).pool.slots[other.toNat]? =
        some { slot with claimed } := by
      rw [← same]
      exact system.guarded_slot found claimed
    rw [same] at found
    rw [statsAt_of_found changed, statsAt_of_found found]
  · have kept : (system.guarded id slot claimed).pool.slots[other.toNat]? =
        system.pool.slots[other.toNat]? := Array.getElem?_setIfInBounds_ne same
    rw [statsAt, statsAt, kept]

section Deeds

variable [ObjectSource Source α] [DecidableEq α] {localCapacity sharedCapacity : Capacity}

theorem does_eq_zero {system after : PoolSystem (Recorded Source α) α} {move : PoolMove α}
    (deed : Deed) (id : UInt64) (noOutcome : (system.next move).2.bind PoolEvent.outcome? = none)
    (source : after.pool.source = system.pool.source) : does deed id system move after = 0 := by
  have noCalls : system.sourceCalls after = [] := by simp [sourceCalls, source]
  rw [does, noOutcome, noCalls]
  split
  case h_1 phase within =>
      split
      case isTrue => cases deed <;> cases phase <;> rfl
      case isFalse => rfl
  case h_2 => rfl

theorem worked_does {system : PoolSystem (Recorded Source α) α}
    (tended : system.Tended localCapacity sharedCapacity) {id : UInt64} {slot : WorkerSlot α}
    {phase : WorkerPhase α} (found : system.pool.slots[id.toNat]? = some slot)
    (within : system.calls id = some phase) (deed : Deed) :
    let after := system.worked id ((system.workplace slot).step system.pool.config phase)
    (deed.counter (after.statsAt id) : Int) + deed.owed (after.calls id) =
      deed.counter (system.statsAt id) + deed.owed (system.calls id) +
        does deed id system (.advance id) after := by
  intro after
  obtain ⟨held, foundHeld, fits⟩ := tended.calls id phase within
  cases found.symm.trans foundHeld
  have reached := (tended.tidy found).step system.pool.config phase
  obtain ⟨made, calls, counts⟩ := (system.workplace slot).desk.step_counts tended.sizing
    phase fits deed
  rw [← reached.desk, ← reached.progress] at counts
  rw [← reached.desk] at calls
  have new : system.sourceCalls after = made := sourceCalls_of_append calls
  have done : does deed id system (.advance id) after = deed.times phase
      (ended ((system.workplace slot).step system.pool.config phase).2) made := by
    rw [does, within, next_advance_event system found within, new]
    exact if_pos rfl
  have own : after.calls id =
      callAfter ((system.workplace slot).step system.pool.config phase).2 := if_pos rfl
  rw [done, own, statsAt_of_found (worked_slot system found _), statsAt_of_found found, within]
  exact counts

theorem does_advance_other {system after : PoolSystem (Recorded Source α) α} {id other : UInt64}
    (different : id ≠ other) (deed : Deed) :
    does deed id system (.advance other) after = 0 := by
  rw [does]
  split
  case h_1 =>
      rw [if_neg]
      rintro ⟨⟩
      exact different rfl
  case h_2 => rfl

theorem next_does (system : PoolSystem (Recorded Source α) α)
    (tended : system.Tended localCapacity sharedCapacity) (deed : Deed) (id : UInt64)
    (move : PoolMove α) :
    (deed.counter ((system.next move).1.statsAt id) : Int) +
        deed.owed ((system.next move).1.calls id) =
      deed.counter (system.statsAt id) + deed.owed (system.calls id) +
        does deed id system move (system.next move).1 := by
  have report := report_of_next system move
  generalize changed : (system.next move).1 = after at report ⊢
  generalize told : (system.next move).2.bind PoolEvent.outcome? = outcome at report
  cases report with
  | stays => rw [does_eq_zero deed id told rfl, Int.natCast_zero, Int.add_zero]
  | guards worker slot claimed found =>
      have nothing : does deed id system move (system.guarded worker slot claimed) = 0 :=
        does_eq_zero deed id told rfl
      rw [nothing, Int.natCast_zero, Int.add_zero, statsAt_guarded system found]
      rfl
  | begins worker slot phase held found idle opens =>
      have nothing : does deed id system move (system.begun worker phase held) = 0 :=
        does_eq_zero deed id told rfl
      rw [nothing, Int.natCast_zero, Int.add_zero]
      refine congrArg ((deed.counter (system.statsAt id) : Int) + ·) ?_
      change deed.owed (if id = worker then some phase else system.calls id) = _
      split
      case isTrue same =>
          rw [same, idle]
          cases opens <;> cases deed <;> rfl
      case isFalse => rfl
  | works worker slot phase found within =>
      by_cases same : id = worker
      · subst same
        exact worked_does tended found within deed
      · rw [does_advance_other same, Int.natCast_zero, Int.add_zero, statsAt, statsAt,
          worked_slot_other system same]
        refine congrArg ((deed.counter _ : Int) + ·) ?_
        exact congrArg deed.owed (if_neg same)

theorem tally_zero (system : PoolSystem Source α) (moves : List (PoolMove α)) :
    system.tally (fun _ _ _ => 0) moves = 0 := by
  induction moves generalizing system with
  | nil => rfl
  | cons move moves ih => rw [tally, ih]

/-- A worker's counter is the number of its deeds in a run, but for those of the call
that it is within. -/
theorem run_does {system : PoolSystem (Recorded Source α) α}
    (tended : system.Tended localCapacity sharedCapacity) (deed : Deed) (id : UInt64)
    (moves : List (PoolMove α)) :
    (deed.counter ((system.run moves).1.statsAt id) : Int) +
        deed.owed ((system.run moves).1.calls id) =
      deed.counter (system.statsAt id) + deed.owed (system.calls id) +
        system.tally (does deed id) moves := by
  have counted := (run_tally
    (fun system : PoolSystem (Recorded Source α) α => system.Tended localCapacity sharedCapacity)
    (fun system => deed.counter (system.statsAt id) + deed.owed (system.calls id))
    (does deed id) (fun _ _ _ => 0)
    (fun system tended move => ⟨tended.effect (effect_of_next system move),
      (Int.add_zero _).trans (system.next_does tended deed id move)⟩) tended moves).2
  rwa [tally_zero, Int.natCast_zero, Int.add_zero] at counted

end Deeds

/-! ## What all workers have -/

def transit : Option (WorkerPhase α) → List α
  | some phase => inTransit phase
  | none => []

def balanceAt (system : PoolSystem Source α) (index : Nat) : Int :=
  match system.pool.slots[index]? with
  | some slot =>
      (system.workplace slot).desk.balance (transit (system.calls (UInt64.ofNat index)))
        (system.calls (UInt64.ofNat index))
  | none => 0

def balance (system : PoolSystem Source α) : Int :=
  system.pool.shared.toList.length +
    ∑ index ∈ Finset.range system.pool.slots.size, system.balanceAt index

theorem length_carried (progress : Progress (WorkerPhase α) (WorkerOutcome α)) :
    (carried progress).length =
      (transit (callAfter progress)).length +
        (ended progress).toList.countP WorkerOutcome.isServed := by
  rcases progress with phase | (_ | object) | _ | panic <;> rfl

theorem balanceAt_of_found {system : PoolSystem Source α} {id : UInt64} {slot : WorkerSlot α}
    (found : system.pool.slots[id.toNat]? = some slot) :
    system.balanceAt id.toNat =
      (system.workplace slot).desk.balance (transit (system.calls id)) (system.calls id) := by
  rw [balanceAt, found, UInt64.ofNat_toNat]

theorem sum_balanceAt (system after : PoolSystem Source α) (id : UInt64)
    (size : after.pool.slots.size = system.pool.slots.size)
    (inside : id.toNat < system.pool.slots.size)
    (others : ∀ index < system.pool.slots.size, index ≠ id.toNat →
      after.balanceAt index = system.balanceAt index) :
    ∑ index ∈ Finset.range after.pool.slots.size, after.balanceAt index +
        system.balanceAt id.toNat =
      ∑ index ∈ Finset.range system.pool.slots.size, system.balanceAt index +
        after.balanceAt id.toNat := by
  have member := Finset.mem_range.mpr inside
  rw [size, ← Finset.add_sum_erase _ after.balanceAt member,
    ← Finset.add_sum_erase _ system.balanceAt member]
  have rest : ∑ index ∈ (Finset.range system.pool.slots.size).erase id.toNat,
        after.balanceAt index =
      ∑ index ∈ (Finset.range system.pool.slots.size).erase id.toNat, system.balanceAt index := by
    refine Finset.sum_congr rfl fun index listed => ?_
    obtain ⟨different, known⟩ := Finset.mem_erase.mp listed
    exact others index (Finset.mem_range.mp known) different
  rw [rest]
  omega

theorem ofNat_ne {id : UInt64} {index count : Nat} (few : count ≤ UInt64.size)
    (known : index < count) (different : index ≠ id.toNat) : UInt64.ofNat index ≠ id := by
  rintro rfl
  exact different (UInt64.toNat_ofNat_of_lt' (known.trans_le few)).symm

theorem frees_eq_zero {system after : PoolSystem Source α} {move : PoolMove α}
    (same : after.calls = system.calls) : frees system move after = 0 := by
  cases move with
  | free id object => simp [frees, same]
  | _ => rfl

theorem begun_balance [DecidableEq α] {system : PoolSystem Source α} {move : PoolMove α}
    {id : UInt64} {slot : WorkerSlot α} {phase : WorkerPhase α} {held : List α}
    (found : system.pool.slots[id.toNat]? = some slot) (idle : system.calls id = none)
    (opens : Opens system.held move id phase held) (few : system.pool.slots.size ≤ UInt64.size) :
    (system.begun id phase held).balance =
      system.balance + frees system move (system.begun id phase held) := by
  have inside := (Array.getElem?_eq_some_iff.mp found).1
  have own : (system.begun id phase held).calls id = some phase := if_pos rfl
  have sum := sum_balanceAt system (system.begun id phase held) id rfl inside
    fun index known different => by
      have call : (system.begun id phase held).calls (UInt64.ofNat index) =
        system.calls (UInt64.ofNat index) := if_neg (ofNat_ne few known different)
      rw [balanceAt, balanceAt, call]
      rfl
  have brought : (system.begun id phase held).balanceAt id.toNat =
      system.balanceAt id.toNat + frees system move (system.begun id phase held) := by
    have before := balanceAt_of_found found
    have foundAfter : (system.begun id phase held).pool.slots[id.toNat]? = some slot := found
    have after : (system.begun id phase held).balanceAt id.toNat =
        (system.workplace slot).desk.balance (inTransit phase) (some phase) := by
      rw [balanceAt_of_found foundAfter, own]
      rfl
    rw [before, after, idle]
    cases opens with
    | alloc | flush => simp [Desk.balance, transit, inTransit, frees]
    | free id object owned =>
        simp [Desk.balance, transit, inTransit, frees, idle, own]
        omega
  have same : (system.begun id phase held).pool.shared = system.pool.shared := rfl
  rw [balance, balance, same]
  omega

theorem guarded_balance {system : PoolSystem Source α} {id : UInt64} {slot : WorkerSlot α}
    (found : system.pool.slots[id.toNat]? = some slot) (claimed : Bool) :
    (system.guarded id slot claimed).balance = system.balance := by
  have inside := (Array.getElem?_eq_some_iff.mp found).1
  have size : (system.guarded id slot claimed).pool.slots.size = system.pool.slots.size :=
    Array.size_setIfInBounds
  have sum := sum_balanceAt system (system.guarded id slot claimed) id size inside
    fun index _ different => by
      have kept : (system.guarded id slot claimed).pool.slots[index]? =
        system.pool.slots[index]? := Array.getElem?_setIfInBounds_ne (Ne.symm different)
      unfold balanceAt
      rw [kept]
      rfl
  have changed := system.guarded_slot found claimed
  have own : (system.guarded id slot claimed).balanceAt id.toNat =
      system.balanceAt id.toNat := by
    rw [balanceAt_of_found changed, balanceAt_of_found found]
    rfl
  have same : (system.guarded id slot claimed).pool.shared = system.pool.shared := rfl
  rw [balance, balance, same]
  omega

theorem worked_balance [ObjectSource Source α] {system : PoolSystem Source α}
    {localCapacity sharedCapacity : Capacity}
    (tended : system.Tended localCapacity sharedCapacity) {id : UInt64} {slot : WorkerSlot α}
    {phase : WorkerPhase α} (found : system.pool.slots[id.toNat]? = some slot)
    (within : system.calls id = some phase) (few : system.pool.slots.size ≤ UInt64.size) :
    (system.worked id ((system.workplace slot).step system.pool.config phase)).balance +
        (ended ((system.workplace slot).step system.pool.config phase).2).toList.countP
          WorkerOutcome.isServed = system.balance := by
  obtain ⟨held, foundHeld, fits⟩ := tended.calls id phase within
  cases found.symm.trans foundHeld
  have reached := (tended.tidy found).step system.pool.config phase
  have moved := (system.workplace slot).desk.step_balance tended.sizing phase fits
  rw [← reached.desk, ← reached.progress] at moved
  have given := length_carried ((system.workplace slot).step system.pool.config phase).2
  have inside := (Array.getElem?_eq_some_iff.mp found).1
  generalize (system.workplace slot).step system.pool.config phase = after at moved given ⊢
  have size : (system.worked id after).pool.slots.size = system.pool.slots.size :=
    Array.size_setIfInBounds
  have sum := sum_balanceAt system (system.worked id after) id size inside
    fun index known different => by
      have call : (system.worked id after).calls (UInt64.ofNat index) =
        system.calls (UInt64.ofNat index) := if_neg (ofNat_ne few known different)
      have kept : (system.worked id after).pool.slots[index]? = system.pool.slots[index]? :=
        Array.getElem?_setIfInBounds_ne (Ne.symm different)
      unfold balanceAt
      rw [kept, call]
      rfl
  have own : (system.worked id after).calls id = callAfter after.2 := if_pos rfl
  have before : system.balanceAt id.toNat =
      (system.workplace slot).desk.balance (inTransit phase) (some phase) := by
    rw [balanceAt_of_found found, within]
    rfl
  have now : (system.worked id after).balanceAt id.toNat =
      after.1.desk.balance (transit (callAfter after.2)) (callAfter after.2) := by
    rw [balanceAt_of_found (worked_slot system found after), own]
    rfl
  have first : ((system.workplace slot).desk.shared.length : Int) =
    system.pool.shared.toList.length := rfl
  have second : (after.1.desk.shared.length : Int) =
    (system.worked id after).pool.shared.toList.length := rfl
  rw [Desk.balance] at now moved
  rw [balance, balance]
  omega

section Balance

variable [ObjectSource Source α] [DecidableEq α] {localCapacity sharedCapacity : Capacity}

theorem serves_eq_zero {system after : PoolSystem Source α} {move : PoolMove α}
    (noOutcome : (system.next move).2.bind PoolEvent.outcome? = none) :
    serves system move after = 0 := by
  rw [serves, noOutcome]
  rfl

/-- What a pool has, less what it owes to its source, grows by what callers return and
loses what they get. -/
theorem next_balance (system : PoolSystem Source α)
    (tended : system.Tended localCapacity sharedCapacity)
    (few : system.pool.slots.size ≤ UInt64.size) (move : PoolMove α) :
    (system.next move).1.balance + serves system move (system.next move).1 =
      system.balance + frees system move (system.next move).1 := by
  have report := report_of_next system move
  generalize changed : (system.next move).1 = after at report ⊢
  generalize told : (system.next move).2.bind PoolEvent.outcome? = outcome at report
  cases report with
  | stays => rw [serves_eq_zero told, frees_eq_zero rfl]
  | guards id slot claimed found =>
      have kept : (system.guarded id slot claimed).calls = system.calls := rfl
      rw [serves_eq_zero told, frees_eq_zero kept, guarded_balance found claimed]
  | begins id slot phase held found idle opens =>
      rw [serves_eq_zero told, begun_balance found idle opens few, Int.natCast_zero, Int.add_zero]
  | works id slot phase found within =>
      have nothing : frees system (.advance id) (system.worked id
        ((system.workplace slot).step system.pool.config phase)) = 0 := rfl
      rw [nothing, serves, told, worked_balance tended found within few, Int.natCast_zero,
        Int.add_zero]

theorem next_slots_size (system : PoolSystem Source α) (move : PoolMove α) :
    (system.next move).1.pool.slots.size = system.pool.slots.size := by
  have effect := effect_of_next system move
  generalize (system.next move).1 = after at effect ⊢
  cases effect with
  | stays => rfl
  | begins id slot phase held found idle opens => rfl
  | guards id slot claimed found => exact Array.size_setIfInBounds
  | works id slot phase found within => exact Array.size_setIfInBounds

theorem run_balance {system : PoolSystem Source α}
    (tended : system.Tended localCapacity sharedCapacity)
    (few : system.pool.slots.size ≤ UInt64.size) (moves : List (PoolMove α)) :
    (system.run moves).1.balance + system.tally serves moves =
      system.balance + system.tally frees moves :=
  (run_tally
    (fun system : PoolSystem Source α => system.Tended localCapacity sharedCapacity ∧
      system.pool.slots.size ≤ UInt64.size)
    balance frees serves
    (fun system holds move => ⟨⟨holds.1.effect (effect_of_next system move),
      (system.next_slots_size move).le.trans holds.2⟩,
      system.next_balance holds.1 holds.2 move⟩) ⟨tended, few⟩ moves).2

theorem run_slots_size (system : PoolSystem Source α) (moves : List (PoolMove α)) :
    (system.run moves).1.pool.slots.size = system.pool.slots.size := by
  induction moves generalizing system with
  | nil => rfl
  | cons move moves ih => exact (ih _).trans (system.next_slots_size move)

end Balance

/-- Only workers that have a slot are within a call. -/
theorem Tended.calls_eq_none {system : PoolSystem Source α}
    {localCapacity sharedCapacity : Capacity}
    (tended : system.Tended localCapacity sharedCapacity)
    (idle : ∀ index < system.pool.slots.size, system.calls (UInt64.ofNat index) = none)
    (id : UInt64) : system.calls id = none := by
  cases within : system.calls id with
  | none => rfl
  | some phase =>
      obtain ⟨slot, found, -⟩ := tended.calls id phase within
      have free := idle id.toNat (Array.getElem?_eq_some_iff.mp found).1
      rw [UInt64.ofNat_toNat, within] at free
      cases free

theorem sum_range_getElem? {β : Type} (items : List β) (value : β → Int) :
    ∑ index ∈ Finset.range items.length, (items[index]?.elim 0 value) =
      (items.map value).sum := by
  induction items with
  | nil => rfl
  | cons first rest ih =>
      rw [List.length_cons, Finset.sum_range_succ', List.map_cons, List.sum_cons, ← ih, add_comm]
      rfl

/-- All objects in caches, and what workers counted, as sums over their slots. -/
def total (system : PoolSystem Source α) (count : WorkerSlot α → Nat) : Nat :=
  (system.pool.slots.toList.map count).sum

theorem sum_slots (slots : List (WorkerSlot α)) :
    (slots.map fun slot => (slot.cache.toList.length + slot.stats.sourceFrees : Int) -
        slot.stats.sourceAllocs).sum =
      (((slots.map fun slot => slot.cache.toList.length).sum +
        (slots.map fun slot => slot.stats.sourceFrees).sum : Nat) : Int) -
          ((slots.map fun slot => slot.stats.sourceAllocs).sum : Nat) := by
  induction slots with
  | nil => rfl
  | cons slot slots ih =>
      simp only [List.map_cons, List.sum_cons, ih, Int.natCast_add]
      omega

theorem balance_of_idle {system : PoolSystem Source α} (idle : ∀ id, system.calls id = none) :
    system.balance = system.pool.shared.toList.length +
      system.total (fun slot => slot.cache.toList.length) +
        system.total (fun slot => slot.stats.sourceFrees) -
          system.total fun slot => slot.stats.sourceAllocs := by
  have each : ∀ index, system.balanceAt index = system.pool.slots.toList[index]?.elim 0
      fun slot => (slot.cache.toList.length + slot.stats.sourceFrees : Int) -
        slot.stats.sourceAllocs := by
    intro index
    rw [balanceAt, idle, Array.getElem?_toList]
    cases system.pool.slots[index]? with
    | none => rfl
    | some slot => simp [Desk.balance, transit, PoolSystem.workplace, Workplace.desk]
  have size : system.pool.slots.size = system.pool.slots.toList.length := rfl
  rw [balance, size, Finset.sum_congr rfl fun index _ => each index, sum_range_getElem?,
    sum_slots, total, total, total]
  omega

end PoolSystem

theorem allocUpTo_gifts [ObjectSource Source α] (source : Recorded Source α) (count : Nat)
    (obtained : Array α) :
    (ObjectSource.allocUpTo source count obtained).2.calls.countP SourceCall.isGift +
        obtained.size =
      (ObjectSource.allocUpTo source count obtained).1.size +
        source.calls.countP SourceCall.isGift := by
  induction count generalizing source obtained with
  | zero => exact Nat.add_comm _ _
  | succ count ih =>
      rw [ObjectSource.allocUpTo]
      rcases source.alloc_cases with ⟨left, refused⟩ | ⟨object, left, gave⟩
      · rw [refused]
        simp [Nat.add_comm]
      · rw [gave]
        have later := ih ⟨left, .gave object :: source.calls⟩ (obtained.push object)
        simp only [Array.size_push, List.countP_cons, SourceCall.isGift, if_true] at later
        simp only
        omega

namespace PoolSystem

def startWith (pool : Pool Source α) (held : List α) : PoolSystem Source α :=
  { start pool with held }

variable [Inhabited α] [ObjectSource Source α] {config : PoolConfig} {source : Source}
  {pool : Pool (Recorded Source α) α}

theorem startWith_statsAt (opened : Pool.create config (Recorded.fresh source) = .ok pool)
    (held : List α) (id : UInt64) : (startWith pool held).statsAt id = .zero := by
  obtain ⟨localCapacity, -, -, -, -, slots, -⟩ := Pool.of_create opened
  have same : (startWith pool held).pool.slots = pool.slots := rfl
  rw [statsAt, same, slots, Array.getElem?_replicate]
  split
  case h_1 slot found =>
      split at found <;> cases found
      rfl
  case h_2 => rfl

theorem startWith_balance (opened : Pool.create config (Recorded.fresh source) = .ok pool)
    (held : List α) :
    (startWith pool held).balance = pool.source.calls.countP SourceCall.isGift := by
  obtain ⟨localCapacity, sharedCapacity, -, -, -, slots, given⟩ := Pool.of_create opened
  have gifts := allocUpTo_gifts (Recorded.fresh source : Recorded Source α)
    (min config.prealloc sharedCapacity.mask).toNat #[]
  rw [PoolConfig.preallocated] at given
  rw [given] at gifts
  have nothing : ∀ count : WorkerSlot α → Nat, count (.create localCapacity) = 0 →
      (startWith pool held).total count = 0 := by
    intro count zero
    have same : (startWith pool held).pool.slots = pool.slots := rfl
    rw [total, same, slots]
    simp [zero]
  have empty : (WorkerSlot.create localCapacity : WorkerSlot α).cache.toList.length = 0 :=
    congrArg List.length (Ring.forObjects_toList localCapacity)
  rw [balance_of_idle fun _ => rfl, nothing _ empty, nothing _ rfl, nothing _ rfl]
  have same : (startWith pool held).pool.shared = pool.shared := rfl
  rw [same]
  simp only [Recorded.fresh, List.countP_nil, List.size_toArray, List.length_nil]
    at gifts
  omega

end PoolSystem

/-- Whenever no call is in progress, the objects that a source gave, in advance and on
request, and those that callers returned are as many as those that callers were given,
that the rings hold and that went back to the source; and what a worker that is within
no call has counted are its own deeds.  So it is for every accepted sizing, every source
and every run, in which callers may return objects `held` of their own and guards may be
given up and claimed again. -/
theorem counters_balance [Inhabited α] [ObjectSource Source α] [DecidableEq α]
    (config : PoolConfig) (source : Source) (pool : Pool (Recorded Source α) α)
    (opened : Pool.create config (Recorded.fresh source) = .ok pool) (held : List α)
    (moves : List (PoolMove α)) :
    let start := PoolSystem.startWith pool held
    let final := (start.run moves).1
    ((∀ id, final.calls id = none) →
      pool.source.calls.countP SourceCall.isGift +
          final.total (fun slot => slot.stats.sourceAllocs) +
            start.tally PoolSystem.frees moves =
        start.tally PoolSystem.serves moves + final.total (fun slot => slot.cache.count.toNat) +
          final.pool.sharedCount.toNat + final.total fun slot => slot.stats.sourceFrees) ∧
    ∀ id < config.workers, final.calls id = none → ∃ stats, final.pool.stats? id = some stats ∧
      ∀ deed : Deed, deed.counter stats = start.tally (PoolSystem.does deed id) moves := by
  intro start final
  obtain ⟨localCapacity, sharedCapacity, tended⟩ :
      ∃ localCapacity sharedCapacity, start.Tended localCapacity sharedCapacity :=
    PoolSystem.Tended.start opened held
  obtain ⟨cacheCapacity, -, -, -, -, slots, -⟩ := Pool.of_create opened
  have size : start.pool.slots.size = config.workers.toNat := by
    change pool.slots.size = _
    rw [slots, Array.size_replicate]
  have shelves := (tended.run moves).1
  constructor
  · intro idle
    have balance := PoolSystem.run_balance tended
      (size.le.trans config.workers.toNat_lt.le) moves
    have before : start.balance = _ := PoolSystem.startWith_balance opened held
    have after : final.balance = _ := PoolSystem.balance_of_idle idle
    have counts : final.total (fun slot => slot.cache.count.toNat) =
        final.total fun slot => slot.cache.toList.length := by
      rw [PoolSystem.total, PoolSystem.total]
      refine congrArg List.sum (List.map_congr_left fun slot listed => ?_)
      exact (shelves.caches slot (Array.mem_toList_iff.mp listed)).count_toNat
    have shared : final.pool.sharedCount.toNat = final.pool.shared.toList.length :=
      shelves.shared.count_toNat
    change final.balance + _ = _ at balance
    rw [counts, shared]
    omega
  · intro id known idle
    have inside : id.toNat < final.pool.slots.size := by
      rw [PoolSystem.run_slots_size, size]
      exact UInt64.lt_iff_toNat_lt.mp known
    refine ⟨final.pool.slots[id.toNat].stats, ?_, fun deed => ?_⟩
    · rw [Pool.stats?, Array.getElem?_eq_getElem inside]
      rfl
    · have counted : (deed.counter (final.statsAt id) : Int) + deed.owed (final.calls id) = _ :=
        PoolSystem.run_does tended deed id moves
      have before : start.statsAt id = .zero := PoolSystem.startWith_statsAt opened held id
      have after : final.statsAt id = final.pool.slots[id.toNat].stats :=
        PoolSystem.statsAt_of_found (Array.getElem?_eq_getElem inside)
      have none : deed.owed (final.calls id) = 0 := by
        rw [idle]
        cases deed <;> rfl
      have first : deed.owed (start.calls id) = 0 := by cases deed <;> rfl
      have zero : deed.counter .zero = 0 := by cases deed <;> rfl
      rw [none, first, before, after, zero] at counted
      omega

open PoolSystem (duoConfig duoPool duoMoves duoPool_opens duoConfig_check)

def duoLender : Recorded ScriptedSource UInt64 := Recorded.fresh (ScriptedSource.create (some 3) [])

/-- The sample run until both workers are within no call; then a guard is given up and
claimed again, a caller returns an object of its own, and the last of four allocations
gets nothing. -/
def duoDay : List (PoolMove UInt64) :=
  List.flatten
    [duoMoves, List.replicate 8 (.advance 0), List.replicate 8 (.advance 1),
      [.release 0, .claim 0, .free 1 7], List.replicate 3 (.advance 1), [.alloc 1, .advance 1],
      (List.replicate 2 (.alloc 0 :: List.replicate 4 (.advance 0))).flatten,
      [.alloc 1], List.replicate 5 (.advance 1)]

def duoClosing : PoolSystem (Recorded ScriptedSource UInt64) UInt64 :=
  ((PoolSystem.startWith (duoPool duoLender) [7]).run duoDay).1

theorem counters_balance_sample :
    Pool.create duoConfig duoLender = .ok (duoPool duoLender) ∧
    (∀ id, duoClosing.calls id = none) ∧
    (duoPool duoLender).source.calls.countP SourceCall.isGift +
        duoClosing.total (fun slot => slot.stats.sourceAllocs) +
          (PoolSystem.startWith (duoPool duoLender) [7]).tally PoolSystem.frees duoDay =
      (PoolSystem.startWith (duoPool duoLender) [7]).tally PoolSystem.serves duoDay +
        duoClosing.total (fun slot => slot.cache.count.toNat) +
          duoClosing.pool.sharedCount.toNat +
            duoClosing.total (fun slot => slot.stats.sourceFrees) ∧
    ∃ stats, duoClosing.pool.stats? 1 = some stats ∧ stats.allocFailures = 1 ∧
      (PoolSystem.startWith (duoPool duoLender) [7]).tally
        (PoolSystem.does .failure 1) duoDay = 1 := by
  obtain ⟨whole, each⟩ := counters_balance duoConfig (ScriptedSource.create (some 3) [])
    (duoPool duoLender) (duoPool_opens duoLender) [7] duoDay
  obtain ⟨localCapacity, sharedCapacity, tended⟩ :=
    PoolSystem.Tended.start (duoPool_opens duoLender) [7]
  have known : ∀ index < duoClosing.pool.slots.size,
      duoClosing.calls (UInt64.ofNat index) = none := by
    decide +kernel
  have closing : duoClosing.Tended localCapacity sharedCapacity := (tended.run duoDay).1
  have idle : ∀ id, duoClosing.calls id = none := closing.calls_eq_none known
  obtain ⟨stats, found, counted⟩ := each 1 (by decide) (idle 1)
  have failures : (duoClosing.pool.stats? 1).map WorkerStats.allocFailures = some 1 := by
    decide +kernel
  have told : (duoClosing.pool.stats? 1) = some stats := found
  rw [told, Option.map_some, Option.some_inj] at failures
  have failed := counted .failure
  refine ⟨duoPool_opens duoLender, idle, ?_, stats, found, failures, failed.symm.trans failures⟩
  unfold duoClosing
  exact whole idle

end RingPool

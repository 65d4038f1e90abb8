import RingPool.Pool.Interleaving

/-!
# What one move on a pool can do

`PoolEffect` lists every way in which a move changes a pool at work, with the guard
under which it does so: nothing changes, a slot is claimed or given up, a worker
begins a call, or a worker makes one step of its call.  Only a step of a call makes
a call return (`next_returned`).  What each move keeps holds after every run
(`run_invariant`).  No run of other workers changes what is a worker's own
(`run_others`).
-/

set_option autoImplicit false

namespace RingPool

theorem modify_eq_setIfInBounds {β : Type} {values : Array β} {place : Nat} {value : β}
    (found : values[place]? = some value) (change : β → β) :
    values.modify place change = values.setIfInBounds place (change value) := by
  refine Array.ext_getElem? fun index => ?_
  rw [Array.getElem?_modify, Array.getElem?_setIfInBounds]
  split
  case isTrue same =>
      subst same
      have inside : place < values.size := (Array.getElem?_eq_some_iff.mp found).1
      rw [found, if_pos inside]
      rfl
  case isFalse => rfl

def PoolMove.worker {α : Type} : PoolMove α → UInt64
  | .claim id | .release id | .alloc id | .free id _ | .flush id | .advance id => id

theorem Pool.workplace?_of_found {Source α : Type} {pool : Pool Source α} {id : UInt64}
    {slot : WorkerSlot α} (found : pool.slots[id.toNat]? = some slot) :
    pool.workplace? id = some ⟨slot, pool.shared, pool.source⟩ := by
  rw [Pool.workplace?, found]
  rfl

namespace PoolSystem

variable {Source α : Type}

def callAfter : Progress (WorkerPhase α) (WorkerOutcome α) → Option (WorkerPhase α)
  | .running phase => some phase
  | .returned _ => none

def handedOut : Progress (WorkerPhase α) (WorkerOutcome α) → List α
  | .returned (.served (some object)) => [object]
  | _ => []

def workplace (system : PoolSystem Source α) (slot : WorkerSlot α) : Workplace Source α :=
  ⟨slot, system.pool.shared, system.pool.source⟩

def worked (system : PoolSystem Source α) (id : UInt64)
    (after : Workplace Source α × Progress (WorkerPhase α) (WorkerOutcome α)) :
    PoolSystem Source α where
  pool := system.pool.withWorkplace id after.1
  calls := fun other => if other = id then callAfter after.2 else system.calls other
  held := handedOut after.2 ++ system.held

def guarded (system : PoolSystem Source α) (id : UInt64) (slot : WorkerSlot α)
    (claimed : Bool) : PoolSystem Source α :=
  { system with pool := { system.pool with
    slots := system.pool.slots.setIfInBounds id.toNat { slot with claimed } } }

theorem worked_slot (system : PoolSystem Source α) {id : UInt64} {slot : WorkerSlot α}
    (found : system.pool.slots[id.toNat]? = some slot)
    (after : Workplace Source α × Progress (WorkerPhase α) (WorkerOutcome α)) :
    (system.worked id after).pool.slots[id.toNat]? = some after.1.slot :=
  Array.getElem?_setIfInBounds_self_of_lt (Array.getElem?_eq_some_iff.mp found).1

theorem worked_slot_other (system : PoolSystem Source α) {id other : UInt64}
    (different : other ≠ id)
    (after : Workplace Source α × Progress (WorkerPhase α) (WorkerOutcome α)) :
    (system.worked id after).pool.slots[other.toNat]? = system.pool.slots[other.toNat]? :=
  Array.getElem?_setIfInBounds_ne fun same => different (UInt64.toNat_inj.mp same).symm

theorem worked_call (system : PoolSystem Source α) (id : UInt64)
    (after : Workplace Source α × Progress (WorkerPhase α) (WorkerOutcome α)) :
    (system.worked id after).calls id = callAfter after.2 :=
  if_pos rfl

theorem guarded_slot (system : PoolSystem Source α) {id : UInt64} {slot : WorkerSlot α}
    (found : system.pool.slots[id.toNat]? = some slot) (claimed : Bool) :
    (system.guarded id slot claimed).pool.slots[id.toNat]? = some { slot with claimed } :=
  Array.getElem?_setIfInBounds_self_of_lt (Array.getElem?_eq_some_iff.mp found).1

/-- The calls that callers start: the worker, where its call begins, and the objects
that the callers keep. -/
inductive Opens [DecidableEq α] (held : List α) :
    PoolMove α → UInt64 → WorkerPhase α → List α → Prop
  | alloc (id : UInt64) : Opens held (.alloc id) id .hit held
  | free (id : UInt64) (object : α) (owned : object ∈ held) :
      Opens held (.free id object) id (.put object) (held.erase object)
  | flush (id : UInt64) : Opens held (.flush id) id .check held

def begun (system : PoolSystem Source α) (id : UInt64) (phase : WorkerPhase α)
    (held : List α) : PoolSystem Source α :=
  { system with held }.setCall id (some phase)

inductive PoolEffect [ObjectSource Source α] [DecidableEq α] (system : PoolSystem Source α) :
    PoolMove α → PoolSystem Source α → Prop
  | stays {move : PoolMove α} : PoolEffect system move system
  | guards {move : PoolMove α} (id : UInt64) (slot : WorkerSlot α) (claimed : Bool)
      (found : system.pool.slots[id.toNat]? = some slot) :
      PoolEffect system move (system.guarded id slot claimed)
  | begins {move : PoolMove α} (id : UInt64) (slot : WorkerSlot α) (phase : WorkerPhase α)
      (held : List α) (found : system.pool.slots[id.toNat]? = some slot)
      (idle : system.calls id = none) (opens : Opens system.held move id phase held) :
      PoolEffect system move (system.begun id phase held)
  | works (id : UInt64) (slot : WorkerSlot α) (phase : WorkerPhase α)
      (found : system.pool.slots[id.toNat]? = some slot)
      (within : system.calls id = some phase) :
      PoolEffect system (.advance id)
        (system.worked id ((system.workplace slot).step system.pool.config phase))

theorem slot_of_isReady {system : PoolSystem Source α} {id : UInt64}
    (ready : system.isReady id = true) :
    ∃ slot, system.pool.slots[id.toNat]? = some slot ∧ system.calls id = none := by
  rw [isReady, Bool.and_eq_true, Option.isNone_iff_eq_none, Pool.isClaimed] at ready
  obtain ⟨claimed, idle⟩ := ready
  cases found : system.pool.slots[id.toNat]? with
  | none => simp [found] at claimed
  | some slot => exact ⟨slot, rfl, idle⟩

variable [ObjectSource Source α] [DecidableEq α]

theorem next_advance (system : PoolSystem Source α) {id : UInt64} {phase : WorkerPhase α}
    {slot : WorkerSlot α} (found : system.pool.slots[id.toNat]? = some slot)
    (within : system.calls id = some phase) :
    (system.next (.advance id)).1 =
      system.worked id ((system.workplace slot).step system.pool.config phase) := by
  have place : system.pool.workplace? id = some (system.workplace slot) :=
    Pool.workplace?_of_found found
  simp only [next, within, place]
  rcases (system.workplace slot).step system.pool.config phase with
    ⟨after, later | (_ | object) | _ | panic⟩ <;> rfl

theorem next_advance_returned (system : PoolSystem Source α) {id : UInt64}
    {phase : WorkerPhase α} {slot : WorkerSlot α} {last : Workplace Source α}
    {outcome : WorkerOutcome α} (found : system.pool.slots[id.toNat]? = some slot)
    (within : system.calls id = some phase)
    (ends : (system.workplace slot).step system.pool.config phase = (last, .returned outcome)) :
    (system.next (.advance id)).2 = some (.returned id outcome) := by
  have place : system.pool.workplace? id = some (system.workplace slot) :=
    Pool.workplace?_of_found found
  simp only [next, within, place, ends]

theorem effect_of_next (system : PoolSystem Source α) (move : PoolMove α) :
    PoolEffect system move (system.next move).1 := by
  cases move with
  | claim id =>
      rw [next, Pool.claim]
      cases found : system.pool.slots[id.toNat]? with
      | none => exact .stays
      | some slot =>
          cases claimed : slot.claimed
          · simp only [claimed, Bool.false_eq_true, if_false]
            exact .guards id slot true found
          · simp only [claimed, if_true]
            exact .stays
  | release id =>
      rw [next]
      split
      case isFalse => exact .stays
      case isTrue ready =>
          obtain ⟨slot, found, -⟩ := slot_of_isReady ready
          have changed := modify_eq_setIfInBounds found fun slot => { slot with claimed := false }
          rw [Pool.release, changed]
          exact .guards id slot false found
  | alloc id =>
      rw [next]
      split
      case isFalse => exact .stays
      case isTrue ready =>
          obtain ⟨slot, found, idle⟩ := slot_of_isReady ready
          exact .begins id slot .hit system.held found idle (.alloc id)
  | free id object =>
      rw [next]
      split
      case isFalse => exact .stays
      case isTrue allowed =>
          obtain ⟨slot, found, idle⟩ := slot_of_isReady allowed.1
          exact .begins id slot (.put object) _ found idle (.free id object allowed.2)
  | flush id =>
      rw [next]
      split
      case isFalse => exact .stays
      case isTrue ready =>
          obtain ⟨slot, found, idle⟩ := slot_of_isReady ready
          exact .begins id slot .check system.held found idle (.flush id)
  | advance id =>
      cases within : system.calls id with
      | none =>
          simp only [next, within]
          exact .stays
      | some phase =>
          cases found : system.pool.slots[id.toNat]? with
          | none =>
              simp only [next, within, Pool.workplace?, found]
              exact .stays
          | some slot =>
              rw [system.next_advance found within]
              exact .works id slot phase found within

theorem next_returned {system : PoolSystem Source α} {move : PoolMove α} {id : UInt64}
    {outcome : WorkerOutcome α} (told : (system.next move).2 = some (.returned id outcome)) :
    ∃ slot phase, move = .advance id ∧ system.pool.slots[id.toNat]? = some slot ∧
      system.calls id = some phase ∧
      ((system.workplace slot).step system.pool.config phase).2 = .returned outcome := by
  cases move with
  | claim other =>
      rw [next] at told
      split at told <;> cases told
  | release other =>
      rw [next] at told
      split at told <;> cases told
  | alloc other => cases told
  | free other object =>
      rw [next] at told
      split at told <;> cases told
  | flush other => cases told
  | advance other =>
      cases within : system.calls other with
      | none => simp [next, within] at told
      | some phase =>
          cases found : system.pool.slots[other.toNat]? with
          | none => simp [next, within, Pool.workplace?, found] at told
          | some slot =>
              have place : system.pool.workplace? other = some (system.workplace slot) :=
                Pool.workplace?_of_found found
              simp only [next, within, place] at told
              rcases stepped : (system.workplace slot).step system.pool.config phase with
                ⟨after, later | result⟩
              · simp [stepped] at told
              · simp only [stepped, Option.some.injEq, PoolEvent.returned.injEq] at told
                obtain ⟨rfl, rfl⟩ := told
                exact ⟨slot, phase, rfl, found, within, congrArg Prod.snd stepped⟩

theorem run_append (system : PoolSystem Source α) (first second : List (PoolMove α)) :
    (system.run (first ++ second)).1 = ((system.run first).1.run second).1 := by
  induction first generalizing system with
  | nil => rfl
  | cons move first inductionHypothesis => exact inductionHypothesis (system.next move).1

/-- What each move keeps holds after a run, and what each move observes only is all
that a run observes. -/
theorem run_invariant (Holds : PoolSystem Source α → Prop) (Allowed : PoolEvent α → Prop)
    (kept : ∀ system, Holds system → ∀ move,
      Holds (system.next move).1 ∧ ∀ event ∈ (system.next move).2, Allowed event)
    {system : PoolSystem Source α} (holds : Holds system) (moves : List (PoolMove α)) :
    Holds (system.run moves).1 ∧ ∀ event ∈ (system.run moves).2, Allowed event := by
  induction moves generalizing system with
  | nil => exact ⟨holds, fun _ listed => (List.not_mem_nil listed).elim⟩
  | cons move moves ih =>
      obtain ⟨holdsNext, allowed⟩ := kept system holds move
      obtain ⟨holdsFinal, later⟩ := ih holdsNext
      refine ⟨holdsFinal, fun event listed => ?_⟩
      rcases List.mem_append.mp listed with now | after
      · exact allowed event (Option.mem_toList.mp now)
      · exact later event after

theorem next_other (system : PoolSystem Source α) {move : PoolMove α} {id : UInt64}
    (other : move.worker ≠ id) :
    (system.next move).1.pool.slots[id.toNat]? = system.pool.slots[id.toNat]? ∧
      (system.next move).1.calls id = system.calls id := by
  have apart : move.worker.toNat ≠ id.toNat := fun same => other (UInt64.toNat_inj.mp same)
  cases move with
  | claim worker =>
      rw [next, Pool.claim]
      cases found : system.pool.slots[worker.toNat]? with
      | none => exact ⟨rfl, rfl⟩
      | some slot =>
          dsimp only
          cases slot.claimed
          · rw [if_neg Bool.false_ne_true]
            exact ⟨Array.getElem?_setIfInBounds_ne apart, rfl⟩
          · rw [if_pos rfl]
            exact ⟨rfl, rfl⟩
  | release worker =>
      rw [next]
      split
      case isFalse => exact ⟨rfl, rfl⟩
      case isTrue =>
          refine ⟨?_, rfl⟩
          rw [Pool.release, Array.getElem?_modify]
          exact if_neg apart
  | alloc worker | flush worker | free worker object =>
      rw [next]
      split
      case isFalse => exact ⟨rfl, rfl⟩
      case isTrue => exact ⟨rfl, if_neg fun same => other same.symm⟩
  | advance worker =>
      cases within : system.calls worker with
      | none =>
          rw [next, within]
          exact ⟨rfl, rfl⟩
      | some phase =>
          cases found : system.pool.slots[worker.toNat]? with
          | none =>
              rw [next, within, Pool.workplace?, found]
              exact ⟨rfl, rfl⟩
          | some slot =>
              rw [system.next_advance found within]
              exact ⟨system.worked_slot_other (Ne.symm other) _,
                if_neg fun same => other same.symm⟩

/-- Whatever other workers do, a worker's slot and its call stay as they are. -/
theorem run_others (system : PoolSystem Source α) {id : UInt64} {moves : List (PoolMove α)}
    (others : ∀ move ∈ moves, move.worker ≠ id) :
    (system.run moves).1.pool.slots[id.toNat]? = system.pool.slots[id.toNat]? ∧
      (system.run moves).1.calls id = system.calls id := by
  induction moves generalizing system with
  | nil => exact ⟨rfl, rfl⟩
  | cons move moves ih =>
      have now := system.next_other (others move List.mem_cons_self)
      have later := ih (system.next move).1 fun move listed =>
        others move (List.mem_cons_of_mem _ listed)
      exact ⟨later.1.trans now.1, later.2.trans now.2⟩

/-- Two workers whose caches, like the shared ring, have room for one object each. -/
def duoConfig : PoolConfig := ⟨2, 2, 2, 0, 1, 1⟩

def duoCapacity : Capacity := ⟨1, Nat.le_refl 1, by decide⟩

theorem duoConfig_check : duoConfig.check = .ok (duoCapacity, duoCapacity) := rfl

def duoPool {Source : Type} (source : Source) : Pool Source UInt64 :=
  ⟨duoConfig, .forObjects duoCapacity,
    Array.replicate 2 (.create duoCapacity), source⟩

theorem duoPool_opens {Source : Type} [ObjectSource Source UInt64] (source : Source) :
    Pool.create duoConfig source = .ok (duoPool source) := rfl

/-- A run of both workers.  The shared ring is filled between the moment when one of
them measures its room and the moment when its burst comes there; later a flush fills
it while the other worker moves a bulk out, whose object goes back to the source. -/
def duoMoves : List (PoolMove UInt64) :=
  List.flatten
    [[.claim 0, .claim 1, .alloc 0], List.replicate 5 (.advance 0),
      [.alloc 1], List.replicate 7 (.advance 1), List.replicate 3 (.advance 0),
      [.free 1 2, .advance 1, .free 0 0, .advance 0, .alloc 0, .advance 0, .alloc 0],
      List.replicate 3 (.advance 0), [.free 0 3, .flush 1, .advance 0, .free 0 0],
      List.replicate 3 (.advance 1), List.replicate 3 (.advance 0)]

end PoolSystem

end RingPool

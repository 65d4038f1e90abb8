import RingPool.Pool.Guards
import RingPool.Proofs.Pool.Opening
import RingPool.Proofs.Pool.Moves

/-!
# Guards are exclusive and hand the cache over

A slot's flag is set by a claim that finds it clear, and cleared by each guard that is dropped.
So it says that there is a guard only if there are never two: `Exclusive` states that a worker has
one guard if its flag is set and none else.  `GuardEffect` lists what a move can change, and each
of these keeps it.  What is done through guards is then what the workers of a pool do, each within
one call at a time (`Mirrors.run`).

Main statement: in every state that claims, drops and calls by any number of threads lead to, a
worker has at most one guard, and it has one if and only if its flag is set.  A claim is answered
by that, and one that fails changes nothing.  What a guard leaves in a slot is what the next
guard on it finds, whatever is done through the guards of other workers meanwhile.
-/

set_option autoImplicit false

namespace RingPool

variable {Source α : Type}

/-! ## What one move can do -/

theorem Workplace.step_claimed [ObjectSource Source α] (config : PoolConfig)
    (place : Workplace Source α) (phase : WorkerPhase α) :
    (place.step config phase).1.slot.claimed = place.slot.claimed := by
  cases phase with
  | measure | offload => rfl
  | hit | refill | stock | ask | stow | put | retry | check | unload | reclaim =>
      simp only [step]
      split <;> rfl
  | gather object more burst =>
      cases more with
      | zero => rfl
      | succ more =>
          simp only [step]
          split <;> rfl

def GuardMove.begun : GuardMove α → Option (Nat × WorkerPhase α)
  | .alloc number => some (number, .hit)
  | .free number object => some (number, .put object)
  | .flush number => some (number, .check)
  | .claim _ | .drop _ | .advance _ => none

namespace GuardedPool

def idle? (system : GuardedPool Source α) (number : Nat) : Option UInt64 :=
  match system.guards[number]? with
  | some (some ⟨worker, none⟩) => some worker
  | some (some ⟨_, some _⟩) | some none | none => none

def calling? (system : GuardedPool Source α) (number : Nat) : Option UInt64 :=
  match system.guards[number]? with
  | some (some ⟨worker, some _⟩) => some worker
  | some (some ⟨_, none⟩) | some none | none => none

/-- What the worker does whose guard makes a move; none if the move is out of place. -/
def workerMove? (system : GuardedPool Source α) : GuardMove α → Option (PoolMove α)
  | .claim id => some (.claim id)
  | .drop number => (system.idle? number).map .release
  | .alloc number => (system.idle? number).map .alloc
  | .free number object => (system.idle? number).map fun worker => .free worker object
  | .flush number => (system.idle? number).map .flush
  | .advance number => (system.calling? number).map .advance

theorem idle?_of_guard {system : GuardedPool Source α} {number : Nat} {worker : UInt64}
    (idle : system.guards[number]? = some (some ⟨worker, none⟩)) :
    system.idle? number = some worker := by
  rw [idle?, idle]

theorem calling?_of_guard {system : GuardedPool Source α} {number : Nat} {worker : UInt64}
    {phase : WorkerPhase α}
    (within : system.guards[number]? = some (some ⟨worker, some phase⟩)) :
    system.calling? number = some worker := by
  rw [calling?, within]

def told (number : Nat) : Progress (WorkerPhase α) (WorkerOutcome α) → Option (GuardEvent α)
  | .running _ => none
  | .returned outcome => some (.returned number outcome)

def flagged (pool : Pool Source α) (id : UInt64) (slot : WorkerSlot α) (claimed : Bool) :
    Pool Source α :=
  { pool with slots := pool.slots.setIfInBounds id.toNat { slot with claimed } }

inductive GuardEffect [ObjectSource Source α] (system : GuardedPool Source α) :
    GuardMove α → GuardedPool Source α → Option (GuardEvent α) → Prop
  | stays (move : GuardMove α) (outOfPlace : system.workerMove? move = none) :
      GuardEffect system move system none
  | lost (number : Nat) (worker : UInt64) (calling : system.calling? number = some worker)
      (missing : system.pool.workplace? worker = none) :
      GuardEffect system (.advance number) system none
  | refuses (id : UInt64) (refusal : PoolError) (refused : system.pool.claim id = .error refusal) :
      GuardEffect system (.claim id) system (some (.claimed id (.error refusal)))
  | claims (id : UInt64) (slot : WorkerSlot α)
      (found : system.pool.slots[id.toNat]? = some slot) (free : slot.claimed = false) :
      GuardEffect system (.claim id)
        ⟨flagged system.pool id slot true, system.guards ++ [some ⟨id, none⟩]⟩
        (some (.claimed id (.ok system.guards.length)))
  | drops (number : Nat) (worker : UInt64)
      (idle : system.guards[number]? = some (some ⟨worker, none⟩)) :
      GuardEffect system (.drop number)
        ⟨system.pool.release worker, system.guards.set number none⟩ none
  | begins (move : GuardMove α) (number : Nat) (worker : UInt64) (phase : WorkerPhase α)
      (begun : move.begun = some (number, phase))
      (idle : system.guards[number]? = some (some ⟨worker, none⟩)) :
      GuardEffect system move (system.setGuard number (some ⟨worker, some phase⟩)) none
  | works (number : Nat) (worker : UInt64) (phase : WorkerPhase α) (place : Workplace Source α)
      (within : system.guards[number]? = some (some ⟨worker, some phase⟩))
      (found : system.pool.workplace? worker = some place) :
      GuardEffect system (.advance number)
        ⟨system.pool.withWorkplace worker (place.step system.pool.config phase).1,
          system.guards.set number
            (some ⟨worker, PoolSystem.callAfter (place.step system.pool.config phase).2⟩)⟩
        (told number (place.step system.pool.config phase).2)

variable [ObjectSource Source α]

theorem effect_of_enter (system : GuardedPool Source α) {move : GuardMove α} {number : Nat}
    {phase : WorkerPhase α} (begun : move.begun = some (number, phase)) :
    GuardEffect system move (system.enter number phase) none := by
  have unknown (none : system.idle? number = none) : system.workerMove? move = Option.none := by
    cases move <;> cases begun <;> simp only [workerMove?, none, Option.map_none]
  unfold enter
  split
  case h_1 worker idle => exact .begins move number worker phase begun idle
  all_goals
    rename_i found
    refine .stays move (unknown ?_)
    rw [idle?, found]

theorem effect_of_next (system : GuardedPool Source α) (move : GuardMove α) :
    GuardEffect system move (system.next move).1 (system.next move).2 := by
  cases move with
  | claim id =>
      rw [next]
      cases answer : system.pool.claim id with
      | error refusal => exact .refuses id refusal answer
      | ok pool =>
          unfold Pool.claim at answer
          split at answer
          case h_1 => cases answer
          case h_2 slot found =>
            split at answer
            case isTrue => cases answer
            case isFalse free =>
              cases answer
              exact .claims id slot found (Bool.eq_false_of_not_eq_true free)
  | drop number =>
      rw [next]
      split
      case h_1 worker idle => exact .drops number worker idle
      all_goals
        rename_i found
        refine .stays _ ?_
        simp only [workerMove?, idle?, found, Option.map_none]
  | alloc number => exact system.effect_of_enter rfl
  | free number object => exact system.effect_of_enter rfl
  | flush number => exact system.effect_of_enter rfl
  | advance number =>
      rw [next]
      split
      case h_1 worker phase within =>
        split
        case h_2 missing => exact .lost number worker (calling?_of_guard within) missing
        case h_1 place found =>
          have works := GuardEffect.works number worker phase place within found
          rcases step : place.step system.pool.config phase with ⟨after, later | outcome⟩ <;>
            · rw [step] at works
              exact works
      all_goals
        rename_i found
        refine .stays _ ?_
        simp only [workerMove?, calling?, found, Option.map_none]

end GuardedPool

/-! ## One guard for each flag that is set -/

theorem Pool.isClaimed_set {pool changed : Pool Source α} {id : UInt64} {slot later : WorkerSlot α}
    (found : pool.slots[id.toNat]? = some slot)
    (slots : changed.slots = pool.slots.setIfInBounds id.toNat later) (other : UInt64) :
    changed.isClaimed other = if other = id then later.claimed else pool.isClaimed other := by
  unfold isClaimed
  rw [slots]
  split
  case isTrue same =>
    subst same
    rw [Array.getElem?_setIfInBounds_self_of_lt (Array.getElem?_eq_some_iff.mp found).1]
    rfl
  case isFalse apart =>
    rw [Array.getElem?_setIfInBounds_ne fun same => apart (UInt64.toNat_inj.mp same).symm]

theorem Pool.slot_of_workplace? {pool : Pool Source α} {id : UInt64} {place : Workplace Source α}
    (found : pool.workplace? id = some place) :
    pool.slots[id.toNat]? = some place.slot := by
  obtain ⟨slot, at_, rfl⟩ := Option.map_eq_some_iff.mp found
  exact at_

theorem Pool.slot_of_isClaimed {pool : Pool Source α} {id : UInt64}
    (claimed : pool.isClaimed id = true) :
    ∃ slot, pool.slots[id.toNat]? = some slot ∧ slot.claimed = true := by
  unfold isClaimed at claimed
  cases found : pool.slots[id.toNat]? with
  | none => simp [found] at claimed
  | some slot => exact ⟨slot, rfl, by simpa [found] using claimed⟩

namespace GuardedPool

/-- A worker whose flag is set has one guard, and one whose flag is clear has none. -/
def Exclusive (system : GuardedPool Source α) : Prop :=
  ∀ id, system.alive id = (system.pool.isClaimed id).toNat

/-- Exchanging one guard for another changes the number of guards by these two. -/
theorem alive_set {guards : List (Option (Guard α))} {number : Nat} {before : Option (Guard α)}
    (found : guards[number]? = some before) (after : Option (Guard α)) (id : UInt64) :
    (guards.set number after).countP (Guard.isOn id) + (Guard.isOn id before).toNat =
      guards.countP (Guard.isOn id) + (Guard.isOn id after).toNat := by
  obtain ⟨inside, here⟩ := List.getElem?_eq_some_iff.mp found
  have counted : Guard.isOn id before = true → 0 < guards.countP (Guard.isOn id) := by
    intro on
    exact List.countP_pos_iff.mpr ⟨before, List.mem_of_getElem? found, on⟩
  rw [List.countP_set inside, here]
  cases beforeOn : Guard.isOn id before <;> cases afterOn : Guard.isOn id after <;>
    simp only [beforeOn, forall_const, Bool.false_eq_true, if_true, if_false, Bool.toNat_true,
      Bool.toNat_false] at counted ⊢ <;> omega

theorem isOn_guard (id worker : UInt64) (call : Option (WorkerPhase α)) :
    (Guard.isOn id (some ⟨worker, call⟩)).toNat = if id = worker then 1 else 0 := by
  by_cases same : id = worker
  · simp [Guard.isOn, same]
  · simp [Guard.isOn, same, Ne.symm same]

variable {system : GuardedPool Source α}

namespace Exclusive

theorem start {pool : Pool Source α} (unclaimed : ∀ slot ∈ pool.slots, slot.claimed = false) :
    (GuardedPool.start pool).Exclusive := by
  intro id
  have clear : pool.isClaimed id = false := by
    by_contra set
    obtain ⟨slot, found, claimed⟩ := Pool.slot_of_isClaimed (Bool.eq_true_of_not_eq_false set)
    rw [unclaimed slot (Array.mem_of_getElem? found)] at claimed
    cases claimed
  change 0 = (pool.isClaimed id).toNat
  rw [clear]
  rfl

theorem slot (exclusive : system.Exclusive) {number : Nat} {guard : Guard α}
    (found : system.guards[number]? = some (some guard)) :
    ∃ slot, system.pool.slots[guard.worker.toNat]? = some slot ∧ slot.claimed = true := by
  apply Pool.slot_of_isClaimed
  have some : 0 < system.alive guard.worker :=
    List.countP_pos_iff.mpr ⟨some guard, List.mem_of_getElem? found, beq_self_eq_true _⟩
  rw [exclusive guard.worker] at some
  exact Bool.eq_true_of_not_eq_false fun clear => by simp [clear] at some

theorem unique (exclusive : system.Exclusive) {first second : Nat} {guard other : Guard α}
    (foundFirst : system.guards[first]? = some (some guard))
    (foundSecond : system.guards[second]? = some (some other))
    (same : guard.worker = other.worker) : first = second := by
  by_contra apart
  have fewer := alive_set foundFirst none guard.worker
  have still : (system.guards.set first none)[second]? = some (some other) := by
    rw [List.getElem?_set_ne apart]
    exact foundSecond
  have some : 0 < (system.guards.set first none).countP (Guard.isOn guard.worker) :=
    List.countP_pos_iff.mpr ⟨some other, List.mem_of_getElem? still, beq_iff_eq.mpr same.symm⟩
  have one := exclusive guard.worker
  have most : (system.pool.isClaimed guard.worker).toNat ≤ 1 := Bool.toNat_le _
  rw [isOn_guard, if_pos rfl] at fewer
  unfold alive at one
  simp only [Guard.isOn, Bool.toNat_false] at fewer
  omega

variable [ObjectSource Source α]

theorem next (exclusive : system.Exclusive) (move : GuardMove α) :
    (system.next move).1.Exclusive := by
  have effect := system.effect_of_next move
  generalize (system.next move).1 = after at effect ⊢
  generalize (system.next move).2 = event at effect
  cases effect with
  | stays | lost | refuses => exact exclusive
  | claims id slot found free =>
      intro other
      have before := exclusive other
      have flag : (flagged system.pool id slot true).isClaimed other = _ :=
        Pool.isClaimed_set found rfl other
      have count : (system.guards ++ [some (⟨id, none⟩ : Guard α)]).countP (Guard.isOn other) =
          system.alive other + if other = id then 1 else 0 := by
        rw [List.countP_append, ← isOn_guard other id none]
        rfl
      change (system.guards ++ [some (⟨id, none⟩ : Guard α)]).countP (Guard.isOn other) =
        ((flagged system.pool id slot true).isClaimed other).toNat
      rw [count, flag, before]
      split
      case isFalse => rfl
      case isTrue same =>
        have clear : system.pool.isClaimed other = false := by
          rw [same, Pool.isClaimed, found]
          exact free
        rw [clear]
        rfl
  | drops number worker idle =>
      obtain ⟨slot, found, -⟩ := exclusive.slot idle
      intro other
      have before := exclusive other
      have slots := modify_eq_setIfInBounds found fun slot => { slot with claimed := false }
      have flag : (system.pool.release worker).isClaimed other = _ :=
        Pool.isClaimed_set found slots other
      have count := alive_set idle none other
      change (system.guards.set number none).countP (Guard.isOn other) =
        ((system.pool.release worker).isClaimed other).toNat
      rw [isOn_guard] at count
      simp only [Guard.isOn, Bool.toNat_false] at count
      change _ = system.alive other + 0 at count
      have most : (system.pool.isClaimed other).toNat ≤ 1 := Bool.toNat_le _
      rw [flag]
      split
      case isFalse apart =>
        rw [if_neg apart] at count
        omega
      case isTrue same =>
        rw [if_pos same] at count
        rw [Bool.toNat_false]
        omega
  | begins move number worker phase begun idle =>
      intro other
      have count := alive_set idle (some ⟨worker, some phase⟩) other
      rw [isOn_guard, isOn_guard] at count
      exact (Nat.add_right_cancel count).trans (exclusive other)
  | works number worker phase place within found =>
      intro other
      have slot := Pool.slot_of_workplace? found
      have count := alive_set within
        (some ⟨worker, PoolSystem.callAfter (place.step system.pool.config phase).2⟩) other
      rw [isOn_guard, isOn_guard] at count
      have flag : (system.pool.withWorkplace worker
          (place.step system.pool.config phase).1).isClaimed other = _ :=
        Pool.isClaimed_set slot rfl other
      have kept : (system.pool.withWorkplace worker
          (place.step system.pool.config phase).1).isClaimed other =
            system.pool.isClaimed other := by
        rw [flag, Workplace.step_claimed]
        split
        case isFalse => rfl
        case isTrue same =>
          rw [same, Pool.isClaimed, slot]
          rfl
      refine (Nat.add_right_cancel count).trans ?_
      rw [kept]
      exact exclusive other

theorem run (exclusive : system.Exclusive) (moves : List (GuardMove α)) :
    (system.run moves).1.Exclusive := by
  induction moves generalizing system with
  | nil => exact exclusive
  | cons move moves inductionHypothesis => exact inductionHypothesis (exclusive.next move)

end Exclusive

/-! ## How a claim is answered -/

variable [ObjectSource Source α]

theorem size_slots_next (move : GuardMove α) :
    (system.next move).1.pool.slots.size = system.pool.slots.size := by
  have effect := system.effect_of_next move
  generalize (system.next move).1 = after at effect ⊢
  generalize (system.next move).2 = event at effect
  cases effect with
  | stays | lost | refuses | begins => rfl
  | claims => exact Array.size_setIfInBounds
  | drops => exact Array.size_modify
  | works => exact Array.size_setIfInBounds

theorem size_slots_run (moves : List (GuardMove α)) :
    (system.run moves).1.pool.slots.size = system.pool.slots.size := by
  induction moves generalizing system with
  | nil => rfl
  | cons move moves inductionHypothesis => exact inductionHypothesis.trans (size_slots_next move)

/-- A claim gets a guard if there is such a worker and no guard on its slot, and then sets the
flag; else it changes nothing. -/
theorem Exclusive.claim_answer (exclusive : system.Exclusive) (id : UInt64) :
    (system.pool.slots.size ≤ id.toNat ∧ system.next (.claim id) =
        (system, some (.claimed id (.error (.unknownWorker id system.pool.slots.size))))) ∨
      (id.toNat < system.pool.slots.size ∧ system.alive id = 1 ∧
        system.next (.claim id) = (system, some (.claimed id (.error (.workerBusy id))))) ∨
      (id.toNat < system.pool.slots.size ∧ system.alive id = 0 ∧
        ∃ slot, system.pool.slots[id.toNat]? = some slot ∧ slot.claimed = false ∧
          system.next (.claim id) =
            (⟨flagged system.pool id slot true, system.guards ++ [some ⟨id, none⟩]⟩,
              some (.claimed id (.ok system.guards.length)))) := by
  have flag := exclusive id
  unfold Pool.isClaimed at flag
  cases found : system.pool.slots[id.toNat]? with
  | none =>
      have refused : system.pool.claim id =
          .error (.unknownWorker id system.pool.slots.size) := by
        rw [Pool.claim, found]
      refine Or.inl ⟨Array.getElem?_eq_none_iff.mp found, ?_⟩
      rw [GuardedPool.next, refused]
  | some slot =>
      rw [found, Option.any_some] at flag
      have inside := (Array.getElem?_eq_some_iff.mp found).1
      cases claimed : slot.claimed with
      | true =>
          rw [claimed] at flag
          have refused : system.pool.claim id = .error (.workerBusy id) := by
            rw [Pool.claim, found]
            exact if_pos claimed
          refine Or.inr (Or.inl ⟨inside, flag, ?_⟩)
          rw [GuardedPool.next, refused]
      | false =>
          rw [claimed] at flag
          have granted : system.pool.claim id = .ok (flagged system.pool id slot true) := by
            rw [Pool.claim, found]
            exact if_neg (Bool.not_eq_true _ ▸ claimed)
          refine Or.inr (Or.inr ⟨inside, flag, slot, rfl, claimed, ?_⟩)
          rw [GuardedPool.next, granted]

/-! ## What passes from one guard to the next -/

omit [ObjectSource Source α] in
theorem apart_of_unguarded {id : UInt64} (unguarded : system.alive id = 0) {number : Nat}
    {guard : Guard α} (found : system.guards[number]? = some (some guard)) :
    id ≠ guard.worker := by
  rintro rfl
  exact List.countP_eq_zero.mp unguarded _ (List.mem_of_getElem? found) (beq_self_eq_true _)

theorem next_of_unguarded {id : UInt64} (unguarded : system.alive id = 0) {move : GuardMove α}
    (unclaimed : ∀ number, (system.next move).2 ≠ some (.claimed id (.ok number))) :
    (system.next move).1.alive id = 0 ∧
      (system.next move).1.pool.slots[id.toNat]? = system.pool.slots[id.toNat]? := by
  have differ : ∀ {worker : UInt64}, id ≠ worker → worker.toNat ≠ id.toNat :=
    fun apart same => apart (UInt64.toNat_inj.mp same).symm
  have effect := system.effect_of_next move
  generalize (system.next move).1 = after at effect ⊢
  generalize (system.next move).2 = event at effect unclaimed
  cases effect with
  | stays | lost | refuses => exact ⟨unguarded, rfl⟩
  | claims worker slot found free =>
      have apart : id ≠ worker := by
        rintro rfl
        exact unclaimed _ rfl
      refine ⟨?_, Array.getElem?_setIfInBounds_ne (differ apart)⟩
      have none : Guard.isOn id (some (⟨worker, none⟩ : Guard α)) = false :=
        beq_false_of_ne (Ne.symm apart)
      change (system.guards ++ [some (⟨worker, _⟩ : Guard α)]).countP (Guard.isOn id) = 0
      rw [List.countP_append, List.countP_singleton, none]
      exact unguarded
  | drops number worker idle =>
      have apart := apart_of_unguarded unguarded idle
      have count := alive_set idle none id
      rw [isOn_guard, if_neg apart] at count
      refine ⟨count.trans unguarded, ?_⟩
      rw [Pool.release, Array.getElem?_modify]
      exact if_neg (differ apart)
  | begins move number worker phase begun idle =>
      have apart := apart_of_unguarded unguarded idle
      have count := alive_set idle (some ⟨worker, some phase⟩) id
      rw [isOn_guard, isOn_guard] at count
      exact ⟨(Nat.add_right_cancel count).trans unguarded, rfl⟩
  | works number worker phase place within found =>
      have apart := apart_of_unguarded unguarded within
      have count := alive_set within
        (some ⟨worker, PoolSystem.callAfter (place.step system.pool.config phase).2⟩) id
      rw [isOn_guard, isOn_guard] at count
      exact ⟨(Nat.add_right_cancel count).trans unguarded,
        Array.getElem?_setIfInBounds_ne (differ apart)⟩

theorem run_of_unguarded {id : UInt64} (unguarded : system.alive id = 0)
    {moves : List (GuardMove α)}
    (unclaimed : ∀ number, .claimed id (.ok number) ∉ (system.run moves).2) :
    (system.run moves).1.alive id = 0 ∧
      (system.run moves).1.pool.slots[id.toNat]? = system.pool.slots[id.toNat]? := by
  induction moves generalizing system with
  | nil => exact ⟨unguarded, rfl⟩
  | cons move moves inductionHypothesis =>
      have now : ∀ number, (system.next move).2 ≠ some (.claimed id (.ok number)) := by
        intro number same
        exact unclaimed number (List.mem_append_left _ (Option.mem_toList.mpr same))
      obtain ⟨still, slot⟩ := next_of_unguarded unguarded now
      obtain ⟨last, lastSlot⟩ := inductionHypothesis still
        fun number member => unclaimed number (List.mem_append_right _ member)
      exact ⟨last, lastSlot.trans slot⟩

theorem Exclusive.drop_guard (exclusive : system.Exclusive) {number : Nat} {worker : UInt64}
    (idle : system.guards[number]? = some (some ⟨worker, none⟩)) {slot : WorkerSlot α}
    (found : system.pool.slots[worker.toNat]? = some slot) :
    (system.next (.drop number)).1.alive worker = 0 ∧
      (system.next (.drop number)).1.pool.slots[worker.toNat]? =
        some { slot with claimed := false } := by
  have dropped : (system.next (.drop number)).1 =
      ⟨system.pool.release worker, system.guards.set number none⟩ := by
    rw [GuardedPool.next, idle]
    rfl
  have one := exclusive worker
  have most : (system.pool.isClaimed worker).toNat ≤ 1 := Bool.toNat_le _
  have count := alive_set idle none worker
  rw [isOn_guard, if_pos rfl] at count
  rw [dropped]
  constructor
  · change (system.guards.set number none).countP (Guard.isOn worker) = 0
    change _ = system.alive worker + 0 at count
    omega
  · rw [Pool.release, Array.getElem?_modify, if_pos rfl, found]
    rfl

/-! ## Guards as workers -/

structure Mirrors (system : GuardedPool Source α) (workers : PoolSystem Source α) : Prop where
  pool : workers.pool = system.pool
  guarded : ∀ (number : Nat) (guard : Guard α), system.guards[number]? = some (some guard) →
    workers.calls guard.worker = guard.call
  unguarded : ∀ id, system.alive id = 0 → workers.calls id = none

def workerMoves (system : GuardedPool Source α) : List (GuardMove α) → List (PoolMove α)
  | [] => []
  | move :: moves => (system.workerMove? move).toList ++ (system.next move).1.workerMoves moves

namespace Mirrors

variable {workers : PoolSystem Source α}

omit [ObjectSource Source α] in
theorem start (pool : Pool Source α) :
    (GuardedPool.start pool).Mirrors (PoolSystem.start pool) where
  pool := rfl
  guarded := fun _ _ none => nomatch none
  unguarded := fun _ _ => rfl

omit [ObjectSource Source α] in
theorem setGuard (mirrors : system.Mirrors workers) (exclusive : system.Exclusive) {number : Nat}
    {worker : UInt64} {before : Option (WorkerPhase α)}
    (found : system.guards[number]? = some (some ⟨worker, before⟩))
    (call : Option (WorkerPhase α)) (after : PoolSystem Source α)
    (calls : ∀ id, after.calls id = if id = worker then call else workers.calls id) :
    Mirrors ⟨after.pool, system.guards.set number (some ⟨worker, call⟩)⟩ after where
  pool := rfl
  guarded := by
    intro index guard listed
    rw [calls]
    by_cases same : number = index
    · have inside := (List.getElem?_eq_some_iff.mp found).1
      rw [← same, List.getElem?_set_self inside] at listed
      cases listed
      exact if_pos rfl
    · rw [List.getElem?_set_ne same] at listed
      rw [if_neg fun twice => same (exclusive.unique found listed twice.symm)]
      exact mirrors.guarded index guard listed
  unguarded := by
    intro id none
    have count := alive_set found (some ⟨worker, call⟩) id
    rw [isOn_guard, isOn_guard] at count
    have before : system.alive id = 0 := (Nat.add_right_cancel count).symm.trans none
    rw [calls, if_neg (apart_of_unguarded before found)]
    exact mirrors.unguarded id before

omit [ObjectSource Source α] in
theorem isReady (mirrors : system.Mirrors workers) (exclusive : system.Exclusive) {number : Nat}
    {worker : UInt64} (idle : system.guards[number]? = some (some ⟨worker, none⟩)) :
    workers.isReady worker = true := by
  obtain ⟨slot, found, claimed⟩ := exclusive.slot idle
  rw [PoolSystem.isReady, mirrors.guarded number _ idle, mirrors.pool, Pool.isClaimed, found]
  exact (Bool.and_true _).trans claimed

omit [ObjectSource Source α] in
theorem claimed (mirrors : system.Mirrors workers) (exclusive : system.Exclusive) {id : UInt64}
    (clear : system.pool.isClaimed id = false) (pool : Pool Source α) :
    Mirrors ⟨pool, system.guards ++ [some ⟨id, none⟩]⟩ { workers with pool } where
  pool := rfl
  guarded := by
    intro number guard listed
    rw [List.getElem?_append] at listed
    split at listed
    · exact mirrors.guarded number guard listed
    · rw [List.getElem?_singleton] at listed
      split at listed
      · cases listed
        refine mirrors.unguarded id ?_
        rw [exclusive id, clear]
        rfl
      · cases listed
  unguarded := by
    intro other none
    change (system.guards ++ [some (⟨id, _⟩ : Guard α)]).countP (Guard.isOn other) = 0 at none
    rw [List.countP_append] at none
    exact mirrors.unguarded other (Nat.eq_zero_of_add_eq_zero_right none)

omit [ObjectSource Source α] in
theorem dropped (mirrors : system.Mirrors workers) {number : Nat} {worker : UInt64}
    (idle : system.guards[number]? = some (some ⟨worker, none⟩)) (pool : Pool Source α) :
    Mirrors ⟨pool, system.guards.set number none⟩ { workers with pool } where
  pool := rfl
  guarded := by
    intro index guard listed
    by_cases same : number = index
    · have inside := (List.getElem?_eq_some_iff.mp idle).1
      rw [← same, List.getElem?_set_self inside] at listed
      cases listed
    · rw [List.getElem?_set_ne same] at listed
      exact mirrors.guarded index guard listed
  unguarded := by
    intro id none
    by_cases same : id = worker
    · rw [same]
      exact mirrors.guarded number _ idle
    · have count := alive_set idle Option.none id
      rw [isOn_guard, if_neg same] at count
      exact mirrors.unguarded id (count.symm.trans none)

variable [DecidableEq α]

/-- While no two guards are on one slot, a move through a guard is a move of its worker.  Callers
return what they hold. -/
theorem next (mirrors : system.Mirrors workers) (exclusive : system.Exclusive) (move : GuardMove α)
    (honest : ∀ number object, move = .free number object → object ∈ workers.held) :
    (system.next move).1.Mirrors (workers.run (system.workerMove? move).toList).1 := by
  have follows {made : PoolMove α} (same : system.workerMove? move = some made) :
      (workers.run (system.workerMove? move).toList).1 = (workers.next made).1 := by
    rw [same]
    rfl
  have effect := system.effect_of_next move
  generalize (system.next move).1 = after at effect ⊢
  generalize (system.next move).2 = event at effect
  cases effect with
  | stays _ outOfPlace =>
      rw [outOfPlace]
      exact mirrors
  | lost number worker calling missing =>
      have same : (workers.next (.advance worker)).1 = workers := by
        rw [← mirrors.pool] at missing
        cases within : workers.calls worker <;> simp only [PoolSystem.next, within, missing]
      rw [follows (congrArg (Option.map _) calling), same]
      exact mirrors
  | refuses id refusal refused =>
      have same : (workers.next (.claim id)).1 = workers := by
        rw [← mirrors.pool] at refused
        rw [PoolSystem.next, refused]
      rw [follows rfl, same]
      exact mirrors
  | claims id slot found free =>
      have clear : system.pool.isClaimed id = false := by
        rw [Pool.isClaimed, found]
        exact free
      have granted : workers.pool.claim id = .ok (flagged system.pool id slot true) := by
        rw [mirrors.pool, Pool.claim, found]
        exact if_neg (Bool.not_eq_true _ ▸ free)
      have made : (workers.next (.claim id)).1 =
          { workers with pool := flagged system.pool id slot true } := by
        rw [PoolSystem.next, granted]
      rw [follows rfl, made]
      exact mirrors.claimed exclusive clear _
  | drops number worker idle =>
      have made : (workers.next (.release worker)).1 =
          { workers with pool := system.pool.release worker } := by
        rw [PoolSystem.next, if_pos (mirrors.isReady exclusive idle), mirrors.pool]
      rw [follows (congrArg (Option.map _) (idle?_of_guard idle)), made]
      exact mirrors.dropped idle _
  | begins move number worker phase begun idle =>
      have ready := mirrors.isReady exclusive idle
      have known := idle?_of_guard idle
      have same : system.setGuard number (some ⟨worker, some phase⟩) =
          ⟨workers.pool, system.guards.set number (some ⟨worker, some phase⟩)⟩ := by
        rw [mirrors.pool]
        rfl
      have starts : ∃ made held, system.workerMove? move = some made ∧
          (workers.next made).1 = { workers with held }.setCall worker (some phase) := by
        cases move with
        | claim | drop | advance => cases begun
        | alloc =>
            cases begun
            refine ⟨.alloc worker, workers.held, congrArg (Option.map _) known, ?_⟩
            rw [PoolSystem.next, if_pos ready]
        | flush =>
            cases begun
            refine ⟨.flush worker, workers.held, congrArg (Option.map _) known, ?_⟩
            rw [PoolSystem.next, if_pos ready]
        | free number object =>
            cases begun
            refine ⟨.free worker object, workers.held.erase object,
              congrArg (Option.map _) known, ?_⟩
            rw [PoolSystem.next, if_pos ⟨ready, honest number object rfl⟩]
      obtain ⟨made, held, moves, starts⟩ := starts
      rw [follows moves, starts, same]
      exact mirrors.setGuard exclusive idle (some phase)
        (PoolSystem.setCall { workers with held } worker (some phase)) fun _ => rfl
  | works number worker phase place within found =>
      obtain ⟨slot, at_, rfl⟩ := Option.map_eq_some_iff.mp found
      have calling := mirrors.guarded number _ within
      rw [follows (congrArg (Option.map _) (calling?_of_guard within))]
      rw [← mirrors.pool] at at_ ⊢
      rw [workers.next_advance at_ calling]
      exact mirrors.setGuard exclusive within _ (workers.worked worker _) fun _ => rfl

/-- So what is done through guards by callers that return only what they hold is what the workers
of the pool do, each within one call at a time. -/
theorem run (mirrors : system.Mirrors workers) (exclusive : system.Exclusive)
    (moves : List (GuardMove α))
    (honest : ∀ first number object rest, moves = first ++ .free number object :: rest →
      object ∈ (workers.run (system.workerMoves first)).1.held) :
    (system.run moves).1.Mirrors (workers.run (system.workerMoves moves)).1 := by
  induction moves generalizing system workers with
  | nil => exact mirrors
  | cons move moves inductionHypothesis =>
      have mirrorsNext := mirrors.next exclusive move fun number object frees =>
        honest [] number object moves (congrArg (· :: moves) frees)
      rw [workerMoves, PoolSystem.run_append]
      refine inductionHypothesis mirrorsNext (exclusive.next move) ?_
      intro first number object rest split
      have later := honest (move :: first) number object rest (congrArg (move :: ·) split)
      rw [workerMoves, PoolSystem.run_append] at later
      exact later

end Mirrors

end GuardedPool

/-- In every state that claims, drops and calls through guards lead to, by any number of threads:
a worker has at most one guard, and one if and only if its flag is set, so that no two guards ever
work on one slot.  A claim is answered by that: it names a worker that the pool does not have, or
one that has a guard, and changes nothing; or it gives a guard and sets the flag, which is all that
changes in the pool.  And when a guard is dropped, then whatever is done until the worker is
claimed again, that claim succeeds, and the new guard finds the slot with its cache and its
counters as the old one left it. -/
theorem guards_are_exclusive_and_hand_over [Inhabited α] [ObjectSource Source α]
    {config : PoolConfig} {source : Source} {pool : Pool Source α}
    (opened : Pool.create config source = .ok pool) (moves : List (GuardMove α))
    {reached : GuardedPool Source α}
    (reaches : ((GuardedPool.start pool).run moves).1 = reached) :
    (∀ id, reached.alive id ≤ 1 ∧
      (reached.pool.isClaimed id = true ↔ reached.alive id = 1)) ∧
    (∀ first second : Nat, ∀ guard other : Guard α, reached.guards[first]? = some (some guard) →
      reached.guards[second]? = some (some other) → guard.worker = other.worker →
        first = second) ∧
    (∀ id,
      (config.workers ≤ id ∧ reached.next (.claim id) =
        (reached, some (.claimed id (.error (.unknownWorker id config.workers.toNat))))) ∨
      (id < config.workers ∧ reached.alive id = 1 ∧
        reached.next (.claim id) = (reached, some (.claimed id (.error (.workerBusy id))))) ∨
      (id < config.workers ∧ reached.alive id = 0 ∧
        ∃ slot, reached.pool.slots[id.toNat]? = some slot ∧ slot.claimed = false ∧
          reached.next (.claim id) =
            (⟨{ reached.pool with
                  slots := reached.pool.slots.setIfInBounds id.toNat
                    { slot with claimed := true } },
                reached.guards ++ [some ⟨id, none⟩]⟩,
              some (.claimed id (.ok reached.guards.length))))) ∧
    ∀ number id, reached.guards[number]? = some (some ⟨id, none⟩) →
      ∃ slot, reached.pool.slots[id.toNat]? = some slot ∧
        ∀ between later, ((reached.next (.drop number)).1.run between).1 = later →
          (∀ given, .claimed id (.ok given) ∉ ((reached.next (.drop number)).1.run between).2) →
            later.alive id = 0 ∧
            (later.next (.claim id)).2 = some (.claimed id (.ok later.guards.length)) ∧
            (later.next (.claim id)).1.pool.slots[id.toNat]? = some slot := by
  obtain ⟨localCapacity, -, -, -, -, slots, -⟩ := Pool.of_create opened
  have fresh : (GuardedPool.start pool).Exclusive := by
    apply GuardedPool.Exclusive.start
    intro slot member
    rw [slots] at member
    rw [Array.eq_of_mem_replicate member]
    rfl
  have exclusive := fresh.run moves
  have size : reached.pool.slots.size = config.workers.toNat := by
    rw [← reaches, GuardedPool.size_slots_run]
    change pool.slots.size = config.workers.toNat
    rw [slots, Array.size_replicate]
  rw [reaches] at exclusive
  refine ⟨?_, ?_, ?_, ?_⟩
  case refine_1 =>
    intro id
    rw [exclusive id]
    cases reached.pool.isClaimed id <;> decide
  case refine_2 =>
    intro first second guard other foundFirst foundSecond same
    exact exclusive.unique foundFirst foundSecond same
  case refine_3 =>
    intro id
    have answer := exclusive.claim_answer id
    rw [size, ← UInt64.le_iff_toNat_le, ← UInt64.lt_iff_toNat_lt] at answer
    exact answer
  case refine_4 =>
    intro number id idle
    obtain ⟨slot, found, claimed⟩ := exclusive.slot idle
    refine ⟨slot, found, ?_⟩
    intro between later ends unclaimed
    obtain ⟨none, left⟩ := exclusive.drop_guard idle found
    obtain ⟨still, kept⟩ := GuardedPool.run_of_unguarded none unclaimed
    rw [ends] at still kept
    rw [left] at kept
    have exclusiveLater : later.Exclusive := by
      rw [← ends]
      exact (exclusive.next _).run between
    rcases exclusiveLater.claim_answer id with
      ⟨outside, -⟩ | ⟨-, one, -⟩ | ⟨-, -, cleared, at_, -, answer⟩
    · have inside := (Array.getElem?_eq_some_iff.mp kept).1
      omega
    · omega
    · cases at_.symm.trans kept
      refine ⟨still, congrArg Prod.snd answer, ?_⟩
      rw [answer]
      have again : (GuardedPool.flagged later.pool id { slot with claimed := false }
          true).slots[id.toNat]? = some { slot with claimed := true } :=
        Array.getElem?_setIfInBounds_self_of_lt (Array.getElem?_eq_some_iff.mp kept).1
      rw [again, ← claimed]

def stockedMoves : List (GuardMove UInt64) := [.claim 0, .free 0 7, .advance 0]

def stockedSystem : GuardedPool ScriptedSource UInt64 :=
  ((GuardedPool.start (PoolSystem.duoPool (ScriptedSource.create none []))).run stockedMoves).1

def meanwhileMoves : List (GuardMove UInt64) := [.claim 1, .claim 5, .free 1 8, .advance 1]

def handedSystem : GuardedPool ScriptedSource UInt64 :=
  ((stockedSystem.next (.drop 0)).1.run meanwhileMoves).1

/-- While there is a guard on the first worker, no other is given.  The next one has number two,
and finds the object. -/
theorem guards_are_exclusive_and_hand_over_sample :
    stockedSystem.alive 0 = 1 ∧
      (stockedSystem.next (.claim 0)).2 = some (.claimed 0 (.error (.workerBusy 0))) ∧
      (handedSystem.next (.claim 0)).2 = some (.claimed 0 (.ok 2)) ∧
      (handedSystem.next (.claim 0)).1.pool.slots[0]? = stockedSystem.pool.slots[0]? ∧
      stockedSystem.pool.slots[0]?.map (fun slot => slot.cache.toList) = some [7] := by
  obtain ⟨-, -, -, hands⟩ :=
    guards_are_exclusive_and_hand_over
      (PoolSystem.duoPool_opens (ScriptedSource.create none [])) stockedMoves rfl
  obtain ⟨slot, found, next⟩ := hands 0 0 rfl
  have events : ((stockedSystem.next (.drop 0)).1.run meanwhileMoves).2 =
      [.claimed 1 (.ok 1), .claimed 5 (.error (.unknownWorker 5 2)), .returned 1 .done] := rfl
  have unclaimed : ∀ given, GuardEvent.claimed 0 (.ok given) ∉
      ((stockedSystem.next (.drop 0)).1.run meanwhileMoves).2 := by
    intro given member
    rw [events] at member
    simp at member
  obtain ⟨-, granted, kept⟩ := next meanwhileMoves handedSystem rfl unclaimed
  exact ⟨rfl, rfl, granted, kept.trans found.symm, rfl⟩

end RingPool

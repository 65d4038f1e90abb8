import RingPool.Proofs.Pool.Safety

/-!
# An account of a source's objects

A `Recorded` source keeps a record of its calls.  The record says which objects are
`outstanding`: given and not taken back since.  `Balances` compares them, as a bag,
with the objects that a worker sees in its cache and in the shared ring, that its
call carries and that are elsewhere.  A worker's step keeps the balance whatever the
source answers: each object goes from one list to one other, or comes from the
source, or goes back to it.
-/

set_option autoImplicit false

namespace RingPool

variable {Source α : Type}

inductive SourceCall (α : Type) where
  | gave (object : α)
  | refused
  | tookBack (object : α)
  deriving DecidableEq, Repr

/-- A source with a record of its calls, the latest first. -/
structure Recorded (Source α : Type) where
  source : Source
  calls : List (SourceCall α)

namespace Recorded

instance [ObjectSource Source α] : ObjectSource (Recorded Source α) α where
  alloc := fun recorded =>
    match ObjectSource.alloc recorded.source with
    | (none, source) => (none, ⟨source, .refused :: recorded.calls⟩)
    | (some object, source) => (some object, ⟨source, .gave object :: recorded.calls⟩)
  free := fun recorded object =>
    ⟨ObjectSource.free recorded.source object, .tookBack object :: recorded.calls⟩

theorem alloc_cases [ObjectSource Source α] (recorded : Recorded Source α) :
    (∃ source, ObjectSource.alloc recorded = (none, ⟨source, .refused :: recorded.calls⟩)) ∨
    (∃ object source, ObjectSource.alloc recorded =
      (some object, ⟨source, .gave object :: recorded.calls⟩)) := by
  rcases answer : ObjectSource.alloc recorded.source with ⟨_ | object, source⟩
  · left
    refine ⟨source, ?_⟩
    simp only [ObjectSource.alloc, answer]
  · right
    refine ⟨object, source, ?_⟩
    simp only [ObjectSource.alloc, answer]

def fresh (source : Source) : Recorded Source α := ⟨source, []⟩

end Recorded

section Record

variable [DecidableEq α]

/-- The objects that a source gave and that did not come back since. -/
def outstanding : List (SourceCall α) → List α
  | [] => []
  | .gave object :: calls => object :: outstanding calls
  | .refused :: calls => outstanding calls
  | .tookBack object :: calls => (outstanding calls).erase object

/-- A source gives no object that is still outstanding. -/
def GivesFresh : List (SourceCall α) → Prop
  | [] => True
  | .gave object :: calls => object ∉ outstanding calls ∧ GivesFresh calls
  | .refused :: calls => GivesFresh calls
  | .tookBack _ :: calls => GivesFresh calls

instance decidableGivesFresh : (calls : List (SourceCall α)) → Decidable (GivesFresh calls)
  | [] => .isTrue True.intro
  | .gave object :: calls =>
      @instDecidableAnd (object ∉ outstanding calls) (GivesFresh calls) inferInstance
        (decidableGivesFresh calls)
  | .refused :: calls => decidableGivesFresh calls
  | .tookBack _ :: calls => decidableGivesFresh calls

/-- Whatever comes back was outstanding, so nothing comes back twice. -/
def TakesBackOutstanding : List (SourceCall α) → Prop
  | [] => True
  | .gave _ :: calls => TakesBackOutstanding calls
  | .refused :: calls => TakesBackOutstanding calls
  | .tookBack object :: calls => object ∈ outstanding calls ∧ TakesBackOutstanding calls

theorem outstanding_nodup {calls : List (SourceCall α)} (fresh : GivesFresh calls) :
    (outstanding calls).Nodup := by
  induction calls with
  | nil => exact List.nodup_nil
  | cons call calls ih =>
      cases call with
      | gave object => exact List.nodup_cons.mpr ⟨fresh.1, ih fresh.2⟩
      | refused => exact ih fresh
      | tookBack object => exact (ih fresh).erase object

/-- The listed objects are just those that are outstanding, and only such came back. -/
structure Balances (objects : List α) (calls : List (SourceCall α)) : Prop where
  perm : objects.Perm (outstanding calls)
  tookBack : TakesBackOutstanding calls

namespace Balances

variable {objects : List α} {calls : List (SourceCall α)}

theorem moved (balances : Balances objects calls) {others : List α}
    (same : others.Perm objects) : Balances others calls :=
  ⟨same.trans balances.perm, balances.tookBack⟩

theorem gave (balances : Balances objects calls) (object : α) :
    Balances (object :: objects) (.gave object :: calls) :=
  ⟨balances.perm.cons object, balances.tookBack⟩

theorem refused (balances : Balances objects calls) : Balances objects (.refused :: calls) :=
  ⟨balances.perm, balances.tookBack⟩

theorem returned {object : α} (balances : Balances (object :: objects) calls) :
    Balances objects (.tookBack object :: calls) := by
  have known : object ∈ outstanding calls := balances.perm.subset List.mem_cons_self
  refine ⟨?_, known, balances.tookBack⟩
  have less := balances.perm.erase object
  rwa [List.erase_cons_head] at less

end Balances

end Record

theorem allocUpTo_balances [ObjectSource Source α] [DecidableEq α] (source : Recorded Source α)
    (count : Nat) (obtained : Array α) (balances : Balances obtained.toList source.calls) :
    Balances (ObjectSource.allocUpTo source count obtained).1.toList
      (ObjectSource.allocUpTo source count obtained).2.calls := by
  induction count generalizing source obtained with
  | zero => exact balances
  | succ count ih =>
      rw [ObjectSource.allocUpTo]
      rcases source.alloc_cases with ⟨left, refused⟩ | ⟨object, left, gave⟩
      · rw [refused]
        exact balances.refused
      · rw [gave]
        refine ih _ _ ((balances.gave object).moved ?_)
        rw [Array.toList_push]
        exact List.perm_append_singleton object obtained.toList

namespace PoolSystem

def carried : Progress (WorkerPhase α) (WorkerOutcome α) → List α
  | .running phase => inTransit phase
  | .returned outcome => handedOut (.returned outcome)

theorem carried_goOn (onward : Onward α) :
    carried (Workplace.goOn onward) = inTransit.held onward := by
  cases onward <;> rfl

theorem carried_reclaimAll (onward : Onward α) (left : List α) :
    carried (Workplace.reclaimAll onward left) = left ++ inTransit.held onward := by
  cases left with
  | nil => exact carried_goOn onward
  | cons object rest => rfl

end PoolSystem

namespace Desk

open PoolSystem (carried carried_goOn carried_reclaimAll handedOut inTransit)

variable [ObjectSource Source α] {config : PoolConfig}
  {localCapacity sharedCapacity : Capacity}

def objects (desk : Desk (Recorded Source α) α) (carried others : List α) : List α :=
  carried ++ desk.cache ++ desk.shared ++ others

/-- No step of a worker loses an object or makes one appear twice. -/
theorem step_balances [DecidableEq α] (sizing : config.Fits localCapacity sharedCapacity)
    (desk : Desk (Recorded Source α) α) (phase : WorkerPhase α)
    (fits : phase.Fits config localCapacity desk.cache) (others : List α)
    (balances : Balances (desk.objects (inTransit phase) others) desk.source.calls) :
    Balances
      ((desk.step config localCapacity sharedCapacity phase).1.objects
        (carried (desk.step config localCapacity sharedCapacity phase).2) others)
      (desk.step config localCapacity sharedCapacity phase).1.source.calls := by
  cases phase with
  | hit =>
      rw [Desk.step]
      split
      case h_1 object cache items =>
          rw [objects, items] at balances
          exact balances
      case h_2 => exact balances
  | refill =>
      rw [Desk.step]
      split
      case h_1 => exact balances
      case h_2 object rest taken =>
          have empty : desk.cache = [] := fits
          refine balances.moved (List.Perm.of_eq ?_)
          simp only [objects, carried, inTransit, count, empty, ← taken, List.append_nil,
            List.nil_append, List.take_append_drop]
  | stock object rest =>
      have room := rest_le_vacancy sizing fits
      have empty : desk.cache = [] := fits.1
      rw [empty] at room
      refine balances.moved (List.Perm.of_eq ?_)
      simp only [Desk.step, if_pos room, objects, carried, handedOut, inTransit,
        List.take_of_length_le room, empty, List.nil_append, List.append_nil,
        List.cons_append]
  | ask =>
      rw [Desk.step]
      rcases desk.source.alloc_cases with ⟨source, refused⟩ | ⟨object, source, gave⟩
      · rw [refused]
        exact balances.refused
      · rw [gave]
        exact balances.gave object
  | measure object => exact balances
  | gather object more burst =>
      cases more with
      | zero => exact balances
      | succ more =>
          rw [Desk.step]
          rcases desk.source.alloc_cases with ⟨source, refused⟩ | ⟨extra, source, gave⟩
          · rw [refused]
            exact balances.refused
          · rw [gave]
            refine (balances.gave extra).moved (List.perm_iff_count.mpr fun x => ?_)
            simp only [objects, carried, inTransit, Array.toList_push, List.count_append,
              List.count_cons, List.count_nil]
            omega
  | stow object burst =>
      refine balances.moved (List.perm_iff_count.mpr fun x => ?_)
      have whole := congrArg (List.count x)
        (List.take_append_drop (sharedCapacity.vacancy desk.shared) burst.toList)
      simp only [Desk.step, objects, carried_reclaimAll, inTransit, inTransit.held, count,
        List.count_append, List.count_cons, List.count_nil] at whole ⊢
      omega
  | put object =>
      rw [Desk.step]
      split
      case isTrue =>
          refine balances.moved (List.perm_iff_count.mpr fun x => ?_)
          simp only [objects, carried, handedOut, inTransit, List.count_append, List.count_cons,
            List.count_nil]
          omega
      case isFalse => exact balances
  | retry object =>
      have room : 0 < localCapacity.vacancy desk.cache := fits
      rw [Desk.step, if_pos room]
      refine balances.moved (List.perm_iff_count.mpr fun x => ?_)
      simp only [objects, carried, handedOut, inTransit, List.count_append, List.count_cons,
        List.count_nil]
      omega
  | check =>
      rw [Desk.step]
      split <;> exact balances
  | unload onward =>
      rw [Desk.step]
      split
      case h_1 =>
          change Balances (desk.objects (carried (Workplace.goOn onward)) others) _
          rw [carried_goOn]
          exact balances
      case h_2 object rest taken =>
          refine balances.moved (List.perm_iff_count.mpr fun x => ?_)
          have whole := congrArg (List.count x)
            (List.take_append_drop config.bulkSize.toNat desk.cache)
          rw [taken] at whole
          simp only [objects, carried, inTransit, List.count_append] at whole ⊢
          omega
  | offload bulk onward =>
      refine balances.moved (List.perm_iff_count.mpr fun x => ?_)
      have whole := congrArg (List.count x)
        (List.take_append_drop (sharedCapacity.vacancy desk.shared) bulk)
      simp only [Desk.step, objects, carried_reclaimAll, inTransit, count, List.count_append]
        at whole ⊢
      omega
  | reclaim object rest before onward =>
      cases rest with
      | nil =>
          simp only [Desk.step, carried_goOn]
          exact balances.returned
      | cons next rest => exact balances.returned

/-- A step makes at most one call on the source, and takes back only what the worker's
call carries. -/
theorem step_calls (desk : Desk (Recorded Source α) α) (config : PoolConfig)
    (localCapacity sharedCapacity : Capacity) (phase : WorkerPhase α) :
    ∃ call : Option (SourceCall α),
      (desk.step config localCapacity sharedCapacity phase).1.source.calls =
        call.toList ++ desk.source.calls ∧
      ∀ object, call = some (.tookBack object) → object ∈ inTransit phase := by
  have quiet : ∃ call : Option (SourceCall α),
      desk.source.calls = call.toList ++ desk.source.calls ∧
      ∀ object, call = some (.tookBack object) → object ∈ inTransit phase :=
    ⟨none, rfl, by simp⟩
  cases phase with
  | hit => rw [Desk.step]; split <;> exact quiet
  | refill => rw [Desk.step]; split <;> exact quiet
  | stock object rest => exact quiet
  | ask =>
      rw [Desk.step]
      rcases desk.source.alloc_cases with ⟨source, refused⟩ | ⟨object, source, gave⟩
      · rw [refused]
        exact ⟨some .refused, rfl, by simp⟩
      · rw [gave]
        exact ⟨some (.gave object), rfl, by simp⟩
  | measure object => exact quiet
  | gather object more burst =>
      cases more with
      | zero => exact quiet
      | succ more =>
          rw [Desk.step]
          rcases desk.source.alloc_cases with ⟨source, refused⟩ | ⟨extra, source, gave⟩
          · rw [refused]
            exact ⟨some .refused, rfl, by simp⟩
          · rw [gave]
            exact ⟨some (.gave extra), rfl, by simp⟩
  | stow object burst => exact quiet
  | put object => rw [Desk.step]; split <;> exact quiet
  | retry object => rw [Desk.step]; split <;> exact quiet
  | check => rw [Desk.step]; split <;> exact quiet
  | unload onward => rw [Desk.step]; split <;> exact quiet
  | offload bulk onward => exact quiet
  | reclaim object rest before onward =>
      refine ⟨some (.tookBack object), by cases rest <;> rfl, ?_⟩
      intro other same
      cases same
      exact List.mem_cons_self

theorem mem_held_of_goOn {onward : Onward α} {object : α}
    (served : Workplace.goOn onward = .returned (.served (some object))) :
    object ∈ inTransit.held onward := by
  cases onward <;> cases served
  exact List.mem_singleton_self object

theorem mem_held_of_reclaimAll {onward : Onward α} {left : List α} {object : α}
    (served : Workplace.reclaimAll onward left = .returned (.served (some object))) :
    object ∈ inTransit.held onward := by
  cases left with
  | nil => exact mem_held_of_goOn served
  | cons => cases served

/-- An object that a step gives to the caller was in the cache or on its way. -/
theorem mem_of_served (desk : Desk Source α) (phase : WorkerPhase α) {object : α}
    (served : (desk.step config localCapacity sharedCapacity phase).2 =
      .returned (.served (some object))) :
    object ∈ inTransit phase ∨ object ∈ desk.cache := by
  cases phase with
  | hit =>
      rw [Desk.step] at served
      split at served
      case h_1 first rest items =>
          cases served
          exact Or.inr (items ▸ List.mem_cons_self)
      case h_2 => cases served
  | refill => rw [Desk.step] at served; split at served <;> cases served
  | stock first rest =>
      simp only [Desk.step, Progress.returned.injEq] at served
      split at served <;> cases served
      exact Or.inl List.mem_cons_self
  | ask => rw [Desk.step] at served; split at served <;> cases served
  | measure first => cases served
  | gather first more burst =>
      cases more with
      | zero => cases served
      | succ more => rw [Desk.step] at served; split at served <;> cases served
  | stow first burst =>
      have alone := mem_held_of_reclaimAll served
      rw [inTransit.held, List.mem_singleton] at alone
      exact Or.inl (alone ▸ List.mem_cons_self)
  | put first => rw [Desk.step] at served; split at served <;> cases served
  | retry first => rw [Desk.step] at served; split at served <;> cases served
  | check => rw [Desk.step] at served; split at served <;> cases served
  | unload onward =>
      rw [Desk.step] at served
      split at served
      case h_1 => exact Or.inl (mem_held_of_goOn served)
      case h_2 => cases served
  | offload bulk onward =>
      exact Or.inl (List.mem_append_right bulk (mem_held_of_reclaimAll served))
  | reclaim first rest before onward =>
      cases rest with
      | nil => exact Or.inl (List.mem_cons_of_mem _ (mem_held_of_goOn served))
      | cons => cases served

end Desk

end RingPool

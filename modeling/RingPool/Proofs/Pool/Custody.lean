import Mathlib.Data.List.Nodup
import Mathlib.Data.List.Pairwise
import RingPool.Proofs.Pool.Ledger

/-!
# Where the objects of a pool are

An object of a pool is with the callers, in the shared ring, in a worker's cache or
on its way through a worker's call (`Place`).  A worker's step changes what is in four
places only, so that the balance that the step keeps there (`Desk.step_balances`) is
one of all places together (`PoolSystem.Balanced`).

Main statement: if the source gives no object that is still outstanding, then after
every run each outstanding object is in exactly one place and there once, what a
caller receives no caller holds, and what goes back to the source is with the call
that returns it and nowhere else.
-/

set_option autoImplicit false

namespace RingPool

variable {Source α : Type}

inductive Place where
  | callers
  | shared
  | cache (id : UInt64)
  | call (id : UInt64)
  deriving DecidableEq, Repr

namespace Place

def ids : List UInt64 := (List.finRange UInt64.size).map UInt64.ofFin

theorem mem_ids (id : UInt64) : id ∈ ids :=
  List.mem_map.mpr ⟨id.toFin, List.mem_finRange _, rfl⟩

theorem ids_nodup : ids.Nodup :=
  (List.nodup_finRange UInt64.size).map fun _ _ same => congrArg UInt64.toFin same

def around (id : UInt64) : List Place := [callers, shared, cache id, call id]

theorem around_nodup (id : UInt64) : (around id).Nodup := by simp [around]

def all : List Place := [callers, shared] ++ (ids.map cache ++ ids.map call)

theorem mem_all (place : Place) : place ∈ all := by
  cases place with
  | callers => simp [all]
  | shared => simp [all]
  | cache id => simp [all, mem_ids id]
  | call id => simp [all, mem_ids id]

theorem all_nodup : all.Nodup := by
  have caches : (ids.map cache).Nodup := ids_nodup.map fun _ _ same => by cases same; rfl
  have calls : (ids.map call).Nodup := ids_nodup.map fun _ _ same => by cases same; rfl
  simp [all, List.nodup_append, caches, calls]

/-- Some places, and all the others. -/
theorem all_perm {touched : List Place} (once : touched.Nodup) :
    all.Perm (touched ++ all.filter fun place => !(place ∈ touched)) := by
  have chosen : (all.filter fun place => place ∈ touched).Perm touched := by
    rw [List.perm_ext_iff_of_nodup (all_nodup.filter _) once]
    intro place
    simp [mem_all]
  exact ((List.filter_append_perm (fun place => decide (place ∈ touched)) all).symm).trans
    (chosen.append_right _)

end Place

namespace PoolSystem

def objectsAt (system : PoolSystem Source α) : Place → List α
  | .callers => system.held
  | .shared => system.pool.shared.toList
  | .cache id =>
      match system.pool.slots[id.toNat]? with
      | some slot => slot.cache.toList
      | none => []
  | .call id =>
      match system.calls id with
      | some phase => inTransit phase
      | none => []

def inventory (system : PoolSystem Source α) : List α := Place.all.flatMap system.objectsAt

theorem objectsAt_cache {system : PoolSystem Source α} {id : UInt64} {slot : WorkerSlot α}
    (found : system.pool.slots[id.toNat]? = some slot) :
    system.objectsAt (.cache id) = slot.cache.toList := by
  rw [objectsAt, found]

theorem objectsAt_call {system : PoolSystem Source α} {id : UInt64} {phase : WorkerPhase α}
    (within : system.calls id = some phase) :
    system.objectsAt (.call id) = inTransit phase := by
  rw [objectsAt, within]

theorem objectsAt_call_idle {system : PoolSystem Source α} {id : UInt64}
    (idle : system.calls id = none) : system.objectsAt (.call id) = [] := by
  rw [objectsAt, idle]

/-- What changes in some places only changes there in the inventory. -/
theorem inventory_split {before after : PoolSystem Source α} {touched : List Place}
    (once : touched.Nodup)
    (same : ∀ place, place ∉ touched → after.objectsAt place = before.objectsAt place) :
    ∃ others, before.inventory.Perm (touched.flatMap before.objectsAt ++ others) ∧
      after.inventory.Perm (touched.flatMap after.objectsAt ++ others) := by
  have split := Place.all_perm once
  refine ⟨(Place.all.filter fun place => !(place ∈ touched)).flatMap before.objectsAt, ?_, ?_⟩
  · refine (split.flatMap_right before.objectsAt).trans (List.Perm.of_eq ?_)
    rw [List.flatMap_append]
  · refine (split.flatMap_right after.objectsAt).trans (List.Perm.of_eq ?_)
    rw [List.flatMap_append]
    congr 1
    refine List.flatMap_congr fun place listed => same place ?_
    simpa using (List.mem_filter.mp listed).2

theorem objectsAt_worked_other (system : PoolSystem Source α) {id : UInt64} {place : Place}
    (other : place ∉ Place.around id)
    (after : Workplace Source α × Progress (WorkerPhase α) (WorkerOutcome α)) :
    (system.worked id after).objectsAt place = system.objectsAt place := by
  cases place with
  | callers => simp [Place.around] at other
  | shared => simp [Place.around] at other
  | cache worker =>
      have apart : id.toNat ≠ worker.toNat := fun same => by
        simp [Place.around, UInt64.toNat_inj.mp same] at other
      have kept : (system.worked id after).pool.slots[worker.toNat]? =
          system.pool.slots[worker.toNat]? := Array.getElem?_setIfInBounds_ne apart
      simp only [objectsAt, kept]
  | call worker =>
      have different : worker ≠ id := fun same => by simp [Place.around, same] at other
      simp only [objectsAt, worked, if_neg different]

theorem flatMap_around (system : PoolSystem Source α) (id : UInt64) :
    (Place.around id).flatMap system.objectsAt =
      system.held ++ (system.pool.shared.toList ++
        (system.objectsAt (.cache id) ++ system.objectsAt (.call id))) := by
  simp only [Place.around, List.flatMap_cons, List.flatMap_nil, List.append_nil]
  rfl

/-- The objects around a worker: those its call carries, those on its desk and those
that callers hold. -/
theorem objectsAt_around (system : PoolSystem Source α) {id : UInt64} {slot : WorkerSlot α}
    {phase : WorkerPhase α} (found : system.pool.slots[id.toNat]? = some slot)
    (within : system.calls id = some phase) :
    (inTransit phase ++ slot.cache.toList ++ system.pool.shared.toList ++ system.held).Perm
      ((Place.around id).flatMap system.objectsAt) := by
  rw [flatMap_around, objectsAt_cache found, objectsAt_call within]
  refine (List.perm_append_comm).trans ?_
  refine List.Perm.append_left _ ?_
  refine (List.perm_append_comm).trans (List.Perm.append_left _ List.perm_append_comm)

theorem objectsAt_worked (system : PoolSystem Source α) {id : UInt64} {slot : WorkerSlot α}
    (found : system.pool.slots[id.toNat]? = some slot)
    (after : Workplace Source α × Progress (WorkerPhase α) (WorkerOutcome α)) :
    ((Place.around id).flatMap (system.worked id after).objectsAt).Perm
      (carried after.2 ++ after.1.slot.cache.toList ++ after.1.shared.toList ++ system.held) := by
  have changed := system.worked_slot found after
  have own := system.worked_call id after
  obtain ⟨place, progress⟩ := after
  cases progress with
  | running phase =>
      exact (objectsAt_around _ changed own).symm
  | returned outcome =>
      rw [flatMap_around, objectsAt_cache changed, objectsAt_call_idle own, List.append_nil]
      change (handedOut (.returned outcome) ++ system.held ++
        (place.shared.toList ++ place.slot.cache.toList)).Perm _
      rw [List.append_assoc, List.append_assoc, List.append_assoc, carried]
      refine List.Perm.append_left _ ?_
      refine List.perm_append_comm.trans ?_
      rw [← List.append_assoc]
      exact List.perm_append_comm.append_right _

section Balance

variable [DecidableEq α]

def Balanced (system : PoolSystem (Recorded Source α) α) : Prop :=
  Balances system.inventory system.pool.source.calls

namespace Balanced

variable {system : PoolSystem (Recorded Source α) α}

theorem rearranged (balanced : system.Balanced) {after : PoolSystem (Recorded Source α) α}
    (touched : List Place) (once : touched.Nodup)
    (same : ∀ place, place ∉ touched → after.objectsAt place = system.objectsAt place)
    (perm : (touched.flatMap after.objectsAt).Perm (touched.flatMap system.objectsAt))
    (source : after.pool.source = system.pool.source) : after.Balanced := by
  obtain ⟨others, old, new⟩ := inventory_split once same
  rw [Balanced, source]
  exact Balances.moved balanced (new.trans ((perm.append_right others).trans old.symm))

theorem guarded (balanced : system.Balanced) {id : UInt64} {slot : WorkerSlot α}
    (found : system.pool.slots[id.toNat]? = some slot) (claimed : Bool) :
    (system.guarded id slot claimed).Balanced := by
  refine balanced.rearranged [] List.nodup_nil (fun place _ => ?_) (List.Perm.refl _) rfl
  cases place with
  | callers => rfl
  | shared => rfl
  | call other => rfl
  | cache other =>
      by_cases equal : id.toNat = other.toNat
      · have changed : (system.guarded id slot claimed).pool.slots[other.toNat]? =
            some { slot with claimed } := by
          rw [← equal]
          exact system.guarded_slot found claimed
        rw [equal] at found
        rw [objectsAt_cache changed, objectsAt_cache found]
      · have kept : (system.guarded id slot claimed).pool.slots[other.toNat]? =
            system.pool.slots[other.toNat]? := Array.getElem?_setIfInBounds_ne equal
        simp only [objectsAt, kept]

theorem begun (balanced : system.Balanced) {move : PoolMove α} {id : UInt64}
    {phase : WorkerPhase α} {held : List α} (idle : system.calls id = none)
    (opens : Opens system.held move id phase held) : (system.begun id phase held).Balanced := by
  refine balanced.rearranged [.callers, .call id] (by simp) (fun place other => ?_) ?_ rfl
  · cases place with
    | callers => simp at other
    | shared => rfl
    | cache => rfl
    | call worker =>
        have different : worker ≠ id := by rintro rfl; simp at other
        simp only [objectsAt, PoolSystem.begun, setCall, if_neg different]
  · have calling : (system.begun id phase held).calls id = some phase := if_pos rfl
    simp only [List.flatMap_cons, List.flatMap_nil, objectsAt_call calling,
      objectsAt_call_idle idle, List.append_nil]
    cases opens with
    | alloc => exact List.Perm.of_eq (List.append_nil _)
    | flush => exact List.Perm.of_eq (List.append_nil _)
    | free id object owned =>
        exact List.perm_append_comm.trans (List.perm_cons_erase owned).symm

theorem worked [ObjectSource Source α] {localCapacity sharedCapacity : Capacity}
    (balanced : system.Balanced) (tended : system.Tended localCapacity sharedCapacity)
    {id : UInt64} {slot : WorkerSlot α} {phase : WorkerPhase α}
    (found : system.pool.slots[id.toNat]? = some slot)
    (within : system.calls id = some phase) :
    (system.worked id ((system.workplace slot).step system.pool.config phase)).Balanced := by
  obtain ⟨held, sameSlot, fits⟩ := tended.calls id phase within
  rw [found] at sameSlot
  cases sameSlot
  have reached := (tended.tidy found).step system.pool.config phase
  have next := objectsAt_worked system found
    ((system.workplace slot).step system.pool.config phase)
  obtain ⟨others, old, new⟩ := inventory_split (Place.around_nodup id) fun place other =>
    system.objectsAt_worked_other other
      ((system.workplace slot).step system.pool.config phase)
  have desk : Balances ((system.workplace slot).desk.objects (inTransit phase)
      (system.held ++ others)) (system.workplace slot).desk.source.calls := by
    refine Balances.moved balanced (List.Perm.trans ?_ old.symm)
    rw [Desk.objects, ← List.append_assoc]
    exact (objectsAt_around system found within).append_right others
  have kept := (system.workplace slot).desk.step_balances tended.sizing phase fits
    (system.held ++ others) desk
  rw [← reached.desk, ← reached.progress] at kept
  refine Balances.moved kept (new.trans ?_)
  rw [Desk.objects, ← List.append_assoc]
  exact next.append_right others

theorem start [Inhabited α] [ObjectSource Source α] {config : PoolConfig} {source : Source}
    {pool : Pool (Recorded Source α) α}
    (opened : Pool.create config (Recorded.fresh source) = .ok pool) :
    (PoolSystem.start pool).Balanced := by
  obtain ⟨localCapacity, sharedCapacity, -, -, -, slots, given⟩ := Pool.of_create opened
  have nothing : Balances ([] : List α) (Recorded.fresh source : Recorded Source α).calls :=
    ⟨List.Perm.refl [], True.intro⟩
  have balances := allocUpTo_balances (Recorded.fresh source)
    (min config.prealloc sharedCapacity.mask).toNat #[] nothing
  rw [PoolConfig.preallocated] at given
  rw [given] at balances
  refine balances.moved ?_
  have split := Place.all_perm (List.nodup_singleton Place.shared)
  refine (split.flatMap_right (PoolSystem.start pool).objectsAt).trans (List.Perm.of_eq ?_)
  have rest : (Place.all.filter fun place => !(place ∈ [Place.shared])).flatMap
      (PoolSystem.start pool).objectsAt = [] := by
    rw [List.flatMap_eq_nil_iff]
    intro place listed
    have other := (List.mem_filter.mp listed).2
    cases place with
    | callers => rfl
    | shared => simp at other
    | call id => rfl
    | cache id =>
        cases found : (PoolSystem.start pool).pool.slots[id.toNat]? with
        | none => simp only [objectsAt, found]
        | some slot =>
            have listed := Array.mem_of_getElem? found
            change slot ∈ pool.slots at listed
            rw [slots] at listed
            rw [objectsAt_cache found, (Array.mem_replicate.mp listed).2]
            exact Ring.forObjects_toList localCapacity
  rw [List.flatMap_append, rest, List.append_nil, List.flatMap_singleton]
  rfl

variable [ObjectSource Source α] {localCapacity sharedCapacity : Capacity}

/-- No move loses an object of a pool or makes one appear twice. -/
theorem effect (balanced : system.Balanced) (tended : system.Tended localCapacity sharedCapacity)
    {move : PoolMove α} {after : PoolSystem (Recorded Source α) α}
    (effect : PoolEffect system move after) : after.Balanced := by
  cases effect with
  | stays => exact balanced
  | guards id slot claimed found => exact balanced.guarded found claimed
  | begins id slot phase held found idle opens => exact balanced.begun idle opens
  | works id slot phase found within => exact balanced.worked tended found within

theorem run (balanced : system.Balanced) (tended : system.Tended localCapacity sharedCapacity)
    (moves : List (PoolMove α)) :
    (system.run moves).1.Tended localCapacity sharedCapacity ∧
      (system.run moves).1.Balanced :=
  (run_invariant (fun system => system.Tended localCapacity sharedCapacity ∧ system.Balanced)
    (fun _ => True)
    (fun _ holds move => ⟨⟨holds.1.effect (effect_of_next _ move),
      holds.2.effect holds.1 (effect_of_next _ move)⟩, fun _ _ => True.intro⟩)
    ⟨tended, balanced⟩ moves).1

end Balanced

/-- Each object that a source gave and did not get back is in one place and there once,
and every place holds such objects only. -/
structure AccountsForAll (system : PoolSystem (Recorded Source α) α) : Prop where
  somewhere : ∀ object ∈ outstanding system.pool.source.calls,
    ∃! place, object ∈ system.objectsAt place
  once : ∀ place, (system.objectsAt place).Nodup
  known : ∀ place, ∀ object ∈ system.objectsAt place,
    object ∈ outstanding system.pool.source.calls

theorem Balanced.accountsForAll {system : PoolSystem (Recorded Source α) α}
    (balanced : system.Balanced) (fresh : GivesFresh system.pool.source.calls) :
    system.AccountsForAll := by
  have apart : system.inventory.Nodup := balanced.perm.nodup_iff.mpr (outstanding_nodup fresh)
  obtain ⟨once, disjoint⟩ := List.nodup_flatMap.mp apart
  refine ⟨?_, fun place => once place (Place.mem_all place), ?_⟩
  · intro object given
    obtain ⟨place, -, held⟩ := List.mem_flatMap.mp (balanced.perm.mem_iff.mpr given)
    refine ⟨place, held, fun other heldToo => ?_⟩
    by_contra different
    have symmetric : Std.Symm (Function.onFun List.Disjoint system.objectsAt) :=
      ⟨fun _ _ apart => List.disjoint_symm apart⟩
    exact disjoint.forall (Place.mem_all other) (Place.mem_all place) different heldToo held
  · intro place object held
    exact balanced.perm.subset (List.mem_flatMap.mpr ⟨place, Place.mem_all place, held⟩)

section Next

variable [ObjectSource Source α] {localCapacity sharedCapacity : Capacity}

theorem effect_calls {system after : PoolSystem (Recorded Source α) α} {move : PoolMove α}
    (tended : system.Tended localCapacity sharedCapacity)
    (effect : PoolEffect system move after) :
    ∃ call : Option (SourceCall α),
      after.pool.source.calls = call.toList ++ system.pool.source.calls ∧
      ∀ object, call = some (.tookBack object) →
        ∃ id, object ∈ system.objectsAt (.call id) := by
  cases effect with
  | stays => exact ⟨none, rfl, by simp⟩
  | guards => exact ⟨none, rfl, by simp⟩
  | begins => exact ⟨none, rfl, by simp⟩
  | works id slot phase found within =>
      have reached := (tended.tidy found).step system.pool.config phase
      obtain ⟨call, made, back⟩ := (system.workplace slot).desk.step_calls
        system.pool.config localCapacity sharedCapacity phase
      rw [← reached.desk] at made
      refine ⟨call, made, fun object same => ⟨id, ?_⟩⟩
      rw [objectsAt_call within]
      exact back object same

/-- What a caller receives was in a cache or on its way. -/
theorem next_served {system : PoolSystem (Recorded Source α) α}
    (tended : system.Tended localCapacity sharedCapacity) {move : PoolMove α} {id : UInt64}
    {object : α}
    (served : (system.next move).2 = some (.returned id (.served (some object)))) :
    object ∈ system.objectsAt (.call id) ∨ object ∈ system.objectsAt (.cache id) := by
  obtain ⟨slot, phase, -, found, within, returned⟩ := next_returned served
  have reached := (tended.tidy found).step system.pool.config phase
  rw [reached.progress] at returned
  rw [objectsAt_call within, objectsAt_cache found]
  exact (system.workplace slot).desk.mem_of_served phase returned

end Next

end Balance

end PoolSystem

/-- What is promised of the objects of a pool.  Each outstanding object is in one place
and there once, and nothing came back to the source that was not outstanding.  So a worker
that is within no call keeps nothing back: a call has objects only while it is under way
(`idle`, by the definition of places), and one that left something behind would break
`accounts`, as that would then be in no place.  What a caller receives no caller holds; and
what goes back to the source is with one worker's call and nowhere else. -/
structure PoolSystem.KeepsCustody [ObjectSource Source α] [DecidableEq α]
    (system : PoolSystem (Recorded Source α) α) : Prop where
  accounts : system.AccountsForAll
  cameBack : TakesBackOutstanding system.pool.source.calls
  idle : ∀ id, system.calls id = none → system.objectsAt (.call id) = []
  served : ∀ move id object,
    (system.next move).2 = some (.returned id (.served (some object))) →
      object ∉ system.objectsAt .callers
  goesBack : ∀ move, ∃ call : Option (SourceCall α),
    (system.next move).1.pool.source.calls = call.toList ++ system.pool.source.calls ∧
    ∀ object, call = some (.tookBack object) →
      ∃ id, ∀ place, object ∈ system.objectsAt place ↔ place = .call id

/-- As long as its source gives no object that is still outstanding, a pool keeps custody
of its objects: after any run of its workers and callers, whatever the source answers. -/
theorem objects_stay_in_one_place [Inhabited α] [ObjectSource Source α] [DecidableEq α]
    (config : PoolConfig) (source : Source) (pool : Pool (Recorded Source α) α)
    (opened : Pool.create config (Recorded.fresh source) = .ok pool)
    (moves : List (PoolMove α))
    (fresh : GivesFresh ((PoolSystem.start pool).run moves).1.pool.source.calls) :
    ((PoolSystem.start pool).run moves).1.KeepsCustody := by
  obtain ⟨localCapacity, sharedCapacity, tended⟩ := PoolSystem.Tended.start opened []
  obtain ⟨after, balanced⟩ := (PoolSystem.Balanced.start opened).run tended moves
  have accounts := balanced.accountsForAll fresh
  have alone : ∀ {object place other},
      object ∈ ((PoolSystem.start pool).run moves).1.objectsAt place →
      object ∈ ((PoolSystem.start pool).run moves).1.objectsAt other → other = place :=
    fun {object place other} here there =>
      (accounts.somewhere object (accounts.known place object here)).unique there here
  constructor
  case accounts => exact accounts
  case cameBack => exact balanced.tookBack
  case idle => exact fun id => PoolSystem.objectsAt_call_idle
  case served =>
    intro move id object served held
    rcases PoolSystem.next_served after served with carried | cached
    · cases alone carried held
    · cases alone cached held
  case goesBack =>
    intro move
    obtain ⟨call, made, back⟩ := PoolSystem.effect_calls after (PoolSystem.effect_of_next _ move)
    refine ⟨call, made, fun object same => ?_⟩
    obtain ⟨id, carried⟩ := back object same
    exact ⟨id, fun place => ⟨alone carried, fun equal => equal ▸ carried⟩⟩

open PoolSystem (duoConfig duoPool duoMoves duoPool_opens)

def duoSource : Recorded ScriptedSource UInt64 :=
  Recorded.fresh (ScriptedSource.create none [])

def duoCustody : PoolSystem (Recorded ScriptedSource UInt64) UInt64 :=
  ((PoolSystem.start (duoPool duoSource)).run duoMoves).1

theorem duoCustody_fresh : GivesFresh duoCustody.pool.source.calls := by
  decide +kernel

/-- At its end one object was taken back, one is in the shared ring, and two are on
their way through a call. -/
theorem objects_stay_in_one_place_sample :
    duoCustody.pool.source.calls =
      [.tookBack 1, .gave 3, .gave 2, .gave 1, .gave 0] ∧
    duoCustody.objectsAt .shared = [2] ∧
    duoCustody.objectsAt (.call 0) = [3, 0] ∧
    Pool.create duoConfig duoSource = .ok (duoPool duoSource) ∧
    GivesFresh duoCustody.pool.source.calls ∧
    duoCustody.KeepsCustody := by
  have kept := objects_stay_in_one_place duoConfig (ScriptedSource.create none [])
    (duoPool duoSource) (duoPool_opens duoSource) duoMoves
  exact ⟨by decide +kernel, by decide +kernel, by decide +kernel, duoPool_opens _,
    duoCustody_fresh, kept duoCustody_fresh⟩

end RingPool

import RingPool.Proofs.Pool.Calls
import RingPool.Proofs.Pool.Custody

/-!
# Calls on a pool with so many objects

A `Limited` source gives an object just if fewer than a fixed number of its objects are
live.  On such a source an allocation asks the source only when its cache and the shared
ring are empty (`Desk.step_serves`), and no call brings the pool out of order
(`PoolSystem.Sound`).  What follows for a call that nobody interrupts is
`PoolSystem.alloc_returns` and, for calls of the other kinds, `PoolSystem.call_returns`.
-/

set_option autoImplicit false

namespace RingPool

variable {Source α : Type}

/-- A source that gives an object just if fewer than `limit` of its objects are live;
`Live` says which are, and whatever of them is handed back is taken. -/
structure ObjectSource.Limited [ObjectSource Source α] [DecidableEq α] (limit : Nat)
    (Live : Source → List α → Prop) : Prop where
  gives : ∀ source objects, Live source objects → objects.length < limit →
    ∃ object after, ObjectSource.alloc source = (some object, after) ∧
      Live after (object :: objects)
  refuses : ∀ source objects, Live source objects → limit ≤ objects.length →
    ∃ after : Source, ObjectSource.alloc source = ((none : Option α), after) ∧ Live after objects
  takesBack : ∀ source objects object, Live source objects → object ∈ objects →
    Live (ObjectSource.free source object) (objects.erase object)

/-! ## The source -/

/-- The live objects of a source with a record are those that are outstanding, and they
are not too many. -/
structure Recorded.Keeps [DecidableEq α] (limit : Nat) (Live : Source → List α → Prop)
    (recorded : Recorded Source α) : Prop where
  live : Live recorded.source (outstanding recorded.calls)
  few : (outstanding recorded.calls).length ≤ limit

namespace Recorded.Keeps

variable [ObjectSource Source α] [DecidableEq α] {limit : Nat} {Live : Source → List α → Prop}
  {recorded : Recorded Source α}

theorem alloc (keeps : recorded.Keeps limit Live)
    (limited : ObjectSource.Limited limit Live) :
    (limit ≤ (outstanding recorded.calls).length ∧ ∃ after : Recorded Source α,
      ObjectSource.alloc recorded = (none, after) ∧ after.Keeps limit Live ∧
        outstanding after.calls = outstanding recorded.calls) ∨
    ((outstanding recorded.calls).length < limit ∧ ∃ object, ∃ after : Recorded Source α,
      ObjectSource.alloc recorded = (some object, after) ∧ after.Keeps limit Live ∧
        outstanding after.calls = object :: outstanding recorded.calls) := by
  by_cases room : (outstanding recorded.calls).length < limit
  · obtain ⟨object, source, gave, live⟩ := limited.gives _ _ keeps.live room
    refine Or.inr ⟨room, object, ⟨source, .gave object :: recorded.calls⟩, ?_, ⟨live, room⟩, rfl⟩
    simp only [ObjectSource.alloc] at gave ⊢
    rw [gave]
  · have full : limit ≤ (outstanding recorded.calls).length := Nat.le_of_not_lt room
    obtain ⟨source, refused, live⟩ := limited.refuses _ _ keeps.live full
    refine Or.inl ⟨full, ⟨source, .refused :: recorded.calls⟩, ?_, ⟨live, keeps.few⟩, rfl⟩
    simp only [ObjectSource.alloc] at refused ⊢
    rw [refused]

theorem free (keeps : recorded.Keeps limit Live) (limited : ObjectSource.Limited limit Live)
    {object : α} (known : object ∈ outstanding recorded.calls) :
    (ObjectSource.free recorded object).Keeps limit Live :=
  ⟨limited.takesBack _ _ _ keeps.live known, (List.length_erase_le).trans keeps.few⟩

theorem allocUpTo (keeps : recorded.Keeps limit Live)
    (limited : ObjectSource.Limited limit Live) (count : Nat)
    (enough : (outstanding recorded.calls).length + count ≤ limit) (obtained : Array α) :
    (ObjectSource.allocUpTo recorded count obtained).1.size = obtained.size + count ∧
      (ObjectSource.allocUpTo recorded count obtained).2.Keeps limit Live := by
  induction count generalizing recorded obtained with
  | zero => exact ⟨rfl, keeps⟩
  | succ count ih =>
      rw [ObjectSource.allocUpTo]
      rcases keeps.alloc limited with ⟨full, -⟩ | ⟨-, object, after, gave, kept, live⟩
      · omega
      · rw [gave]
        have less : (outstanding after.calls).length + count ≤ limit := by
          rw [live, List.length_cons]
          omega
        obtain ⟨size, keepsAfter⟩ := ih kept less (obtained.push object)
        refine ⟨?_, keepsAfter⟩
        rw [size, Array.size_push]
        omega

end Recorded.Keeps

/-! ## The steps of an allocation -/

def WorkerPhase.Serves : WorkerPhase α → Prop
  | .hit | .refill | .stock _ _ | .ask | .measure _ | .gather _ _ _ | .stow _ _ => True
  | .reclaim _ _ _ (.serve _) => True
  | _ => False

/-- An allocation asks the source after it has found its cache and the shared ring
empty. -/
def WorkerPhase.Dry (cache shared : List α) : WorkerPhase α → Prop
  | .ask => cache = [] ∧ shared = []
  | _ => True

namespace Desk

open PoolSystem (handedOut inTransit)

variable [ObjectSource Source α]

def AllocationGoesOn (before after : Desk Source α) :
    Progress (WorkerPhase α) (WorkerOutcome α) → Prop
  | .running phase => phase.Serves ∧ phase.Dry after.cache after.shared
  | .returned (.served (some _)) => True
  | .returned (.served none) => after.cache = [] ∧ after.shared = [] ∧
      ObjectSource.alloc before.source = (none, after.source)
  | .returned _ => False

theorem allocationGoesOn_reclaimAll (before after : Desk Source α) (object : α)
    (left : List α) :
    AllocationGoesOn before after (Workplace.reclaimAll (.serve object) left) := by
  cases left with
  | nil => exact True.intro
  | cons first rest => exact ⟨True.intro, True.intro⟩

variable {config : PoolConfig} {localCapacity sharedCapacity : Capacity}

theorem step_serves (sizing : config.Fits localCapacity sharedCapacity) (desk : Desk Source α)
    (phase : WorkerPhase α) (fits : phase.Fits config localCapacity desk.cache)
    (serves : phase.Serves) (dry : phase.Dry desk.cache desk.shared) :
    AllocationGoesOn desk (desk.step config localCapacity sharedCapacity phase).1
        (desk.step config localCapacity sharedCapacity phase).2 ∧
      desk.cache.length ≤ (desk.step config localCapacity sharedCapacity phase).1.cache.length +
        (handedOut (desk.step config localCapacity sharedCapacity phase).2).length := by
  cases phase with
  | hit =>
      rw [Desk.step]
      split
      case h_1 object cache items => simp [AllocationGoesOn, handedOut, count, items]
      case h_2 empty => exact ⟨⟨True.intro, True.intro⟩, Nat.le_add_right _ _⟩
  | refill =>
      have empty : desk.cache = [] := fits
      have bulk := sizing.bulkSize_pos
      rw [Desk.step]
      split
      case h_1 nothing =>
          refine ⟨⟨True.intro, empty, ?_⟩, Nat.le_add_right _ _⟩
          have none := List.take_eq_nil_iff.mp nothing
          exact none.resolve_left (by omega)
      case h_2 => exact ⟨⟨True.intro, True.intro⟩, Nat.le_add_right _ _⟩
  | stock object rest =>
      have room := rest_le_vacancy sizing fits
      rw [Desk.step, if_pos room]
      refine ⟨True.intro, ?_⟩
      rw [List.length_append]
      omega
  | ask =>
      obtain ⟨empty, nothing⟩ := dry
      rw [Desk.step]
      split
      case h_1 source refused => exact ⟨⟨empty, nothing, refused⟩, Nat.le_add_right _ _⟩
      case h_2 => exact ⟨⟨True.intro, True.intro⟩, Nat.le_add_right _ _⟩
  | measure object => exact ⟨⟨True.intro, True.intro⟩, Nat.le_add_right _ _⟩
  | gather object more burst =>
      cases more with
      | zero => exact ⟨⟨True.intro, True.intro⟩, Nat.le_add_right _ _⟩
      | succ more =>
          rw [Desk.step]
          split <;> exact ⟨⟨True.intro, True.intro⟩, Nat.le_add_right _ _⟩
  | stow object burst =>
      exact ⟨allocationGoesOn_reclaimAll _ _ object _, Nat.le_add_right _ _⟩
  | reclaim object rest before onward =>
      cases onward with
      | serve kept =>
          cases rest with
          | nil => exact ⟨True.intro, Nat.le_add_right _ _⟩
          | cons next rest => exact ⟨⟨True.intro, True.intro⟩, Nat.le_add_right _ _⟩
      | retry | check => cases serves
  | put | retry | check | unload | offload => cases serves

/-- A step leaves the source as it is, asks it for an object or hands one back that the
call carries. -/
theorem step_source (desk : Desk Source α) (phase : WorkerPhase α) :
    (desk.step config localCapacity sharedCapacity phase).1.source = desk.source ∨
    (desk.step config localCapacity sharedCapacity phase).1.source =
      (ObjectSource.alloc desk.source).2 ∨
    ∃ object ∈ inTransit phase, (desk.step config localCapacity sharedCapacity phase).1.source =
      ObjectSource.free desk.source object := by
  cases phase with
  | hit | refill | put | retry | check | unload =>
      rw [Desk.step]
      split <;> exact Or.inl rfl
  | stock | measure | stow | offload => exact Or.inl rfl
  | ask =>
      rw [Desk.step]
      split
      case h_1 source refused => exact Or.inr (Or.inl (congrArg Prod.snd refused).symm)
      case h_2 object source gave => exact Or.inr (Or.inl (congrArg Prod.snd gave).symm)
  | gather object more burst =>
      cases more with
      | zero => exact Or.inl rfl
      | succ more =>
          rw [Desk.step]
          split
          case h_1 source refused => exact Or.inr (Or.inl (congrArg Prod.snd refused).symm)
          case h_2 extra source gave => exact Or.inr (Or.inl (congrArg Prod.snd gave).symm)
  | reclaim object rest before onward =>
      exact Or.inr (Or.inr ⟨object, List.mem_cons_self, by cases rest <;> rfl⟩)

end Desk

namespace PoolSystem

section Calls

variable [DecidableEq α]

/-- A pool in order: its rings are shelves, all its objects are accounted for, and its
source is in one of the states that are described. -/
structure Sound (limit : Nat) (Live : Source → List α → Prop)
    (localCapacity sharedCapacity : Capacity) (system : PoolSystem (Recorded Source α) α) :
    Prop where
  tended : system.Tended localCapacity sharedCapacity
  balanced : system.Balanced
  source : system.pool.source.Keeps limit Live

variable {limit : Nat} {Live : Source → List α → Prop} {localCapacity sharedCapacity : Capacity}
  {system : PoolSystem (Recorded Source α) α} {id : UInt64} {slot : WorkerSlot α}
  {phase : WorkerPhase α}

theorem Sound.begun (sound : system.Sound limit Live localCapacity sharedCapacity)
    {move : PoolMove α} {held : List α} (found : system.pool.slots[id.toNat]? = some slot)
    (idle : system.calls id = none) (opens : Opens system.held move id phase held) :
    (system.begun id phase held).Sound limit Live localCapacity sharedCapacity :=
  ⟨sound.tended.begun found opens, sound.balanced.begun idle opens, sound.source⟩

variable [ObjectSource Source α]

theorem Sound.worked (sound : system.Sound limit Live localCapacity sharedCapacity)
    (limited : ObjectSource.Limited limit Live)
    (found : system.pool.slots[id.toNat]? = some slot) (within : system.calls id = some phase) :
    (system.worked id ((system.workplace slot).step system.pool.config phase)).Sound limit Live
      localCapacity sharedCapacity := by
  have balanced := sound.balanced.worked sound.tended found within
  refine ⟨sound.tended.worked found within, balanced, ?_⟩
  have reached := (sound.tended.tidy found).step system.pool.config phase
  have source : ((system.workplace slot).step system.pool.config phase).1.source =
      ((system.workplace slot).desk.step system.pool.config localCapacity sharedCapacity
        phase).1.source := congrArg Desk.source reached.desk
  change ((system.workplace slot).step system.pool.config phase).1.source.Keeps limit Live
  rcases (system.workplace slot).desk.step_source phase with same | asked | ⟨object, -, back⟩
  · rw [source, same]
    exact sound.source
  · rw [source, asked]
    rcases sound.source.alloc limited with ⟨-, after, answer, keeps, -⟩ |
      ⟨-, object, after, answer, keeps, -⟩
    · exact (congrArg Prod.snd answer).symm ▸ keeps
    · exact (congrArg Prod.snd answer).symm ▸ keeps
  · -- Whatever comes back is outstanding, as the balance says.
    have tookBack : TakesBackOutstanding
        ((system.workplace slot).step system.pool.config phase).1.source.calls :=
      balanced.tookBack
    rw [source, back] at tookBack ⊢
    exact sound.source.free limited tookBack.1

structure LedTo (start : PoolSystem (Recorded Source α) α) (id : UInt64) (limit : Nat)
    (Live : Source → List α → Prop) (localCapacity sharedCapacity : Capacity)
    (system : PoolSystem (Recorded Source α) α) : Prop where
  sound : system.Sound limit Live localCapacity sharedCapacity
  others : ∀ other, other ≠ id → system.calls other = none
  slots : ∀ index, index ≠ id.toNat → system.pool.slots[index]? = start.pool.slots[index]?
  size : system.pool.slots.size = start.pool.slots.size
  held : system.calls id ≠ none → system.held = start.held

variable {start : PoolSystem (Recorded Source α) α}

theorem LedTo.worked (led : LedTo start id limit Live localCapacity sharedCapacity system)
    (limited : ObjectSource.Limited limit Live)
    (found : system.pool.slots[id.toNat]? = some slot) (within : system.calls id = some phase) :
    LedTo start id limit Live localCapacity sharedCapacity
      (system.worked id ((system.workplace slot).step system.pool.config phase)) where
  sound := led.sound.worked limited found within
  others := fun other different => (if_neg different).trans (led.others other different)
  slots := fun index different =>
    (Array.getElem?_setIfInBounds_ne (Ne.symm different)).trans (led.slots index different)
  size := Array.size_setIfInBounds.trans led.size
  held := by
    intro goes
    have before := led.held (by simp [within])
    have own : (system.worked id ((system.workplace slot).step system.pool.config phase)).calls
        id = callAfter ((system.workplace slot).step system.pool.config phase).2 := if_pos rfl
    rw [own] at goes
    change handedOut _ ++ system.held = start.held
    generalize ((system.workplace slot).step system.pool.config phase).2 = progress at goes ⊢
    cases progress with
    | running later => exact before
    | returned outcome => exact absurd rfl goes

structure Returned (start : PoolSystem (Recorded Source α) α) (id : UInt64) (limit : Nat)
    (Live : Source → List α → Prop) (localCapacity sharedCapacity : Capacity)
    (after : PoolSystem (Recorded Source α) α) : Prop where
  sound : after.Sound limit Live localCapacity sharedCapacity
  idle : ∀ other, after.calls other = none
  slots : ∀ index, index ≠ id.toNat → after.pool.slots[index]? = start.pool.slots[index]?
  size : after.pool.slots.size = start.pool.slots.size

omit [ObjectSource Source α] in
theorem LedTo.returned {place : Workplace (Recorded Source α) α} {outcome : WorkerOutcome α}
    (led : LedTo start id limit Live localCapacity sharedCapacity
      (system.worked id (place, .returned outcome))) :
    Returned start id limit Live localCapacity sharedCapacity
      (system.worked id (place, .returned outcome)) where
  sound := led.sound
  idle := by
    intro other
    by_cases same : other = id
    · exact if_pos same
    · exact led.others other same
  slots := led.slots
  size := led.size

omit [ObjectSource Source α] in
theorem LedTo.begins (sound : start.Sound limit Live localCapacity sharedCapacity)
    (idle : ∀ other, start.calls other = none)
    (found : start.pool.slots[id.toNat]? = some slot) {move : PoolMove α} {held : List α}
    (opens : Opens start.held move id phase held) :
    LedTo (start.begun id phase held) id limit Live localCapacity sharedCapacity
      (start.begun id phase held) where
  sound := sound.begun found (idle id) opens
  others := fun other different => (if_neg different).trans (idle other)
  slots := fun _ _ => rfl
  size := rfl
  held := fun _ => rfl

structure Serving (start : PoolSystem (Recorded Source α) α) (id : UInt64) (limit : Nat)
    (Live : Source → List α → Prop) (localCapacity sharedCapacity : Capacity) (cached : Nat)
    (system : PoolSystem (Recorded Source α) α) : Prop where
  led : LedTo start id limit Live localCapacity sharedCapacity system
  stands : ∀ slot phase, system.pool.slots[id.toNat]? = some slot →
    system.calls id = some phase → phase.Serves ∧
      phase.Dry slot.cache.toList system.pool.shared.toList ∧ cached ≤ slot.cache.toList.length

variable {cached : Nat}

theorem Serving.step
    (serving : Serving start id limit Live localCapacity sharedCapacity cached system)
    (found : system.pool.slots[id.toNat]? = some slot) (within : system.calls id = some phase) :
    Desk.AllocationGoesOn (system.workplace slot).desk
        ((system.workplace slot).step system.pool.config phase).1.desk
        ((system.workplace slot).step system.pool.config phase).2 ∧
      cached ≤ ((system.workplace slot).step system.pool.config phase).1.slot.cache.toList.length +
        (handedOut ((system.workplace slot).step system.pool.config phase).2).length := by
  obtain ⟨serves, dry, lost⟩ := serving.stands slot phase found within
  have tended := serving.led.sound.tended
  obtain ⟨held, foundHeld, fits⟩ := tended.calls id phase within
  cases found.symm.trans foundHeld
  have reached := (tended.tidy found).step system.pool.config phase
  obtain ⟨goesOn, gives⟩ := (system.workplace slot).desk.step_serves tended.sizing phase fits
    serves dry
  rw [← reached.desk, ← reached.progress] at goesOn gives
  exact ⟨goesOn, lost.trans gives⟩

theorem Serving.worked
    (serving : Serving start id limit Live localCapacity sharedCapacity cached system)
    (limited : ObjectSource.Limited limit Live)
    (found : system.pool.slots[id.toNat]? = some slot) (within : system.calls id = some phase) :
    Serving start id limit Live localCapacity sharedCapacity cached
      (system.worked id ((system.workplace slot).step system.pool.config phase)) := by
  obtain ⟨goesOn, gives⟩ := serving.step found within
  refine ⟨serving.led.worked limited found within, ?_⟩
  intro changed later foundLater withinLater
  have own := system.worked_call id ((system.workplace slot).step system.pool.config phase)
  have same := system.worked_slot found ((system.workplace slot).step system.pool.config phase)
  rw [own] at withinLater
  cases same.symm.trans foundLater
  change _ ∧ later.Dry _ ((system.workplace slot).step system.pool.config phase).1.shared.toList ∧ _
  generalize (system.workplace slot).step system.pool.config phase = after at *
  obtain ⟨place, progress⟩ := after
  cases progress with
  | returned outcome => cases withinLater
  | running next =>
      cases withinLater
      exact ⟨goesOn.1, goesOn.2, gives⟩

/-- An allocation that nobody interrupts gives an object or none.  What its worker's
cache loses it gives, and if it gives none, that cache and the shared ring are empty and
the source has nothing left. -/
theorem alloc_returns (sound : start.Sound limit Live localCapacity sharedCapacity)
    (limited : ObjectSource.Limited limit Live) (idle : ∀ other, start.calls other = none)
    (found : start.pool.slots[id.toNat]? = some slot) :
    ∃ after changed given, start.pool.alloc id = (after.pool, .served given) ∧
      Returned start id limit Live localCapacity sharedCapacity after ∧
      after.held = given.toList ++ start.held ∧
      after.pool.slots[id.toNat]? = some changed ∧
      slot.cache.toList.length ≤ changed.cache.toList.length + given.toList.length ∧
      (given = none → changed.cache.toList = [] ∧ after.pool.shared.toList = [] ∧
        limit ≤ (outstanding after.pool.source.calls).length) := by
  have begins := LedTo.begins sound idle found (.alloc id)
  have own : (start.begun id .hit start.held).calls id = some .hit := if_pos rfl
  have serving : Serving (start.begun id .hit start.held) id limit Live localCapacity
      sharedCapacity slot.cache.toList.length (start.begun id .hit start.held) := by
    refine ⟨begins, fun other phase foundOther within => ?_⟩
    have same : some slot = some other := found.symm.trans foundOther
    cases same
    cases own.symm.trans within
    exact ⟨True.intro, True.intro, Nat.le_refl _⟩
  obtain ⟨last, lastSlot, lastPhase, place, outcome, holds, foundLast, withinLast, lastStep, ran⟩ :=
    run_returns _ id (fun _ serving => serving.led.sound.tended)
      (fun _ _ _ serving found within => serving.worked limited found within) serving found own
      (Or.inl rfl)
  obtain ⟨goesOn, gives⟩ := holds.step foundLast withinLast
  have led := holds.led.worked limited foundLast withinLast
  have heldLast := holds.led.held (by simp [withinLast])
  rw [lastStep] at goesOn gives led
  have returned := led.returned
  have changed := last.worked_slot foundLast (place, .returned outcome)
  cases outcome with
  | done | panicked => cases goesOn
  | served given =>
      refine ⟨last.worked id (place, .returned (.served given)), place.slot, given, ran,
        ⟨returned.sound, returned.idle, returned.slots, returned.size⟩, ?_, changed, ?_, ?_⟩
      · change handedOut _ ++ last.held = _
        rw [heldLast]
        cases given <;> rfl
      · cases given <;> exact gives
      · rintro rfl
        obtain ⟨empty, nothing, refused⟩ := goesOn
        refine ⟨empty, nothing, ?_⟩
        rcases holds.led.sound.source.alloc limited with ⟨full, after, answer, -, live⟩ |
          ⟨-, object, after, answer, -, -⟩
        · cases refused.symm.trans answer
          exact full.trans (congrArg List.length live).ge
        · cases refused.symm.trans answer

theorem call_returns (sound : start.Sound limit Live localCapacity sharedCapacity)
    (limited : ObjectSource.Limited limit Live) (idle : ∀ other, start.calls other = none)
    (found : start.pool.slots[id.toNat]? = some slot) {move : PoolMove α} {held : List α}
    (opens : Opens start.held move id phase held) :
    ∃ after outcome, start.pool.run id phase = (after.pool, outcome) ∧
      Returned start id limit Live localCapacity sharedCapacity after ∧
      after.held = handedOut (.returned outcome) ++ held := by
  have begins := LedTo.begins sound idle found opens
  have own : (start.begun id phase held).calls id = some phase := if_pos rfl
  have opening : phase = .hit ∨ (∃ object, phase = .put object) ∨ phase = .check := by
    cases opens with
    | alloc => exact Or.inl rfl
    | free id object owned => exact Or.inr (Or.inl ⟨object, rfl⟩)
    | flush => exact Or.inr (Or.inr rfl)
  obtain ⟨last, lastSlot, lastPhase, place, outcome, holds, foundLast, withinLast, lastStep, ran⟩ :=
    run_returns _ id (fun _ led => led.sound.tended)
      (fun _ _ _ led found within => led.worked limited found within) begins found own opening
  have led := holds.worked limited foundLast withinLast
  rw [lastStep] at led
  have returned := led.returned
  refine ⟨last.worked id (place, .returned outcome), outcome, ran,
    ⟨returned.sound, returned.idle, returned.slots, returned.size⟩, ?_⟩
  exact congrArg (handedOut (.returned outcome) ++ ·) (holds.held (by simp [withinLast]))

end Calls

end PoolSystem

end RingPool

import RingPool.Proofs.Ring.Acts

/-!
# Blocking operations move one element or none

A blocking operation hands its element into attempt after attempt, while others act as they like
and the clock shows what it likes.  `Pending` says where its loop stands: between two attempts the
actor owns what it owned when it entered, within one (`Attempting`) at most one reservation more.
One step of the loop keeps this or ends it (`Pending.next`), and acts of others do not touch it.

Main statement: what is observed of a blocking operation that returns are rounds, each with an
attempt that was refused and a reading before the deadline, and then one attempt that succeeded, or
one that was refused and a reading after the deadline.  The actor then owns one published slot with
the element more than when it entered, or just what it owned then.
-/

set_option autoImplicit false

namespace RingPool

variable {actors : Nat} {α : Type}

/-! ## What an errand comes to -/

namespace Errand

def Moves : Errand α → α → Prop
  | .enqueue item, moved => moved = item
  | .dequeue, _ => True

def refusal : Errand α → RingReceipt α
  | .enqueue item => .full [item]
  | .dequeue => .taken []

def success : Errand α → α → RingReceipt α
  | .enqueue _, item => .stored none [item] []
  | .dequeue, item => .taken [item]

def done : Errand α → α → WaitAnswer α
  | .enqueue _, _ => .stored
  | .dequeue, item => .taken item

/-- What is observed of an attempt that is refused and of the test of the deadline after it. -/
def round (errand : Errand α) (actor : Fin actors) (reading : Nat) : List (WaitEvent actors α) :=
  [.reported (.moved actor errand.order errand.refusal), .tested actor reading]

variable (errand : Errand α)

theorem requested_order : errand.order.requested = 1 := by
  cases errand <;> rfl

theorem asks : errand.order.requested ≠ 0 := by
  rw [errand.requested_order]
  decide

theorem whole_order : errand.order.whole = true := by
  cases errand <;> rfl

theorem refused_order (policy : TransferPolicy) (available : UInt32) :
    errand.order.refused policy available = errand.refusal := by
  cases errand <;> rfl

theorem afterAttempt_refusal : errand.afterAttempt errand.refusal = .running errand := by
  cases errand <;> rfl

theorem afterAttempt_success (item : α) :
    errand.afterAttempt (errand.success item) = .returned (errand.done item) := by
  cases errand <;> rfl

theorem done_ne_givenUp (item : α) : errand.done item ≠ errand.givenUp := by
  cases errand <;> simp [done, givenUp]

end Errand

/-! ## Attempts -/

/-- An actor owns one grant more than before, and else what it owned: a published slot of a side,
with an element. -/
def RingSystem.GainsOne (before after : RingSystem actors α) (actor : Fin actors) (side : Side)
    (item : α) : Prop :=
  ∃ index granted, before.own actor index = none ∧ after.own actor index = some granted ∧
    (∀ other, other ≠ index → after.own actor other = before.own actor other) ∧
    granted.reservation.side = side ∧ granted.values = [some item] ∧ granted.published = true

/-- An actor is within a transfer that it began when it owned what it owned in `base`.  Since then
its claim may have been granted, for all slots that it asks for. -/
structure Attempting (base : RingSystem actors α) (busy : BusyRing actors α) (actor : Fin actors)
    (transfer : RingTransfer α) : Prop where
  within : busy.tasks actor = some (.transfer transfer)
  kept : ∀ index, (∀ haul ∈ transfer.haul?, haul.grant ≠ index) →
    busy.system.own actor index = base.own actor index
  gained : ∀ haul ∈ transfer.haul?, base.own actor haul.grant = none ∧
    haul.reservation.len = transfer.order.requested

/-- Where a further step of an attempt leads, and what is observed: the attempt goes on, it is
refused and the actor owns what it owned before, or it is over with the reservation published. -/
inductive AttemptStep (base : RingSystem actors α) (busy : BusyRing actors α) (actor : Fin actors)
    (transfer : RingTransfer α) (after : BusyRing actors α) :
    Option (RingReport actors α) → Prop where
  | goesOn (later : RingTransfer α) (same : later.order = transfer.order)
      (attempting : Attempting base after actor later) :
      AttemptStep base busy actor transfer after none
  | refused (available : UInt32) (idle : after.tasks actor = none)
      (kept : ∀ index, after.system.own actor index = base.own actor index) :
      AttemptStep base busy actor transfer after
        (some (.moved actor transfer.order (transfer.order.refused busy.policy available)))
  | publishes (haul : Haul α) (granted : Grant α) (idle : after.tasks actor = none)
      (carried : Carried busy.system actor transfer.order transfer.exclusive haul granted)
      (complete : haul.moved.length = granted.size)
      (all : haul.reservation.len = transfer.order.requested)
      (fresh : base.own actor haul.grant = none)
      (owned : after.system.own actor haul.grant = some granted.settle)
      (kept : ∀ index, index ≠ haul.grant →
        after.system.own actor index = base.own actor index) :
      AttemptStep base busy actor transfer after
        (some (.moved actor transfer.order (transfer.order.receipt busy.ring haul)))

namespace Attempting

variable {base : RingSystem actors α} {busy : BusyRing actors α} {actor : Fin actors}
  {transfer : RingTransfer α}

theorem others (attempting : Attempting base busy actor transfer) {act : RingAct actors α}
    {after : BusyRing actors α} {report : Option (RingReport actors α)}
    (effect : ActEffect busy act after report) (different : actor ≠ act.actor) :
    Attempting base after actor transfer where
  within := (effect.tasks_other different).trans attempting.within
  kept := by
    intro index other
    rw [RingSystem.own_of_undisturbed effect.undisturbed different]
    exact attempting.kept index other
  gained := attempting.gained

theorem advance (attempting : Attempting base busy actor transfer) (engaged : Engaged busy)
    (whole : transfer.order.whole = true) (refused : Bool) :
    AttemptStep base busy actor transfer (busy.next (.advance actor refused)).1
      (busy.next (.advance actor refused)).2 := by
  have effect := engaged.effect_of_next (.advance actor refused)
  generalize (busy.next (.advance actor refused)).1 = after at effect ⊢
  generalize (busy.next (.advance actor refused)).2 = report at effect ⊢
  obtain ⟨within, kept, gained⟩ := attempting
  cases effect with
  | stays _ outOfPlace => cases outOfPlace.symm.trans within
  | countLooks _ _ _ _ counting | counted _ _ _ counting => cases counting.symm.trans within
  | claimGoesOn _ _ order exclusive later since claiming =>
      cases claiming.symm.trans within
      exact .goesOn _ rfl ⟨BusyRing.turned_tasks_self _ _ _ _, kept, gained⟩
  | claimRefused _ _ order exclusive available claiming =>
      cases claiming.symm.trans within
      refine .refused available (BusyRing.turned_tasks_self _ _ _ _) fun index => ?_
      exact kept index fun haul none => nomatch none
  | claimGranted _ _ order exclusive offer claiming suits =>
      cases claiming.symm.trans within
      have before : ∀ index, busy.system.own actor index = base.own actor index :=
        fun index => kept index fun haul none => nomatch none
      have all : offer.len = order.requested := suits.whole (by rw [RingOrder.request, whole]; rfl)
      refine .goesOn ⟨order, exclusive, .moving ⟨busy.system.grants.length, offer, []⟩⟩ rfl
        ⟨BusyRing.worked_tasks_self _ _ _ _, ?_, ?_⟩
      · intro index other
        rw [← before index]
        exact RingSystem.own_append rfl (Ne.symm (other _ rfl))
      · intro haul has
        cases Option.mem_some.mp has
        exact ⟨(before _).symm.trans (busy.system.own_length actor), all⟩
  | accesses _ _ order exclusive haul granted memory item moving =>
      cases moving.symm.trans within
      refine .goesOn ⟨order, exclusive, .moving (haul.add item)⟩ rfl
        ⟨BusyRing.worked_tasks_self _ _ _ _, ?_, ?_⟩
      · intro index other
        have different : haul.grant ≠ index := other (haul.add item) rfl
        have same :
            (busy.system.accessed memory haul.grant granted haul.moved.length item).own actor
              index = _ := RingSystem.own_set rfl (Ne.symm different)
        refine same.trans (kept index fun held has => ?_)
        cases Option.mem_some.mp has
        exact different
      · intro held has
        cases Option.mem_some.mp has
        exact gained haul rfl
  | publicationGoesOn _ _ order exclusive stage haul granted later since working stands =>
      cases working.symm.trans within
      refine .goesOn ⟨order, exclusive, .publishing haul⟩ rfl ?_
      rcases stands with rfl | rfl <;>
        exact ⟨BusyRing.turned_tasks_self _ _ _ _, kept, gained⟩
  | publicationSettles _ _ order exclusive haul granted reservation publishing carried done =>
      cases publishing.symm.trans within
      obtain ⟨fresh, all⟩ := gained haul rfl
      have grants := carried.published_grants reservation
      refine .publishes haul granted (BusyRing.worked_tasks_self _ _ _ _) carried done all fresh
        ?_ ?_
      · refine RingSystem.own_eq_some.mpr ⟨?_, carried.holder⟩
        have inside := (List.getElem?_eq_some_iff.mp carried.found).1
        exact (congrArg (·[haul.grant]?) grants).trans (List.getElem?_set_self inside)
      · intro index different
        have same : (busy.system.published haul.grant reservation).own actor index = _ :=
          RingSystem.own_set grants different
        refine same.trans (kept index fun held has => ?_)
        cases Option.mem_some.mp has
        exact Ne.symm different

end Attempting

/-- A reservation for all that an errand asks for has one slot, and so one element is moved. -/
theorem Errand.moved_of_carried (errand : Errand α) {system : RingSystem actors α}
    {actor : Fin actors} {exclusive : Bool} {haul : Haul α} {granted : Grant α}
    (carried : Carried system actor errand.order exclusive haul granted)
    (complete : haul.moved.length = granted.size)
    (all : haul.reservation.len = errand.order.requested) (ring : Ring α) :
    ∃ item, errand.Moves item ∧ granted.values = [some item] ∧
      errand.order.receipt ring haul = errand.success item := by
  have one : haul.moved.length = 1 := by
    rw [complete, carried.size_eq, all, requested_order]
    rfl
  obtain ⟨item, moved⟩ := List.length_eq_one_iff.mp one
  have values : granted.values = [some item] := by
    rw [carried.values, complete, Nat.sub_self, moved]
    rfl
  refine ⟨item, ?_, values, ?_⟩
  · cases errand with
    | dequeue => trivial
    | enqueue brought =>
        obtain ⟨front, -⟩ := carried.brought rfl
        rw [moved] at front
        exact (List.cons.inj front).1
  · cases errand with
    | dequeue => exact congrArg RingReceipt.taken moved
    | enqueue brought =>
        rw [requested_order] at all
        change RingReceipt.stored none haul.moved ([brought].drop haul.reservation.len.toNat) = _
        rw [moved, all]
        rfl

/-! ## Whose act, whose event -/

def WaitAct.actor : WaitAct actors α → Fin actors
  | .ring act => act.actor
  | .wait actor _ _ _ | .advance actor _ _ => actor

def WaitEvent.actor : WaitEvent actors α → Fin actors
  | .reported report => report.actor
  | .tested actor _ | .overflowed actor | .answered actor _ => actor

def WaitEvent.isOf (actor : Fin actors) (event : WaitEvent actors α) : Bool :=
  event.actor == actor

/-- What an actor's step changes: its own loop, the ring by one act of its own, and what is
observed of itself. -/
structure WaitingRing.Affects (actor : Fin actors) (before after : WaitingRing actors α)
    (events : List (WaitEvent actors α)) : Prop where
  waits : ∀ other, other ≠ actor → after.waits other = before.waits other
  busy : after.busy = before.busy ∨
    ∃ act : RingAct actors α, act.actor = actor ∧ after.busy = (before.busy.next act).1
  events : ∀ event ∈ events, event.actor = actor

namespace WaitingRing

variable {waiting : WaitingRing actors α}

@[simp] theorem looped_waits_self (waiting : WaitingRing actors α) (actor : Fin actors)
    (busy : BusyRing actors α) (wait : Option (Wait α)) :
    (waiting.looped actor busy wait).waits actor = wait := if_pos rfl

@[simp] theorem looped_waits_other (waiting : WaitingRing actors α) {actor other : Fin actors}
    (busy : BusyRing actors α) (wait : Option (Wait α)) (different : other ≠ actor) :
    (waiting.looped actor busy wait).waits other = waiting.waits other := if_neg different

@[simp] theorem looped_busy (waiting : WaitingRing actors α) (actor : Fin actors)
    (busy : BusyRing actors α) (wait : Option (Wait α)) :
    (waiting.looped actor busy wait).busy = busy := rfl

theorem affects_stay (waiting : WaitingRing actors α) (actor : Fin actors) :
    Affects actor waiting waiting [] :=
  ⟨fun _ _ => rfl, Or.inl rfl, fun _ none => nomatch none⟩

theorem affects_looped {actor : Fin actors} {busy : BusyRing actors α} (wait : Option (Wait α))
    {events : List (WaitEvent actors α)}
    (made : busy = waiting.busy ∨
      ∃ act : RingAct actors α, act.actor = actor ∧ busy = (waiting.busy.next act).1)
    (told : ∀ event ∈ events, event.actor = actor) :
    Affects actor waiting (waiting.looped actor busy wait) events :=
  ⟨fun _ different => looped_waits_other _ _ _ different, made, told⟩

theorem affects_stepWait (waiting : WaitingRing actors α) (actor : Fin actors) (refused : Bool)
    (reading : Nat) (wait : Wait α) :
    Affects actor waiting (waiting.stepWait actor refused reading wait).1
      (waiting.stepWait actor refused reading wait).2 := by
  unfold stepWait
  split
  case h_1 => exact affects_looped _ (Or.inr ⟨_, rfl, rfl⟩) (by simp)
  case h_2 =>
    split
    case h_1 busy teller order receipt step =>
      have made : busy = (waiting.busy.next (.advance actor refused)).1 := by rw [step]
      split
      · exact affects_looped _ (Or.inr ⟨_, rfl, made⟩) (by simp [WaitEvent.actor, RingReport.actor])
      · exact affects_looped _ (Or.inr ⟨_, rfl, made⟩) (by simp [WaitEvent.actor, RingReport.actor])
    case h_2 busy report _ step =>
      have made : busy = (waiting.busy.next (.advance actor refused)).1 := by rw [step]
      exact affects_looped _ (Or.inr ⟨_, rfl, made⟩) (by simp)
  case h_3 =>
    split
    · exact affects_looped _ (Or.inl rfl) (by simp [WaitEvent.actor])
    · exact affects_looped _ (Or.inl rfl) (by simp [WaitEvent.actor])

theorem affects_next (engaged : Engaged waiting.busy) (clock : Clock) (act : WaitAct actors α) :
    Affects act.actor waiting (waiting.next clock act).1 (waiting.next clock act).2 := by
  cases act with
  | ring act =>
      rw [next]
      split
      case h_1 => exact waiting.affects_stay _
      case h_2 =>
        refine ⟨fun _ _ => rfl, Or.inr ⟨act, rfl, rfl⟩, ?_⟩
        intro event told
        obtain ⟨report, reported, rfl⟩ := List.mem_map.mp told
        exact (engaged.effect_of_next act).report_actor report (Option.mem_toList.mp reported)
  | wait actor errand timeout reading =>
      rw [next]
      split
      case h_1 =>
        split
        case h_1 =>
          exact ⟨fun _ different => looped_waits_other _ _ _ different, Or.inl rfl,
            fun _ none => nomatch none⟩
        case h_2 =>
          refine ⟨fun _ _ => rfl, Or.inl rfl, ?_⟩
          intro event told
          cases List.mem_singleton.mp told
          rfl
      case h_2 => exact waiting.affects_stay _
  | advance actor refused reading =>
      rw [next]
      split
      case h_1 wait within => exact waiting.affects_stepWait actor refused reading wait
      case h_2 => exact waiting.affects_stay _

end WaitingRing

theorem WaitingRing.Affects.own_events {actor : Fin actors} {before after : WaitingRing actors α}
    {events : List (WaitEvent actors α)}
    (affects : WaitingRing.Affects actor before after events) :
    events.filter (WaitEvent.isOf actor) = events :=
  List.filter_eq_self.mpr fun event told => beq_iff_eq.mpr (affects.events event told)

theorem WaitingRing.Affects.engaged {actor : Fin actors} {before after : WaitingRing actors α}
    {events : List (WaitEvent actors α)} (affects : WaitingRing.Affects actor before after events)
    (engaged : Engaged before.busy) : Engaged after.busy := by
  rcases affects.busy with same | ⟨act, -, made⟩
  · rw [same]
    exact engaged
  · rw [made]
    exact engaged.next act

theorem WaitingRing.run_append (waiting : WaitingRing actors α) (clock : Clock)
    (first second : List (WaitAct actors α)) :
    waiting.run clock (first ++ second) =
      (((waiting.run clock first).1.run clock second).1,
        (waiting.run clock first).2 ++ ((waiting.run clock first).1.run clock second).2) := by
  induction first generalizing waiting with
  | nil => rfl
  | cons act first inductionHypothesis =>
      simp only [List.cons_append, WaitingRing.run, inductionHypothesis, List.append_assoc]

theorem WaitingRing.engaged_run {waiting : WaitingRing actors α} (engaged : Engaged waiting.busy)
    (clock : Clock) (acts : List (WaitAct actors α)) : Engaged (waiting.run clock acts).1.busy := by
  induction acts generalizing waiting with
  | nil => exact engaged
  | cons act acts inductionHypothesis =>
      exact inductionHypothesis ((WaitingRing.affects_next engaged clock act).engaged engaged)

/-! ## The loop -/

def Standing (base : RingSystem actors α) (busy : BusyRing actors α) (actor : Fin actors)
    (errand : Errand α) : WaitStage → Prop
  | .attempting => ∃ transfer, transfer.order = errand.order ∧ Attempting base busy actor transfer
  | .ready | .refused => busy.tasks actor = none ∧
      ∀ index, busy.system.own actor index = base.own actor index

/-- An actor is within a blocking operation, after rounds with readings that were not past its
deadline. -/
structure Pending (base : RingSystem actors α) (errand : Errand α) (deadline : Option Nat)
    (actor : Fin actors) (waiting : WaitingRing actors α) (readings : List Nat)
    (stage : WaitStage) : Prop where
  waits : waiting.waits actor = some ⟨errand, deadline, stage⟩
  stands : Standing base waiting.busy actor errand stage
  early : ∀ reading ∈ readings, deadlinePassed deadline reading = false

def Errand.observed (errand : Errand α) (actor : Fin actors) (readings : List Nat) :
    WaitStage → List (WaitEvent actors α)
  | .ready | .attempting => readings.flatMap (errand.round actor)
  | .refused => readings.flatMap (errand.round actor) ++
      [.reported (.moved actor errand.order errand.refusal)]

/-- What has been observed of a blocking operation that returns, its answer, and what its actor
owns.  All rounds but the last one have a reading that is not past the deadline. -/
inductive WaitOutcome (base final : RingSystem actors α) (errand : Errand α)
    (deadline : Option Nat) (actor : Fin actors) :
    List (WaitEvent actors α) → WaitAnswer α → Prop
  | succeeds (readings : List Nat) (item : α)
      (early : ∀ reading ∈ readings, deadlinePassed deadline reading = false)
      (moves : errand.Moves item) (gains : base.GainsOne final actor errand.order.side item) :
      WaitOutcome base final errand deadline actor
        (readings.flatMap (errand.round actor) ++
          [.reported (.moved actor errand.order (errand.success item)),
            .answered actor (errand.done item)])
        (errand.done item)
  | givesUp (readings : List Nat) (late : Nat)
      (early : ∀ reading ∈ readings, deadlinePassed deadline reading = false)
      (past : deadlinePassed deadline late = true)
      (kept : ∀ index, final.own actor index = base.own actor index) :
      WaitOutcome base final errand deadline actor
        (readings.flatMap (errand.round actor) ++ errand.round actor late ++
          [.answered actor errand.givenUp])
        errand.givenUp

theorem WaitOutcome.gains {base final : RingSystem actors α} {errand : Errand α}
    {deadline : Option Nat} {actor : Fin actors} {observed : List (WaitEvent actors α)}
    {answer : WaitAnswer α}
    (outcome : WaitOutcome base final errand deadline actor observed answer)
    (moved : answer ≠ errand.givenUp) :
    ∃ item, errand.Moves item ∧ answer = errand.done item ∧
      base.GainsOne final actor errand.order.side item := by
  cases outcome with
  | succeeds readings item early moves gains => exact ⟨item, moves, rfl, gains⟩
  | givesUp => exact absurd rfl moved

theorem WaitOutcome.ne_givenUp {base final : RingSystem actors α} {errand : Errand α}
    {actor : Fin actors} {observed : List (WaitEvent actors α)} {answer : WaitAnswer α}
    (outcome : WaitOutcome base final errand none actor observed answer) :
    answer ≠ errand.givenUp := by
  cases outcome with
  | succeeds readings item => exact errand.done_ne_givenUp item
  | givesUp readings late early past => cases past

namespace Pending

variable {base : RingSystem actors α} {errand : Errand α} {deadline : Option Nat}
  {actor : Fin actors} {waiting after : WaitingRing actors α} {readings : List Nat}
  {stage : WaitStage} {events : List (WaitEvent actors α)}

theorem kept (pending : Pending base errand deadline actor waiting readings stage)
    (between : stage ≠ .attempting) (index : Nat) :
    waiting.busy.system.own actor index = base.own actor index := by
  have stands := pending.stands
  cases stage with
  | attempting => exact absurd rfl between
  | ready | refused => exact stands.2 index

def GoesOn (base : RingSystem actors α) (errand : Errand α) (deadline : Option Nat)
    (actor : Fin actors) (seen : List (WaitEvent actors α)) (after : WaitingRing actors α)
    (events : List (WaitEvent actors α)) : Prop :=
  (∀ answer, .answered actor answer ∉ events) ∧
    ∃ readings stage, Pending base errand deadline actor after readings stage ∧
      seen ++ events.filter (WaitEvent.isOf actor) = errand.observed actor readings stage

def Returns (base : RingSystem actors α) (errand : Errand α) (deadline : Option Nat)
    (actor : Fin actors) (seen : List (WaitEvent actors α)) (after : WaitingRing actors α)
    (events : List (WaitEvent actors α)) : Prop :=
  after.waits actor = none ∧ after.busy.tasks actor = none ∧
    ∃ answer, (∀ other, .answered actor other ∈ events ↔ other = answer) ∧
      WaitOutcome base after.busy.system errand deadline actor
        (seen ++ events.filter (WaitEvent.isOf actor)) answer

theorem others (pending : Pending base errand deadline actor waiting readings stage)
    (engaged : Engaged waiting.busy) {other : Fin actors}
    (affects : WaitingRing.Affects other waiting after events) (different : actor ≠ other) :
    GoesOn base errand deadline actor (errand.observed actor readings stage) after events := by
  have foreign : ∀ event ∈ events, event.actor ≠ actor := by
    intro event told same
    exact different (same.symm.trans (affects.events event told))
  refine ⟨fun answer told => foreign _ told rfl, readings, stage, ⟨?_, ?_, pending.early⟩, ?_⟩
  · rw [affects.waits actor different]
    exact pending.waits
  · rcases affects.busy with same | ⟨act, rfl, made⟩
    · rw [same]
      exact pending.stands
    · have effect := engaged.effect_of_next act
      rw [← made] at effect
      have stands := pending.stands
      cases stage with
      | attempting =>
          obtain ⟨transfer, same, attempting⟩ := stands
          exact ⟨transfer, same, attempting.others effect different⟩
      | ready | refused =>
          obtain ⟨idle, kept⟩ := stands
          refine ⟨(effect.tasks_other different).trans idle, fun index => ?_⟩
          rw [RingSystem.own_of_undisturbed effect.undisturbed different]
          exact kept index
  · have none : events.filter (WaitEvent.isOf actor) = [] := by
      refine List.filter_eq_nil_iff.mpr fun event told => ?_
      exact fun same => foreign event told (beq_iff_eq.mp same)
    rw [none, List.append_nil]

theorem startsAttempt (pending : Pending base errand deadline actor waiting readings .ready)
    (engaged : Engaged waiting.busy) (refused : Bool) (reading : Nat) :
    GoesOn base errand deadline actor (errand.observed actor readings .ready)
      (waiting.stepWait actor refused reading ⟨errand, deadline, .ready⟩).1
      (waiting.stepWait actor refused reading ⟨errand, deadline, .ready⟩).2 := by
  obtain ⟨idle, kept⟩ := pending.stands
  have starts := BusyRing.next_start idle (engaged.free idle) false errand.asks
  simp only [WaitingRing.stepWait, starts]
  refine ⟨(fun _ none => nomatch none), readings, .attempting,
    ⟨WaitingRing.looped_waits_self _ _ _ _, ?_, pending.early⟩, List.append_nil _⟩
  exact ⟨⟨errand.order, false, .claiming⟩, rfl, BusyRing.turned_tasks_self _ _ _ _,
    fun index _ => kept index, fun haul none => nomatch none⟩

theorem attempts (pending : Pending base errand deadline actor waiting readings .attempting)
    (engaged : Engaged waiting.busy) (refused : Bool) (reading : Nat) :
    GoesOn base errand deadline actor (errand.observed actor readings .attempting)
        (waiting.stepWait actor refused reading ⟨errand, deadline, .attempting⟩).1
        (waiting.stepWait actor refused reading ⟨errand, deadline, .attempting⟩).2 ∨
      Returns base errand deadline actor (errand.observed actor readings .attempting)
        (waiting.stepWait actor refused reading ⟨errand, deadline, .attempting⟩).1
        (waiting.stepWait actor refused reading ⟨errand, deadline, .attempting⟩).2 := by
  obtain ⟨transfer, same, attempting⟩ := pending.stands
  have whole : transfer.order.whole = true := same ▸ errand.whole_order
  have leads := attempting.advance engaged whole refused
  have affects := waiting.affects_stepWait actor refused reading ⟨errand, deadline, .attempting⟩
  simp only [GoesOn, Returns, affects.own_events]
  rcases step : waiting.busy.next (.advance actor refused) with ⟨busy, report⟩
  rw [step] at leads
  cases leads with
  | goesOn later order attempting =>
      simp only [WaitingRing.stepWait, step]
      refine Or.inl ⟨(fun _ none => nomatch none), readings, .attempting,
        ⟨WaitingRing.looped_waits_self _ _ _ _, ⟨later, order.trans same, attempting⟩,
          pending.early⟩, List.append_nil _⟩
  | refused available idle kept =>
      rw [same, errand.refused_order] at step
      simp only [WaitingRing.stepWait, step, errand.afterAttempt_refusal]
      refine Or.inl ⟨fun answer => by simp, readings, .refused, ?_, rfl⟩
      exact ⟨WaitingRing.looped_waits_self _ _ _ _, ⟨idle, kept⟩, pending.early⟩
  | publishes haul granted idle carried complete all fresh owned kept =>
      obtain ⟨order, exclusive, stage⟩ := transfer
      change order = errand.order at same
      subst same
      obtain ⟨item, moves, values, receipt⟩ :=
        errand.moved_of_carried carried complete all waiting.busy.ring
      simp only [receipt] at step
      simp only [WaitingRing.stepWait, step, errand.afterAttempt_success]
      refine Or.inr ⟨WaitingRing.looped_waits_self _ _ _ _, idle, errand.done item,
        fun other => by simp, .succeeds readings item pending.early moves ?_⟩
      exact ⟨haul.grant, granted.settle, fresh, owned, kept, carried.side, values, rfl⟩

theorem tests (pending : Pending base errand deadline actor waiting readings .refused)
    (refused : Bool) (reading : Nat) :
    GoesOn base errand deadline actor (errand.observed actor readings .refused)
        (waiting.stepWait actor refused reading ⟨errand, deadline, .refused⟩).1
        (waiting.stepWait actor refused reading ⟨errand, deadline, .refused⟩).2 ∨
      Returns base errand deadline actor (errand.observed actor readings .refused)
        (waiting.stepWait actor refused reading ⟨errand, deadline, .refused⟩).1
        (waiting.stepWait actor refused reading ⟨errand, deadline, .refused⟩).2 := by
  obtain ⟨idle, kept⟩ := pending.stands
  have affects := waiting.affects_stepWait actor refused reading ⟨errand, deadline, .refused⟩
  simp only [GoesOn, Returns, affects.own_events]
  cases past : deadlinePassed deadline reading with
  | false =>
      have early : ∀ tested ∈ readings ++ [reading], deadlinePassed deadline tested = false := by
        intro tested listed
        rcases List.mem_append.mp listed with old | new
        · exact pending.early tested old
        · rw [List.mem_singleton.mp new]
          exact past
      simp only [WaitingRing.stepWait, past, Bool.false_eq_true, if_false]
      refine Or.inl ⟨fun answer => by simp, readings ++ [reading], .ready,
        ⟨WaitingRing.looped_waits_self _ _ _ _, ⟨idle, kept⟩, early⟩, ?_⟩
      simp [Errand.observed, Errand.round]
  | true =>
      simp only [WaitingRing.stepWait, past, if_true]
      refine Or.inr ⟨WaitingRing.looped_waits_self _ _ _ _, idle, errand.givenUp,
        fun other => by simp, ?_⟩
      have outcome : WaitOutcome base waiting.busy.system errand deadline actor _ _ :=
        .givesUp readings reading pending.early past kept
      simpa [Errand.observed, Errand.round] using outcome

theorem stays (pending : Pending base errand deadline actor waiting readings stage) :
    GoesOn base errand deadline actor (errand.observed actor readings stage) waiting [] :=
  ⟨(fun _ none => nomatch none), readings, stage, pending, List.append_nil _⟩

theorem next (pending : Pending base errand deadline actor waiting readings stage)
    (engaged : Engaged waiting.busy) (clock : Clock) (act : WaitAct actors α) :
    GoesOn base errand deadline actor (errand.observed actor readings stage)
        (waiting.next clock act).1 (waiting.next clock act).2 ∨
      Returns base errand deadline actor (errand.observed actor readings stage)
        (waiting.next clock act).1 (waiting.next clock act).2 := by
  by_cases own : actor = act.actor
  · subst own
    have within := pending.waits
    cases act with
    | ring act =>
        have same : waiting.next clock (.ring act) = (waiting, []) := by
          simp only [WaitAct.actor] at within
          simp only [WaitingRing.next, within]
        rw [same]
        exact Or.inl pending.stays
    | wait actor other timeout reading =>
        have same : waiting.next clock (.wait actor other timeout reading) = (waiting, []) := by
          simp only [WaitAct.actor] at within
          simp only [WaitingRing.next, within]
        rw [same]
        exact Or.inl pending.stays
    | advance actor refused reading =>
        have made : waiting.next clock (.advance actor refused reading) =
            waiting.stepWait actor refused reading ⟨errand, deadline, stage⟩ := by
          simp only [WaitAct.actor] at within
          simp only [WaitingRing.next, within]
        rw [made]
        cases stage with
        | ready => exact Or.inl (pending.startsAttempt engaged refused reading)
        | attempting => exact pending.attempts engaged refused reading
        | refused => exact pending.tests refused reading
  · exact Or.inl (pending.others engaged (WaitingRing.affects_next engaged clock act) own)

theorem run (pending : Pending base errand deadline actor waiting readings stage)
    (engaged : Engaged waiting.busy) (clock : Clock) (acts : List (WaitAct actors α))
    (unanswered : ∀ answer, .answered actor answer ∉ (waiting.run clock acts).2) :
    GoesOn base errand deadline actor (errand.observed actor readings stage)
      (waiting.run clock acts).1 (waiting.run clock acts).2 := by
  induction acts generalizing waiting readings stage with
  | nil => exact pending.stays
  | cons act acts inductionHypothesis =>
      have engagedNext := (WaitingRing.affects_next engaged clock act).engaged engaged
      rcases pending.next engaged clock act with
        ⟨none, later, stageNext, pendingNext, seen⟩ | ⟨-, -, answer, told, -⟩
      · obtain ⟨noneRest, final⟩ := inductionHypothesis pendingNext engagedNext
          fun answer told => unanswered answer (List.mem_append_right _ told)
        refine ⟨unanswered, ?_⟩
        rw [← seen, List.append_assoc, ← List.filter_append] at final
        exact final
      · exact absurd (List.mem_append_left _ ((told answer).mpr rfl)) (unanswered answer)

end Pending

/-- Whatever the ring, the clock, its readings and the acts of others between and during the
attempts: a blocking operation that returns has made one attempt at least.  After each attempt
that was refused, its deadline was tested, and as long as the reading was not past it, another
attempt followed.  Either the last attempt moved the element, and the actor has published one slot
with that element and nothing else since it entered; the answer is that it is stored or, for one
that takes, the element itself.  Or the last attempt was refused as well and the reading after it
was past the deadline; then nothing was moved, an element that was brought is handed back, and no
attempt followed.  Between two attempts nothing is left of the first.  Without a deadline it never
gives up. -/
theorem blocking_moves_one_or_gives_up (clock : Clock) (capacity : Capacity)
    (policy : TransferPolicy) (watermark : Option UInt32) (blank : α) (origin : Cursor)
    (before : List (WaitAct actors α)) {entering : WaitingRing actors α}
    (reaches :
      ((WaitingRing.start capacity policy watermark blank origin).run clock before).1 = entering)
    {actor : Fin actors} (free : entering.waits actor = none)
    (idle : entering.busy.tasks actor = none) (errand : Errand α) {timeout : Timeout}
    {reading : Nat} {deadline : Option Nat} (shown : timeout.deadline clock reading = .ok deadline)
    {entered : WaitingRing actors α}
    (enters : (entering.next clock (.wait actor errand timeout reading)).1 = entered)
    (between : List (WaitAct actors α)) (last : WaitAct actors α)
    (unanswered : ∀ answer, .answered actor answer ∉ (entered.run clock between).2)
    {final : WaitingRing actors α} {told : List (WaitEvent actors α)}
    (ends : (entered.run clock between).1.next clock last = (final, told)) {answer : WaitAnswer α}
    (returns : .answered actor answer ∈ told) :
    WaitOutcome entering.busy.system final.busy.system errand deadline actor
        (((entered.run clock between).2 ++ told).filter (WaitEvent.isOf actor)) answer ∧
      (timeout = .infinite → answer ≠ errand.givenUp) ∧
      final.waits actor = none ∧ final.busy.tasks actor = none ∧
      ∀ first rest, between = first ++ rest →
        ∃ stage, (entered.run clock first).1.waits actor = some ⟨errand, deadline, stage⟩ ∧
          (stage ≠ .attempting → ∀ index, (entered.run clock first).1.busy.system.own actor index =
            entering.busy.system.own actor index) := by
  have engaged : Engaged entering.busy := by
    rw [← reaches]
    exact WaitingRing.engaged_run (Engaged.start capacity policy watermark blank origin) clock
      before
  have looped :
      entered = entering.looped actor entering.busy (some ⟨errand, deadline, .ready⟩) := by
    rw [← enters]
    simp only [WaitingRing.next, free, idle, shown]
  have pending : Pending entering.busy.system errand deadline actor entered [] .ready := by
    rw [looped]
    exact ⟨WaitingRing.looped_waits_self _ _ _ _, ⟨idle, fun _ => rfl⟩, fun _ none => nomatch none⟩
  have engagedEntered : Engaged entered.busy := by
    rw [looped]
    exact engaged
  obtain ⟨-, readings, stage, pendingLast, seen⟩ :=
    pending.run engagedEntered clock between unanswered
  have engagedLast := WaitingRing.engaged_run engagedEntered clock between
  have step := pendingLast.next engagedLast clock last
  rw [ends, ← seen] at step
  rcases step with ⟨none, -⟩ | ⟨freed, rests, answered, only, outcome⟩
  · exact absurd returns (none answer)
  rw [← (only answer).mp returns, List.append_assoc, ← List.filter_append] at outcome
  refine ⟨outcome, ?_, freed, rests, ?_⟩
  · rintro rfl
    cases shown
    exact outcome.ne_givenUp
  · intro first rest split
    have early : ∀ answer, .answered actor answer ∉ (entered.run clock first).2 := by
      intro answer told
      rw [split, WaitingRing.run_append] at unanswered
      exact unanswered answer (List.mem_append_left _ told)
    obtain ⟨-, readings, stage, pendingFirst, -⟩ := pending.run engagedEntered clock first early
    exact ⟨stage, pendingFirst.waits, pendingFirst.kept⟩

def crowdingActs : List (WaitAct 3 Nat) :=
  .ring (.start sampleRival (.enqueueBulk [1, 2, 3]) false) ::
    List.replicate 8 (.ring (.advance sampleRival false))

def crowdedRing : WaitingRing 3 Nat :=
  ((WaitingRing.start sampleCapacity .burst none 0 0xFFFFFFFE).run sessionClock crowdingActs).1

def patientEntry : WaitingRing 3 Nat :=
  (crowdedRing.next sessionClock (.wait sampleProducer (.enqueue 7) (.milliseconds 1) 0)).1

/-- A producer is refused and looks at the clock in time.  A consumer makes room while it starts
the next attempt. -/
def patientActs : List (WaitAct 3 Nat) :=
  List.flatten
    [List.replicate 3 (.advance sampleProducer false 5),
      .ring (.start sampleConsumer .dequeue false) ::
        List.replicate 3 (.ring (.advance sampleConsumer false)),
      [.advance sampleProducer false 9],
      List.replicate 3 (.ring (.advance sampleConsumer false)),
      List.replicate 5 (.advance sampleProducer false 2000000)]

def patientEnd : WaitingRing 3 Nat :=
  ((patientEntry.run sessionClock patientActs).1.next sessionClock
    (.advance sampleProducer false 0)).1

def patientEvents : List (WaitEvent 3 Nat) := (patientEntry.run sessionClock patientActs).2

def patientLast : List (WaitEvent 3 Nat) :=
  ((patientEntry.run sessionClock patientActs).1.next sessionClock
    (.advance sampleProducer false 0)).2

/-- The second attempt succeeds, although the deadline has passed meanwhile. -/
theorem blocking_moves_one_or_gives_up_sample :
    patientEvents ++ patientLast =
        [.reported (.moved sampleProducer (.enqueue 7) (.full [7])), .tested sampleProducer 5,
          .reported (.moved sampleConsumer .dequeue (.taken [1])),
          .reported (.moved sampleProducer (.enqueue 7) (.stored none [7] [])),
          .answered sampleProducer .stored] ∧
      crowdedRing.busy.system.GainsOne patientEnd.busy.system sampleProducer .producer 7 ∧
      patientEnd.busy.ring.toList = [2, 3, 7] := by
  have events : patientEvents = [.reported (.moved sampleProducer (.enqueue 7) (.full [7])),
      .tested sampleProducer 5, .reported (.moved sampleConsumer .dequeue (.taken [1]))] := rfl
  have told : patientLast = [.reported (.moved sampleProducer (.enqueue 7) (.stored none [7] [])),
      .answered sampleProducer .stored] := rfl
  have unanswered : ∀ answer, .answered sampleProducer answer ∉ patientEvents := by
    intro answer listed
    rw [events] at listed
    simp at listed
  have returns : .answered sampleProducer .stored ∈ patientLast := by
    rw [told]
    exact List.mem_cons_of_mem _ (List.mem_singleton.mpr rfl)
  have shown : Timeout.deadline sessionClock 0 (.milliseconds 1) = .ok (some 1000000) := rfl
  have free : crowdedRing.waits sampleProducer = none := rfl
  have idle : crowdedRing.busy.tasks sampleProducer = none := rfl
  obtain ⟨outcome, -⟩ :=
    blocking_moves_one_or_gives_up sessionClock sampleCapacity .burst none 0 0xFFFFFFFE crowdingActs
      rfl free idle (.enqueue 7) shown rfl patientActs (.advance sampleProducer false 0)
      unanswered rfl returns
  obtain ⟨item, brought, -, gains⟩ := outcome.gains (by simp [Errand.givenUp])
  cases brought
  refine ⟨?_, gains, rfl⟩
  rw [events, told]
  rfl

end RingPool

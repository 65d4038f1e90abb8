import RingPool.Proofs.Ring.BoundedQueue
import RingPool.Proofs.Ring.Endings
import RingPool.Ring.Waiting

/-!
# What one act can do

`ActEffect` lists the ways in which an act changes a ring with actors at work, and
`Engaged.effect_of_next` says that `BusyRing.next` does nothing else.  All that this needs is that
each actor does on the memory what its operation says (`Engaged`), which holds in every run: no
promise of the users comes in, and cursors may come round.  So it also holds where exclusive
operations are not alone, and whatever somebody does to the memory, the calls and the grants of the
other actors stay as they are.
-/

set_option autoImplicit false

namespace RingPool

open Grant

variable {actors : Nat} {α : Type}

/-! ## Offers -/

/-- An offer that is on the side that a request names, and that comes to all that it asks for or,
if a part will do, to less. -/
structure Reservation.Suits (offer : Reservation) (request : Request) : Prop where
  side : offer.side = request.side
  few : offer.len ≤ request.count
  whole : request.allowPartial = false → offer.len = request.count

theorem Core.offer_suits {core : Core α} {request : Request} {head : Cursor} {offer : Reservation}
    (offered : core.offer request head = .granted offer) : offer.Suits request := by
  obtain ⟨side, -, -, fits⟩ := Core.offer_granted offered
  rcases Nat.eq_zero_or_pos request.count.toNat with zero | positive
  · -- A request for nothing gets that.
    have none : request.count = 0 := UInt32.toNat_inj.mp zero
    rw [Request.fit?, none, if_pos UInt32.zero_le] at fits
    have all : offer.len = request.count := (Option.some.inj fits).symm.trans none.symm
    exact ⟨side, UInt32.le_of_eq all, fun _ => all⟩
  · obtain ⟨-, -, few, whole⟩ := Request.fit?_eq_some fits (UInt32.lt_iff_toNat_lt.mpr positive)
    exact ⟨side, few, whole⟩

def RingCall.OfferSuits : RingCall → Prop
  | .claim call => ∀ offer, call.phase = .bid offer → offer.Suits call.request
  | .publish _ _ | .census _ => True

def RingSystem.OffersSuit (system : RingSystem actors α) : Prop :=
  ∀ actor, ∀ active ∈ system.calls actor, active.call.OfferSuits

namespace RingSystem.OffersSuit

variable {system : RingSystem actors α}

theorem setCall (suit : system.OffersSuit) {after : RingSystem actors α}
    (calls : after.calls = system.calls) (actor : Fin actors) {call : Option ActiveCall}
    (new : ∀ active ∈ call, active.call.OfferSuits) : (after.setCall actor call).OffersSuit := by
  intro other active within
  by_cases same : other = actor
  · rw [same, setCall_calls_self] at within
    exact new active within
  · rw [setCall_calls_other _ _ same, calls] at within
    exact suit other active within

theorem leave (suit : system.OffersSuit) {after : RingSystem actors α}
    (calls : after.calls = system.calls) (actor : Fin actors) :
    (after.setCall actor none).OffersSuit :=
  suit.setCall calls actor fun _ none => nomatch none

theorem next (suit : system.OffersSuit) (move : RingMove actors α) :
    (system.next move).1.OffersSuit := by
  have effect := system.effect_of_next move
  generalize (system.next move).1 = after at effect ⊢
  generalize (system.next move).2 = event at effect
  cases effect with
  | stay | writes | reads => exact suit
  | claimShort | claimGranted | publicationSettles | censusCounts => exact suit.leave rfl _
  | claimStarts actor request free =>
      refine suit.setCall rfl actor fun active new => ?_
      cases Option.mem_some.mp new
      intro offer bidding
      cases bidding
  | claimOutrun actor refused claim since offer within bidding =>
      refine suit.setCall rfl actor fun active new => ?_
      cases Option.mem_some.mp new
      intro offer bidding
      cases bidding
  | claimOffered actor refused claim since head offer within seeking offered =>
      refine suit.setCall rfl actor fun active new => ?_
      cases Option.mem_some.mp new
      intro other bidding
      cases bidding
      exact Core.offer_suits offered
  | publicationStarts | publicationReady | publicationWaits | publicationPauses | censusStarts
  | censusLooks =>
      refine suit.setCall rfl _ fun active new => ?_
      cases Option.mem_some.mp new
      trivial

end RingSystem.OffersSuit

/-! ## The ways in which an act changes a ring -/

/-- The ring after a step of an actor that changes no more of the memory than the actor's call. -/
def BusyRing.turned (busy : BusyRing actors α) (actor : Fin actors) (call : Option ActiveCall)
    (task : Option (RingTask α)) : BusyRing actors α :=
  busy.worked actor (busy.system.setCall actor call) task

@[simp] theorem BusyRing.turned_tasks_self (busy : BusyRing actors α) (actor : Fin actors)
    (call : Option ActiveCall) (task : Option (RingTask α)) :
    (busy.turned actor call task).tasks actor = task := busy.worked_tasks_self _ _ _

theorem BusyRing.next_start {busy : BusyRing actors α} {actor : Fin actors}
    (idle : busy.tasks actor = none) (free : busy.system.calls actor = none)
    {order : RingOrder α} (exclusive : Bool) (asks : order.requested ≠ 0) :
    busy.next (.start actor order exclusive) =
      (busy.turned actor
        (some ⟨.claim (Claim.start busy.system.core (order.request busy.policy exclusive)),
          busy.system.totals⟩)
        (some (.transfer ⟨order, exclusive, .claiming⟩)), none) := by
  simp only [BusyRing.next, idle, if_neg asks, RingSystem.next, RingSystem.enter, free]
  rfl

def BusyRing.OutOfPlace (busy : BusyRing actors α) : RingAct actors α → Prop
  | .start actor _ _ | .count actor => busy.tasks actor ≠ none
  | .advance actor _ => busy.tasks actor = none

def RingReport.actor : RingReport actors α → Fin actors
  | .moved actor _ _ | .counted actor _ => actor

/-- The ways in which an act changes a ring with actors at work, and what is observed. -/
inductive ActEffect (busy : BusyRing actors α) :
    RingAct actors α → BusyRing actors α → Option (RingReport actors α) → Prop where
  | stays (act : RingAct actors α) (outOfPlace : busy.OutOfPlace act) :
      ActEffect busy act busy none
  | asksNothing (actor : Fin actors) (order : RingOrder α) (exclusive : Bool)
      (idle : busy.tasks actor = none) (nothing : order.requested = 0) :
      ActEffect busy (.start actor order exclusive) busy
        (some (.moved actor order order.nothing))
  | claimStarts (actor : Fin actors) (order : RingOrder α) (exclusive : Bool)
      (idle : busy.tasks actor = none) (asks : order.requested ≠ 0) :
      ActEffect busy (.start actor order exclusive)
        (busy.turned actor
          (some ⟨.claim (Claim.start busy.system.core (order.request busy.policy exclusive)),
            busy.system.totals⟩)
          (some (.transfer ⟨order, exclusive, .claiming⟩))) none
  | countStarts (actor : Fin actors) (idle : busy.tasks actor = none) :
      ActEffect busy (.count actor)
        (busy.turned actor (some ⟨.census .start, busy.system.totals⟩) (some .counting)) none
  | countLooks (actor : Fin actors) (refused : Bool) (census : Census) (since : SlotTotals)
      (counting : busy.tasks actor = some .counting) :
      ActEffect busy (.advance actor refused)
        (busy.turned actor (some ⟨.census census, since⟩) (some .counting)) none
  | counted (actor : Fin actors) (refused : Bool) (count : UInt32)
      (counting : busy.tasks actor = some .counting) :
      ActEffect busy (.advance actor refused) (busy.turned actor none none)
        (some (.counted actor count))
  | claimGoesOn (actor : Fin actors) (refused : Bool) (order : RingOrder α) (exclusive : Bool)
      (later : Claim) (since : SlotTotals)
      (claiming : busy.tasks actor = some (.transfer ⟨order, exclusive, .claiming⟩))
      (asks : later.request = order.request busy.policy exclusive) :
      ActEffect busy (.advance actor refused)
        (busy.turned actor (some ⟨.claim later, since⟩)
          (some (.transfer ⟨order, exclusive, .claiming⟩))) none
  | claimRefused (actor : Fin actors) (refused : Bool) (order : RingOrder α) (exclusive : Bool)
      (available : UInt32)
      (claiming : busy.tasks actor = some (.transfer ⟨order, exclusive, .claiming⟩)) :
      ActEffect busy (.advance actor refused) (busy.turned actor none none)
        (some (.moved actor order (order.refused busy.policy available)))
  | claimGranted (actor : Fin actors) (refused : Bool) (order : RingOrder α) (exclusive : Bool)
      (offer : Reservation)
      (claiming : busy.tasks actor = some (.transfer ⟨order, exclusive, .claiming⟩))
      (suits : offer.Suits (order.request busy.policy exclusive)) :
      ActEffect busy (.advance actor refused)
        (busy.worked actor
          ((busy.system.granted actor exclusive offer order.side).setCall actor none)
          (some (.transfer ⟨order, exclusive, .moving ⟨busy.system.grants.length, offer, []⟩⟩)))
        none
  | accesses (actor : Fin actors) (refused : Bool) (order : RingOrder α) (exclusive : Bool)
      (haul : Haul α) (granted : Grant α) (memory : Core α) (item : α)
      (moving : busy.tasks actor = some (.transfer ⟨order, exclusive, .moving haul⟩))
      (free : busy.system.calls actor = none)
      (carried : Carried busy.system actor order exclusive haul granted)
      (more : haul.moved.length < granted.size)
      (listed : order.side = .producer → order.items[haul.moved.length]? = some item) :
      ActEffect busy (.advance actor refused)
        (busy.worked actor
          (busy.system.accessed memory haul.grant granted haul.moved.length item)
          (some (.transfer ⟨order, exclusive, .moving (haul.add item)⟩))) none
  | publicationGoesOn (actor : Fin actors) (refused : Bool) (order : RingOrder α)
      (exclusive : Bool) (stage : RingStage α) (haul : Haul α) (granted : Grant α)
      (later : Publication) (since : SlotTotals)
      (working : busy.tasks actor = some (.transfer ⟨order, exclusive, stage⟩))
      (stands : stage = .moving haul ∨ stage = .publishing haul)
      (carried : Carried busy.system actor order exclusive haul granted)
      (done : haul.moved.length = granted.size) :
      ActEffect busy (.advance actor refused)
        (busy.turned actor (some ⟨.publish haul.grant later, since⟩)
          (some (.transfer ⟨order, exclusive, .publishing haul⟩))) none
  | publicationSettles (actor : Fin actors) (refused : Bool) (order : RingOrder α)
      (exclusive : Bool) (haul : Haul α) (granted : Grant α) (reservation : Reservation)
      (publishing : busy.tasks actor = some (.transfer ⟨order, exclusive, .publishing haul⟩))
      (carried : Carried busy.system actor order exclusive haul granted)
      (done : haul.moved.length = granted.size) :
      ActEffect busy (.advance actor refused)
        (busy.worked actor ((busy.system.published haul.grant reservation).setCall actor none)
          none)
        (some (.moved actor order (order.receipt busy.ring haul)))

/-- Each actor does on the memory what its operation says, and what claims have in mind suits their
requests. -/
structure Engaged (busy : BusyRing actors α) : Prop where
  tasks : ∀ actor, TaskFacts busy.system busy.policy actor (busy.tasks actor)
  offers : busy.system.OffersSuit

namespace Engaged

variable {busy : BusyRing actors α} {actor : Fin actors}

theorem start (capacity : Capacity) (policy : TransferPolicy) (watermark : Option UInt32)
    (blank : α) (origin : Cursor) :
    Engaged (BusyRing.start capacity policy watermark blank origin : BusyRing actors α) where
  tasks := fun _ => rfl
  offers := fun _ _ none => nomatch none

theorem free (engaged : Engaged busy) (idle : busy.tasks actor = none) :
    busy.system.calls actor = none := by
  have facts := engaged.tasks actor
  rw [idle] at facts
  exact facts

theorem claims (engaged : Engaged busy) {order : RingOrder α} {exclusive : Bool}
    (claiming : busy.tasks actor = some (.transfer ⟨order, exclusive, .claiming⟩))
    (refused : Bool) :
    ActEffect busy (.advance actor refused) (busy.next (.advance actor refused)).1
      (busy.next (.advance actor refused)).2 := by
  obtain ⟨claim, since, within, asks⟩ : ∃ claim since,
      busy.system.calls actor = some ⟨.claim claim, since⟩ ∧
        claim.request = order.request busy.policy exclusive := by
    have facts := engaged.tasks actor
    rw [claiming] at facts
    exact facts
  have goesOn : ∀ later : Claim, later.request = claim.request →
      busy.system.next (.advance actor refused) =
        (busy.system.setCall actor (some ⟨.claim later, since⟩), none) →
      ActEffect busy (.advance actor refused) (busy.next (.advance actor refused)).1
        (busy.next (.advance actor refused)).2 := by
    intro later same step
    simp only [BusyRing.next, claiming, BusyRing.stepTransfer, step]
    exact .claimGoesOn actor refused order exclusive later since claiming (same.trans asks)
  have effect := busy.system.effect_of_next (.advance actor refused)
  rcases step : busy.system.next (.advance actor refused) with ⟨after, event⟩
  rw [step] at effect
  cases effect with
  | stay =>
      refine goesOn claim rfl ?_
      rw [step, ← within, RingSystem.setCall_calls]
  | claimOffered _ _ own started head offer calling =>
      cases within.symm.trans calling
      exact goesOn { claim with phase := .bid offer } rfl step
  | claimOutrun _ _ own started offer calling =>
      cases within.symm.trans calling
      exact goesOn { claim with
        attempts := claim.attempts + 1
        phase := .seek (busy.system.core.cursors claim.request.side).head } rfl step
  | claimShort _ _ own started head available calling =>
      simp only [BusyRing.next, claiming, BusyRing.stepTransfer, step]
      exact .claimRefused actor refused order exclusive available claiming
  | claimGranted _ _ own started offer calling bidding unopposed =>
      cases within.symm.trans calling
      have suits : offer.Suits (order.request busy.policy exclusive) := by
        rw [← asks]
        exact engaged.offers actor _ within offer bidding
      simp only [BusyRing.next, claiming, BusyRing.stepTransfer, step, asks]
      exact .claimGranted actor refused order exclusive offer claiming suits
  | publicationReady _ _ _ _ _ calling | publicationWaits _ _ _ _ _ calling
  | publicationPauses _ _ _ _ _ calling | publicationSettles _ _ _ _ _ calling
  | censusLooks _ _ _ calling | censusCounts _ _ _ _ calling =>
      cases within.symm.trans calling

theorem moves (engaged : Engaged busy) {order : RingOrder α} {exclusive : Bool} {haul : Haul α}
    (moving : busy.tasks actor = some (.transfer ⟨order, exclusive, .moving haul⟩))
    (refused : Bool) :
    ActEffect busy (.advance actor refused) (busy.next (.advance actor refused)).1
      (busy.next (.advance actor refused)).2 := by
  obtain ⟨free, granted, carried⟩ : busy.system.calls actor = none ∧
      ∃ granted, Carried busy.system actor order exclusive haul granted := by
    have facts := engaged.tasks actor
    rw [moving] at facts
    exact facts
  rcases carried.move?_cases free with ⟨done, none⟩ |
    ⟨more, move, memory, item, -, -, accessed, moves, listed⟩
  · have enters : (busy.system.next (.publish actor haul.grant exclusive)).1 =
        busy.system.setCall actor (some ⟨.publish haul.grant
          (Publication.start granted.reservation exclusive), busy.system.totals⟩) := by
      simp only [RingSystem.next, RingSystem.enter, carried.found, free]
    simp only [BusyRing.next, moving, BusyRing.stepTransfer, none, enters]
    exact .publicationGoesOn actor refused order exclusive _ haul granted _ _ moving (Or.inl rfl)
      carried done
  · simp only [BusyRing.next, moving, BusyRing.stepTransfer, moves, accessed]
    exact .accesses actor refused order exclusive haul granted memory item moving free carried more
      listed

theorem publishes (engaged : Engaged busy) {order : RingOrder α} {exclusive : Bool}
    {haul : Haul α}
    (publishing : busy.tasks actor = some (.transfer ⟨order, exclusive, .publishing haul⟩))
    (refused : Bool) :
    ActEffect busy (.advance actor refused) (busy.next (.advance actor refused)).1
      (busy.next (.advance actor refused)).2 := by
  obtain ⟨⟨publication, since, within⟩, granted, carried, done⟩ :
      (∃ publication since, busy.system.calls actor = some ⟨.publish haul.grant publication,
        since⟩) ∧ ∃ granted, Carried busy.system actor order exclusive haul granted ∧
          haul.moved.length = granted.size := by
    have facts := engaged.tasks actor
    rw [publishing] at facts
    exact facts
  have goesOn : ∀ later : Publication,
      busy.system.next (.advance actor refused) =
        (busy.system.setCall actor (some ⟨.publish haul.grant later, since⟩), none) →
      ActEffect busy (.advance actor refused) (busy.next (.advance actor refused)).1
        (busy.next (.advance actor refused)).2 := by
    intro later step
    simp only [BusyRing.next, publishing, BusyRing.stepTransfer, step]
    exact .publicationGoesOn actor refused order exclusive _ haul granted later since publishing
      (Or.inr rfl) carried done
  have effect := busy.system.effect_of_next (.advance actor refused)
  rcases step : busy.system.next (.advance actor refused) with ⟨after, event⟩
  rw [step] at effect
  cases effect with
  | stay =>
      refine goesOn publication ?_
      rw [step, ← within, RingSystem.setCall_calls]
  | publicationReady _ _ index own started calling =>
      cases within.symm.trans calling
      exact goesOn { publication with phase := .settle } step
  | publicationWaits _ _ index own started calling =>
      cases within.symm.trans calling
      exact goesOn { publication with phase := .pause } step
  | publicationPauses _ _ index own started calling =>
      cases within.symm.trans calling
      exact goesOn ⟨publication.reservation, publication.spins + 1, .check⟩ step
  | publicationSettles _ _ index own started calling =>
      cases within.symm.trans calling
      simp only [BusyRing.next, publishing, BusyRing.stepTransfer, step]
      exact .publicationSettles actor refused order exclusive haul granted _ publishing carried done
  | claimShort _ _ _ _ _ _ calling | claimOffered _ _ _ _ _ _ calling
  | claimGranted _ _ _ _ _ calling | claimOutrun _ _ _ _ _ calling
  | censusLooks _ _ _ calling | censusCounts _ _ _ _ calling =>
      cases within.symm.trans calling

theorem counts (engaged : Engaged busy) (counting : busy.tasks actor = some .counting)
    (refused : Bool) :
    ActEffect busy (.advance actor refused) (busy.next (.advance actor refused)).1
      (busy.next (.advance actor refused)).2 := by
  obtain ⟨census, since, within⟩ : ∃ census since,
      busy.system.calls actor = some ⟨.census census, since⟩ := by
    have facts := engaged.tasks actor
    rw [counting] at facts
    exact facts
  cases census with
  | start =>
      simp only [BusyRing.next, counting, RingSystem.next, within, Census.step, RingSystem.settle]
      exact .countLooks actor refused (.seen busy.system.core.consumer.tail) since counting
  | seen tail =>
      simp only [BusyRing.next, counting, RingSystem.next, within, Census.step, RingSystem.settle]
      exact .counted actor refused _ counting

theorem effect_of_next (engaged : Engaged busy) (act : RingAct actors α) :
    ActEffect busy act (busy.next act).1 (busy.next act).2 := by
  cases act with
  | start actor order exclusive =>
      cases idle : busy.tasks actor with
      | some task =>
          have busyActor : busy.tasks actor ≠ none := idle ▸ Option.some_ne_none task
          simp only [BusyRing.next, idle]
          exact .stays _ busyActor
      | none =>
          by_cases nothing : order.requested = 0
          · simp only [BusyRing.next, idle, if_pos nothing]
            exact .asksNothing actor order exclusive idle nothing
          · rw [BusyRing.next_start idle (engaged.free idle) exclusive nothing]
            exact .claimStarts actor order exclusive idle nothing
  | count actor =>
      cases idle : busy.tasks actor with
      | some task =>
          have busyActor : busy.tasks actor ≠ none := idle ▸ Option.some_ne_none task
          simp only [BusyRing.next, idle]
          exact .stays _ busyActor
      | none =>
          simp only [BusyRing.next, idle, RingSystem.next, RingSystem.enter, engaged.free idle]
          exact .countStarts actor idle
  | advance actor refused =>
      cases task : busy.tasks actor with
      | none =>
          simp only [BusyRing.next, task]
          exact .stays _ task
      | some within =>
          cases within with
          | counting => exact engaged.counts task refused
          | transfer transfer =>
              obtain ⟨order, exclusive, stage⟩ := transfer
              cases stage with
              | claiming => exact engaged.claims task refused
              | moving haul => exact engaged.moves task refused
              | publishing haul => exact engaged.publishes task refused

end Engaged

/-! ## The others, and the actor itself -/

namespace Carried

/-- A new reservation is carried by the transfer that claimed it. -/
theorem of_granted (system : RingSystem actors α) (actor : Fin actors) (order : RingOrder α)
    (policy : TransferPolicy) (exclusive : Bool) {offer : Reservation}
    (suits : offer.Suits (order.request policy exclusive)) :
    Carried ((system.granted actor exclusive offer order.side).setCall actor none) actor order
      exclusive ⟨system.grants.length, offer, []⟩ ⟨actor, exclusive, offer, [], false⟩ where
  found := getElem?_split system.grants [] _
  holder := rfl
  exclusive := rfl
  waiting := rfl
  reservation := rfl
  side := suits.side
  keys := rfl
  values := by simp [Grant.values]
  fits := Nat.zero_le _
  brought := by
    intro producing
    refine ⟨rfl, ?_⟩
    cases order with
    | take most whole => cases producing
    | put items whole =>
        have few := UInt32.le_iff_toNat_le.mp suits.few
        have asked : (requestSize items.length).toNat = _ := requestSize_toNat items.length
        exact few.trans (asked.trans_le (Nat.min_le_left _ _))

theorem setCall {system : RingSystem actors α} {actor : Fin actors} {order : RingOrder α}
    {exclusive : Bool} {haul : Haul α} {granted : Grant α}
    (carried : Carried system actor order exclusive haul granted) (call : Option ActiveCall) :
    Carried (system.setCall actor call) actor order exclusive haul granted :=
  { carried with }

theorem published_grants {system : RingSystem actors α} {actor : Fin actors} {order : RingOrder α}
    {exclusive : Bool} {haul : Haul α} {granted : Grant α}
    (carried : Carried system actor order exclusive haul granted) (reservation : Reservation) :
    (system.published haul.grant reservation).grants =
      system.grants.set haul.grant granted.settle := by
  obtain ⟨first, rest, split, place⟩ := split_of_getElem? carried.found
  rw [← place, RingSystem.published_grants split, split, set_split]

end Carried

namespace ActEffect

variable {busy after : BusyRing actors α} {act : RingAct actors α}
  {report : Option (RingReport actors α)}

theorem undisturbed (effect : ActEffect busy act after report) :
    Undisturbed busy.system after.system act.actor := by
  cases effect with
  | stays | asksNothing => exact Undisturbed.refl _ _
  | claimStarts | countStarts | countLooks | counted | claimGoesOn | claimRefused
  | publicationGoesOn => exact (Undisturbed.refl _ _).setCall _
  | claimGranted => exact (Undisturbed.granted _ _ _ _ _).setCall none
  | accesses actor refused order exclusive haul granted memory item moving free carried =>
      exact Undisturbed.changed carried.found rfl rfl carried.holder carried.holder
  | publicationSettles actor refused order exclusive haul granted reservation publishing carried =>
      have own : Undisturbed busy.system (busy.system.published haul.grant reservation) actor :=
        Undisturbed.changed carried.found rfl (carried.published_grants reservation)
          carried.holder carried.holder
      exact own.setCall none

/-- An act changes only what its own actor is within. -/
theorem tasks_other (effect : ActEffect busy act after report) {other : Fin actors}
    (different : other ≠ act.actor) : after.tasks other = busy.tasks other := by
  cases effect with
  | stays | asksNothing => rfl
  | claimStarts | countStarts | countLooks | counted | claimGoesOn | claimRefused | claimGranted
  | accesses | publicationGoesOn | publicationSettles =>
      exact BusyRing.worked_tasks_other _ _ _ different

theorem report_actor (effect : ActEffect busy act after report) :
    ∀ told ∈ report, told.actor = act.actor := by
  intro told reported
  cases effect with
  | stays | claimStarts | countStarts | countLooks | claimGoesOn | claimGranted | accesses
  | publicationGoesOn => cases reported
  | asksNothing | counted | claimRefused | publicationSettles =>
      cases Option.mem_some.mp reported
      rfl

theorem policy (effect : ActEffect busy act after report) : after.policy = busy.policy := by
  cases effect <;> rfl

theorem facts (effect : ActEffect busy act after report) (engaged : Engaged busy) :
    TaskFacts after.system after.policy act.actor (after.tasks act.actor) := by
  cases effect with
  | stays | asksNothing => exact engaged.tasks _
  | counted actor | claimRefused actor | publicationSettles actor =>
      simp only [RingAct.actor, BusyRing.turned_tasks_self, BusyRing.worked_tasks_self]
      exact RingSystem.setCall_calls_self _ _ _
  | countStarts actor =>
      rw [RingAct.actor, BusyRing.turned_tasks_self]
      exact ⟨.start, _, RingSystem.setCall_calls_self _ _ _⟩
  | countLooks actor refused census since =>
      rw [RingAct.actor, BusyRing.turned_tasks_self]
      exact ⟨census, since, RingSystem.setCall_calls_self _ _ _⟩
  | claimStarts actor order exclusive =>
      rw [RingAct.actor, BusyRing.turned_tasks_self]
      exact ⟨_, _, RingSystem.setCall_calls_self _ _ _, rfl⟩
  | claimGoesOn actor refused order exclusive later since claiming asks =>
      rw [RingAct.actor, BusyRing.turned_tasks_self]
      exact ⟨later, since, RingSystem.setCall_calls_self _ _ _, asks⟩
  | claimGranted actor refused order exclusive offer claiming suits =>
      rw [RingAct.actor, BusyRing.worked_tasks_self]
      exact ⟨RingSystem.setCall_calls_self _ _ _, _, Carried.of_granted _ _ _ _ _ suits⟩
  | accesses actor refused order exclusive haul granted memory item moving free carried more
      listed =>
      rw [RingAct.actor, BusyRing.worked_tasks_self]
      exact ⟨free, _, carried.accessed more memory listed⟩
  | publicationGoesOn actor refused order exclusive stage haul granted later since working stands
      carried done =>
      rw [RingAct.actor, BusyRing.turned_tasks_self]
      exact ⟨⟨later, since, RingSystem.setCall_calls_self _ _ _⟩, granted,
        carried.setCall _, done⟩

end ActEffect

namespace Engaged

variable {busy : BusyRing actors α}

theorem next (engaged : Engaged busy) (act : RingAct actors α) : Engaged (busy.next act).1 where
  tasks := by
    intro other
    have effect := engaged.effect_of_next act
    by_cases same : other = act.actor
    · rw [same]
      exact effect.facts engaged
    · rw [effect.tasks_other same, effect.policy]
      exact (engaged.tasks other).imp effect.undisturbed same
  offers := by
    rcases busy.next_memory act with same | ⟨move, made⟩
    · rw [same]
      exact engaged.offers
    · rw [made]
      exact engaged.offers.next move

end Engaged

/-! ## What an actor owns -/

namespace RingSystem

variable {system before after : RingSystem actors α} {actor : Fin actors}

/-- The grant under a number, if it is the actor's. -/
def own (system : RingSystem actors α) (actor : Fin actors) (index : Nat) : Option (Grant α) :=
  system.grants[index]?.filter fun granted => granted.actor == actor.val

theorem own_eq_some {index : Nat} {granted : Grant α} :
    system.own actor index = some granted ↔
      system.grants[index]? = some granted ∧ granted.actor = actor.val := by
  rw [own, Option.filter_eq_some_iff, beq_iff_eq]

theorem own_congr {index : Nat} (same : after.grants[index]? = before.grants[index]?) :
    after.own actor index = before.own actor index := by
  rw [own, own, same]

theorem own_length (system : RingSystem actors α) (actor : Fin actors) :
    system.own actor system.grants.length = none := by
  rw [own, List.getElem?_eq_none (Nat.le_refl _)]
  rfl

theorem own_append {index : Nat} {new : Grant α} (grants : after.grants = before.grants ++ [new])
    (different : index ≠ before.grants.length) :
    after.own actor index = before.own actor index := by
  refine own_congr ?_
  rw [grants, List.getElem?_append]
  split
  case isTrue => rfl
  case isFalse outside =>
    have beyond : before.grants.length ≤ index := Nat.le_of_not_lt outside
    rw [List.getElem?_eq_none beyond, List.getElem?_singleton, if_neg (by omega)]

theorem own_set {place index : Nat} {changed : Grant α}
    (grants : after.grants = before.grants.set place changed) (different : index ≠ place) :
    after.own actor index = before.own actor index := by
  refine own_congr ?_
  rw [grants, List.getElem?_set_ne (Ne.symm different)]

theorem own_of_undisturbed {other : Fin actors} (undisturbed : Undisturbed before after actor)
    (different : other ≠ actor) (index : Nat) : after.own other index = before.own other index := by
  refine Option.ext fun granted => ?_
  rw [own_eq_some, own_eq_some]
  refine and_congr_left fun holder => undisturbed.grants index granted ?_
  rw [holder]
  exact fun same => different (Fin.ext same)

end RingSystem

end RingPool

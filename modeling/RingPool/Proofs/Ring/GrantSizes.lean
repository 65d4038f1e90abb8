import RingPool.Proofs.Ring.Endings
import RingPool.Proofs.Ring.StaleHeads

/-!
# The size of what is granted

A claim may see more room than there is, and a claim that takes a part would then ask for all of
it.  Such an offer is never granted: whatever is granted suits its request and fits into the room
that there is (`Coherent.grant_wellSized`).  A transfer keeps the reservation that its claim got
(`BusyRing.haul_before`), and so what it does with the size and the room of the reservation
without a check is safe in every state of every run (`SizedHauls.run`).

Main statement: `grants_are_well_sized`, for claims on the memory and for the operations above
them.
-/

set_option autoImplicit false

namespace RingPool

open Grant

variable {actors : Nat} {α : Type} {origin : Cursor}

/-! ## Reservations that suit a request -/

/-- A reservation that suits a request, on a ring with `mask` usable slots. -/
structure Reservation.WellSized (reservation : Reservation) (request : Request) (mask : UInt32) :
    Prop where
  side : reservation.side = request.side
  positive : 0 < reservation.len
  asked : reservation.len ≤ request.count
  seen : reservation.len ≤ reservation.observed
  usable : reservation.observed ≤ mask
  whole : request.allowPartial = false → reservation.len = request.count

/-- How many slots are in use with the reservation, by the room that it observed. -/
def Reservation.occupied (reservation : Reservation) (mask : UInt32) : UInt32 :=
  mask - reservation.observed + reservation.len

/-- The slots in use are counted without a wrap, and there are some and no more than fit. -/
structure Reservation.CountsInRange (reservation : Reservation) (mask : UInt32) : Prop where
  noUnderflow : reservation.observed ≤ mask
  number : (reservation.occupied mask).toNat =
    mask.toNat - reservation.observed.toNat + reservation.len.toNat
  positive : 1 ≤ reservation.occupied mask
  usable : reservation.occupied mask ≤ mask

/-- The offsets that a loop visits which goes along the slots of the reservation and along some
elements, and ends with the shorter ones. -/
def Reservation.visited (reservation : Reservation) (elements : List α) : List Nat :=
  ((List.range reservation.len.toNat).zip elements).map Prod.fst

theorem Reservation.visited_eq {reservation : Reservation} {elements : List α}
    (enough : reservation.len.toNat ≤ elements.length) :
    reservation.visited elements = List.range reservation.len.toNat := by
  apply List.map_fst_zip
  rw [List.length_range]
  exact enough

namespace Reservation.WellSized

variable {reservation : Reservation} {request : Request} {mask : UInt32}

theorem occupied_toNat (sized : reservation.WellSized request mask) :
    (reservation.occupied mask).toNat =
      mask.toNat - reservation.observed.toNat + reservation.len.toNat := by
  have usable := UInt32.le_iff_toNat_le.mp sized.usable
  have seen := UInt32.le_iff_toNat_le.mp sized.seen
  have word := mask.toNat_lt
  rw [occupied, UInt32.toNat_add, UInt32.toNat_sub_of_le _ _ sized.usable]
  omega

theorem countsInRange (sized : reservation.WellSized request mask) :
    reservation.CountsInRange mask := by
  have usable := UInt32.le_iff_toNat_le.mp sized.usable
  have seen := UInt32.le_iff_toNat_le.mp sized.seen
  have positive := UInt32.lt_iff_toNat_lt.mp sized.positive
  have number := sized.occupied_toNat
  rw [UInt32.toNat_zero] at positive
  refine ⟨sized.usable, number, ?_, ?_⟩
  · rw [UInt32.le_iff_toNat_le, number, UInt32.toNat_one]
    omega
  · rw [UInt32.le_iff_toNat_le, number]
    omega

end Reservation.WellSized

/-! ## Grants on the memory -/

namespace Coherent

variable {system : RingSystem actors α} {actor : Fin actors} {claim : Claim} {since : SlotTotals}
  {offer : Reservation}

theorem grant_wellSized (coherent : Coherent origin system) (window : system.WithinWindow)
    (within : system.calls actor = some ⟨.claim claim, since⟩)
    (bidding : claim.phase = .bid offer)
    (unopposed : claim.request.exclusive = true ∨
      (system.core.cursors claim.request.side).head = offer.head) :
    offer.WellSized claim.request system.core.capacity.mask := by
  obtain ⟨side, -, -, -, room⟩ := coherent.grant_fits window within bidding unopposed
  obtain ⟨known, facts⟩ := coherent.claimFacts within
  obtain ⟨-, fits, -⟩ := facts.offer offer bidding
  obtain ⟨positive, seen, asked, whole⟩ := Request.fit?_eq_some fits facts.asks
  refine ⟨side, positive, asked, seen, ?_, whole⟩
  have near := coherent.layout.horizon_near claim.request.side
  rw [UInt32.le_iff_toNat_le, Capacity.mask_toNat]
  omega

/-- Right after a producer's grant no more slots are in use than it makes of the room that it
observed: fewer, if consumers have released some since. -/
theorem inUse_le_occupied (coherent : Coherent origin system) (window : system.WithinWindow)
    (within : system.calls actor = some ⟨.claim claim, since⟩)
    (bidding : claim.phase = .bid offer)
    (unopposed : claim.request.exclusive = true ∨
      (system.core.cursors claim.request.side).head = offer.head)
    (produces : claim.request.side = .producer) :
    let after := (system.granted actor claim.request.exclusive offer claim.request.side).setCall
      actor none
    after.core.producer.head - after.core.consumer.tail ≤
      offer.occupied system.core.capacity.mask := by
  intro after
  have sized := coherent.grant_wellSized window within bidding unopposed
  obtain ⟨side, -, -, -, room⟩ := coherent.grant_fits window within bidding unopposed
  have layout : Layout origin after.core after.grants :=
    (coherent.granted window within bidding unopposed).layout
  have reserved : reservedOn .producer after.grants =
      reservedOn .producer system.grants + offer.len.toNat := by
    rw [RingSystem.setCall_grants, RingSystem.granted, reservedOn_append, reservedOn_cons,
      side, produces, if_pos rfl]
    rfl
  have released : publishedOn .consumer after.grants = publishedOn .consumer system.grants :=
    publishedOn_granted .consumer system.grants rfl
  have head : after.core.producer.head = _ := layout.head_eq .producer
  have tail : after.core.consumer.tail = _ := layout.tail_eq .consumer
  have order := layout.ordered
  have small := after.core.capacity.size_lt_wordSize
  rw [produces, horizon_producer] at room
  rw [UInt32.le_iff_toNat_le, sized.occupied_toNat, head, tail,
    cursorAt_sub_toNat origin (by omega) (by omega), Capacity.mask_toNat]
  omega

end Coherent

/-! ## Operations keep the reservation of their claim -/

theorem Haul.reservation_of_move? {haul later : Haul α} {system after : RingSystem actors α}
    {actor : Fin actors} {order : RingOrder α}
    (moves : haul.move? system actor order = some (after, later)) :
    later.reservation = haul.reservation := by
  unfold Haul.move? at moves
  simp only at moves
  split at moves
  case isTrue => cases moves
  case isFalse =>
    split at moves
    case h_1 =>
      split at moves
      case h_1 => cases moves
      case h_2 =>
        cases moves
        rfl
    case h_2 =>
      split at moves
      case h_1 =>
        cases moves
        rfl
      case h_2 => cases moves

namespace BusyRing

variable {busy : BusyRing actors α} {actor : Fin actors} {transfer : RingTransfer α}
  {haul : Haul α}

theorem haul_of_stepTransfer {refused : Bool} {earlier : RingTransfer α}
    {after : RingSystem actors α}
    (step : busy.stepTransfer actor refused earlier = (after, .running transfer))
    (holds : transfer.haul? = some haul) :
    (earlier.order = transfer.order ∧ earlier.exclusive = transfer.exclusive) ∧
      ((∃ held, earlier.haul? = some held ∧ held.reservation = haul.reservation) ∨
        ∃ attempts, (busy.system.next (.advance actor refused)).2 =
          some (.claimed ⟨.granted haul.reservation, attempts⟩)) := by
  obtain ⟨order, exclusive, stage⟩ := earlier
  cases stage with
  | claiming =>
      simp only [stepTransfer] at step
      split at step
      case h_1 system reservation attempts granted =>
        cases step
        cases holds
        exact ⟨⟨rfl, rfl⟩, Or.inr ⟨attempts, congrArg Prod.snd granted⟩⟩
      case h_2 => cases step
      case h_3 =>
        cases step
        cases holds
  | moving held =>
      simp only [stepTransfer] at step
      split at step
      case h_1 moves =>
        cases step
        cases holds
        exact ⟨⟨rfl, rfl⟩, Or.inl ⟨held, rfl, (Haul.reservation_of_move? moves).symm⟩⟩
      case h_2 =>
        cases step
        cases holds
        exact ⟨⟨rfl, rfl⟩, Or.inl ⟨haul, rfl, rfl⟩⟩
  | publishing held =>
      simp only [stepTransfer] at step
      split at step
      case h_1 => cases step
      case h_2 =>
        cases step
        cases holds
        exact ⟨⟨rfl, rfl⟩, Or.inl ⟨haul, rfl, rfl⟩⟩

def HasOrGets (busy : BusyRing actors α) (actor : Fin actors) (transfer : RingTransfer α)
    (reservation : Reservation) : Prop :=
  ∃ earlier ∈ busy.transfer? actor,
    (earlier.order = transfer.order ∧ earlier.exclusive = transfer.exclusive) ∧
    ((∃ held, earlier.haul? = some held ∧ held.reservation = reservation) ∨
      ∃ refused attempts, (busy.system.next (.advance actor refused)).2 =
        some (.claimed ⟨.granted reservation, attempts⟩))

theorem haul_before {act : RingAct actors α}
    (within : transfer ∈ (busy.next act).1.transfer? actor)
    (holds : transfer.haul? = some haul) : busy.HasOrGets actor transfer haul.reservation := by
  have unchanged (within : transfer ∈ busy.transfer? actor) :
      busy.HasOrGets actor transfer haul.reservation :=
    ⟨transfer, within, ⟨rfl, rfl⟩, Or.inl ⟨haul, holds, rfl⟩⟩
  cases act with
  | start mover order exclusive =>
      rw [next] at within
      split at within
      case h_1 => exact unchanged within
      case h_2 =>
        split at within
        case isTrue => exact unchanged within
        case isFalse =>
          rcases mem_transfer?_worked.mp within with ⟨-, new⟩ | ⟨-, old⟩
          · cases new
            cases holds
          · exact unchanged old
  | count mover =>
      rw [next] at within
      split at within
      case h_1 => exact unchanged within
      case h_2 =>
        rcases mem_transfer?_worked.mp within with ⟨-, new⟩ | ⟨-, old⟩
        · cases new
        · exact unchanged old
  | advance mover refused =>
      rw [next] at within
      split at within
      case h_1 => exact unchanged within
      case h_2 =>
        split at within
        all_goals
          rcases mem_transfer?_worked.mp within with ⟨-, new⟩ | ⟨-, old⟩
          · cases new
          · exact unchanged old
      case h_3 earlier working =>
        split at within
        case h_1 after later step =>
          rcases mem_transfer?_worked.mp within with ⟨same, new⟩ | ⟨-, old⟩
          · cases new
            subst same
            obtain ⟨work, reservation⟩ := haul_of_stepTransfer step holds
            refine ⟨earlier, mem_transfer?.mpr working, work, ?_⟩
            exact reservation.imp id fun granted => ⟨refused, granted⟩
          · exact unchanged old
        case h_2 =>
          rcases mem_transfer?_worked.mp within with ⟨-, new⟩ | ⟨-, old⟩
          · cases new
          · exact unchanged old

theorem policy_next (busy : BusyRing actors α) (act : RingAct actors α) :
    (busy.next act).1.policy = busy.policy := by
  cases act with
  | start | count =>
      rw [next]
      split
      · rfl
      · first
          | rfl
          | split <;> rfl
  | advance =>
      rw [next]
      split
      · rfl
      · split <;> rfl
      · split <;> rfl

theorem policy_run (busy : BusyRing actors α) (acts : List (RingAct actors α)) :
    (busy.run acts).1.policy = busy.policy := by
  induction acts generalizing busy with
  | nil => rfl
  | cons act acts ih => exact (ih (busy.next act).1).trans (busy.policy_next act)

end BusyRing

def SizedHauls (busy : BusyRing actors α) : Prop :=
  ∀ actor, ∀ transfer ∈ busy.transfer? actor, ∀ haul, transfer.haul? = some haul →
    haul.reservation.WellSized (transfer.order.request busy.policy transfer.exclusive)
      busy.system.core.capacity.mask

namespace SizedHauls

variable {busy : BusyRing actors α}

theorem start (capacity : Capacity) (policy : TransferPolicy) (watermark : Option UInt32)
    (blank : α) (origin : Cursor) :
    SizedHauls (BusyRing.start capacity policy watermark blank origin : BusyRing actors α) := by
  intro actor transfer within
  cases within

theorem next (sized : SizedHauls busy) (coherent : Coherent origin busy.system)
    (window : busy.system.WithinWindow) (staffed : Staffed busy) (act : RingAct actors α) :
    SizedHauls (busy.next act).1 := by
  intro actor transfer within haul holds
  obtain ⟨earlier, before, ⟨order, exclusive⟩, ⟨held, had, same⟩ | ⟨refused, attempts, granted⟩⟩ :=
    BusyRing.haul_before within holds
  all_goals rw [BusyRing.policy_next, BusyRing.capacity_next, ← order, ← exclusive]
  · rw [← same]
    exact sized actor earlier before held had
  · obtain ⟨claim, since, claims, bidding, unopposed⟩ := RingSystem.claim_of_granted granted
    obtain ⟨working, known, asks⟩ :=
      staffed.claimer (mem_claiming.mpr ⟨claim, since, claims, rfl⟩)
    cases Option.some.inj (known.symm.trans before)
    rw [← asks]
    exact coherent.grant_wellSized window claims bidding unopposed

theorem run {reports : List (RingReport actors α)} (sized : SizedHauls busy)
    (inOrder : InOrder origin reports busy) (window : busy.system.WithinWindow)
    (acts : List (RingAct actors α)) (orderly : busy.Orderly acts)
    (windowed : busy.Windowed acts) : SizedHauls (busy.run acts).1 := by
  induction acts generalizing reports busy with
  | nil => exact sized
  | cons act acts ih =>
      obtain ⟨permitted, orderlyRest⟩ := orderly
      obtain ⟨windowNext, windowedRest⟩ := windowed
      exact ih (sized.next inOrder.coherent window inOrder.staffed act)
        (inOrder.next window act permitted) windowNext orderlyRest windowedRest

end SizedHauls

/-! ## What a transfer does without a check -/

/-- The slots and elements that a transfer touches are there: the items have the front that it
drains, a loop that copies along the items or along a buffer ends with the last slot and not
before, and no more elements are taken than it has made place for. -/
structure Haul.InBounds (haul : Haul α) (order : RingOrder α) (mask : UInt32) : Prop where
  drained : ∀ items whole, order = .put items whole →
    haul.reservation.len.toNat ≤ items.length ∧
      haul.reservation.visited items = List.range haul.reservation.len.toNat
  copied : ∀ (buffer : List α) (whole : Bool), order = .take (requestSize buffer.length) whole →
    haul.reservation.visited buffer = List.range haul.reservation.len.toNat
  pushed : ∀ most whole, order = .take most whole →
    haul.moved.length ≤ min most.toNat mask.toNat

theorem requestSize_toNat_le (length : Nat) : (requestSize length).toNat ≤ length := by
  rw [requestSize_toNat]
  exact Nat.min_le_left _ _

theorem Reservation.WellSized.inBounds {haul : Haul α} {order : RingOrder α}
    {policy : TransferPolicy} {exclusive : Bool} {mask : UInt32}
    (sized : haul.reservation.WellSized (order.request policy exclusive) mask)
    (fits : haul.moved.length ≤ haul.reservation.len.toNat) : haul.InBounds order mask := by
  have asked : haul.reservation.len.toNat ≤ order.requested.toNat :=
    UInt32.le_iff_toNat_le.mp sized.asked
  constructor
  case drained =>
    rintro items whole rfl
    have enough := asked.trans (requestSize_toNat_le items.length)
    exact ⟨enough, Reservation.visited_eq enough⟩
  case copied =>
    rintro buffer whole rfl
    exact Reservation.visited_eq (asked.trans (requestSize_toNat_le buffer.length))
  case pushed =>
    rintro most whole rfl
    have seen := UInt32.le_iff_toNat_le.mp sized.seen
    have usable := UInt32.le_iff_toNat_le.mp sized.usable
    exact fits.trans (Nat.le_min.mpr ⟨asked, seen.trans usable⟩)

theorem StageFacts.carried {system : RingSystem actors α} {policy : TransferPolicy}
    {actor : Fin actors} {transfer : RingTransfer α} {haul : Haul α}
    (facts : StageFacts system policy actor transfer) (holds : transfer.haul? = some haul) :
    ∃ granted, Carried system actor transfer.order transfer.exclusive haul granted ∧
      (transfer.stage = .publishing haul → haul.moved.length = granted.size) := by
  obtain ⟨order, exclusive, stage⟩ := transfer
  cases stage with
  | claiming => cases holds
  | moving held =>
      cases holds
      obtain ⟨-, granted, carried⟩ := facts
      exact ⟨granted, carried, fun publishing => (by cases publishing)⟩
  | publishing held =>
      cases holds
      obtain ⟨-, granted, carried, complete⟩ := facts
      exact ⟨granted, carried, fun _ => complete⟩

/-- Whatever a claim is granted in any run suits its request and fits into the ring.  So an
enqueue counts the slots in use without a wrap, and counts no fewer than there are right after
its claim: it misses no watermark that it has crossed.  A transfer stays within its items, its
buffer and its reservation, and has touched each slot once when it publishes. -/
theorem grants_are_well_sized (capacity : Capacity) (blank : α) (origin : Cursor) :
    (∀ moves : List (RingMove actors α),
      (RingSystem.start capacity blank origin).Orderly moves →
      (RingSystem.start capacity blank origin).Windowed moves →
      let reached := ((RingSystem.start capacity blank origin).run moves).1
      ∀ actor refused request reservation attempts, reached.claiming actor = some request →
        (reached.next (.advance actor refused)).2 =
          some (.claimed ⟨.granted reservation, attempts⟩) →
        let after := (reached.next (.advance actor refused)).1
        reservation.WellSized request capacity.mask ∧
          (request.side = .producer →
            let inUse := after.core.producer.head - after.core.consumer.tail
            reservation.CountsInRange capacity.mask ∧
              inUse ≤ reservation.occupied capacity.mask ∧
              ∀ policy mark, mark < inUse →
                (⟨after.core, policy, some mark⟩ : Ring α).exceedsQuota reservation = true)) ∧
    ∀ policy watermark (acts : List (RingAct actors α)),
      (BusyRing.start capacity policy watermark blank origin).Orderly acts →
      (BusyRing.start capacity policy watermark blank origin).Windowed acts →
      let busy := ((BusyRing.start capacity policy watermark blank origin).run acts).1
      ∀ actor, ∀ transfer ∈ busy.transfer? actor, ∀ haul, transfer.haul? = some haul →
        haul.reservation.WellSized (transfer.order.request policy transfer.exclusive)
            capacity.mask ∧
          haul.reservation.CountsInRange capacity.mask ∧
          haul.InBounds transfer.order capacity.mask ∧
          (transfer.stage = .publishing haul → ∃ granted ∈ busy.system.grants[haul.grant]?,
            granted.reservation = haul.reservation ∧
              granted.accesses.map Prod.fst =
                (List.range haul.reservation.len.toNat).reverse) := by
  constructor
  case left =>
    intro moves orderly windowed reached actor refused request reservation attempts claiming
      granted after
    obtain ⟨coherent, window⟩ := (Coherent.start capacity blank origin).run
      (withinWindow_start capacity blank origin) moves orderly windowed
    have same : reached.core.capacity = capacity := RingSystem.capacity_run _ moves
    obtain ⟨claim, since, within, bidding, unopposed, made⟩ := RingSystem.next_of_granted granted
    have asked : claim.request = request := by
      rw [RingSystem.claiming, within, Option.some.injEq] at claiming
      exact claiming
    subst asked
    have sized := coherent.grant_wellSized window within bidding unopposed
    rw [same] at sized
    refine ⟨sized, ?_⟩
    intro produces inUse
    have fewer := coherent.inUse_le_occupied window within bidding unopposed produces
    rw [← made, same] at fewer
    refine ⟨sized.countsInRange, fewer, ?_⟩
    intro policy mark crossed
    have kept : after.core.capacity = capacity := (RingSystem.capacity_next _ _).trans same
    have above := UInt32.lt_of_lt_of_le crossed fewer
    rw [← kept] at above
    exact decide_eq_true above
  case right =>
    intro policy watermark acts orderly windowed busy actor transfer within haul holds
    have inOrder := (InOrder.start capacity policy watermark blank origin).run
      (withinWindow_start capacity blank origin) acts orderly windowed
    have sizedHauls := (SizedHauls.start capacity policy watermark blank origin).run
      (InOrder.start capacity policy watermark blank origin)
      (withinWindow_start capacity blank origin) acts orderly windowed
    have sized := sizedHauls actor transfer within haul holds
    rw [BusyRing.policy_run, BusyRing.capacity_run] at sized
    have facts := inOrder.staffed.tasks actor
    rw [BusyRing.mem_transfer?.mp within] at facts
    obtain ⟨granted, carried, complete⟩ := StageFacts.carried facts holds
    have size := carried.size_eq
    have fits := carried.fits.trans_eq size
    refine ⟨sized, sized.countsInRange, sized.inBounds fits, ?_⟩
    intro publishing
    refine ⟨granted, carried.found, carried.reservation, ?_⟩
    rw [carried.keys, complete publishing, size]

def dayMiddle : BusyRing 3 Nat := (dayStart.run (dayActs.take 16)).1

def bulkOfTwo : Haul Nat := ⟨0, ⟨.producer, 0xFFFFFFFE, 0, 3⟩, [10, 11]⟩

/-- A claim of three slots gets the one that is left; a bulk gets two of three, and has put an
item into each. -/
theorem grants_are_well_sized_sample :
    (sampleStart.Orderly (sampleMoves.take 9) ∧ sampleStart.Windowed (sampleMoves.take 9) ∧
      ((sampleAfter 9).next (.advance 1 false)).2 =
        some (.claimed ⟨.granted ⟨.producer, 0, 1, 1⟩, 2⟩) ∧
      (⟨.producer, 0, 1, 1⟩ : Reservation).WellSized ⟨.producer, 3, true, false⟩ 3) ∧
    (dayStart.Orderly (dayActs.take 16) ∧ dayStart.Windowed (dayActs.take 16) ∧
      dayMiddle.transfer? 0 = some ⟨.enqueueBulk [10, 11], false, .publishing bulkOfTwo⟩ ∧
      bulkOfTwo.InBounds (.enqueueBulk [10, 11]) 3 ∧
      ∃ granted ∈ dayMiddle.system.grants[0]?, granted.accesses.map Prod.fst = [1, 0]) := by
  have orderlyMoves : sampleStart.Orderly (sampleMoves.take 9) := by decide +kernel
  have windowedMoves : sampleStart.Windowed (sampleMoves.take 9) := by decide +kernel
  have claiming : (sampleAfter 9).claiming 1 = some ⟨.producer, 3, true, false⟩ := rfl
  have granted : ((sampleAfter 9).next (.advance 1 false)).2 =
      some (.claimed ⟨.granted ⟨.producer, 0, 1, 1⟩, 2⟩) := rfl
  have orderlyActs : dayStart.Orderly (dayActs.take 16) := by decide +kernel
  have windowedActs : dayStart.Windowed (dayActs.take 16) := by decide +kernel
  have publishing : dayMiddle.transfer? 0 =
      some ⟨.enqueueBulk [10, 11], false, .publishing bulkOfTwo⟩ := rfl
  obtain ⟨claims, operations⟩ := @grants_are_well_sized 3 Nat sampleCapacity 0 0xFFFFFFFE
  obtain ⟨sized, -⟩ := claims (sampleMoves.take 9) orderlyMoves windowedMoves 1 false _ _ _ claiming
    granted
  obtain ⟨-, -, inBounds, touched⟩ := operations .burst none (dayActs.take 16) orderlyActs
    windowedActs 0 _ publishing bulkOfTwo rfl
  obtain ⟨grant, found, -, slots⟩ := touched rfl
  exact ⟨⟨orderlyMoves, windowedMoves, granted, sized⟩, orderlyActs, windowedActs, publishing,
    inBounds, grant, found, slots⟩

end RingPool

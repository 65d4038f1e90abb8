import RingPool.Proofs.Ring.BoundedQueue
import RingPool.Proofs.Ring.Tasks

/-!
# Transfers that nobody interrupts

A transfer whose actor has a ring at rest to itself does what the operation of one thread
does, and returns the same (`BusyRing.fulfils`).  `Ring.fulfil` puts the claim, the accesses
and the publication of any order together; for the four orders that there are operations
for, it is the operation.  So orders that are given one after the other, by whatever
actors, come to the operations in their order.
-/

set_option autoImplicit false

namespace RingPool

variable {actors : Nat} {α : Type}

/-! ## Orders that are fulfilled at once -/

/-- The memory after the accesses to a reservation, and the elements that were moved. -/
def RingOrder.access (order : RingOrder α) (core : Core α) (reservation : Reservation) :
    Core α × List α :=
  match order with
  | .put items _ =>
      let stored := items.take reservation.len.toNat
      (core.writeRange reservation.head stored, stored)
  | .take _ _ => (core, core.readRange reservation.head reservation.len.toNat)

/-- What a transfer that nobody interrupts makes of a ring, and what it returns. -/
def Ring.fulfil (ring : Ring α) (order : RingOrder α) (exclusive : Bool) :
    Ring α × RingReceipt α :=
  if order.requested = 0 then (ring, order.nothing)
  else
    match ring.core.claim (order.request ring.policy exclusive) with
    | (_, .short available) => (ring, order.refused ring.policy available)
    | (core, .granted reservation) =>
        let (accessed, moved) := order.access core reservation
        ({ ring with core := accessed.publish reservation exclusive },
          order.receipt ring ⟨0, reservation, moved⟩)

theorem Core.claim_inversion {core claimed : Core α} {request : Request} {verdict : Verdict}
    (claims : core.claim request = (claimed, verdict)) :
    (∃ available, verdict = .short available ∧ claimed = core ∧
      core.offer request (core.cursors request.side).head = .short available) ∨
    (∃ reservation, verdict = .granted reservation ∧
      claimed = core.setHead request.side reservation.next ∧
      core.offer request (core.cursors request.side).head = .granted reservation) := by
  unfold Core.claim at claims
  split at claims
  case h_1 reservation offered =>
      cases claims
      exact Or.inr ⟨reservation, rfl, rfl, offered⟩
  case h_2 available offered =>
      cases claims
      exact Or.inl ⟨available, rfl, rfl, offered⟩

theorem Core.len_of_one {core claimed : Core α} {side : Side} {exclusive : Bool}
    {reservation : Reservation}
    (claims : core.claim ⟨side, 1, false, exclusive⟩ = (claimed, .granted reservation)) :
    reservation.len = 1 := by
  obtain ⟨_, contrary, -⟩ | ⟨_, same, -, offered⟩ := Core.claim_inversion claims
  · cases contrary
  · cases same
    obtain ⟨-, -, -, fits⟩ := Core.offer_granted offered
    exact (Request.fit?_eq_some fits (by decide : (0 : UInt32) < 1)).2.2.2 rfl

namespace Ring

theorem fulfil_enqueue (ring : Ring α) (item : α) (exclusive : Bool) :
    ring.fulfil (.enqueue item) exclusive =
      match ring.enqueue? item exclusive with
      | some changed => (changed, .stored none [item] [])
      | none => (ring, .full [item]) := by
  have one : (RingOrder.enqueue item).requested ≠ 0 := (by decide : (1 : UInt32) ≠ 0)
  rw [fulfil, if_neg one, enqueue?]
  change (match ring.core.claim ⟨.producer, 1, false, exclusive⟩ with
    | (_, .short available) => _
    | (core, .granted reservation) => _) = _
  rcases claims : ring.core.claim ⟨.producer, 1, false, exclusive⟩ with ⟨core, verdict⟩
  cases verdict with
  | short available => rfl
  | granted reservation =>
      have len := Core.len_of_one claims
      simp only [RingOrder.enqueue, RingOrder.access, RingOrder.receipt, len]
      rfl

theorem fulfil_dequeue (ring : Ring α) (exclusive : Bool) :
    ring.fulfil .dequeue exclusive =
      match ring.dequeue? exclusive with
      | some (item, changed) => (changed, .taken [item])
      | none => (ring, .taken []) := by
  have one : (RingOrder.dequeue : RingOrder α).requested ≠ 0 := (by decide : (1 : UInt32) ≠ 0)
  rw [fulfil, if_neg one, dequeue?]
  change (match ring.core.claim ⟨.consumer, 1, false, exclusive⟩ with
    | (_, .short available) => _
    | (core, .granted reservation) => _) = _
  rcases claims : ring.core.claim ⟨.consumer, 1, false, exclusive⟩ with ⟨core, verdict⟩
  cases verdict with
  | short available => rfl
  | granted reservation =>
      have len := Core.len_of_one claims
      have first : core.readRange reservation.head 1 = [core.read reservation.head] :=
        Core.readRange_succ core reservation.head 0
      simp only [RingOrder.dequeue, RingOrder.access, RingOrder.receipt, len, UInt32.toNat_one,
        first]

theorem fulfil_enqueueBulk (ring : Ring α) (items : List α) (exclusive : Bool) :
    ring.fulfil (.enqueueBulk items) exclusive =
      match ring.enqueueBulk items exclusive with
      | .ok (changed, enqueued, left) =>
          (changed, .stored (some enqueued) (items.take enqueued.count.toNat) left)
      | .error refusal => (ring, .exceeded refusal items) := by
  rw [fulfil, enqueueBulk, produce]
  change (if requestSize items.length = 0 then _ else
    match ring.core.claim ⟨.producer, requestSize items.length, ring.policy == .burst, exclusive⟩
      with
    | (_, .short available) => _
    | (core, .granted reservation) => _) = _
  by_cases nothing : requestSize items.length = 0
  · simp only [if_pos nothing]
    rfl
  · simp only [if_neg nothing]
    rcases ring.core.claim ⟨.producer, requestSize items.length, ring.policy == .burst,
      exclusive⟩ with ⟨core, verdict⟩
    cases verdict with
    | short available =>
        cases policy : ring.policy <;> rfl
    | granted reservation => rfl

theorem fulfil_dequeueBulk (ring : Ring α) (most : UInt32) (exclusive : Bool) :
    ring.fulfil (.dequeueBulk most) exclusive =
      ((ring.dequeueBulk most exclusive).1, .taken (ring.dequeueBulk most exclusive).2) := by
  rw [fulfil, dequeueBulk, consume]
  change (if most = 0 then _ else
    match ring.core.claim ⟨.consumer, most, ring.policy == .burst, exclusive⟩ with
    | (_, .short available) => _
    | (core, .granted reservation) => _) = _
  by_cases nothing : most = 0
  · simp only [if_pos nothing]
    rfl
  · simp only [if_neg nothing]
    rcases ring.core.claim ⟨.consumer, most, ring.policy == .burst, exclusive⟩ with
      ⟨core, verdict⟩
    cases verdict <;> rfl

end Ring

/-! ## An actor that goes on to the end -/

/-- The steps of an operation that nobody interrupts, up to its report. -/
inductive Finishes (actor : Fin actors) :
    BusyRing actors α → BusyRing actors α → RingReport actors α → Prop where
  | last {busy after : BusyRing actors α} {report : RingReport actors α}
      (made : busy.next (.advance actor false) = (after, some report)) :
      Finishes actor busy after report
  | step {busy middle after : BusyRing actors α} {report : RingReport actors α}
      (made : busy.next (.advance actor false) = (middle, none))
      (finishes : Finishes actor middle after report) : Finishes actor busy after report

theorem Finishes.run {actor : Fin actors} {busy after : BusyRing actors α}
    {report : RingReport actors α} (finishes : Finishes actor busy after report) :
    ∃ count, busy.run (List.replicate count (.advance actor false)) = (after, [report]) := by
  induction finishes with
  | last made => exact ⟨1, by simp [BusyRing.run, made]⟩
  | step made finishes ih =>
      obtain ⟨count, run⟩ := ih
      exact ⟨count + 1, by simp [List.replicate_succ, BusyRing.run, made, run]⟩

/-- What an operation of one actor leaves: the given memory, an actor that is free again,
and the other actors as they were. -/
structure Leaves (actor : Fin actors) (busy after : BusyRing actors α) (core : Core α) :
    Prop where
  ring : after.ring = { busy.ring with core }
  task : after.tasks actor = none
  call : after.system.calls actor = none
  tasks : ∀ other, other ≠ actor → after.tasks other = busy.tasks other
  calls : ∀ other, other ≠ actor → after.system.calls other = busy.system.calls other

def Ends (busy : BusyRing actors α) (actor : Fin actors) (core : Core α)
    (report : RingReport actors α) : Prop :=
  ∃ after, Finishes actor busy after report ∧ Leaves actor busy after core

namespace Ends

variable {busy : BusyRing actors α} {actor : Fin actors} {system : RingSystem actors α}
  {core : Core α} {report : RingReport actors α}

theorem leaves_of_worked {after : BusyRing actors α} {task : Option (RingTask α)}
    (others : ∀ other, other ≠ actor → system.calls other = busy.system.calls other)
    (leaves : Leaves actor (busy.worked actor system task) after core) :
    Leaves actor busy after core where
  ring := leaves.ring
  task := leaves.task
  call := leaves.call
  tasks := by
    intro other different
    rw [leaves.tasks other different, BusyRing.worked_tasks_other _ _ _ different]
  calls := fun other different => (leaves.calls other different).trans (others other different)

theorem step {task : Option (RingTask α)}
    (made : busy.next (.advance actor false) = (busy.worked actor system task, none))
    (others : ∀ other, other ≠ actor → system.calls other = busy.system.calls other)
    (ends : Ends (busy.worked actor system task) actor core report) :
    Ends busy actor core report := by
  obtain ⟨after, finishes, leaves⟩ := ends
  exact ⟨after, .step made finishes, leaves_of_worked others leaves⟩

theorem last
    (made : busy.next (.advance actor false) = (busy.worked actor system none, some report))
    (free : system.calls actor = none)
    (others : ∀ other, other ≠ actor → system.calls other = busy.system.calls other) :
    Ends busy actor system.core report := by
  have finished : Leaves actor (busy.worked actor system none) (busy.worked actor system none)
      system.core :=
    ⟨rfl, BusyRing.worked_tasks_self _ _ _ _, free, fun _ _ => rfl, fun _ _ => rfl⟩
  exact ⟨_, .last made, leaves_of_worked others finished⟩

/-! ### The publication -/

variable {order : RingOrder α} {exclusive : Bool} {haul : Haul α} {since : SlotTotals}

theorem settling {spins : Nat}
    (within : busy.tasks actor = some (.transfer ⟨order, exclusive, .publishing haul⟩))
    (call : busy.system.calls actor =
      some ⟨.publish haul.grant ⟨haul.reservation, spins, .settle⟩, since⟩) :
    Ends busy actor
      (busy.system.core.setTail haul.reservation.side haul.reservation.next)
      (.moved actor order (order.receipt busy.ring haul)) := by
  have made : busy.next (.advance actor false) =
      (busy.worked actor
        ((busy.system.published haul.grant haul.reservation).setCall actor none) none,
        some (.moved actor order (order.receipt busy.ring haul))) := by
    simp only [BusyRing.next, within, BusyRing.stepTransfer, RingSystem.next, call,
      Publication.step, RingSystem.settle]
    rfl
  exact last made (RingSystem.setCall_calls_self _ _ _)
    fun _ different => RingSystem.setCall_calls_other _ _ different

theorem publishing
    (within : busy.tasks actor = some (.transfer ⟨order, exclusive, .publishing haul⟩))
    (call : busy.system.calls actor =
      some ⟨.publish haul.grant (Publication.start haul.reservation exclusive), since⟩)
    (due : (busy.system.core.cursors haul.reservation.side).tail = haul.reservation.head) :
    Ends busy actor (busy.system.core.publish haul.reservation exclusive)
      (.moved actor order (order.receipt busy.ring haul)) := by
  rw [Core.publish_due due]
  cases exclusive with
  | true => exact settling within call
  | false =>
      have made : busy.next (.advance actor false) =
          (busy.worked actor
            (busy.system.setCall actor
              (some ⟨.publish haul.grant ⟨haul.reservation, 0, .settle⟩, since⟩))
            (some (.transfer ⟨order, false, .publishing haul⟩)), none) := by
        simp only [BusyRing.next, within, BusyRing.stepTransfer, RingSystem.next, call,
          Publication.start, Publication.step, RingSystem.settle, due, if_true]
        rfl
      refine step made (fun _ different => RingSystem.setCall_calls_other _ _ different) ?_
      exact settling (BusyRing.worked_tasks_self _ _ _ _) (RingSystem.setCall_calls_self _ _ _)

end Ends

/-! ### The accesses -/

/-- An actor that moves elements, on a side where its reservation is the next to be
published. -/
structure Moving (busy : BusyRing actors α) (actor : Fin actors) (order : RingOrder α)
    (exclusive : Bool) (haul : Haul α) (granted : Grant α) : Prop where
  within : busy.tasks actor = some (.transfer ⟨order, exclusive, .moving haul⟩)
  free : busy.system.calls actor = none
  found : busy.system.grants[haul.grant]? = some granted
  reservation : granted.reservation = haul.reservation
  due : (busy.system.core.cursors haul.reservation.side).tail = haul.reservation.head

namespace Moving

variable {busy : BusyRing actors α} {actor : Fin actors} {order : RingOrder α}
  {exclusive : Bool} {haul : Haul α} {granted : Grant α}

def further (busy : BusyRing actors α) (actor : Fin actors) (order : RingOrder α)
    (exclusive : Bool) (haul : Haul α) (granted : Grant α) (memory : Core α) (item : α) :
    BusyRing actors α :=
  busy.worked actor
    (busy.system.accessed memory haul.grant granted haul.moved.length item)
    (some (.transfer ⟨order, exclusive, .moving (haul.add item)⟩))

theorem accesses (moving : Moving busy actor order exclusive haul granted) {memory : Core α}
    (cursors : ∀ side, memory.cursors side = busy.system.core.cursors side) (item : α) :
    Moving (further busy actor order exclusive haul granted memory item) actor order exclusive
      (haul.add item) (granted.accessed haul.moved.length item) where
  within := BusyRing.worked_tasks_self _ _ _ _
  free := moving.free
  found := List.getElem?_set_self (List.getElem?_eq_some_iff.mp moving.found).1
  reservation := moving.reservation
  due := (congrArg Cursors.tail (cursors _)).trans moving.due

theorem ends_of_further (moving : Moving busy actor order exclusive haul granted)
    {memory core : Core α} {item : α} {report : RingReport actors α}
    (moves : haul.move? busy.system actor order =
      some (busy.system.accessed memory haul.grant granted haul.moved.length item,
        haul.add item))
    (ends : Ends (further busy actor order exclusive haul granted memory item) actor core
      report) : Ends busy actor core report := by
  have made : busy.next (.advance actor false) =
      (further busy actor order exclusive haul granted memory item, none) := by
    simp only [BusyRing.next, moving.within, BusyRing.stepTransfer, moves]
    rfl
  exact ends.step made fun _ _ => rfl

theorem ends_of_all (moving : Moving busy actor order exclusive haul granted)
    (all : haul.reservation.len.toNat ≤ haul.moved.length) :
    Ends busy actor (busy.system.core.publish haul.reservation exclusive)
      (.moved actor order (order.receipt busy.ring haul)) := by
  have nothing : haul.move? busy.system actor order = none := if_pos all
  have made : busy.next (.advance actor false) =
      (busy.worked actor
        (busy.system.setCall actor
          (some ⟨.publish haul.grant (Publication.start haul.reservation exclusive),
            busy.system.totals⟩))
        (some (.transfer ⟨order, exclusive, .publishing haul⟩)), none) := by
    simp only [BusyRing.next, moving.within, BusyRing.stepTransfer, nothing, RingSystem.next,
      moving.found, RingSystem.enter, moving.free, moving.reservation]
  refine Ends.step made (fun _ different => RingSystem.setCall_calls_other _ _ different) ?_
  exact Ends.publishing (BusyRing.worked_tasks_self _ _ _ _)
    (RingSystem.setCall_calls_self _ _ _) moving.due

theorem cursor_eq (moving : Moving busy actor order exclusive haul granted) (offset : Nat) :
    granted.cursor offset = cursorAt haul.reservation.head offset := by
  rw [← moving.reservation]
  rfl

theorem add_length (haul : Haul α) (item : α) :
    (haul.add item).moved.length = haul.moved.length + 1 := by
  rw [Haul.add, List.length_append, List.length_singleton]

theorem put {items rest : List α} {whole : Bool}
    (moving : Moving busy actor (.put items whole) exclusive haul granted)
    (enough : haul.reservation.len.toNat ≤ items.length)
    (left : items.take haul.reservation.len.toNat = haul.moved ++ rest) :
    Ends busy actor
      ((busy.system.core.writeRange (cursorAt haul.reservation.head haul.moved.length)
        rest).publish haul.reservation exclusive)
      (.moved actor (.put items whole) (RingOrder.receipt (.put items whole) busy.ring
        { haul with moved := items.take haul.reservation.len.toNat })) := by
  have length := congrArg List.length left
  rw [List.length_take, Nat.min_eq_left enough, List.length_append] at length
  induction rest generalizing busy haul granted with
  | nil =>
      rw [List.append_nil] at left
      rw [left]
      exact moving.ends_of_all (Nat.le_of_eq length)
  | cons item rest ih =>
      rw [List.length_cons] at length
      have more : ¬ haul.reservation.len.toNat ≤ haul.moved.length := by omega
      have listed : items[haul.moved.length]? = some item := by
        have inTaken := congrArg (·[haul.moved.length]?) left
        rwa [List.getElem?_take_of_lt (Nat.lt_of_not_le more),
          List.getElem?_append_right (Nat.le_refl _), Nat.sub_self, List.getElem?_cons_zero]
          at inTaken
      let cursor := cursorAt haul.reservation.head haul.moved.length
      have moves : haul.move? busy.system actor (.put items whole) =
          some (busy.system.accessed (busy.system.core.write cursor item) haul.grant granted
            haul.moved.length item, haul.add item) := by
        rw [Haul.move?, if_neg more]
        simp only [listed, RingSystem.next, moving.found, moving.cursor_eq]
        rfl
      have split : items.take haul.reservation.len.toNat = (haul.add item).moved ++ rest := by
        rw [left, Haul.add, List.append_assoc, List.singleton_append]
      have fewer : haul.reservation.len.toNat = (haul.add item).moved.length + rest.length := by
        rw [add_length]
        omega
      have later := ih (moving.accesses (Core.cursors_write _ cursor item) item) enough split fewer
      rw [add_length, cursorAt_add] at later
      exact moving.ends_of_further moves later

theorem take {most : UInt32} {whole : Bool} {count : Nat}
    (moving : Moving busy actor (.take most whole) exclusive haul granted)
    (left : haul.reservation.len.toNat = haul.moved.length + count) :
    Ends busy actor (busy.system.core.publish haul.reservation exclusive)
      (.moved actor (.take most whole) (.taken (haul.moved ++
        busy.system.core.readRange (cursorAt haul.reservation.head haul.moved.length)
          count))) := by
  induction count generalizing busy haul granted with
  | zero =>
      have ends := moving.ends_of_all (Nat.le_of_eq left)
      rw [Core.readRange, List.range_zero, List.map_nil, List.append_nil]
      exact ends
  | succ count ih =>
      have more : ¬ haul.reservation.len.toNat ≤ haul.moved.length := by omega
      let item := busy.system.core.read (cursorAt haul.reservation.head haul.moved.length)
      have moves : haul.move? busy.system actor (.take most whole) =
          some (busy.system.accessed busy.system.core haul.grant granted haul.moved.length item,
            haul.add item) := by
        rw [Haul.move?, if_neg more]
        simp only [RingSystem.next, moving.found, moving.cursor_eq]
        rfl
      have fewer : haul.reservation.len.toNat = (haul.add item).moved.length + count := by
        rw [add_length]
        omega
      have later := ih (moving.accesses (fun _ => rfl) item) fewer
      rw [add_length, cursorAt_add, Haul.add, List.append_assoc, List.singleton_append] at later
      rw [Core.readRange_succ]
      exact moving.ends_of_further moves later

/-- After the grant, the accesses and the publication are those of the order. -/
theorem ends_of_granted {grant : Nat} {reservation : Reservation}
    (moving : Moving busy actor order exclusive ⟨grant, reservation, []⟩ granted)
    (few : reservation.len ≤ order.requested) :
    Ends busy actor ((order.access busy.system.core reservation).1.publish reservation exclusive)
      (.moved actor order (order.receipt busy.ring
        ⟨grant, reservation, (order.access busy.system.core reservation).2⟩)) := by
  cases order with
  | put items whole =>
      have enough : reservation.len.toNat ≤ items.length := by
        rw [UInt32.le_iff_toNat_le, RingOrder.requested, requestSize_toNat] at few
        omega
      have ends := moving.put enough rfl
      rw [List.length_nil, cursorAt_zero] at ends
      exact ends
  | take most whole =>
      have ends := moving.take (Nat.zero_add reservation.len.toNat).symm
      rw [List.length_nil, cursorAt_zero, List.nil_append] at ends
      exact ends

end Moving

/-! ### The claim -/

/-- Of a ring, a receipt depends on the watermark and the capacity alone. -/
theorem RingOrder.receipt_congr (order : RingOrder α) {first second : Ring α}
    (watermark : first.watermark = second.watermark)
    (capacity : first.core.capacity = second.core.capacity) (grant : Nat)
    (reservation : Reservation) (moved : List α) :
    order.receipt first ⟨grant, reservation, moved⟩ =
      order.receipt second ⟨0, reservation, moved⟩ := by
  have quota : first.exceedsQuota reservation = second.exceedsQuota reservation := by
    unfold Ring.exceedsQuota Ring.usableCapacity
    rw [watermark, capacity]
  cases order with
  | put items whole => simp only [RingOrder.receipt, quota]
  | take most whole => rfl

theorem Core.AtRest.head_eq_tail {core : Core α} (rest : core.AtRest) (side : Side) :
    (core.cursors side).head = (core.cursors side).tail := by
  cases side with
  | producer => exact rest.1
  | consumer => exact rest.2

namespace Ends

variable {busy : BusyRing actors α} {actor : Fin actors} {order : RingOrder α}
  {exclusive : Bool} {since : SlotTotals} {reservation : Reservation}

theorem bidding (rest : busy.system.core.AtRest) (asks : 0 < order.requested)
    (within : busy.tasks actor = some (.transfer ⟨order, exclusive, .claiming⟩))
    (call : busy.system.calls actor = some
      ⟨.claim ⟨order.request busy.policy exclusive, 0, .bid reservation⟩, since⟩)
    (offered : busy.system.core.offer (order.request busy.policy exclusive)
      (busy.system.core.cursors order.side).head = .granted reservation) :
    Ends busy actor
      ((order.access (busy.system.core.setHead order.side reservation.next) reservation).1.publish
        reservation exclusive)
      (.moved actor order (order.receipt busy.ring ⟨0, reservation,
        (order.access (busy.system.core.setHead order.side reservation.next) reservation).2⟩)) := by
  obtain ⟨side, head, -, fits⟩ := Core.offer_granted offered
  have few := (Request.fit?_eq_some fits asks).2.2.1
  let system := busy.system.granted actor exclusive reservation order.side
  let after := busy.worked actor (system.setCall actor none)
    (some (.transfer ⟨order, exclusive, .moving ⟨busy.system.grants.length, reservation, []⟩⟩))
  have made : busy.next (.advance actor false) = (after, none) := by
    have same : (busy.system.core.cursors order.side).head = reservation.head := head.symm
    simp only [BusyRing.next, within, BusyRing.stepTransfer, RingSystem.next, call, Claim.step,
      RingOrder.request, same]
    cases exclusive <;> rfl
  have moving : Moving after actor order exclusive ⟨busy.system.grants.length, reservation, []⟩
      ⟨actor, exclusive, reservation, [], false⟩ := by
    refine ⟨BusyRing.worked_tasks_self _ _ _ _, RingSystem.setCall_calls_self _ _ _,
      List.getElem?_concat_length, rfl, ?_⟩
    change ((busy.system.core.setHead order.side reservation.next).cursors reservation.side).tail =
      reservation.head
    rw [Core.tail_setHead, head, side]
    exact (rest.head_eq_tail order.side).symm
  have watermark : after.ring.watermark = busy.ring.watermark := rfl
  have capacity : after.ring.core.capacity = busy.ring.core.capacity :=
    Core.setHead_capacity _ _ _
  have ends := moving.ends_of_granted few
  rw [order.receipt_congr watermark capacity] at ends
  exact step made (fun _ different => RingSystem.setCall_calls_other _ _ different) ends

theorem claiming (rest : busy.system.core.AtRest) (asks : order.requested ≠ 0)
    (within : busy.tasks actor = some (.transfer ⟨order, exclusive, .claiming⟩))
    (call : busy.system.calls actor = some
      ⟨.claim (Claim.start busy.system.core (order.request busy.policy exclusive)), since⟩) :
    Ends busy actor (busy.ring.fulfil order exclusive).1.core
      (.moved actor order (busy.ring.fulfil order exclusive).2) := by
  rcases claims : busy.ring.core.claim (order.request busy.ring.policy exclusive) with
    ⟨core, verdict⟩
  obtain ⟨available, rfl, rfl, offered⟩ | ⟨reservation, rfl, rfl, offered⟩ :=
    Core.claim_inversion claims
  · have short : busy.system.core.offer (order.request busy.policy exclusive)
        (busy.system.core.cursors (order.request busy.policy exclusive).side).head =
          .short available := offered
    have made : busy.next (.advance actor false) =
        (busy.worked actor (busy.system.setCall actor none) none,
          some (.moved actor order (order.refused busy.policy available))) := by
      simp only [BusyRing.next, within, BusyRing.stepTransfer, RingSystem.next, call, Claim.step,
        Claim.start, short, RingSystem.settle, RingSystem.recordClaim]
    have ends := last made (RingSystem.setCall_calls_self _ _ _)
      fun _ different => RingSystem.setCall_calls_other _ _ different
    simp only [Ring.fulfil, if_neg asks, claims]
    exact ends
  · have granted : busy.system.core.offer (order.request busy.policy exclusive)
        (busy.system.core.cursors (order.request busy.policy exclusive).side).head =
          .granted reservation := offered
    have made : busy.next (.advance actor false) =
        (busy.worked actor
          (busy.system.setCall actor (some
            ⟨.claim ⟨order.request busy.policy exclusive, 0, .bid reservation⟩, since⟩))
          (some (.transfer ⟨order, exclusive, .claiming⟩)), none) := by
      simp only [BusyRing.next, within, BusyRing.stepTransfer, RingSystem.next, call, Claim.step,
        Claim.start, granted, RingSystem.settle]
    have positive : 0 < order.requested := UInt32.pos_iff_ne_zero.mpr asks
    simp only [Ring.fulfil, if_neg asks, claims]
    refine step made (fun _ different => RingSystem.setCall_calls_other _ _ different) ?_
    exact bidding rest positive (BusyRing.worked_tasks_self _ _ _ _)
      (RingSystem.setCall_calls_self _ _ _) granted

end Ends

/-! ## Orders one after the other -/

/-- A transfer whose actor has a ring at rest to itself does at last what the order comes to
at once, and leaves the other actors as they are. -/
theorem BusyRing.fulfils (busy : BusyRing actors α) {actor : Fin actors}
    (rest : busy.system.core.AtRest) (idle : busy.tasks actor = none)
    (free : busy.system.calls actor = none) (order : RingOrder α) (exclusive : Bool) :
    ∃ count after,
      busy.run (.start actor order exclusive :: List.replicate count (.advance actor false)) =
        (after, [.moved actor order (busy.ring.fulfil order exclusive).2]) ∧
      Leaves actor busy after (busy.ring.fulfil order exclusive).1.core := by
  by_cases nothing : order.requested = 0
  · refine ⟨0, busy, ?_, ?_⟩
    · simp [BusyRing.run, BusyRing.next, idle, nothing, Ring.fulfil]
    · rw [Ring.fulfil, if_pos nothing]
      exact ⟨rfl, idle, free, fun _ _ => rfl, fun _ _ => rfl⟩
  · let claimer := busy.worked actor
      (busy.system.setCall actor (some
        ⟨.claim (Claim.start busy.system.core (order.request busy.policy exclusive)),
          busy.system.totals⟩))
      (some (.transfer ⟨order, exclusive, .claiming⟩))
    have starts : busy.next (.start actor order exclusive) = (claimer, none) := by
      simp only [BusyRing.next, idle, if_neg nothing, RingSystem.next, RingSystem.enter, free]
      rfl
    have ends : Ends claimer actor (busy.ring.fulfil order exclusive).1.core
        (.moved actor order (busy.ring.fulfil order exclusive).2) :=
      Ends.claiming rest nothing (BusyRing.worked_tasks_self _ _ _ _)
        (RingSystem.setCall_calls_self _ _ _)
    obtain ⟨after, finishes, leaves⟩ := ends
    obtain ⟨count, run⟩ := finishes.run
    refine ⟨count, after, ?_, ?_⟩
    · simp only [BusyRing.run, starts, run, Option.toList_none, List.nil_append]
    · exact Ends.leaves_of_worked
        (fun _ different => RingSystem.setCall_calls_other _ _ different) leaves

theorem RingOrder.access_cursors (order : RingOrder α) (core : Core α)
    (reservation : Reservation) (side : Side) :
    (order.access core reservation).1.cursors side = core.cursors side := by
  cases order with
  | put items whole => exact Core.writeRange_cursors _ _ _ _
  | take most whole => rfl

/-- A side that publishes all it has just reserved is at rest again. -/
theorem Core.AtRest.published {core memory : Core α} (rest : core.AtRest)
    {reservation : Reservation}
    (memoryCursors : ∀ side, memory.cursors side =
      (core.setHead reservation.side reservation.next).cursors side)
    (atHead : reservation.head = (core.cursors reservation.side).head) (exclusive : Bool) :
    (memory.publish reservation exclusive).AtRest := by
  have due : (memory.cursors reservation.side).tail = reservation.head := by
    rw [memoryCursors, Core.tail_setHead, atHead]
    exact (rest.head_eq_tail _).symm
  have sides : ∀ side, ((memory.setTail reservation.side reservation.next).cursors side).head =
      ((memory.setTail reservation.side reservation.next).cursors side).tail := by
    intro side
    by_cases same : side = reservation.side
    · rw [same, Core.cursors_setTail_self, memoryCursors, Core.cursors_setHead_self]
    · rw [Core.cursors_setTail_other _ _ same, memoryCursors, Core.cursors_setHead_other _ _ same]
      exact rest.head_eq_tail side
  rw [Core.publish_due due]
  exact ⟨sides .producer, sides .consumer⟩

theorem Ring.fulfil_atRest {ring : Ring α} (rest : ring.core.AtRest) (order : RingOrder α)
    (exclusive : Bool) : (ring.fulfil order exclusive).1.core.AtRest := by
  by_cases nothing : order.requested = 0
  · rw [fulfil, if_pos nothing]
    exact rest
  rcases claims : ring.core.claim (order.request ring.policy exclusive) with ⟨core, verdict⟩
  simp only [fulfil, if_neg nothing, claims]
  obtain ⟨available, rfl, -, -⟩ | ⟨reservation, rfl, rfl, offered⟩ := Core.claim_inversion claims
  · exact rest
  · obtain ⟨side, head, -, -⟩ := Core.offer_granted offered
    rw [← side] at head ⊢
    exact rest.published (order.access_cursors _ _) head exclusive

theorem Ring.fulfil_memory (ring : Ring α) (order : RingOrder α) (exclusive : Bool) :
    (ring.fulfil order exclusive).1 =
      { ring with core := (ring.fulfil order exclusive).1.core } := by
  unfold fulfil
  split
  · rfl
  · split <;> rfl

def Ring.fulfilAll (ring : Ring α) :
    List (Fin actors × RingOrder α × Bool) → Ring α × List (RingReport actors α)
  | [] => (ring, [])
  | (actor, order, exclusive) :: orders =>
      let (changed, receipt) := ring.fulfil order exclusive
      let (final, reports) := changed.fulfilAll orders
      (final, .moved actor order receipt :: reports)

structure BusyRing.Quiet (busy : BusyRing actors α) : Prop where
  rest : busy.system.core.AtRest
  idle : ∀ actor, busy.tasks actor = none
  free : ∀ actor, busy.system.calls actor = none

theorem BusyRing.run_append (busy : BusyRing actors α) (first second : List (RingAct actors α)) :
    busy.run (first ++ second) =
      (((busy.run first).1.run second).1,
        (busy.run first).2 ++ ((busy.run first).1.run second).2) := by
  induction first generalizing busy with
  | nil => rfl
  | cons act first ih => simp only [List.cons_append, BusyRing.run, ih, List.append_assoc]

namespace BusyRing.Quiet

variable {busy after : BusyRing actors α} {actor : Fin actors}

theorem start (capacity : Capacity) (policy : TransferPolicy) (watermark : Option UInt32)
    (blank : α) (origin : Cursor) :
    (BusyRing.start capacity policy watermark blank origin : BusyRing actors α).Quiet :=
  ⟨Core.create_atRest _ _ _, fun _ => rfl, fun _ => rfl⟩

theorem of_leaves (quiet : busy.Quiet) {core : Core α} (rest : core.AtRest)
    (leaves : Leaves actor busy after core) : after.Quiet where
  rest := by
    have memory : after.system.core = core := congrArg Ring.core leaves.ring
    rwa [memory]
  idle := by
    intro other
    by_cases same : other = actor
    · rw [same, leaves.task]
    · rw [leaves.tasks other same, quiet.idle other]
  free := by
    intro other
    by_cases same : other = actor
    · rw [same, leaves.call]
    · rw [leaves.calls other same, quiet.free other]

/-- If every actor lets the others finish, then the ring goes through the operations of
its orders in their sequence, as one thread would run them. -/
theorem fulfilsAll (quiet : busy.Quiet) (orders : List (Fin actors × RingOrder α × Bool)) :
    ∃ acts after, busy.run acts = (after, (busy.ring.fulfilAll orders).2) ∧
      after.ring = (busy.ring.fulfilAll orders).1 ∧ after.Quiet := by
  induction orders generalizing busy with
  | nil => exact ⟨[], busy, rfl, rfl, quiet⟩
  | cons order orders ih =>
      obtain ⟨actor, order, exclusive⟩ := order
      obtain ⟨count, middle, first, leaves⟩ :=
        busy.fulfils quiet.rest (quiet.idle actor) (quiet.free actor) order exclusive
      have rest : (busy.ring.fulfil order exclusive).1.core.AtRest :=
        Ring.fulfil_atRest quiet.rest order exclusive
      have changed : middle.ring = (busy.ring.fulfil order exclusive).1 :=
        leaves.ring.trans (Ring.fulfil_memory _ _ _).symm
      obtain ⟨acts, after, later, final, quietAfter⟩ := ih (quiet.of_leaves rest leaves)
      refine ⟨.start actor order exclusive :: List.replicate count (.advance actor false) ++ acts,
        after, ?_, ?_, quietAfter⟩
      · rw [BusyRing.run_append, first, later, changed]
        rfl
      · rw [final, changed]
        rfl

end BusyRing.Quiet

end RingPool

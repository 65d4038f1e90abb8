import RingPool.Proofs.Ring.StaleHeads
import RingPool.Ring.Operations

/-!
# When a claim is refused, and what it is told

No compare-exchange checks the head by which a claim is refused.  As heads only move on, a claim
that goes by an old one sees too much room and never too little (`Layout.room_of_old_head`), and
so a refusal is justified at the step that gives it, the last load of the other side's tail
(`refusals_are_justified`).

What a refusal reports is the room that the claim sees: the room at that step, and the slots that
its side has reserved since the claim took its head
(`refusals_report_room_and_reserved_since`).  That can be more than the ring has slots:
in `refusal_reports_more_than_fits` a claim of five slots is told that four are free, on a ring
with three.
-/

set_option autoImplicit false

namespace RingPool

open Grant

variable {actors : Nat} {α : Type} {origin : Cursor}

/-! ## What a refusal says -/

theorem Request.fit?_eq_none {request : Request} {room : UInt32}
    (refused : request.fit? room = none) :
    room < request.count ∧ (request.allowPartial = true → room = 0) := by
  unfold Request.fit? at refused
  split at refused
  case isTrue => cases refused
  case isFalse tooMany =>
    split at refused
    case isTrue => cases refused
    case isFalse noPart =>
      refine ⟨UInt32.not_le.mp tooMany, ?_⟩
      intro partly
      rw [partly, Bool.true_and, decide_eq_true_iff] at noPart
      exact UInt32.le_zero_iff.mp (UInt32.not_lt.mp noPart)

theorem Core.offer_short {core : Core α} {request : Request} {head : Cursor} {available : UInt32}
    (offered : core.offer request head = .short available) :
    available = core.room request.side head ∧ request.fit? available = none := by
  unfold Core.offer at offered
  simp only at offered
  split at offered
  case h_1 => cases offered
  case h_2 unfit =>
    cases offered
    exact ⟨rfl, unfit⟩

namespace RingSystem

variable {system : RingSystem actors α} {actor : Fin actors}

/-- A claim that is refused reports the room by the head that it goes by, and leaves the memory
and all grants as they are. -/
theorem claim_of_short {refused : Bool} {available : UInt32} {attempts : Nat}
    (short : (system.next (.advance actor refused)).2 =
      some (.claimed ⟨.short available, attempts⟩)) :
    (∃ claim since, system.calls actor = some ⟨.claim claim, since⟩ ∧
      available = system.core.room claim.request.side claim.basis ∧
      claim.request.fit? available = none) ∧
    (system.next (.advance actor refused)).1 = system.setCall actor none := by
  have effect := system.effect_of_next (.advance actor refused)
  generalize (system.next (.advance actor refused)).1 = after at effect ⊢
  rw [short] at effect
  cases effect with
  | claimShort _ _ claim since head _ within seeking offered =>
      obtain ⟨room, unfit⟩ := Core.offer_short offered
      rw [← Claim.basis_of_seek seeking] at room
      exact ⟨⟨claim, since, within, room, unfit⟩, rfl⟩

/-! ## A claim that has not come to its end -/

/-- If a move is a further step of the actor's call, it leaves the memory and all grants as they
are. -/
def LeavesMemory (actor : Fin actors) (system : RingSystem actors α)
    (move : RingMove actors α) : Prop :=
  ∀ refused, move = .advance actor refused →
    (system.next move).1.core = system.core ∧ (system.next move).1.grants = system.grants

theorem claim_goesOn {claim : Claim} {since : SlotTotals}
    (within : system.calls actor = some ⟨.claim claim, since⟩) {move : RingMove actors α}
    (stays : (system.next move).1.calls actor ≠ none) :
    system.LeavesMemory actor move ∧
      ∃ later, (system.next move).1.calls actor = some ⟨.claim later, since⟩ ∧
        later.request = claim.request := by
  by_cases mine : move.mover = actor
  case neg =>
    rw [calls_next_other mine]
    exact ⟨fun refused own => absurd (congrArg RingMove.mover own) mine, claim, within, rfl⟩
  case pos =>
  subst mine
  unfold LeavesMemory
  have effect := system.effect_of_next move
  generalize (system.next move).1 = after at effect stays ⊢
  generalize (system.next move).2 = event at effect
  cases effect with
  | stay => exact ⟨fun _ _ => ⟨rfl, rfl⟩, claim, within, rfl⟩
  | writes | reads => exact ⟨fun _ own => (by cases own), claim, within, rfl⟩
  | claimOffered mover refused earlier started head offer calling =>
      cases within.symm.trans calling
      exact ⟨fun _ _ => ⟨rfl, rfl⟩, _, setCall_calls_self _ _ _, rfl⟩
  | claimOutrun mover refused earlier started offer calling =>
      cases within.symm.trans calling
      exact ⟨fun _ _ => ⟨rfl, rfl⟩, _, setCall_calls_self _ _ _, rfl⟩
  | claimStarts mover asked free => cases within.symm.trans free
  | publicationStarts mover grant exclusive granted free => cases within.symm.trans free
  | censusStarts mover free => cases within.symm.trans free
  | publicationReady mover refused grant publication started calling =>
      cases within.symm.trans calling
  | publicationWaits mover refused grant publication started calling =>
      cases within.symm.trans calling
  | publicationPauses mover refused grant publication started calling =>
      cases within.symm.trans calling
  | censusLooks mover refused started calling => cases within.symm.trans calling
  | claimShort | claimGranted | publicationSettles | censusCounts =>
      exact absurd (setCall_calls_self _ _ _) stays

theorem claim_goesOn_run {claim : Claim} {since : SlotTotals}
    (within : system.calls actor = some ⟨.claim claim, since⟩) {moves : List (RingMove actors α)}
    (stays : system.Throughout (fun system => system.calls actor ≠ none) moves) :
    system.Keeps (LeavesMemory actor) moves ∧
      ∃ later, (system.run moves).1.calls actor = some ⟨.claim later, since⟩ ∧
        later.request = claim.request := by
  induction moves generalizing system claim with
  | nil => exact ⟨trivial, claim, within, rfl⟩
  | cons move moves inductionHypothesis =>
      obtain ⟨leaves, middle, goesOn, same⟩ := claim_goesOn within stays.1
      obtain ⟨leavesLater, later, last, sameLater⟩ := inductionHypothesis goesOn stays.2
      exact ⟨⟨leaves, leavesLater⟩, later, last, sameLater.trans same⟩

end RingSystem

/-! ## Refusals are justified -/

/-- What does not suit a claim by the head that it goes by would not suit it by the present head
either. -/
theorem Coherent.refuses {system : RingSystem actors α} (coherent : Coherent origin system)
    (window : system.WithinWindow) {actor : Fin actors} {claim : Claim} {since : SlotTotals}
    (within : system.calls actor = some ⟨.claim claim, since⟩)
    (unfit : claim.request.fit? (system.core.room claim.request.side claim.basis) = none) :
    let room := system.core.room claim.request.side (system.core.cursors claim.request.side).head
    room < claim.request.count ∧ (claim.request.allowPartial = true → room = 0) := by
  intro room
  obtain ⟨known, facts⟩ := coherent.claimFacts within
  have near : reservedOn claim.request.side system.grants <
      since.reserved claim.request.side + windowSize := window actor _ within
  have notBefore := facts.notBefore
  have seen := coherent.layout.room_of_old_head claim.request.side facts.notAfter (by omega)
  rw [← facts.basis] at seen
  have enough : room ≤ system.core.room claim.request.side claim.basis := by
    rw [UInt32.le_iff_toNat_le, seen]
    exact Nat.le_add_right _ _
  obtain ⟨less, none⟩ := Request.fit?_eq_none unfit
  refine ⟨UInt32.lt_of_le_of_lt enough less, ?_⟩
  intro partly
  rw [none partly] at enough
  exact UInt32.le_zero_iff.mp enough

/-- At the step that refuses it, there is less room on the side than a claim asks for, and none
at all if it would take a part.  No step of the call has changed a cursor, a slot or a grant,
whatever the others did meanwhile and however often a compare-exchange of it failed. -/
theorem refusals_are_justified (capacity : Capacity) (blank : α) (origin : Cursor)
    (before between : List (RingMove actors α)) (actor : Fin actors) (request : Request)
    (orderly : (RingSystem.start capacity blank origin).Orderly
      (before ++ .claim actor request :: between))
    (windowed : (RingSystem.start capacity blank origin).Windowed
      (before ++ .claim actor request :: between))
    {first begun reached : RingSystem actors α}
    (begins : ((RingSystem.start capacity blank origin).run before).1 = first)
    (calls : (first.next (.claim actor request)).1 = begun)
    (stays : begun.Throughout (fun system => system.calls actor ≠ none) between)
    (ends : (begun.run between).1 = reached) {refused : Bool} {available : UInt32}
    {attempts : Nat}
    (short : (reached.next (.advance actor refused)).2 =
      some (.claimed ⟨.short available, attempts⟩)) :
    let room := reached.core.room request.side (reached.core.cursors request.side).head
    (room < request.count ∧ (request.allowPartial = true → room = 0)) ∧
      (begun.core = first.core ∧ begun.grants = first.grants) ∧
      begun.Keeps (RingSystem.LeavesMemory actor) between ∧
      reached.LeavesMemory actor (.advance actor refused) := by
  intro room
  have reachedBy : ((RingSystem.start capacity blank origin).run
      (before ++ .claim actor request :: between)).1 = reached := by
    rw [RingSystem.run_append_state, begins, ← ends, ← calls]
    rfl
  obtain ⟨coherent, window⟩ := (Coherent.start capacity blank origin).run
    (withinWindow_start capacity blank origin) _ orderly windowed
  rw [reachedBy] at coherent window
  -- The actor was free, and so the call is the claim that it then started.
  have free : first.calls actor = none := by
    rw [← begins]
    exact ((RingSystem.keeps_append _).mp orderly).2.1.1
  have starts := RingSystem.next_claim_starts free request
  rw [calls] at starts
  have startsWithin : begun.calls actor =
      some ⟨.claim (Claim.start first.core request), first.totals⟩ := by
    rw [starts, RingSystem.setCall_calls_self]
  obtain ⟨leaves, later, goesOn, asked⟩ := RingSystem.claim_goesOn_run startsWithin stays
  rw [ends] at goesOn
  obtain ⟨⟨claim, since, within, sees, unfit⟩, leavesLast⟩ := RingSystem.claim_of_short short
  cases goesOn.symm.trans within
  change later.request = request at asked
  subst asked
  rw [sees] at unfit
  refine ⟨coherent.refuses window within unfit, ⟨by rw [starts]; rfl, by rw [starts]; rfl⟩, leaves,
    ?_⟩
  intro again same
  rw [leavesLast]
  exact ⟨rfl, rfl⟩

def twoSlots : Request := ⟨.producer, 2, false, false⟩

def outrunMoves : List (RingMove 3 Nat) :=
  [.advance sampleRival false, .claim sampleProducer twoSlots, .advance sampleProducer false,
    .advance sampleProducer false, .advance sampleRival false]

def outrunStart : RingSystem 3 Nat := (sampleStart.next (.claim sampleRival twoSlots)).1

def outrunEnd : RingSystem 3 Nat := (outrunStart.run outrunMoves).1

/-- The producer that was outrun finds one free slot. -/
theorem refusals_are_justified_sample :
    sampleStart.Orderly (.claim sampleRival twoSlots :: outrunMoves) ∧
      sampleStart.Windowed (.claim sampleRival twoSlots :: outrunMoves) ∧
      (outrunEnd.next (.advance sampleRival false)).2 = some (.claimed ⟨.short 1, 1⟩) ∧
      outrunEnd.core.room .producer (outrunEnd.core.cursors .producer).head < 2 ∧
      outrunStart.Keeps (RingSystem.LeavesMemory sampleRival) outrunMoves := by
  have orderly : sampleStart.Orderly ([] ++ .claim sampleRival twoSlots :: outrunMoves) := by
    decide +kernel
  have windowed : sampleStart.Windowed ([] ++ .claim sampleRival twoSlots :: outrunMoves) := by
    decide +kernel
  have short : (outrunEnd.next (.advance sampleRival false)).2 =
      some (.claimed ⟨.short 1, 1⟩) := rfl
  have stays : outrunStart.Throughout (fun system => system.calls sampleRival ≠ none)
      outrunMoves := by
    decide +kernel
  obtain ⟨⟨less, -⟩, -, leaves, -⟩ := refusals_are_justified sampleCapacity 0 0xFFFFFFFE []
    outrunMoves sampleRival twoSlots orderly windowed rfl rfl stays rfl short
  exact ⟨orderly, windowed, short, less, leaves⟩

/-! ## What a refusal reports -/

namespace RingOrder

variable {order : RingOrder α} {refusal : RingError} {left : List α}

/-- Of all answers to a refused claim only that of a whole bulk is an error. -/
theorem exceeded_of_refused {policy : TransferPolicy} {available : UInt32}
    (exceeded : order.refused policy available = .exceeded refusal left) :
    policy = .fixed ∧ refusal = .capacityExceeded order.requested available := by
  unfold refused at exceeded
  split at exceeded
  case h_1 => cases exceeded
  case h_2 =>
    split at exceeded
    case h_1 =>
      cases exceeded
      exact ⟨rfl, rfl⟩
    case h_2 => cases exceeded
  case h_3 => cases exceeded

theorem receipt_ne_exceeded (ring : Ring α) (haul : Haul α) :
    order.receipt ring haul ≠ .exceeded refusal left := by
  intro exceeded
  cases order <;> cases exceeded

end RingOrder

/-- An operation that returns an error has had a claim refused, and tells what the claim does. -/
theorem BusyRing.claim_of_exceeded {busy : BusyRing actors α} {actor : Fin actors}
    {refused : Bool} {order : RingOrder α} {refusal : RingError} {left : List α}
    (exceeded : (busy.next (.advance actor refused)).2 =
      some (.moved actor order (.exceeded refusal left))) :
    busy.policy = .fixed ∧ ∃ available attempts,
      (busy.system.next (.advance actor refused)).2 =
        some (.claimed ⟨.short available, attempts⟩) ∧
      refusal = .capacityExceeded order.requested available := by
  rw [BusyRing.next] at exceeded
  split at exceeded
  case h_1 => cases exceeded
  case h_2 => split at exceeded <;> cases exceeded
  case h_3 transfer within =>
    split at exceeded
    case h_1 => cases exceeded
    case h_2 after receipt step =>
      cases exceeded
      unfold stepTransfer at step
      split at step
      case h_1 =>
        split at step
        case h_1 => cases step
        case h_2 available attempts short =>
          obtain ⟨fixed, told⟩ := RingOrder.exceeded_of_refused
            (Progress.returned.inj (congrArg Prod.snd step))
          exact ⟨fixed, available, attempts, congrArg Prod.snd short, told⟩
        case h_3 => cases step
      case h_2 => split at step <;> cases step
      case h_3 haul stage =>
        split at step
        case h_1 =>
          have settled := Progress.returned.inj (congrArg Prod.snd step)
          exact absurd settled (RingOrder.receipt_ne_exceeded busy.ring haul)
        case h_2 => cases step

theorem RingSystem.TakesHead.room_seen {first : RingSystem actors α} {actor : Fin actors}
    {take : RingMove actors α} {between : List (RingMove actors α)}
    (heads : HeadsCounted origin first) (coherent : Coherent origin first)
    (window : first.WithinWindow) (orderly : first.Orderly (take :: between))
    (windowed : first.Windowed (take :: between)) (takes : first.TakesHead actor take)
    (quiet : (first.next take).1.Keeps (fun system move => ¬ system.TakesHead actor move) between)
    {claim : Claim} {since : SlotTotals}
    (within : ((first.next take).1.run between).1.calls actor = some ⟨.claim claim, since⟩) :
    let taken := (first.next take).1
    let reached := (taken.run between).1
    let side := claim.request.side
    reservedOn side taken.grants ≤ reservedOn side reached.grants ∧
      (reached.core.room side claim.basis).toNat =
        (reached.core.room side (reached.core.cursors side).head).toNat +
          (reservedOn side reached.grants - reservedOn side taken.grants) := by
  intro taken reached side
  have coherentTaken := coherent.next window take orderly.1
  obtain ⟨coherentReached, windowReached⟩ :=
    coherentTaken.run windowed.1 between orderly.2 windowed.2
  obtain ⟨lengths, slots⟩ : Grew taken.grants reached.grants side :=
    (heads.next take orderly.1).grew_run between orderly.2 side
  obtain ⟨⟨earlier, withinThen, sameRequest⟩, basis⟩ := takes.claim_before quiet within
  -- The claim began before it took its head, and so its side has not come round since.
  obtain ⟨known, facts⟩ := coherentTaken.claimFacts withinThen
  have began := facts.notBefore.trans facts.notAfter
  rw [sameRequest] at began
  change since.reserved side ≤ reservedOn side taken.grants at began
  have within : reservedOn side reached.grants < since.reserved side + windowSize :=
    windowReached actor _ within
  have ordered : reservedOn side taken.grants ≤ reservedOn side reached.grants := by omega
  have near : reservedOn side reached.grants < reservedOn side taken.grants + windowSize := by
    omega
  refine ⟨ordered, ?_⟩
  rw [basis, coherentTaken.layout.head_eq]
  exact coherentReached.layout.room_of_old_head side ordered near

/-- A claim that is refused reports the room on its side and the slots that the side has reserved
since the claim took its head. -/
theorem refusals_report_room_and_reserved_since (capacity : Capacity) (blank : α) (origin : Cursor)
    (before between : List (RingMove actors α)) (take : RingMove actors α)
    (orderly : (RingSystem.start capacity blank origin).Orderly (before ++ take :: between))
    (windowed : (RingSystem.start capacity blank origin).Windowed (before ++ take :: between))
    (actor : Fin actors) {first taken reached : RingSystem actors α}
    (begins : ((RingSystem.start capacity blank origin).run before).1 = first)
    (takes : first.TakesHead actor take) (continues : (first.next take).1 = taken)
    (keeps : taken.Keeps (fun system move => ¬ system.TakesHead actor move) between)
    (ends : (taken.run between).1 = reached) {request : Request}
    (claiming : reached.claiming actor = some request) {refused : Bool} {available : UInt32}
    {attempts : Nat}
    (short : (reached.next (.advance actor refused)).2 =
      some (.claimed ⟨.short available, attempts⟩)) :
    let room := reached.core.room request.side (reached.core.cursors request.side).head
    (taken.totals.reserved request.side ≤ reached.totals.reserved request.side ∧
      available.toNat = room.toNat +
        (reached.totals.reserved request.side - taken.totals.reserved request.side)) ∧
    (room ≤ capacity.mask ∧ available < request.count) ∧
    (request.allowPartial = true ∨ request.exclusive = true ∨ request.count ≤ capacity.word ∨
        reached.totals.reserved request.side = taken.totals.reserved request.side →
      available ≤ capacity.mask) ∧
    ∀ busy : BusyRing actors α, busy.system = reached → ∀ order refusal left,
      (busy.next (.advance actor refused)).2 =
          some (.moved actor order (.exceeded refusal left)) →
        busy.policy = .fixed ∧ refusal = .capacityExceeded order.requested available := by
  intro room
  obtain ⟨orderlyBefore, orderlyLater⟩ := (RingSystem.keeps_append _).mp orderly
  obtain ⟨windowedBefore, windowedLater⟩ := (RingSystem.throughout_append _).mp windowed
  have heads := (HeadsCounted.start capacity blank origin).run before orderlyBefore
  obtain ⟨coherent, window⟩ := (Coherent.start capacity blank origin).run
    (withinWindow_start capacity blank origin) before orderlyBefore windowedBefore
  rw [begins] at heads coherent window orderlyLater windowedLater
  subst continues ends
  obtain ⟨coherentLast, -⟩ := coherent.run window (take :: between) orderlyLater windowedLater
  obtain ⟨⟨claim, since, within, sees, unfit⟩, -⟩ := RingSystem.claim_of_short short
  have asked : claim.request = request := by
    rw [RingSystem.claiming, within, Option.some.injEq] at claiming
    exact claiming
  subst asked
  obtain ⟨ordered, reported⟩ :=
    takes.room_seen heads coherent window orderlyLater windowedLater keeps within
  rw [← sees] at reported
  have inRing : room ≤ capacity.mask := by
    have same : ((first.next take).1.run between).1.core.capacity = capacity := by
      rw [RingSystem.capacity_run, RingSystem.capacity_next, ← begins, RingSystem.capacity_run]
      rfl
    rw [← same]
    exact coherentLast.layout.room_le_mask claim.request.side
  obtain ⟨less, none⟩ := Request.fit?_eq_none unfit
  refine ⟨⟨ordered, reported⟩, ⟨inRing, less⟩, ?_, ?_⟩
  case refine_1 =>
    rintro (partly | exclusive | small | still)
    · rw [none partly]
      exact UInt32.zero_le
    · -- Nobody else moves the head of an exclusive claim.
      obtain ⟨last, factsLast⟩ := coherentLast.claimFacts within
      rw [factsLast.basis, factsLast.exclusive exclusive, ← coherentLast.layout.head_eq] at sees
      rw [sees]
      exact inRing
    · rw [UInt32.le_iff_toNat_le, Capacity.mask_toNat]
      rw [UInt32.lt_iff_toNat_lt] at less
      rw [UInt32.le_iff_toNat_le, Capacity.word_toNat] at small
      omega
    · change reservedOn claim.request.side ((first.next take).1.run between).1.grants =
        reservedOn claim.request.side (first.next take).1.grants at still
      rw [still, Nat.sub_self, Nat.add_zero] at reported
      rw [UInt32.toNat_inj.mp reported]
      exact inRing
  case refine_2 =>
    intro busy same order refusal left exceeded
    obtain ⟨fixed, told, times, refusedClaim, tells⟩ := BusyRing.claim_of_exceeded exceeded
    rw [same] at refusedClaim
    cases refusedClaim.symm.trans short
    exact ⟨fixed, tells⟩

def fiveSlots : Request := ⟨.producer, 5, false, false⟩

def lapMoves : List (RingMove 3 Nat) := RingSystem.laps sampleRival sampleConsumer 7 0 1

def lapStart : RingSystem 3 Nat := (sampleStart.next (.claim sampleProducer fiveSlots)).1

def lapEnd : RingSystem 3 Nat := (lapStart.run lapMoves).1

/-- One slot has been reserved since the claim took its head, and so it reports one slot more than
the three that are free. -/
theorem refusals_report_room_and_reserved_since_sample :
    sampleStart.Orderly (.claim sampleProducer fiveSlots :: lapMoves) ∧
      sampleStart.Windowed (.claim sampleProducer fiveSlots :: lapMoves) ∧
      (lapEnd.next (.advance sampleProducer false)).2 = some (.claimed ⟨.short 4, 0⟩) ∧
      (4 : UInt32).toNat = (lapEnd.core.room .producer (lapEnd.core.cursors .producer).head).toNat +
        (lapEnd.totals.reserved .producer - lapStart.totals.reserved .producer) := by
  have orderly : sampleStart.Orderly ([] ++ .claim sampleProducer fiveSlots :: lapMoves) := by
    decide +kernel
  have windowed : sampleStart.Windowed ([] ++ .claim sampleProducer fiveSlots :: lapMoves) := by
    decide +kernel
  have keeps : lapStart.Keeps (fun system move => ¬ system.TakesHead sampleProducer move)
      lapMoves := by
    apply RingSystem.keeps_of_forall_mem
    intro move member system takes
    have mover := takes.mover
    rcases RingSystem.mover_of_mem_laps member with second | third
    · cases second.symm.trans mover
    · cases third.symm.trans mover
  have short : (lapEnd.next (.advance sampleProducer false)).2 =
      some (.claimed ⟨.short 4, 0⟩) := rfl
  have takes : sampleStart.TakesHead sampleProducer (.claim sampleProducer fiveSlots) :=
    ⟨rfl, rfl⟩
  have claiming : lapEnd.claiming sampleProducer = some fiveSlots := rfl
  exact ⟨orderly, windowed, short, (refusals_report_room_and_reserved_since sampleCapacity 0
    0xFFFFFFFE [] lapMoves _ orderly windowed sampleProducer rfl takes rfl keeps rfl claiming
    short).1.2⟩

/-- The same with whole operations: an enqueue of five items is paused after the first step of its
claim, while others pass one item. -/
def lapActs : List (RingAct 3 Nat) :=
  .start sampleProducer (.enqueueBulk [1, 2, 3, 4, 5]) false ::
    .start sampleRival (.enqueue 7) false :: List.replicate 6 (.advance sampleRival false) ++
    .start sampleConsumer .dequeue false :: List.replicate 6 (.advance sampleConsumer false)

def lapRing : BusyRing 3 Nat := .start sampleCapacity .fixed none 0 0xFFFFFFFE

/-- On a ring of three usable slots a claim, and with it a bulk of the whole-or-nothing policy, is
told that four are free. -/
theorem refusal_reports_more_than_fits :
    sampleCapacity.mask = 3 ∧
    (sampleStart.Disciplined (.claim sampleProducer fiveSlots :: lapMoves) ∧
      sampleStart.Windowed (.claim sampleProducer fiveSlots :: lapMoves) ∧
      (lapEnd.next (.advance sampleProducer false)).2 = some (.claimed ⟨.short 4, 0⟩)) ∧
    lapRing.Orderly lapActs ∧ lapRing.Windowed lapActs ∧
      ((lapRing.run lapActs).1.next (.advance sampleProducer false)).2 =
        some (.moved sampleProducer (.enqueueBulk [1, 2, 3, 4, 5])
          (.exceeded (.capacityExceeded 5 4) [1, 2, 3, 4, 5])) := by
  refine ⟨by decide, ⟨?_, ?_, rfl⟩, ?_, ?_, rfl⟩
  · decide +kernel
  · decide +kernel
  · decide +kernel
  · decide +kernel

end RingPool

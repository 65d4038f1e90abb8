import RingPool.Proofs.Ring.Moves
import RingPool.Proofs.Ring.Counter

/-!
# Slots passed by actors that are not disturbed

An actor that nobody disturbs claims in three moves (`claimAlone`) and publishes in
three (`publishAlone`); `passSlot` is both, with the access to the one slot between
them.  `laps` takes an idle ring round, one slot for each side at a time.  All of it is
permitted whatever shared claims of other actors are paused meanwhile, and leaves these
as they are.
-/

set_option autoImplicit false

namespace RingPool

def RingMove.mover {actors : Nat} {α : Type} : RingMove actors α → Fin actors
  | .claim actor _ | .publish actor _ _ | .census actor | .advance actor _
  | .write actor _ _ _ | .read actor _ _ => actor

namespace RingSystem

variable {actors : Nat} {α : Type} {system : RingSystem actors α} {actor : Fin actors}

theorem setCall_setCall (system : RingSystem actors α) (actor : Fin actors)
    (first second : Option ActiveCall) :
    (system.setCall actor first).setCall actor second = system.setCall actor second := by
  unfold setCall
  congr 1
  funext other
  dsimp only
  split <;> rfl

theorem setCall_free (free : system.calls actor = none) :
    system.setCall actor none = system := by
  unfold setCall
  congr 1
  funext other
  split
  case isTrue same => rw [same, free]
  case isFalse => rfl

theorem run_append_state (first second : List (RingMove actors α)) :
    (system.run (first ++ second)).1 = ((system.run first).1.run second).1 := by
  induction first generalizing system with
  | nil => rfl
  | cons move first inductionHypothesis => exact inductionHypothesis

theorem keeps_append (rule : RingSystem actors α → RingMove actors α → Prop)
    {first second : List (RingMove actors α)} :
    system.Keeps rule (first ++ second) ↔
      system.Keeps rule first ∧ (system.run first).1.Keeps rule second := by
  induction first generalizing system with
  | nil => exact ⟨fun kept => ⟨trivial, kept⟩, fun kept => kept.2⟩
  | cons move first inductionHypothesis =>
      rw [List.cons_append, Keeps, inductionHypothesis, Keeps, and_assoc]
      rfl

theorem throughout_append (property : RingSystem actors α → Prop)
    {first second : List (RingMove actors α)} :
    system.Throughout property (first ++ second) ↔
      system.Throughout property first ∧ (system.run first).1.Throughout property second := by
  induction first generalizing system with
  | nil => exact ⟨fun holds => ⟨trivial, holds⟩, fun holds => holds.2⟩
  | cons move first inductionHypothesis =>
      rw [List.cons_append, Throughout, inductionHypothesis, Throughout, and_assoc]
      rfl

theorem calls_next_other {move : RingMove actors α} (other : move.mover ≠ actor) :
    (system.next move).1.calls actor = system.calls actor := by
  have effect := system.effect_of_next move
  generalize (system.next move).1 = after at effect ⊢
  generalize (system.next move).2 = event at effect
  cases effect with
  | stay | writes | reads => rfl
  | claimStarts | publicationStarts | censusStarts | claimShort | claimOffered | claimGranted
  | claimOutrun | publicationReady | publicationWaits | publicationPauses | publicationSettles
  | censusLooks | censusCounts => exact setCall_calls_other _ _ (Ne.symm other)

/-- A rule that some moves keep to in every state is kept by them in every run. -/
theorem keeps_of_forall_mem {rule : RingSystem actors α → RingMove actors α → Prop}
    {moves : List (RingMove actors α)} (all : ∀ move ∈ moves, ∀ system, rule system move) :
    system.Keeps rule moves := by
  induction moves generalizing system with
  | nil => trivial
  | cons move moves inductionHypothesis =>
      refine ⟨all move List.mem_cons_self system, ?_⟩
      apply inductionHypothesis
      intro later member
      exact all later (List.mem_cons_of_mem _ member)

/-! ## Calls that nobody disturbs -/

def claimAlone (actor : Fin actors) (request : Request) : List (RingMove actors α) :=
  [.claim actor request, .advance actor false, .advance actor false]

def publishAlone (actor : Fin actors) (grant : Nat) : List (RingMove actors α) :=
  [.publish actor grant false, .advance actor false, .advance actor false]

theorem next_claim_starts (free : system.calls actor = none) (request : Request) :
    (system.next (.claim actor request)).1 = system.setCall actor
      (some ⟨.claim (Claim.start system.core request), system.totals⟩) := by
  simp only [next, enter, free]

theorem next_advance_offers {claim : Claim} {since : SlotTotals} {head : Cursor}
    {offer : Reservation} (within : system.calls actor = some ⟨.claim claim, since⟩)
    (seeking : claim.phase = .seek head)
    (offered : system.core.offer claim.request head = .granted offer) :
    (system.next (.advance actor false)).1 = system.setCall actor
      (some ⟨.claim { claim with phase := .bid offer }, since⟩) := by
  simp only [next, within, Claim.step, seeking, offered, settle]

/-- A shared claim wins if the head is where its offer begins. -/
theorem next_advance_wins {claim : Claim} {since : SlotTotals} {offer : Reservation}
    (within : system.calls actor = some ⟨.claim claim, since⟩)
    (bidding : claim.phase = .bid offer) (shared : claim.request.exclusive = false)
    (same : (system.core.cursors claim.request.side).head = offer.head) :
    system.next (.advance actor false) =
      ((system.granted actor false offer claim.request.side).setCall actor none,
        some (.claimed ⟨.granted offer, claim.attempts + 1⟩)) := by
  simp only [next, within, Claim.step, bidding, shared, same, and_self, if_true,
    Bool.false_eq_true, if_false, settle, recordClaim]
  rfl

def offering (system : RingSystem actors α) (actor : Fin actors) (request : Request)
    (offer : Reservation) : RingSystem actors α :=
  system.setCall actor (some ⟨.claim ⟨request, 0, .bid offer⟩, system.totals⟩)

theorem next_next_offering {request : Request} {offer : Reservation}
    (free : system.calls actor = none)
    (offered : system.core.offer request (system.core.cursors request.side).head =
      .granted offer) :
    ((system.next (.claim actor request)).1.next (.advance actor false)).1 =
      system.offering actor request offer := by
  have within := setCall_calls_self system actor
    (some ⟨.claim (Claim.start system.core request), system.totals⟩)
  rw [next_claim_starts free request, next_advance_offers within rfl offered]
  exact setCall_setCall system actor _ _

theorem run_claimAlone {request : Request} {offer : Reservation}
    (free : system.calls actor = none) (shared : request.exclusive = false)
    (offered : system.core.offer request (system.core.cursors request.side).head =
      .granted offer) :
    (system.run (claimAlone actor request)).1 =
      system.granted actor false offer request.side := by
  have within := setCall_calls_self system actor
    (some ⟨.claim ⟨request, 0, .bid offer⟩, system.totals⟩)
  have atHead := Core.offer_head offered
  have wins := next_advance_wins within rfl shared atHead.symm
  have stillFree : (system.granted actor false offer request.side).calls actor = none := free
  calc (system.run (claimAlone actor request)).1
      = (((system.next (.claim actor request)).1.next (.advance actor false)).1.next
          (.advance actor false)).1 := rfl
    _ = ((system.offering actor request offer).next (.advance actor false)).1 := by
        rw [next_next_offering free offered]
    _ = ((system.offering actor request offer).granted actor false offer
          request.side).setCall actor none := congrArg Prod.fst wins
    _ = (system.granted actor false offer request.side).setCall actor none :=
        setCall_setCall (system.granted actor false offer request.side) actor _ _
    _ = system.granted actor false offer request.side := setCall_free stillFree

theorem run_publishAlone {grant : Nat} {granted : Grant α} (free : system.calls actor = none)
    (found : system.grants[grant]? = some granted)
    (due : (system.core.cursors granted.reservation.side).tail = granted.reservation.head) :
    (system.run (publishAlone actor grant)).1 = system.published grant granted.reservation := by
  have starts : (system.next (.publish actor grant false)).1 = system.setCall actor
      (some ⟨.publish grant ⟨granted.reservation, 0, .check⟩, system.totals⟩) := by
    simp [next, enter, free, found, Publication.start]
  have ready : ((system.setCall actor
        (some ⟨.publish grant ⟨granted.reservation, 0, .check⟩, system.totals⟩)).next
      (.advance actor false)).1 = system.setCall actor
        (some ⟨.publish grant ⟨granted.reservation, 0, .settle⟩, system.totals⟩) := by
    simp only [next, setCall_calls_self, setCall_core, Publication.step, due, if_true, settle]
    exact setCall_setCall system actor _ _
  have settles : ((system.setCall actor
        (some ⟨.publish grant ⟨granted.reservation, 0, .settle⟩, system.totals⟩)).next
      (.advance actor false)).1 = (system.published grant granted.reservation).setCall actor
        none := by
    simp only [next, setCall_calls_self, setCall_core, Publication.step, settle,
      recordPublication]
    exact setCall_setCall (system.published grant granted.reservation) actor _ _
  have stillFree : (system.published grant granted.reservation).calls actor = none := free
  calc (system.run (publishAlone actor grant)).1
      = ((((system.next (.publish actor grant false)).1.next (.advance actor false)).1).next
          (.advance actor false)).1 := rfl
    _ = (system.published grant granted.reservation).setCall actor none := by
        rw [starts, ready, settles]
    _ = system.published grant granted.reservation := setCall_free stillFree

/-! ## One slot -/

def oneSlot (side : Side) : Request := ⟨side, 1, false, false⟩

def accessSlot (actor : Fin actors) (grant : Nat) (value : α) : Side → RingMove actors α
  | .producer => .write actor grant 0 value
  | .consumer => .read actor grant 0

def passSlot (side : Side) (actor : Fin actors) (grant : Nat) (value : α) :
    List (RingMove actors α) :=
  claimAlone actor (oneSlot side) ++
    accessSlot actor grant value side :: publishAlone actor grant

theorem oneSlot_asks (side : Side) : 0 < (oneSlot side).count := by
  change (0 : UInt32) < 1
  decide

structure AllShared (system : RingSystem actors α) : Prop where
  claims : ∀ other, ∀ request ∈ system.claiming other, request.exclusive = false
  grants : ∀ grant ∈ system.grants, grant.exclusive = false

/-- A side at rest at a position, with room for one more slot. -/
structure Passes (system : RingSystem actors α) (side : Side) (position : Cursor) : Prop where
  shared : AllShared system
  rest : system.core.cursors side = ⟨position, position⟩
  room : 1 ≤ system.core.room side position

def firstSlot (system : RingSystem actors α) (side : Side) (position : Cursor) : Reservation :=
  ⟨side, position, position + 1, system.core.room side position⟩

/-- A system in which an actor holds one slot more than before, and has accessed it. -/
structure Holds (system : RingSystem actors α) (side : Side) (actor : Fin actors)
    (position : Cursor) (after : RingSystem actors α) : Prop where
  calls : after.calls = system.calls
  capacity : after.core.capacity = system.core.capacity
  cursors : after.core.cursors side = ⟨position + 1, position⟩
  others : ∀ other, other ≠ side → after.core.cursors other = system.core.cursors other
  grants : ∃ value, after.grants = system.grants ++
    [⟨actor, false, system.firstSlot side position, [(0, value)], false⟩]

structure Passed (system : RingSystem actors α) (side : Side) (position : Cursor)
    (after : RingSystem actors α) : Prop where
  calls : after.calls = system.calls
  capacity : after.core.capacity = system.core.capacity
  cursors : after.core.cursors side = ⟨position + 1, position + 1⟩
  others : ∀ other, other ≠ side → after.core.cursors other = system.core.cursors other
  grants : ∃ grant : Grant α, after.grants = system.grants ++ [grant] ∧
    grant.exclusive = false ∧ grant.reservation.side = side

theorem AllShared.noneExclusive (shared : AllShared system) (side : Side) :
    system.NoneExclusive side := by
  constructor
  · intro other request member sameSide
    exact shared.claims other request member
  · intro grant member exclusive
    have notExclusive := shared.grants grant (List.mem_filter.mp member).1
    rw [notExclusive] at exclusive
    cases exclusive

theorem next_accessSlot {grant : Nat} {granted : Grant α}
    (found : system.grants[grant]? = some granted) (actor : Fin actors) (value : α)
    (side : Side) :
    ∃ core seen, (system.next (accessSlot actor grant value side)).1 =
        system.accessed core grant granted 0 seen ∧
      core.capacity = system.core.capacity ∧
      ∀ other, core.cursors other = system.core.cursors other := by
  cases side with
  | producer =>
      refine ⟨system.core.write (granted.cursor 0) value, value, ?_, rfl, ?_⟩
      · simp only [accessSlot, next, found, accessed]
      · intro other
        exact Core.cursors_write _ _ _ other
  | consumer =>
      refine ⟨system.core, system.core.read (granted.cursor 0), ?_, rfl, fun _ => rfl⟩
      simp only [accessSlot, next, found, accessed]

theorem permits_accessSlot {grant : Nat} {granted : Grant α} (free : system.calls actor = none)
    (found : system.grants[grant]? = some granted) (holder : granted.actor = actor)
    (waiting : granted.published = false) (one : granted.size = 1)
    (untouched : granted.accesses = []) (value : α) :
    system.Permits (accessSlot actor grant value granted.reservation.side) := by
  have may : system.MayAccess actor granted.reservation.side grant 0 := by
    refine ⟨free, granted, found, holder, rfl, waiting, ?_, ?_⟩
    · rw [one]
      exact Nat.one_pos
    · rw [untouched]
      exact List.not_mem_nil
  cases side : granted.reservation.side with
  | producer =>
      rw [side] at may
      exact ⟨trivial, may⟩
  | consumer =>
      rw [side] at may
      exact ⟨trivial, may⟩

theorem size_firstSlot (system : RingSystem actors α) (side : Side) (position : Cursor)
    (actor : Nat) (accesses : List (Nat × α)) (published : Bool) :
    (⟨actor, false, system.firstSlot side position, accesses, published⟩ : Grant α).size = 1 := by
  have len : (system.firstSlot side position).len = 1 := by
    rw [Reservation.len, firstSlot, UInt32.add_comm, UInt32.add_sub_cancel]
  rw [Grant.size, len]
  rfl

variable {side : Side} {position : Cursor}

theorem Passes.offered (passes : Passes system side position) :
    system.core.offer (oneSlot side) (system.core.cursors side).head =
      .granted (system.firstSlot side position) := by
  have fits : (oneSlot side).fit? (system.core.room side position) = some 1 :=
    if_pos passes.room
  have head : (system.core.cursors side).head = position := congrArg Cursors.head passes.rest
  have sideEq : (oneSlot side).side = side := rfl
  rw [head]
  unfold Core.offer
  dsimp only
  rw [sideEq, fits]
  rfl

/-- The first half of a pass: the claim and the access. -/
theorem Passes.holds (passes : Passes system side position) (free : system.calls actor = none)
    (value : α) :
    let moves := claimAlone actor (oneSlot side) ++
      [accessSlot actor system.grants.length value side]
    system.Disciplined moves ∧ Holds system side actor position (system.run moves).1 := by
  let offer := system.firstSlot side position
  let claimed := system.granted actor false offer side
  have claims : (system.run (claimAlone actor (oneSlot side))).1 = claimed :=
    run_claimAlone free rfl passes.offered
  have found : claimed.grants[system.grants.length]? =
      some ⟨actor, false, offer, [], false⟩ := List.getElem?_concat_length
  constructor
  case left =>
    refine (keeps_append _).mpr ⟨?_, ?_⟩
    · have permitted : system.PermitsCall (.claim actor (oneSlot side)) :=
        ⟨free, oneSlot_asks side, passes.shared.noneExclusive side⟩
      exact ⟨⟨permitted, trivial⟩, ⟨trivial, trivial⟩, ⟨trivial, trivial⟩, trivial⟩
    · rw [claims]
      have stillFree : claimed.calls actor = none := free
      have one := size_firstSlot system side position actor [] false
      exact ⟨permits_accessSlot stillFree found rfl rfl one rfl value, trivial⟩
  case right =>
    obtain ⟨core, seen, accesses, capacity, cursors⟩ := next_accessSlot found actor value side
    have grants := accessed_grants (rfl : claimed.grants = system.grants ++ [_]) core 0 seen
    rw [run_append_state, claims]
    change Holds system side actor position
      (claimed.next (accessSlot actor system.grants.length value side)).1
    rw [accesses]
    constructor
    case calls => rfl
    case capacity =>
      exact capacity.trans (Core.setHead_capacity system.core side offer.next)
    case cursors =>
      have head := Core.cursors_setHead_self system.core side offer.next
      rw [passes.rest] at head
      exact (cursors side).trans head
    case others =>
      intro other different
      exact (cursors other).trans
        (Core.cursors_setHead_other system.core offer.next different)
    case grants => exact ⟨seen, grants⟩

theorem Holds.passed {held : RingSystem actors α} (holds : Holds system side actor position held)
    (free : system.calls actor = none) :
    let moves := publishAlone actor system.grants.length
    held.Disciplined moves ∧ Passed system side position (held.run moves).1 := by
  obtain ⟨value, grants⟩ := holds.grants
  have found : held.grants[system.grants.length]? =
      some ⟨actor, false, system.firstSlot side position, [(0, value)], false⟩ := by
    rw [grants]
    exact List.getElem?_concat_length
  have stillFree : held.calls actor = none := by
    rw [holds.calls]
    exact free
  constructor
  case left =>
    have permitted : held.PermitsCall (.publish actor system.grants.length false) :=
      ⟨stillFree, _, found, rfl, rfl, by intro exclusive; cases exclusive⟩
    have accessed : held.PermitsAccess (.publish actor system.grants.length false) := by
      intro granted member
      rw [found] at member
      cases member
      exact (size_firstSlot system side position actor _ _).symm
    exact ⟨⟨permitted, accessed⟩, ⟨trivial, trivial⟩, ⟨trivial, trivial⟩, trivial⟩
  case right =>
    have due : (held.core.cursors side).tail = position := congrArg Cursors.tail holds.cursors
    rw [run_publishAlone stillFree found due]
    constructor
    case calls => exact holds.calls
    case capacity =>
      exact (Core.setTail_capacity held.core side (position + 1)).trans holds.capacity
    case cursors =>
      have tail := Core.cursors_setTail_self held.core side (position + 1)
      rw [holds.cursors] at tail
      exact tail
    case others =>
      intro other different
      exact (Core.cursors_setTail_other held.core (position + 1) different).trans
        (holds.others other different)
    case grants => exact ⟨_, published_grants grants _, rfl, rfl⟩

theorem Passes.passSlot (passes : Passes system side position)
    (free : system.calls actor = none) (value : α) :
    let moves := passSlot side actor system.grants.length value
    system.Disciplined moves ∧ Passed system side position (system.run moves).1 := by
  obtain ⟨claims, holds⟩ := passes.holds free value
  obtain ⟨publishes, passed⟩ := holds.passed free
  have split : RingSystem.passSlot side actor system.grants.length value =
      (claimAlone actor (oneSlot side) ++
        [accessSlot actor system.grants.length value side]) ++
        publishAlone actor system.grants.length := by
    rw [List.append_assoc]
    rfl
  dsimp only
  rw [split, run_append_state]
  exact ⟨(keeps_append _).mpr ⟨claims, publishes⟩, passed⟩

/-! ## Around the ring -/

theorem Passed.shared {after : RingSystem actors α} (passed : Passed system side position after)
    (shared : AllShared system) : AllShared after := by
  obtain ⟨grant, grants, notExclusive, -⟩ := passed.grants
  constructor
  · intro other request member
    apply shared.claims other request
    rw [claiming, passed.calls] at member
    exact member
  · intro other member
    rw [grants] at member
    rcases List.mem_append.mp member with old | new
    · exact shared.grants other old
    · rw [List.mem_singleton.mp new]
      exact notExclusive

theorem Passed.length_grants {after : RingSystem actors α}
    (passed : Passed system side position after) :
    after.grants.length = system.grants.length + 1 := by
  obtain ⟨grant, grants, -⟩ := passed.grants
  rw [grants, List.length_append, List.length_singleton]

theorem Passed.length_grantsOf {after : RingSystem actors α}
    (passed : Passed system side position after) (other : Side) :
    (after.grantsOf other).length =
      (system.grantsOf other).length + if other = side then 1 else 0 := by
  obtain ⟨grant, grants, -, onSide⟩ := passed.grants
  rw [grantsOf, grants, List.filter_append, List.length_append, List.filter_cons, onSide]
  cases other <;> cases side <;> rfl

/-- Both sides are at rest at a position, so that the ring is empty. -/
structure Idle (system : RingSystem actors α) (position : Cursor) : Prop where
  shared : AllShared system
  rest : ∀ side, system.core.cursors side = ⟨position, position⟩

/-- A number of laps around the ring: a producer passes one slot, and a consumer takes
it. -/
def laps (producer consumer : Fin actors) (value : α) (grant : Nat) :
    Nat → List (RingMove actors α)
  | 0 => []
  | rounds + 1 =>
      passSlot .producer producer grant value ++
        (passSlot .consumer consumer (grant + 1) value ++
          laps producer consumer value (grant + 2) rounds)

structure Circled (system : RingSystem actors α) (position : Cursor) (rounds : Nat)
    (after : RingSystem actors α) : Prop where
  idle : Idle after (cursorAt position rounds)
  calls : after.calls = system.calls
  capacity : after.core.capacity = system.core.capacity
  passed : ∀ side, (after.grantsOf side).length = (system.grantsOf side).length + rounds
  grants : after.grants.length = system.grants.length + 2 * rounds

theorem Idle.passes (idle : Idle system position) : Passes system .producer position where
  shared := idle.shared
  rest := idle.rest .producer
  room := by
    have consumers : system.core.consumer.tail = position :=
      congrArg Cursors.tail (idle.rest .consumer)
    have size := system.core.capacity.two_le_size
    rw [Core.room, consumers, UInt32.sub_self, UInt32.sub_zero, UInt32.le_iff_toNat_le,
      Capacity.mask_toNat]
    exact Nat.le_sub_one_of_lt size

theorem Idle.passes_consumer (idle : Idle system position) {after : RingSystem actors α}
    (passed : Passed system .producer position after) : Passes after .consumer position where
  shared := passed.shared idle.shared
  rest := by
    rw [passed.others .consumer (by decide)]
    exact idle.rest .consumer
  room := by
    have producers : after.core.producer.tail = position + 1 :=
      congrArg Cursors.tail passed.cursors
    rw [Core.room, producers, UInt32.add_comm, UInt32.add_sub_cancel]
    exact UInt32.le_refl 1

theorem Idle.lap (idle : Idle system position) {filled drained : RingSystem actors α}
    (entered : Passed system .producer position filled)
    (left : Passed filled .consumer position drained) : Idle drained (position + 1) where
  shared := left.shared (entered.shared idle.shared)
  rest := by
    intro side
    cases side with
    | producer => exact (left.others .producer (by decide)).trans entered.cursors
    | consumer => exact left.cursors

theorem Idle.laps {producer consumer : Fin actors} (idle : Idle system position)
    (producerFree : system.calls producer = none) (consumerFree : system.calls consumer = none)
    (value : α) (rounds : Nat) :
    let moves := laps producer consumer value system.grants.length rounds
    system.Disciplined moves ∧ Circled system position rounds (system.run moves).1 := by
  induction rounds generalizing system position with
  | zero =>
      refine ⟨trivial, ?_, rfl, rfl, fun _ => rfl, rfl⟩
      rw [cursorAt_zero]
      exact idle
  | succ rounds inductionHypothesis =>
      obtain ⟨enters, entered⟩ := idle.passes.passSlot producerFree value
      generalize filling : (system.run
        (passSlot .producer producer system.grants.length value)).1 = filled at entered
      have consumerFreeThen : filled.calls consumer = none := by
        rw [entered.calls]
        exact consumerFree
      obtain ⟨leaves, left⟩ := (idle.passes_consumer entered).passSlot consumerFreeThen value
      generalize draining : (filled.run
        (passSlot .consumer consumer filled.grants.length value)).1 = drained at left
      have calls : drained.calls = system.calls := left.calls.trans entered.calls
      obtain ⟨goesOn, circled⟩ := inductionHypothesis (idle.lap entered left)
        (by rw [calls]; exact producerFree) (by rw [calls]; exact consumerFree)
      have nextGrant : filled.grants.length = system.grants.length + 1 := entered.length_grants
      have laterGrant : drained.grants.length = system.grants.length + 2 := by
        rw [left.length_grants, nextGrant]
      rw [nextGrant] at leaves draining
      rw [laterGrant] at goesOn circled
      dsimp only
      rw [RingSystem.laps, run_append_state, filling, run_append_state, draining]
      constructor
      case left =>
        refine (keeps_append _).mpr ⟨enters, ?_⟩
        rw [filling]
        refine (keeps_append _).mpr ⟨leaves, ?_⟩
        rw [draining]
        exact goesOn
      case right =>
        refine ⟨?_, circled.calls.trans calls,
          circled.capacity.trans (left.capacity.trans entered.capacity), ?_, ?_⟩
        · have further := circled.idle
          have one : position + 1 = cursorAt position 1 := rfl
          rw [one, ← cursorAt_add, Nat.add_comm 1 rounds] at further
          exact further
        · intro side
          rw [circled.passed, left.length_grantsOf, entered.length_grantsOf]
          cases side
          · exact Nat.add_right_comm _ 1 rounds
          · exact Nat.add_right_comm _ 1 rounds
        · rw [circled.grants, laterGrant]
          omega

/-! ## Who moves -/

theorem mover_of_mem_passSlot {grant : Nat} {value : α} {move : RingMove actors α}
    (member : move ∈ passSlot side actor grant value) : move.mover = actor := by
  rcases List.mem_append.mp member with claims | rest
  · simp only [claimAlone, List.mem_cons, List.not_mem_nil, or_false] at claims
    rcases claims with rfl | rfl | rfl <;> rfl
  · rcases List.mem_cons.mp rest with rfl | publishes
    · cases side <;> rfl
    · simp only [publishAlone, List.mem_cons, List.not_mem_nil, or_false] at publishes
      rcases publishes with rfl | rfl | rfl <;> rfl

theorem mover_of_mem_laps {producer consumer : Fin actors} {value : α} {grant rounds : Nat}
    {move : RingMove actors α} (member : move ∈ laps producer consumer value grant rounds) :
    move.mover = producer ∨ move.mover = consumer := by
  induction rounds generalizing grant with
  | zero => cases member
  | succ rounds inductionHypothesis =>
      rcases List.mem_append.mp member with enters | rest
      · exact Or.inl (mover_of_mem_passSlot enters)
      · rcases List.mem_append.mp rest with leaves | later
        · exact Or.inr (mover_of_mem_passSlot leaves)
        · exact inductionHypothesis later

end RingSystem

end RingPool

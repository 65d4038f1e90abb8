import RingPool.Proofs.Ring.Layout
import RingPool.Proofs.Ring.Moves

/-!
# The invariant of a ring with many actors on it

`Coherent` says that the grants lie between the cursors (`Layout`), that every
call in progress knows something true (`CallFacts`), and that an exclusive claim
is the only claim on its side.  A claim may go by a head that is out of date.
What it then has in mind may be wrong, but a shared claim whose head has moved on
is refused by the compare-exchange as long as its side stays within the window,
and so nothing more is asked of it.

Every permitted move keeps the invariant (`Coherent.next`), and so every orderly
run within the window does (`coherent_run`).
-/

set_option autoImplicit false

namespace RingPool

open Grant

variable {actors : Nat} {α : Type} {origin : Cursor}

/-- The head that a claim goes by. -/
def Claim.basis (claim : Claim) : Cursor :=
  match claim.phase with
  | .seek head => head
  | .bid offer => offer.head

theorem Claim.basis_of_seek {claim : Claim} {head : Cursor} (seeking : claim.phase = .seek head) :
    claim.basis = head := by
  rw [Claim.basis, seeking]

theorem Claim.basis_of_bid {claim : Claim} {offer : Reservation}
    (bidding : claim.phase = .bid offer) : claim.basis = offer.head := by
  rw [Claim.basis, bidding]

/-- What a claim knows that took its head when its side had reserved `known`
slots.  Only if that is still so does its offer have to fit. -/
structure ClaimFacts (origin : Cursor) (capacity : Capacity) (grants : List (Grant α))
    (claim : Claim) (since : SlotTotals) (known : Nat) : Prop where
  asks : 0 < claim.request.count
  basis : claim.basis = cursorAt origin known
  notBefore : since.reserved claim.request.side ≤ known
  notAfter : known ≤ reservedOn claim.request.side grants
  exclusive : claim.request.exclusive = true → known = reservedOn claim.request.side grants
  offer : ∀ offer, claim.phase = .bid offer →
    offer.side = claim.request.side ∧ claim.request.fit? offer.observed = some offer.len ∧
      (known = reservedOn claim.request.side grants →
        known + offer.observed.toNat ≤ horizon capacity grants claim.request.side)

/-- What a publication knows: its actor holds the grant, the grant waits, and once
the publication has stopped waiting the tail is at the start of the grant. -/
structure PublicationFacts (core : Core α) (grants : List (Grant α)) (actor index : Nat)
    (publication : Publication) (granted : Grant α) : Prop where
  found : grants[index]? = some granted
  holder : granted.actor = actor
  waiting : granted.published = false
  reservation : publication.reservation = granted.reservation
  due : publication.phase = .settle →
    (core.cursors granted.reservation.side).tail = granted.reservation.head

def CallFacts (origin : Cursor) (core : Core α) (grants : List (Grant α)) (actor : Nat) :
    ActiveCall → Prop
  | ⟨.claim claim, since⟩ =>
      ∃ known, ClaimFacts origin core.capacity grants claim since known
  | ⟨.publish index publication, _⟩ =>
      ∃ granted, PublicationFacts core grants actor index publication granted
  | ⟨.census _, _⟩ => True

def ExclusiveAlone (system : RingSystem actors α) : Prop :=
  ∀ actor, ∀ request ∈ system.claiming actor, request.exclusive = true →
    ∀ other, ∀ rival ∈ system.claiming other, rival.side = request.side → other = actor

structure Coherent (origin : Cursor) (system : RingSystem actors α) : Prop where
  layout : Layout origin system.core system.grants
  calls : ∀ actor, ∀ active ∈ system.calls actor,
    CallFacts origin system.core system.grants actor active
  alone : ExclusiveAlone system

/-! ## What a fit says -/

theorem Request.fit?_eq_some {request : Request} {room count : UInt32}
    (fits : request.fit? room = some count) (asks : 0 < request.count) :
    0 < count ∧ count ≤ room ∧ count ≤ request.count ∧
      (request.allowPartial = false → count = request.count) := by
  unfold Request.fit? at fits
  split at fits
  case isTrue enough =>
    cases fits
    exact ⟨asks, enough, UInt32.le_refl _, fun _ => rfl⟩
  case isFalse tooMany =>
    split at fits
    case isTrue part =>
      cases fits
      rw [Bool.and_eq_true, decide_eq_true_eq] at part
      refine ⟨part.2, UInt32.le_refl _, UInt32.le_of_lt (UInt32.not_le.mp tooMany), ?_⟩
      intro whole
      rw [whole] at part
      cases part.1
    case isFalse => cases fits

theorem Core.offer_granted {core : Core α} {request : Request} {head : Cursor}
    {offer : Reservation} (offered : core.offer request head = .granted offer) :
    offer.side = request.side ∧ offer.head = head ∧
      offer.observed = core.room request.side head ∧
      request.fit? offer.observed = some offer.len := by
  unfold Core.offer at offered
  simp only at offered
  split at offered
  case h_1 count fits =>
    cases offered
    refine ⟨rfl, rfl, rfl, ?_⟩
    rw [Reservation.len, UInt32.add_comm, UInt32.add_sub_cancel]
    exact fits
  case h_2 => cases offered

namespace ClaimFacts

variable {core : Core α} {capacity : Capacity} {grants : List (Grant α)} {claim : Claim}
  {since : SlotTotals} {known : Nat}

theorem grant_added (facts : ClaimFacts origin capacity grants claim since known)
    {grant : Grant α} (waiting : grant.published = false)
    (rival : claim.request.exclusive = true →
      grant.reservation.side ≠ claim.request.side) :
    ClaimFacts origin capacity (grants ++ [grant]) claim since known where
  asks := facts.asks
  basis := facts.basis
  notBefore := facts.notBefore
  notAfter := by
    rw [reservedOn_append]
    exact le_trans facts.notAfter (Nat.le_add_right _ _)
  exclusive := by
    intro exclusive
    rw [reservedOn_append, reservedOn_cons, if_neg (rival exclusive), facts.exclusive exclusive]
    rfl
  offer := by
    intro offer bidding
    obtain ⟨side, fits, room⟩ := facts.offer offer bidding
    refine ⟨side, fits, ?_⟩
    intro fresh
    rw [Layout.horizon_granted _ _ waiting]
    apply room
    have notAfter := facts.notAfter
    rw [reservedOn_append] at fresh
    omega

theorem of_le (facts : ClaimFacts origin capacity grants claim since known)
    {others : List (Grant α)}
    (reserved : ∀ side, reservedOn side others = reservedOn side grants)
    (further : ∀ side, horizon capacity grants side ≤ horizon capacity others side) :
    ClaimFacts origin capacity others claim since known where
  asks := facts.asks
  basis := facts.basis
  notBefore := facts.notBefore
  notAfter := by
    rw [reserved]
    exact facts.notAfter
  exclusive := by
    rw [reserved]
    exact facts.exclusive
  offer := by
    intro offer bidding
    obtain ⟨side, fits, room⟩ := facts.offer offer bidding
    refine ⟨side, fits, ?_⟩
    intro fresh
    rw [reserved] at fresh
    exact le_trans (room fresh) (further _)

theorem start (layout : Layout origin core grants) {request : Request} {totals : SlotTotals}
    (asks : 0 < request.count)
    (now : totals.reserved request.side = reservedOn request.side grants) :
    ClaimFacts origin core.capacity grants (Claim.start core request) totals
      (reservedOn request.side grants) where
  asks := asks
  basis := layout.head_eq request.side
  notBefore := le_of_eq now
  notAfter := le_refl _
  exclusive := fun _ => rfl
  offer := by
    intro offer bidding
    cases bidding

/-- A claim that has loaded the other tail has an offer, right if its head is. -/
theorem offered (layout : Layout origin core grants)
    (facts : ClaimFacts origin core.capacity grants claim since known) {head : Cursor}
    {offer : Reservation} (seeking : claim.phase = .seek head)
    (granted : core.offer claim.request head = .granted offer) :
    ClaimFacts origin core.capacity grants { claim with phase := .bid offer } since known where
  asks := facts.asks
  basis := by
    obtain ⟨-, headEq, -, -⟩ := Core.offer_granted granted
    exact headEq.trans ((Claim.basis_of_seek seeking).symm.trans facts.basis)
  notBefore := facts.notBefore
  notAfter := facts.notAfter
  exclusive := facts.exclusive
  offer := by
    intro other bidding
    cases bidding
    obtain ⟨side, -, observed, fits⟩ := Core.offer_granted granted
    refine ⟨side, fits, ?_⟩
    intro fresh
    have headEq : head = (core.cursors claim.request.side).head := by
      rw [layout.head_eq, ← Claim.basis_of_seek seeking, facts.basis]
      exact congrArg (cursorAt origin) fresh
    have bounded := layout.bounded claim.request.side
    rw [observed, headEq, layout.room_toNat]
    change known = reservedOn claim.request.side grants at fresh
    change known + _ ≤ horizon core.capacity grants claim.request.side
    omega

theorem outrun (layout : Layout origin core grants)
    (facts : ClaimFacts origin core.capacity grants claim since known) :
    ClaimFacts origin core.capacity grants
      { claim with
        attempts := claim.attempts + 1
        phase := .seek (core.cursors claim.request.side).head }
      since (reservedOn claim.request.side grants) where
  asks := facts.asks
  basis := layout.head_eq claim.request.side
  notBefore := le_trans facts.notBefore facts.notAfter
  notAfter := le_refl _
  exclusive := fun _ => rfl
  offer := by
    intro offer bidding
    cases bidding

/-- A claim that is not refused goes by the present head: an exclusive one
because it is alone, a shared one because the window is too small for its side to
have come round. -/
theorem fresh (layout : Layout origin core grants)
    (facts : ClaimFacts origin core.capacity grants claim since known) {offer : Reservation}
    (bidding : claim.phase = .bid offer)
    (window : reservedOn claim.request.side grants <
      since.reserved claim.request.side + windowSize)
    (unopposed : claim.request.exclusive = true ∨
      (core.cursors claim.request.side).head = offer.head) :
    known = reservedOn claim.request.side grants := by
  rcases unopposed with exclusive | same
  · exact facts.exclusive exclusive
  · rw [layout.head_eq, ← Claim.basis_of_bid bidding, facts.basis] at same
    have notBefore := facts.notBefore
    have half : windowSize < UInt32.size := by decide
    exact cursorAt_injective origin facts.notAfter (by omega) same.symm

end ClaimFacts

namespace PublicationFacts

variable {core : Core α} {grants : List (Grant α)} {actor index : Nat}
  {publication : Publication} {granted : Grant α}

theorem index_unique (layout : Layout origin core grants) {first second : Nat}
    {earlier later : Grant α} (foundFirst : grants[first]? = some earlier)
    (foundSecond : grants[second]? = some later) (waitingFirst : earlier.published = false)
    (waitingSecond : later.published = false)
    (sameSide : earlier.reservation.side = later.reservation.side)
    (dueSecond : (core.cursors later.reservation.side).tail = later.reservation.head) :
    ¬ first < second := by
  intro inside
  obtain ⟨before, after, rfl, rfl⟩ := split_of_getElem? foundSecond
  rw [List.getElem?_append_left inside] at foundFirst
  have waits : earlier ∈ pendingOn later.reservation.side before :=
    mem_pendingOn.mpr ⟨List.mem_of_getElem? foundFirst, sameSide, waitingFirst⟩
  rw [layout.pendingOn_before_eq_nil waitingSecond dueSecond] at waits
  cases waits

theorem grant_added (facts : PublicationFacts core grants actor index publication granted)
    (side : Side) (head : Cursor) (grant : Grant α) :
    PublicationFacts (core.setHead side head) (grants ++ [grant]) actor index publication
      granted where
  found := by
    have inside := (List.getElem?_eq_some_iff.mp facts.found).1
    rw [List.getElem?_append_left inside]
    exact facts.found
  holder := facts.holder
  waiting := facts.waiting
  reservation := facts.reservation
  due := by
    rw [Core.tail_setHead]
    exact facts.due

/-- The publication of a grant leaves those of other grants with what they know:
on its own side none of them has stopped waiting. -/
theorem grant_settled {before after : List (Grant α)} {grant : Grant α}
    (layout : Layout origin core (before ++ grant :: after))
    (waiting : grant.published = false)
    (due : (core.cursors grant.reservation.side).tail = grant.reservation.head)
    (facts : PublicationFacts core (before ++ grant :: after) actor index publication granted)
    (different : index ≠ before.length) :
    PublicationFacts (core.setTail grant.reservation.side grant.reservation.next)
      (before ++ grant.settle :: after) actor index publication granted where
  found := by
    rw [getElem?_split_ne _ _ grant _ different]
    exact facts.found
  holder := facts.holder
  waiting := facts.waiting
  reservation := facts.reservation
  due := by
    intro settling
    by_cases same : granted.reservation.side = grant.reservation.side
    · have here := getElem?_split before after grant
      have notLess := index_unique layout facts.found here facts.waiting waiting same due
      have notMore := index_unique layout here facts.found waiting facts.waiting same.symm
        (facts.due settling)
      omega
    · rw [Core.cursors_setTail_other _ _ same]
      exact facts.due settling

theorem grant_accessed {before after : List (Grant α)} {grant : Grant α}
    (facts : PublicationFacts core (before ++ grant :: after) actor index publication granted)
    {memory : Core α} (cursors : ∀ side, memory.cursors side = core.cursors side)
    (offset : Nat) (value : α) :
    ∃ granted, PublicationFacts memory (before ++ grant.accessed offset value :: after) actor
      index publication granted := by
  by_cases same : index = before.length
  · subst index
    have found := facts.found
    rw [getElem?_split] at found
    cases found
    refine ⟨granted.accessed offset value, getElem?_split _ _ _, facts.holder, facts.waiting,
      facts.reservation, ?_⟩
    rw [cursors]
    exact facts.due
  · refine ⟨granted, ?_, facts.holder, facts.waiting, facts.reservation, ?_⟩
    · rw [getElem?_split_ne _ _ grant _ same]
      exact facts.found
    · rw [cursors]
      exact facts.due

end PublicationFacts

/-! ## Who is alone on a side -/

theorem mem_claiming {system : RingSystem actors α} {actor : Fin actors} {request : Request} :
    request ∈ system.claiming actor ↔
      ∃ claim since, system.calls actor = some ⟨.claim claim, since⟩ ∧
        claim.request = request := by
  unfold RingSystem.claiming
  constructor
  · intro member
    split at member
    case h_1 claim since within =>
      cases member
      exact ⟨claim, since, within, rfl⟩
    case h_2 => cases member
  · rintro ⟨claim, since, within, rfl⟩
    rw [within]
    rfl

theorem ExclusiveAlone.setCall {system : RingSystem actors α} (alone : ExclusiveAlone system)
    (actor : Fin actors) {call : Option ActiveCall}
    (kept : ∀ claim since, call = some ⟨.claim claim, since⟩ →
      claim.request ∈ system.claiming actor) :
    ExclusiveAlone (system.setCall actor call) := by
  have subset : ∀ other, ∀ request ∈ (system.setCall actor call).claiming other,
      request ∈ system.claiming other := by
    intro other request member
    obtain ⟨claim, since, within, rfl⟩ := mem_claiming.mp member
    by_cases same : other = actor
    · subst other
      rw [RingSystem.setCall_calls_self] at within
      exact kept claim since within
    · rw [RingSystem.setCall_calls_other _ _ same] at within
      exact mem_claiming.mpr ⟨claim, since, within, rfl⟩
  intro first request member exclusive other rival rivalMember sameSide
  exact alone first request (subset first request member) exclusive other rival
    (subset other rival rivalMember) sameSide

theorem ExclusiveAlone.setCall_other {system : RingSystem actors α}
    (alone : ExclusiveAlone system) (actor : Fin actors) {call : Option ActiveCall}
    (other : ∀ claim since, call ≠ some ⟨.claim claim, since⟩) :
    ExclusiveAlone (system.setCall actor call) := by
  apply alone.setCall actor
  intro claim since same
  exact absurd same (other claim since)

theorem ExclusiveAlone.claimStarts {system : RingSystem actors α}
    (alone : ExclusiveAlone system) (actor : Fin actors) (request : Request)
    (permitted : system.PermitsCall (.claim actor request)) (since : SlotTotals) :
    ExclusiveAlone (system.setCall actor
      (some ⟨.claim (Claim.start system.core request), since⟩)) := by
  obtain ⟨-, -, rule⟩ := permitted
  have old {other : Fin actors} {asked : Request} (different : other ≠ actor)
      (member : asked ∈ (system.setCall actor
        (some ⟨.claim (Claim.start system.core request), since⟩)).claiming other) :
      asked ∈ system.claiming other := by
    obtain ⟨claim, started, within, rfl⟩ := mem_claiming.mp member
    rw [RingSystem.setCall_calls_other _ _ different] at within
    exact mem_claiming.mpr ⟨claim, started, within, rfl⟩
  have new {asked : Request} (member : asked ∈ (system.setCall actor
      (some ⟨.claim (Claim.start system.core request), since⟩)).claiming actor) :
      asked = request := by
    obtain ⟨claim, started, within, rfl⟩ := mem_claiming.mp member
    rw [RingSystem.setCall_calls_self] at within
    cases within
    rfl
  intro first asked member exclusive other rival rivalMember sameSide
  by_cases isFirst : first = actor
  · by_cases isOther : other = actor
    · rw [isFirst, isOther]
    · subst first
      rw [new member] at exclusive sameSide
      rw [if_pos exclusive] at rule
      exact absurd sameSide (rule.1 other rival (old isOther rivalMember))
  · by_cases isOther : other = actor
    · subst other
      rw [new rivalMember] at sameSide
      cases mode : request.exclusive with
      | true =>
          rw [if_pos mode] at rule
          exact absurd sameSide.symm (rule.1 first asked (old isFirst member))
      | false =>
          rw [mode, if_neg Bool.false_ne_true] at rule
          rw [rule.1 first asked (old isFirst member) sameSide.symm] at exclusive
          cases exclusive
    · exact alone first asked (old isFirst member) exclusive other rival
        (old isOther rivalMember) sameSide

/-! ## Every move keeps the invariant -/

namespace Coherent

variable {system : RingSystem actors α}

theorem start (capacity : Capacity) (blank : α) (origin : Cursor) :
    Coherent origin (RingSystem.start capacity blank origin : RingSystem actors α) where
  layout := Layout.start capacity blank origin
  calls := by
    intro actor active member
    cases member
  alone := by
    intro actor request member
    cases member

theorem setCall (coherent : Coherent origin system) (actor : Fin actors)
    {call : Option ActiveCall}
    (facts : ∀ active ∈ call, CallFacts origin system.core system.grants actor active)
    (alone : ExclusiveAlone (system.setCall actor call)) :
    Coherent origin (system.setCall actor call) where
  layout := coherent.layout
  calls := by
    intro other active member
    by_cases same : other = actor
    · subst other
      rw [RingSystem.setCall_calls_self] at member
      exact facts active member
    · rw [RingSystem.setCall_calls_other _ _ same] at member
      exact coherent.calls other active member
  alone := alone

theorem leave (coherent : Coherent origin system) (actor : Fin actors) :
    Coherent origin (system.setCall actor none) := by
  refine coherent.setCall actor ?_ (coherent.alone.setCall_other actor (by simp))
  intro active member
  cases member

theorem counts (coherent : Coherent origin system) (actor : Fin actors) (census : Census)
    (since : SlotTotals) :
    Coherent origin (system.setCall actor (some ⟨.census census, since⟩)) := by
  refine coherent.setCall actor ?_ (coherent.alone.setCall_other actor (by simp))
  intro active member
  cases member
  trivial

theorem claimFacts (coherent : Coherent origin system) {actor : Fin actors} {claim : Claim}
    {since : SlotTotals} (within : system.calls actor = some ⟨.claim claim, since⟩) :
    ∃ known, ClaimFacts origin system.core.capacity system.grants claim since known :=
  coherent.calls actor _ within

theorem publicationFacts (coherent : Coherent origin system) {actor : Fin actors}
    {index : Nat} {publication : Publication} {since : SlotTotals}
    (within : system.calls actor = some ⟨.publish index publication, since⟩) :
    ∃ granted, PublicationFacts system.core system.grants actor index publication granted :=
  coherent.calls actor _ within

/-- The reservation that a claim gets when it is not refused: it begins at the
head and ends within the horizon. -/
theorem grant_fits (coherent : Coherent origin system) (window : system.WithinWindow)
    {actor : Fin actors} {claim : Claim} {since : SlotTotals} {offer : Reservation}
    (within : system.calls actor = some ⟨.claim claim, since⟩)
    (bidding : claim.phase = .bid offer)
    (unopposed : claim.request.exclusive = true ∨
      (system.core.cursors claim.request.side).head = offer.head) :
    offer.side = claim.request.side ∧
      offer.head = (system.core.cursors claim.request.side).head ∧
      0 < offer.len.toNat ∧ offer.len ≤ offer.observed ∧
      reservedOn claim.request.side system.grants + offer.observed.toNat ≤
        horizon system.core.capacity system.grants claim.request.side := by
  obtain ⟨known, facts⟩ := coherent.claimFacts within
  have fresh := facts.fresh coherent.layout bidding (window actor _ within) unopposed
  obtain ⟨side, fits, room⟩ := facts.offer offer bidding
  obtain ⟨positive, observed, -, -⟩ := Request.fit?_eq_some fits facts.asks
  refine ⟨side, ?_, UInt32.lt_iff_toNat_lt.mp positive, observed, ?_⟩
  · rw [coherent.layout.head_eq, ← fresh, ← facts.basis, Claim.basis_of_bid bidding]
  · rw [← fresh]
    exact room fresh

theorem granted (coherent : Coherent origin system) (window : system.WithinWindow)
    {actor : Fin actors} {claim : Claim} {since : SlotTotals} {offer : Reservation}
    (within : system.calls actor = some ⟨.claim claim, since⟩)
    (bidding : claim.phase = .bid offer)
    (unopposed : claim.request.exclusive = true ∨
      (system.core.cursors claim.request.side).head = offer.head) :
    Coherent origin ((system.granted actor claim.request.exclusive offer
      claim.request.side).setCall actor none) where
  layout := by
    obtain ⟨side, atHead, positive, observed, fits⟩ :=
      coherent.grant_fits window within bidding unopposed
    have len := UInt32.le_iff_toNat_le.mp observed
    let grant : Grant α := ⟨actor, claim.request.exclusive, offer, [], false⟩
    have sideEq : grant.reservation.side = claim.request.side := side
    have size : grant.size = offer.len.toNat := rfl
    have added : Layout origin (system.core.setHead grant.reservation.side offer.next)
        (system.grants ++ [grant]) := by
      refine coherent.layout.grant_added rfl positive ?_ ?_
      · rw [sideEq]
        exact atHead
      · rw [sideEq, size]
        omega
    rw [sideEq] at added
    exact added
  calls := by
    obtain ⟨side, -⟩ := coherent.grant_fits window within bidding unopposed
    intro other active member
    by_cases same : other = actor
    · subst other
      rw [RingSystem.setCall_calls_self] at member
      cases member
    · rw [RingSystem.setCall_calls_other _ _ same] at member
      have facts := coherent.calls other active member
      obtain ⟨call, started⟩ := active
      cases call with
      | claim rival =>
          obtain ⟨known, facts⟩ := facts
          refine ⟨known, ?_⟩
          rw [RingSystem.setCall_core, RingSystem.granted, Core.setHead_capacity]
          refine facts.grant_added rfl ?_
          intro exclusive sameSide
          -- An exclusive rival would be the only claim on the side.
          have rivalIn := mem_claiming.mpr ⟨rival, started, member, rfl⟩
          have claimIn := mem_claiming.mpr ⟨claim, since, within, rfl⟩
          exact same (coherent.alone other _ rivalIn exclusive actor _ claimIn
            (side.symm.trans sameSide)).symm
      | publish index publication =>
          obtain ⟨granted, facts⟩ := facts
          exact ⟨granted, facts.grant_added _ _ _⟩
      | census census => trivial
  alone := by
    have alone : ExclusiveAlone (system.granted actor claim.request.exclusive offer
      claim.request.side) := coherent.alone
    exact alone.setCall_other actor (by simp)

theorem settled (coherent : Coherent origin system) {actor : Fin actors} {index : Nat}
    {publication : Publication} {since : SlotTotals}
    (within : system.calls actor = some ⟨.publish index publication, since⟩)
    (settling : publication.phase = .settle) :
    Coherent origin ((system.published index publication.reservation).setCall actor none) := by
  obtain ⟨granted, facts⟩ := coherent.publicationFacts within
  have due := facts.due settling
  obtain ⟨before, after, split, rfl⟩ := split_of_getElem? facts.found
  have layout := coherent.layout
  rw [split] at layout
  constructor
  case layout =>
    rw [RingSystem.setCall_core, RingSystem.setCall_grants, RingSystem.published_grants split,
      RingSystem.published, facts.reservation]
    exact layout.grant_settled facts.waiting due
  case calls =>
    intro other active member
    by_cases same : other = actor
    · subst other
      rw [RingSystem.setCall_calls_self] at member
      cases member
    · rw [RingSystem.setCall_calls_other _ _ same] at member
      have otherFacts := coherent.calls other active member
      rw [RingSystem.setCall_core, RingSystem.setCall_grants, RingSystem.published_grants split,
        RingSystem.published, facts.reservation]
      rw [split] at otherFacts
      obtain ⟨call, started⟩ := active
      cases call with
      | claim rival =>
          obtain ⟨known, otherFacts⟩ := otherFacts
          refine ⟨known, ?_⟩
          rw [Core.setTail_capacity]
          exact otherFacts.of_le (fun side => reservedOn_settle side before after granted)
            (Layout.horizon_le_settle _ before after facts.waiting)
      | publish position waiting =>
          obtain ⟨held, otherFacts⟩ := otherFacts
          refine ⟨held, otherFacts.grant_settled layout facts.waiting due ?_⟩
          -- The actors differ, and so do their grants.
          rintro rfl
          have found := otherFacts.found
          rw [getElem?_split] at found
          cases found
          exact same (Fin.ext (otherFacts.holder.symm.trans facts.holder))
      | census census => trivial
  case alone =>
    have alone : ExclusiveAlone (system.published before.length publication.reservation) :=
      coherent.alone
    exact alone.setCall_other actor (by simp)

theorem accessed (coherent : Coherent origin system) {memory : Core α} {index : Nat}
    {granted : Grant α} (found : system.grants[index]? = some granted) (offset : Nat) (value : α)
    (layout : Layout origin memory system.grants)
    (capacity : memory.capacity = system.core.capacity)
    (cursors : ∀ side, memory.cursors side = system.core.cursors side) :
    Coherent origin (system.accessed memory index granted offset value) := by
  obtain ⟨before, after, split, rfl⟩ := split_of_getElem? found
  rw [split] at layout
  constructor
  case layout =>
    rw [RingSystem.accessed_grants split, RingSystem.accessed]
    exact layout.grant_accessed offset value
  case calls =>
    intro other active member
    have facts := coherent.calls other active member
    rw [RingSystem.accessed_grants split, RingSystem.accessed]
    rw [split] at facts
    obtain ⟨call, started⟩ := active
    cases call with
    | claim claim =>
        obtain ⟨known, facts⟩ := facts
        refine ⟨known, ?_⟩
        rw [capacity]
        exact facts.of_le
          (fun side => reservedOn_accessed side before after granted offset value)
          (fun side => le_of_eq (Layout.horizon_accessed _ before after granted offset value
            side).symm)
    | publish position publication =>
        obtain ⟨held, facts⟩ := facts
        exact facts.grant_accessed cursors offset value
    | census census => trivial
  case alone => exact coherent.alone

theorem claimStarts (coherent : Coherent origin system) (actor : Fin actors)
    (request : Request) (permitted : system.PermitsCall (.claim actor request)) :
    Coherent origin (system.setCall actor
      (some ⟨.claim (Claim.start system.core request), system.totals⟩)) := by
  refine coherent.setCall actor ?_ (coherent.alone.claimStarts actor request permitted _)
  intro active member
  cases member
  exact ⟨_, ClaimFacts.start coherent.layout permitted.2.1 rfl⟩

theorem claimContinues (coherent : Coherent origin system) {actor : Fin actors}
    {claim : Claim} {since : SlotTotals}
    (within : system.calls actor = some ⟨.claim claim, since⟩) {later : Claim} {known : Nat}
    (sameRequest : later.request = claim.request)
    (facts : ClaimFacts origin system.core.capacity system.grants later since known) :
    Coherent origin (system.setCall actor (some ⟨.claim later, since⟩)) := by
  refine coherent.setCall actor ?_ (coherent.alone.setCall actor ?_)
  · intro active member
    cases member
    exact ⟨known, facts⟩
  · intro other started same
    cases same
    exact mem_claiming.mpr ⟨claim, since, within, sameRequest.symm⟩

theorem publicationContinues (coherent : Coherent origin system) (actor : Fin actors)
    {index : Nat} {publication : Publication} {since : SlotTotals} {granted : Grant α}
    (facts : PublicationFacts system.core system.grants actor index publication granted) :
    Coherent origin (system.setCall actor (some ⟨.publish index publication, since⟩)) := by
  refine coherent.setCall actor ?_ (coherent.alone.setCall_other actor (by simp))
  intro active member
  cases member
  exact ⟨granted, facts⟩

/-- A publication that starts.  If it is exclusive, nothing else waits on its
side, and so its grant begins at the tail. -/
theorem publicationStarts (coherent : Coherent origin system) (actor : Fin actors)
    (index : Nat) (exclusive : Bool) {granted : Grant α}
    (found : system.grants[index]? = some granted)
    (permitted : system.PermitsCall (.publish actor index exclusive)) :
    Coherent origin (system.setCall actor (some ⟨.publish index
      (Publication.start granted.reservation exclusive), system.totals⟩)) := by
  obtain ⟨-, other, member, holder, waiting, others⟩ := permitted
  rw [found] at member
  cases member
  refine coherent.publicationContinues actor ⟨found, holder, waiting, rfl, ?_⟩
  intro settling
  cases exclusive with
  | false => cases settling
  | true =>
      obtain ⟨before, after, split, rfl⟩ := split_of_getElem? found
      have tiles := coherent.layout.pendingTiles granted.reservation.side
      have oldest : pendingOn granted.reservation.side before = [] := by
        rw [List.eq_nil_iff_forall_not_mem]
        intro earlier inside
        obtain ⟨inBefore, onSame, waits⟩ := mem_pendingOn.mp inside
        have published := others rfl earlier (by
          rw [split, List.eraseIdx_append_of_length_le (le_refl _), Nat.sub_self]
          exact List.mem_append_left _ inBefore) onSame
        rw [waits] at published
        cases published
      rw [split, pendingOn_append, oldest, pendingOn_cons, if_pos ⟨rfl, waiting⟩] at tiles
      exact tiles.1.symm

theorem next (coherent : Coherent origin system) (window : system.WithinWindow)
    (move : RingMove actors α) (permitted : system.PermitsCall move) :
    Coherent origin (system.next move).1 := by
  have effect := system.effect_of_next move
  generalize (system.next move).1 = after at effect ⊢
  generalize (system.next move).2 = event at effect
  cases effect with
  | stay => exact coherent
  | claimStarts actor request free => exact coherent.claimStarts actor request permitted
  | publicationStarts actor grant exclusive granted free found =>
      exact coherent.publicationStarts actor grant exclusive found permitted
  | censusStarts actor free => exact coherent.counts actor _ _
  | claimShort actor refused claim since head available within seeking offered =>
      exact coherent.leave actor
  | claimOffered actor refused claim since head offer within seeking offered =>
      obtain ⟨known, facts⟩ := coherent.claimFacts within
      exact coherent.claimContinues within rfl (facts.offered coherent.layout seeking offered)
  | claimGranted actor refused claim since offer within bidding unopposed =>
      exact coherent.granted window within bidding unopposed
  | claimOutrun actor refused claim since offer within bidding shared opposed =>
      obtain ⟨known, facts⟩ := coherent.claimFacts within
      exact coherent.claimContinues within rfl (facts.outrun coherent.layout)
  | publicationReady actor refused grant publication since within checking due =>
      obtain ⟨granted, facts⟩ := coherent.publicationFacts within
      rw [facts.reservation] at due
      exact coherent.publicationContinues actor
        ⟨facts.found, facts.holder, facts.waiting, facts.reservation, fun _ => due⟩
  | publicationWaits actor refused grant publication since within checking early =>
      obtain ⟨granted, facts⟩ := coherent.publicationFacts within
      exact coherent.publicationContinues actor
        ⟨facts.found, facts.holder, facts.waiting, facts.reservation, by simp⟩
  | publicationPauses actor refused grant publication since within pausing =>
      obtain ⟨granted, facts⟩ := coherent.publicationFacts within
      exact coherent.publicationContinues actor
        ⟨facts.found, facts.holder, facts.waiting, facts.reservation, by simp⟩
  | publicationSettles actor refused grant publication since within settling =>
      exact coherent.settled within settling
  | censusLooks actor refused since within => exact coherent.counts actor _ _
  | censusCounts actor refused tail since within => exact coherent.leave actor
  | writes actor grant offset value granted found =>
      exact coherent.accessed found offset value
        (coherent.layout.write (granted.cursor offset) value) rfl
        (Core.cursors_write system.core (granted.cursor offset) value)
  | reads actor grant offset granted found =>
      exact coherent.accessed found offset _ coherent.layout rfl fun _ => rfl

end Coherent

theorem withinWindow_start (capacity : Capacity) (blank : α) (origin : Cursor) :
    (RingSystem.start capacity blank origin : RingSystem actors α).WithinWindow := by
  intro actor active member
  cases member

theorem Coherent.run {system : RingSystem actors α} (coherent : Coherent origin system)
    (window : system.WithinWindow) (moves : List (RingMove actors α))
    (orderly : system.Orderly moves) (windowed : system.Windowed moves) :
    Coherent origin (system.run moves).1 ∧ (system.run moves).1.WithinWindow := by
  induction moves generalizing system with
  | nil => exact ⟨coherent, window⟩
  | cons move moves inductionHypothesis =>
      obtain ⟨permitted, orderlyRest⟩ := orderly
      obtain ⟨windowNext, windowedRest⟩ := windowed
      exact inductionHypothesis (coherent.next window move permitted) windowNext orderlyRest
        windowedRest

theorem coherent_of_run (capacity : Capacity) (blank : α) (origin : Cursor)
    (moves : List (RingMove actors α))
    (orderly : (RingSystem.start capacity blank origin).Orderly moves)
    (windowed : (RingSystem.start capacity blank origin).Windowed moves) :
    Coherent origin ((RingSystem.start capacity blank origin).run moves).1 :=
  ((Coherent.start capacity blank origin).run (withinWindow_start capacity blank origin) moves
    orderly windowed).1

/-! ## A run with everything in it -/

def sampleCapacity : Capacity := ⟨2, by decide, by decide⟩

/-- Two producers and a consumer whose cursors wrap.  The second producer's claim
is outrun by the first's and then gets a part of what it asks for, and it has to
wait before it can publish. -/
def sampleMoves : List (RingMove 3 Nat) :=
  [.claim 0 ⟨.producer, 2, false, false⟩, .claim 1 ⟨.producer, 3, true, false⟩,
    .advance 0 false, .advance 1 false, .advance 0 true, .advance 0 false, .advance 0 false,
    .advance 1 false, .advance 1 false, .advance 1 false,
    .write 1 1 0 12, .write 0 0 1 11, .write 0 0 0 10,
    .publish 1 1 false, .advance 1 false, .publish 0 0 false, .advance 0 false,
    .advance 0 false,
    .claim 2 ⟨.consumer, 1, false, true⟩, .advance 2 false, .advance 2 false, .read 2 2 0]

def sampleProducer : Fin 3 := 0

def sampleRival : Fin 3 := 1

def sampleConsumer : Fin 3 := 2

def sampleStart : RingSystem 3 Nat := .start sampleCapacity 0 0xFFFFFFFE

/-- Where the run ends: the second producer is still publishing, an entry is not
claimed yet, and the consumer has read its slot. -/
def sampleEnd : RingSystem 3 Nat := (sampleStart.run sampleMoves).1

theorem sample_disciplined : sampleStart.Disciplined sampleMoves := by decide +kernel

theorem sample_windowed : sampleStart.Windowed sampleMoves := by decide +kernel

end RingPool

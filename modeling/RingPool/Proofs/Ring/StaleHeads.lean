import RingPool.Proofs.Ring.Coherence
import RingPool.Proofs.Ring.Transfers

/-!
# How stale a head can be

A claim that is paused goes by the head that it took last: when it started, or when a
compare-exchange of it failed (`TakesHead`).  Heads are counters of reserved slots,
modulo the size of a word (`HeadsCounted`), in every run whose calls are permitted and
with no bound on how long a claim is paused.

Main statement: when a shared claim is granted, its side has reserved a multiple of
the word size since the claim took its head.  So nothing at all was granted in between
if fewer slots than that were.  A full circle cannot be told from no step at all:
`stale_head_wins_after_full_circle` is a run, with every move permitted, in which a
claim gets slots that are taken.
-/

set_option autoImplicit false

namespace RingPool

open Grant

variable {actors : Nat} {α : Type} {origin : Cursor}

/-! ## What a list of grants says of its reservations -/

theorem counts_of_reservations {first second : List (Grant α)}
    (same : first.map Grant.reservation = second.map Grant.reservation) (side : Side) :
    (onSide side first).length = (onSide side second).length ∧
      reservedOn side first = reservedOn side second := by
  induction first generalizing second with
  | nil =>
      cases second with
      | nil => exact ⟨rfl, rfl⟩
      | cons grant rest => cases same
  | cons earlier others inductionHypothesis =>
      cases second with
      | nil => cases same
      | cons grant rest =>
          rw [List.map_cons, List.map_cons, List.cons.injEq] at same
          obtain ⟨head, tail⟩ := same
          obtain ⟨lengths, slots⟩ := inductionHypothesis tail
          have sizes : earlier.size = grant.size := by
            rw [Grant.size, Grant.size, head]
          rw [onSide_cons, onSide_cons, reservedOn_cons, reservedOn_cons, head, sizes, slots]
          refine ⟨?_, rfl⟩
          split
          case isTrue => rw [List.length_cons, List.length_cons, lengths]
          case isFalse => exact lengths

theorem reservations_modify_settle (grants : List (Grant α)) (index : Nat) :
    (grants.modify index Grant.settle).map Grant.reservation =
      grants.map Grant.reservation := by
  apply List.ext_getElem?
  intro place
  rw [List.getElem?_map, List.getElem?_map, List.getElem?_modify]
  cases grants[place]? with
  | none => rfl
  | some grant =>
      simp only [Option.map_some, Option.map_eq_map]
      split <;> rfl

theorem reservations_set_accessed {grants : List (Grant α)} {index : Nat} {grant : Grant α}
    (found : grants[index]? = some grant) (offset : Nat) (value : α) :
    (grants.set index (grant.accessed offset value)).map Grant.reservation =
      grants.map Grant.reservation := by
  obtain ⟨before, after, rfl, rfl⟩ := split_of_getElem? found
  rw [set_split, List.map_append, List.map_append, List.map_cons, List.map_cons,
    accessed_reservation]

/-! ## Heads count what is reserved -/

/-- What holds of a claim however long it is paused. -/
structure ClaimSound (core : Core α) (claim : Claim) : Prop where
  asks : 0 < claim.request.count
  exclusive : claim.request.exclusive = true →
    claim.basis = (core.cursors claim.request.side).head
  offer : ∀ offer, claim.phase = .bid offer →
    offer.side = claim.request.side ∧ claim.request.fit? offer.observed = some offer.len

structure HeadsCounted (origin : Cursor) (system : RingSystem actors α) : Prop where
  heads : ∀ side,
    (system.core.cursors side).head = cursorAt origin (reservedOn side system.grants)
  claims : ∀ actor claim since, system.calls actor = some ⟨.claim claim, since⟩ →
    ClaimSound system.core claim
  alone : ExclusiveAlone system

namespace HeadsCounted

variable {system : RingSystem actors α}

theorem start (capacity : Capacity) (blank : α) (origin : Cursor) :
    HeadsCounted origin (RingSystem.start capacity blank origin : RingSystem actors α) where
  heads := by
    intro side
    cases side <;> exact (cursorAt_zero origin).symm
  claims := by
    intro actor claim since within
    cases within
  alone := by
    intro actor request member
    cases member

theorem setCall (counted : HeadsCounted origin system) (actor : Fin actors)
    {call : Option ActiveCall}
    (sound : ∀ claim since, call = some ⟨.claim claim, since⟩ → ClaimSound system.core claim)
    (alone : ExclusiveAlone (system.setCall actor call)) :
    HeadsCounted origin (system.setCall actor call) where
  heads := counted.heads
  claims := by
    intro other claim since within
    by_cases same : other = actor
    · subst other
      rw [RingSystem.setCall_calls_self] at within
      exact sound claim since within
    · rw [RingSystem.setCall_calls_other _ _ same] at within
      exact counted.claims other claim since within
  alone := alone

theorem setCall_other (counted : HeadsCounted origin system) (actor : Fin actors)
    {call : Option ActiveCall} (other : ∀ claim since, call ≠ some ⟨.claim claim, since⟩) :
    HeadsCounted origin (system.setCall actor call) := by
  apply counted.setCall actor
  · intro claim since same
    exact absurd same (other claim since)
  · exact counted.alone.setCall_other actor other

theorem claimContinues (counted : HeadsCounted origin system) {actor : Fin actors}
    {claim later : Claim} {since : SlotTotals}
    (within : system.calls actor = some ⟨.claim claim, since⟩)
    (sameRequest : later.request = claim.request) (sound : ClaimSound system.core later) :
    HeadsCounted origin (system.setCall actor (some ⟨.claim later, since⟩)) := by
  apply counted.setCall actor
  · intro other started same
    cases same
    exact sound
  · apply counted.alone.setCall actor
    intro other started same
    cases same
    exact mem_claiming.mpr ⟨claim, since, within, sameRequest.symm⟩

theorem unmoved (counted : HeadsCounted origin system) {core : Core α} {grants : List (Grant α)}
    (heads : ∀ side, (core.cursors side).head = (system.core.cursors side).head)
    (reservations : grants.map Grant.reservation = system.grants.map Grant.reservation) :
    HeadsCounted origin { system with core, grants } where
  heads := by
    intro side
    rw [heads, counted.heads, (counts_of_reservations reservations side).2]
  claims := by
    intro actor claim since within
    obtain ⟨asks, exclusive, offer⟩ := counted.claims actor claim since within
    exact ⟨asks, fun mode => (exclusive mode).trans (heads _).symm, offer⟩
  alone := counted.alone

theorem offer_atHead (counted : HeadsCounted origin system) {actor : Fin actors} {claim : Claim}
    {since : SlotTotals} {offer : Reservation}
    (within : system.calls actor = some ⟨.claim claim, since⟩)
    (bidding : claim.phase = .bid offer)
    (unopposed : claim.request.exclusive = true ∨
      (system.core.cursors claim.request.side).head = offer.head) :
    offer.head = (system.core.cursors claim.request.side).head := by
  rcases unopposed with exclusive | same
  · rw [← Claim.basis_of_bid bidding]
    exact (counted.claims actor claim since within).exclusive exclusive
  · exact same.symm

theorem granted (counted : HeadsCounted origin system) {actor : Fin actors} {claim : Claim}
    {since : SlotTotals} {offer : Reservation}
    (within : system.calls actor = some ⟨.claim claim, since⟩)
    (bidding : claim.phase = .bid offer)
    (unopposed : claim.request.exclusive = true ∨
      (system.core.cursors claim.request.side).head = offer.head) :
    HeadsCounted origin ((system.granted actor claim.request.exclusive offer
      claim.request.side).setCall actor none) := by
  have atHead := counted.offer_atHead within bidding unopposed
  obtain ⟨side, -⟩ := (counted.claims actor claim since within).offer offer bidding
  constructor
  case heads =>
    intro other
    rw [RingSystem.setCall_core, RingSystem.setCall_grants, RingSystem.granted,
      reservedOn_append, reservedOn_cons, side]
    by_cases same : claim.request.side = other
    · subst same
      have next := next_eq_cursorAt
        (⟨actor, claim.request.exclusive, offer, [], false⟩ : Grant α)
      rw [if_pos rfl, Core.cursors_setHead_self, cursorAt_add, ← counted.heads, ← atHead]
      exact next
    · rw [if_neg same, Core.cursors_setHead_other _ _ (Ne.symm same), counted.heads]
      rfl
  case claims =>
    intro other rival started member
    by_cases same : other = actor
    · subst other
      rw [RingSystem.setCall_calls_self] at member
      cases member
    · rw [RingSystem.setCall_calls_other _ _ same] at member
      obtain ⟨asks, exclusive, offers⟩ := counted.claims other rival started member
      refine ⟨asks, fun mode => ?_, offers⟩
      rw [exclusive mode, RingSystem.setCall_core, RingSystem.granted]
      -- An exclusive rival would be the only claim on the side.
      have apart : rival.request.side ≠ claim.request.side := by
        intro sameSide
        have rivalIn := mem_claiming.mpr ⟨rival, started, member, rfl⟩
        have claimIn := mem_claiming.mpr ⟨claim, since, within, rfl⟩
        exact same (counted.alone other _ rivalIn mode actor _ claimIn sameSide.symm).symm
      rw [Core.cursors_setHead_other _ _ apart]
  case alone =>
    have alone : ExclusiveAlone (system.granted actor claim.request.exclusive offer
      claim.request.side) := counted.alone
    exact alone.setCall_other actor (by simp)

theorem next (counted : HeadsCounted origin system) (move : RingMove actors α)
    (permitted : system.PermitsCall move) : HeadsCounted origin (system.next move).1 := by
  have effect := system.effect_of_next move
  generalize (system.next move).1 = after at effect ⊢
  generalize (system.next move).2 = event at effect
  cases effect with
  | stay => exact counted
  | claimStarts actor request free =>
      apply counted.setCall actor
      · intro claim since same
        cases same
        exact ⟨permitted.2.1, fun _ => rfl, by intro offer bidding; cases bidding⟩
      · exact counted.alone.claimStarts actor request permitted _
  | publicationStarts actor | censusStarts actor | claimShort actor | publicationReady actor
  | publicationWaits actor | publicationPauses actor | censusLooks actor
  | censusCounts actor => exact counted.setCall_other actor (by simp)
  | claimOffered actor refused claim since head offer within seeking offered =>
      obtain ⟨asks, exclusive, -⟩ := counted.claims actor claim since within
      obtain ⟨side, headEq, -, fits⟩ := Core.offer_granted offered
      refine counted.claimContinues within rfl ⟨asks, fun mode => ?_, ?_⟩
      · rw [← exclusive mode, Claim.basis_of_seek seeking]
        exact headEq
      · intro other bidding
        cases bidding
        exact ⟨side, fits⟩
  | claimGranted actor refused claim since offer within bidding unopposed =>
      exact counted.granted within bidding unopposed
  | claimOutrun actor refused claim since offer within bidding shared opposed =>
      obtain ⟨asks, -, -⟩ := counted.claims actor claim since within
      exact counted.claimContinues within rfl
        ⟨asks, fun _ => rfl, by intro other bidding; cases bidding⟩
  | publicationSettles actor refused grant publication since within settling =>
      have same := counted.unmoved (fun side => Core.head_setTail system.core
        publication.reservation.side side publication.reservation.next)
        (reservations_modify_settle system.grants grant)
      exact same.setCall_other actor (by simp)
  | writes actor grant offset value granted found =>
      exact counted.unmoved
        (fun side => congrArg Cursors.head (Core.cursors_write _ _ _ side))
        (reservations_set_accessed found offset value)
  | reads actor grant offset granted found =>
      exact counted.unmoved (fun _ => rfl) (reservations_set_accessed found offset _)

theorem run (counted : HeadsCounted origin system) (moves : List (RingMove actors α))
    (orderly : system.Orderly moves) : HeadsCounted origin (system.run moves).1 := by
  induction moves generalizing system with
  | nil => exact counted
  | cons move moves inductionHypothesis =>
      obtain ⟨permitted, rest⟩ := orderly
      exact inductionHypothesis (counted.next move permitted) rest

end HeadsCounted

/-! ## What is reserved only grows -/

/-- A side that has more grants has reserved at least as many slots more. -/
def Grew (before after : List (Grant α)) (side : Side) : Prop :=
  (onSide side before).length ≤ (onSide side after).length ∧
    reservedOn side before + (onSide side after).length ≤
      reservedOn side after + (onSide side before).length

theorem Grew.of_same {before after : List (Grant α)}
    (same : after.map Grant.reservation = before.map Grant.reservation) (side : Side) :
    Grew before after side := by
  obtain ⟨lengths, slots⟩ := counts_of_reservations same side
  rw [Grew, lengths, slots]
  exact ⟨le_refl _, le_refl _⟩

theorem Grew.trans {before middle after : List (Grant α)} {side : Side}
    (first : Grew before middle side) (second : Grew middle after side) :
    Grew before after side := by
  unfold Grew at first second ⊢
  omega

namespace HeadsCounted

variable {system : RingSystem actors α}

theorem grew (counted : HeadsCounted origin system) (move : RingMove actors α) (side : Side) :
    Grew system.grants (system.next move).1.grants side := by
  have effect := system.effect_of_next move
  generalize (system.next move).1 = after at effect ⊢
  generalize (system.next move).2 = event at effect
  cases effect with
  | claimGranted actor refused claim since offer within bidding unopposed =>
      obtain ⟨asks, -, offers⟩ := counted.claims actor claim since within
      have positive := (Request.fit?_eq_some (offers offer bidding).2 asks).1
      have slots : 0 < offer.len.toNat := UInt32.lt_iff_toNat_lt.mp positive
      rw [RingSystem.setCall_grants, RingSystem.granted, Grew, onSide_append, onSide_cons,
        List.length_append, reservedOn_append, reservedOn_cons]
      have size : (⟨actor, claim.request.exclusive, offer, [], false⟩ : Grant α).size =
          offer.len.toNat := rfl
      rw [size]
      have none : reservedOn side ([] : List (Grant α)) = 0 := rfl
      have nil : onSide side ([] : List (Grant α)) = [] := rfl
      rw [none, nil]
      split
      case isTrue =>
        rw [List.length_singleton]
        omega
      case isFalse =>
        rw [List.length_nil]
        omega
  | publicationSettles actor refused grant publication since within settling =>
      exact .of_same (reservations_modify_settle system.grants grant) side
  | writes actor grant offset value granted found =>
      exact .of_same (reservations_set_accessed found offset value) side
  | reads actor grant offset granted found =>
      exact .of_same (reservations_set_accessed found offset _) side
  | stay | claimStarts | publicationStarts | censusStarts | claimShort | claimOffered
  | claimOutrun | publicationReady | publicationWaits | publicationPauses | censusLooks
  | censusCounts => exact .of_same rfl side

theorem grew_run (counted : HeadsCounted origin system) (moves : List (RingMove actors α))
    (orderly : system.Orderly moves) (side : Side) :
    Grew system.grants (system.run moves).1.grants side := by
  induction moves generalizing system with
  | nil => exact .of_same rfl side
  | cons move moves inductionHypothesis =>
      obtain ⟨permitted, rest⟩ := orderly
      exact (counted.grew move side).trans
        (inductionHypothesis (counted.next move permitted) rest)

end HeadsCounted

/-! ## The head that a claim goes by -/

namespace RingSystem

/-- A claim takes its side's head when it starts, and when a compare-exchange of it
fails. -/
def TakesHead (system : RingSystem actors α) (actor : Fin actors) : RingMove actors α → Prop
  | .claim mover _ => mover = actor ∧ system.calls actor = none
  | .advance mover refused =>
      mover = actor ∧ ∃ claim since offer, system.calls actor = some ⟨.claim claim, since⟩ ∧
        claim.phase = .bid offer ∧ claim.request.exclusive = false ∧
        ((system.core.cursors claim.request.side).head ≠ offer.head ∨ refused = true)
  | .publish _ _ _ | .census _ | .write _ _ _ _ | .read _ _ _ => False

/-- If an actor is within a claim, it is for this request and goes by this head. -/
def GoesBy (system : RingSystem actors α) (actor : Fin actors) (request : Request)
    (head : Cursor) : Prop :=
  ∀ claim since, system.calls actor = some ⟨.claim claim, since⟩ →
    claim.request = request ∧ claim.basis = head

variable {system : RingSystem actors α} {actor : Fin actors} {request : Request} {head : Cursor}

theorem GoesBy.setCall_self {call : Option ActiveCall}
    (goes : ∀ claim since, call = some ⟨.claim claim, since⟩ →
      claim.request = request ∧ claim.basis = head) :
    (system.setCall actor call).GoesBy actor request head := by
  intro claim since within
  rw [setCall_calls_self] at within
  exact goes claim since within

theorem TakesHead.goesBy {move : RingMove actors α} (takes : system.TakesHead actor move) :
    ∃ request, (system.next move).1.claiming actor = some request ∧
      (system.next move).1.GoesBy actor request
        ((system.next move).1.core.cursors request.side).head := by
  cases move with
  | publish | census | write | read => cases takes
  | claim mover request =>
      obtain ⟨rfl, free⟩ := takes
      refine ⟨request, ?_, ?_⟩
      · simp [next, enter, free, claiming, Claim.start]
      · simp only [next, enter, free]
        apply GoesBy.setCall_self
        intro claim since same
        cases same
        exact ⟨rfl, rfl⟩
  | advance mover refused =>
      obtain ⟨rfl, claim, since, offer, within, bidding, shared, opposed⟩ := takes
      have lost : ¬ ((system.core.cursors claim.request.side).head = offer.head ∧
          refused = false) := by
        rintro ⟨same, allowed⟩
        rcases opposed with moved | refusal
        · exact moved same
        · rw [allowed] at refusal
          cases refusal
      refine ⟨claim.request, ?_, ?_⟩
      · simp [next, within, Claim.step, bidding, shared, if_neg lost, settle, claiming]
      · simp only [next, within, Claim.step, bidding, shared, if_neg lost, settle,
          Bool.false_eq_true, if_false]
        apply GoesBy.setCall_self
        intro later started same
        cases same
        exact ⟨rfl, rfl⟩

theorem claim_before_next {move : RingMove actors α} (quiet : ¬ system.TakesHead actor move)
    {claim : Claim} {since : SlotTotals}
    (within : (system.next move).1.calls actor = some ⟨.claim claim, since⟩) :
    ∃ earlier, system.calls actor = some ⟨.claim earlier, since⟩ ∧
      claim.request = earlier.request ∧ claim.basis = earlier.basis := by
  by_cases mine : move.mover = actor
  case neg =>
    rw [calls_next_other mine] at within
    exact ⟨claim, within, rfl, rfl⟩
  case pos =>
  subst mine
  have effect := system.effect_of_next move
  generalize (system.next move).1 = after at effect within
  generalize (system.next move).2 = event at effect
  cases effect with
  | stay | writes | reads => exact ⟨claim, within, rfl, rfl⟩
  | claimStarts mover asked free => exact absurd ⟨rfl, free⟩ quiet
  | claimOutrun mover refused earlier started offer calling bidding shared opposed =>
      exact absurd ⟨rfl, earlier, started, offer, calling, bidding, shared, opposed⟩ quiet
  | claimOffered mover refused earlier started seen offer calling seeking offered =>
      cases (setCall_calls_self _ _ _).symm.trans within
      obtain ⟨-, atSeen, -⟩ := Core.offer_granted offered
      refine ⟨earlier, calling, rfl, ?_⟩
      rw [Claim.basis_of_seek seeking]
      exact atSeen
  | publicationStarts | censusStarts | claimShort | claimGranted | publicationReady
  | publicationWaits | publicationPauses | publicationSettles | censusLooks | censusCounts =>
      cases (setCall_calls_self _ _ _).symm.trans within

theorem claim_before_run {moves : List (RingMove actors α)}
    (quiet : system.Keeps (fun system move => ¬ system.TakesHead actor move) moves)
    {claim : Claim} {since : SlotTotals}
    (within : (system.run moves).1.calls actor = some ⟨.claim claim, since⟩) :
    ∃ earlier, system.calls actor = some ⟨.claim earlier, since⟩ ∧
      claim.request = earlier.request ∧ claim.basis = earlier.basis := by
  induction moves generalizing system with
  | nil => exact ⟨claim, within, rfl, rfl⟩
  | cons move moves inductionHypothesis =>
      obtain ⟨middle, within, request, basis⟩ := inductionHypothesis quiet.2 within
      obtain ⟨earlier, before, sameRequest, sameBasis⟩ := claim_before_next quiet.1 within
      exact ⟨earlier, before, request.trans sameRequest, basis.trans sameBasis⟩

theorem GoesBy.run (goes : system.GoesBy actor request head) {moves : List (RingMove actors α)}
    (quiet : system.Keeps (fun system move => ¬ system.TakesHead actor move) moves) :
    (system.run moves).1.GoesBy actor request head := by
  intro claim since within
  obtain ⟨earlier, before, sameRequest, sameBasis⟩ := claim_before_run quiet within
  obtain ⟨asked, basis⟩ := goes earlier since before
  exact ⟨sameRequest.trans asked, sameBasis.trans basis⟩

theorem TakesHead.claim_before {take : RingMove actors α} (takes : system.TakesHead actor take)
    {moves : List (RingMove actors α)}
    (quiet : (system.next take).1.Keeps (fun system move => ¬ system.TakesHead actor move) moves)
    {claim : Claim} {since : SlotTotals}
    (within : ((system.next take).1.run moves).1.calls actor = some ⟨.claim claim, since⟩) :
    (∃ earlier, (system.next take).1.calls actor = some ⟨.claim earlier, since⟩ ∧
      earlier.request = claim.request) ∧
    claim.basis = ((system.next take).1.core.cursors claim.request.side).head := by
  obtain ⟨request, -, goes⟩ := takes.goesBy
  obtain ⟨earlier, before, sameRequest, sameBasis⟩ := claim_before_run quiet within
  obtain ⟨asked, basis⟩ := goes earlier since before
  refine ⟨⟨earlier, before, sameRequest.symm⟩, ?_⟩
  rw [sameBasis, basis, sameRequest, asked]

end RingSystem

/-! ## How far a side goes while a claim is paused -/

/-- Equal cursors are a number of full circles apart. -/
theorem cursorAt_full_circles (origin : Cursor) {low high : Nat} (ordered : low ≤ high)
    (same : cursorAt origin low = cursorAt origin high) :
    ∃ circles, high = low + circles * UInt32.size := by
  have residues := congrArg UInt32.toNat same
  rw [cursorAt_toNat, cursorAt_toNat] at residues
  refine ⟨(high - low) / UInt32.size, ?_⟩
  unfold UInt32.size at residues ⊢
  omega

namespace RingSystem

theorem next_of_granted {system : RingSystem actors α} {actor : Fin actors} {refused : Bool}
    {offer : Reservation} {attempts : Nat}
    (granted : (system.next (.advance actor refused)).2 =
      some (.claimed ⟨.granted offer, attempts⟩)) :
    ∃ claim since, system.calls actor = some ⟨.claim claim, since⟩ ∧
      claim.phase = .bid offer ∧ (claim.request.exclusive = true ∨
        (system.core.cursors claim.request.side).head = offer.head) ∧
      (system.next (.advance actor refused)).1 =
        (system.granted actor claim.request.exclusive offer claim.request.side).setCall actor
          none := by
  have effect := system.effect_of_next (.advance actor refused)
  generalize (system.next (.advance actor refused)).1 = after at effect ⊢
  rw [granted] at effect
  cases effect with
  | claimGranted _ _ claim since _ within bidding unopposed =>
      exact ⟨claim, since, within, bidding, unopposed, rfl⟩

theorem claim_of_granted {system : RingSystem actors α} {actor : Fin actors} {refused : Bool}
    {offer : Reservation} {attempts : Nat}
    (granted : (system.next (.advance actor refused)).2 =
      some (.claimed ⟨.granted offer, attempts⟩)) :
    ∃ claim since, system.calls actor = some ⟨.claim claim, since⟩ ∧
      claim.phase = .bid offer ∧ (claim.request.exclusive = true ∨
        (system.core.cursors claim.request.side).head = offer.head) := by
  obtain ⟨claim, since, within, bidding, unopposed, -⟩ := next_of_granted granted
  exact ⟨claim, since, within, bidding, unopposed⟩

end RingSystem

/-- A shared claim that is granted goes by a head that is a number of full circles old:
between the step that took it and the grant, its side reserved a multiple of the word
size.  So if it reserved less than one word size, it granted nothing in between. -/
theorem stale_heads_are_full_circles_old (capacity : Capacity) (blank : α) (origin : Cursor)
    (before between : List (RingMove actors α)) (take : RingMove actors α)
    (orderly : (RingSystem.start capacity blank origin).Orderly (before ++ take :: between))
    (actor : Fin actors) {first taken reached : RingSystem actors α}
    (begins : ((RingSystem.start capacity blank origin).run before).1 = first)
    (takes : first.TakesHead actor take) (continues : (first.next take).1 = taken)
    (keeps : taken.Keeps (fun system move => ¬ system.TakesHead actor move) between)
    (ends : (taken.run between).1 = reached) {request : Request}
    (claiming : reached.claiming actor = some request) (shared : request.exclusive = false)
    {refused : Bool} {offer : Reservation} {attempts : Nat}
    (granted : (reached.next (.advance actor refused)).2 =
      some (.claimed ⟨.granted offer, attempts⟩)) :
    (∃ circles, reached.totals.reserved request.side =
      taken.totals.reserved request.side + circles * UInt32.size) ∧
    (reached.totals.reserved request.side <
        taken.totals.reserved request.side + UInt32.size →
      (reached.grantsOf request.side).length = (taken.grantsOf request.side).length) := by
  obtain ⟨orderlyBefore, permitted, orderlyBetween⟩ := (RingSystem.keeps_append _).mp orderly
  rw [begins] at permitted orderlyBetween
  rw [continues] at orderlyBetween
  have atFirst : HeadsCounted origin first := by
    rw [← begins]
    exact (HeadsCounted.start capacity blank origin).run before orderlyBefore
  have atTaken : HeadsCounted origin taken := by
    rw [← continues]
    exact atFirst.next take permitted
  have atReached : HeadsCounted origin reached := by
    rw [← ends]
    exact atTaken.run between orderlyBetween
  have grew : Grew taken.grants reached.grants request.side := by
    rw [← ends]
    exact atTaken.grew_run between orderlyBetween request.side
  obtain ⟨asked, -, goes⟩ := takes.goesBy
  rw [continues] at goes
  have goesOn := goes.run keeps
  rw [ends] at goesOn
  obtain ⟨claim, since, within, bidding, unopposed⟩ := RingSystem.claim_of_granted granted
  have isRequest : claim.request = request := by
    rw [RingSystem.claiming, within, Option.some.injEq] at claiming
    exact claiming
  obtain ⟨sameRequest, basis⟩ := goesOn claim since within
  rw [isRequest] at sameRequest unopposed
  subst sameRequest
  -- The compare-exchange found the head that the claim goes by.
  have found : (reached.core.cursors request.side).head =
      (taken.core.cursors request.side).head := by
    rcases unopposed with exclusive | same
    · rw [shared] at exclusive
      cases exclusive
    · rw [same, ← basis, Claim.basis_of_bid bidding]
  rw [atReached.heads, atTaken.heads] at found
  obtain ⟨lengths, slots⟩ := grew
  have ordered : reservedOn request.side taken.grants ≤
      reservedOn request.side reached.grants := by omega
  obtain ⟨circles, far⟩ := cursorAt_full_circles origin ordered found.symm
  refine ⟨⟨circles, far⟩, ?_⟩
  intro near
  change reservedOn request.side reached.grants <
    reservedOn request.side taken.grants + UInt32.size at near
  change (onSide request.side reached.grants).length =
    (onSide request.side taken.grants).length
  have none : circles = 0 := by
    by_contra some
    have circle : UInt32.size ≤ circles * UInt32.size :=
      Nat.le_mul_of_pos_left _ (Nat.pos_of_ne_zero some)
    omega
  rw [none, Nat.zero_mul, Nat.add_zero] at far
  omega

def sampleAfter (count : Nat) : RingSystem 3 Nat := (sampleStart.run (sampleMoves.take count)).1

theorem stale_heads_are_full_circles_old_sample :
    sampleStart.Orderly (sampleMoves.take 7 ++ .advance 1 false :: [.advance 1 false]) ∧
      ((sampleAfter 9).next (.advance 1 false)).2 =
        some (.claimed ⟨.granted ⟨.producer, 0, 1, 1⟩, 2⟩) ∧
      ((sampleAfter 9).grantsOf .producer).length =
        ((sampleAfter 8).grantsOf .producer).length := by
  have orderly : sampleStart.Orderly
      (sampleMoves.take 7 ++ .advance 1 false :: [.advance 1 false]) := by
    decide +kernel
  have takes : (sampleAfter 7).TakesHead 1 (.advance 1 false) :=
    ⟨rfl, _, _, _, rfl, rfl, rfl, Or.inl (by decide)⟩
  have keeps : (sampleAfter 8).Keeps (fun system move => ¬ system.TakesHead 1 move)
      [.advance 1 false] := by
    refine ⟨?_, trivial⟩
    rintro ⟨-, claim, since, offer, within, bidding, -⟩
    cases within
    cases bidding
  have claiming : (sampleAfter 9).claiming 1 = some ⟨.producer, 3, true, false⟩ := rfl
  have granted : ((sampleAfter 9).next (.advance 1 false)).2 =
      some (.claimed ⟨.granted ⟨.producer, 0, 1, 1⟩, 2⟩) := rfl
  have near : (sampleAfter 9).totals.reserved .producer <
      (sampleAfter 8).totals.reserved .producer + UInt32.size := by
    decide +kernel
  refine ⟨orderly, granted, ?_⟩
  exact (stale_heads_are_full_circles_old sampleCapacity 0 0xFFFFFFFE (sampleMoves.take 7)
    [.advance 1 false] (.advance 1 false) orderly 1 rfl takes rfl keeps rfl claiming rfl
    granted).2 near

/-! ## A full circle -/

theorem RingSystem.TakesHead.mover {system : RingSystem actors α} {actor : Fin actors}
    {move : RingMove actors α} (takes : system.TakesHead actor move) : move.mover = actor := by
  cases move with
  | claim | advance => exact takes.1
  | publish | census | write | read => cases takes

theorem cursorAt_wordSize (origin : Cursor) : cursorAt origin UInt32.size = origin := by
  apply UInt32.toNat_inj.mp
  rw [cursorAt_toNat, Nat.add_mod_right]
  exact Nat.mod_eq_of_lt origin.toNat_lt_size

namespace FullCircle

def wholeRing (capacity : Capacity) : Request := ⟨.producer, capacity.mask, false, false⟩

def wholeOffer (capacity : Capacity) (position : Cursor) : Reservation :=
  ⟨.producer, position, position + capacity.mask, capacity.mask⟩

/-- A producer stops short of its compare-exchange.  Then a second producer and a
consumer take the ring round, and the producer passes one slot more. -/
def moves (stalled producer consumer : Fin actors) (value : α) (grant rounds : Nat) :
    List (RingMove actors α) :=
  .advance stalled false ::
    (RingSystem.laps producer consumer value grant rounds ++
      RingSystem.passSlot .producer producer (grant + 2 * rounds) value)

structure Reached (system : RingSystem actors α) (stalled : Fin actors) (position : Cursor)
    (rounds : Nat) (reached : RingSystem actors α) : Prop where
  stalls : reached.calls stalled = some ⟨.claim ⟨wholeRing system.core.capacity, 0,
    .bid (wholeOffer system.core.capacity position)⟩, system.totals⟩
  capacity : reached.core.capacity = system.core.capacity
  entered : (reached.core.cursors .producer).head = cursorAt position (rounds + 1)
  left : (reached.core.cursors .consumer).tail = cursorAt position rounds
  passed : (reached.grantsOf .producer).length =
    (system.grantsOf .producer).length + (rounds + 1)

variable {system : RingSystem actors α} {position : Cursor}

theorem mask_pos (capacity : Capacity) : 0 < capacity.mask := by
  have size := capacity.two_le_size
  rw [UInt32.lt_iff_toNat_lt, Capacity.mask_toNat]
  exact Nat.sub_pos_of_lt size

theorem offered (idle : system.Idle position) :
    system.core.offer (wholeRing system.core.capacity) (system.core.cursors .producer).head =
      .granted (wholeOffer system.core.capacity position) := by
  have room : system.core.room .producer position = system.core.capacity.mask := by
    have consumers : system.core.consumer.tail = position :=
      congrArg Cursors.tail (idle.rest .consumer)
    rw [Core.room, consumers, UInt32.sub_self, UInt32.sub_zero]
  have fits : (wholeRing system.core.capacity).fit? system.core.capacity.mask =
      some system.core.capacity.mask := if_pos (UInt32.le_refl _)
  have side : (wholeRing system.core.capacity).side = .producer := rfl
  rw [idle.rest]
  unfold Core.offer
  dsimp only
  rw [side, room, fits]
  rfl

/-- The claim that is paused is shared, and so the ring is as idle as before. -/
theorem offering_idle (idle : system.Idle position) (stalled : Fin actors)
    (offer : Reservation) :
    (system.offering stalled (wholeRing system.core.capacity) offer).Idle position where
  shared := by
    refine ⟨?_, idle.shared.grants⟩
    intro other request member
    by_cases same : other = stalled
    · rw [same, RingSystem.claiming, RingSystem.offering, RingSystem.setCall_calls_self] at member
      cases member
      rfl
    · apply idle.shared.claims other request
      rw [RingSystem.claiming, RingSystem.offering, RingSystem.setCall_calls_other _ _ same]
        at member
      exact member
  rest := idle.rest

variable {stalled producer consumer : Fin actors}

theorem quiet (producerApart : producer ≠ stalled) (consumerApart : consumer ≠ stalled)
    (seeks : ∃ head, ∀ claim since, system.calls stalled = some ⟨.claim claim, since⟩ →
      claim.phase = .seek head) (value : α) (grant rounds : Nat) :
    system.Keeps (fun system move => ¬ system.TakesHead stalled move)
      (moves stalled producer consumer value grant rounds) := by
  constructor
  · obtain ⟨head, seeking⟩ := seeks
    rintro ⟨-, claim, since, offer, within, bidding, -⟩
    rw [seeking claim since within] at bidding
    cases bidding
  · apply RingSystem.keeps_of_forall_mem
    intro move member system takes
    have mover := takes.mover
    rcases List.mem_append.mp member with laps | last
    · rcases RingSystem.mover_of_mem_laps laps with second | third
      · exact producerApart (second.symm.trans mover)
      · exact consumerApart (third.symm.trans mover)
    · exact producerApart ((RingSystem.mover_of_mem_passSlot last).symm.trans mover)

theorem runs (idle : system.Idle position) (stalledFree : system.calls stalled = none)
    (producerFree : system.calls producer = none) (consumerFree : system.calls consumer = none)
    (producerApart : producer ≠ stalled) (consumerApart : consumer ≠ stalled) (value : α)
    (rounds : Nat) :
    let taken := (system.next (.claim stalled (wholeRing system.core.capacity))).1
    let between := moves stalled producer consumer value system.grants.length rounds
    system.Disciplined (.claim stalled (wholeRing system.core.capacity) :: between) ∧
      Reached system stalled position rounds (taken.run between).1 := by
  intro taken between
  let offering := system.offering stalled (wholeRing system.core.capacity)
    (wholeOffer system.core.capacity position)
  have offers : (taken.next (.advance stalled false)).1 = offering :=
    RingSystem.next_next_offering stalledFree (offered idle)
  have idleThen : offering.Idle position := offering_idle idle stalled _
  have producerThen : offering.calls producer = none :=
    (RingSystem.setCall_calls_other system _ producerApart).trans producerFree
  have consumerThen : offering.calls consumer = none :=
    (RingSystem.setCall_calls_other system _ consumerApart).trans consumerFree
  obtain ⟨circles, circled⟩ := idleThen.laps producerThen consumerThen value rounds
  generalize around : (offering.run
    (RingSystem.laps producer consumer value offering.grants.length rounds)).1 = circledTo
    at circled
  have producerFreeLast : circledTo.calls producer = none := by
    rw [circled.calls]
    exact producerThen
  obtain ⟨passes, passed⟩ := circled.idle.passes.passSlot producerFreeLast value
  have grant : circledTo.grants.length = system.grants.length + 2 * rounds := circled.grants
  rw [grant] at passes passed
  have ends : (taken.run between).1 = (circledTo.run
      (RingSystem.passSlot .producer producer (system.grants.length + 2 * rounds) value)).1 := by
    rw [← around, ← RingSystem.run_append_state]
    change ((taken.next (.advance stalled false)).1.run _).1 = _
    rw [offers]
    rfl
  rw [ends]
  constructor
  case left =>
    have permitted : system.PermitsCall
        (.claim stalled (wholeRing system.core.capacity)) :=
      ⟨stalledFree, mask_pos _, idle.shared.noneExclusive .producer⟩
    refine ⟨⟨permitted, trivial⟩, ⟨trivial, trivial⟩, ?_⟩
    rw [offers]
    refine (RingSystem.keeps_append _).mpr ⟨circles, ?_⟩
    have same : (offering.run (RingSystem.laps producer consumer value
      system.grants.length rounds)).1 = circledTo := around
    rw [same]
    exact passes
  case right =>
    constructor
    case stalls =>
      rw [passed.calls, circled.calls]
      exact RingSystem.setCall_calls_self system stalled _
    case capacity => exact passed.capacity.trans circled.capacity
    case entered =>
      rw [passed.cursors, cursorAt_add]
      rfl
    case left =>
      rw [passed.others .consumer (by decide), circled.idle.rest]
    case passed =>
      rw [passed.length_grantsOf, if_pos rfl, circled.passed]
      rfl

/-- After a full circle the stalled claim wins by the head that it took before, and gets
all the slots of a ring although one of them is taken. -/
theorem Reached.wins {rounds : Nat} {reached : RingSystem actors α}
    (full : Reached system stalled position rounds reached)
    (circle : rounds + 1 = UInt32.size) :
    reached.core.room .producer (reached.core.cursors .producer).head =
        system.core.capacity.mask - 1 ∧
      (reached.next (.advance stalled false)).2 =
        some (.claimed ⟨.granted (wholeOffer system.core.capacity position), 1⟩) := by
  obtain ⟨stalls, capacity, entered, left, passed⟩ := full
  have home : (reached.core.cursors .producer).head = position := by
    rw [entered, circle, cursorAt_wordSize]
  constructor
  · have last := cursorAt_add position rounds 1
    rw [circle, cursorAt_wordSize] at last
    have consumers : reached.core.consumer.tail = cursorAt position rounds := left
    have apart : position - cursorAt position rounds = 1 := by
      generalize cursorAt position rounds = behind at last
      rw [last, cursorAt, UInt32.add_comm, UInt32.add_sub_cancel]
      rfl
    rw [home, Core.room, capacity, consumers, apart]
  · exact congrArg Prod.snd (RingSystem.next_advance_wins stalls rfl rfl home)

end FullCircle

/-- If the producers of a ring reserve as many slots as a word has values while a claim
is paused, then the claim is granted by the head that it took before: here three slots,
of which two are free. -/
theorem stale_head_wins_after_full_circle :
    ∃ rounds, rounds + 1 = UInt32.size ∧
      let start : RingSystem 3 Nat := .start sampleCapacity 0 0
      let taken := (start.next (.claim 0 ⟨.producer, 3, false, false⟩)).1
      let between := FullCircle.moves 0 1 2 7 0 rounds
      let reached := (taken.run between).1
      start.Disciplined (.claim 0 ⟨.producer, 3, false, false⟩ :: between) ∧
        taken.Keeps (fun system move => ¬ system.TakesHead 0 move) between ∧
        (reached.grantsOf .producer).length =
          (taken.grantsOf .producer).length + UInt32.size ∧
        reached.core.room .producer (reached.core.cursors .producer).head = 2 ∧
        (reached.next (.advance 0 false)).2 =
          some (.claimed ⟨.granted ⟨.producer, 0, 3, 3⟩, 1⟩) := by
  obtain ⟨rounds, circle⟩ : ∃ rounds, rounds + 1 = UInt32.size := ⟨4294967295, rfl⟩
  refine ⟨rounds, circle, ?_⟩
  intro start taken between reached
  have idle : start.Idle 0 := by
    refine ⟨⟨by decide, by decide⟩, ?_⟩
    intro side
    cases side <;> rfl
  have runs : start.Disciplined (.claim 0 ⟨.producer, 3, false, false⟩ :: between) ∧
      FullCircle.Reached start 0 0 rounds reached :=
    FullCircle.runs idle rfl rfl rfl (by decide) (by decide) 7 rounds
  obtain ⟨disciplined, full⟩ := runs
  obtain ⟨room, granted⟩ := full.wins circle
  have quiet : taken.Keeps (fun system move => ¬ system.TakesHead 0 move) between := by
    apply FullCircle.quiet (by decide) (by decide)
    refine ⟨0, ?_⟩
    intro claim since within
    cases within
    rfl
  have two : sampleCapacity.mask - 1 = 2 := by decide
  refine ⟨disciplined, quiet, ?_, room.trans two, granted⟩
  rw [full.passed, circle]
  rfl

end RingPool

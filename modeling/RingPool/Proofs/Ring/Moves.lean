import RingPool.Proofs.Ring.History

/-!
# What one move can do

`Effect` lists every way in which a move changes a ring system, with the guard
under which it does so and what the actor observes.  `effect_of_next` says that
`RingSystem.next` does nothing else, so that a fact about all runs is proved by
one case for each constructor.
-/

set_option autoImplicit false

namespace RingPool

namespace RingSystem

variable {actors : Nat} {α : Type}

@[simp] theorem setCall_core (system : RingSystem actors α) (actor : Fin actors)
    (call : Option ActiveCall) : (system.setCall actor call).core = system.core := rfl

@[simp] theorem setCall_grants (system : RingSystem actors α) (actor : Fin actors)
    (call : Option ActiveCall) : (system.setCall actor call).grants = system.grants := rfl

@[simp] theorem setCall_calls_self (system : RingSystem actors α) (actor : Fin actors)
    (call : Option ActiveCall) : (system.setCall actor call).calls actor = call := by
  simp [setCall]

@[simp] theorem setCall_calls_other (system : RingSystem actors α) {actor other : Fin actors}
    (call : Option ActiveCall) (different : other ≠ actor) :
    (system.setCall actor call).calls other = system.calls other := by
  simp [setCall, different]

def granted (system : RingSystem actors α) (actor : Fin actors) (exclusive : Bool)
    (offer : Reservation) (side : Side) : RingSystem actors α :=
  { system with
    core := system.core.setHead side offer.next
    grants := system.grants ++ [⟨actor, exclusive, offer, [], false⟩] }

def published (system : RingSystem actors α) (grant : Nat) (reservation : Reservation) :
    RingSystem actors α :=
  { system with
    core := system.core.setTail reservation.side reservation.next
    grants := system.grants.modify grant Grant.settle }

def accessed (system : RingSystem actors α) (core : Core α) (grant : Nat)
    (granted : Grant α) (offset : Nat) (value : α) : RingSystem actors α :=
  { system with core, grants := system.grants.set grant (granted.accessed offset value) }

theorem published_grants {system : RingSystem actors α} {before after : List (Grant α)}
    {granted : Grant α} (split : system.grants = before ++ granted :: after)
    (reservation : Reservation) :
    (system.published before.length reservation).grants = before ++ granted.settle :: after := by
  rw [published, split, Grant.modify_split]

theorem accessed_grants {system : RingSystem actors α} {before after : List (Grant α)}
    {granted : Grant α} (split : system.grants = before ++ granted :: after) (core : Core α)
    (offset : Nat) (value : α) :
    (system.accessed core before.length granted offset value).grants =
      before ++ granted.accessed offset value :: after := by
  rw [accessed, split, Grant.set_split]

inductive Effect (system : RingSystem actors α) :
    RingMove actors α → RingSystem actors α → Option (RingEvent α) → Prop where
  /-- A move out of place. -/
  | stay (move : RingMove actors α) : Effect system move system none
  | claimStarts (actor : Fin actors) (request : Request) (free : system.calls actor = none) :
      Effect system (.claim actor request)
        (system.setCall actor
          (some ⟨.claim (Claim.start system.core request), system.totals⟩)) none
  | publicationStarts (actor : Fin actors) (grant : Nat) (exclusive : Bool) (granted : Grant α)
      (free : system.calls actor = none) (found : system.grants[grant]? = some granted) :
      Effect system (.publish actor grant exclusive)
        (system.setCall actor
          (some ⟨.publish grant (Publication.start granted.reservation exclusive),
            system.totals⟩)) none
  | censusStarts (actor : Fin actors) (free : system.calls actor = none) :
      Effect system (.census actor)
        (system.setCall actor (some ⟨.census .start, system.totals⟩)) none
  | claimShort (actor : Fin actors) (refused : Bool) (claim : Claim) (since : SlotTotals)
      (head : Cursor) (available : UInt32)
      (within : system.calls actor = some ⟨.claim claim, since⟩)
      (seeking : claim.phase = .seek head)
      (offered : system.core.offer claim.request head = .short available) :
      Effect system (.advance actor refused) (system.setCall actor none)
        (some (.claimed ⟨.short available, claim.attempts⟩))
  | claimOffered (actor : Fin actors) (refused : Bool) (claim : Claim) (since : SlotTotals)
      (head : Cursor) (offer : Reservation)
      (within : system.calls actor = some ⟨.claim claim, since⟩)
      (seeking : claim.phase = .seek head)
      (offered : system.core.offer claim.request head = .granted offer) :
      Effect system (.advance actor refused)
        (system.setCall actor (some ⟨.claim { claim with phase := .bid offer }, since⟩)) none
  | claimGranted (actor : Fin actors) (refused : Bool) (claim : Claim) (since : SlotTotals)
      (offer : Reservation)
      (within : system.calls actor = some ⟨.claim claim, since⟩)
      (bidding : claim.phase = .bid offer)
      (unopposed : claim.request.exclusive = true ∨
        (system.core.cursors claim.request.side).head = offer.head) :
      Effect system (.advance actor refused)
        ((system.granted actor claim.request.exclusive offer claim.request.side).setCall actor
          none)
        (some (.claimed ⟨.granted offer,
          if claim.request.exclusive then claim.attempts else claim.attempts + 1⟩))
  | claimOutrun (actor : Fin actors) (refused : Bool) (claim : Claim) (since : SlotTotals)
      (offer : Reservation)
      (within : system.calls actor = some ⟨.claim claim, since⟩)
      (bidding : claim.phase = .bid offer)
      (shared : claim.request.exclusive = false)
      (opposed : (system.core.cursors claim.request.side).head ≠ offer.head ∨ refused = true) :
      Effect system (.advance actor refused)
        (system.setCall actor (some ⟨.claim { claim with
          attempts := claim.attempts + 1
          phase := .seek (system.core.cursors claim.request.side).head }, since⟩)) none
  | publicationReady (actor : Fin actors) (refused : Bool) (grant : Nat)
      (publication : Publication) (since : SlotTotals)
      (within : system.calls actor = some ⟨.publish grant publication, since⟩)
      (checking : publication.phase = .check)
      (due : (system.core.cursors publication.reservation.side).tail =
        publication.reservation.head) :
      Effect system (.advance actor refused)
        (system.setCall actor
          (some ⟨.publish grant { publication with phase := .settle }, since⟩)) none
  | publicationWaits (actor : Fin actors) (refused : Bool) (grant : Nat)
      (publication : Publication) (since : SlotTotals)
      (within : system.calls actor = some ⟨.publish grant publication, since⟩)
      (checking : publication.phase = .check)
      (early : (system.core.cursors publication.reservation.side).tail ≠
        publication.reservation.head) :
      Effect system (.advance actor refused)
        (system.setCall actor
          (some ⟨.publish grant { publication with phase := .pause }, since⟩)) none
  | publicationPauses (actor : Fin actors) (refused : Bool) (grant : Nat)
      (publication : Publication) (since : SlotTotals)
      (within : system.calls actor = some ⟨.publish grant publication, since⟩)
      (pausing : publication.phase = .pause) :
      Effect system (.advance actor refused)
        (system.setCall actor (some ⟨.publish grant
          ⟨publication.reservation, publication.spins + 1, .check⟩, since⟩)) none
  | publicationSettles (actor : Fin actors) (refused : Bool) (grant : Nat)
      (publication : Publication) (since : SlotTotals)
      (within : system.calls actor = some ⟨.publish grant publication, since⟩)
      (settling : publication.phase = .settle) :
      Effect system (.advance actor refused)
        ((system.published grant publication.reservation).setCall actor none)
        (some (.published publication.spins))
  | censusLooks (actor : Fin actors) (refused : Bool) (since : SlotTotals)
      (within : system.calls actor = some ⟨.census .start, since⟩) :
      Effect system (.advance actor refused)
        (system.setCall actor (some ⟨.census (.seen system.core.consumer.tail), since⟩)) none
  | censusCounts (actor : Fin actors) (refused : Bool) (tail : Cursor) (since : SlotTotals)
      (within : system.calls actor = some ⟨.census (.seen tail), since⟩) :
      Effect system (.advance actor refused) (system.setCall actor none)
        (some (.counted (min (system.core.producer.tail - tail) system.core.capacity.mask)))
  | writes (actor : Fin actors) (grant offset : Nat) (value : α) (granted : Grant α)
      (found : system.grants[grant]? = some granted) :
      Effect system (.write actor grant offset value)
        (system.accessed (system.core.write (granted.cursor offset) value) grant granted offset
          value) none
  | reads (actor : Fin actors) (grant offset : Nat) (granted : Grant α)
      (found : system.grants[grant]? = some granted) :
      Effect system (.read actor grant offset)
        (system.accessed system.core grant granted offset
          (system.core.read (granted.cursor offset)))
        (some (.value (system.core.read (granted.cursor offset))))

theorem effect_of_claim_step (system : RingSystem actors α) (actor : Fin actors)
    (refused : Bool) (claim : Claim) (since : SlotTotals)
    (within : system.calls actor = some ⟨.claim claim, since⟩) :
    Effect system (.advance actor refused) (system.next (.advance actor refused)).1
      (system.next (.advance actor refused)).2 := by
  cases phase : claim.phase with
  | seek head =>
      cases offered : system.core.offer claim.request head with
      | short available =>
          have effect := Effect.claimShort actor refused claim since head available within phase
            offered
          simpa [next, within, Claim.step, phase, offered, settle, recordClaim] using effect
      | granted offer =>
          have effect := Effect.claimOffered actor refused claim since head offer within phase
            offered
          simpa [next, within, Claim.step, phase, offered, settle] using effect
  | bid offer =>
      cases exclusive : claim.request.exclusive with
      | true =>
          have effect := Effect.claimGranted actor refused claim since offer within phase
            (Or.inl exclusive)
          simpa [next, within, Claim.step, phase, exclusive, settle, recordClaim, granted,
            setCall] using effect
      | false =>
          by_cases won : (system.core.cursors claim.request.side).head = offer.head ∧
              refused = false
          · have effect := Effect.claimGranted actor refused claim since offer within phase
              (Or.inr won.1)
            simpa [next, within, Claim.step, phase, exclusive, won.1, won.2, settle, recordClaim,
              granted, setCall] using effect
          · have opposed : (system.core.cursors claim.request.side).head ≠ offer.head ∨
                refused = true := by
              by_cases same : (system.core.cursors claim.request.side).head = offer.head
              · exact Or.inr (by simpa [same] using won)
              · exact Or.inl same
            have effect := Effect.claimOutrun actor refused claim since offer within phase
              exclusive opposed
            simpa only [next, within, Claim.step, phase, exclusive, if_neg won, settle,
              Bool.false_eq_true, if_false] using effect

theorem effect_of_publication_step (system : RingSystem actors α) (actor : Fin actors)
    (refused : Bool) (grant : Nat) (publication : Publication) (since : SlotTotals)
    (within : system.calls actor = some ⟨.publish grant publication, since⟩) :
    Effect system (.advance actor refused) (system.next (.advance actor refused)).1
      (system.next (.advance actor refused)).2 := by
  cases phase : publication.phase with
  | check =>
      by_cases due : (system.core.cursors publication.reservation.side).tail =
          publication.reservation.head
      · have effect := Effect.publicationReady actor refused grant publication since within phase
          due
        simpa [next, within, Publication.step, phase, due, settle] using effect
      · have effect := Effect.publicationWaits actor refused grant publication since within phase
          due
        simpa [next, within, Publication.step, phase, due, settle] using effect
  | pause =>
      have effect := Effect.publicationPauses actor refused grant publication since within phase
      simpa [next, within, Publication.step, phase, settle] using effect
  | settle =>
      have effect := Effect.publicationSettles actor refused grant publication since within phase
      simpa [next, within, Publication.step, phase, settle, recordPublication, published,
        setCall] using effect

theorem effect_of_next (system : RingSystem actors α) (move : RingMove actors α) :
    Effect system move (system.next move).1 (system.next move).2 := by
  cases move with
  | claim actor request =>
      cases free : system.calls actor with
      | some active => simpa [next, enter, free] using Effect.stay _
      | none => simpa [next, enter, free] using Effect.claimStarts actor request free
  | publish actor grant exclusive =>
      cases found : system.grants[grant]? with
      | none => simpa [next, found] using Effect.stay _
      | some granted =>
          cases free : system.calls actor with
          | some active => simpa [next, found, enter, free] using Effect.stay _
          | none =>
              simpa [next, found, enter, free] using
                Effect.publicationStarts actor grant exclusive granted free found
  | census actor =>
      cases free : system.calls actor with
      | some active => simpa [next, enter, free] using Effect.stay _
      | none => simpa [next, enter, free] using Effect.censusStarts actor free
  | advance actor refused =>
      cases within : system.calls actor with
      | none => simpa [next, within] using Effect.stay _
      | some active =>
          obtain ⟨call, since⟩ := active
          cases call with
          | claim claim => exact effect_of_claim_step system actor refused claim since within
          | publish grant publication =>
              exact effect_of_publication_step system actor refused grant publication since
                within
          | census census =>
              cases census with
              | start =>
                  simpa [next, within, Census.step, settle] using
                    Effect.censusLooks actor refused since within
              | seen tail =>
                  simpa [next, within, Census.step, settle] using
                    Effect.censusCounts actor refused tail since within
  | write actor grant offset value =>
      cases found : system.grants[grant]? with
      | none => simpa [next, found] using Effect.stay _
      | some granted =>
          simpa [next, found, accessed] using Effect.writes actor grant offset value granted found
  | read actor grant offset =>
      cases found : system.grants[grant]? with
      | none => simpa [next, found] using Effect.stay _
      | some granted =>
          simpa [next, found, accessed] using Effect.reads actor grant offset granted found

/-! ## Runs -/

theorem capacity_next (system : RingSystem actors α) (move : RingMove actors α) :
    (system.next move).1.core.capacity = system.core.capacity := by
  have effect := system.effect_of_next move
  generalize (system.next move).1 = after at effect ⊢
  generalize (system.next move).2 = event at effect
  cases effect with
  | claimGranted => exact Core.setHead_capacity _ _ _
  | publicationSettles => exact Core.setTail_capacity _ _ _
  | stay | claimStarts | publicationStarts | censusStarts | claimShort | claimOffered
  | claimOutrun | publicationReady | publicationWaits | publicationPauses | censusLooks
  | censusCounts | writes | reads => rfl

theorem capacity_run (system : RingSystem actors α) (moves : List (RingMove actors α)) :
    (system.run moves).1.core.capacity = system.core.capacity := by
  induction moves generalizing system with
  | nil => rfl
  | cons move moves inductionHypothesis =>
      exact (inductionHypothesis (system.next move).1).trans (capacity_next system move)

theorem Keeps.imp {rule weaker : RingSystem actors α → RingMove actors α → Prop}
    (follows : ∀ system move, rule system move → weaker system move)
    {system : RingSystem actors α} {moves : List (RingMove actors α)}
    (kept : system.Keeps rule moves) : system.Keeps weaker moves := by
  induction moves generalizing system with
  | nil => trivial
  | cons move moves inductionHypothesis =>
      exact ⟨follows system move kept.1, inductionHypothesis kept.2⟩

theorem Disciplined.orderly {system : RingSystem actors α} {moves : List (RingMove actors α)}
    (disciplined : system.Disciplined moves) : system.Orderly moves :=
  Keeps.imp (fun _ _ permitted => permitted.1) disciplined

end RingSystem

end RingPool

import RingPool.Proofs.Ring.Alike
import RingPool.Proofs.Ring.Coherence

/-!
# The exclusive path against the shared one

A `Passage` is the way of one actor through its side, from the start of a claim to the end of its
publication, with what others do at each point on it.  On the exclusive path the head and the tail
are stored at once.  On the shared path the head is moved by a compare-exchange, which may be
refused, and the tail is loaded first.

If the actor is alone on its side, nothing tells the two paths apart but the number of
compare-exchanges (`exclusive_path_agrees`).  The two runs are followed side by side (`Stands`):
the cursors of the side move with the actor only, so the compare-exchange finds the head that the
claim goes by, and the publication finds the tail where its range begins.
-/

set_option autoImplicit false

namespace RingPool

variable {actors : Nat} {α : Type} {origin : Cursor}

def OtherMove (α : Type) (actor : Fin actors) : Type :=
  { move : RingMove actors α // move.mover ≠ actor }

/-- A move while an actor holds a grant: an access to one of its slots, or a move of another. -/
inductive HoldingMove (α : Type) (actor : Fin actors) where
  | access (offset : Nat) (value : α)
  | other (move : OtherMove α actor)

/-- A claim, the accesses to what it is granted and the publication, with the moves of others at
each point. -/
structure Passage (actors : Nat) (α : Type) where
  actor : Fin actors
  side : Side
  count : UInt32
  allowPartial : Bool
  beforeLoad : List (OtherMove α actor)
  beforeGrant : List (OtherMove α actor)
  holding : List (HoldingMove α actor)
  beforeCheck : List (OtherMove α actor)
  beforeStore : List (OtherMove α actor)

def Verdict.exchanges (refusals : Nat) : Verdict → Nat
  | .granted _ => refusals + 1
  | .short _ => 0

/-- A claim that falls short is the last that is observed of a passage.  After a grant the last is
the publication, without a pause. -/
def Verdict.Closes (actor : Fin actors) (later : List (Fin actors × RingEvent α)) :
    Verdict → Prop
  | .short _ => later = []
  | .granted _ => ∃ moved, later = moved ++ [(actor, .published 0)]

def HoldingMove.move {actor : Fin actors} (side : Side) (grant : Nat) :
    HoldingMove α actor → RingMove actors α
  | .access offset value =>
      match side with
      | .producer => .write actor grant offset value
      | .consumer => .read actor grant offset
  | .other move => move.val

namespace Passage

def request (passage : Passage actors α) (exclusive : Bool) : Request :=
  ⟨passage.side, passage.count, passage.allowPartial, exclusive⟩

/-- The claim up to its first offer, or to its end if nothing fits. -/
def claiming (passage : Passage actors α) (exclusive : Bool) : List (RingMove actors α) :=
  .claim passage.actor (passage.request exclusive) ::
    (passage.beforeLoad.map Subtype.val ++ [.advance passage.actor false])

def retries (passage : Passage actors α) : Nat → List (RingMove actors α)
  | 0 => []
  | refusals + 1 =>
      .advance passage.actor true :: .advance passage.actor false :: passage.retries refusals

def granting (passage : Passage actors α) (refusals : Nat) : List (RingMove actors α) :=
  passage.retries refusals ++
    (passage.beforeGrant.map Subtype.val ++ [.advance passage.actor false])

/-- What a shared publication does beside storing the tail. -/
def checking (passage : Passage actors α) (exclusive : Bool) : List (RingMove actors α) :=
  if exclusive then [] else [.advance passage.actor false]

def publishing (passage : Passage actors α) (exclusive : Bool) (grant : Nat) :
    List (RingMove actors α) :=
  passage.holding.map (HoldingMove.move passage.side grant) ++
    (.publish passage.actor grant exclusive ::
      (passage.beforeCheck.map Subtype.val ++ (passage.checking exclusive ++
        (passage.beforeStore.map Subtype.val ++ [.advance passage.actor false]))))

/-- All moves of a passage; it is over with the claim if that falls short. -/
def schedule (passage : Passage actors α) (system : RingSystem actors α) (exclusive : Bool)
    (refusals : Nat) : List (RingMove actors α) :=
  let claimed := (system.run (passage.claiming exclusive)).1
  match claimed.calls passage.actor with
  | none => passage.claiming exclusive
  | some _ =>
      let grant := (claimed.run (passage.beforeGrant.map Subtype.val)).1.grants.length
      passage.claiming exclusive ++
        (passage.granting refusals ++ passage.publishing exclusive grant)

/-- What the two paths have in common: all that is observed, up to the number of
compare-exchanges, and the memory in the end. -/
structure Agrees (passage : Passage actors α) (system : RingSystem actors α) (refusals : Nat)
    (verdict : Verdict) (earlier later : List (Fin actors × RingEvent α)) : Prop where
  exclusive : system.reports (passage.schedule system true 0) =
    earlier ++ (passage.actor, .claimed ⟨verdict, 0⟩) :: later
  shared : system.reports (passage.schedule system false refusals) =
    earlier ++ (passage.actor, .claimed ⟨verdict, verdict.exchanges refusals⟩) :: later
  /-- It is the passage's own claim that is answered so. -/
  foreign : ∀ report ∈ earlier, report.1 ≠ passage.actor
  ends : verdict.Closes passage.actor later
  alike : RingSystem.Alike passage.actor
    (system.run (passage.schedule system true 0)).1
    (system.run (passage.schedule system false refusals)).1
  exclusiveFree : (system.run (passage.schedule system true 0)).1.calls passage.actor = none
  sharedFree : (system.run (passage.schedule system false refusals)).1.calls passage.actor = none

end Passage

theorem RingMove.beside_of_mover {actor : Fin actors} {move : RingMove actors α}
    (other : move.mover ≠ actor) : move.Beside actor := by
  cases move with
  | claim | publish | census | advance => exact other
  | write | read => trivial

theorem HoldingMove.beside {actor : Fin actors} (side : Side) (grant : Nat)
    (move : HoldingMove α actor) : (move.move side grant).Beside actor := by
  cases move with
  | access => cases side <;> trivial
  | other move => exact RingMove.beside_of_mover move.property

/-! ## Single steps of the actor -/

namespace RingSystem

variable {system : RingSystem actors α} {actor : Fin actors} {since : SlotTotals}

theorem next_of_seek {claim : Claim} {head : Cursor}
    (within : system.calls actor = some ⟨.claim claim, since⟩)
    (seeking : claim.phase = .seek head) (refused : Bool) :
    system.next (.advance actor refused) =
      match system.core.offer claim.request head with
      | .short available =>
          (system.setCall actor none, some (.claimed ⟨.short available, claim.attempts⟩))
      | .granted offer =>
          (system.setCall actor (some ⟨.claim { claim with phase := .bid offer }, since⟩),
            none) := by
  simp only [next, within, Claim.step, seeking]
  cases system.core.offer claim.request head <;> rfl

theorem next_of_exclusive_bid {claim : Claim} {offer : Reservation}
    (within : system.calls actor = some ⟨.claim claim, since⟩)
    (bidding : claim.phase = .bid offer) (exclusive : claim.request.exclusive = true)
    (refused : Bool) :
    system.next (.advance actor refused) =
      ((system.granted actor true offer claim.request.side).setCall actor none,
        some (.claimed ⟨.granted offer, claim.attempts⟩)) := by
  simp only [next, within, Claim.step, bidding, exclusive, if_true, settle, recordClaim]
  rfl

theorem next_of_refused_bid {claim : Claim} {offer : Reservation}
    (within : system.calls actor = some ⟨.claim claim, since⟩)
    (bidding : claim.phase = .bid offer) (shared : claim.request.exclusive = false) :
    system.next (.advance actor true) =
      (system.setCall actor (some ⟨.claim { claim with
        attempts := claim.attempts + 1
        phase := .seek (system.core.cursors claim.request.side).head }, since⟩), none) := by
  simp only [next, within, Claim.step, bidding, shared, Bool.false_eq_true, Bool.true_eq_false,
    and_false, if_false, settle]

theorem next_publish_starts {grant : Nat} {granted : Grant α} (free : system.calls actor = none)
    (found : system.grants[grant]? = some granted) (exclusive : Bool) :
    system.next (.publish actor grant exclusive) =
      (system.setCall actor
        (some ⟨.publish grant (Publication.start granted.reservation exclusive),
          system.totals⟩), none) := by
  simp only [next, found, enter, free]

theorem next_of_due_check {grant : Nat} {reservation : Reservation} {spins : Nat}
    (within : system.calls actor = some ⟨.publish grant ⟨reservation, spins, .check⟩, since⟩)
    (due : (system.core.cursors reservation.side).tail = reservation.head) (refused : Bool) :
    system.next (.advance actor refused) =
      (system.setCall actor (some ⟨.publish grant ⟨reservation, spins, .settle⟩, since⟩),
        none) := by
  simp only [next, within, Publication.step, due, if_true, settle]

theorem next_of_settle {grant : Nat} {reservation : Reservation} {spins : Nat}
    (within : system.calls actor = some ⟨.publish grant ⟨reservation, spins, .settle⟩, since⟩)
    (refused : Bool) :
    system.next (.advance actor refused) =
      ((system.published grant reservation).setCall actor none, some (.published spins)) := by
  simp only [next, within, Publication.step, settle, recordPublication]
  rfl

end RingSystem

/-! ## The two runs side by side -/

namespace Passage

variable {passage : Passage actors α} {system first second : RingSystem actors α}
  {cursors : Cursors} {call otherCall : Option ActiveCall} {offer : Reservation}
  {since : SlotTotals}

/-- Both runs have come to the same point of a passage.  Others cannot tell them apart, and its
actor is within these calls. -/
structure Stands (passage : Passage actors α) (cursors : Cursors)
    (first second : RingSystem actors α) (call otherCall : Option ActiveCall) : Prop where
  abreast : RingSystem.Abreast passage.side passage.actor cursors first second
  call : first.calls passage.actor = call
  otherCall : second.calls passage.actor = otherCall

namespace Stands

theorem head (stands : passage.Stands cursors first second call otherCall) :
    (first.core.cursors passage.side).head = cursors.head ∧
      (second.core.cursors passage.side).head = cursors.head := by
  rw [stands.abreast.alike.core, stands.abreast.cursors]
  exact ⟨rfl, rfl⟩

theorem turn (stands : passage.Stands cursors first second call otherCall)
    (next otherNext : Option ActiveCall) :
    passage.Stands cursors (first.setCall passage.actor next)
      (second.setCall passage.actor otherNext) next otherNext where
  abreast := ⟨stands.abreast.alike.setCalls next otherNext, stands.abreast.apart.setCall_self next,
    stands.abreast.cursors⟩
  call := RingSystem.setCall_calls_self _ _ _
  otherCall := RingSystem.setCall_calls_self _ _ _

theorem turn_right (stands : passage.Stands cursors first second call otherCall)
    (next : Option ActiveCall) :
    passage.Stands cursors first (second.setCall passage.actor next) call next where
  abreast := ⟨stands.abreast.alike.setCall_right next, stands.abreast.apart,
    stands.abreast.cursors⟩
  call := stands.call
  otherCall := RingSystem.setCall_calls_self _ _ _

theorem beside (stands : passage.Stands cursors first second call otherCall)
    {moves : List (RingMove actors α)} (beside : ∀ move ∈ moves, move.Beside passage.actor)
    (leaves : first.Keeps (RingSystem.LeavesSide passage.side passage.actor) moves) :
    ∃ firstLater secondLater, first.Leads moves firstLater (first.reports moves) ∧
      second.Leads moves secondLater (first.reports moves) ∧
      passage.Stands cursors firstLater secondLater call otherCall := by
  obtain ⟨abreast, observed⟩ := stands.abreast.run beside leaves
  refine ⟨_, _, ⟨rfl, rfl⟩, ⟨rfl, observed⟩, abreast, ?_, ?_⟩
  · rw [RingSystem.calls_run_beside beside, stands.call]
  · rw [RingSystem.calls_run_beside beside, stands.otherCall]

theorem others (stands : passage.Stands cursors first second call otherCall)
    (others : List (OtherMove α passage.actor)) {rest : List (RingMove actors α)}
    (leaves : first.Keeps (RingSystem.LeavesSide passage.side passage.actor)
      (others.map Subtype.val ++ rest)) :
    ∃ firstLater secondLater observed, (∀ report ∈ observed, report.1 ≠ passage.actor) ∧
      first.Leads (others.map Subtype.val) firstLater observed ∧
      second.Leads (others.map Subtype.val) secondLater observed ∧
      passage.Stands cursors firstLater secondLater call otherCall := by
  have foreign : ∀ move ∈ others.map Subtype.val, move.mover ≠ passage.actor := by
    intro move member
    obtain ⟨other, -, rfl⟩ := List.mem_map.mp member
    exact other.property
  obtain ⟨firstLater, secondLater, leads, otherLeads, stands⟩ :=
    stands.beside (fun move member => RingMove.beside_of_mover (foreign move member))
      ((RingSystem.keeps_append _).mp leaves).1
  exact ⟨firstLater, secondLater, _, RingSystem.reports_foreign foreign, leads, otherLeads, stands⟩

theorem looks {head : Cursor} (stands : passage.Stands cursors first second
      (some ⟨.claim ⟨passage.request true, 0, .seek head⟩, since⟩)
      (some ⟨.claim ⟨passage.request false, 0, .seek head⟩, since⟩)) :
    (∃ available,
      first.Leads [.advance passage.actor false] (first.setCall passage.actor none)
        [(passage.actor, .claimed ⟨.short available, 0⟩)] ∧
      second.Leads [.advance passage.actor false] (second.setCall passage.actor none)
        [(passage.actor, .claimed ⟨.short available, 0⟩)]) ∨
    (∃ offer, first.core.offer (passage.request true) head = .granted offer ∧
      first.Leads [.advance passage.actor false] (first.setCall passage.actor
        (some ⟨.claim ⟨passage.request true, 0, .bid offer⟩, since⟩)) [] ∧
      second.Leads [.advance passage.actor false] (second.setCall passage.actor
        (some ⟨.claim ⟨passage.request false, 0, .bid offer⟩, since⟩)) []) := by
  have finds := RingSystem.next_of_seek stands.call rfl false
  have otherFinds := RingSystem.next_of_seek stands.otherCall rfl false
  -- An offer does not depend on the kind of the claim.
  have sameOffer : second.core.offer (passage.request false) head =
      first.core.offer (passage.request true) head := by
    rw [stands.abreast.alike.core]
    rfl
  dsimp only at finds otherFinds
  rw [sameOffer] at otherFinds
  cases offered : first.core.offer (passage.request true) head with
  | short available =>
      rw [offered] at finds otherFinds
      exact Or.inl ⟨available, .of_next finds, .of_next otherFinds⟩
  | granted offer =>
      rw [offered] at finds otherFinds
      exact Or.inr ⟨offer, rfl, .of_next finds, .of_next otherFinds⟩

theorem granted (stands : passage.Stands cursors first second call otherCall)
    (kind otherKind : Bool) (offer : Reservation) :
    passage.Stands ⟨offer.next, cursors.tail⟩
      ((first.granted passage.actor kind offer passage.side).setCall passage.actor none)
      ((second.granted passage.actor otherKind offer passage.side).setCall passage.actor none)
      none none := by
  have moved : passage.Stands ⟨offer.next, cursors.tail⟩
      (first.granted passage.actor kind offer passage.side)
      (second.granted passage.actor otherKind offer passage.side) call otherCall := by
    refine ⟨⟨stands.abreast.alike.granted _ _ _ _ _, stands.abreast.apart, ?_⟩, stands.call,
      stands.otherCall⟩
    rw [← stands.abreast.cursors]
    exact Core.cursors_setHead_self _ _ _
  exact moved.turn none none

theorem published (stands : passage.Stands cursors first second call otherCall) (grant : Nat)
    {reservation : Reservation} (side : reservation.side = passage.side) :
    passage.Stands ⟨cursors.head, reservation.next⟩
      ((first.published grant reservation).setCall passage.actor none)
      ((second.published grant reservation).setCall passage.actor none) none none := by
  have moved : passage.Stands ⟨cursors.head, reservation.next⟩
      (first.published grant reservation) (second.published grant reservation) call otherCall := by
    refine ⟨⟨stands.abreast.alike.published _ _, stands.abreast.apart, ?_⟩, stands.call,
      stands.otherCall⟩
    rw [← stands.abreast.cursors, RingSystem.published, side]
    exact Core.cursors_setTail_self _ _ _
  exact moved.turn none none

/-- A compare-exchange that is refused costs a turn and nothing else. -/
theorem retries {attempts : Nat}
    (stands : passage.Stands cursors first second call
      (some ⟨.claim ⟨passage.request false, attempts, .bid offer⟩, since⟩))
    (atHead : cursors.head = offer.head)
    (offered : first.core.offer (passage.request false) offer.head = .granted offer)
    (refusals : Nat) :
    ∃ later, second.Leads (passage.retries refusals) later [] ∧
      passage.Stands cursors first later call
        (some ⟨.claim ⟨passage.request false, attempts + refusals, .bid offer⟩, since⟩) := by
  induction refusals generalizing second attempts with
  | zero => exact ⟨second, RingSystem.Leads.refl second, stands⟩
  | succ refusals inductionHypothesis =>
      have refused := RingSystem.next_of_refused_bid stands.otherCall rfl rfl
      have head : (second.core.cursors (passage.request false).side).head = offer.head :=
        stands.head.2.trans atHead
      dsimp only at refused
      rw [head] at refused
      have seeks := stands.turn_right
        (some ⟨.claim ⟨passage.request false, attempts + 1, .seek offer.head⟩, since⟩)
      have looks := RingSystem.next_of_seek seeks.otherCall rfl false
      dsimp only at looks
      rw [seeks.abreast.alike.core, offered] at looks
      have bids := seeks.turn_right
        (some ⟨.claim ⟨passage.request false, attempts + 1, .bid offer⟩, since⟩)
      obtain ⟨later, leads, stands⟩ := inductionHypothesis bids
      refine ⟨later, ?_, ?_⟩
      · exact (RingSystem.Leads.of_next refused).trans
          ((RingSystem.Leads.of_next looks).trans leads)
      · rw [Nat.add_right_comm, Nat.add_assoc] at stands
        exact stands

end Stands

theorem claims (passage : Passage actors α) (free : system.calls passage.actor = none)
    (apart : system.Apart passage.side passage.actor)
    (leaves : system.Keeps (RingSystem.LeavesSide passage.side passage.actor)
      (passage.claiming true)) :
    ∃ first second earlier, (∀ report ∈ earlier, report.1 ≠ passage.actor) ∧
      ((∃ available,
        system.Leads (passage.claiming true) first
          (earlier ++ [(passage.actor, .claimed ⟨.short available, 0⟩)]) ∧
        system.Leads (passage.claiming false) second
          (earlier ++ [(passage.actor, .claimed ⟨.short available, 0⟩)]) ∧
        passage.Stands (system.core.cursors passage.side) first second none none) ∨
      (∃ offer, first.core.offer (passage.request true) offer.head = .granted offer ∧
        offer.head = (system.core.cursors passage.side).head ∧
        system.Leads (passage.claiming true) first earlier ∧
        system.Leads (passage.claiming false) second earlier ∧
        passage.Stands (system.core.cursors passage.side) first second
          (some ⟨.claim ⟨passage.request true, 0, .bid offer⟩, system.totals⟩)
          (some ⟨.claim ⟨passage.request false, 0, .bid offer⟩, system.totals⟩))) := by
  have here : passage.Stands (system.core.cursors passage.side) system system none none :=
    ⟨⟨RingSystem.Alike.refl _ _, apart, rfl⟩, free, free⟩
  have begins (exclusive : Bool) :
      system.next (.claim passage.actor (passage.request exclusive)) =
        (system.setCall passage.actor
          (some ⟨.claim (Claim.start system.core (passage.request exclusive)), system.totals⟩),
          none) :=
    Prod.ext (RingSystem.next_claim_starts free _) rfl
  have started := here.turn
    (some ⟨.claim (Claim.start system.core (passage.request true)), system.totals⟩)
    (some ⟨.claim (Claim.start system.core (passage.request false)), system.totals⟩)
  have begun (exclusive : Bool) := RingSystem.Leads.of_next (begins exclusive)
  obtain ⟨first, second, observed, foreign, waits, otherWaits, seeks⟩ :=
    started.others passage.beforeLoad ((begun true).keeps leaves)
  rcases seeks.looks with ⟨available, falls, otherFalls⟩ | ⟨offer, offered, bids, otherBids⟩
  · exact ⟨_, _, observed, foreign, Or.inl ⟨available, (begun true).trans (waits.trans falls),
      (begun false).trans (otherWaits.trans otherFalls), seeks.turn none none⟩⟩
  · have atHead := Core.offer_head offered
    rw [← atHead] at offered
    refine ⟨first.setCall passage.actor _, second.setCall passage.actor _, observed, foreign,
      Or.inr ⟨offer, offered, atHead, ?_, ?_, seeks.turn _ _⟩⟩
    · have leads := (begun true).trans (waits.trans bids)
      rwa [List.append_nil] at leads
    · have leads := (begun false).trans (otherWaits.trans otherBids)
      rwa [List.append_nil] at leads

theorem leaves_waiting {rest : List (RingMove actors α)}
    (leaves : first.Keeps (RingSystem.LeavesSide passage.side passage.actor)
      (passage.granting 0 ++ rest)) :
    first.Keeps (RingSystem.LeavesSide passage.side passage.actor)
      (passage.beforeGrant.map Subtype.val ++ ([.advance passage.actor false] ++ rest)) := by
  rw [granting, List.append_assoc, List.append_assoc] at leaves
  exact leaves

theorem grant_number (stands : passage.Stands cursors first second call otherCall)
    {rest : List (RingMove actors α)}
    (leaves : first.Keeps (RingSystem.LeavesSide passage.side passage.actor)
      (passage.granting 0 ++ rest)) :
    (second.run (passage.beforeGrant.map Subtype.val)).1.grants.length =
      (first.run (passage.beforeGrant.map Subtype.val)).1.grants.length := by
  obtain ⟨middle, otherMiddle, _, -, waits, otherWaits, stands⟩ :=
    stands.others passage.beforeGrant (leaves_waiting leaves)
  rw [waits.final, otherWaits.final]
  exact stands.abreast.alike.grantsLength

theorem grants (stands : passage.Stands cursors first second
      (some ⟨.claim ⟨passage.request true, 0, .bid offer⟩, since⟩)
      (some ⟨.claim ⟨passage.request false, 0, .bid offer⟩, since⟩))
    (offered : first.core.offer (passage.request true) offer.head = .granted offer)
    (atHead : offer.head = cursors.head) {rest : List (RingMove actors α)}
    (leaves : first.Keeps (RingSystem.LeavesSide passage.side passage.actor)
      (passage.granting 0 ++ rest)) (refusals : Nat) :
    let grant := (first.run (passage.beforeGrant.map Subtype.val)).1.grants.length
    ∃ firstLater secondLater observed, (∀ report ∈ observed, report.1 ≠ passage.actor) ∧
      first.Leads (passage.granting 0) firstLater
        (observed ++ [(passage.actor, .claimed ⟨.granted offer, 0⟩)]) ∧
      second.Leads (passage.granting refusals) secondLater
        (observed ++ [(passage.actor, .claimed ⟨.granted offer, refusals + 1⟩)]) ∧
      passage.Stands ⟨offer.next, cursors.tail⟩ firstLater secondLater none none ∧
      (firstLater.grants[grant]?).map Grant.reservation = some offer ∧
      (secondLater.grants[grant]?).map Grant.reservation = some offer := by
  intro grant
  -- Refusals leave the bid as it was; then others act, and the head is still the one it goes by.
  obtain ⟨retried, retries, bids⟩ := stands.retries atHead.symm offered refusals
  rw [Nat.zero_add] at bids
  obtain ⟨middle, otherMiddle, observed, foreign, waits, otherWaits, stillBids⟩ :=
    bids.others passage.beforeGrant (leaves_waiting leaves)
  have length : middle.grants.length = grant := by rw [← waits.final]
  have otherLength : otherMiddle.grants.length = grant := by
    rw [stillBids.abreast.alike.grantsLength, length]
  have stores := RingSystem.next_of_exclusive_bid stillBids.call rfl rfl false
  have found : (otherMiddle.core.cursors passage.side).head = offer.head :=
    stillBids.head.2.trans atHead.symm
  have wins := RingSystem.next_advance_wins stillBids.otherCall rfl rfl found
  refine ⟨_, _, observed, foreign, waits.trans (.of_next stores),
    retries.trans (otherWaits.trans (.of_next wins)), stillBids.granted _ _ offer, ?_, ?_⟩
  · rw [RingSystem.setCall_grants, ← length]
    simp [RingSystem.granted]
  · rw [RingSystem.setCall_grants, ← otherLength]
    simp [RingSystem.granted]

theorem start_publication (free : system.calls passage.actor = none) {grant : Nat}
    {reservation : Reservation}
    (held : (system.grants[grant]?).map Grant.reservation = some reservation)
    (exclusive : Bool) :
    system.Leads [.publish passage.actor grant exclusive]
      (system.setCall passage.actor
        (some ⟨.publish grant (Publication.start reservation exclusive), system.totals⟩)) [] := by
  obtain ⟨granted, found, rfl⟩ := Option.map_eq_some_iff.mp held
  exact .of_next (RingSystem.next_publish_starts free found exclusive)

/-- A publication whose range begins at the tail pauses on neither path. -/
theorem publishes (stands : passage.Stands cursors first second none none)
    {reservation : Reservation} (side : reservation.side = passage.side)
    (due : cursors.tail = reservation.head) {grant : Nat}
    (held : (first.grants[grant]?).map Grant.reservation = some reservation)
    (otherHeld : (second.grants[grant]?).map Grant.reservation = some reservation)
    (leaves : first.Keeps (RingSystem.LeavesSide passage.side passage.actor)
      (passage.publishing true grant)) :
    ∃ firstLater secondLater moved,
      first.Leads (passage.publishing true grant) firstLater
        (moved ++ [(passage.actor, .published 0)]) ∧
      second.Leads (passage.publishing false grant) secondLater
        (moved ++ [(passage.actor, .published 0)]) ∧
      passage.Stands ⟨cursors.head, reservation.next⟩ firstLater secondLater none none := by
  have besides : ∀ move ∈ passage.holding.map (HoldingMove.move passage.side grant),
      move.Beside passage.actor := by
    intro move member
    obtain ⟨holding, -, rfl⟩ := List.mem_map.mp member
    exact holding.beside _ _
  obtain ⟨leavesHolding, -⟩ := (RingSystem.keeps_append _).mp leaves
  obtain ⟨afterMoves, otherAfterMoves, moves, otherMoves, moved⟩ :=
    stands.beside besides leavesHolding
  have stillHeld := RingSystem.reservation_run held
    (passage.holding.map (HoldingMove.move passage.side grant))
  have otherStillHeld := RingSystem.reservation_run otherHeld
    (passage.holding.map (HoldingMove.move passage.side grant))
  rw [moves.final] at stillHeld
  rw [otherMoves.final] at otherStillHeld
  have begins := start_publication moved.call stillHeld true
  have otherBegins := start_publication moved.otherCall otherStillHeld false
  have began := moved.turn
    (some ⟨.publish grant (Publication.start reservation true), afterMoves.totals⟩)
    (some ⟨.publish grant (Publication.start reservation false), otherAfterMoves.totals⟩)
  have leavesChecking := (moves.trans begins).keeps (by
    rw [List.append_assoc]
    exact leaves)
  obtain ⟨checked, otherChecked, checks, -, waits, otherWaits, checking⟩ :=
    began.others passage.beforeCheck leavesChecking
  -- The tail is where the range begins, so the check of the shared path goes through at once.
  have found : (otherChecked.core.cursors reservation.side).tail = reservation.head := by
    rw [side, checking.abreast.alike.core, checking.abreast.cursors, due]
  have ready := RingSystem.next_of_due_check checking.otherCall found false
  have settling := checking.turn_right
    (some ⟨.publish grant ⟨reservation, 0, .settle⟩, otherAfterMoves.totals⟩)
  obtain ⟨settled, otherSettled, last, -, waitsOn, otherWaitsOn, settles⟩ :=
    settling.others passage.beforeStore (waits.keeps leavesChecking)
  have stores := RingSystem.next_of_settle settles.call false
  have otherStores := RingSystem.next_of_settle settles.otherCall false
  refine ⟨_, _, first.reports (passage.holding.map (HoldingMove.move passage.side grant)) ++
    (checks ++ last), ?_, ?_, settles.published grant side⟩
  · rw [List.append_assoc, List.append_assoc]
    exact moves.trans (begins.trans (waits.trans (waitsOn.trans (.of_next stores))))
  · rw [List.append_assoc, List.append_assoc]
    exact otherMoves.trans (otherBegins.trans (otherWaits.trans
      ((RingSystem.Leads.of_next ready).trans (otherWaitsOn.trans (.of_next otherStores)))))

/-! ## The whole passage -/

theorem schedule_of_short {exclusive : Bool} {claimed : RingSystem actors α}
    {observed : List (Fin actors × RingEvent α)}
    (leads : system.Leads (passage.claiming exclusive) claimed observed)
    (ended : claimed.calls passage.actor = none) (refusals : Nat) :
    passage.schedule system exclusive refusals = passage.claiming exclusive := by
  rw [schedule, leads.final]
  simp only [ended]

theorem schedule_of_offer {exclusive : Bool} {claimed : RingSystem actors α}
    {observed : List (Fin actors × RingEvent α)}
    (leads : system.Leads (passage.claiming exclusive) claimed observed) {active : ActiveCall}
    (goesOn : claimed.calls passage.actor = some active) (refusals : Nat) :
    passage.schedule system exclusive refusals = passage.claiming exclusive ++
      (passage.granting refusals ++ passage.publishing exclusive
        (claimed.run (passage.beforeGrant.map Subtype.val)).1.grants.length) := by
  rw [schedule, leads.final]
  simp only [goesOn]

theorem schedule_begins (passage : Passage actors α) (system : RingSystem actors α)
    (exclusive : Bool) (refusals : Nat) :
    ∃ rest, passage.schedule system exclusive refusals = passage.claiming exclusive ++ rest := by
  rw [schedule]
  cases (system.run (passage.claiming exclusive)).1.calls passage.actor with
  | none => exact ⟨[], (List.append_nil _).symm⟩
  | some active => exact ⟨_, rfl⟩

theorem Agrees.of_leads {refusals : Nat} {verdict : Verdict}
    {earlier later : List (Fin actors × RingEvent α)}
    (leads : system.Leads (passage.schedule system true 0) first
      (earlier ++ (passage.actor, .claimed ⟨verdict, 0⟩) :: later))
    (otherLeads : system.Leads (passage.schedule system false refusals) second
      (earlier ++ (passage.actor, .claimed ⟨verdict, verdict.exchanges refusals⟩) :: later))
    (foreign : ∀ report ∈ earlier, report.1 ≠ passage.actor)
    (ends : verdict.Closes passage.actor later)
    (stands : passage.Stands cursors first second none none) :
    passage.Agrees system refusals verdict earlier later where
  exclusive := leads.observed
  shared := otherLeads.observed
  foreign := foreign
  ends := ends
  alike := by
    rw [leads.final, otherLeads.final]
    exact stands.abreast.alike
  exclusiveFree := by rw [leads.final, stands.call]
  sharedFree := by rw [otherLeads.final, stands.otherCall]

/-- The two paths agree if the actor is alone on a side on which nothing waits. -/
theorem agrees (passage : Passage actors α) (free : system.calls passage.actor = none)
    (apart : system.Apart passage.side passage.actor)
    (settled : (system.core.cursors passage.side).tail = (system.core.cursors passage.side).head)
    (leaves : system.Keeps (RingSystem.LeavesSide passage.side passage.actor)
      (passage.schedule system true 0)) (refusals : Nat) :
    ∃ verdict earlier later, passage.Agrees system refusals verdict earlier later := by
  obtain ⟨rest, begins⟩ := passage.schedule_begins system true 0
  have leavesClaiming := leaves
  rw [begins] at leavesClaiming
  obtain ⟨first, second, earlier, foreign, ⟨available, falls, otherFalls, stands⟩ |
      ⟨offer, offered, atHead, bids, otherBids, stands⟩⟩ :=
    passage.claims free apart ((RingSystem.keeps_append _).mp leavesClaiming).1
  case inl =>
    have schedule := schedule_of_short falls stands.call 0
    have otherSchedule := schedule_of_short otherFalls stands.otherCall refusals
    rw [← schedule] at falls
    rw [← otherSchedule] at otherFalls
    exact ⟨.short available, earlier, [], .of_leads falls otherFalls foreign rfl stands⟩
  case inr =>
    have schedule := schedule_of_offer bids stands.call 0
    have otherSchedule := schedule_of_offer otherBids stands.otherCall refusals
    rw [schedule] at leaves
    have leavesLater := bids.keeps leaves
    obtain ⟨holder, otherHolder, waited, alsoForeign, wins, otherWins, holds, held, otherHeld⟩ :=
      grants stands offered atHead leavesLater refusals
    have side : offer.side = passage.side := (Core.offer_granted offered).1
    obtain ⟨last, otherLast, moved, passes, otherPasses, ends⟩ :=
      publishes holds side (settled.trans atHead.symm) held otherHeld (wins.keeps leavesLater)
    rw [grant_number stands leavesLater] at otherSchedule
    have leads := bids.trans (wins.trans passes)
    have otherLeads := otherBids.trans (otherWins.trans otherPasses)
    rw [← schedule] at leads
    rw [← otherSchedule] at otherLeads
    refine ⟨.granted offer, earlier ++ waited, moved ++ [(passage.actor, .published 0)],
      .of_leads ?_ ?_ ?_ ⟨moved, rfl⟩ ends⟩
    · rw [List.append_assoc] at leads ⊢
      exact leads
    · rw [List.append_assoc] at otherLeads ⊢
      exact otherLeads
    · intro report member
      rcases List.mem_append.mp member with early | late
      · exact foreign report early
      · exact alsoForeign report late

end Passage

/-! ## Sides on which nothing waits -/

theorem Coherent.apart {system : RingSystem actors α} (coherent : Coherent origin system)
    {side : Side} (alone : system.SideIsFree side) (actor : Fin actors) :
    system.Apart side actor := by
  rintro other - ⟨call, since⟩ within same
  cases call with
  | claim bid =>
      have elsewhere := alone.1 other bid.request (mem_claiming.mpr ⟨bid, since, within, rfl⟩)
      exact elsewhere (Option.some.inj same)
  | publish grant publication =>
      obtain ⟨granted, facts⟩ := coherent.publicationFacts within
      have onSide : granted.reservation.side = side := by
        rw [← facts.reservation]
        exact Option.some.inj same
      have settled := alone.2 granted
        (Grant.mem_onSide.mpr ⟨List.mem_of_getElem? facts.found, onSide⟩)
      rw [facts.waiting] at settled
      cases settled
  | census => cases same

theorem Layout.tail_eq_head {core : Core α} {grants : List (Grant α)}
    (layout : Layout origin core grants) {side : Side}
    (settled : ∀ grant ∈ Grant.onSide side grants, grant.published = true) :
    (core.cursors side).tail = (core.cursors side).head := by
  have none : Grant.pendingOn side grants = [] := by
    rw [List.eq_nil_iff_forall_not_mem]
    intro grant member
    obtain ⟨inside, onSide, waiting⟩ := Grant.mem_pendingOn.mp member
    rw [settled grant (Grant.mem_onSide.mpr ⟨inside, onSide⟩)] at waiting
    cases waiting
  have tiles := layout.pendingTiles side
  rw [none] at tiles
  exact tiles

/-- An actor that is alone on a side on which nothing waits passes through it alike by the
exclusive path and by the shared one, whatever it asks for and whatever others do on the other
side meanwhile.  Its claim is answered alike, it moves the same values, everyone else observes the
same, and the memory is the same in the end.  A shared claim that is granted has made one
compare-exchange more than were refused, and its publication has not paused. -/
theorem exclusive_path_agrees (capacity : Capacity) (blank : α) (origin : Cursor)
    (before : List (RingMove actors α))
    (orderly : (RingSystem.start capacity blank origin).Orderly before)
    (windowed : (RingSystem.start capacity blank origin).Windowed before)
    {system : RingSystem actors α}
    (reached : ((RingSystem.start capacity blank origin).run before).1 = system)
    (passage : Passage actors α) (free : system.calls passage.actor = none)
    (alone : system.SideIsFree passage.side)
    (leaves : system.Keeps (RingSystem.LeavesSide passage.side passage.actor)
      (passage.schedule system true 0)) (refusals : Nat) :
    ∃ verdict earlier later, passage.Agrees system refusals verdict earlier later := by
  have coherent := coherent_of_run capacity blank origin before orderly windowed
  rw [reached] at coherent
  exact passage.agrees free (coherent.apart alone passage.actor)
    (coherent.layout.tail_eq_head alone.2) leaves refusals

theorem sampleProducer_ne_sampleConsumer : sampleProducer ≠ sampleConsumer := by decide

def producerSteps : OtherMove Nat sampleConsumer :=
  ⟨.advance sampleProducer false, sampleProducer_ne_sampleConsumer⟩

def samplePassage : Passage 3 Nat where
  actor := sampleConsumer
  side := .consumer
  count := 1
  allowPartial := false
  beforeLoad :=
    [⟨.claim sampleProducer (RingSystem.oneSlot .producer), sampleProducer_ne_sampleConsumer⟩]
  beforeGrant := [producerSteps]
  holding := [.access 0 0, .other producerSteps]
  beforeCheck := [⟨.publish sampleProducer 2 false, sampleProducer_ne_sampleConsumer⟩]
  beforeStore := [producerSteps, producerSteps]

def sampleFilled : RingSystem 3 Nat :=
  (sampleStart.run (RingSystem.passSlot .producer sampleProducer 0 5)).1

theorem exclusive_path_agrees_sample :
    sampleFilled.reports (samplePassage.schedule sampleFilled false 2) =
        [(sampleConsumer, .claimed ⟨.granted ⟨.consumer, 0xFFFFFFFE, 0xFFFFFFFF, 1⟩, 3⟩),
          (sampleConsumer, .value 5),
          (sampleProducer, .claimed ⟨.granted ⟨.producer, 0xFFFFFFFF, 0, 2⟩, 1⟩),
          (sampleProducer, .published 0), (sampleConsumer, .published 0)] ∧
      ∃ verdict earlier later, samplePassage.Agrees sampleFilled 2 verdict earlier later := by
  have orderly : sampleStart.Orderly (RingSystem.passSlot .producer sampleProducer 0 5) := by
    decide +kernel
  have windowed : sampleStart.Windowed (RingSystem.passSlot .producer sampleProducer 0 5) := by
    decide +kernel
  exact ⟨rfl, exclusive_path_agrees sampleCapacity 0 0xFFFFFFFE _ orderly windowed rfl
    samplePassage rfl (by decide +kernel) (by decide +kernel) 2⟩

end RingPool

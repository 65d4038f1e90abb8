import RingPool.Proofs.Ring.Transfers

/-!
# Systems that others cannot tell apart

Two ring systems are `Alike` to everyone but one actor if they differ in that actor's call only,
and in whether claims were exclusive.  A move that is no step of that actor's calls then does the
same in both and is observed alike (`Alike.next`), and so is a run of such moves (`Alike.run`).

`Apart` says that the other actors work on the other side.  As long as they start nothing on this
side, they leave its cursors alone (`Apart.next`).
-/

set_option autoImplicit false

namespace RingPool

open Grant

variable {actors : Nat} {α : Type}

def RingCall.side? : RingCall → Option Side
  | .claim bid => some bid.request.side
  | .publish _ settling => some settling.reservation.side
  | .census _ => none

/-- A move that is no step of the actor's calls: one of another actor, or an access to a slot. -/
def RingMove.Beside (actor : Fin actors) (move : RingMove actors α) : Prop :=
  match move with
  | .write _ _ _ _ | .read _ _ _ => True
  | .claim other _ | .publish other _ _ | .census other | .advance other _ => other ≠ actor

namespace Grant

/-- A grant regardless of the kind of its claim. -/
def plain (grant : Grant α) : Grant α := { grant with exclusive := false }

theorem reservation_of_plain {first second : Grant α} (same : first.plain = second.plain) :
    first.reservation = second.reservation := by
  have reservations := congrArg Grant.reservation same
  exact reservations

theorem reservedOn_plain (side : Side) (grants : List (Grant α)) :
    reservedOn side (grants.map plain) = reservedOn side grants := by
  induction grants with
  | nil => rfl
  | cons grant rest inductionHypothesis =>
      rw [List.map_cons, reservedOn_cons, reservedOn_cons, inductionHypothesis]
      rfl

theorem publishedOn_plain (side : Side) (grants : List (Grant α)) :
    publishedOn side (grants.map plain) = publishedOn side grants := by
  induction grants with
  | nil => rfl
  | cons grant rest inductionHypothesis =>
      rw [List.map_cons, publishedOn_cons, publishedOn_cons, inductionHypothesis]
      rfl

theorem plain_modify_settle (grants : List (Grant α)) (index : Nat) :
    (grants.modify index settle).map plain = (grants.map plain).modify index settle := by
  apply List.ext_getElem?
  intro position
  simp only [List.getElem?_modify, List.getElem?_map]
  cases grants[position]? with
  | none => rfl
  | some grant =>
      by_cases here : index = position
      · simp [here, settle, plain]
      · simp [here]

end Grant

namespace RingSystem

variable {actor : Fin actors}

/-- Two systems that differ in one actor's call, and in the kinds of claims. -/
structure Alike (actor : Fin actors) (first second : RingSystem actors α) : Prop where
  core : second.core = first.core
  calls : ∀ other, other ≠ actor → second.calls other = first.calls other
  grants : second.grants.map plain = first.grants.map plain

namespace Alike

variable {first second : RingSystem actors α}

theorem refl (actor : Fin actors) (system : RingSystem actors α) : Alike actor system system :=
  ⟨rfl, fun _ _ => rfl, rfl⟩

theorem totals (alike : Alike actor first second) : second.totals = first.totals := by
  have reserved (side : Side) : reservedOn side second.grants = reservedOn side first.grants := by
    rw [← reservedOn_plain, alike.grants, reservedOn_plain]
  have published (side : Side) :
      publishedOn side second.grants = publishedOn side first.grants := by
    rw [← publishedOn_plain, alike.grants, publishedOn_plain]
  exact congrArg₂ SlotTotals.mk (funext reserved) (funext published)

theorem grantsLength (alike : Alike actor first second) :
    second.grants.length = first.grants.length := by
  have same := congrArg List.length alike.grants
  rwa [List.length_map, List.length_map] at same

theorem missing (alike : Alike actor first second) {index : Nat}
    (missing : first.grants[index]? = none) : second.grants[index]? = none := by
  rw [List.getElem?_eq_none_iff] at missing ⊢
  rwa [alike.grantsLength]

theorem found (alike : Alike actor first second) {index : Nat} {grant : Grant α}
    (found : first.grants[index]? = some grant) :
    ∃ other, second.grants[index]? = some other ∧ other.plain = grant.plain := by
  have same := congrArg (fun grants : List (Grant α) => grants[index]?) alike.grants
  simp only [List.getElem?_map, found, Option.map_some] at same
  exact Option.map_eq_some_iff.mp same

theorem setCall (alike : Alike actor first second) (other : Fin actors)
    (call : Option ActiveCall) :
    Alike actor (first.setCall other call) (second.setCall other call) where
  core := alike.core
  calls := by
    intro third apart
    unfold RingSystem.setCall
    simp only
    split
    · rfl
    · exact alike.calls third apart
  grants := alike.grants

theorem setCalls (alike : Alike actor first second) (call otherCall : Option ActiveCall) :
    Alike actor (first.setCall actor call) (second.setCall actor otherCall) where
  core := alike.core
  calls := by
    intro other apart
    rw [setCall_calls_other _ _ apart, setCall_calls_other _ _ apart]
    exact alike.calls other apart
  grants := alike.grants

theorem setCall_right (alike : Alike actor first second) (call : Option ActiveCall) :
    Alike actor first (second.setCall actor call) where
  core := alike.core
  calls := by
    intro other apart
    rw [setCall_calls_other _ _ apart]
    exact alike.calls other apart
  grants := alike.grants

theorem withCore (alike : Alike actor first second) (core : Core α) :
    Alike actor { first with core } { second with core } :=
  ⟨rfl, alike.calls, alike.grants⟩

theorem enter (alike : Alike actor first second) {other : Fin actors} (apart : other ≠ actor)
    (call : RingCall) : Alike actor (first.enter other call) (second.enter other call) := by
  unfold RingSystem.enter
  rw [alike.calls other apart, alike.totals]
  cases first.calls other with
  | some active => exact alike
  | none => exact alike.setCall other _

theorem granted (alike : Alike actor first second) (holder : Fin actors)
    (kind otherKind : Bool) (offer : Reservation) (side : Side) :
    Alike actor (first.granted holder kind offer side)
      (second.granted holder otherKind offer side) where
  core := congrArg (fun core => core.setHead side offer.next) alike.core
  calls := alike.calls
  grants := by
    simp only [RingSystem.granted, List.map_append, alike.grants]
    rfl

theorem published (alike : Alike actor first second) (grant : Nat) (reservation : Reservation) :
    Alike actor (first.published grant reservation) (second.published grant reservation) where
  core := congrArg (fun core => core.setTail reservation.side reservation.next) alike.core
  calls := alike.calls
  grants := by
    simp only [RingSystem.published, plain_modify_settle, alike.grants]

theorem accessed (alike : Alike actor first second) (core : Core α) (index : Nat)
    {grant other : Grant α} (same : other.plain = grant.plain) (offset : Nat) (value : α) :
    Alike actor (first.accessed core index grant offset value)
      (second.accessed core index other offset value) where
  core := rfl
  calls := alike.calls
  grants := by
    have changed : (other.accessed offset value).plain = (grant.accessed offset value).plain :=
      congrArg (fun grant : Grant α => grant.accessed offset value) same
    simp only [RingSystem.accessed, List.map_set, alike.grants, changed]

theorem settle {Call Result : Type} (alike : Alike actor first second) (other : Fin actors)
    (since : SlotTotals) (resume : Call → RingCall)
    (finish : RingSystem actors α → Result → RingSystem actors α × RingEvent α)
    (finished : ∀ first second, Alike actor first second → ∀ result,
      Alike actor (finish first result).1 (finish second result).1 ∧
        (finish second result).2 = (finish first result).2)
    (step : Core α × Progress Call Result) :
    Alike actor (first.settle other since resume finish step).1
        (second.settle other since resume finish step).1 ∧
      (second.settle other since resume finish step).2 =
        (first.settle other since resume finish step).2 := by
  obtain ⟨core, progress⟩ := step
  cases progress with
  | running call => exact ⟨(alike.withCore core).setCall other _, rfl⟩
  | returned result =>
      obtain ⟨recorded, observed⟩ :=
        finished _ _ ((alike.withCore core).setCall other none) result
      exact ⟨recorded, congrArg some observed⟩

theorem recordClaim (alike : Alike actor first second) (other : Fin actors) (exclusive : Bool)
    (result : Claim.Result) :
    Alike actor (RingSystem.recordClaim other exclusive first result).1
        (RingSystem.recordClaim other exclusive second result).1 ∧
      (RingSystem.recordClaim other exclusive second result).2 =
        (RingSystem.recordClaim other exclusive first result).2 := by
  obtain ⟨verdict, attempts⟩ := result
  cases verdict with
  | short available => exact ⟨alike, rfl⟩
  | granted reservation =>
      refine ⟨⟨alike.core, alike.calls, ?_⟩, rfl⟩
      simp only [RingSystem.recordClaim, List.map_append, alike.grants]

theorem recordPublication (alike : Alike actor first second) (grant spins : Nat) :
    Alike actor (RingSystem.recordPublication grant first spins).1
        (RingSystem.recordPublication grant second spins).1 ∧
      (RingSystem.recordPublication grant second spins).2 =
        (RingSystem.recordPublication grant first spins).2 := by
  refine ⟨⟨alike.core, alike.calls, ?_⟩, rfl⟩
  simp only [RingSystem.recordPublication, plain_modify_settle, alike.grants]

theorem advance (alike : Alike actor first second) {other : Fin actors} (apart : other ≠ actor)
    (refused : Bool) :
    Alike actor (first.next (.advance other refused)).1 (second.next (.advance other refused)).1 ∧
      (second.next (.advance other refused)).2 = (first.next (.advance other refused)).2 := by
  have same := alike.calls other apart
  cases within : first.calls other with
  | none =>
      rw [within] at same
      simpa [RingSystem.next, within, same] using alike
  | some active =>
      obtain ⟨call, since⟩ := active
      rw [within] at same
      cases call with
      | claim claim =>
          simpa only [RingSystem.next, within, same, alike.core] using
            alike.settle other since .claim _
              (fun _ _ related => related.recordClaim other claim.request.exclusive)
              (claim.step first.core refused)
      | publish grant publication =>
          simpa only [RingSystem.next, within, same, alike.core] using
            alike.settle other since (.publish grant) _
              (fun _ _ related => related.recordPublication grant)
              (publication.step first.core)
      | census census =>
          simpa only [RingSystem.next, within, same, alike.core] using
            alike.settle other since .census (fun system count => (system, .counted count))
              (fun _ _ related _ => ⟨related, rfl⟩) (census.step first.core)

theorem next (alike : Alike actor first second) {move : RingMove actors α}
    (beside : move.Beside actor) :
    Alike actor (first.next move).1 (second.next move).1 ∧
      (second.next move).2 = (first.next move).2 := by
  cases move with
  | claim other request =>
      refine ⟨?_, rfl⟩
      have entered := alike.enter beside (.claim (Claim.start first.core request))
      rwa [RingSystem.next, RingSystem.next, alike.core]
  | publish other grant exclusive =>
      cases found : first.grants[grant]? with
      | none =>
          have missing := alike.missing found
          simpa [RingSystem.next, found, missing] using alike
      | some held =>
          obtain ⟨likewise, foundToo, same⟩ := alike.found found
          simpa [RingSystem.next, found, foundToo, reservation_of_plain same] using
            alike.enter beside _
  | census other => exact ⟨alike.enter beside (.census .start), rfl⟩
  | advance other refused => exact alike.advance beside refused
  | write other grant offset value =>
      cases found : first.grants[grant]? with
      | none =>
          have missing := alike.missing found
          simpa [RingSystem.next, found, missing] using alike
      | some held =>
          obtain ⟨likewise, foundToo, same⟩ := alike.found found
          have cursor : likewise.cursor offset = held.cursor offset := by
            rw [Grant.cursor, reservation_of_plain same, Grant.cursor]
          simpa [RingSystem.next, RingSystem.accessed, found, foundToo, alike.core, cursor] using
            alike.accessed (first.core.write (held.cursor offset) value) grant same offset value
  | read other grant offset =>
      cases found : first.grants[grant]? with
      | none =>
          have missing := alike.missing found
          simpa [RingSystem.next, found, missing] using alike
      | some held =>
          obtain ⟨likewise, foundToo, same⟩ := alike.found found
          have cursor : likewise.cursor offset = held.cursor offset := by
            rw [Grant.cursor, reservation_of_plain same, Grant.cursor]
          simpa [RingSystem.next, RingSystem.accessed, found, foundToo, alike.core, cursor] using
            alike.accessed first.core grant same offset (first.core.read (held.cursor offset))

end Alike

/-! ## Runs and what is observed in them -/

def reports (system : RingSystem actors α) :
    List (RingMove actors α) → List (Fin actors × RingEvent α)
  | [] => []
  | move :: moves =>
      (system.next move).2.toList.map (fun event => (move.mover, event)) ++
        (system.next move).1.reports moves

/-- Moves that lead from one system to another, with what is observed on the way. -/
structure Leads (system : RingSystem actors α) (moves : List (RingMove actors α))
    (final : RingSystem actors α) (observed : List (Fin actors × RingEvent α)) : Prop where
  final : (system.run moves).1 = final
  observed : system.reports moves = observed

theorem reports_foreign {system : RingSystem actors α} {moves : List (RingMove actors α)}
    (others : ∀ move ∈ moves, move.mover ≠ actor) :
    ∀ report ∈ system.reports moves, report.1 ≠ actor := by
  induction moves generalizing system with
  | nil =>
      intro report member
      cases member
  | cons move moves inductionHypothesis =>
      intro report member
      rcases List.mem_append.mp member with now | later
      · obtain ⟨event, -, rfl⟩ := List.mem_map.mp now
        exact others move List.mem_cons_self
      · exact inductionHypothesis
          (fun later member => others later (List.mem_cons_of_mem _ member)) report later

namespace Leads

variable {system middle final : RingSystem actors α} {first second : List (RingMove actors α)}
  {early late : List (Fin actors × RingEvent α)}

theorem refl (system : RingSystem actors α) : Leads system [] system [] := ⟨rfl, rfl⟩

theorem of_next {move : RingMove actors α} {event : Option (RingEvent α)}
    (step : system.next move = (final, event)) :
    Leads system [move] final (event.toList.map fun event => (move.mover, event)) where
  final := congrArg Prod.fst step
  observed := by rw [reports, step, reports, List.append_nil]

theorem keeps {rule : RingSystem actors α → RingMove actors α → Prop}
    (begins : Leads system first middle early) (kept : system.Keeps rule (first ++ second)) :
    middle.Keeps rule second := by
  rw [← begins.final]
  exact ((keeps_append rule).mp kept).2

theorem trans (begins : Leads system first middle early) (ends : Leads middle second final late) :
    Leads system (first ++ second) final (early ++ late) := by
  obtain ⟨rfl, rfl⟩ := begins
  obtain ⟨rfl, rfl⟩ := ends
  induction first generalizing system with
  | nil => exact ⟨rfl, rfl⟩
  | cons move first inductionHypothesis =>
      obtain ⟨final, observed⟩ := @inductionHypothesis (system.next move).1
      refine ⟨final, ?_⟩
      rw [List.cons_append, reports, observed, reports, List.append_assoc]
      rfl

end Leads

/-! ## The other side -/

theorem calls_next_beside {system : RingSystem actors α} {move : RingMove actors α}
    (beside : move.Beside actor) : (system.next move).1.calls actor = system.calls actor := by
  cases move with
  | claim other | publish other | census other | advance other => exact calls_next_other beside
  | write other grant | read other grant =>
      rw [next]
      cases system.grants[grant]? <;> rfl

theorem calls_run_beside {system : RingSystem actors α} {moves : List (RingMove actors α)}
    (beside : ∀ move ∈ moves, move.Beside actor) :
    (system.run moves).1.calls actor = system.calls actor := by
  induction moves generalizing system with
  | nil => rfl
  | cons move moves inductionHypothesis =>
      exact (inductionHypothesis fun later member => beside later (List.mem_cons_of_mem _ member)
        ).trans (calls_next_beside (beside move List.mem_cons_self))

theorem reservation_next {system : RingSystem actors α} {index : Nat} {reservation : Reservation}
    (held : (system.grants[index]?).map Grant.reservation = some reservation)
    (move : RingMove actors α) :
    ((system.next move).1.grants[index]?).map Grant.reservation = some reservation := by
  have effect := system.effect_of_next move
  generalize (system.next move).1 = after at effect ⊢
  generalize (system.next move).2 = event at effect
  cases effect with
  | claimGranted =>
      have inside : index < system.grants.length := by
        by_contra beyond
        rw [List.getElem?_eq_none (by omega)] at held
        cases held
      rw [setCall_grants, granted, List.getElem?_append_left inside]
      exact held
  | publicationSettles actor refused grant =>
      obtain ⟨granted, found, same⟩ := Option.map_eq_some_iff.mp held
      rw [setCall_grants, published, List.getElem?_modify, found, ← same]
      simp only [Option.map_eq_map, Option.map_some]
      split <;> rfl
  | writes actor grant offset value granted found | reads actor grant offset granted found =>
      rw [accessed, List.getElem?_set]
      split
      case isTrue same =>
        subst same
        rw [found] at held
        split
        · exact held
        case isFalse beyond => exact absurd (List.getElem?_eq_some_iff.mp found).1 beyond
      case isFalse => exact held
  | stay | claimStarts | publicationStarts | censusStarts | claimShort | claimOffered
  | claimOutrun | publicationReady | publicationWaits | publicationPauses | censusLooks
  | censusCounts => exact held

theorem reservation_run {system : RingSystem actors α} {index : Nat} {reservation : Reservation}
    (held : (system.grants[index]?).map Grant.reservation = some reservation)
    (moves : List (RingMove actors α)) :
    ((system.run moves).1.grants[index]?).map Grant.reservation = some reservation := by
  induction moves generalizing system with
  | nil => exact held
  | cons move moves inductionHypothesis => exact inductionHypothesis (reservation_next held move)

/-- No other actor is within a claim or a publication on the side. -/
def Apart (side : Side) (actor : Fin actors) (system : RingSystem actors α) : Prop :=
  ∀ other, other ≠ actor → ∀ active ∈ system.calls other, active.call.side? ≠ some side

/-- Other actors start nothing on the side. -/
def LeavesSide (side : Side) (actor : Fin actors) (system : RingSystem actors α) :
    RingMove actors α → Prop
  | .claim other request => other ≠ actor → request.side ≠ side
  | .publish other grant _ =>
      other ≠ actor → ∀ granted ∈ system.grants[grant]?, granted.reservation.side ≠ side
  | .census _ | .advance _ _ | .write _ _ _ _ | .read _ _ _ => True

instance (side : Side) (actor : Fin actors) (system : RingSystem actors α) :
    DecidablePred (system.LeavesSide side actor)
  | .claim _ _ => inferInstanceAs (Decidable (_ ≠ _ → _ ≠ _))
  | .publish _ _ _ => inferInstanceAs (Decidable (_ ≠ _ → ∀ _ ∈ _, _))
  | .census _ | .advance _ _ | .write _ _ _ _ | .read _ _ _ => inferInstanceAs (Decidable True)

namespace Apart

variable {system : RingSystem actors α} {side : Side}

theorem setCall (apart : system.Apart side actor) (other : Fin actors)
    {call : Option ActiveCall} (elsewhere : ∀ active ∈ call, active.call.side? ≠ some side) :
    (system.setCall other call).Apart side actor := by
  intro third different active member
  by_cases same : third = other
  · rw [same, setCall_calls_self] at member
    exact elsewhere active member
  · rw [setCall_calls_other _ _ same] at member
    exact apart third different active member

theorem setCall_self (apart : system.Apart side actor) (call : Option ActiveCall) :
    (system.setCall actor call).Apart side actor := by
  intro other different active member
  rw [setCall_calls_other _ _ different] at member
  exact apart other different active member

theorem goesOn (apart : system.Apart side actor) {other : Fin actors} (different : other ≠ actor)
    {active later : ActiveCall} (within : system.calls other = some active)
    (same : later.call.side? = active.call.side?) :
    (system.setCall other (some later)).Apart side actor := by
  refine apart.setCall other ?_
  intro found member
  cases member
  rw [same]
  exact apart other different active within

/-- What others do on the other side leaves the cursors of this side alone. -/
theorem next (apart : system.Apart side actor) {move : RingMove actors α}
    (beside : move.Beside actor) (leaves : system.LeavesSide side actor move) :
    (system.next move).1.Apart side actor ∧
      (system.next move).1.core.cursors side = system.core.cursors side := by
  have effect := system.effect_of_next move
  generalize (system.next move).1 = after at effect ⊢
  generalize (system.next move).2 = event at effect
  cases effect with
  | stay | reads => exact ⟨apart, rfl⟩
  | writes => exact ⟨apart, Core.cursors_write _ _ _ _⟩
  | claimStarts other request free =>
      refine ⟨apart.setCall other ?_, rfl⟩
      rintro active ⟨⟩ same
      exact leaves beside (Option.some.inj same)
  | publicationStarts other grant exclusive granted free found =>
      refine ⟨apart.setCall other ?_, rfl⟩
      rintro active ⟨⟩ same
      exact leaves beside granted found (Option.some.inj same)
  | censusStarts other free =>
      refine ⟨apart.setCall other ?_, rfl⟩
      rintro active ⟨⟩ ⟨⟩
  | claimShort | censusCounts => exact ⟨apart.setCall _ (by simp), rfl⟩
  | claimOffered other refused claim since head offer within
  | claimOutrun other refused claim since offer within
  | publicationReady other refused grant publication since within
  | publicationWaits other refused grant publication since within
  | publicationPauses other refused grant publication since within
  | censusLooks other refused since within => exact ⟨apart.goesOn beside within rfl, rfl⟩
  | claimGranted other refused claim since offer within =>
      have elsewhere : claim.request.side ≠ side := fun same =>
        apart other beside _ within (congrArg some same)
      exact ⟨apart.setCall other (by simp), Core.cursors_setHead_other _ _ elsewhere.symm⟩
  | publicationSettles other refused grant publication since within =>
      have elsewhere : publication.reservation.side ≠ side := fun same =>
        apart other beside _ within (congrArg some same)
      exact ⟨apart.setCall other (by simp), Core.cursors_setTail_other _ _ elsewhere.symm⟩

end Apart

/-- Two systems that are alike but for an actor that is alone on its side, with the cursors of
that side. -/
structure Abreast (side : Side) (actor : Fin actors) (cursors : Cursors)
    (first second : RingSystem actors α) : Prop where
  alike : Alike actor first second
  apart : first.Apart side actor
  cursors : first.core.cursors side = cursors

/-- What others do on the other side is observed alike. -/
theorem Abreast.run {side : Side} {cursors : Cursors} {first second : RingSystem actors α}
    (abreast : Abreast side actor cursors first second) {moves : List (RingMove actors α)}
    (beside : ∀ move ∈ moves, move.Beside actor)
    (leaves : first.Keeps (LeavesSide side actor) moves) :
    Abreast side actor cursors (first.run moves).1 (second.run moves).1 ∧
      second.reports moves = first.reports moves := by
  induction moves generalizing first second with
  | nil => exact ⟨abreast, rfl⟩
  | cons move moves inductionHypothesis =>
      obtain ⟨leavesNow, leavesLater⟩ := leaves
      have besideNow := beside move List.mem_cons_self
      obtain ⟨alike, observed⟩ := abreast.alike.next besideNow
      obtain ⟨apart, cursors⟩ := abreast.apart.next besideNow leavesNow
      have later := inductionHypothesis ⟨alike, apart, cursors.trans abreast.cursors⟩
        (fun later member => beside later (List.mem_cons_of_mem _ member)) leavesLater
      refine ⟨later.1, ?_⟩
      rw [reports, reports, observed, later.2]

end RingSystem

end RingPool

import Mathlib.Data.List.Forall2
import RingPool.Proofs.Ring.Refusals

/-!
# How often a claim tries

A shared claim repeats its compare-exchange until it is granted or there is no room, and
nothing in it counts down.  What bounds its attempts is what the others are granted: the
head of a side changes only with a grant on that side (`marks_next`), and so a claim finds
another head than the one that it goes by only if somebody has been granted a reservation
since it took that (`UpToDate`).

`RingSystem.attempts` lists the compare-exchanges of one actor along a run.  Main statement:
each of them that fails for another head is charged to a grant of its own, made to somebody
else on the side since the attempt before it.  So a claim makes at most one attempt more than
the others are granted reservations on its side and its compare-exchange fails for no reason.
No window is needed for this, and nothing that the others do without a grant on the side
costs an attempt (`Harmless`).
-/

set_option autoImplicit false

namespace RingPool

variable {actors : Nat} {α : Type} {origin : Cursor}

/-! ## The compare-exchanges of one actor -/

/-- How a compare-exchange ends: it wins, or it finds another head than the one that its claim
goes by, or it fails although it finds that one. -/
inductive Attempt.Outcome where
  | won
  | outrun
  | spurious
  deriving DecidableEq, Repr

/-- A compare-exchange of a claim, with the number of grants at the attempt before it, or at the
start of the claim, and the number of grants now. -/
structure Attempt where
  since : Nat
  grants : Nat
  outcome : Attempt.Outcome
  deriving DecidableEq, Repr

def Claim.outcome? (core : Core α) (claim : Claim) (refused : Bool) : Option Attempt.Outcome :=
  match claim.phase with
  | .seek _ => none
  | .bid offer =>
      if claim.request.exclusive then none
      else if (core.cursors claim.request.side).head ≠ offer.head then some .outrun
      else if refused then some .spurious
      else some .won

namespace RingSystem

def outcome? (system : RingSystem actors α) (actor : Fin actors) :
    RingMove actors α → Option Attempt.Outcome
  | .advance mover refused =>
      if mover = actor then
        match system.calls actor with
        | some ⟨.claim claim, _⟩ => claim.outcome? system.core refused
        | some ⟨.publish _ _, _⟩ | some ⟨.census _, _⟩ | none => none
      else none
  | .claim _ _ | .publish _ _ _ | .census _ | .write _ _ _ _ | .read _ _ _ => none

/-- The compare-exchanges of an actor along a run, given the number of grants at the attempt
before it. -/
def attempts (actor : Fin actors) (since : Nat) (system : RingSystem actors α) :
    List (RingMove actors α) → List Attempt
  | [] => []
  | move :: moves =>
      match system.outcome? actor move with
      | none => (system.next move).1.attempts actor since moves
      | some outcome =>
          ⟨since, system.grants.length, outcome⟩ ::
            (system.next move).1.attempts actor system.grants.length moves

/-- A grant with this number was made on the side, and not to this actor. -/
def RivalAt (system : RingSystem actors α) (actor : Fin actors) (side : Side) (index : Nat) :
    Prop :=
  ∃ grant ∈ system.grants[index]?, grant.reservation.side = side ∧ grant.actor ≠ actor

/-- A move that gets nobody a reservation on this side. -/
def Harmless (side : Side) (system : RingSystem actors α) : RingMove actors α → Prop
  | .claim _ _ | .publish _ _ _ | .census _ | .write _ _ _ _ | .read _ _ _ => True
  | .advance actor refused =>
      match system.calls actor with
      | some ⟨.publish _ _, _⟩ | some ⟨.census _, _⟩ | none => True
      | some ⟨.claim claim, _⟩ =>
          claim.request.side ≠ side ∨ ∀ offer attempts,
            (system.next (.advance actor refused)).2 ≠
              some (.claimed ⟨.granted offer, attempts⟩)

end RingSystem

def RingMove.isStepOf (actor : Fin actors) : RingMove actors α → Bool
  | .advance mover _ => mover == actor
  | .claim _ _ | .publish _ _ _ | .census _ | .write _ _ _ _ | .read _ _ _ => false

def RingMove.stepsOf (actor : Fin actors) (moves : List (RingMove actors α)) : Nat :=
  moves.countP (RingMove.isStepOf actor)

/-! ## What a move does to a head -/

namespace Grant

def mark (grant : Grant α) : Nat × Side := (grant.actor, grant.reservation.side)

theorem marks_modify_settle (grants : List (Grant α)) (index : Nat) :
    (grants.modify index Grant.settle).map mark = grants.map mark := by
  apply List.ext_getElem?
  intro place
  rw [List.getElem?_map, List.getElem?_map, List.getElem?_modify]
  cases grants[place]? with
  | none => rfl
  | some grant =>
      simp only [Option.map_some, Option.map_eq_map]
      split <;> rfl

theorem marks_set_accessed {grants : List (Grant α)} {index : Nat} {grant : Grant α}
    (found : grants[index]? = some grant) (offset : Nat) (value : α) :
    (grants.set index (grant.accessed offset value)).map mark = grants.map mark := by
  obtain ⟨before, after, rfl, rfl⟩ := split_of_getElem? found
  rw [set_split, List.map_append, List.map_append, List.map_cons, List.map_cons]
  rfl

end Grant

namespace RingSystem

variable {system : RingSystem actors α} {actor : Fin actors} {side : Side} {index : Nat}

def marks (system : RingSystem actors α) : List (Nat × Side) := system.grants.map Grant.mark

theorem rivalAt_iff : system.RivalAt actor side index ↔
    ∃ holder, system.marks[index]? = some (holder, side) ∧ holder ≠ actor := by
  unfold RivalAt marks
  rw [List.getElem?_map]
  constructor
  · rintro ⟨grant, found, onSide, other⟩
    refine ⟨grant.actor, ?_, other⟩
    rw [found, Option.map_some, Grant.mark, onSide]
  · rintro ⟨holder, found, other⟩
    obtain ⟨grant, at_, mark⟩ := Option.map_eq_some_iff.mp found
    cases mark
    exact ⟨grant, at_, rfl, other⟩

theorem advance_of_granted {move : RingMove actors α} {offer : Reservation} {attempts : Nat}
    (granted : (system.next move).2 = some (.claimed ⟨.granted offer, attempts⟩)) :
    ∃ mover refused, move = .advance mover refused := by
  have effect := system.effect_of_next move
  rw [granted] at effect
  generalize (system.next move).1 = after at effect
  cases effect with
  | claimGranted mover refused => exact ⟨mover, refused, rfl⟩

theorem RivalAt.lt_length (rival : system.RivalAt actor side index) :
    index < system.grants.length := by
  obtain ⟨grant, found, -⟩ := rival
  exact (List.getElem?_eq_some_iff.mp found).1

theorem RivalAt.of_marks {later : RingSystem actors α} {others : List (Nat × Side)}
    (marks : later.marks = system.marks ++ others) (rival : system.RivalAt actor side index) :
    later.RivalAt actor side index := by
  obtain ⟨holder, found, other⟩ := rivalAt_iff.mp rival
  refine rivalAt_iff.mpr ⟨holder, ?_, other⟩
  rw [marks, List.getElem?_append_left (List.getElem?_eq_some_iff.mp found).1]
  exact found

end RingSystem

namespace HeadsCounted

variable {system : RingSystem actors α} {actor : Fin actors} {side : Side}

/-- The head of a side changes only with a grant on that side, which is the latest one then. -/
theorem marks_next (counted : HeadsCounted origin system) (move : RingMove actors α) :
    ((system.next move).1.marks = system.marks ∧
      ∀ side, ((system.next move).1.core.cursors side).head =
        (system.core.cursors side).head) ∨
    ∃ offer attempts, (system.next move).2 = some (.claimed ⟨.granted offer, attempts⟩) ∧
      (system.next move).1.marks = system.marks ++ [(move.mover.val, offer.side)] ∧
      ∀ side, side ≠ offer.side → ((system.next move).1.core.cursors side).head =
        (system.core.cursors side).head := by
  have effect := system.effect_of_next move
  generalize (system.next move).1 = after at effect ⊢
  generalize (system.next move).2 = event at effect ⊢
  cases effect with
  | claimGranted mover refused claim since offer within bidding unopposed =>
      obtain ⟨onSide, -⟩ := (counted.claims mover claim since within).offer offer bidding
      refine Or.inr ⟨offer, _, rfl, List.map_append, ?_⟩
      intro other apart
      rw [onSide] at apart
      exact congrArg Cursors.head (Core.cursors_setHead_other _ _ apart)
  | publicationSettles mover refused grant publication since within settling =>
      exact Or.inl ⟨Grant.marks_modify_settle system.grants grant, fun other =>
        Core.head_setTail system.core publication.reservation.side other _⟩
  | writes mover grant offset value granted found =>
      exact Or.inl ⟨Grant.marks_set_accessed found offset value, fun other =>
        congrArg Cursors.head (Core.cursors_write _ _ _ other)⟩
  | reads mover grant offset granted found =>
      exact Or.inl ⟨Grant.marks_set_accessed found offset _, fun _ => rfl⟩
  | stay | claimStarts | publicationStarts | censusStarts | claimShort | claimOffered
  | claimOutrun | publicationReady | publicationWaits | publicationPauses | censusLooks
  | censusCounts => exact Or.inl ⟨rfl, fun _ => rfl⟩

theorem exists_marks_next (counted : HeadsCounted origin system) (move : RingMove actors α) :
    ∃ others, (system.next move).1.marks = system.marks ++ others := by
  rcases counted.marks_next move with ⟨same, -⟩ | ⟨offer, attempts, -, added, -⟩
  · exact ⟨[], same.trans (List.append_nil _).symm⟩
  · exact ⟨_, added⟩

theorem exists_marks_run (counted : HeadsCounted origin system) (moves : List (RingMove actors α))
    (orderly : system.Orderly moves) :
    ∃ others, (system.run moves).1.marks = system.marks ++ others := by
  induction moves generalizing system with
  | nil => exact ⟨[], (List.append_nil _).symm⟩
  | cons move moves inductionHypothesis =>
      obtain ⟨first, marks⟩ := counted.exists_marks_next move
      obtain ⟨second, final⟩ := inductionHypothesis (counted.next move orderly.1) orderly.2
      refine ⟨first ++ second, ?_⟩
      rw [← List.append_assoc, ← marks]
      exact final

theorem length_grants_le_next (counted : HeadsCounted origin system) (move : RingMove actors α) :
    system.grants.length ≤ (system.next move).1.grants.length := by
  obtain ⟨others, marks⟩ := counted.exists_marks_next move
  have lengths := congrArg List.length marks
  rw [List.length_append, RingSystem.marks, RingSystem.marks, List.length_map,
    List.length_map] at lengths
  omega

/-- If somebody else moves a head, then that is with a grant to somebody else. -/
theorem rivalAt_of_head_ne (counted : HeadsCounted origin system) {move : RingMove actors α}
    (other : move.mover ≠ actor) (moved : ((system.next move).1.core.cursors side).head ≠
      (system.core.cursors side).head) :
    (system.next move).1.RivalAt actor side system.grants.length := by
  rcases counted.marks_next move with ⟨-, same⟩ | ⟨offer, attempts, -, added, same⟩
  · exact absurd (same side) moved
  · have onSide : side = offer.side := by
      by_contra apart
      exact moved (same side apart)
    have length : system.marks.length = system.grants.length := List.length_map ..
    refine RingSystem.rivalAt_iff.mpr ⟨move.mover, ?_, fun same => other (Fin.ext same)⟩
    rw [added, ← length, onSide]
    exact List.getElem?_concat_length ..

theorem harmless_next (counted : HeadsCounted origin system) {move : RingMove actors α}
    (harmless : system.Harmless side move) :
    ((system.next move).1.core.cursors side).head = (system.core.cursors side).head ∧
      ∃ others, (system.next move).1.marks = system.marks ++ others ∧
        ∀ holder, (holder, side) ∉ others := by
  rcases counted.marks_next move with ⟨marks, same⟩ | ⟨offer, attempts, granted, added, same⟩
  · exact ⟨same side, [], marks.trans (List.append_nil _).symm, fun _ => List.not_mem_nil⟩
  · have apart : side ≠ offer.side := by
      rintro rfl
      obtain ⟨mover, refused, rfl⟩ := RingSystem.advance_of_granted granted
      obtain ⟨claim, since, within, bidding, -⟩ := RingSystem.claim_of_granted granted
      obtain ⟨onSide, -⟩ := (counted.claims _ claim since within).offer offer bidding
      rw [RingSystem.Harmless, within] at harmless
      rcases harmless with opposite | fails
      · exact opposite onSide.symm
      · exact fails offer attempts granted
    refine ⟨same side apart, _, added, ?_⟩
    intro holder member
    exact apart (congrArg Prod.snd (List.mem_singleton.mp member))

end HeadsCounted

/-! ## One step of a claim -/

/-- How many further steps of its call a claim has made: two for each attempt that failed, and one
for the offer that it has in mind. -/
def Claim.steps (claim : Claim) : Nat :=
  match claim.phase with
  | .seek _ => 2 * claim.attempts
  | .bid _ => 2 * claim.attempts + 1

theorem Claim.steps_le (claim : Claim) : claim.steps ≤ 2 * claim.attempts + 1 := by
  unfold steps
  split <;> omega

/-- A step after which a claim still runs leaves the memory alone.  It is the offer, or an attempt
that fails. -/
theorem Claim.step_running {core after : Core α} {claim later : Claim} {refused : Bool}
    (runs : claim.step core refused = (after, .running later)) :
    after = core ∧ later.request = claim.request ∧ later.steps = claim.steps + 1 ∧
      ((claim.outcome? core refused = none ∧ later.attempts = claim.attempts ∧
          later.basis = claim.basis) ∨
        (later.attempts = claim.attempts + 1 ∧
          later.basis = (core.cursors claim.request.side).head ∧
          ((claim.outcome? core refused = some .outrun ∧
              (core.cursors claim.request.side).head ≠ claim.basis) ∨
            claim.outcome? core refused = some .spurious))) := by
  unfold Claim.step at runs
  split at runs
  case h_1 head seeking =>
    split at runs
    case h_1 => cases runs
    case h_2 offer offered =>
      cases runs
      refine ⟨rfl, rfl, ?_, Or.inl ⟨?_, rfl, ?_⟩⟩
      · rw [Claim.steps, Claim.steps, seeking]
      · rw [Claim.outcome?, seeking]
      · rw [Claim.basis_of_seek seeking]
        exact Core.offer_head offered
  case h_2 offer bidding =>
    split at runs
    case isTrue => cases runs
    case isFalse shared =>
      dsimp only at runs
      split at runs
      case isTrue => cases runs
      case isFalse fails =>
        cases runs
        refine ⟨rfl, rfl, ?_, Or.inr ⟨rfl, rfl, ?_⟩⟩
        · rw [Claim.steps, Claim.steps, bidding]
          exact Nat.mul_succ 2 claim.attempts
        · rw [Claim.basis_of_bid bidding, Claim.outcome?, bidding]
          dsimp only
          rw [if_neg shared]
          by_cases same : (core.cursors claim.request.side).head = offer.head
          case neg => exact Or.inl ⟨if_pos same, same⟩
          case pos =>
            have refusal : refused = true := by simpa [same] using fails
            exact Or.inr ((if_neg (not_not.mpr same)).trans (if_pos refusal))

namespace RingSystem

variable {system : RingSystem actors α} {actor : Fin actors}

theorem next_advance_running {claim : Claim} {began : SlotTotals}
    (within : system.calls actor = some ⟨.claim claim, began⟩) {refused : Bool}
    (stays : (system.next (.advance actor refused)).1.calls actor ≠ none) :
    ∃ core later, claim.step system.core refused = (core, .running later) ∧
      (system.next (.advance actor refused)).1 =
        ({ system with core }).setCall actor (some ⟨.claim later, began⟩) := by
  have steps : system.next (.advance actor refused) = system.settle actor began .claim
      (recordClaim actor claim.request.exclusive) (claim.step system.core refused) := by
    rw [next, within]
  rw [steps] at stays ⊢
  generalize claim.step system.core refused = step at stays ⊢
  obtain ⟨core, later | result⟩ := step
  case running => exact ⟨core, later, rfl, rfl⟩
  case returned =>
    refine absurd ?_ stays
    unfold settle recordClaim
    dsimp only
    split <;> exact setCall_calls_self _ _ _

/-- If a claim goes by a head that is no longer that of its side, then somebody else has been
granted a reservation on the side since there were so many grants. -/
structure UpToDate (system : RingSystem actors α) (actor : Fin actors) (claim : Claim)
    (since : Nat) : Prop where
  known : since ≤ system.grants.length
  rival : (system.core.cursors claim.request.side).head ≠ claim.basis →
    ∃ index, since ≤ index ∧ system.RivalAt actor claim.request.side index

/-- What has come of a claim with a move after which it still runs: either the move was no
attempt, or it was one that failed. -/
inductive GoesOn (system : RingSystem actors α) (actor : Fin actors) (since : Nat)
    (claim later : Claim) (after : RingSystem actors α) : Option Attempt.Outcome → Prop where
  | idle (attempts : later.attempts = claim.attempts) (fresh : after.UpToDate actor later since) :
      GoesOn system actor since claim later after none
  | outrun (attempts : later.attempts = claim.attempts + 1)
      (fresh : after.UpToDate actor later system.grants.length) {index : Nat}
      (notBefore : since ≤ index) (rival : system.RivalAt actor claim.request.side index) :
      GoesOn system actor since claim later after (some .outrun)
  | spurious (attempts : later.attempts = claim.attempts + 1)
      (fresh : after.UpToDate actor later system.grants.length) :
      GoesOn system actor since claim later after (some .spurious)

theorem UpToDate.of_basis {claim : Claim}
    (basis : claim.basis = (system.core.cursors claim.request.side).head) :
    system.UpToDate actor claim system.grants.length where
  known := le_refl _
  rival := fun stale => absurd basis.symm stale

theorem goesOn_advance {claim : Claim} {began : SlotTotals} {since : Nat}
    (within : system.calls actor = some ⟨.claim claim, began⟩)
    (fresh : system.UpToDate actor claim since) {refused : Bool}
    (stays : (system.next (.advance actor refused)).1.calls actor ≠ none) :
    ∃ later, (system.next (.advance actor refused)).1.calls actor = some ⟨.claim later, began⟩ ∧
      later.request = claim.request ∧ later.steps = claim.steps + 1 ∧
      system.GoesOn actor since claim later (system.next (.advance actor refused)).1
        (system.outcome? actor (.advance actor refused)) := by
  obtain ⟨core, later, runs, next⟩ := next_advance_running within stays
  obtain ⟨rfl, request, steps, kinds⟩ := Claim.step_running runs
  have outcome : system.outcome? actor (.advance actor refused) =
      claim.outcome? system.core refused := by
    rw [outcome?, if_pos rfl, within]
  rw [next, outcome]
  refine ⟨later, setCall_calls_self _ _ _, request, steps, ?_⟩
  rcases kinds with ⟨idle, attempts, basis⟩ | ⟨attempts, basis, kind⟩
  · rw [idle]
    refine .idle attempts ⟨fresh.known, ?_⟩
    rw [request, basis]
    exact fresh.rival
  · have took : UpToDate (({ system with core := system.core }).setCall actor
        (some ⟨.claim later, began⟩)) actor later system.grants.length := by
      apply UpToDate.of_basis
      rw [request]
      exact basis
    rcases kind with ⟨outrun, stale⟩ | spurious
    · obtain ⟨index, notBefore, rival⟩ := fresh.rival stale
      rw [outrun]
      exact .outrun attempts took notBefore rival
    · rw [spurious]
      exact .spurious attempts took

/-- While an actor is within a call, only a further step of that changes it. -/
theorem calls_next_of_noStep {move : RingMove actors α} (busy : system.calls actor ≠ none)
    (noStep : move.isStepOf actor = false) :
    (system.next move).1.calls actor = system.calls actor := by
  by_cases mine : move.mover = actor
  case neg => exact calls_next_other mine
  case pos =>
  subst mine
  have effect := system.effect_of_next move
  generalize (system.next move).1 = after at effect ⊢
  generalize (system.next move).2 = event at effect
  cases effect with
  | stay | writes | reads => rfl
  | claimStarts mover request free => exact absurd free busy
  | publicationStarts mover grant exclusive granted free => exact absurd free busy
  | censusStarts mover free => exact absurd free busy
  | claimShort | claimOffered | claimGranted | claimOutrun | publicationReady | publicationWaits
  | publicationPauses | publicationSettles | censusLooks | censusCounts =>
      simp [RingMove.isStepOf, RingMove.mover] at noStep

theorem outcome?_of_noStep {move : RingMove actors α} (noStep : move.isStepOf actor = false) :
    system.outcome? actor move = none := by
  cases move with
  | advance mover refused => exact if_neg (ne_of_beq_false noStep)
  | claim | publish | census | write | read => rfl

end RingSystem

namespace HeadsCounted

variable {system : RingSystem actors α} {actor : Fin actors}

theorem upToDate_next (counted : HeadsCounted origin system) {claim : Claim} {since : Nat}
    (fresh : system.UpToDate actor claim since) {move : RingMove actors α}
    (other : move.mover = actor → ∀ side, ((system.next move).1.core.cursors side).head =
      (system.core.cursors side).head) :
    (system.next move).1.UpToDate actor claim since where
  known := fresh.known.trans (counted.length_grants_le_next move)
  rival := by
    intro stale
    by_cases moved : ((system.next move).1.core.cursors claim.request.side).head =
      (system.core.cursors claim.request.side).head
    · rw [moved] at stale
      obtain ⟨index, notBefore, rival⟩ := fresh.rival stale
      obtain ⟨others, marks⟩ := counted.exists_marks_next move
      exact ⟨index, notBefore, rival.of_marks marks⟩
    · have others : move.mover ≠ actor := fun mine => moved (other mine _)
      exact ⟨system.grants.length, fresh.known, counted.rivalAt_of_head_ne others moved⟩

theorem goesOn (counted : HeadsCounted origin system) {claim : Claim} {began : SlotTotals}
    {since : Nat} (within : system.calls actor = some ⟨.claim claim, began⟩)
    (fresh : system.UpToDate actor claim since) (move : RingMove actors α)
    (stays : (system.next move).1.calls actor ≠ none) :
    ∃ later, (system.next move).1.calls actor = some ⟨.claim later, began⟩ ∧
      later.request = claim.request ∧
      later.steps = claim.steps + (if move.isStepOf actor then 1 else 0) ∧
      system.GoesOn actor since claim later (system.next move).1
        (system.outcome? actor move) := by
  cases step : move.isStepOf actor with
  | true =>
      cases move with
      | claim | publish | census | write | read => cases step
      | advance mover refused =>
          obtain rfl := eq_of_beq step
          exact RingSystem.goesOn_advance within fresh stays
  | false =>
      have busy : system.calls actor ≠ none := by
        rw [within]
        exact Option.some_ne_none _
      rw [RingSystem.calls_next_of_noStep busy step, RingSystem.outcome?_of_noStep step]
      refine ⟨claim, within, rfl, rfl, .idle rfl (counted.upToDate_next fresh ?_)⟩
      intro mine side
      rcases counted.marks_next move with ⟨-, same⟩ | ⟨offer, attempts, granted, -⟩
      · exact same side
      · obtain ⟨mover, refused, rfl⟩ := RingSystem.advance_of_granted granted
        exact absurd step (by simp [RingMove.isStepOf, ← mine, RingMove.mover])

end HeadsCounted

/-! ## A whole claim -/

def Grant.isRival (actor : Nat) (side : Side) (grant : Grant α) : Bool :=
  grant.reservation.side == side && grant.actor != actor

def Grant.rivals (actor : Nat) (side : Side) (grants : List (Grant α)) : List (Grant α) :=
  grants.filter (isRival actor side)

/-- Each attempt that was outrun has a grant of its own: one to somebody else on the side, made
since the attempt before it. -/
def RingSystem.Charged (final : RingSystem actors α) (actor : Fin actors) (side : Side)
    (log : List Attempt) (charges : List Nat) : Prop :=
  (charges.Pairwise (· < ·) ∧ ∀ index ∈ charges, final.RivalAt actor side index) ∧
    List.Forall₂ (fun attempt index => attempt.since ≤ index ∧ index < attempt.grants)
      (log.filter fun attempt => attempt.outcome = .outrun) charges

namespace Attempt

def spurious (log : List Attempt) : Nat := log.countP fun attempt => attempt.outcome = .spurious

end Attempt

/-- What has come of a claim in the course of a run. -/
structure RingSystem.Pursued (actor : Fin actors) (since : Nat) (claim later : Claim)
    (final : RingSystem actors α) (log : List Attempt) : Prop where
  attempts : later.attempts = claim.attempts + log.length
  unsettled : ∀ attempt ∈ log, attempt.outcome ≠ .won
  charged : ∃ charges, final.Charged actor claim.request.side log charges ∧
    ∀ index ∈ charges, since ≤ index

namespace RingSystem.Pursued

variable {system final : RingSystem actors α} {actor : Fin actors} {since : Nat}
  {claim middle later : Claim} {log : List Attempt}

theorem idle (pursued : Pursued actor since middle later final log)
    (asked : middle.request = claim.request) (attempts : middle.attempts = claim.attempts) :
    Pursued actor since claim later final log where
  attempts := attempts ▸ pursued.attempts
  unsettled := pursued.unsettled
  charged := asked ▸ pursued.charged

theorem spurious (pursued : Pursued actor system.grants.length middle later final log)
    (asked : middle.request = claim.request) (attempts : middle.attempts = claim.attempts + 1)
    (known : since ≤ system.grants.length) :
    Pursued actor since claim later final (⟨since, system.grants.length, .spurious⟩ :: log) where
  attempts := by
    rw [pursued.attempts, attempts, List.length_cons]
    omega
  unsettled := List.forall_mem_cons.mpr ⟨by simp, pursued.unsettled⟩
  charged := by
    obtain ⟨charges, charged, notBefore⟩ := pursued.charged
    rw [asked] at charged
    exact ⟨charges, charged, fun index member => known.trans (notBefore index member)⟩

theorem outrun (pursued : Pursued actor system.grants.length middle later final log)
    (asked : middle.request = claim.request) (attempts : middle.attempts = claim.attempts + 1)
    {index : Nat} (notBefore : since ≤ index) (known : index < system.grants.length)
    (rival : final.RivalAt actor claim.request.side index) :
    Pursued actor since claim later final (⟨since, system.grants.length, .outrun⟩ :: log) where
  attempts := by
    rw [pursued.attempts, attempts, List.length_cons]
    omega
  unsettled := List.forall_mem_cons.mpr ⟨by simp, pursued.unsettled⟩
  charged := by
    obtain ⟨charges, ⟨⟨rising, rivals⟩, charged⟩, later⟩ := pursued.charged
    rw [asked] at rivals
    refine ⟨index :: charges, ⟨⟨?_, List.forall_mem_cons.mpr ⟨rival, rivals⟩⟩,
      .cons ⟨notBefore, known⟩ charged⟩, ?_⟩
    · exact List.pairwise_cons.mpr
        ⟨fun other member => known.trans_le (later other member), rising⟩
    · exact List.forall_mem_cons.mpr
        ⟨notBefore, fun other member => (notBefore.trans known.le).trans (later other member)⟩

end RingSystem.Pursued

namespace HeadsCounted

variable {system : RingSystem actors α} {actor : Fin actors}

theorem pursued (counted : HeadsCounted origin system) {claim : Claim} {began : SlotTotals}
    {since : Nat} (within : system.calls actor = some ⟨.claim claim, began⟩)
    (fresh : system.UpToDate actor claim since) (moves : List (RingMove actors α))
    (orderly : system.Orderly moves)
    (stays : system.Throughout (fun system => system.calls actor ≠ none) moves) :
    ∃ later, (system.run moves).1.calls actor = some ⟨.claim later, began⟩ ∧
      later.request = claim.request ∧
      later.steps = claim.steps + RingMove.stepsOf actor moves ∧
      RingSystem.Pursued actor since claim later (system.run moves).1
        (system.attempts actor since moves) := by
  induction moves generalizing system claim since with
  | nil =>
      refine ⟨claim, within, rfl, rfl, rfl, by simp [RingSystem.attempts], [], ?_, by simp⟩
      exact ⟨⟨.nil, by simp⟩, .nil⟩
  | cons move moves inductionHypothesis =>
      obtain ⟨middle, goesOn, asked, stepped, kind⟩ := counted.goesOn within fresh move stays.1
      have countedThen := counted.next move orderly.1
      have ended : (system.run (move :: moves)).1 = ((system.next move).1.run moves).1 := rfl
      have counts : RingMove.stepsOf actor (move :: moves) =
          RingMove.stepsOf actor moves + (if move.isStepOf actor then 1 else 0) :=
        List.countP_cons
      rw [ended, counts, RingSystem.attempts]
      generalize system.outcome? actor move = outcome at kind ⊢
      cases kind with
      | idle attempts freshThen =>
          obtain ⟨later, last, asks, steps, pursued⟩ :=
            inductionHypothesis countedThen goesOn freshThen orderly.2 stays.2
          exact ⟨later, last, asks.trans asked, by omega, pursued.idle asked attempts⟩
      | spurious attempts freshThen =>
          obtain ⟨later, last, asks, steps, pursued⟩ :=
            inductionHypothesis countedThen goesOn freshThen orderly.2 stays.2
          exact ⟨later, last, asks.trans asked, by omega,
            pursued.spurious asked attempts fresh.known⟩
      | outrun attempts freshThen notBefore rival =>
          obtain ⟨later, last, asks, steps, pursued⟩ :=
            inductionHypothesis countedThen goesOn freshThen orderly.2 stays.2
          obtain ⟨others, marks⟩ := counted.exists_marks_run (move :: moves) orderly
          exact ⟨later, last, asks.trans asked, by omega,
            pursued.outrun asked attempts notBefore rival.lt_length (rival.of_marks marks)⟩

theorem harmless_run (counted : HeadsCounted origin system) {side : Side}
    {moves : List (RingMove actors α)} (orderly : system.Orderly moves)
    (harmless : system.Keeps (fun system move => move.mover = actor ∨ system.Harmless side move)
      moves) :
    ∃ others, (system.run moves).1.marks = system.marks ++ others ∧
      ∀ holder, (holder, side) ∈ others → holder = actor := by
  induction moves generalizing system with
  | nil => exact ⟨[], (List.append_nil _).symm, fun _ member => absurd member List.not_mem_nil⟩
  | cons move moves inductionHypothesis =>
      obtain ⟨second, final, ownSecond⟩ :=
        inductionHypothesis (counted.next move orderly.1) orderly.2 harmless.2
      have first : ∃ first, (system.next move).1.marks = system.marks ++ first ∧
          ∀ holder, (holder, side) ∈ first → holder = actor := by
        rcases harmless.1 with mine | others
        · rcases counted.marks_next move with ⟨same, -⟩ | ⟨offer, attempts, -, added, -⟩
          · exact ⟨[], same.trans (List.append_nil _).symm,
              fun _ member => absurd member List.not_mem_nil⟩
          · refine ⟨_, added, ?_⟩
            intro holder member
            cases List.mem_singleton.mp member
            rw [mine]
        · obtain ⟨-, first, marks, none⟩ := counted.harmless_next others
          exact ⟨first, marks, fun holder member => absurd member (none holder)⟩
      obtain ⟨first, marks, ownFirst⟩ := first
      refine ⟨first ++ second, ?_, ?_⟩
      · rw [← List.append_assoc, ← marks]
        exact final
      · intro holder member
        rcases List.mem_append.mp member with early | late
        · exact ownFirst holder early
        · exact ownSecond holder late

theorem harmless_keeps (counted : HeadsCounted origin system) (side : Side)
    {moves : List (RingMove actors α)} (orderly : system.Orderly moves) :
    system.Keeps (fun system move => system.Harmless side move →
      ((system.next move).1.core.cursors side).head = (system.core.cursors side).head) moves := by
  induction moves generalizing system with
  | nil => trivial
  | cons move moves inductionHypothesis =>
      exact ⟨fun harmless => (counted.harmless_next harmless).1,
        inductionHypothesis (counted.next move orderly.1) orderly.2⟩

end HeadsCounted

namespace RingSystem

variable {system : RingSystem actors α} {actor : Fin actors} {side : Side}

theorem length_charges_le {since : Nat} {charges : List Nat}
    (rising : charges.Pairwise (· < ·)) (notBefore : ∀ index ∈ charges, since ≤ index)
    (rivals : ∀ index ∈ charges, system.RivalAt actor side index) :
    charges.length ≤ (Grant.rivals actor side (system.grants.drop since)).length := by
  induction charges generalizing since with
  | nil => exact Nat.zero_le _
  | cons index charges inductionHypothesis =>
      obtain ⟨first, rest⟩ := List.pairwise_cons.mp rising
      obtain ⟨late, -⟩ := List.forall_mem_cons.mp notBefore
      obtain ⟨rival, others⟩ := List.forall_mem_cons.mp rivals
      have fewer := inductionHypothesis rest first others
      obtain ⟨grant, found, onSide, other⟩ := rival
      obtain ⟨before, after, split, here⟩ := Grant.split_of_getElem? found
      have rest : system.grants.drop (index + 1) = after := by
        rw [split, ← here, List.drop_length_add_append, List.drop_one, List.tail_cons]
      have both : system.grants.drop since = before.drop since ++ grant :: after := by
        rw [split, List.drop_append_of_le_length (here ▸ late)]
      rw [rest] at fewer
      have isRival : grant.isRival actor side = true := by
        simp [Grant.isRival, onSide, other]
      have counts : (Grant.rivals actor side (grant :: after)).length =
          (Grant.rivals actor side after).length + 1 :=
        congrArg List.length (List.filter_cons_of_pos isRival)
      have parts : Grant.rivals actor side (before.drop since ++ grant :: after) =
          Grant.rivals actor side (before.drop since) ++
            Grant.rivals actor side (grant :: after) := List.filter_append ..
      rw [both, parts, List.length_append, counts, List.length_cons]
      exact (Nat.succ_le_succ fewer).trans (Nat.le_add_left _ _)

end RingSystem

/-- Attempts of a claim that still runs were outrun or have failed for no reason. -/
theorem Attempt.length_of_unsettled {log : List Attempt}
    (unsettled : ∀ attempt ∈ log, attempt.outcome ≠ .won) :
    log.length = (log.filter fun attempt => attempt.outcome = .outrun).length + spurious log := by
  induction log with
  | nil => rfl
  | cons attempt log inductionHypothesis =>
      obtain ⟨first, rest⟩ := List.forall_mem_cons.mp unsettled
      have later := inductionHypothesis rest
      unfold spurious at later ⊢
      rw [List.length_cons, List.filter_cons, List.countP_cons]
      cases outcome : attempt.outcome with
      | won => exact absurd outcome first
      | outrun => simp; omega
      | spurious => simp; omega

namespace RingSystem.Pursued

variable {final : RingSystem actors α} {actor : Fin actors} {since : Nat} {claim later : Claim}
  {log : List Attempt}

/-- At most as many attempts as there are grants to rivals and failures for no reason. -/
theorem length_log_le (pursued : Pursued actor since claim later final log) :
    log.length ≤
      (Grant.rivals actor claim.request.side (final.grants.drop since)).length +
        Attempt.spurious log := by
  obtain ⟨charges, ⟨⟨rising, rivals⟩, charged⟩, notBefore⟩ := pursued.charged
  have enough := length_charges_le rising notBefore rivals
  rw [Attempt.length_of_unsettled pursued.unsettled, charged.length_eq]
  exact Nat.add_le_add_right enough _

end RingSystem.Pursued

/-- A claim that is answered has made at most one attempt more than it had before. -/
theorem RingSystem.attempts_of_claimed {system : RingSystem actors α} {actor : Fin actors}
    {claim : Claim} {began : SlotTotals}
    (within : system.calls actor = some ⟨.claim claim, began⟩) {refused : Bool}
    {result : Claim.Result}
    (claimed : (system.next (.advance actor refused)).2 = some (.claimed result)) :
    result.attempts ≤ claim.attempts + 1 := by
  have effect := system.effect_of_next (.advance actor refused)
  rw [claimed] at effect
  generalize (system.next (.advance actor refused)).1 = after at effect
  cases effect with
  | claimShort _ _ claim' since head available within' =>
      cases within.symm.trans within'
      exact Nat.le_succ _
  | claimGranted _ _ claim' since offer within' =>
      cases within.symm.trans within'
      dsimp only
      split
      case isTrue => exact Nat.le_succ _
      case isFalse => exact le_refl _

theorem Grant.rivals_eq_nil {system final : RingSystem actors α} {actor : Fin actors} {side : Side}
    {others : List (Nat × Side)} (marks : final.marks = system.marks ++ others)
    (own : ∀ holder, (holder, side) ∈ others → holder = actor) :
    rivals actor side (final.grants.drop system.grants.length) = [] := by
  have added : (final.grants.drop system.grants.length).map mark = others := by
    have length : system.marks.length = system.grants.length := List.length_map ..
    have dropped := congrArg (List.drop system.marks.length) marks
    rw [List.drop_left, length, RingSystem.marks, ← List.map_drop] at dropped
    exact dropped
  apply List.filter_eq_nil_iff.mpr
  intro grant member
  by_cases onSide : grant.reservation.side = side
  case neg => simp [isRival, onSide]
  case pos =>
    have marked : (grant.actor, side) ∈ others := by
      rw [← added, ← onSide]
      exact List.mem_map_of_mem member
    simp [isRival, own _ marked]

/-- A claim that still runs has made at most as many attempts as the others have been granted
reservations on its side since it began and its compare-exchange has failed for no reason
meanwhile, and it makes at most one more: each attempt that was outrun is charged to a grant of
its own, made to somebody else on the side since the attempt before.  Two steps for each of them
bring a claim to its end, or to its last step.  What grants nobody anything on the side never
changes the word that the claim compares, and costs it no attempt. -/
theorem attempts_are_charged_to_rival_grants (capacity : Capacity) (blank : α) (origin : Cursor)
    (before between : List (RingMove actors α)) (actor : Fin actors) (request : Request)
    (orderly : (RingSystem.start capacity blank origin).Orderly
      (before ++ .claim actor request :: between))
    {first begun reached : RingSystem actors α}
    (begins : ((RingSystem.start capacity blank origin).run before).1 = first)
    (calls : (first.next (.claim actor request)).1 = begun)
    (stays : begun.Throughout (fun system => system.calls actor ≠ none) between)
    (ends : (begun.run between).1 = reached) :
    let began := begun.grants.length
    let log := begun.attempts actor began between
    let rivals := (Grant.rivals actor request.side (reached.grants.drop began)).length
    let failures := Attempt.spurious log
    (∃ claim since, reached.calls actor = some ⟨.claim claim, since⟩ ∧
      claim.request = request ∧ claim.attempts = log.length) ∧
    (log.length ≤ rivals + failures ∧
      RingMove.stepsOf actor between ≤ 2 * (rivals + failures) + 1) ∧
    (∀ refused result, (reached.next (.advance actor refused)).2 = some (.claimed result) →
      result.attempts ≤ rivals + failures + 1) ∧
    (∃ charges, reached.Charged actor request.side log charges ∧
      ∀ index ∈ charges, began ≤ index) ∧
    (begun.Keeps (fun system move => system.Harmless request.side move →
        ((system.next move).1.core.cursors request.side).head =
          (system.core.cursors request.side).head) between ∧
      (begun.Keeps (fun system move => move.mover = actor ∨ system.Harmless request.side move)
        between → rivals = 0 ∧ ∀ attempt ∈ log, attempt.outcome = .spurious)) := by
  intro began log rivals failures
  obtain ⟨orderlyBefore, permitted, orderlyBetween⟩ := (RingSystem.keeps_append _).mp orderly
  have heads := (HeadsCounted.start capacity blank origin).run before orderlyBefore
  rw [begins] at heads permitted orderlyBetween
  have headsBegun := heads.next (.claim actor request) permitted
  have starts := RingSystem.next_claim_starts permitted.1 request
  rw [calls] at headsBegun starts orderlyBetween
  have within : begun.calls actor =
      some ⟨.claim (Claim.start first.core request), first.totals⟩ := by
    rw [starts, RingSystem.setCall_calls_self]
  have fresh : begun.UpToDate actor (Claim.start first.core request) began := by
    apply RingSystem.UpToDate.of_basis
    rw [starts]
    rfl
  obtain ⟨later, last, asked, steps, pursued⟩ :=
    headsBegun.pursued within fresh between orderlyBetween stays
  rw [ends] at last pursued
  have attempts : later.attempts = log.length := pursued.attempts.trans (Nat.zero_add _)
  have few : log.length ≤ rivals + failures := pursued.length_log_le
  have stepsTaken : later.steps = RingMove.stepsOf actor between := steps.trans (Nat.zero_add _)
  refine ⟨⟨later, _, last, asked, attempts⟩, ⟨few, ?_⟩, ?_, pursued.charged,
    headsBegun.harmless_keeps request.side orderlyBetween, ?_⟩
  case refine_1 =>
    rw [← stepsTaken]
    have bound := later.steps_le
    omega
  case refine_2 =>
    intro refused result claimed
    have one := RingSystem.attempts_of_claimed last claimed
    omega
  case refine_3 =>
    intro harmless
    obtain ⟨others, marks, own⟩ := headsBegun.harmless_run orderlyBetween harmless
    rw [ends] at marks
    have none : rivals = 0 := congrArg List.length (Grant.rivals_eq_nil marks own)
    refine ⟨none, ?_⟩
    have all : failures = log.length := by
      have notMore : failures ≤ log.length := List.countP_le_length
      omega
    intro attempt member
    exact of_decide_eq_true (List.countP_eq_length.mp all attempt member)

/-- A second producer has two slots in mind, and its compare-exchange fails for no reason.  Then
the first producer gets one slot, and the second is outrun. -/
def contestedMoves : List (RingMove 3 Nat) :=
  [.advance sampleRival false, .advance sampleRival true, .advance sampleRival false,
    .claim sampleProducer (RingSystem.oneSlot .producer), .advance sampleProducer false,
    .advance sampleProducer false, .advance sampleRival false, .advance sampleRival false]

def contestedStart : RingSystem 3 Nat := (sampleStart.next (.claim sampleRival twoSlots)).1

def contestedEnd : RingSystem 3 Nat := (contestedStart.run contestedMoves).1

/-- One grant to a rival and one failure for no reason: the third attempt wins. -/
theorem attempts_are_charged_to_rival_grants_sample :
    sampleStart.Orderly (.claim sampleRival twoSlots :: contestedMoves) ∧
      contestedStart.attempts sampleRival 0 contestedMoves = [⟨0, 0, .spurious⟩, ⟨0, 1, .outrun⟩] ∧
      (contestedEnd.next (.advance sampleRival false)).2 =
        some (.claimed ⟨.granted ⟨.producer, 0xFFFFFFFF, 1, 2⟩, 3⟩) ∧
      3 ≤ (Grant.rivals sampleRival .producer contestedEnd.grants).length +
        Attempt.spurious (contestedStart.attempts sampleRival 0 contestedMoves) + 1 := by
  have orderly : sampleStart.Orderly ([] ++ .claim sampleRival twoSlots :: contestedMoves) := by
    decide +kernel
  have stays : contestedStart.Throughout (fun system => system.calls sampleRival ≠ none)
      contestedMoves := by
    decide +kernel
  have claimed : (contestedEnd.next (.advance sampleRival false)).2 =
      some (.claimed ⟨.granted ⟨.producer, 0xFFFFFFFF, 1, 2⟩, 3⟩) := rfl
  obtain ⟨-, -, bound, -⟩ := attempts_are_charged_to_rival_grants sampleCapacity 0 0xFFFFFFFE []
    contestedMoves sampleRival twoSlots orderly rfl rfl stays rfl
  exact ⟨orderly, rfl, claimed, bound false _ claimed⟩

end RingPool

import RingPool.Proofs.Ring.Alone
import RingPool.Proofs.Ring.Patience

/-!
# Blocking operations whose attempts nobody interrupts

If others act only while a blocking operation pauses, and each of their operations runs to its end,
then the loop does what `Ring.enqueueBlocking?` and `Ring.dequeueBlocking?` say: a `Spell` is a
reading of the clock with the operations of others before the next attempt, and it makes the
`Pause` in which these operations are done at once (`WaitingRing.blocks`).
-/

set_option autoImplicit false

namespace RingPool

variable {actors : Nat} {α : Type} {clock : Clock}

/-! ## Both operations as one -/

namespace Errand

/-- What a blocking operation makes of a ring, and its answer; none if it is still waiting. -/
def blocking? (errand : Errand α) (ring : Ring α) (deadline : Option Nat)
    (pauses : List (Pause α)) : Option (Ring α × WaitAnswer α) :=
  match errand with
  | .enqueue item => (ring.enqueueBlocking? item deadline pauses).map fun result =>
      (result.1, if result.2 then .stored else .handedBack item)
  | .dequeue => (ring.dequeueBlocking? deadline pauses).map fun result =>
      (result.1, result.2.elim .nothing .taken)

/-- An attempt moves one element, and the operation returns; or it is refused and changes nothing,
and the operation tests its deadline in the next pause. -/
theorem blocking?_cases (errand : Errand α) (ring : Ring α) (deadline : Option Nat) :
    (∃ changed item, ring.fulfil errand.order false = (changed, errand.success item) ∧
      ∀ pauses, errand.blocking? ring deadline pauses = some (changed, errand.done item)) ∨
    (ring.fulfil errand.order false = (ring, errand.refusal) ∧
      errand.blocking? ring deadline [] = none ∧
      ∀ pause pauses, errand.blocking? ring deadline (pause :: pauses) =
        if deadlinePassed deadline pause.reading then some (ring, errand.givenUp)
        else errand.blocking? (pause.meanwhile ring) deadline pauses) := by
  cases errand with
  | enqueue item =>
      have attempt : ring.fulfil (order (.enqueue item)) false = _ := ring.fulfil_enqueue item false
      cases stored : ring.enqueue? item false with
      | some changed =>
          rw [stored] at attempt
          refine Or.inl ⟨changed, item, attempt, fun pauses => ?_⟩
          cases pauses <;> simp [blocking?, Ring.enqueueBlocking?, stored, done]
      | none =>
          rw [stored] at attempt
          refine Or.inr ⟨attempt, by simp [blocking?, Ring.enqueueBlocking?, stored], ?_⟩
          intro pause pauses
          simp only [blocking?, Ring.enqueueBlocking?, stored]
          split <;> rfl
  | dequeue =>
      have attempt : ring.fulfil (order .dequeue) false = _ := ring.fulfil_dequeue false
      cases taken : ring.dequeue? false with
      | some result =>
          rw [taken] at attempt
          refine Or.inl ⟨result.2, result.1, attempt, fun pauses => ?_⟩
          cases pauses <;> simp [blocking?, Ring.dequeueBlocking?, taken, done]
      | none =>
          rw [taken] at attempt
          refine Or.inr ⟨attempt, by simp [blocking?, Ring.dequeueBlocking?, taken], ?_⟩
          intro pause pauses
          simp only [blocking?, Ring.dequeueBlocking?, taken]
          split <;> rfl

end Errand

/-! ## What others do in a pause -/

structure Spell (actors : Nat) (α : Type) where
  reading : Nat
  orders : List (Fin actors × RingOrder α × Bool)

def Spell.pause (spell : Spell actors α) : Pause α where
  reading := spell.reading
  meanwhile := fun ring => (ring.fulfilAll spell.orders).1

namespace WaitingRing

theorem run_ring (waiting : WaitingRing actors α) (clock : Clock) (acts : List (RingAct actors α))
    (others : ∀ act ∈ acts, waiting.waits act.actor = none) :
    waiting.run clock (acts.map .ring) =
      ({ waiting with busy := (waiting.busy.run acts).1 },
        (waiting.busy.run acts).2.map .reported) := by
  induction acts generalizing waiting with
  | nil => rfl
  | cons act acts inductionHypothesis =>
      have free := others act List.mem_cons_self
      have rest := inductionHypothesis { waiting with busy := (waiting.busy.next act).1 }
        fun later listed => others later (List.mem_cons_of_mem _ listed)
      simp only [List.map_cons, run, next, free, rest, BusyRing.run]
      cases (waiting.busy.next act).2 <;> rfl

theorem fulfilsAll (waiting : WaitingRing actors α) (quiet : waiting.busy.Quiet)
    {actor : Fin actors} (others : ∀ other, other ≠ actor → waiting.waits other = none)
    (orders : List (Fin actors × RingOrder α × Bool))
    (foreign : ∀ order ∈ orders, order.1 ≠ actor) :
    ∃ acts busy, (waiting.run clock acts).1 = { waiting with busy } ∧ busy.Quiet ∧
      busy.ring = (waiting.busy.ring.fulfilAll orders).1 := by
  induction orders generalizing waiting with
  | nil => exact ⟨[], waiting.busy, rfl, quiet, rfl⟩
  | cons order orders inductionHypothesis =>
      obtain ⟨other, order, exclusive⟩ := order
      obtain ⟨count, middle, made, leaves⟩ := waiting.busy.fulfils quiet.rest (quiet.idle other)
        (quiet.free other) order exclusive
      have rest : (waiting.busy.ring.fulfil order exclusive).1.core.AtRest :=
        Ring.fulfil_atRest quiet.rest order exclusive
      have changed : middle.ring = (waiting.busy.ring.fulfil order exclusive).1 :=
        leaves.ring.trans (Ring.fulfil_memory _ _ _).symm
      have own : ∀ act ∈ RingAct.start other order exclusive ::
          List.replicate count (.advance other false), waiting.waits act.actor = none := by
        have free := others other (foreign _ List.mem_cons_self)
        intro act listed
        rcases List.mem_cons.mp listed with rfl | further
        · exact free
        · rw [List.eq_of_mem_replicate further]
          exact free
      have first := waiting.run_ring clock _ own
      rw [made] at first
      obtain ⟨acts, busy, later, quietLater, final⟩ :=
        inductionHypothesis { waiting with busy := middle } (quiet.of_leaves rest leaves) others
          fun order listed => foreign order (List.mem_cons_of_mem _ listed)
      refine ⟨(RingAct.start other order exclusive :: List.replicate count
        (.advance other false)).map .ring ++ acts, busy, ?_, quietLater, ?_⟩
      · rw [run_append, first]
        exact later
      · rw [final, changed]
        rfl

/-! ## Attempts that nobody interrupts -/

@[simp] theorem looped_looped (waiting : WaitingRing actors α) (actor : Fin actors)
    (first second : BusyRing actors α) (before after : Option (Wait α)) :
    (waiting.looped actor first before).looped actor second after =
      waiting.looped actor second after := by
  have same : ((waiting.looped actor first before).looped actor second after).waits =
      (waiting.looped actor second after).waits := by
    funext other
    by_cases own : other = actor
    · subst own
      rw [looped_waits_self, looped_waits_self]
    · simp only [looped_waits_other _ _ _ own]
  exact congrArg (fun waits => (⟨second, waits⟩ : WaitingRing actors α)) same

theorem looped_others (waiting : WaitingRing actors α) {actor : Fin actors}
    (others : ∀ other, other ≠ actor → waiting.waits other = none) (busy : BusyRing actors α)
    (wait : Option (Wait α)) (other : Fin actors) (different : other ≠ actor) :
    (waiting.looped actor busy wait).waits other = none :=
  (looped_waits_other _ _ _ different).trans (others other different)

theorem run_of_finishes (waiting : WaitingRing actors α) (clock : Clock) {actor : Fin actors}
    {errand : Errand α} {deadline : Option Nat} {after : BusyRing actors α} {order : RingOrder α}
    {receipt : RingReceipt α}
    (within : waiting.waits actor = some ⟨errand, deadline, .attempting⟩)
    (finishes : Finishes actor waiting.busy after (.moved actor order receipt)) :
    ∃ acts, waiting.run clock acts =
      match errand.afterAttempt receipt with
      | .running errand => (waiting.looped actor after (some ⟨errand, deadline, .refused⟩),
          [.reported (.moved actor order receipt)])
      | .returned answer => (waiting.looped actor after none,
          [.reported (.moved actor order receipt), .answered actor answer]) := by
  generalize started : waiting.busy = busy at finishes
  generalize told : RingReport.moved actor order receipt = report at finishes
  induction finishes generalizing waiting with
  | last made =>
      subst started
      subst told
      refine ⟨[.advance actor false 0], ?_⟩
      simp only [run, next, within, stepWait, made]
      cases errand.afterAttempt receipt <;> rfl
  | step made finishes inductionHypothesis =>
      subst started
      obtain ⟨acts, rest⟩ := inductionHypothesis
        (waiting.looped actor _ (some ⟨errand, deadline, .attempting⟩))
        (looped_waits_self _ _ _ _) rfl told
      refine ⟨.advance actor false 0 :: acts, ?_⟩
      simp only [run, next, within, stepWait, made, List.nil_append, looped_looped] at rest ⊢
      rw [rest]

/-- On a ring at rest, an attempt comes to what its order comes to at once. -/
theorem attemptsAlone (waiting : WaitingRing actors α) (quiet : waiting.busy.Quiet)
    {actor : Fin actors} {errand : Errand α} {deadline : Option Nat}
    (ready : waiting.waits actor = some ⟨errand, deadline, .ready⟩) {changed : Ring α}
    {receipt : RingReceipt α}
    (attempt : waiting.busy.ring.fulfil errand.order false = (changed, receipt)) :
    ∃ acts after, after.Quiet ∧ after.ring = changed ∧ waiting.run clock acts =
      match errand.afterAttempt receipt with
      | .running errand' => (waiting.looped actor after (some ⟨errand', deadline, .refused⟩),
          [.reported (.moved actor errand.order receipt)])
      | .returned answer => (waiting.looped actor after none,
          [.reported (.moved actor errand.order receipt), .answered actor answer]) := by
  let claimer := waiting.busy.turned actor
    (some ⟨.claim (Claim.start waiting.busy.system.core
      (errand.order.request waiting.busy.policy false)), waiting.busy.system.totals⟩)
    (some (.transfer ⟨errand.order, false, .claiming⟩))
  have starts : waiting.busy.next (.start actor errand.order false) = (claimer, none) :=
    BusyRing.next_start (quiet.idle actor) (quiet.free actor) false errand.asks
  have ends : Ends claimer actor (waiting.busy.ring.fulfil errand.order false).1.core
      (.moved actor errand.order (waiting.busy.ring.fulfil errand.order false).2) :=
    Ends.claiming quiet.rest errand.asks (BusyRing.turned_tasks_self _ _ _ _)
      (RingSystem.setCall_calls_self _ _ _)
  obtain ⟨after, finishes, leaves⟩ := ends
  have whole : Leaves actor waiting.busy after
      (waiting.busy.ring.fulfil errand.order false).1.core :=
    Ends.leaves_of_worked (fun _ different => RingSystem.setCall_calls_other _ _ different) leaves
  have rest : (waiting.busy.ring.fulfil errand.order false).1.core.AtRest :=
    Ring.fulfil_atRest quiet.rest errand.order false
  have memory : after.ring = changed := by
    rw [whole.ring, ← Ring.fulfil_memory, attempt]
  rw [attempt] at finishes
  obtain ⟨acts, run⟩ := (waiting.looped actor claimer (some ⟨errand, deadline, .attempting⟩)
    ).run_of_finishes clock (looped_waits_self _ _ _ _) finishes
  refine ⟨.advance actor false 0 :: acts, after, quiet.of_leaves rest whole, memory, ?_⟩
  simp only [WaitingRing.run, next, ready, stepWait, starts, List.nil_append, run, looped_looped]

/-- What a blocking operation comes to that makes some acts and no more. -/
def Blocks (waiting : WaitingRing actors α) (clock : Clock) (actor : Fin actors) (final : Ring α)
    (answer : WaitAnswer α) : Prop :=
  ∃ acts, (waiting.run clock acts).1.busy.ring = final ∧
    (waiting.run clock acts).1.waits actor = none ∧
    .answered actor answer ∈ (waiting.run clock acts).2

theorem Blocks.after {waiting later : WaitingRing actors α} {actor : Fin actors} {final : Ring α}
    {answer : WaitAnswer α} {acts : List (WaitAct actors α)}
    (leads : (waiting.run clock acts).1 = later) (blocks : later.Blocks clock actor final answer) :
    waiting.Blocks clock actor final answer := by
  obtain ⟨more, ring, freed, told⟩ := blocks
  refine ⟨acts ++ more, ?_⟩
  rw [run_append, leads]
  exact ⟨ring, freed, List.mem_append_right _ told⟩

/-- An attempt that succeeds is the last. -/
theorem blocks_of_success (waiting : WaitingRing actors α) (quiet : waiting.busy.Quiet)
    {actor : Fin actors} {errand : Errand α} {deadline : Option Nat}
    (ready : waiting.waits actor = some ⟨errand, deadline, .ready⟩) {changed : Ring α} {item : α}
    (attempt : waiting.busy.ring.fulfil errand.order false = (changed, errand.success item)) :
    waiting.Blocks clock actor changed (errand.done item) := by
  obtain ⟨acts, after, -, ring, run⟩ := waiting.attemptsAlone quiet ready attempt
  rw [errand.afterAttempt_success] at run
  refine ⟨acts, ?_⟩
  rw [run]
  exact ⟨ring, looped_waits_self _ _ _ _, List.mem_cons_of_mem _ (List.mem_singleton.mpr rfl)⟩

theorem blocks_of_past (waiting : WaitingRing actors α) {actor : Fin actors} {errand : Errand α}
    {deadline : Option Nat}
    (refused : waiting.waits actor = some ⟨errand, deadline, .refused⟩) {reading : Nat}
    (past : deadlinePassed deadline reading = true) :
    waiting.Blocks clock actor waiting.busy.ring errand.givenUp := by
  refine ⟨[.advance actor false reading], ?_⟩
  simp only [WaitingRing.run, next, refused, stepWait, past, if_true]
  exact ⟨rfl, looped_waits_self _ _ _ _, by simp⟩

theorem pauses (waiting : WaitingRing actors α) (quiet : waiting.busy.Quiet) {actor : Fin actors}
    (others : ∀ other, other ≠ actor → waiting.waits other = none) {errand : Errand α}
    {deadline : Option Nat}
    (refused : waiting.waits actor = some ⟨errand, deadline, .refused⟩) (spell : Spell actors α)
    (foreign : ∀ order ∈ spell.orders, order.1 ≠ actor)
    (early : deadlinePassed deadline spell.reading = false) :
    ∃ acts busy,
      (waiting.run clock acts).1 = waiting.looped actor busy (some ⟨errand, deadline, .ready⟩) ∧
      busy.Quiet ∧ busy.ring = spell.pause.meanwhile waiting.busy.ring := by
  obtain ⟨acts, busy, made, quietLater, changed⟩ :=
    (waiting.looped actor waiting.busy (some ⟨errand, deadline, .ready⟩)).fulfilsAll quiet
      (waiting.looped_others others _ _) spell.orders foreign
  refine ⟨.advance actor false spell.reading :: acts, busy, ?_, quietLater, changed⟩
  simp only [WaitingRing.run, next, refused, stepWait, early, Bool.false_eq_true, if_false]
  exact made

/-- If others act in the pauses only, and let each attempt run to its end as their own operations
do, then the loop makes of the ring what the operation of one thread makes of it in these pauses,
and returns the same. -/
theorem blocks (waiting : WaitingRing actors α) (quiet : waiting.busy.Quiet) {actor : Fin actors}
    (others : ∀ other, other ≠ actor → waiting.waits other = none) {errand : Errand α}
    {deadline : Option Nat} (ready : waiting.waits actor = some ⟨errand, deadline, .ready⟩)
    (spells : List (Spell actors α))
    (foreign : ∀ spell ∈ spells, ∀ order ∈ spell.orders, order.1 ≠ actor) {final : Ring α}
    {answer : WaitAnswer α}
    (blocking : errand.blocking? waiting.busy.ring deadline (spells.map Spell.pause) =
      some (final, answer)) :
    waiting.Blocks clock actor final answer := by
  induction spells generalizing waiting with
  | nil =>
      rcases errand.blocking?_cases waiting.busy.ring deadline with
        ⟨changed, item, attempt, moved⟩ | ⟨-, still, -⟩
      · cases (moved _).symm.trans blocking
        exact waiting.blocks_of_success quiet ready attempt
      · cases still.symm.trans blocking
  | cons spell spells inductionHypothesis =>
      rcases errand.blocking?_cases waiting.busy.ring deadline with
        ⟨changed, item, attempt, moved⟩ | ⟨attempt, -, tests⟩
      · cases (moved _).symm.trans blocking
        exact waiting.blocks_of_success quiet ready attempt
      · obtain ⟨acts, after, quietAfter, ring, run⟩ :=
          waiting.attemptsAlone quiet ready attempt
        rw [errand.afterAttempt_refusal] at run
        refine Blocks.after (congrArg Prod.fst run) ?_
        have same : spell.pause.reading = spell.reading := rfl
        rw [List.map_cons, tests, same] at blocking
        have refused : (waiting.looped actor after (some ⟨errand, deadline, .refused⟩)).waits
            actor = some ⟨errand, deadline, .refused⟩ := looped_waits_self _ _ _ _
        cases past : deadlinePassed deadline spell.reading with
        | true =>
            rw [if_pos past] at blocking
            cases blocking
            rw [← ring]
            exact blocks_of_past _ refused past
        | false =>
            rw [past, if_neg Bool.false_ne_true, ← ring] at blocking
            obtain ⟨more, busy, made, quietLater, changed⟩ := pauses _ quietAfter
              (waiting.looped_others others _ _) refused spell (foreign spell List.mem_cons_self)
              past
            rw [looped_looped] at made
            refine Blocks.after made (inductionHypothesis _ quietLater
              (waiting.looped_others others _ _) (looped_waits_self _ _ _ _)
              (fun later listed => foreign later (List.mem_cons_of_mem _ listed)) ?_)
            rw [looped_busy, changed]
            exact blocking

end WaitingRing

end RingPool

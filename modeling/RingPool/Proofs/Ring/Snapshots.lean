import RingPool.Proofs.Ring.Transfers
import RingPool.Proofs.Ring.Coherence
import RingPool.Ring.Operations

/-!
# What a count of a busy ring says

A count loads the consumers' tail first and the producers' tail later, and others go on in
between.  Tails only move forward (`Coherent.publishedOn_le_run`), and fewer slots are published
during one count than would bring a tail round (`Dated` says since when).  So the two tails are as
far apart as what was committed at the first load and what producers have published since
(`counts_never_fall_short`).  The count may be too high for either instant and is never too low,
and the space that is reckoned from it may be too low and is never too high.
-/

set_option autoImplicit false

namespace RingPool

open Grant

variable {actors : Nat} {α : Type} {origin : Cursor}

/-- The entries between the tails. -/
def Core.backlog (core : Core α) : UInt32 := core.producer.tail - core.consumer.tail

def Capacity.spaceBeside (capacity : Capacity) (count : UInt32) : UInt32 := capacity.mask - count

theorem Ring.gauges_eq (ring : Ring α) :
    ring.availSpace = ring.core.capacity.spaceBeside ring.count ∧
      ring.isEmpty = (ring.count == 0) :=
  ⟨rfl, rfl⟩

/-! ## Tails move forward -/

namespace Coherent

variable {system : RingSystem actors α}

theorem publishedOn_le_next (coherent : Coherent origin system) (move : RingMove actors α)
    (side : Side) :
    publishedOn side system.grants ≤ publishedOn side (system.next move).1.grants := by
  have effect := system.effect_of_next move
  generalize (system.next move).1 = after at effect ⊢
  generalize (system.next move).2 = event at effect
  cases effect with
  | claimGranted actor refused claim since offer within bidding unopposed =>
      exact le_of_eq (publishedOn_granted side system.grants rfl).symm
  | publicationSettles actor refused index publication since within settling =>
      obtain ⟨granted, facts⟩ := coherent.publicationFacts within
      obtain ⟨before, after, split, rfl⟩ := split_of_getElem? facts.found
      rw [RingSystem.setCall_grants, RingSystem.published_grants split, split,
        publishedOn_settle side before after facts.waiting]
      exact Nat.le_add_right _ _
  | writes actor index offset value granted found =>
      obtain ⟨before, after, split, rfl⟩ := split_of_getElem? found
      rw [RingSystem.accessed_grants split, split, publishedOn_accessed]
  | reads actor index offset granted found =>
      obtain ⟨before, after, split, rfl⟩ := split_of_getElem? found
      rw [RingSystem.accessed_grants split, split, publishedOn_accessed]
  | stay | claimStarts | publicationStarts | censusStarts | claimShort | claimOffered
  | claimOutrun | publicationReady | publicationWaits | publicationPauses | censusLooks
  | censusCounts => exact le_refl _

theorem publishedOn_le_run (coherent : Coherent origin system) (window : system.WithinWindow)
    (moves : List (RingMove actors α)) (orderly : system.Orderly moves)
    (windowed : system.Windowed moves) (side : Side) :
    publishedOn side system.grants ≤ publishedOn side (system.run moves).1.grants := by
  induction moves generalizing system with
  | nil => exact le_refl _
  | cons move moves inductionHypothesis =>
      obtain ⟨permitted, orderlyRest⟩ := orderly
      obtain ⟨windowNext, windowedRest⟩ := windowed
      exact (coherent.publishedOn_le_next move side).trans (inductionHypothesis
        (coherent.next window move permitted) windowNext orderlyRest windowedRest)

/-- What is committed is what producers have published and consumers have not released. -/
theorem backlog_toNat (coherent : Coherent origin system) :
    system.core.backlog.toNat =
      publishedOn .producer system.grants - publishedOn .consumer system.grants := by
  have order := coherent.layout.ordered
  have small := system.core.capacity.size_lt_wordSize
  have producers : system.core.producer.tail = _ := coherent.layout.tail_eq .producer
  have consumers : system.core.consumer.tail = _ := coherent.layout.tail_eq .consumer
  rw [Core.backlog, producers, consumers, cursorAt_sub_toNat origin (by omega) (by omega)]

end Coherent

/-! ## A count in progress -/

namespace RingSystem

variable {system : RingSystem actors α} {actor : Fin actors}

instance (totals : SlotTotals) : DecidablePred (ActiveCall.CountWithinWindow totals)
  | ⟨.census _, since⟩ =>
      decidable_of_iff
        (totals.published .producer < since.published .producer + windowSize ∧
          totals.published .consumer < since.published .consumer + windowSize)
        ⟨fun ⟨producers, consumers⟩ side => by cases side <;> assumption,
          fun both => ⟨both .producer, both .consumer⟩⟩
  | ⟨.claim _, _⟩ | ⟨.publish _ _, _⟩ => inferInstanceAs (Decidable True)

instance : DecidablePred (@CountsWithinWindow actors α) :=
  fun _ => inferInstanceAs (Decidable (∀ _, ∀ _ ∈ _, _))

/-- No call in progress began after more was published than is now. -/
def Dated (system : RingSystem actors α) : Prop :=
  ∀ actor active, system.calls actor = some active →
    ∀ side, active.since.published side ≤ publishedOn side system.grants

theorem Dated.start (capacity : Capacity) (blank : α) (origin : Cursor) :
    (start capacity blank origin : RingSystem actors α).Dated := by
  intro actor active within
  cases within

theorem since_of_next {move : RingMove actors α} {active : ActiveCall}
    (within : (system.next move).1.calls actor = some active) :
    (∃ earlier, system.calls actor = some earlier ∧ earlier.since = active.since) ∨
      active.since = system.totals := by
  by_cases mine : move.mover = actor
  case neg =>
    rw [calls_next_other mine] at within
    exact Or.inl ⟨active, within, rfl⟩
  case pos =>
  subst mine
  have effect := system.effect_of_next move
  generalize (system.next move).1 = after at effect within
  generalize (system.next move).2 = event at effect
  cases effect with
  | stay | writes | reads => exact Or.inl ⟨active, within, rfl⟩
  | claimStarts | publicationStarts | censusStarts =>
      cases (setCall_calls_self _ _ _).symm.trans within
      exact Or.inr rfl
  | claimOffered mover refused claim since head offer calling
  | claimOutrun mover refused claim since offer calling
  | publicationReady mover refused grant publication since calling
  | publicationWaits mover refused grant publication since calling
  | publicationPauses mover refused grant publication since calling
  | censusLooks mover refused since calling =>
      cases (setCall_calls_self _ _ _).symm.trans within
      exact Or.inl ⟨_, calling, rfl⟩
  | claimShort | claimGranted | publicationSettles | censusCounts =>
      cases (setCall_calls_self _ _ _).symm.trans within

theorem Dated.run (dated : Dated system) (coherent : Coherent origin system)
    (window : system.WithinWindow) (moves : List (RingMove actors α))
    (orderly : system.Orderly moves) (windowed : system.Windowed moves) :
    Dated (system.run moves).1 := by
  induction moves generalizing system with
  | nil => exact dated
  | cons move moves inductionHypothesis =>
      obtain ⟨permitted, orderlyRest⟩ := orderly
      obtain ⟨windowNext, windowedRest⟩ := windowed
      refine inductionHypothesis ?_ (coherent.next window move permitted) windowNext orderlyRest
        windowedRest
      intro actor active within side
      refine le_trans ?_ (coherent.publishedOn_le_next move side)
      rcases since_of_next within with ⟨earlier, before, same⟩ | now
      · rw [← same]
        exact dated actor earlier before side
      · rw [now]
        exact le_refl _

theorem census_goesOn {tail : Cursor} {since : SlotTotals}
    (within : system.calls actor = some ⟨.census (.seen tail), since⟩) {move : RingMove actors α}
    (stays : (system.next move).1.calls actor ≠ none) :
    (system.next move).1.calls actor = some ⟨.census (.seen tail), since⟩ := by
  by_cases mine : move.mover = actor
  case neg => rwa [calls_next_other mine]
  case pos =>
  subst mine
  have effect := system.effect_of_next move
  generalize (system.next move).1 = after at effect stays ⊢
  generalize (system.next move).2 = event at effect
  cases effect with
  | stay | writes | reads => exact within
  | claimStarts mover request free => cases within.symm.trans free
  | publicationStarts mover grant exclusive granted free => cases within.symm.trans free
  | censusStarts mover free => cases within.symm.trans free
  | claimOffered mover refused claim started head offer calling
  | claimOutrun mover refused claim started offer calling
  | publicationReady mover refused grant publication started calling
  | publicationWaits mover refused grant publication started calling
  | publicationPauses mover refused grant publication started calling
  | censusLooks mover refused started calling => cases within.symm.trans calling
  | claimShort | claimGranted | publicationSettles | censusCounts =>
      exact absurd (setCall_calls_self _ _ _) stays

theorem census_goesOn_run {tail : Cursor} {since : SlotTotals}
    (within : system.calls actor = some ⟨.census (.seen tail), since⟩)
    {moves : List (RingMove actors α)}
    (stays : system.Throughout (fun system => system.calls actor ≠ none) moves) :
    (system.run moves).1.calls actor = some ⟨.census (.seen tail), since⟩ := by
  induction moves generalizing system with
  | nil => exact within
  | cons move moves inductionHypothesis =>
      exact inductionHypothesis (census_goesOn within stays.1) stays.2

theorem Throughout.last {property : RingSystem actors α → Prop} (holds : property system)
    {moves : List (RingMove actors α)} (throughout : system.Throughout property moves) :
    property (system.run moves).1 := by
  induction moves generalizing system with
  | nil => exact holds
  | cons move moves inductionHypothesis => exact inductionHypothesis throughout.1 throughout.2

theorem next_census_looks {since : SlotTotals}
    (within : system.calls actor = some ⟨.census .start, since⟩) (refused : Bool) :
    (system.next (.advance actor refused)).1 = system.setCall actor
      (some ⟨.census (.seen system.core.consumer.tail), since⟩) := by
  simp only [next, within, Census.step, settle]

theorem next_census_counts {tail : Cursor} {since : SlotTotals}
    (within : system.calls actor = some ⟨.census (.seen tail), since⟩) (refused : Bool) :
    system.next (.advance actor refused) = (system.setCall actor none,
      some (.counted (min (system.core.producer.tail - tail) system.core.capacity.mask))) := by
  simp only [next, within, Census.step, settle]

end RingSystem

/-- The count that an operation returns is that of its last step on the memory. -/
theorem BusyRing.counted_of_next {busy : BusyRing actors α} {actor : Fin actors} {refused : Bool}
    {count : UInt32} (counting : busy.tasks actor = some .counting)
    (counted : (busy.system.next (.advance actor refused)).2 = some (.counted count)) :
    (busy.next (.advance actor refused)).2 = some (.counted actor count) := by
  rw [next, counting]
  generalize busy.system.next (.advance actor refused) = step at counted ⊢
  obtain ⟨after, event⟩ := step
  cases counted
  rfl

/-! ## What a count returns -/

/-- Two tails that are loaded one after the other are apart by what was committed at first and
what was published since. -/
theorem Coherent.snapshot_toNat {first reached : RingSystem actors α}
    (atFirst : Coherent origin first) (atReached : Coherent origin reached)
    (grew : publishedOn .producer first.grants ≤ publishedOn .producer reached.grants)
    (near : publishedOn .producer reached.grants <
      publishedOn .producer first.grants + windowSize) :
    (reached.core.producer.tail - first.core.consumer.tail).toNat =
      first.core.backlog.toNat +
        (publishedOn .producer reached.grants - publishedOn .producer first.grants) := by
  have order := atFirst.layout.ordered
  have small := first.core.capacity.size_le_maxCapacity
  have halves : maxCapacity + windowSize ≤ UInt32.size := by decide
  have producers : reached.core.producer.tail = _ := atReached.layout.tail_eq .producer
  have consumers : first.core.consumer.tail = _ := atFirst.layout.tail_eq .consumer
  rw [producers, consumers, cursorAt_sub_toNat origin (by omega) (by omega),
    atFirst.backlog_toNat]
  omega

theorem Coherent.backlog_le {first reached : RingSystem actors α}
    (atFirst : Coherent origin first) (atReached : Coherent origin reached)
    (released : publishedOn .consumer first.grants ≤ publishedOn .consumer reached.grants) :
    reached.core.backlog.toNat ≤ first.core.backlog.toNat +
      (publishedOn .producer reached.grants - publishedOn .producer first.grants) := by
  have order := atFirst.layout.ordered
  rw [atFirst.backlog_toNat, atReached.backlog_toNat]
  omega

theorem Coherent.backlog_le_mask {system : RingSystem actors α}
    (coherent : Coherent origin system) :
    system.core.backlog.toNat ≤ system.core.capacity.mask.toNat := by
  have order := coherent.layout.ordered
  rw [coherent.backlog_toNat, Capacity.mask_toNat]
  omega

/-- What a count says of the instants of its two loads, between which producers published so
many slots.  It is exact but for the limit; it is too low for neither instant, and the space that
is reckoned from it too high for neither. -/
structure Snapshot (capacity : Capacity) (first last : Core α) (published : Nat)
    (count : UInt32) : Prop where
  exact : count.toNat = min capacity.mask.toNat (first.backlog.toNat + published)
  coversFirst : first.backlog ≤ count
  coversLast : last.backlog ≤ count
  bounded : count ≤ capacity.mask
  space : (capacity.spaceBeside count).toNat = capacity.mask.toNat - count.toNat
  spaceAtFirst : (capacity.spaceBeside count).toNat ≤ capacity.mask.toNat - first.backlog.toNat
  spaceAtLast : (capacity.spaceBeside count).toNat ≤ capacity.mask.toNat - last.backlog.toNat
  empty : (count == 0) = true ↔ first.backlog = 0 ∧ published = 0

theorem Snapshot.of_toNat {capacity : Capacity} {first last : Core α} {published : Nat}
    {count : UInt32}
    (counted : count.toNat = min capacity.mask.toNat (first.backlog.toNat + published))
    (firstFits : first.backlog.toNat ≤ capacity.mask.toNat)
    (lastFits : last.backlog.toNat ≤ capacity.mask.toNat)
    (grew : last.backlog.toNat ≤ first.backlog.toNat + published) :
    Snapshot capacity first last published count := by
  have size := capacity.two_le_size
  have mask := capacity.mask_toNat
  have bounded : count ≤ capacity.mask := by
    rw [UInt32.le_iff_toNat_le]
    omega
  have space : (capacity.spaceBeside count).toNat = capacity.mask.toNat - count.toNat :=
    UInt32.toNat_sub_of_le _ _ bounded
  have zero (word : UInt32) : word = 0 ↔ word.toNat = 0 := by
    rw [← UInt32.toNat_inj, UInt32.toNat_zero]
  constructor
  case exact => exact counted
  case coversFirst =>
    rw [UInt32.le_iff_toNat_le]
    omega
  case coversLast =>
    rw [UInt32.le_iff_toNat_le]
    omega
  case bounded => exact bounded
  case space => exact space
  case spaceAtFirst => omega
  case spaceAtLast => omega
  case empty =>
    rw [beq_iff_eq, zero, zero]
    omega

theorem Coherent.snapshot {first reached : RingSystem actors α} (atFirst : Coherent origin first)
    (atReached : Coherent origin reached)
    (same : reached.core.capacity = first.core.capacity)
    (grew : ∀ side, publishedOn side first.grants ≤ publishedOn side reached.grants)
    (near : publishedOn .producer reached.grants <
      publishedOn .producer first.grants + windowSize) :
    Snapshot first.core.capacity first.core reached.core
      (publishedOn .producer reached.grants - publishedOn .producer first.grants)
      (min (reached.core.producer.tail - first.core.consumer.tail) first.core.capacity.mask) := by
  apply Snapshot.of_toNat
  case counted =>
    rw [UInt32.toNat_min, atFirst.snapshot_toNat atReached (grew .producer) near, Nat.min_comm]
  case firstFits => exact atFirst.backlog_le_mask
  case lastFits =>
    rw [← same]
    exact atReached.backlog_le_mask
  case grew => exact atFirst.backlog_le atReached (grew .consumer)

/-- A count, whatever others do between its loads, returns what is committed at its first load and
what producers publish until its second, kept to what the ring can hold. -/
theorem counts_never_fall_short (capacity : Capacity) (blank : α) (origin : Cursor)
    (before between : List (RingMove actors α)) (actor : Fin actors) (refused : Bool)
    (orderly : (RingSystem.start capacity blank origin).Orderly
      (before ++ .advance actor refused :: between))
    (windowed : (RingSystem.start capacity blank origin).Windowed
      (before ++ .advance actor refused :: between))
    (inTime : (RingSystem.start capacity blank origin).Throughout RingSystem.CountsWithinWindow
      (before ++ .advance actor refused :: between))
    {first looked reached : RingSystem actors α} {since : SlotTotals}
    (begins : ((RingSystem.start capacity blank origin).run before).1 = first)
    (counting : first.calls actor = some ⟨.census .start, since⟩)
    (looks : (first.next (.advance actor refused)).1 = looked)
    (stays : looked.Throughout (fun system => system.calls actor ≠ none) between)
    (ends : (looked.run between).1 = reached) (again : Bool) :
    first.totals.published .producer ≤ reached.totals.published .producer ∧
      ∃ count, (reached.next (.advance actor again)).2 = some (.counted count) ∧
        (∀ busy : BusyRing actors α, busy.system = reached →
          busy.tasks actor = some .counting →
          (busy.next (.advance actor again)).2 = some (.counted actor count)) ∧
        (∀ ring : Ring α, ring.core.capacity = capacity → ring.count = count →
          ring.availSpace = capacity.spaceBeside count ∧ ring.isEmpty = (count == 0)) ∧
        Snapshot capacity first.core reached.core
          (reached.totals.published .producer - first.totals.published .producer) count := by
  obtain ⟨orderlyBefore, -, orderlyBetween⟩ := (RingSystem.keeps_append _).mp orderly
  obtain ⟨windowedBefore, windowLooked, windowedBetween⟩ :=
    (RingSystem.throughout_append _).mp windowed
  obtain ⟨-, inTimeLooked, inTimeBetween⟩ := (RingSystem.throughout_append _).mp inTime
  rw [begins, looks] at orderlyBetween windowLooked windowedBetween inTimeLooked inTimeBetween
  have starts : Coherent origin (@RingSystem.start actors α capacity blank origin) :=
    Coherent.start capacity blank origin
  have atFirst := coherent_of_run capacity blank origin before orderlyBefore windowedBefore
  have dated := (RingSystem.Dated.start capacity blank origin).run starts
    (withinWindow_start capacity blank origin) before orderlyBefore windowedBefore
  have sameFirst : _ = capacity :=
    (@RingSystem.start actors α capacity blank origin).capacity_run before
  rw [begins] at atFirst dated sameFirst
  have seen : looked = first.setCall actor
      (some ⟨.census (.seen first.core.consumer.tail), since⟩) :=
    looks.symm.trans (RingSystem.next_census_looks counting refused)
  have within : looked.calls actor =
      some ⟨.census (.seen first.core.consumer.tail), since⟩ := by
    rw [seen]
    exact RingSystem.setCall_calls_self _ _ _
  have atLooked : Coherent origin looked := by
    rw [seen]
    exact atFirst.counts actor _ since
  have grew := atLooked.publishedOn_le_run windowLooked between orderlyBetween windowedBetween
  have atReached := (atLooked.run windowLooked between orderlyBetween windowedBetween).1
  have withinLast := RingSystem.census_goesOn_run within stays
  have inTimeLast := RingSystem.Throughout.last inTimeLooked inTimeBetween
  have sameReached := looked.capacity_run between
  rw [ends] at grew atReached withinLast inTimeLast sameReached
  rw [seen, RingSystem.setCall_core] at sameReached
  rw [seen] at grew
  -- The call began before the first load, and is within the window at the second.
  have near : publishedOn .producer reached.grants <
      publishedOn .producer first.grants + windowSize :=
    lt_of_lt_of_le (inTimeLast actor _ withinLast .producer)
      (Nat.add_le_add_right (dated actor _ counting .producer) _)
  have counted := congrArg Prod.snd (RingSystem.next_census_counts withinLast again)
  have snapshot := atFirst.snapshot atReached sameReached grew near
  rw [sameReached, sameFirst] at counted
  rw [sameFirst] at snapshot
  refine ⟨grew .producer, _, counted, ?busy, ?gauges, snapshot⟩
  case busy =>
    rintro busy rfl task
    exact BusyRing.counted_of_next task counted
  case gauges =>
    rintro ring rfl same
    rw [← same]
    exact ring.gauges_eq

/-- A consumer counts while a second producer passes an entry that is not there at the first
load: a ring with one entry is taken for one with two. -/
def countedMoves : List (RingMove 3 Nat) :=
  RingSystem.passSlot .producer sampleProducer 0 5 ++ [.census sampleConsumer]

def passedMeanwhile : List (RingMove 3 Nat) := RingSystem.passSlot .producer sampleRival 1 6

theorem counts_never_fall_short_sample :
    let first := (sampleStart.run countedMoves).1
    let looked := (first.next (.advance sampleConsumer false)).1
    let reached := (looked.run passedMeanwhile).1
    first.core.backlog = 1 ∧
      ∃ count, (reached.next (.advance sampleConsumer false)).2 = some (.counted count) ∧
        Snapshot sampleCapacity first.core reached.core 1 count := by
  intro first looked reached
  have orderly : sampleStart.Orderly
      (countedMoves ++ .advance sampleConsumer false :: passedMeanwhile) := by
    decide +kernel
  have windowed : sampleStart.Windowed
      (countedMoves ++ .advance sampleConsumer false :: passedMeanwhile) := by
    decide +kernel
  have inTime : sampleStart.Throughout RingSystem.CountsWithinWindow
      (countedMoves ++ .advance sampleConsumer false :: passedMeanwhile) := by
    decide +kernel
  have begins : ((RingSystem.start sampleCapacity 0 0xFFFFFFFE).run countedMoves).1 = first := rfl
  have looks : (first.next (.advance sampleConsumer false)).1 = looked := rfl
  have ends : (looked.run passedMeanwhile).1 = reached := rfl
  have counting : first.calls sampleConsumer = some ⟨.census .start, first.totals⟩ := rfl
  have stays : looked.Throughout (fun system => system.calls sampleConsumer ≠ none)
      passedMeanwhile := by
    decide +kernel
  have passed : reached.totals.published .producer - first.totals.published .producer = 1 := by
    decide +kernel
  have one : first.core.backlog = 1 := by decide +kernel
  clear_value reached looked first
  obtain ⟨-, count, counted, -, -, snapshot⟩ := counts_never_fall_short sampleCapacity 0 0xFFFFFFFE
    countedMoves passedMeanwhile sampleConsumer false orderly windowed inTime begins counting looks
    stays ends false
  rw [passed] at snapshot
  exact ⟨one, count, counted, snapshot⟩

end RingPool

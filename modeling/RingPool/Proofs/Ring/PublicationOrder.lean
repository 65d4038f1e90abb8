import RingPool.Proofs.Ring.Coherence

/-!
# Publication follows the order of the grants

The grants of a side that wait to be published lead from its tail to its head in
the order in which they were granted.  So the tail is at the start of the oldest
of them and of no other, a publication that waits goes on just when its grant is
the oldest, and the tail takes the ends of the grants one after the other
(`tailTrace`), without a gap and without going back.
-/

set_option autoImplicit false

namespace RingPool

open Grant

variable {actors : Nat} {α : Type} {origin : Cursor}

def RingSystem.tailTrace (side : Side) (system : RingSystem actors α) :
    List (RingMove actors α) → List Cursor
  | [] => []
  | move :: moves =>
      let after := (system.next move).1
      let tail := (after.core.cursors side).tail
      if tail = (system.core.cursors side).tail then after.tailTrace side moves
      else tail :: after.tailTrace side moves

def Grant.publishedEnds (side : Side) (grants : List (Grant α)) : List Cursor :=
  (settledOn side grants).map fun grant => grant.reservation.next

/-! ## The oldest grant that waits -/

namespace Layout

variable {core : Core α} {grants : List (Grant α)}

theorem next_ne_head (layout : Layout origin core grants) {grant : Grant α}
    (member : grant ∈ grants) : grant.reservation.next ≠ grant.reservation.head := by
  intro same
  obtain ⟨positive, bound⟩ := layout.sized grant member
  have small := core.capacity.size_lt_wordSize
  rw [next_eq_cursorAt] at same
  have none := cursorAt_injective grant.reservation.head (Nat.zero_le grant.size) (by omega)
    ((cursorAt_zero _).trans same.symm)
  omega

theorem totalSize_pendingOn (layout : Layout origin core grants) (side : Side) :
    totalSize (pendingOn side grants) =
      ((core.cursors side).head - (core.cursors side).tail).toNat := by
  have near := layout.reserved_near_published side
  have small := core.capacity.size_lt_wordSize
  have parts := reservedOn_eq_add side grants
  rw [layout.head_eq, layout.tail_eq, cursorAt_sub_toNat origin (by omega) (by omega)]
  omega

theorem due_iff_oldest (layout : Layout origin core grants) {side : Side} {position : Nat}
    {grant : Grant α} (found : (pendingOn side grants)[position]? = some grant) :
    (core.cursors side).tail = grant.reservation.head ↔ position = 0 := by
  obtain ⟨older, newer, split, rfl⟩ := split_of_getElem? found
  have tiles := layout.pendingTiles side
  rw [split] at tiles
  rw [tiles_head tiles]
  constructor
  · intro due
    -- The older grants fill less than a capacity, so their end is not their start.
    have near := layout.reserved_near_published side
    have small := core.capacity.size_lt_wordSize
    have parts := reservedOn_eq_add side grants
    rw [split, totalSize_append] at parts
    have empty := cursorAt_injective (core.cursors side).tail (Nat.zero_le (totalSize older))
      (by omega) ((cursorAt_zero _).trans due)
    have noOlder : older = [] := by
      refine eq_nil_of_totalSize_eq_zero ?_ empty.symm
      intro earlier inside
      have waits : earlier ∈ pendingOn side grants := by
        rw [split]
        exact List.mem_append_left _ inside
      exact (layout.sized earlier (mem_pendingOn.mp waits).1).1
    rw [noOlder, List.length_nil]
  · intro first
    rw [List.length_eq_zero_iff.mp first, totalSize_nil, cursorAt_zero]

end Layout

/-- A publication goes on to store the tail just when its grant is the oldest of
those that wait. -/
theorem Coherent.publication_turn {system : RingSystem actors α}
    (coherent : Coherent origin system) {actor : Fin actors} {index : Nat}
    {publication : Publication} {since : SlotTotals}
    (within : system.calls actor = some ⟨.publish index publication, since⟩) :
    ∃ granted, system.grants[index]? = some granted ∧
      granted.reservation = publication.reservation ∧
      granted ∈ pendingOn publication.reservation.side system.grants ∧
      (publication.phase = .settle →
        (pendingOn publication.reservation.side system.grants)[0]? = some granted) ∧
      (publication.phase = .check → ∀ refused,
        (system.next (.advance actor refused)).1.calls actor =
            some ⟨.publish index { publication with phase := .settle }, since⟩ ↔
          (pendingOn publication.reservation.side system.grants)[0]? = some granted) := by
  obtain ⟨granted, facts⟩ := coherent.publicationFacts within
  have waits : granted ∈ pendingOn publication.reservation.side system.grants := by
    rw [facts.reservation]
    exact mem_pendingOn.mpr ⟨List.mem_of_getElem? facts.found, rfl, facts.waiting⟩
  obtain ⟨position, place⟩ := List.mem_iff_getElem?.mp waits
  have turn := coherent.layout.due_iff_oldest place
  have oldest : (system.core.cursors publication.reservation.side).tail =
      granted.reservation.head ↔
        (pendingOn publication.reservation.side system.grants)[0]? = some granted := by
    constructor
    · intro due
      rw [turn.mp due] at place
      exact place
    · intro first
      exact (coherent.layout.due_iff_oldest first).mpr rfl
  refine ⟨granted, facts.found, facts.reservation.symm, waits, ?_, ?_⟩
  · intro settling
    rw [← oldest, facts.reservation]
    exact facts.due settling
  · intro checking refused
    rw [← oldest, ← facts.reservation]
    by_cases due : (system.core.cursors publication.reservation.side).tail =
        publication.reservation.head
    · simp [RingSystem.next, within, Publication.step, checking, RingSystem.settle, due]
    · simp [RingSystem.next, within, Publication.step, checking, RingSystem.settle, due]

/-! ## The values of a tail -/

theorem Grant.publishedEnds_append (side : Side) (first second : List (Grant α)) :
    publishedEnds side (first ++ second) =
      publishedEnds side first ++ publishedEnds side second := by
  simp [publishedEnds]

theorem Grant.publishedEnds_cons (side : Side) (grant : Grant α) (rest : List (Grant α)) :
    publishedEnds side (grant :: rest) =
      (if grant.reservation.side = side ∧ grant.published = true then [grant.reservation.next]
        else []) ++ publishedEnds side rest := by
  unfold publishedEnds
  rw [settledOn_cons]
  split <;> simp

theorem Grant.publishedEnds_accessed (side : Side) (before after : List (Grant α))
    (grant : Grant α) (offset : Nat) (value : α) :
    publishedEnds side (before ++ grant.accessed offset value :: after) =
      publishedEnds side (before ++ grant :: after) := by
  rw [publishedEnds_append, publishedEnds_append, publishedEnds_cons, publishedEnds_cons]
  rfl

/-- The end of the oldest grant that waits comes after those of the published. -/
theorem Layout.publishedEnds_settle {core : Core α} {before after : List (Grant α)}
    {grant : Grant α} (layout : Layout origin core (before ++ grant :: after))
    (waiting : grant.published = false) (side : Side) :
    publishedEnds side (before ++ grant.settle :: after) =
      publishedEnds side (before ++ grant :: after) ++
        if grant.reservation.side = side then [grant.reservation.next] else [] := by
  rw [publishedEnds_append, publishedEnds_append, publishedEnds_cons, publishedEnds_cons]
  by_cases same : grant.reservation.side = side
  · subst side
    have none : publishedEnds grant.reservation.side after = [] := by
      rw [publishedEnds, layout.settledOn_after_eq_nil waiting, List.map_nil]
    simp [waiting, none]
  · simp [same]

/-- A move that changes a tail adds the new tail to the ends of what is published;
other moves leave these as they are. -/
theorem Coherent.publishedEnds_next {system : RingSystem actors α}
    (coherent : Coherent origin system) (move : RingMove actors α) (side : Side) :
    publishedEnds side (system.next move).1.grants =
      publishedEnds side system.grants ++
        if ((system.next move).1.core.cursors side).tail = (system.core.cursors side).tail then []
        else [((system.next move).1.core.cursors side).tail] := by
  have effect := system.effect_of_next move
  generalize (system.next move).1 = after at effect ⊢
  generalize (system.next move).2 = event at effect
  cases effect with
  | claimGranted actor refused claim since offer within bidding unopposed =>
      rw [RingSystem.setCall_core, RingSystem.setCall_grants, RingSystem.granted,
        Core.tail_setHead, if_pos rfl, List.append_nil, publishedEnds,
        settledOn_granted _ _ rfl, publishedEnds]
  | publicationSettles actor refused index publication since within settling =>
      obtain ⟨granted, facts⟩ := coherent.publicationFacts within
      obtain ⟨before, after, split, rfl⟩ := split_of_getElem? facts.found
      have layout := coherent.layout
      have forward := layout.next_ne_head (List.mem_of_getElem? facts.found)
      have due := facts.due settling
      rw [split] at layout
      rw [RingSystem.setCall_core, RingSystem.setCall_grants, RingSystem.published_grants split,
        RingSystem.published, facts.reservation, split, layout.publishedEnds_settle facts.waiting]
      by_cases same : granted.reservation.side = side
      · subst side
        rw [Core.cursors_setTail_self, due, if_pos rfl, if_neg forward]
      · rw [Core.cursors_setTail_other _ _ (Ne.symm same), if_neg same, if_pos rfl]
  | writes actor index offset value granted found =>
      obtain ⟨before, after, split, rfl⟩ := split_of_getElem? found
      rw [RingSystem.accessed_grants split, split, publishedEnds_accessed]
      simp [RingSystem.accessed]
  | reads actor index offset granted found =>
      obtain ⟨before, after, split, rfl⟩ := split_of_getElem? found
      rw [RingSystem.accessed_grants split, split, publishedEnds_accessed]
      simp [RingSystem.accessed]
  | stay | claimStarts | publicationStarts | censusStarts | claimShort | claimOffered
  | claimOutrun | publicationReady | publicationWaits | publicationPauses | censusLooks
  | censusCounts => simp

theorem Coherent.publishedEnds_run {system : RingSystem actors α}
    (coherent : Coherent origin system) (window : system.WithinWindow)
    (moves : List (RingMove actors α)) (orderly : system.Orderly moves)
    (windowed : system.Windowed moves) (side : Side) :
    publishedEnds side (system.run moves).1.grants =
      publishedEnds side system.grants ++ system.tailTrace side moves := by
  induction moves generalizing system with
  | nil => simp [RingSystem.run, RingSystem.tailTrace]
  | cons move moves inductionHypothesis =>
      obtain ⟨permitted, orderlyRest⟩ := orderly
      obtain ⟨windowNext, windowedRest⟩ := windowed
      have rest := inductionHypothesis (coherent.next window move permitted) windowNext
        orderlyRest windowedRest
      have first := coherent.publishedEnds_next move side
      rw [first] at rest
      rw [RingSystem.tailTrace]
      refine rest.trans ?_
      split <;> simp

/-- In every orderly run the grants of a side that wait fill the range from its
tail to its head.  A publication that stores the tail has the oldest of them, one that waits
goes on just when it has, and the tail is at the start of no other.  The tail has
taken the ends of the grants in their order, each of them further on. -/
theorem publication_follows_grant_order (capacity : Capacity) (blank : α) (origin : Cursor)
    (moves : List (RingMove actors α))
    (orderly : (RingSystem.start capacity blank origin).Orderly moves)
    (windowed : (RingSystem.start capacity blank origin).Windowed moves) (side : Side) :
    let start := RingSystem.start capacity blank origin
    let final := (start.run moves).1
    let cursors := final.core.cursors side
    let published := settledOn side final.grants
    let waiting := pendingOn side final.grants
    Tiles cursors.tail waiting cursors.head ∧
      totalSize waiting = (cursors.head - cursors.tail).toNat ∧
      (∀ actor index publication since,
        final.calls actor = some ⟨.publish index publication, since⟩ →
        publication.reservation.side = side →
        ∃ granted, final.grants[index]? = some granted ∧
          granted.reservation = publication.reservation ∧ granted ∈ waiting ∧
          (publication.phase = .settle → waiting[0]? = some granted) ∧
          (publication.phase = .check → ∀ refused,
            (final.next (.advance actor refused)).1.calls actor =
                some ⟨.publish index { publication with phase := .settle }, since⟩ ↔
              waiting[0]? = some granted)) ∧
      (∀ position granted, waiting[position]? = some granted →
        (cursors.tail = granted.reservation.head ↔ position = 0)) ∧
      onSide side final.grants = published ++ waiting ∧
      start.tailTrace side moves = published.map (fun grant => grant.reservation.next) ∧
      Tiles origin published cursors.tail ∧
      ∀ grant ∈ final.grants, 0 < grant.size ∧ grant.size ≤ capacity.mask.toNat := by
  intro start final cursors published waiting
  have coherent : Coherent origin final :=
    coherent_of_run capacity blank origin moves orderly windowed
  have layout := coherent.layout
  have trace := (Coherent.start capacity blank origin).publishedEnds_run
    (withinWindow_start capacity blank origin) moves orderly windowed side
  refine ⟨layout.pendingTiles side, layout.totalSize_pendingOn side, ?_,
    fun _ _ => layout.due_iff_oldest, layout.onSide_eq_append side, trace.symm,
    layout.settledTiles side, ?_⟩
  · rintro actor index publication since within rfl
    exact coherent.publication_turn within
  · intro grant member
    have sameCapacity : final.core.capacity = capacity := RingSystem.capacity_run _ moves
    obtain ⟨positive, bound⟩ := layout.sized grant member
    rw [sameCapacity] at bound
    rw [capacity.mask_toNat]
    omega

/-- In the sample run the producers' tail has wrapped to the end of the first
grant, and the second grant is due. -/
theorem publication_follows_grant_order_sample :
    sampleStart.Orderly sampleMoves ∧ sampleStart.Windowed sampleMoves ∧
      sampleStart.tailTrace .producer sampleMoves = [0] ∧
      (pendingOn .producer sampleEnd.grants).map (fun grant => grant.reservation.head) = [0] ∧
      Tiles (sampleEnd.core.cursors .producer).tail (pendingOn .producer sampleEnd.grants)
        (sampleEnd.core.cursors .producer).head :=
  ⟨sample_disciplined.orderly, sample_windowed, by decide +kernel, by decide +kernel,
    (publication_follows_grant_order sampleCapacity 0 0xFFFFFFFE sampleMoves
      sample_disciplined.orderly sample_windowed .producer).1⟩

end RingPool

import RingPool.Proofs.Ring.Contents
import RingPool.Proofs.Ring.Coherence

/-!
# What consumers read is what producers wrote

Under the whole discipline every slot of a reservation is accessed once before
the reservation is published (`Accounted`).  What a producer wrote then stays in
its slot until a consumer has released the slot, and what consumers read is, at
every position of their traffic, what producers wrote at the same position of
theirs (`Delivered`).  The positions in use lie within one capacity, so a write
meets no other position's slot.
-/

set_option autoImplicit false

namespace RingPool

open Grant

variable {actors : Nat} {α : Type} {origin : Cursor}

structure Accounted (system : RingSystem actors α) : Prop where
  once : ∀ grant ∈ system.grants, grant.AccessedOnce
  whole : ∀ grant ∈ system.grants, grant.published = true → grant.Complete
  ready : ∀ actor index publication since,
    system.calls actor = some ⟨.publish index publication, since⟩ →
      ∀ granted, system.grants[index]? = some granted → granted.Complete

/-- Written values stay until they are released, and read values were written. -/
structure Delivered (origin : Cursor) (system : RingSystem actors α) : Prop where
  kept : ∀ position value, Carries .producer system.grants position value →
    publishedOn .consumer system.grants ≤ position →
      system.core.read (cursorAt origin position) = value
  matched : ∀ position value, Carries .consumer system.grants position value →
    Carries .producer system.grants position value

/-! ## Slots are accessed once -/

namespace Accounted

variable {system : RingSystem actors α}

theorem start (capacity : Capacity) (blank : α) (origin : Cursor) :
    Accounted (RingSystem.start capacity blank origin : RingSystem actors α) where
  once := by
    intro grant member
    cases member
  whole := by
    intro grant member
    cases member
  ready := by
    intro actor index publication since within
    cases within

theorem setCall (accounted : Accounted system) (actor : Fin actors) {call : Option ActiveCall}
    (ready : ∀ index publication since, call = some ⟨.publish index publication, since⟩ →
      ∀ granted, system.grants[index]? = some granted → granted.Complete) :
    Accounted (system.setCall actor call) where
  once := accounted.once
  whole := accounted.whole
  ready := by
    intro other index publication since within granted found
    by_cases same : other = actor
    · subst other
      rw [RingSystem.setCall_calls_self] at within
      exact ready index publication since within granted found
    · rw [RingSystem.setCall_calls_other _ _ same] at within
      exact accounted.ready other index publication since within granted found

theorem setCall_other (accounted : Accounted system) (actor : Fin actors)
    {call : Option ActiveCall}
    (other : ∀ index publication since, call ≠ some ⟨.publish index publication, since⟩) :
    Accounted (system.setCall actor call) := by
  apply accounted.setCall actor
  intro index publication since same
  exact absurd same (other index publication since)

theorem granted (coherent : Coherent origin system) (accounted : Accounted system)
    (actor : Fin actors) (exclusive : Bool) (offer : Reservation) (side : Side) :
    Accounted (system.granted actor exclusive offer side) where
  once := by
    intro grant member
    rcases List.mem_append.mp member with old | new
    · exact accounted.once grant old
    · obtain rfl := List.mem_singleton.mp new
      exact ⟨List.nodup_nil, by simp⟩
  whole := by
    intro grant member published
    rcases List.mem_append.mp member with old | new
    · exact accounted.whole grant old published
    · obtain rfl := List.mem_singleton.mp new
      cases published
  ready := by
    intro other index publication since within granted found
    obtain ⟨held, facts⟩ := coherent.publicationFacts within
    have inside := (List.getElem?_eq_some_iff.mp facts.found).1
    have old : system.grants[index]? = some granted :=
      (List.getElem?_append_left inside).symm.trans found
    exact accounted.ready other index publication since within granted old

theorem published (coherent : Coherent origin system) (accounted : Accounted system)
    {actor : Fin actors} {index : Nat} {publication : Publication} {since : SlotTotals}
    (within : system.calls actor = some ⟨.publish index publication, since⟩) :
    Accounted (system.published index publication.reservation) := by
  obtain ⟨granted, facts⟩ := coherent.publicationFacts within
  have complete := accounted.ready _ _ _ _ within granted facts.found
  have once := accounted.once
  have onceHere := once granted (List.mem_of_getElem? facts.found)
  have whole := accounted.whole
  have ready := accounted.ready
  obtain ⟨before, after, split, rfl⟩ := split_of_getElem? facts.found
  have grants := RingSystem.published_grants split publication.reservation
  rw [split] at once whole ready
  constructor
  case once =>
    rw [grants]
    exact forall_mem_split once onceHere.settle
  case whole =>
    rw [grants]
    exact forall_mem_split whole fun _ => complete
  case ready =>
    intro other index waiting started within held found
    rw [grants] at found
    by_cases same : index = before.length
    · rw [same, getElem?_split] at found
      cases found
      exact complete
    · rw [getElem?_split_ne _ _ granted _ same] at found
      exact ready other index waiting started within held found

theorem accessed (coherent : Coherent origin system) (accounted : Accounted system)
    {actor : Fin actors} {side : Side} {index offset : Nat} {granted : Grant α}
    (found : system.grants[index]? = some granted)
    (permitted : system.MayAccess actor side index offset) (memory : Core α) (value : α) :
    Accounted (system.accessed memory index granted offset value) := by
  obtain ⟨free, other, member, holder, -, waiting, inside, fresh⟩ := permitted
  rw [found] at member
  cases member
  have once := accounted.once
  have onceHere := once granted (List.mem_of_getElem? found)
  have whole := accounted.whole
  have ready := accounted.ready
  obtain ⟨before, after, split, rfl⟩ := split_of_getElem? found
  have grants := RingSystem.accessed_grants split memory offset value
  rw [split] at once whole ready
  constructor
  case once =>
    rw [grants]
    exact forall_mem_split once (onceHere.accessed inside fresh value)
  case whole =>
    rw [grants]
    refine forall_mem_split whole ?_
    intro settled
    rw [accessed_published, waiting] at settled
    cases settled
  case ready =>
    intro publisher index publication since within held heldFound
    by_cases same : index = before.length
    · -- The publisher would be the actor itself, which is within no call.
      subst index
      obtain ⟨grant, facts⟩ := coherent.publicationFacts within
      rw [Option.some.inj (facts.found.symm.trans found)] at facts
      have alone : publisher = actor := Fin.ext (facts.holder.symm.trans holder)
      change system.calls publisher = _ at within
      rw [alone, free] at within
      cases within
    · rw [grants, getElem?_split_ne _ _ granted _ same] at heldFound
      exact ready publisher index publication since within held heldFound

theorem next (coherent : Coherent origin system) (accounted : Accounted system)
    (move : RingMove actors α) (permitted : system.Permits move) :
    Accounted (system.next move).1 := by
  obtain ⟨-, access⟩ := permitted
  have effect := system.effect_of_next move
  generalize (system.next move).1 = after at effect ⊢
  generalize (system.next move).2 = event at effect
  cases effect with
  | stay => exact accounted
  | claimStarts | censusStarts | claimShort | claimOffered | claimOutrun | censusLooks
  | censusCounts => exact accounted.setCall_other _ (by simp)
  | publicationStarts actor index exclusive granted free found =>
      refine accounted.setCall actor ?_
      intro position publication since same held heldFound
      cases same
      exact access held heldFound
  | claimGranted actor refused claim since offer within bidding unopposed =>
      have granted := accounted.granted coherent actor claim.request.exclusive offer
        claim.request.side
      exact granted.setCall_other actor (by simp)
  | publicationReady actor refused index publication since within
  | publicationWaits actor refused index publication since within
  | publicationPauses actor refused index publication since within =>
      refine accounted.setCall actor ?_
      intro position later started same held heldFound
      cases same
      exact accounted.ready actor index publication since within held heldFound
  | publicationSettles actor refused index publication since within settling =>
      exact (accounted.published coherent within).setCall_other actor (by simp)
  | writes actor index offset value granted found =>
      exact accounted.accessed coherent found access _ value
  | reads actor index offset granted found =>
      exact accounted.accessed coherent found access _ _

end Accounted

/-! ## What is written stays and is what is read -/

namespace Delivered

variable {system : RingSystem actors α}

theorem start (capacity : Capacity) (blank : α) (origin : Cursor) :
    Delivered origin (RingSystem.start capacity blank origin : RingSystem actors α) where
  kept := by
    intro position value carries
    cases carries
  matched := by
    intro position value carries
    cases carries

theorem granted (delivered : Delivered origin system) (actor : Fin actors) (exclusive : Bool)
    (offer : Reservation) (side : Side) :
    Delivered origin (system.granted actor exclusive offer side) where
  kept := by
    intro position value carries unreleased
    rw [RingSystem.granted, publishedOn_granted _ _ rfl] at unreleased
    rw [RingSystem.granted, Core.read_setHead]
    exact delivered.kept position value ((carries_granted rfl).mp carries) unreleased
  matched := by
    intro position value carries
    exact (carries_granted rfl).mpr
      (delivered.matched position value ((carries_granted rfl).mp carries))

theorem published (coherent : Coherent origin system) (delivered : Delivered origin system)
    {actor : Fin actors} {index : Nat} {publication : Publication} {since : SlotTotals}
    (within : system.calls actor = some ⟨.publish index publication, since⟩) :
    Delivered origin (system.published index publication.reservation) := by
  obtain ⟨granted, facts⟩ := coherent.publicationFacts within
  have kept := delivered.kept
  have matched := delivered.matched
  obtain ⟨before, after, split, rfl⟩ := split_of_getElem? facts.found
  have grants := RingSystem.published_grants split publication.reservation
  rw [split] at kept matched
  constructor
  case kept =>
    intro position value carries unreleased
    rw [grants] at carries unreleased
    rw [publishedOn_settle _ _ _ facts.waiting] at unreleased
    rw [RingSystem.published, Core.read_setTail]
    exact kept position value (carries_settle.mp carries) (by omega)
  case matched =>
    rw [grants]
    intro position value carries
    exact carries_settle.mpr (matched position value (carries_settle.mp carries))

/-- A permitted write is to the slot of its own position only, and no consumer has
come so far. -/
theorem written (coherent : Coherent origin system) (delivered : Delivered origin system)
    {actor : Fin actors} {index offset : Nat} {granted : Grant α}
    (found : system.grants[index]? = some granted)
    (permitted : system.MayAccess actor .producer index offset) (value : α) :
    Delivered origin (system.accessed (system.core.write (granted.cursor offset) value) index
      granted offset value) := by
  obtain ⟨-, other, member, -, producing, waiting, inside, -⟩ := permitted
  rw [found] at member
  cases member
  have layout := coherent.layout
  have begins := layout.published_le_place found waiting
  have ends := place_add_size_le found
  have cursor := layout.cursor_eq found offset
  have order := layout.ordered
  have kept := delivered.kept
  have matched := delivered.matched
  obtain ⟨before, after, split, rfl⟩ := split_of_getElem? found
  have grants := RingSystem.accessed_grants split
    (system.core.write (granted.cursor offset) value) offset value
  rw [split] at layout begins ends order kept matched cursor
  rw [place_split, producing] at begins ends cursor
  constructor
  case kept =>
    intro position recorded carries unreleased
    rw [grants] at carries unreleased
    rw [publishedOn_accessed] at unreleased
    rw [RingSystem.accessed, Core.read_write, cursor]
    by_cases here : reservedOn .producer before + offset = position
    · subst position
      rw [if_pos rfl]
      exact (carries_accessed_self producing inside value).unique carries
    · have old := (carries_accessed_ne producing inside here).mp carries
      have apart : system.core.capacity.slotOf
            (cursorAt origin (reservedOn .producer before + offset)) ≠
          system.core.capacity.slotOf (cursorAt origin position) := by
        intro same
        exact here (layout.slotOf_injective (by omega) (by omega) old.lt unreleased same)
      rw [if_neg apart]
      exact kept position recorded old unreleased
  case matched =>
    rw [grants]
    intro position recorded carries
    have old := (carries_accessed_other (by simp [producing])).mp carries
    have reached := old.lt
    exact (carries_accessed_ne producing inside (by omega)).mpr (matched position recorded old)

/-- What a permitted read finds was written at the same position. -/
theorem carries_read (coherent : Coherent origin system) (accounted : Accounted system)
    (delivered : Delivered origin system) {actor : Fin actors} {index offset : Nat}
    {granted : Grant α} (found : system.grants[index]? = some granted)
    (permitted : system.MayAccess actor .consumer index offset) :
    Carries .producer system.grants (place system.grants index .consumer + offset)
      (system.core.read (granted.cursor offset)) := by
  obtain ⟨-, other, member, -, consuming, waiting, inside, -⟩ := permitted
  rw [found] at member
  cases member
  have layout := coherent.layout
  have begins := layout.published_le_place found waiting
  have ends := place_add_size_le found
  have cursor := layout.cursor_eq found offset
  have order := layout.ordered
  rw [consuming] at begins ends cursor
  obtain ⟨value, carries⟩ := exists_carries layout accounted.once accounted.whole
    (show place system.grants index .consumer + offset < publishedOn .producer system.grants by
      omega)
  rw [cursor, delivered.kept _ value carries (by omega)]
  exact carries

theorem taken (coherent : Coherent origin system) (accounted : Accounted system)
    (delivered : Delivered origin system) {actor : Fin actors} {index offset : Nat}
    {granted : Grant α} (found : system.grants[index]? = some granted)
    (permitted : system.MayAccess actor .consumer index offset) :
    Delivered origin (system.accessed system.core index granted offset
      (system.core.read (granted.cursor offset))) := by
  have reads := delivered.carries_read coherent accounted found permitted
  obtain ⟨-, other, member, -, consuming, -, inside, -⟩ := permitted
  rw [found] at member
  cases member
  have kept := delivered.kept
  have matched := delivered.matched
  obtain ⟨before, after, split, rfl⟩ := split_of_getElem? found
  have grants := RingSystem.accessed_grants split system.core offset
    (system.core.read (granted.cursor offset))
  rw [split] at kept matched reads
  rw [place_split] at reads
  have unwritten {position : Nat} {value recorded : α} :
      Carries .producer (before ++ granted.accessed offset value :: after) position recorded ↔
        Carries .producer (before ++ granted :: after) position recorded :=
    carries_accessed_other (by simp [consuming])
  constructor
  case kept =>
    intro position recorded carries unreleased
    rw [grants] at carries unreleased
    rw [publishedOn_accessed] at unreleased
    exact kept position recorded (unwritten.mp carries) unreleased
  case matched =>
    rw [grants]
    intro position recorded carries
    rw [unwritten]
    by_cases here : reservedOn .consumer before + offset = position
    · subst position
      rw [carries.unique (carries_accessed_self consuming inside _)]
      exact reads
    · exact matched position recorded ((carries_accessed_ne consuming inside here).mp carries)

theorem next (coherent : Coherent origin system) (accounted : Accounted system)
    (delivered : Delivered origin system) (move : RingMove actors α)
    (permitted : system.Permits move) : Delivered origin (system.next move).1 := by
  obtain ⟨-, access⟩ := permitted
  have effect := system.effect_of_next move
  generalize (system.next move).1 = after at effect ⊢
  generalize (system.next move).2 = event at effect
  cases effect with
  | claimGranted actor refused claim since offer within bidding unopposed =>
      have granted := delivered.granted actor claim.request.exclusive offer claim.request.side
      exact ⟨granted.kept, granted.matched⟩
  | publicationSettles actor refused index publication since within settling =>
      have published := delivered.published coherent within
      exact ⟨published.kept, published.matched⟩
  | writes actor index offset value granted found =>
      exact delivered.written coherent found access value
  | reads actor index offset granted found =>
      exact delivered.taken coherent accounted found access
  | stay | claimStarts | publicationStarts | censusStarts | claimShort | claimOffered
  | claimOutrun | publicationReady | publicationWaits | publicationPauses | censusLooks
  | censusCounts => exact ⟨delivered.kept, delivered.matched⟩

end Delivered

theorem Delivered.run {system : RingSystem actors α} (coherent : Coherent origin system)
    (accounted : Accounted system) (delivered : Delivered origin system)
    (window : system.WithinWindow) (moves : List (RingMove actors α))
    (disciplined : system.Disciplined moves) (windowed : system.Windowed moves) :
    Coherent origin (system.run moves).1 ∧ Accounted (system.run moves).1 ∧
      Delivered origin (system.run moves).1 := by
  induction moves generalizing system with
  | nil => exact ⟨coherent, accounted, delivered⟩
  | cons move moves inductionHypothesis =>
      obtain ⟨permitted, disciplinedRest⟩ := disciplined
      obtain ⟨windowNext, windowedRest⟩ := windowed
      exact inductionHypothesis (coherent.next window move permitted.1)
        (accounted.next coherent move permitted)
        (delivered.next coherent accounted move permitted) windowNext disciplinedRest
        windowedRest

/-- In every disciplined run a slot that consumers were granted is one that
producers have published.  What was read from it, and what a read of it returns,
is the value that was written at the same position in the order of the grants of
producers.  A value that is written stays in its slot until it is released. -/
theorem values_arrive_in_order (capacity : Capacity) (blank : α) (origin : Cursor)
    (moves : List (RingMove actors α))
    (disciplined : (RingSystem.start capacity blank origin).Disciplined moves)
    (windowed : (RingSystem.start capacity blank origin).Windowed moves) :
    let final := ((RingSystem.start capacity blank origin).run moves).1
    let written := traffic .producer final.grants
    let taken := traffic .consumer final.grants
    (∀ position < taken.length, position < publishedOn .producer final.grants ∧
        ∃ value, written[position]? = some (some value) ∧
          (taken[position]? = some none ∨ taken[position]? = some (some value))) ∧
      (∀ actor index offset, final.MayAccess actor .consumer index offset →
        ∃ value, written[place final.grants index .consumer + offset]? = some (some value) ∧
          (final.next (.read actor index offset)).2 = some (.value value)) ∧
      ∀ position value, written[position]? = some (some value) →
        publishedOn .consumer final.grants ≤ position →
          final.core.read (cursorAt origin position) = value := by
  intro final written taken
  obtain ⟨coherent, accounted, delivered⟩ : Coherent origin final ∧ Accounted final ∧
      Delivered origin final :=
    (Delivered.start capacity blank origin).run (Coherent.start capacity blank origin)
      (Accounted.start capacity blank origin) (withinWindow_start capacity blank origin) moves
      disciplined windowed
  have order := coherent.layout.ordered
  refine ⟨?_, ?_, delivered.kept⟩
  · intro position granted
    have reserved : position < reservedOn .consumer final.grants := by
      rw [← traffic_length]
      exact granted
    have published : position < publishedOn .producer final.grants := by omega
    obtain ⟨value, carries⟩ := exists_carries coherent.layout accounted.once accounted.whole
      published
    refine ⟨published, value, carries, ?_⟩
    cases entry : taken[position] with
    | none => exact Or.inl (List.getElem?_eq_some_iff.mpr ⟨granted, entry⟩)
    | some got =>
        have read : Carries .consumer final.grants position got :=
          List.getElem?_eq_some_iff.mpr ⟨granted, entry⟩
        rw [carries.unique (delivered.matched position got read)]
        exact Or.inr read
  · intro actor index offset permitted
    obtain ⟨-, granted, found, -⟩ := id permitted
    refine ⟨final.core.read (granted.cursor offset),
      delivered.carries_read coherent accounted found permitted, ?_⟩
    rw [Option.mem_def] at found
    simp [RingSystem.next, found]

/-- In the sample run three values were written and the first was read. -/
theorem values_arrive_in_order_sample :
    sampleStart.Disciplined sampleMoves ∧ sampleStart.Windowed sampleMoves ∧
      traffic .producer sampleEnd.grants = [some 10, some 11, some 12] ∧
      traffic .consumer sampleEnd.grants = [some 10] ∧
      ∀ position < (traffic .consumer sampleEnd.grants).length,
        position < publishedOn .producer sampleEnd.grants ∧
          ∃ value, (traffic .producer sampleEnd.grants)[position]? = some (some value) ∧
            ((traffic .consumer sampleEnd.grants)[position]? = some none ∨
              (traffic .consumer sampleEnd.grants)[position]? = some (some value)) :=
  ⟨sample_disciplined, sample_windowed, by decide +kernel, by decide +kernel,
    (values_arrive_in_order sampleCapacity 0 0xFFFFFFFE sampleMoves sample_disciplined
      sample_windowed).1⟩

end RingPool

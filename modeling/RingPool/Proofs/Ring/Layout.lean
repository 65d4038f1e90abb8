import RingPool.Proofs.Ring.History

/-!
# How the grants lie between the cursors

`Layout` ties the four cursors of a ring to the history of its grants.  On each
side the published grants come before those that wait, they lead from the origin
to the side's tail, and those that wait lead on from there to its head.  No side
has reserved beyond its `horizon`: producers stay less than a capacity ahead of
what consumers have released, and consumers stay behind what producers have
published.

Three things happen to a layout: a grant is added at a head, the oldest grant
that waits is published, and a slot of some grant is accessed.
-/

set_option autoImplicit false

namespace RingPool

open Grant

variable {α : Type}

/-- The count up to which a side may reserve. -/
def horizon (capacity : Capacity) (grants : List (Grant α)) : Side → Nat
  | .producer => publishedOn .consumer grants + (capacity.size - 1)
  | .consumer => publishedOn .producer grants

@[simp] theorem horizon_producer (capacity : Capacity) (grants : List (Grant α)) :
    horizon capacity grants .producer = publishedOn .consumer grants + (capacity.size - 1) := rfl

@[simp] theorem horizon_consumer (capacity : Capacity) (grants : List (Grant α)) :
    horizon capacity grants .consumer = publishedOn .producer grants := rfl

/-- If a later grant of the same side is published, then so is an earlier one. -/
def SettlesBefore (earlier later : Grant α) : Prop :=
  earlier.reservation.side = later.reservation.side → later.published = true →
    earlier.published = true

theorem settledOn_eq_nil_of_waiting {grant : Grant α} {rest : List (Grant α)}
    (first : ∀ later ∈ rest, SettlesBefore grant later) (waiting : grant.published = false) :
    settledOn grant.reservation.side rest = [] := by
  rw [List.eq_nil_iff_forall_not_mem]
  intro later member
  obtain ⟨inside, onSame, settled⟩ := mem_settledOn.mp member
  have contrary := first later inside onSame.symm settled
  rw [waiting] at contrary
  cases contrary

/-- The cursors are where the grants have brought them. -/
structure Layout (origin : Cursor) (core : Core α) (grants : List (Grant α)) : Prop where
  sized : ∀ grant ∈ grants, 0 < grant.size ∧ grant.size < core.capacity.size
  inOrder : grants.Pairwise SettlesBefore
  settledTiles : ∀ side, Tiles origin (settledOn side grants) (core.cursors side).tail
  pendingTiles : ∀ side,
    Tiles (core.cursors side).tail (pendingOn side grants) (core.cursors side).head
  bounded : ∀ side, reservedOn side grants ≤ horizon core.capacity grants side

namespace Layout

variable {origin : Cursor} {core : Core α} {grants : List (Grant α)}

theorem tail_eq (layout : Layout origin core grants) (side : Side) :
    (core.cursors side).tail = cursorAt origin (publishedOn side grants) :=
  tiles_last (layout.settledTiles side)

theorem head_eq (layout : Layout origin core grants) (side : Side) :
    (core.cursors side).head = cursorAt origin (reservedOn side grants) := by
  rw [tiles_last (layout.pendingTiles side), layout.tail_eq, ← cursorAt_add,
    ← reservedOn_eq_add]

/-- The counts of the four cursors are in order, less than a capacity apart. -/
theorem ordered (layout : Layout origin core grants) :
    publishedOn .consumer grants ≤ reservedOn .consumer grants ∧
      reservedOn .consumer grants ≤ publishedOn .producer grants ∧
      publishedOn .producer grants ≤ reservedOn .producer grants ∧
      reservedOn .producer grants < publishedOn .consumer grants + core.capacity.size := by
  have positive := core.capacity.size_pos
  have producers := layout.bounded .producer
  rw [horizon_producer] at producers
  exact ⟨publishedOn_le_reservedOn _ _, layout.bounded .consumer,
    publishedOn_le_reservedOn _ _, by omega⟩

theorem reserved_near (layout : Layout origin core grants) (side : Side) :
    reservedOn side grants < publishedOn .consumer grants + core.capacity.size := by
  have order := layout.ordered
  cases side <;> omega

/-- Nothing that waits lies before what consumers have released. -/
theorem released_le_published (layout : Layout origin core grants) (side : Side) :
    publishedOn .consumer grants ≤ publishedOn side grants := by
  have order := layout.ordered
  cases side <;> omega

theorem reserved_near_published (layout : Layout origin core grants) (side : Side) :
    reservedOn side grants < publishedOn side grants + core.capacity.size := by
  have near := layout.reserved_near side
  have released := layout.released_le_published side
  omega

theorem onSide_eq_append (layout : Layout origin core grants) (side : Side) :
    onSide side grants = settledOn side grants ++ pendingOn side grants := by
  have inOrder := layout.inOrder
  clear layout
  induction grants with
  | nil => rfl
  | cons grant rest inductionHypothesis =>
      obtain ⟨first, others⟩ := List.pairwise_cons.mp inOrder
      rw [onSide_cons, settledOn_cons, pendingOn_cons, inductionHypothesis others]
      by_cases same : grant.reservation.side = side
      · cases published : grant.published with
        | true => simp [same]
        | false =>
            have unsettled : settledOn side rest = [] := by
              rw [← same]
              exact settledOn_eq_nil_of_waiting first published
            simp [same, unsettled]
      · simp [same]

theorem tiles (layout : Layout origin core grants) (side : Side) :
    Tiles origin (onSide side grants) (core.cursors side).head := by
  rw [layout.onSide_eq_append]
  exact tiles_append.mpr ⟨_, layout.settledTiles side, layout.pendingTiles side⟩

/-- The room that a side finds when it goes by some head is the way from there to its
horizon. -/
theorem room_eq (layout : Layout origin core grants) (side : Side) (head : Cursor) :
    core.room side head = cursorAt origin (horizon core.capacity grants side) - head := by
  cases side with
  | producer =>
      have tailEq : core.consumer.tail = cursorAt origin (publishedOn .consumer grants) :=
        layout.tail_eq .consumer
      have reach : cursorAt origin (horizon core.capacity grants .producer) =
          core.consumer.tail + core.capacity.mask := by
        rw [horizon_producer, cursorAt_add, ← tailEq]
        rfl
      rw [Core.room, reach]
      grind
  | consumer =>
      have tailEq : core.producer.tail = cursorAt origin (publishedOn .producer grants) :=
        layout.tail_eq .producer
      rw [Core.room, tailEq, horizon_consumer]

theorem horizon_near (layout : Layout origin core grants) (side : Side) :
    horizon core.capacity grants side < reservedOn side grants + core.capacity.size := by
  have order := layout.ordered
  cases side with
  | producer =>
      rw [horizon_producer]
      omega
  | consumer =>
      rw [horizon_consumer]
      omega

theorem room_toNat (layout : Layout origin core grants) (side : Side) :
    (core.room side (core.cursors side).head).toNat =
      horizon core.capacity grants side - reservedOn side grants := by
  have near := layout.horizon_near side
  have small := core.capacity.size_lt_wordSize
  rw [layout.room_eq, layout.head_eq]
  exact cursorAt_sub_toNat origin (layout.bounded side) (by omega)

theorem room_le_mask (layout : Layout origin core grants) (side : Side) :
    core.room side (core.cursors side).head ≤ core.capacity.mask := by
  have near := layout.horizon_near side
  rw [UInt32.le_iff_toNat_le, layout.room_toNat, Capacity.mask_toNat]
  omega

/-- By a head that is some slots old, a side sees as many slots too many. -/
theorem room_of_old_head (layout : Layout origin core grants) (side : Side) {known : Nat}
    (notAfter : known ≤ reservedOn side grants)
    (near : reservedOn side grants < known + windowSize) :
    (core.room side (cursorAt origin known)).toNat =
      (core.room side (core.cursors side).head).toNat + (reservedOn side grants - known) := by
  have bounded := layout.bounded side
  have reach := layout.horizon_near side
  have small : core.capacity.size + windowSize ≤ UInt32.size := by
    have largest := core.capacity.size_le_maxCapacity
    have halves : maxCapacity + windowSize ≤ UInt32.size := by decide
    omega
  rw [layout.room_toNat, layout.room_eq, cursorAt_sub_toNat origin (by omega) (by omega)]
  omega

/-! ## One grant of a layout -/

section Split

variable {before after : List (Grant α)} {grant : Grant α}

theorem head_of_split (layout : Layout origin core (before ++ grant :: after)) :
    grant.reservation.head =
      cursorAt origin (reservedOn grant.reservation.side before) := by
  have tiles := layout.tiles grant.reservation.side
  rw [onSide_append, onSide_cons, if_pos rfl] at tiles
  exact tiles_head tiles

theorem settledOn_after_eq_nil (layout : Layout origin core (before ++ grant :: after))
    (waiting : grant.published = false) : settledOn grant.reservation.side after = [] := by
  obtain ⟨-, others, -⟩ := List.pairwise_append.mp layout.inOrder
  exact settledOn_eq_nil_of_waiting (List.pairwise_cons.mp others).1 waiting

theorem publishedOn_split (layout : Layout origin core (before ++ grant :: after))
    (waiting : grant.published = false) :
    publishedOn grant.reservation.side (before ++ grant :: after) =
      publishedOn grant.reservation.side before := by
  rw [publishedOn_append, publishedOn_cons, waiting, publishedOn,
    publishedOn, layout.settledOn_after_eq_nil waiting]
  simp

/-- A grant that waits and begins at the tail is the oldest that waits. -/
theorem pendingOn_before_eq_nil (layout : Layout origin core (before ++ grant :: after))
    (waiting : grant.published = false)
    (due : (core.cursors grant.reservation.side).tail = grant.reservation.head) :
    pendingOn grant.reservation.side before = [] := by
  apply eq_nil_of_totalSize_eq_zero
  · intro earlier member
    exact (layout.sized earlier (List.mem_append_left _ (mem_pendingOn.mp member).1)).1
  · have near := layout.reserved_near_published grant.reservation.side
    have small := core.capacity.size_lt_wordSize
    have parts := reservedOn_eq_add grant.reservation.side before
    rw [layout.publishedOn_split waiting, reservedOn_append] at near
    rw [layout.tail_eq, layout.publishedOn_split waiting, layout.head_of_split] at due
    have same := cursorAt_injective origin (by omega) (by omega) due
    omega

end Split

/-! ## Where a grant lies -/

section Place

variable {index : Nat} {grant : Grant α}

theorem head_eq_place (layout : Layout origin core grants)
    (found : grants[index]? = some grant) :
    grant.reservation.head = cursorAt origin (place grants index grant.reservation.side) := by
  obtain ⟨before, after, rfl, rfl⟩ := split_of_getElem? found
  rw [place_split]
  exact layout.head_of_split

theorem cursor_eq (layout : Layout origin core grants) (found : grants[index]? = some grant)
    (offset : Nat) :
    grant.cursor offset =
      cursorAt origin (place grants index grant.reservation.side + offset) := by
  rw [cursorAt_add, ← layout.head_eq_place found]
  rfl

theorem published_le_place (layout : Layout origin core grants)
    (found : grants[index]? = some grant) (waiting : grant.published = false) :
    publishedOn grant.reservation.side grants ≤ place grants index grant.reservation.side := by
  obtain ⟨before, after, rfl, rfl⟩ := split_of_getElem? found
  rw [place_split, layout.publishedOn_split waiting]
  exact publishedOn_le_reservedOn _ _

theorem slotOf_injective (layout : Layout origin core grants) {first second : Nat}
    (firstReserved : first < reservedOn .producer grants)
    (firstHeld : publishedOn .consumer grants ≤ first)
    (secondReserved : second < reservedOn .producer grants)
    (secondHeld : publishedOn .consumer grants ≤ second)
    (same : core.capacity.slotOf (cursorAt origin first) =
      core.capacity.slotOf (cursorAt origin second)) : first = second := by
  have near := layout.reserved_near .producer
  rcases Nat.le_total first second with ordered | ordered
  · exact core.capacity.slotOf_cursorAt_injective origin ordered (by omega) same
  · exact (core.capacity.slotOf_cursorAt_injective origin ordered (by omega) same.symm).symm

end Place

/-! ## What happens to a layout -/

theorem start (capacity : Capacity) (blank : α) (origin : Cursor) :
    Layout origin (Core.create capacity blank origin) ([] : List (Grant α)) where
  sized := by
    intro grant member
    cases member
  inOrder := List.Pairwise.nil
  settledTiles := by
    intro side
    cases side <;> rfl
  pendingTiles := by
    intro side
    cases side <;> rfl
  bounded := by
    intro side
    exact Nat.zero_le _

theorem horizon_granted (capacity : Capacity) (grants : List (Grant α)) {grant : Grant α}
    (waiting : grant.published = false) (side : Side) :
    horizon capacity (grants ++ [grant]) side = horizon capacity grants side := by
  cases side
  · rw [horizon_producer, horizon_producer, publishedOn_granted _ _ waiting]
  · rw [horizon_consumer, horizon_consumer, publishedOn_granted _ _ waiting]

theorem grant_added (layout : Layout origin core grants) {grant : Grant α}
    (waiting : grant.published = false) (positive : 0 < grant.size)
    (atHead : grant.reservation.head = (core.cursors grant.reservation.side).head)
    (fits : reservedOn grant.reservation.side grants + grant.size ≤
      horizon core.capacity grants grant.reservation.side) :
    Layout origin (core.setHead grant.reservation.side grant.reservation.next)
      (grants ++ [grant]) where
  sized := by
    intro other member
    rw [Core.setHead_capacity]
    rcases List.mem_append.mp member with old | new
    · exact layout.sized other old
    · obtain rfl := List.mem_singleton.mp new
      have order := layout.ordered
      refine ⟨positive, ?_⟩
      cases side : other.reservation.side <;> rw [side] at fits
      · rw [horizon_producer] at fits
        omega
      · rw [horizon_consumer] at fits
        omega
  inOrder := by
    refine List.pairwise_append.mpr ⟨layout.inOrder, List.pairwise_singleton _ _, ?_⟩
    intro earlier _ later new _ settled
    obtain rfl := List.mem_singleton.mp new
    rw [waiting] at settled
    cases settled
  settledTiles := by
    intro side
    rw [settledOn_granted _ _ waiting, Core.tail_setHead]
    exact layout.settledTiles side
  pendingTiles := by
    intro side
    rw [pendingOn_append, Core.tail_setHead]
    by_cases same : grant.reservation.side = side
    · subst side
      have one : pendingOn grant.reservation.side [grant] = [grant] := by
        simp [waiting, pendingOn, onSide]
      rw [one, Core.cursors_setHead_self]
      exact tiles_append.mpr ⟨_, layout.pendingTiles _, atHead, rfl⟩
    · have none : pendingOn side [grant] = [] := by
        simp [same, pendingOn, onSide]
      rw [none, List.append_nil, Core.cursors_setHead_other _ _ (Ne.symm same)]
      exact layout.pendingTiles side
  bounded := by
    intro side
    rw [Core.setHead_capacity, horizon_granted _ _ waiting, reservedOn_append, reservedOn_cons]
    have old := layout.bounded side
    by_cases same : grant.reservation.side = side
    · subst side
      simpa [reservedOn, onSide] using fits
    · simpa [same, reservedOn, onSide] using old

section Settle

variable {before after : List (Grant α)} {grant : Grant α}

theorem horizon_le_settle (capacity : Capacity) (before after : List (Grant α))
    {grant : Grant α} (waiting : grant.published = false) (side : Side) :
    horizon capacity (before ++ grant :: after) side ≤
      horizon capacity (before ++ grant.settle :: after) side := by
  cases side
  · rw [horizon_producer, horizon_producer, publishedOn_settle _ _ _ waiting]
    omega
  · rw [horizon_consumer, horizon_consumer, publishedOn_settle _ _ _ waiting]
    omega

theorem grant_settled (layout : Layout origin core (before ++ grant :: after))
    (waiting : grant.published = false)
    (due : (core.cursors grant.reservation.side).tail = grant.reservation.head) :
    Layout origin (core.setTail grant.reservation.side grant.reservation.next)
      (before ++ grant.settle :: after) where
  sized := by
    rw [Core.setTail_capacity]
    exact forall_mem_split layout.sized
      (layout.sized grant (List.mem_append_right _ List.mem_cons_self))
  inOrder := by
    have oldest := layout.pendingOn_before_eq_nil waiting due
    obtain ⟨first, rest, across⟩ := List.pairwise_append.mp layout.inOrder
    obtain ⟨_, others⟩ := List.pairwise_cons.mp rest
    refine List.pairwise_append.mpr ⟨first, List.pairwise_cons.mpr ⟨?_, others⟩, ?_⟩
    · intro later _ _ _
      rfl
    · intro earlier member later inside
      rcases List.mem_cons.mp inside with same | old
      · subst later
        intro onSame _
        -- Nothing of the side waits before the oldest grant that waits.
        by_contra unsettled
        have waits : earlier ∈ pendingOn grant.reservation.side before :=
          mem_pendingOn.mpr ⟨member, onSame, Bool.eq_false_iff.mpr unsettled⟩
        rw [oldest] at waits
        cases waits
      · exact across earlier member later (List.mem_cons_of_mem _ old)
  settledTiles := by
    intro side
    have old := layout.settledTiles side
    rw [settledOn_append, settledOn_cons] at old ⊢
    by_cases same : grant.reservation.side = side
    · subst side
      rw [layout.settledOn_after_eq_nil waiting] at old ⊢
      simp only [waiting, Bool.false_eq_true, and_false, if_false, List.append_nil] at old
      simp only [Grant.settle_reservation, Grant.settle_published, and_self, if_true,
        Core.cursors_setTail_self]
      exact tiles_append.mpr ⟨_, old, due.symm, rfl⟩
    · simp only [Grant.settle_reservation, same, false_and, if_false] at old ⊢
      rw [Core.cursors_setTail_other _ _ (Ne.symm same)]
      exact old
  pendingTiles := by
    intro side
    have old := layout.pendingTiles side
    rw [pendingOn_append, pendingOn_cons] at old ⊢
    by_cases same : grant.reservation.side = side
    · subst side
      rw [layout.pendingOn_before_eq_nil waiting due] at old ⊢
      simp only [waiting, and_self, if_true, List.nil_append, tiles_cons] at old
      simp only [Grant.settle_published, Bool.true_eq_false, and_false, if_false,
        List.nil_append, Core.cursors_setTail_self]
      exact old.2
    · simp only [Grant.settle_reservation, same, false_and, if_false] at old ⊢
      rw [Core.cursors_setTail_other _ _ (Ne.symm same)]
      exact old
  bounded := by
    intro side
    rw [Core.setTail_capacity, reservedOn_settle]
    exact le_trans (layout.bounded side) (horizon_le_settle _ _ _ waiting side)

end Settle

section Access

variable {before after : List (Grant α)} {grant : Grant α}

theorem horizon_accessed (capacity : Capacity) (before after : List (Grant α))
    (grant : Grant α) (offset : Nat) (value : α) (side : Side) :
    horizon capacity (before ++ grant.accessed offset value :: after) side =
      horizon capacity (before ++ grant :: after) side := by
  cases side
  · rw [horizon_producer, horizon_producer, publishedOn_accessed]
  · rw [horizon_consumer, horizon_consumer, publishedOn_accessed]

theorem grant_accessed (layout : Layout origin core (before ++ grant :: after))
    (offset : Nat) (value : α) :
    Layout origin core (before ++ grant.accessed offset value :: after) where
  sized := forall_mem_split layout.sized
    (layout.sized grant (List.mem_append_right _ List.mem_cons_self))
  inOrder := by
    obtain ⟨first, rest, across⟩ := List.pairwise_append.mp layout.inOrder
    obtain ⟨head, others⟩ := List.pairwise_cons.mp rest
    refine List.pairwise_append.mpr ⟨first, List.pairwise_cons.mpr ⟨head, others⟩, ?_⟩
    intro earlier member later inside
    rcases List.mem_cons.mp inside with same | old
    · subst later
      exact across earlier member grant List.mem_cons_self
    · exact across earlier member later (List.mem_cons_of_mem _ old)
  settledTiles := by
    intro side
    have old := layout.settledTiles side
    rw [settledOn_append, settledOn_cons, tiles_append] at old ⊢
    rw [accessed_reservation, accessed_published]
    by_cases here : grant.reservation.side = side ∧ grant.published = true
    · rw [if_pos here] at old ⊢
      exact old
    · rw [if_neg here] at old ⊢
      exact old
  pendingTiles := by
    intro side
    have old := layout.pendingTiles side
    rw [pendingOn_append, pendingOn_cons, tiles_append] at old ⊢
    rw [accessed_reservation, accessed_published]
    by_cases here : grant.reservation.side = side ∧ grant.published = false
    · rw [if_pos here] at old ⊢
      exact old
    · rw [if_neg here] at old ⊢
      exact old
  bounded := by
    intro side
    rw [reservedOn_accessed, horizon_accessed]
    exact layout.bounded side

theorem write (layout : Layout origin core grants) (cursor : Cursor) (value : α) :
    Layout origin (core.write cursor value) grants where
  sized := layout.sized
  inOrder := layout.inOrder
  settledTiles := by
    intro side
    rw [Core.cursors_write]
    exact layout.settledTiles side
  pendingTiles := by
    intro side
    rw [Core.cursors_write]
    exact layout.pendingTiles side
  bounded := layout.bounded

end Access

end Layout

end RingPool

import RingPool.Proofs.Ring.Coherence
import Mathlib.Data.List.Nodup

/-!
# The cursors keep their order, and every slot has one owner

On the unbounded counts behind the cursors, consumers release no more than they
claim, claim no more than producers publish, publish no more than they reserve,
and reserve less than a capacity ahead of what is released.  All that is in use
at a time thus lies within one capacity, where different counts have different
slots.  So no two reservations that wait to be published share a slot, on one
side or on both, and none that producers hold touches an entry that is still to
be claimed.
-/

set_option autoImplicit false

namespace RingPool

open Grant

variable {actors : Nat} {α : Type} {origin : Cursor}

def slotsFrom (capacity : Capacity) (first : Cursor) (count : Nat) : List UInt32 :=
  (List.range count).map fun offset => (first + UInt32.ofNat offset) &&& capacity.mask

def Grant.slots (capacity : Capacity) (grant : Grant α) : List UInt32 :=
  slotsFrom capacity grant.reservation.head grant.size

/-- The slots of the entries that are published and that no consumer has claimed. -/
def Core.unclaimed (core : Core α) : List UInt32 :=
  slotsFrom core.capacity core.consumer.head (core.producer.tail - core.consumer.head).toNat

/-! ## Slots of counts -/

theorem Capacity.and_mask_cursorAt_injective (capacity : Capacity) (origin : Cursor)
    {low high : Nat} (ordered : low ≤ high) (near : high - low < capacity.size)
    (same : cursorAt origin low &&& capacity.mask = cursorAt origin high &&& capacity.mask) :
    low = high := by
  have values := congrArg UInt32.toNat same
  rw [and_mask_toNat, and_mask_toNat] at values
  exact slotOf_cursorAt_injective capacity origin ordered near (Fin.ext values)

theorem mem_slotsFrom {capacity : Capacity} {low count : Nat} {slot : UInt32} :
    slot ∈ slotsFrom capacity (cursorAt origin low) count ↔
      ∃ offset < count, cursorAt origin (low + offset) &&& capacity.mask = slot := by
  simp [slotsFrom, cursorAt, UInt32.add_assoc]

theorem slotsFrom_disjoint (capacity : Capacity) (origin : Cursor) {low high first second : Nat}
    (ordered : low + first ≤ high) (near : high + second ≤ low + capacity.size) :
    (slotsFrom capacity (cursorAt origin low) first).Disjoint
      (slotsFrom capacity (cursorAt origin high) second) := by
  intro slot inFirst inSecond
  obtain ⟨offset, inside, atFirst⟩ := mem_slotsFrom.mp inFirst
  obtain ⟨other, otherInside, atSecond⟩ := mem_slotsFrom.mp inSecond
  have same := capacity.and_mask_cursorAt_injective origin (by omega) (by omega)
    (atFirst.trans atSecond.symm)
  omega

theorem slotsFrom_nodup (capacity : Capacity) (first : Cursor) {count : Nat}
    (fits : count ≤ capacity.size) : (slotsFrom capacity first count).Nodup := by
  refine List.Nodup.map_on ?_ List.nodup_range
  intro offset inside other otherInside same
  rw [List.mem_range] at inside otherInside
  rcases Nat.le_total offset other with ordered | ordered
  · exact capacity.and_mask_cursorAt_injective first ordered (by omega) same
  · exact (capacity.and_mask_cursorAt_injective first ordered (by omega) same.symm).symm

namespace Layout

variable {core : Core α} {grants : List (Grant α)}

/-! ## The order of the cursors -/

theorem distances (layout : Layout origin core grants) :
    (core.consumer.head - core.consumer.tail).toNat +
        (core.producer.tail - core.consumer.head).toNat +
        (core.producer.head - core.producer.tail).toNat =
      reservedOn .producer grants - publishedOn .consumer grants := by
  have order := layout.ordered
  have small := core.capacity.size_lt_wordSize
  have consumerTail : core.consumer.tail = _ := layout.tail_eq .consumer
  have consumerHead : core.consumer.head = _ := layout.head_eq .consumer
  have producerTail : core.producer.tail = _ := layout.tail_eq .producer
  have producerHead : core.producer.head = _ := layout.head_eq .producer
  rw [consumerTail, consumerHead, producerTail, producerHead,
    cursorAt_sub_toNat origin (by omega) (by omega),
    cursorAt_sub_toNat origin (by omega) (by omega),
    cursorAt_sub_toNat origin (by omega) (by omega)]
  omega

theorem spare_slot (layout : Layout origin core grants) :
    (core.consumer.tail + core.capacity.mask) &&& core.capacity.mask ∉
      slotsFrom core.capacity core.consumer.tail
        (core.producer.head - core.consumer.tail).toNat := by
  have order := layout.ordered
  have small := core.capacity.size_lt_wordSize
  have consumerTail : core.consumer.tail = _ := layout.tail_eq .consumer
  have producerHead : core.producer.head = _ := layout.head_eq .producer
  have spare : core.consumer.tail + core.capacity.mask =
      cursorAt origin (publishedOn .consumer grants + (core.capacity.size - 1)) := by
    rw [cursorAt_add, ← consumerTail]
    rfl
  have inUse : (core.producer.head - core.consumer.tail).toNat =
      reservedOn .producer grants - publishedOn .consumer grants := by
    rw [consumerTail, producerHead]
    exact cursorAt_sub_toNat origin (by omega) (by omega)
  rw [spare, inUse, consumerTail, mem_slotsFrom]
  rintro ⟨offset, inside, same⟩
  have equal := core.capacity.and_mask_cursorAt_injective origin (by omega) (by omega) same
  omega

/-! ## The slots of grants -/

/-- Of two grants that wait, the one of smaller place ends before the other. -/
theorem slots_disjoint (layout : Layout origin core grants) {first second : Nat}
    {earlier later : Grant α} (foundFirst : grants[first]? = some earlier)
    (foundSecond : grants[second]? = some later) (waitingFirst : earlier.published = false)
    (waitingSecond : later.published = false) (before : first < second) :
    (earlier.slots core.capacity).Disjoint (later.slots core.capacity) := by
  have order := layout.ordered
  have endFirst := place_add_size_le foundFirst
  have endSecond := place_add_size_le foundSecond
  have beginFirst := layout.published_le_place foundFirst waitingFirst
  have beginSecond := layout.published_le_place foundSecond waitingSecond
  have between := place_add_size_le_place foundFirst before
  unfold slots
  rw [layout.head_eq_place foundFirst, layout.head_eq_place foundSecond]
  -- What consumers hold lies before what producers hold.
  cases sideFirst : earlier.reservation.side <;> cases sideSecond : later.reservation.side <;>
    rw [sideFirst] at endFirst beginFirst between <;> rw [sideSecond] at endSecond beginSecond
  case producer.producer => exact slotsFrom_disjoint _ _ (by omega) (by omega)
  case producer.consumer =>
      apply List.disjoint_symm
      exact slotsFrom_disjoint _ _ (by omega) (by omega)
  case consumer.producer => exact slotsFrom_disjoint _ _ (by omega) (by omega)
  case consumer.consumer => exact slotsFrom_disjoint _ _ (by omega) (by omega)

theorem waiting_disjoint (layout : Layout origin core grants) :
    (grants.filter fun grant => !grant.published).Pairwise fun earlier later =>
      (earlier.slots core.capacity).Disjoint (later.slots core.capacity) := by
  rw [List.pairwise_filter, List.pairwise_iff_getElem]
  intro first second insideFirst insideSecond before waitingFirst waitingSecond
  exact layout.slots_disjoint (List.getElem?_eq_getElem insideFirst)
    (List.getElem?_eq_getElem insideSecond) (by simpa using waitingFirst)
    (by simpa using waitingSecond) before

/-- What a producer holds is no entry that waits to be claimed. -/
theorem slots_disjoint_unclaimed (layout : Layout origin core grants) {grant : Grant α}
    (member : grant ∈ grants) (waiting : grant.published = false)
    (producing : grant.reservation.side = .producer) :
    (grant.slots core.capacity).Disjoint core.unclaimed := by
  obtain ⟨index, found⟩ := List.mem_iff_getElem?.mp member
  have order := layout.ordered
  have small := core.capacity.size_lt_wordSize
  have ends := place_add_size_le found
  have begins := layout.published_le_place found waiting
  have consumerHead : core.consumer.head = _ := layout.head_eq .consumer
  have producerTail : core.producer.tail = _ := layout.tail_eq .producer
  rw [producing] at ends begins
  rw [slots, Core.unclaimed, layout.head_eq_place found, producing, consumerHead, producerTail,
    cursorAt_sub_toNat origin (by omega) (by omega)]
  apply List.disjoint_symm
  exact slotsFrom_disjoint _ _ (by omega) (by omega)

theorem slots_nodup (layout : Layout origin core grants) {grant : Grant α}
    (member : grant ∈ grants) : (grant.slots core.capacity).Nodup :=
  slotsFrom_nodup _ _ (Nat.le_of_lt (layout.sized grant member).2)

end Layout

/-! ## Every reachable state -/

/-- In every state that an orderly run reaches, the counts behind the cursors are
in order, and the slot before the consumers' tail is not in use. -/
theorem cursors_keep_their_order (capacity : Capacity) (blank : α) (origin : Cursor)
    (moves : List (RingMove actors α))
    (orderly : (RingSystem.start capacity blank origin).Orderly moves)
    (windowed : (RingSystem.start capacity blank origin).Windowed moves) :
    let final := ((RingSystem.start capacity blank origin).run moves).1
    let core := final.core
    let totals := final.totals
    (core.consumer.head - core.consumer.tail).toNat +
          (core.producer.tail - core.consumer.head).toNat +
          (core.producer.head - core.producer.tail).toNat ≤ capacity.mask.toNat ∧
      (∀ side, (core.cursors side).tail = cursorAt origin (totals.published side) ∧
        (core.cursors side).head = cursorAt origin (totals.reserved side)) ∧
      totals.published .consumer ≤ totals.reserved .consumer ∧
      totals.reserved .consumer ≤ totals.published .producer ∧
      totals.published .producer ≤ totals.reserved .producer ∧
      totals.reserved .producer ≤ totals.published .consumer + capacity.mask.toNat ∧
      (core.consumer.tail + capacity.mask) &&& capacity.mask ∉
        slotsFrom capacity core.consumer.tail
          (core.producer.head - core.consumer.tail).toNat := by
  intro final core totals
  have layout : Layout origin core final.grants :=
    (coherent_of_run capacity blank origin moves orderly windowed).layout
  have sameCapacity : core.capacity = capacity := RingSystem.capacity_run _ moves
  have order := layout.ordered
  have mask := core.capacity.mask_toNat
  rw [← sameCapacity]
  refine ⟨?_, ?_, order.1, order.2.1, order.2.2.1, ?_, layout.spare_slot⟩
  · rw [layout.distances]
    omega
  · intro side
    exact ⟨layout.tail_eq side, layout.head_eq side⟩
  · change reservedOn .producer final.grants ≤ publishedOn .consumer final.grants + _
    omega

/-- In the sample run one slot is claimed by the consumer, one entry is left to be
claimed and one slot is still with a producer. -/
theorem cursors_keep_their_order_sample :
    sampleStart.Orderly sampleMoves ∧ sampleStart.Windowed sampleMoves ∧
      (sampleEnd.core.consumer.head - sampleEnd.core.consumer.tail).toNat = 1 ∧
      (sampleEnd.core.producer.tail - sampleEnd.core.consumer.head).toNat = 1 ∧
      (sampleEnd.core.producer.head - sampleEnd.core.producer.tail).toNat = 1 ∧
      (sampleEnd.core.consumer.head - sampleEnd.core.consumer.tail).toNat +
        (sampleEnd.core.producer.tail - sampleEnd.core.consumer.head).toNat +
        (sampleEnd.core.producer.head - sampleEnd.core.producer.tail).toNat ≤
          sampleCapacity.mask.toNat :=
  ⟨sample_disciplined.orderly, sample_windowed, by decide +kernel, by decide +kernel,
    by decide +kernel,
    (cursors_keep_their_order sampleCapacity 0 0xFFFFFFFE sampleMoves
      sample_disciplined.orderly sample_windowed).1⟩

/-- In every state that an orderly run reaches, the slots of the grants that wait
to be published are apart from each other, those of producers are apart from the
entries that are still to be claimed, and no grant has a slot twice. -/
theorem waiting_grants_own_their_slots (capacity : Capacity) (blank : α) (origin : Cursor)
    (moves : List (RingMove actors α))
    (orderly : (RingSystem.start capacity blank origin).Orderly moves)
    (windowed : (RingSystem.start capacity blank origin).Windowed moves) :
    let final := ((RingSystem.start capacity blank origin).run moves).1
    let waiting := final.grants.filter fun grant => !grant.published
    (waiting.Pairwise fun earlier later =>
        (earlier.slots capacity).Disjoint (later.slots capacity)) ∧
      (∀ grant ∈ waiting, grant.reservation.side = .producer →
        (grant.slots capacity).Disjoint final.core.unclaimed) ∧
      ∀ grant ∈ final.grants, (grant.slots capacity).Nodup := by
  intro final waiting
  have layout : Layout origin final.core final.grants :=
    (coherent_of_run capacity blank origin moves orderly windowed).layout
  have sameCapacity : final.core.capacity = capacity := RingSystem.capacity_run _ moves
  rw [← sameCapacity]
  refine ⟨layout.waiting_disjoint, ?_, fun grant member => layout.slots_nodup member⟩
  intro grant member producing
  obtain ⟨inside, waits⟩ := List.mem_filter.mp member
  exact layout.slots_disjoint_unclaimed inside (by simpa using waits) producing

/-- In the sample run a producer and the consumer hold a slot each. -/
theorem waiting_grants_own_their_slots_sample :
    sampleStart.Orderly sampleMoves ∧ sampleStart.Windowed sampleMoves ∧
      (sampleEnd.grants.filter fun grant => !grant.published).map (Grant.slots sampleCapacity) =
        [[0], [2]] ∧
      sampleEnd.core.unclaimed = [3] ∧
      (sampleEnd.grants.filter fun grant => !grant.published).Pairwise fun earlier later =>
        (earlier.slots sampleCapacity).Disjoint (later.slots sampleCapacity) :=
  ⟨sample_disciplined.orderly, sample_windowed, by decide +kernel, by decide +kernel,
    (waiting_grants_own_their_slots sampleCapacity 0 0xFFFFFFFE sampleMoves
      sample_disciplined.orderly sample_windowed).1⟩

end RingPool

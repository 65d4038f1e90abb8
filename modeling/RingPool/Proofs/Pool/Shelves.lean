import RingPool.Pool.Basic
import RingPool.Proofs.Ring.BoundedQueue

/-!
# The rings of a pool as lists of objects

Each ring of a pool is a `Ring.IsShelf`: nobody is in the middle of an operation
on it, it takes as much of a bulk as fits, and it has no watermark.  Then only
its list of objects counts.  What is put on it goes to the end as far as its
`vacancy` allows, what is taken from it comes from the front, and no operation
of a pool makes it anything but a shelf.
-/

set_option autoImplicit false

namespace RingPool

variable {α : Type}

/-- A ring at rest that moves as much of a bulk as fits. -/
structure Ring.IsShelf (ring : Ring α) (capacity : Capacity) : Prop where
  settled : ring.core.Settled
  capacity : ring.core.capacity = capacity
  policy : ring.policy = .burst
  watermark : ring.watermark = none

def Ring.vacancy (ring : Ring α) : Nat := ring.core.capacity.size - 1 - ring.toList.length

/-- How many slots of a side were reserved between two states of a ring. -/
def Ring.reserved (side : Side) (before after : Ring α) : Nat :=
  ((after.core.cursors side).head - (before.core.cursors side).head).toNat

namespace Ring.IsShelf

variable {ring : Ring α} {capacity : Capacity}

theorem length_lt (shelf : ring.IsShelf capacity) : ring.toList.length < capacity.size := by
  rw [← shelf.capacity]
  exact shelf.settled.fits

theorem vacancy_eq (shelf : ring.IsShelf capacity) :
    ring.vacancy = capacity.size - 1 - ring.toList.length := by
  rw [Ring.vacancy, shelf.capacity]

theorem vacancy_lt_wordSize (shelf : ring.IsShelf capacity) : ring.vacancy < UInt32.size := by
  have small := capacity.size_lt_wordSize
  rw [shelf.vacancy_eq]
  omega

def queue (shelf : ring.IsShelf capacity) : BoundedQueue α where
  capacity := capacity
  policy := .burst
  watermark := none
  items := ring.toList
  fits := Nat.le_pred_of_lt shelf.length_lt

theorem represents (shelf : ring.IsShelf capacity) : ring.Represents shelf.queue :=
  ⟨shelf.settled, shelf.capacity, shelf.policy, shelf.watermark, rfl⟩

theorem of_represents {queue : BoundedQueue α} (view : ring.Represents queue)
    (policy : queue.policy = .burst) (watermark : queue.watermark = none) :
    ring.IsShelf queue.capacity :=
  ⟨view.settled, view.capacity, view.policy.trans policy, view.watermark.trans watermark⟩

theorem queue_free (shelf : ring.IsShelf capacity) : shelf.queue.free = ring.vacancy :=
  shelf.vacancy_eq.symm

theorem portion_burst (requested room : Nat) :
    TransferPolicy.burst.portion requested room = min requested room := by
  unfold TransferPolicy.portion
  split
  case isTrue enough => exact (Nat.min_eq_left enough).symm
  case isFalse tooMany => exact (Nat.min_eq_right (Nat.le_of_not_le tooMany)).symm

/-! ## One object -/

theorem dequeue? (shelf : ring.IsShelf capacity) (exclusive : Bool) :
    (ring.toList = [] ∧ ring.dequeue? exclusive = none) ∨
    (∃ first changed, ring.toList = first :: changed.toList ∧
      ring.dequeue? exclusive = some (first, changed) ∧ changed.IsShelf capacity) := by
  rcases shelf.represents.dequeue? exclusive with
    ⟨empty, refused⟩ | ⟨first, rest, changed, items, taken, after⟩
  · exact Or.inl ⟨empty, refused⟩
  · refine Or.inr ⟨first, changed, ?_, taken, of_represents after rfl rfl⟩
    have left : changed.toList = rest := by
      rw [after.items, BoundedQueue.drop_items, items, List.drop_one, List.tail_cons]
    rw [left]
    exact items

theorem enqueue? (shelf : ring.IsShelf capacity) (item : α) (exclusive : Bool) :
    (ring.vacancy = 0 ∧ ring.enqueue? item exclusive = none) ∨
    (0 < ring.vacancy ∧ ∃ changed, ring.enqueue? item exclusive = some changed ∧
      changed.toList = ring.toList ++ [item] ∧ changed.IsShelf capacity) := by
  rw [← shelf.queue_free]
  rcases shelf.represents.enqueue? item exclusive with
    ⟨full, refused⟩ | ⟨room, changed, added, after⟩
  · exact Or.inl ⟨full, refused⟩
  · refine Or.inr ⟨room, changed, added, ?_, of_represents after rfl rfl⟩
    rw [after.items]
    exact shelf.queue.append_items room

/-! ## Bulks -/

theorem dequeueBulk (shelf : ring.IsShelf capacity) (most : UInt32) (exclusive : Bool) :
    (ring.dequeueBulk most exclusive).1.IsShelf capacity ∧
      (ring.dequeueBulk most exclusive).1.toList = ring.toList.drop most.toNat ∧
      (ring.dequeueBulk most exclusive).2 = ring.toList.take most.toNat := by
  obtain ⟨after, taken⟩ := shelf.represents.consume most exclusive
  have portion : shelf.queue.policy.portion most.toNat shelf.queue.items.length =
      min most.toNat ring.toList.length := portion_burst _ _
  refine ⟨of_represents after rfl rfl, ?_, ?_⟩
  · refine after.items.trans ?_
    rw [BoundedQueue.take, portion]
    exact List.drop_eq_drop_min.symm
  · refine taken.trans ?_
    rw [BoundedQueue.take, portion]
    exact List.take_eq_take_min.symm

theorem enqueueBulk (shelf : ring.IsShelf capacity) (items : List α) (exclusive : Bool) :
    ∃ changed enqueued,
      ring.enqueueBulk items exclusive = .ok (changed, enqueued, items.drop ring.vacancy) ∧
      enqueued.count.toNat = min items.length ring.vacancy ∧
      changed.toList = ring.toList ++ items.take ring.vacancy ∧ changed.IsShelf capacity := by
  have small := shelf.vacancy_lt_wordSize
  have portion : shelf.queue.policy.portion (min items.length (UInt32.size - 1))
      shelf.queue.free = min items.length ring.vacancy := by
    rw [shelf.queue_free]
    refine (portion_burst _ _).trans ?_
    omega
  have accepted : ¬ (shelf.queue.policy = .fixed ∧
      shelf.queue.free < min items.length (UInt32.size - 1)) := by
    rintro ⟨fixed, -⟩
    cases fixed
  rcases shelf.represents.produce items exclusive with
    ⟨refusal, offered, -⟩ | ⟨changed, after, enqueued, offered, produced, view⟩
  · simp only [BoundedQueue.offer, if_neg accepted] at offered
    cases offered
  · simp only [BoundedQueue.offer, if_neg accepted, portion, Except.ok.injEq, Prod.mk.injEq]
      at offered
    obtain ⟨rfl, told⟩ := offered
    have count : enqueued.count.toNat = min items.length ring.vacancy := by
      rw [← told]
      exact UInt32.toNat_ofNat_of_lt' (by omega)
    refine ⟨changed, enqueued, ?_, count, ?_, of_represents view rfl rfl⟩
    · rw [Ring.enqueueBulk, produced]
      simp only [count]
      rw [Nat.min_comm, ← List.drop_eq_drop_min]
    · rw [view.items, shelf.queue.append_items]
      · change ring.toList ++ items.take (min items.length ring.vacancy) = _
        rw [Nat.min_comm, ← List.take_eq_take_min]
      · rw [shelf.queue_free, List.length_take]
        omega

theorem offerBulk (shelf : ring.IsShelf capacity) (items : List α) :
    ∃ changed stored, ring.offerBulk items = (changed, stored, items.drop ring.vacancy) ∧
      stored.toNat = min items.length ring.vacancy ∧
      changed.toList = ring.toList ++ items.take ring.vacancy ∧ changed.IsShelf capacity := by
  obtain ⟨changed, enqueued, moved, count, list, after⟩ := shelf.enqueueBulk items false
  exact ⟨changed, enqueued.count, by rw [Ring.offerBulk, moved], count, list, after⟩

/-! ## Gauges -/

theorem isEmpty (shelf : ring.IsShelf capacity) : ring.isEmpty = ring.toList.isEmpty := by
  have small := shelf.represents.count
  rw [Ring.isEmpty, small, ofNat_beq_zero shelf.queue.items_lt_wordSize]
  change (ring.toList.length == 0) = _
  cases ring.toList <;> rfl

theorem count_toNat (shelf : ring.IsShelf capacity) :
    ring.count.toNat = ring.toList.length := by
  rw [shelf.represents.count]
  exact UInt32.toNat_ofNat_of_lt' shelf.queue.items_lt_wordSize

theorem availSpace_toNat (shelf : ring.IsShelf capacity) :
    ring.availSpace.toNat = ring.vacancy := by
  rw [shelf.represents.availSpace, shelf.queue_free,
    UInt32.toNat_ofNat_of_lt' shelf.vacancy_lt_wordSize]

theorem room_producer_le (shelf : ring.IsShelf capacity) :
    ring.core.room .producer ring.core.producer.head ≤ ring.usableCapacity := by
  rw [UInt32.le_iff_toNat_le, shelf.settled.room_producer, Ring.usableCapacity,
    Capacity.mask_toNat]
  exact Nat.sub_le _ _

/-! ## Reservations -/

/-- Slots are reserved for just the objects that are taken, on the consumers' side. -/
theorem reserved_dequeueBulk (shelf : ring.IsShelf capacity) (most : UInt32) (exclusive : Bool) :
    Ring.reserved .producer ring (ring.dequeueBulk most exclusive).1 = 0 ∧
      Ring.reserved .consumer ring (ring.dequeueBulk most exclusive).1 =
        (ring.dequeueBulk most exclusive).2.length := by
  by_cases none : most = 0
  · subst most
    simp [Ring.dequeueBulk, Ring.consume, Ring.reserved]
  · have portion := portion_burst most.toNat ring.toList.length
    have taken := shelf.represents.consume_eq (UInt32.pos_iff_ne_zero.mpr none) portion exclusive
    have small := shelf.queue.items_lt_wordSize
    change ring.toList.length < UInt32.size at small
    rw [Ring.dequeueBulk, taken]
    split
    case isTrue nothing => simp [Ring.reserved]
    case isFalse some =>
      have length : (shelf.queue.items.take (min most.toNat ring.toList.length)).length =
          min most.toNat ring.toList.length := by
        change (ring.toList.take _).length = _
        rw [List.length_take]
        omega
      refine ⟨?_, ?_⟩
      · simp [Ring.reserved, Core.released, Core.cursors, Core.setHead, Core.setTail]
      · rw [length]
        change ((ring.core.consumer.head + UInt32.ofNat _) - ring.core.consumer.head).toNat = _
        rw [UInt32.add_comm, UInt32.add_sub_cancel, UInt32.toNat_ofNat_of_lt' (by omega)]

theorem reserved_offerBulk (shelf : ring.IsShelf capacity) (items : List α) :
    Ring.reserved .producer ring (ring.offerBulk items).1 = (ring.offerBulk items).2.1.toNat ∧
      Ring.reserved .consumer ring (ring.offerBulk items).1 = 0 := by
  have same : Ring.reserved .producer ring ring = 0 ∧ Ring.reserved .consumer ring ring = 0 := by
    simp [Ring.reserved]
  by_cases empty : requestSize items.length = 0
  · have nothing : ring.produce items false = .ok (ring, .nothing) := by
      rw [Ring.produce]
      simp only [empty, if_true]
    simp only [Ring.offerBulk, Ring.enqueueBulk, nothing]
    exact same
  · have asks := UInt32.pos_iff_ne_zero.mpr empty
    by_cases full : shelf.queue.policy.portion (requestSize items.length).toNat
        shelf.queue.free = 0
    · have nothing : ring.produce items false = .ok (ring, .nothing) :=
        shelf.represents.produce_short asks full false
      simp only [Ring.offerBulk, Ring.enqueueBulk, nothing]
      exact same
    · have granted := shelf.represents.produce_granted asks rfl full false
      have notMore := shelf.queue.policy.portion_le_requested (requestSize items.length).toNat
        shelf.queue.free
      rw [requestSize_toNat] at notMore
      have length : (items.take (shelf.queue.policy.portion (requestSize items.length).toNat
          shelf.queue.free)).length =
            shelf.queue.policy.portion (requestSize items.length).toNat shelf.queue.free := by
        rw [List.length_take, requestSize_toNat]
        omega
      simp only [Ring.offerBulk, Ring.enqueueBulk, granted, Ring.reserved]
      change ((Core.filled _ _).producer.head - ring.core.producer.head).toNat = _ ∧
        ((Core.filled _ _).consumer.head - ring.core.consumer.head).toNat = 0
      rw [Core.filled_producer, Core.filled_consumer, length, UInt32.add_comm,
        UInt32.add_sub_cancel, UInt32.sub_self]
      exact ⟨rfl, rfl⟩

end Ring.IsShelf

theorem Ring.forObjects_isShelf [Inhabited α] (capacity : Capacity) :
    (Ring.forObjects capacity : Ring α).IsShelf capacity :=
  ⟨Core.create_settled capacity default 0, rfl, rfl, rfl⟩

@[simp] theorem Ring.forObjects_toList [Inhabited α] (capacity : Capacity) :
    (Ring.forObjects capacity : Ring α).toList = [] :=
  Core.create_leftovers capacity default 0

end RingPool

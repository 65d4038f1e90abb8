import RingPool.Ring.Session
import RingPool.Proofs.Ring.Elements

/-!
# A ring used by one thread is a bounded queue

A `BoundedQueue` is a list with a limit on its length, and its operations say what
transfers do in terms of that list alone: no cursors, slots or paths.  A ring
`Represents` a queue if it is at rest and holds the elements of the queue.  Each
operation of a ring then answers as the queue does and represents the queue
after it, and so a whole session does, however often its cursors wrap.
-/

set_option autoImplicit false

namespace RingPool

/-- How many elements a transfer moves that asks for `requested` where `room` are
possible. -/
def TransferPolicy.portion (policy : TransferPolicy) (requested room : Nat) : Nat :=
  if requested ≤ room then requested
  else match policy with
    | .fixed => 0
    | .burst => room

/-- A list of elements, oldest first, with one slot at least to spare. -/
structure BoundedQueue (α : Type) where
  capacity : Capacity
  policy : TransferPolicy
  watermark : Option UInt32
  items : List α
  fits : items.length ≤ capacity.size - 1

inductive Transfer (α : Type) where
  | enqueue (item : α) (exclusive : Bool)
  | enqueueBulk (items : List α) (exclusive : Bool)
  | enqueueSlice (items : List α) (exclusive : Bool)
  | dequeue (exclusive : Bool)
  | dequeueBulk (most : UInt32) (out : List α) (exclusive : Bool)
  | dequeueSlice (buffer : List α) (exclusive : Bool)

def Transfer.toStep {α : Type} : Transfer α → RingStep α
  | .enqueue item exclusive => .enqueue item exclusive
  | .enqueueBulk items exclusive => .enqueueBulk items exclusive
  | .enqueueSlice items exclusive => .enqueueSlice items exclusive
  | .dequeue exclusive => .dequeue exclusive
  | .dequeueBulk most out exclusive => .dequeueBulk most out exclusive
  | .dequeueSlice buffer exclusive => .dequeueSlice buffer exclusive

namespace TransferPolicy

theorem portion_le_requested (policy : TransferPolicy) (requested room : Nat) :
    policy.portion requested room ≤ requested := by
  unfold portion
  cases policy <;> simp only <;> split <;> omega

theorem portion_le_room (policy : TransferPolicy) (requested room : Nat) :
    policy.portion requested room ≤ room := by
  unfold portion
  cases policy <;> simp only <;> split <;> omega

theorem portion_of_le (policy : TransferPolicy) {requested room : Nat}
    (enough : requested ≤ room) : policy.portion requested room = requested :=
  if_pos enough

theorem portion_fixed_of_lt {requested room : Nat} (tooMany : room < requested) :
    TransferPolicy.fixed.portion requested room = 0 :=
  if_neg (Nat.not_le.mpr tooMany)

theorem lt_of_portion_eq_zero (policy : TransferPolicy) (requested room : Nat)
    (asks : 0 < requested) (nothing : policy.portion requested room = 0) : room < requested := by
  by_contra enough
  rw [policy.portion_of_le (Nat.le_of_not_lt enough)] at nothing
  omega

end TransferPolicy

namespace BoundedQueue

variable {α : Type}

def empty (capacity : Capacity) (policy : TransferPolicy) (watermark : Option UInt32) :
    BoundedQueue α :=
  ⟨capacity, policy, watermark, [], Nat.zero_le _⟩

def free (queue : BoundedQueue α) : Nat := queue.capacity.size - 1 - queue.items.length

/-- The number of elements that a side can move: into free places or from the
front. -/
def room (queue : BoundedQueue α) : Side → Nat
  | .producer => queue.free
  | .consumer => queue.items.length

def append (queue : BoundedQueue α) (values : List α) : BoundedQueue α where
  capacity := queue.capacity
  policy := queue.policy
  watermark := queue.watermark
  items := queue.items ++ values.take queue.free
  fits := by
    have fits := queue.fits
    rw [List.length_append, List.length_take, free]
    omega

def drop (queue : BoundedQueue α) (count : Nat) : BoundedQueue α where
  capacity := queue.capacity
  policy := queue.policy
  watermark := queue.watermark
  items := queue.items.drop count
  fits := by
    have fits := queue.fits
    rw [List.length_drop]
    omega

def aboveWatermark (queue : BoundedQueue α) : Bool :=
  match queue.watermark with
  | none => false
  | some mark => mark.toNat < queue.items.length

/-- Offers a list of values, of which a word's worth counts. -/
def offer (queue : BoundedQueue α) (values : List α) :
    Except RingError (BoundedQueue α × Enqueued) :=
  let requested := min values.length (UInt32.size - 1)
  if queue.policy = .fixed ∧ queue.free < requested then
    .error (.capacityExceeded (UInt32.ofNat requested) (UInt32.ofNat queue.free))
  else
    let moved := queue.policy.portion requested queue.free
    let after := queue.append (values.take moved)
    .ok (after, ⟨UInt32.ofNat moved, 0 < moved && after.aboveWatermark⟩)

def take (queue : BoundedQueue α) (requested : Nat) : BoundedQueue α × List α :=
  let moved := queue.policy.portion requested queue.items.length
  (queue.drop moved, queue.items.take moved)

/-- The answer to a transfer and the queue after it. -/
def run (queue : BoundedQueue α) : Transfer α → BoundedQueue α × RingReply α
  | .enqueue item _ =>
      if 0 < queue.free then (queue.append [item], .accepted) else (queue, .full item)
  | .enqueueBulk items _ =>
      match queue.offer items with
      | .ok (after, enqueued) => (after, .bulk enqueued (items.drop enqueued.count.toNat))
      | .error refusal => (queue, .bulkRefused refusal items)
  | .enqueueSlice items _ =>
      match queue.offer items with
      | .ok (after, enqueued) => (after, .slice enqueued)
      | .error refusal => (queue, .sliceRefused refusal)
  | .dequeue _ => (queue.drop 1, .taken queue.items.head?)
  | .dequeueBulk most out _ =>
      let (after, taken) := queue.take most.toNat
      (after, .dequeued taken.length (out ++ taken))
  | .dequeueSlice buffer _ =>
      let (after, taken) := queue.take buffer.length
      (after, .dequeued taken.length (taken ++ buffer.drop taken.length))

def gauge (queue : BoundedQueue α) : Gauge where
  count := UInt32.ofNat queue.items.length
  availSpace := UInt32.ofNat queue.free
  isEmpty := queue.items.isEmpty
  isFull := queue.free == 0

/-- The answers to a list of transfers, each with the gauge after it, and what is
left in the end. -/
def session (queue : BoundedQueue α) : List (Transfer α) → RingTranscript α
  | [] => ⟨[], [], queue.items⟩
  | transfer :: transfers =>
      let (after, reply) := queue.run transfer
      let rest := after.session transfers
      ⟨(reply, after.gauge) :: rest.answers, rest.discarded, rest.leftovers⟩

@[simp] theorem append_nil (queue : BoundedQueue α) : queue.append [] = queue := by
  simp [append]

@[simp] theorem drop_items (queue : BoundedQueue α) (count : Nat) :
    (queue.drop count).items = queue.items.drop count := rfl

theorem append_items (queue : BoundedQueue α) {values : List α}
    (room : values.length ≤ queue.free) :
    (queue.append values).items = queue.items ++ values :=
  congrArg (queue.items ++ ·) (List.take_of_length_le room)

theorem length_add_free (queue : BoundedQueue α) :
    queue.items.length + queue.free = queue.capacity.size - 1 :=
  Nat.add_sub_of_le queue.fits

theorem free_lt_wordSize (queue : BoundedQueue α) : queue.free < UInt32.size := by
  have small := queue.capacity.size_lt_wordSize
  unfold free
  omega

theorem items_lt_wordSize (queue : BoundedQueue α) : queue.items.length < UInt32.size := by
  have small := queue.capacity.size_lt_wordSize
  have fits := queue.fits
  omega

end BoundedQueue

/-- The ring is at rest and holds the elements of the queue. -/
structure Ring.Represents {α : Type} (ring : Ring α) (queue : BoundedQueue α) : Prop where
  settled : ring.core.Settled
  capacity : ring.core.capacity = queue.capacity
  policy : ring.policy = queue.policy
  watermark : ring.watermark = queue.watermark
  items : ring.toList = queue.items

/-! ## What a request gets -/

theorem requestSize_toNat (length : Nat) :
    (requestSize length).toNat = min length (UInt32.size - 1) := by
  unfold requestSize UInt32.size
  rw [UInt32.toNat_ofNat']
  omega

theorem requestSize_eq_zero {length : Nat} : requestSize length = 0 ↔ length = 0 := by
  rw [← UInt32.toNat_inj, requestSize_toNat]
  unfold UInt32.size
  simp only [UInt32.toNat_zero]
  omega

/-- More than a word can say is in any case more than a ring holds. -/
theorem BoundedQueue.take_requestSize {α : Type} (queue : BoundedQueue α) (length : Nat) :
    queue.take (requestSize length).toNat = queue.take length := by
  have few := queue.fits
  have slots := queue.capacity.two_le_size
  have small := queue.capacity.size_lt_wordSize
  have same : queue.policy.portion (requestSize length).toNat queue.items.length =
      queue.policy.portion length queue.items.length := by
    rw [requestSize_toNat]
    unfold TransferPolicy.portion
    by_cases sayable : length ≤ UInt32.size - 1
    · rw [Nat.min_eq_left sayable]
    · have word : ¬ UInt32.size - 1 ≤ queue.items.length := by omega
      have beyond : ¬ length ≤ queue.items.length := by omega
      rw [Nat.min_eq_right (Nat.le_of_not_le sayable), if_neg word, if_neg beyond]
  rw [take, take, same]

theorem Request.fit?_eq_portion (request : Request) (policy : TransferPolicy) (room : UInt32)
    (obeys : request.allowPartial = (policy == .burst)) (asks : 0 < request.count) :
    request.fit? room =
      if policy.portion request.count.toNat room.toNat = 0 then none
      else some (UInt32.ofNat (policy.portion request.count.toNat room.toNat)) := by
  rw [UInt32.lt_iff_toNat_lt, UInt32.toNat_zero] at asks
  unfold Request.fit? TransferPolicy.portion
  simp only [UInt32.le_iff_toNat_le, UInt32.lt_iff_toNat_lt, UInt32.toNat_zero, obeys]
  by_cases enough : request.count.toNat ≤ room.toNat
  · simp [enough, Nat.ne_of_gt asks]
  · cases policy with
    | fixed => simp [enough]
    | burst =>
        by_cases none : room.toNat = 0
        · have some : ¬ request.count.toNat = 0 := Nat.ne_of_gt asks
          simp [none, some]
        · simp [enough, none, Nat.pos_of_ne_zero none]

theorem ofNat_beq_zero {count : Nat} (small : count < UInt32.size) :
    (UInt32.ofNat count == 0) = (count == 0) := by
  rw [Bool.eq_iff_iff, beq_iff_eq, beq_iff_eq, ← UInt32.toNat_inj,
    UInt32.toNat_ofNat_of_lt' small, UInt32.toNat_zero]

namespace Ring.Represents

variable {α : Type} {ring : Ring α} {queue : BoundedQueue α}

theorem leftovers (view : ring.Represents queue) : ring.core.leftovers = queue.items :=
  view.items

theorem room_toNat (view : ring.Represents queue) (side : Side) :
    (ring.core.room side (ring.core.cursors side).head).toNat = queue.room side := by
  cases side with
  | producer =>
      rw [BoundedQueue.room, BoundedQueue.free, ← view.capacity, ← view.leftovers]
      exact view.settled.room_producer
  | consumer =>
      rw [BoundedQueue.room, ← view.leftovers]
      exact view.settled.room_consumer

theorem filled (view : ring.Represents queue) (values : List α)
    (fits : values.length ≤ queue.free) :
    ({ ring with core := ring.core.filled values }).Represents (queue.append values) := by
  have few := queue.fits
  have positive := queue.capacity.two_le_size
  have room : ring.core.leftovers.length + values.length < ring.core.capacity.size := by
    rw [view.leftovers, view.capacity]
    unfold BoundedQueue.free at fits
    omega
  constructor
  case settled => exact view.settled.filled room
  case capacity => exact (ring.core.filled_capacity values).trans view.capacity
  case policy => exact view.policy
  case watermark => exact view.watermark
  case items =>
    refine (view.settled.leftovers_filled room).trans ?_
    rw [view.leftovers, queue.append_items fits]

theorem released (view : ring.Represents queue) {count : Nat}
    (enough : count ≤ queue.items.length) :
    ({ ring with core := ring.core.released count }).Represents (queue.drop count) := by
  rw [← view.leftovers] at enough
  constructor
  case settled => exact view.settled.released enough
  case capacity => exact (ring.core.released_capacity count).trans view.capacity
  case policy => exact view.policy
  case watermark => exact view.watermark
  case items =>
    refine (view.settled.leftovers_released enough).trans ?_
    rw [view.leftovers, queue.drop_items]

/-! ## The operations -/

theorem claim_eq (view : ring.Represents queue) (side : Side) {count : UInt32}
    (asks : 0 < count) (policy : TransferPolicy) (exclusive : Bool) :
    let moved := policy.portion count.toNat (queue.room side)
    ring.core.claim ⟨side, count, policy == .burst, exclusive⟩ =
      if moved = 0 then (ring.core, .short (UInt32.ofNat (queue.room side)))
      else (ring.core.setHead side (ring.core.upcoming side moved).next,
        .granted (ring.core.upcoming side moved)) := by
  intro moved
  have room := view.room_toNat side
  have fit := Request.fit?_eq_portion ⟨side, count, policy == .burst, exclusive⟩ policy
    (ring.core.room side (ring.core.cursors side).head) rfl asks
  rw [room] at fit
  by_cases none : moved = 0
  · rw [if_pos none] at fit ⊢
    rw [Core.claim_short fit, ← room, UInt32.ofNat_toNat]
  · rw [if_neg none] at fit ⊢
    exact Core.claim_granted fit

theorem exceedsQuota (view : ring.Represents queue) (values : List α)
    (fits : values.length ≤ queue.free) :
    ring.exceedsQuota (ring.core.upcoming .producer values.length) =
      (queue.append values).aboveWatermark := by
  have small := queue.items_lt_wordSize
  have total := queue.length_add_free
  have whole := queue.capacity.size_lt_wordSize
  have usable : ring.usableCapacity.toNat = queue.capacity.size - 1 := by
    rw [Ring.usableCapacity, view.capacity, Capacity.mask_toNat]
  have free : (ring.core.upcoming .producer values.length).observed.toNat = queue.free :=
    view.room_toNat .producer
  have added : (UInt32.ofNat values.length).toNat = values.length :=
    UInt32.toNat_ofNat_of_lt' (by omega)
  have below : (ring.core.upcoming .producer values.length).observed ≤ ring.usableCapacity := by
    rw [UInt32.le_iff_toNat_le, free, usable]
    omega
  have occupied : (ring.usableCapacity - (ring.core.upcoming .producer values.length).observed +
      (ring.core.upcoming .producer values.length).len).toNat =
        (queue.append values).items.length := by
    rw [Core.upcoming_len, UInt32.toNat_add, UInt32.toNat_sub_of_le _ _ below, free, usable,
      added, queue.append_items fits, List.length_append]
    unfold UInt32.size at whole
    omega
  have sameMark : (queue.append values).watermark = ring.watermark := view.watermark.symm
  unfold Ring.exceedsQuota BoundedQueue.aboveWatermark
  rw [sameMark]
  cases ring.watermark with
  | none => rfl
  | some mark => simp only [UInt32.lt_iff_toNat_lt, occupied]

theorem produce_granted (view : ring.Represents queue) {items : List α} {moved : Nat}
    (asks : 0 < requestSize items.length)
    (portion : queue.policy.portion (requestSize items.length).toNat queue.free = moved)
    (some : moved ≠ 0) (exclusive : Bool) :
    ring.produce items exclusive =
      .ok ({ ring with core := ring.core.filled (items.take moved) },
        ⟨UInt32.ofNat moved, (queue.append (items.take moved)).aboveWatermark⟩) := by
  have notMore := queue.policy.portion_le_requested (requestSize items.length).toNat queue.free
  have inRoom := queue.policy.portion_le_room (requestSize items.length).toNat queue.free
  rw [portion] at notMore inRoom
  rw [requestSize_toNat] at notMore
  have length : (items.take moved).length = moved := by
    rw [List.length_take]
    omega
  have size : (UInt32.ofNat moved).toNat = moved :=
    UInt32.toNat_ofNat_of_lt' (Nat.lt_of_le_of_lt inRoom queue.free_lt_wordSize)
  have claimed := view.claim_eq .producer asks queue.policy exclusive
  simp only [BoundedQueue.room, portion, if_neg some] at claimed
  have quota := view.exceedsQuota (items.take moved) (by omega)
  have filled := view.settled.publish_filled (items.take moved) exclusive
  rw [length] at quota filled
  have nonempty : requestSize items.length ≠ 0 := (UInt32.ne_of_lt asks).symm
  unfold Ring.produce
  simp only [if_neg nonempty, view.policy, claimed, Core.upcoming_len, size, quota]
  rw [← filled]
  rfl

theorem produce_short (view : ring.Represents queue) {items : List α}
    (asks : 0 < requestSize items.length)
    (nothing : queue.policy.portion (requestSize items.length).toNat queue.free = 0)
    (exclusive : Bool) :
    ring.produce items exclusive =
      match queue.policy with
      | .fixed => .error (.capacityExceeded (requestSize items.length) (UInt32.ofNat queue.free))
      | .burst => .ok (ring, .nothing) := by
  have claimed := view.claim_eq .producer asks queue.policy exclusive
  simp only [BoundedQueue.room, nothing, if_true] at claimed
  have nonempty : requestSize items.length ≠ 0 := (UInt32.ne_of_lt asks).symm
  unfold Ring.produce
  cases policy : queue.policy with
  | fixed =>
      rw [policy] at claimed
      simp only [if_neg nonempty, view.policy, policy, claimed]
  | burst =>
      rw [policy] at claimed
      simp only [if_neg nonempty, view.policy, policy, claimed]

theorem produce (view : ring.Represents queue) (items : List α) (exclusive : Bool) :
    (∃ refusal, queue.offer items = .error refusal ∧
      ring.produce items exclusive = .error refusal) ∨
    (∃ changed after enqueued, queue.offer items = .ok (after, enqueued) ∧
      ring.produce items exclusive = .ok (changed, enqueued) ∧ changed.Represents after) := by
  have requested := requestSize_toNat items.length
  by_cases empty : items.length = 0
  · refine Or.inr ⟨ring, queue, .nothing, ?_, ?_, view⟩
    · simp [BoundedQueue.offer, TransferPolicy.portion, empty, Enqueued.nothing]
    · simp [Ring.produce, requestSize_eq_zero.mpr empty]
  · have asks : 0 < requestSize items.length := by
      rw [UInt32.lt_iff_toNat_lt, requested, UInt32.toNat_zero]
      unfold UInt32.size
      omega
    by_cases nothing : queue.policy.portion (requestSize items.length).toNat queue.free = 0
    · have short := view.produce_short asks nothing exclusive
      have tooMany := queue.policy.lt_of_portion_eq_zero _ _ (UInt32.lt_iff_toNat_lt.mp asks)
        nothing
      cases policy : queue.policy with
      | fixed =>
          rw [policy] at short
          refine Or.inl ⟨_, ?_, short⟩
          simp only [BoundedQueue.offer, ← requested, policy, tooMany, and_self, if_true,
            UInt32.ofNat_toNat]
      | burst =>
          rw [policy] at short nothing
          refine Or.inr ⟨ring, queue, .nothing, ?_, short, view⟩
          simp only [BoundedQueue.offer, ← requested, policy, nothing]
          simp [Enqueued.nothing]
    · have granted := view.produce_granted asks rfl nothing exclusive
      have inRoom := queue.policy.portion_le_room (requestSize items.length).toNat queue.free
      have accepted :
          ¬ (queue.policy = .fixed ∧ queue.free < (requestSize items.length).toNat) := by
        rintro ⟨fixed, tooMany⟩
        rw [fixed, TransferPolicy.portion_fixed_of_lt tooMany] at nothing
        exact nothing rfl
      refine Or.inr ⟨_, _, _, ?_, granted, view.filled _ ?_⟩
      · simp only [BoundedQueue.offer, ← requested, if_neg accepted, Nat.pos_of_ne_zero nothing,
          decide_true, Bool.true_and]
      · rw [List.length_take]
        omega

theorem consume_eq (view : ring.Represents queue) {requested : UInt32} {moved : Nat}
    (asks : 0 < requested)
    (portion : queue.policy.portion requested.toNat queue.items.length = moved)
    (exclusive : Bool) :
    ring.consume requested exclusive =
      if moved = 0 then (ring, [])
      else ({ ring with core := ring.core.released moved }, queue.items.take moved) := by
  have claimed := view.claim_eq .consumer asks queue.policy exclusive
  have enough := queue.policy.portion_le_room requested.toNat queue.items.length
  rw [portion] at enough
  simp only [BoundedQueue.room, portion] at claimed
  have nonempty : requested ≠ 0 := (UInt32.ne_of_lt asks).symm
  unfold Ring.consume
  by_cases nothing : moved = 0
  · simp only [if_neg nonempty, view.policy, claimed, if_pos nothing]
  · have size : (UInt32.ofNat moved).toNat = moved :=
      UInt32.toNat_ofNat_of_lt' (Nat.lt_of_le_of_lt enough queue.items_lt_wordSize)
    rw [← view.leftovers] at enough ⊢
    simp only [if_neg nonempty, view.policy, claimed, if_neg nothing,
      view.settled.publish_released, Core.readRange_setHead, Core.upcoming_len, size]
    rw [← view.settled.readRange_head _ enough]
    rfl

theorem consume (view : ring.Represents queue) (requested : UInt32) (exclusive : Bool) :
    (ring.consume requested exclusive).1.Represents (queue.take requested.toNat).1 ∧
      (ring.consume requested exclusive).2 = (queue.take requested.toNat).2 := by
  by_cases empty : requested = 0
  · subst requested
    have untouched : queue.drop 0 = queue := rfl
    simpa [Ring.consume, BoundedQueue.take, TransferPolicy.portion, untouched] using view
  · have served := view.consume_eq (UInt32.pos_iff_ne_zero.mpr empty) rfl exclusive
    rw [BoundedQueue.take, served]
    split
    case isTrue nothing =>
      rw [nothing]
      exact ⟨view, rfl⟩
    case isFalse =>
      exact ⟨view.released (queue.policy.portion_le_room _ _), rfl⟩

theorem enqueue? (view : ring.Represents queue) (item : α) (exclusive : Bool) :
    (queue.free = 0 ∧ ring.enqueue? item exclusive = none) ∨
    (0 < queue.free ∧ ∃ changed, ring.enqueue? item exclusive = some changed ∧
      changed.Represents (queue.append [item])) := by
  have claimed := view.claim_eq .producer (by decide : (0 : UInt32) < 1) .fixed exclusive
  rw [show (TransferPolicy.fixed == .burst) = false from rfl] at claimed
  simp only [BoundedQueue.room, UInt32.toNat_one] at claimed
  unfold Ring.enqueue?
  rcases Nat.eq_zero_or_pos queue.free with full | room
  · refine Or.inl ⟨full, ?_⟩
    simp [claimed, full, TransferPolicy.portion]
  · rw [TransferPolicy.portion_of_le _ (show 1 ≤ queue.free from room), if_neg one_ne_zero]
      at claimed
    refine Or.inr ⟨room, _, ?_, view.filled [item] room⟩
    rw [← view.settled.publish_filled [item] exclusive, claimed]
    rfl

theorem dequeue? (view : ring.Represents queue) (exclusive : Bool) :
    (queue.items = [] ∧ ring.dequeue? exclusive = none) ∨
    (∃ first rest changed, queue.items = first :: rest ∧
      ring.dequeue? exclusive = some (first, changed) ∧ changed.Represents (queue.drop 1)) := by
  have claimed := view.claim_eq .consumer (by decide : (0 : UInt32) < 1) .fixed exclusive
  rw [show (TransferPolicy.fixed == .burst) = false from rfl] at claimed
  simp only [BoundedQueue.room, UInt32.toNat_one] at claimed
  unfold Ring.dequeue?
  cases items : queue.items with
  | nil =>
      refine Or.inl ⟨rfl, ?_⟩
      simp [claimed, items, TransferPolicy.portion]
  | cons first rest =>
      have some : 1 ≤ queue.items.length := by simp [items]
      rw [TransferPolicy.portion_of_le _ some, if_neg one_ne_zero] at claimed
      have read := view.settled.readRange_head 1 (by rwa [view.leftovers])
      rw [view.leftovers, items] at read
      have oldest : ring.core.read (ring.core.upcoming .consumer 1).head = first := by
        change ring.core.read ring.core.consumer.head = first
        simpa [Core.readRange] using read
      refine Or.inr ⟨first, rest, _, rfl, ?_, view.released some⟩
      rw [← view.settled.publish_released 1 exclusive, claimed]
      simp only [Core.read_setHead, oldest]

/-! ## Sessions -/

theorem count (view : ring.Represents queue) :
    ring.count = UInt32.ofNat queue.items.length := by
  rw [← view.leftovers, ← view.settled.committed_toNat, UInt32.ofNat_toNat]
  rfl

theorem availSpace (view : ring.Represents queue) :
    ring.availSpace = UInt32.ofNat queue.free := by
  have usable : ring.usableCapacity.toNat = queue.capacity.size - 1 := by
    rw [Ring.usableCapacity, view.capacity, Capacity.mask_toNat]
  have counted : ring.count.toNat = queue.items.length := by
    rw [view.count, UInt32.toNat_ofNat_of_lt' queue.items_lt_wordSize]
  have below : ring.count ≤ ring.usableCapacity := by
    rw [UInt32.le_iff_toNat_le, counted, usable]
    exact queue.fits
  rw [← UInt32.toNat_inj, UInt32.toNat_ofNat_of_lt' queue.free_lt_wordSize, Ring.availSpace,
    UInt32.toNat_sub_of_le _ _ below, counted, usable, BoundedQueue.free]

theorem gauge (view : ring.Represents queue) : ring.gauge = queue.gauge := by
  have empty : ring.isEmpty = queue.items.isEmpty := by
    rw [Ring.isEmpty, view.count, ofNat_beq_zero queue.items_lt_wordSize]
    cases queue.items <;> rfl
  have full : ring.isFull = (queue.free == 0) := by
    rw [Ring.isFull, view.availSpace, ofNat_beq_zero queue.free_lt_wordSize]
  rw [Ring.gauge, BoundedQueue.gauge, view.count, view.availSpace, empty, full]

/-- A transfer is answered as the queue answers it. -/
theorem run (view : ring.Represents queue) (transfer : Transfer α) :
    ∃ changed, transfer.toStep.run ring = .ok (changed, (queue.run transfer).2, []) ∧
      changed.Represents (queue.run transfer).1 := by
  cases transfer with
  | enqueue item exclusive =>
      rcases view.enqueue? item exclusive with ⟨full, refused⟩ | ⟨room, changed, added, after⟩
      · refine ⟨ring, ?_, ?_⟩
        · simp [Transfer.toStep, RingStep.run, BoundedQueue.run, refused, full]
        · simpa [BoundedQueue.run, full] using view
      · refine ⟨changed, ?_, ?_⟩
        · simp [Transfer.toStep, RingStep.run, BoundedQueue.run, added, room]
        · simpa [BoundedQueue.run, room] using after
  | enqueueBulk items exclusive =>
      rcases view.produce items exclusive with
        ⟨refusal, offered, refused⟩ | ⟨changed, after, enqueued, offered, added, represents⟩
      · refine ⟨ring, ?_, ?_⟩
        · simp [Transfer.toStep, RingStep.run, BoundedQueue.run, Ring.enqueueBulk, refused,
            offered]
        · simpa [BoundedQueue.run, offered] using view
      · refine ⟨changed, ?_, ?_⟩
        · simp [Transfer.toStep, RingStep.run, BoundedQueue.run, Ring.enqueueBulk, added, offered]
        · simpa [BoundedQueue.run, offered] using represents
  | enqueueSlice items exclusive =>
      rcases view.produce items exclusive with
        ⟨refusal, offered, refused⟩ | ⟨changed, after, enqueued, offered, added, represents⟩
      · refine ⟨ring, ?_, ?_⟩
        · simp [Transfer.toStep, RingStep.run, BoundedQueue.run, Ring.enqueueSlice, refused,
            offered]
        · simpa [BoundedQueue.run, offered] using view
      · refine ⟨changed, ?_, ?_⟩
        · simp [Transfer.toStep, RingStep.run, BoundedQueue.run, Ring.enqueueSlice, added,
            offered]
        · simpa [BoundedQueue.run, offered] using represents
  | dequeue exclusive =>
      rcases view.dequeue? exclusive with
        ⟨empty, refused⟩ | ⟨first, rest, changed, items, taken, after⟩
      · refine ⟨ring, ?_, ?_⟩
        · simp [Transfer.toStep, RingStep.run, BoundedQueue.run, refused, empty]
        · refine ⟨view.settled, view.capacity, view.policy, view.watermark, ?_⟩
          rw [view.items, BoundedQueue.run, queue.drop_items, empty]
          rfl
      · refine ⟨changed, ?_, after⟩
        simp [Transfer.toStep, RingStep.run, BoundedQueue.run, taken, items]
  | dequeueBulk most out exclusive =>
      obtain ⟨after, taken⟩ := view.consume most exclusive
      refine ⟨_, ?_, after⟩
      simp [Transfer.toStep, RingStep.run, BoundedQueue.run, Ring.dequeueBulk, taken]
  | dequeueSlice buffer exclusive =>
      obtain ⟨after, taken⟩ := view.consume (requestSize buffer.length) exclusive
      rw [queue.take_requestSize] at after taken
      refine ⟨_, ?_, after⟩
      simp [Transfer.toStep, RingStep.run, BoundedQueue.run, Ring.dequeueSlice, taken]

theorem session (view : ring.Represents queue) (transfers : List (Transfer α)) :
    ring.session (transfers.map Transfer.toStep) = .ok (queue.session transfers) := by
  induction transfers generalizing ring queue with
  | nil => rw [List.map_nil, Ring.session, BoundedQueue.session, view.items]
  | cons transfer transfers inductionHypothesis =>
      obtain ⟨changed, answered, after⟩ := view.run transfer
      rw [List.map_cons, Ring.session, BoundedQueue.session, answered]
      simp [bind, Except.bind, pure, Except.pure, inductionHypothesis after, after.gauge]

end Ring.Represents

theorem Ring.create_represents {α : Type} [Inhabited α] (capacity : Capacity)
    (policy : TransferPolicy) (watermark : Option UInt32)
    (below : ∀ mark ∈ watermark, mark < capacity.word) :
    ∃ ring : Ring α, Ring.create capacity.word policy watermark = .ok ring ∧
      ring.Represents (.empty capacity policy watermark) := by
  refine ⟨⟨.create capacity default 0, policy, watermark⟩, ?_, ?_⟩
  · cases watermark with
    | none => simp [Ring.create, checkCapacity, capacity.ofSize?_word]
    | some mark =>
        have small := below mark rfl
        simp [Ring.create, checkCapacity, capacity.ofSize?_word, UInt32.not_le.mpr small]
  · exact ⟨Core.create_settled capacity default 0, rfl, rfl, rfl,
      Core.create_leftovers capacity default 0⟩

/-- Whatever the capacity, the policy and the watermark, and however many elements
pass through it, a ring that one thread uses answers a list of transfers as a
bounded list does, and holds that list in the end. -/
theorem transfers_act_on_bounded_list {α : Type} [Inhabited α] (capacity : Capacity)
    (policy : TransferPolicy) (watermark : Option UInt32)
    (below : ∀ mark ∈ watermark, mark < capacity.word) :
    ∃ ring : Ring α, Ring.create capacity.word policy watermark = .ok ring ∧
      ∀ transfers : List (Transfer α), ring.session (transfers.map Transfer.toStep) =
        .ok ((BoundedQueue.empty capacity policy watermark).session transfers) := by
  obtain ⟨ring, created, view⟩ :=
    Ring.create_represents (α := α) capacity policy watermark below
  exact ⟨ring, created, view.session⟩

/-- On four slots, three of five items go in and pass the watermark; one comes out,
then the other two into a buffer for three. -/
theorem transfers_act_on_bounded_list_sample :
    (∀ mark ∈ some (2 : UInt32), mark < (Capacity.mk 2 (by decide) (by decide)).word) ∧
      ∃ ring : Ring Nat, Ring.create 4 .burst (some 2) = .ok ring ∧
        ring.session [.enqueueBulk [1, 2, 3, 4, 5] false, .dequeue true,
            .dequeueSlice [0, 0, 0] false] =
          .ok ⟨[(.bulk ⟨3, true⟩ [4, 5], ⟨3, 0, false, true⟩),
            (.taken (some 1), ⟨2, 1, false, false⟩),
            (.dequeued 2 [2, 3, 0], ⟨0, 3, true, false⟩)], [], []⟩ := by
  have below : ∀ mark ∈ some (2 : UInt32),
      mark < (Capacity.mk 2 (by decide) (by decide)).word := by
    intro mark member
    cases member
    decide
  obtain ⟨ring, created, answers⟩ :=
    transfers_act_on_bounded_list (α := Nat) ⟨2, by decide, by decide⟩ .burst (some 2) below
  exact ⟨below, ring, created, answers [.enqueueBulk [1, 2, 3, 4, 5] false, .dequeue true,
    .dequeueSlice [0, 0, 0] false]⟩

end RingPool

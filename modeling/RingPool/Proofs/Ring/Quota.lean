import RingPool.Proofs.Ring.BoundedQueue

/-!
# When an enqueue reports an exceeded quota

Whatever one thread does to a ring, blocking operations and malformed steps included, the ring
stays a bounded queue with the watermark that it was made with (`Ring.Represents.step`), and so
does every ring that its steps lead to (`Ring.LeadsTo`).

Main statement: an enqueue of a bulk or of a slice that is not refused reports an exceeded quota
if and only if it has moved something and the ring counts more entries after it than the
watermark says.  An enqueue that moves nothing reports none, wherever the ring stands: into a
full ring (`full_ring_reports_no_quota`), or for an empty list of items.
-/

set_option autoImplicit false

namespace RingPool

variable {α : Type}

/-- The rings to which the steps of one thread lead. -/
inductive Ring.LeadsTo (ring : Ring α) : Ring α → Prop where
  | here : ring.LeadsTo ring
  | step {reached after : Ring α} {step : RingStep α} {reply : RingReply α} {discarded : List α}
      (before : ring.LeadsTo reached) (runs : step.run reached = .ok (after, reply, discarded)) :
      ring.LeadsTo after

/-! ## The watermark of a queue -/

theorem BoundedQueue.watermark_of_offer {queue after : BoundedQueue α} {values : List α}
    {enqueued : Enqueued} (offered : queue.offer values = .ok (after, enqueued)) :
    after.watermark = queue.watermark := by
  unfold BoundedQueue.offer at offered
  simp only at offered
  split at offered
  case isTrue => cases offered
  case isFalse =>
    cases offered
    rfl

theorem BoundedQueue.run_watermark (queue : BoundedQueue α) (transfer : Transfer α) :
    (queue.run transfer).1.watermark = queue.watermark := by
  cases transfer with
  | enqueue item exclusive =>
      rw [BoundedQueue.run]
      split <;> rfl
  | enqueueBulk items exclusive =>
      rw [BoundedQueue.run]
      split
      case h_1 offered => exact BoundedQueue.watermark_of_offer offered
      case h_2 => rfl
  | enqueueSlice items exclusive =>
      rw [BoundedQueue.run]
      split
      case h_1 offered => exact BoundedQueue.watermark_of_offer offered
      case h_2 => rfl
  | dequeue exclusive => rfl
  | dequeueBulk most out exclusive => rfl
  | dequeueSlice buffer exclusive => rfl

/-! ## Steps of one thread -/

/-- With nobody to help, a blocking enqueue is one attempt. -/
theorem RingStep.runEnqueueBlocking_ring (ring : Ring α) (item : α) (deadline : Option Nat) :
    (RingStep.runEnqueueBlocking ring item deadline).1 =
      (ring.enqueue? item false).getD ring := by
  unfold RingStep.runEnqueueBlocking idlePauses
  cases deadline <;> cases attempt : ring.enqueue? item false <;>
    simp [Ring.enqueueBlocking?, attempt, deadlinePassed]

theorem RingStep.runDequeueBlocking_ring (ring : Ring α) (deadline : Option Nat) :
    (RingStep.runDequeueBlocking ring deadline).1 =
      ((ring.dequeue? false).map Prod.snd).getD ring := by
  unfold RingStep.runDequeueBlocking idlePauses
  cases deadline <;> cases attempt : ring.dequeue? false <;>
    simp [Ring.dequeueBlocking?, attempt, deadlinePassed]

def Ring.HoldsQueue (ring : Ring α) (watermark : Option UInt32) : Prop :=
  ∃ queue, ring.Represents queue ∧ queue.watermark = watermark

namespace Ring.HoldsQueue

variable {ring after : Ring α} {watermark : Option UInt32}

theorem transfer (holds : ring.HoldsQueue watermark) (transfer : Transfer α)
    {reply : RingReply α} {discarded : List α}
    (runs : transfer.toStep.run ring = .ok (after, reply, discarded)) :
    after.HoldsQueue watermark := by
  obtain ⟨queue, view, same⟩ := holds
  obtain ⟨changed, answered, represents⟩ := view.run transfer
  cases answered.symm.trans runs
  exact ⟨_, represents, (queue.run_watermark transfer).trans same⟩

theorem attemptEnqueue (holds : ring.HoldsQueue watermark) (item : α) (exclusive : Bool) :
    ((ring.enqueue? item exclusive).getD ring).HoldsQueue watermark := by
  obtain ⟨queue, view, same⟩ := holds
  rcases view.enqueue? item exclusive with ⟨-, refused⟩ | ⟨-, changed, added, represents⟩
  · rw [refused]
    exact ⟨queue, view, same⟩
  · rw [added]
    exact ⟨_, represents, same⟩

theorem attemptDequeue (holds : ring.HoldsQueue watermark) (exclusive : Bool) :
    (((ring.dequeue? exclusive).map Prod.snd).getD ring).HoldsQueue watermark := by
  obtain ⟨queue, view, same⟩ := holds
  rcases view.dequeue? exclusive with ⟨-, refused⟩ | ⟨first, rest, changed, -, taken, represents⟩
  · rw [refused]
    exact ⟨queue, view, same⟩
  · rw [taken]
    exact ⟨_, represents, same⟩

/-- Whatever a thread does, it leaves a queue with the same watermark behind. -/
theorem step (holds : ring.HoldsQueue watermark) {step : RingStep α} {reply : RingReply α}
    {discarded : List α} (runs : step.run ring = .ok (after, reply, discarded)) :
    after.HoldsQueue watermark := by
  induction step generalizing ring after reply discarded with
  | enqueue item exclusive => exact holds.transfer (.enqueue item exclusive) runs
  | dequeue exclusive => exact holds.transfer (.dequeue exclusive) runs
  | enqueueBulk items exclusive => exact holds.transfer (.enqueueBulk items exclusive) runs
  | dequeueBulk most out exclusive => exact holds.transfer (.dequeueBulk most out exclusive) runs
  | enqueueSlice items exclusive => exact holds.transfer (.enqueueSlice items exclusive) runs
  | dequeueSlice buffer exclusive => exact holds.transfer (.dequeueSlice buffer exclusive) runs
  | enqueueBlocking item timeout =>
      rw [RingStep.run] at runs
      split at runs
      case h_1 => cases runs
      case h_2 deadline shown =>
        cases runs
        change (RingStep.runEnqueueBlocking ring item deadline).1.HoldsQueue watermark
        rw [RingStep.runEnqueueBlocking_ring]
        exact holds.attemptEnqueue item false
  | dequeueBlocking timeout =>
      rw [RingStep.run] at runs
      split at runs
      case h_1 => cases runs
      case h_2 deadline shown =>
        cases runs
        change (RingStep.runDequeueBlocking ring deadline).1.HoldsQueue watermark
        rw [RingStep.runDequeueBlocking_ring]
        exact holds.attemptDequeue false
  | dequeueFresh length =>
      obtain ⟨queue, view, same⟩ := holds
      cases runs
      exact ⟨_, (view.consume (requestSize length) false).1, same⟩
  | info | malformed field discarded =>
      cases runs
      exact holds
  | pair main other mainHypothesis otherHypothesis =>
      rw [RingStep.run] at runs
      cases first : other.run ring with
      | error breakdown =>
          rw [first] at runs
          cases runs
      | ok result =>
          obtain ⟨middle, otherReply, otherDiscarded⟩ := result
          rw [first] at runs
          cases second : main.run middle with
          | error breakdown =>
              simp only [bind, Except.bind, second] at runs
              cases runs
          | ok result =>
              obtain ⟨final, mainReply, mainDiscarded⟩ := result
              simp only [bind, Except.bind, second] at runs
              cases runs
              exact mainHypothesis (otherHypothesis holds first) second
  | overlong => cases runs

theorem leadsTo {reached : Ring α} (holds : ring.HoldsQueue watermark)
    (leads : ring.LeadsTo reached) : reached.HoldsQueue watermark := by
  induction leads with
  | here => exact holds
  | step before runs inductionHypothesis => exact inductionHypothesis.step runs

end Ring.HoldsQueue

theorem Ring.create_holdsQueue [Inhabited α] {slots : UInt32} {policy : TransferPolicy}
    {watermark : Option UInt32} {ring : Ring α}
    (created : Ring.create slots policy watermark = .ok ring) : ring.HoldsQueue watermark := by
  have built : ∃ capacity, ring = ⟨.create capacity default 0, policy, watermark⟩ := by
    unfold Ring.create at created
    split at created
    case h_1 => cases created
    case h_2 capacity accepted =>
      cases created
      exact ⟨capacity, rfl⟩
    case h_3 capacity mark accepted =>
      split at created
      case isTrue => cases created
      case isFalse =>
        cases created
        exact ⟨capacity, rfl⟩
  obtain ⟨capacity, rfl⟩ := built
  exact ⟨.empty capacity policy watermark, ⟨Core.create_settled capacity default 0, rfl, rfl, rfl,
    Core.create_leftovers capacity default 0⟩, rfl⟩

/-! ## The quota flag -/

theorem BoundedQueue.aboveWatermark_iff {queue : BoundedQueue α} {mark : UInt32}
    (marked : queue.watermark = some mark) :
    queue.aboveWatermark = true ↔ mark < UInt32.ofNat queue.items.length := by
  rw [BoundedQueue.aboveWatermark, marked, UInt32.lt_iff_toNat_lt,
    UInt32.toNat_ofNat_of_lt' queue.items_lt_wordSize]
  exact decide_eq_true_iff

theorem BoundedQueue.quota_of_offer {queue after : BoundedQueue α} {values : List α}
    {enqueued : Enqueued} (offered : queue.offer values = .ok (after, enqueued)) :
    enqueued.quotaExceeded = (0 < enqueued.count && after.aboveWatermark) := by
  have inRoom := queue.policy.portion_le_room (min values.length (UInt32.size - 1)) queue.free
  have small := queue.free_lt_wordSize
  unfold BoundedQueue.offer at offered
  simp only at offered
  split at offered
  case isTrue => cases offered
  case isFalse =>
    cases offered
    have moved := UInt32.toNat_ofNat_of_lt' (Nat.lt_of_le_of_lt inRoom small)
    simp only [UInt32.lt_iff_toNat_lt, moved, UInt32.toNat_zero]

/-- An enqueue of a bulk or of a slice, through either path and on a ring that one thread has
brought to any state, reports an exceeded quota if and only if it has moved something and the
ring counts more entries after it than the watermark says. -/
theorem quota_tells_of_moved_items [Inhabited α] {slots : UInt32} {policy : TransferPolicy}
    {watermark : Option UInt32} {ring reached after : Ring α}
    (created : Ring.create slots policy watermark = .ok ring) (leads : ring.LeadsTo reached)
    {items : List α} {exclusive : Bool} {enqueued : Enqueued}
    (accepted : (∃ left, reached.enqueueBulk items exclusive = .ok (after, enqueued, left)) ∨
      reached.enqueueSlice items exclusive = .ok (after, enqueued)) :
    (watermark = none → enqueued.quotaExceeded = false) ∧
      ∀ mark ∈ watermark,
        (enqueued.quotaExceeded = true ↔ 0 < enqueued.count ∧ mark < after.count) := by
  obtain ⟨queue, view, same⟩ := (Ring.create_holdsQueue created).leadsTo leads
  have produced : reached.produce items exclusive = .ok (after, enqueued) := by
    rcases accepted with ⟨left, bulk⟩ | slice
    · unfold Ring.enqueueBulk at bulk
      split at bulk
      case h_1 => cases bulk
      case h_2 produced =>
        cases bulk
        exact produced
    · exact slice
  rcases view.produce items exclusive with
    ⟨refusal, -, refused⟩ | ⟨changed, later, report, offered, added, represents⟩
  · cases refused.symm.trans produced
  · cases added.symm.trans produced
    have quota := BoundedQueue.quota_of_offer offered
    have kept := (BoundedQueue.watermark_of_offer offered).trans same
    constructor
    · intro unmarked
      rw [quota, BoundedQueue.aboveWatermark, kept, unmarked, Bool.and_false]
    · intro mark marked
      rw [quota, Bool.and_eq_true, decide_eq_true_iff, represents.count,
        BoundedQueue.aboveWatermark_iff (kept.trans marked)]

/-- On four slots with a watermark of two: a bulk of four of which two fit after the first
element. -/
theorem quota_tells_of_moved_items_sample :
    ∃ ring reached after : Ring Nat, Ring.create 4 .burst (some 2) = .ok ring ∧
      ring.LeadsTo reached ∧
      reached.enqueueBulk [2, 3, 4, 5] true = .ok (after, ⟨2, true⟩, [4, 5]) ∧
      ((⟨2, true⟩ : Enqueued).quotaExceeded = true ↔ (0 : UInt32) < 2 ∧ 2 < after.count) := by
  obtain ⟨ring, reached, after, created, runs, accepted⟩ :
      ∃ ring reached after : Ring Nat, Ring.create 4 .burst (some 2) = .ok ring ∧
        (RingStep.enqueue 1 false).run ring = .ok (reached, .accepted, []) ∧
        reached.enqueueBulk [2, 3, 4, 5] true = .ok (after, ⟨2, true⟩, [4, 5]) :=
    ⟨_, _, _, rfl, rfl, rfl⟩
  have leads : ring.LeadsTo reached := .step .here runs
  exact ⟨ring, reached, after, created, leads, accepted,
    (quota_tells_of_moved_items created leads (Or.inl ⟨_, accepted⟩)).2 2 rfl⟩

/-- A burst into a ring that is full, and an empty bulk, move nothing and report no exceeded
quota, although the ring counts three entries with a watermark of two. -/
theorem full_ring_reports_no_quota :
    ∃ ring full after : Ring Nat, Ring.create 4 .burst (some 2) = .ok ring ∧
      ring.LeadsTo full ∧ full.enqueueSlice [4] false = .ok (after, ⟨0, false⟩) ∧
      full.enqueueBulk [] false = .ok (after, ⟨0, false⟩, []) ∧ (2 : UInt32) < after.count := by
  obtain ⟨ring, full, created, runs, slice, bulk, count⟩ :
      ∃ ring full : Ring Nat, Ring.create 4 .burst (some 2) = .ok ring ∧
        (RingStep.enqueueSlice [1, 2, 3] false).run ring = .ok (full, .slice ⟨3, true⟩, []) ∧
        full.enqueueSlice [4] false = .ok (full, ⟨0, false⟩) ∧
        full.enqueueBulk [] false = .ok (full, ⟨0, false⟩, []) ∧ full.count = 3 :=
    ⟨_, _, rfl, rfl, rfl, rfl, rfl⟩
  refine ⟨ring, full, full, created, .step .here runs, slice, bulk, ?_⟩
  rw [count]
  decide

end RingPool

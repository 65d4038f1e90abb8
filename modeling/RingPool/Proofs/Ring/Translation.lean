import RingPool.Ring.Interleaving
import RingPool.Proofs.Ring.Counter

/-!
# The origin of the cursors cannot be observed

Two ring memories are translations of each other if every cursor of the one is the
same cursor of the other moved on by a fixed distance, and every slot is found at
the cursor that is so moved.  All that a step looks at are distances of cursors
and whether two cursors are equal, and the masks take a moved cursor to the moved
slot.  So each step, permitted or not, keeps two systems translations of each
other and answers alike, but for the cursors in a reservation that it grants.
-/

set_option autoImplicit false

namespace RingPool

variable {actors : Nat} {α : Type} {origin : Cursor}

/-! ## What is moved -/

def Cursors.shift (origin : Cursor) (cursors : Cursors) : Cursors :=
  ⟨cursors.head + origin, cursors.tail + origin⟩

def Reservation.shift (origin : Cursor) (reservation : Reservation) : Reservation :=
  { reservation with head := reservation.head + origin, next := reservation.next + origin }

def Verdict.shift (origin : Cursor) : Verdict → Verdict
  | .granted reservation => .granted (reservation.shift origin)
  | .short available => .short available

def Claim.Result.shift (origin : Cursor) (result : Claim.Result) : Claim.Result :=
  { result with verdict := result.verdict.shift origin }

def Claim.shift (origin : Cursor) (claim : Claim) : Claim :=
  { claim with phase := match claim.phase with
    | .seek head => .seek (head + origin)
    | .bid offer => .bid (offer.shift origin) }

def Publication.shift (origin : Cursor) (publication : Publication) : Publication :=
  { publication with reservation := publication.reservation.shift origin }

def Census.shift (origin : Cursor) : Census → Census
  | .start => .start
  | .seen consumerTail => .seen (consumerTail + origin)

def RingCall.shift (origin : Cursor) : RingCall → RingCall
  | .claim started => .claim (started.shift origin)
  | .publish grant started => .publish grant (started.shift origin)
  | .census started => .census (started.shift origin)

def ActiveCall.shift (origin : Cursor) (active : ActiveCall) : ActiveCall :=
  { active with call := active.call.shift origin }

def Grant.shift (origin : Cursor) (grant : Grant α) : Grant α :=
  { grant with reservation := grant.reservation.shift origin }

/-- What an actor observes; of this only the cursors of a reservation are moved. -/
def RingEvent.shift (origin : Cursor) : RingEvent α → RingEvent α
  | .claimed result => .claimed (result.shift origin)
  | .published spins => .published spins
  | .counted count => .counted count
  | .value read => .value read

def Progress.map {Call Result : Type} (call : Call → Call) (result : Result → Result) :
    Progress Call Result → Progress Call Result
  | .running under => .running (call under)
  | .returned final => .returned (result final)

/-- The cursors of one memory moved on give the cursors of the other, and so do
the slots that they address. -/
structure Core.Translated (origin : Cursor) (base moved : Core α) : Prop where
  capacity : moved.capacity = base.capacity
  cursors : ∀ side, moved.cursors side = (base.cursors side).shift origin
  read : ∀ cursor, moved.read (cursor + origin) = base.read cursor

structure RingSystem.Translated (origin : Cursor) (base moved : RingSystem actors α) : Prop where
  core : Core.Translated origin base.core moved.core
  calls : ∀ actor, moved.calls actor = (base.calls actor).map (ActiveCall.shift origin)
  grants : moved.grants = base.grants.map (Grant.shift origin)

/-! ## Distances and equality of cursors -/

theorem sub_shift (first second origin : Cursor) :
    first + origin - (second + origin) = first - second := by
  grind

theorem Capacity.slotOf_shift (capacity : Capacity) (first second origin : Cursor) :
    capacity.slotOf (first + origin) = capacity.slotOf (second + origin) ↔
      capacity.slotOf first = capacity.slotOf second := by
  have moved : ∀ cursor : Cursor, (cursor + origin).toNat % capacity.size =
      (cursor.toNat + origin.toNat) % capacity.size := by
    intro cursor
    rw [UInt32.toNat_add]
    exact Nat.mod_mod_of_dvd _ capacity.size_dvd_wordSize
  rw [Fin.ext_iff, Fin.ext_iff, slotOf_val, slotOf_val, slotOf_val, slotOf_val, moved, moved]
  constructor
  · intro same
    exact Nat.ModEq.add_right_cancel' origin.toNat same
  · intro same
    exact Nat.ModEq.add_right origin.toNat same

namespace Reservation

@[simp] theorem shift_side (reservation : Reservation) :
    (reservation.shift origin).side = reservation.side := rfl

@[simp] theorem shift_len (reservation : Reservation) :
    (reservation.shift origin).len = reservation.len :=
  sub_shift _ _ _

theorem shift_index (reservation : Reservation) (offset : UInt32) :
    (reservation.shift origin).index offset = reservation.index offset + origin := by
  unfold index shift
  grind

end Reservation

namespace Grant

@[simp] theorem shift_size (grant : Grant α) : (grant.shift origin).size = grant.size :=
  congrArg UInt32.toNat grant.reservation.shift_len

theorem shift_cursor (grant : Grant α) (offset : Nat) :
    (grant.shift origin).cursor offset = grant.cursor offset + origin :=
  grant.reservation.shift_index _

theorem totalSize_map_shift (grants : List (Grant α)) :
    totalSize (grants.map (shift origin)) = totalSize grants := by
  induction grants with
  | nil => rfl
  | cons grant rest ih =>
      change (grant.shift origin).size + totalSize (rest.map (shift origin)) = _
      rw [shift_size, ih]
      rfl

theorem settle_map_shift (grants : List (Grant α)) (index : Nat) :
    (grants.map (shift origin)).modify index settle =
      (grants.modify index settle).map (shift origin) := by
  apply List.ext_getElem?
  intro position
  simp only [List.getElem?_modify, List.getElem?_map]
  cases grants[position]? with
  | none => rfl
  | some grant =>
      by_cases here : index = position
      · simp [here, settle, shift]
      · simp [here]

end Grant

/-! ## Memories -/

@[simp] theorem Claim.shift_request (claim : Claim) :
    (claim.shift origin).request = claim.request := rfl

@[simp] theorem Claim.shift_bid (request : Request) (attempts : Nat) (offer : Reservation) :
    (Claim.mk request attempts (.bid offer)).shift origin =
      ⟨request, attempts, .bid (offer.shift origin)⟩ := rfl

/-- A shared claim that does not move the head starts again from the head it finds. -/
theorem Claim.step_lost {core : Core α} {request : Request} {attempts : Nat}
    {phase : Claim.Phase} {offer : Reservation} {refused : Bool} (bidding : phase = .bid offer)
    (shared : request.exclusive = false)
    (lost : ¬ ((core.cursors request.side).head = offer.head ∧ refused = false)) :
    Claim.step core ⟨request, attempts, phase⟩ refused =
      (core, .running ⟨request, attempts + 1, .seek (core.cursors request.side).head⟩) := by
  subst bidding
  simp only [Claim.step, shared, Bool.false_eq_true, if_false, if_neg lost]

namespace Core.Translated

variable {base moved : Core α}

theorem room (translated : Translated origin base moved) (side : Side) (head : Cursor) :
    moved.room side (head + origin) = base.room side head := by
  have producer : moved.producer = base.producer.shift origin := translated.cursors .producer
  have consumer : moved.consumer = base.consumer.shift origin := translated.cursors .consumer
  cases side with
  | producer =>
      rw [Core.room, Core.room, translated.capacity, consumer, Cursors.shift, sub_shift]
  | consumer => rw [Core.room, Core.room, producer, Cursors.shift, sub_shift]

theorem offer (translated : Translated origin base moved) (request : Request) (head : Cursor) :
    moved.offer request (head + origin) = (base.offer request head).shift origin := by
  unfold Core.offer
  rw [translated.room]
  cases fits : request.fit? (base.room request.side head) with
  | none => simp [fits, Verdict.shift]
  | some count =>
      have next : head + origin + count = head + count + origin := by grind
      simp [fits, Verdict.shift, Reservation.shift, next]

theorem head (translated : Translated origin base moved) (side : Side) :
    (moved.cursors side).head = (base.cursors side).head + origin := by
  rw [translated.cursors]
  rfl

theorem tail (translated : Translated origin base moved) (side : Side) :
    (moved.cursors side).tail = (base.cursors side).tail + origin := by
  rw [translated.cursors]
  rfl

theorem setHead (translated : Translated origin base moved) (side : Side) (head : Cursor) :
    Translated origin (base.setHead side head) (moved.setHead side (head + origin)) where
  capacity := by simp [translated.capacity]
  cursors := by
    intro other
    by_cases same : other = side
    · subst other
      rw [cursors_setHead_self, cursors_setHead_self, translated.tail]
      rfl
    · rw [cursors_setHead_other _ _ same, cursors_setHead_other _ _ same, translated.cursors]
  read := by simpa using translated.read

theorem setTail (translated : Translated origin base moved) (side : Side) (tail : Cursor) :
    Translated origin (base.setTail side tail) (moved.setTail side (tail + origin)) where
  capacity := by simp [translated.capacity]
  cursors := by
    intro other
    by_cases same : other = side
    · subst other
      rw [cursors_setTail_self, cursors_setTail_self, translated.head]
      rfl
    · rw [cursors_setTail_other _ _ same, cursors_setTail_other _ _ same, translated.cursors]
  read := by simpa using translated.read

theorem write (translated : Translated origin base moved) (cursor : Cursor) (value : α) :
    Translated origin (base.write cursor value) (moved.write (cursor + origin) value) where
  capacity := by simp [translated.capacity]
  cursors := by
    intro side
    rw [cursors_write, cursors_write, translated.cursors]
  read := by
    intro other
    rw [read_write, read_write, translated.read, translated.capacity]
    simp only [Capacity.slotOf_shift]

theorem create (capacity : Capacity) (blank : α) (origin : Cursor) :
    Translated origin (.create capacity blank 0) (.create capacity blank origin) where
  capacity := rfl
  cursors := by
    intro side
    cases side <;> simp [Core.create, Core.cursors, Cursors.shift]
  read := by
    intro cursor
    exact (Vector.getElem_replicate _).trans (Vector.getElem_replicate _).symm

/-- The loop that drops goes from cursor to cursor, and so by distances too. -/
theorem dropFrom (translated : Translated origin base moved) (index last : Cursor) :
    moved.dropFrom (index + origin) (last + origin) = base.dropFrom index last := by
  fun_induction Core.dropFrom base index last with
  | case1 => rw [Core.dropFrom, if_pos rfl]
  | case2 index apart inductionHypothesis =>
      have movedApart : index + origin ≠ last + origin :=
        fun same => apart ((UInt32.add_left_inj origin).mp same)
      have next : index + origin + 1 = index + 1 + origin := by grind
      rw [Core.dropFrom, if_neg movedApart, next, inductionHypothesis, translated.read]

theorem drop (translated : Translated origin base moved) : moved.drop = base.drop := by
  have first : moved.consumer.tail = base.consumer.tail + origin := translated.tail .consumer
  have last : moved.producer.tail = base.producer.tail + origin := translated.tail .producer
  rw [Core.drop, first, last, translated.dropFrom]
  rfl

/-! ## Single steps of calls -/

theorem claim_start (translated : Translated origin base moved) (request : Request) :
    Claim.start moved request = (Claim.start base request).shift origin := by
  rw [Claim.start, Claim.start, translated.head]
  rfl

theorem claim_step (translated : Translated origin base moved) (claim : Claim)
    (refused : Bool) :
    Translated origin (claim.step base refused).1 ((claim.shift origin).step moved refused).1 ∧
      ((claim.shift origin).step moved refused).2 =
        (claim.step base refused).2.map (Claim.shift origin) (Claim.Result.shift origin) := by
  obtain ⟨request, attempts, phase⟩ := claim
  cases phase with
  | seek head =>
      have offered := translated.offer request head
      cases answer : base.offer request head with
      | short available =>
          rw [answer] at offered
          simpa [Claim.step, Claim.shift, answer, offered, Verdict.shift, Progress.map,
            Claim.Result.shift] using translated
      | granted offer =>
          rw [answer] at offered
          simpa [Claim.step, Claim.shift, answer, offered, Verdict.shift, Progress.map]
            using translated
  | bid offer =>
      have next : Translated origin (base.setHead request.side offer.next)
          (moved.setHead request.side (offer.shift origin).next) :=
        translated.setHead request.side offer.next
      have same : (moved.cursors request.side).head = (offer.shift origin).head ↔
          (base.cursors request.side).head = offer.head := by
        rw [translated.head]
        exact UInt32.add_left_inj origin
      cases exclusive : request.exclusive with
      | true =>
          simpa [Claim.step, Claim.shift, exclusive, Progress.map, Claim.Result.shift,
            Verdict.shift] using next
      | false =>
          by_cases won : (base.cursors request.side).head = offer.head ∧ refused = false
          · have wonToo := (and_congr_left' same).mpr won
            simpa [Claim.step, Claim.shift, exclusive, won, wonToo, Progress.map,
              Claim.Result.shift, Verdict.shift] using next
          · have lostToo := mt (and_congr_left' same).mp won
            rw [Claim.shift_bid, Claim.step_lost rfl exclusive won,
              Claim.step_lost rfl exclusive lostToo, translated.head]
            exact ⟨translated, rfl⟩

theorem publication_step (translated : Translated origin base moved)
    (publication : Publication) :
    Translated origin (publication.step base).1 ((publication.shift origin).step moved).1 ∧
      ((publication.shift origin).step moved).2 =
        (publication.step base).2.map (Publication.shift origin) id := by
  obtain ⟨reservation, spins, phase⟩ := publication
  cases phase with
  | check =>
      have same : (moved.cursors reservation.side).tail = (reservation.shift origin).head ↔
          (base.cursors reservation.side).tail = reservation.head := by
        rw [translated.tail]
        exact UInt32.add_left_inj origin
      by_cases due : (base.cursors reservation.side).tail = reservation.head
      · simpa [Publication.step, Publication.shift, due, same.mpr due, Progress.map]
          using translated
      · simpa [Publication.step, Publication.shift, due, mt same.mp due, Progress.map]
          using translated
  | pause => exact ⟨translated, rfl⟩
  | settle => exact ⟨translated.setTail reservation.side reservation.next, rfl⟩

theorem census_step (translated : Translated origin base moved) (census : Census) :
    Translated origin (census.step base).1 ((census.shift origin).step moved).1 ∧
      ((census.shift origin).step moved).2 =
        (census.step base).2.map (Census.shift origin) id := by
  have first : moved.consumer.tail = base.consumer.tail + origin := translated.tail .consumer
  have last : moved.producer.tail = base.producer.tail + origin := translated.tail .producer
  cases census with
  | start =>
      refine ⟨translated, ?_⟩
      simp [Census.step, Census.shift, Progress.map, first]
  | seen consumerTail =>
      refine ⟨translated, ?_⟩
      simp only [Census.step, Census.shift, Progress.map, last, sub_shift, translated.capacity,
        id]

end Core.Translated

/-! ## Systems -/

@[simp] theorem ActiveCall.shift_claim (claim : Claim) (since : SlotTotals) :
    ActiveCall.shift origin ⟨.claim claim, since⟩ = ⟨.claim (claim.shift origin), since⟩ := rfl

@[simp] theorem ActiveCall.shift_publish (grant : Nat) (publication : Publication)
    (since : SlotTotals) : ActiveCall.shift origin ⟨.publish grant publication, since⟩ =
      ⟨.publish grant (publication.shift origin), since⟩ := rfl

@[simp] theorem ActiveCall.shift_census (census : Census) (since : SlotTotals) :
    ActiveCall.shift origin ⟨.census census, since⟩ = ⟨.census (census.shift origin), since⟩ := rfl

namespace RingSystem.Translated

variable {base moved : RingSystem actors α}

theorem grantsOf (translated : Translated origin base moved) (side : Side) :
    moved.grantsOf side = (base.grantsOf side).map (Grant.shift origin) := by
  rw [RingSystem.grantsOf, RingSystem.grantsOf, translated.grants, List.filter_map]
  rfl

theorem totals (translated : Translated origin base moved) : moved.totals = base.totals := by
  unfold RingSystem.totals
  congr 1
  · funext side
    rw [translated.grantsOf, Grant.totalSize_map_shift]
  · funext side
    rw [translated.grantsOf, List.filter_map]
    exact Grant.totalSize_map_shift _

theorem setCall (translated : Translated origin base moved) (actor : Fin actors)
    (active : Option ActiveCall) :
    Translated origin (base.setCall actor active)
      (moved.setCall actor (active.map (ActiveCall.shift origin))) where
  core := translated.core
  calls := by
    intro other
    unfold RingSystem.setCall
    simp only
    split
    · rfl
    · exact translated.calls other
  grants := translated.grants

theorem enter (translated : Translated origin base moved) (actor : Fin actors)
    (call : RingCall) :
    Translated origin (base.enter actor call) (moved.enter actor (call.shift origin)) := by
  unfold RingSystem.enter
  rw [translated.calls]
  cases base.calls actor with
  | some active => exact translated
  | none =>
      have entered := translated.setCall actor (some ⟨call, base.totals⟩)
      rw [translated.totals]
      exact entered

theorem withCore (translated : Translated origin base moved) {core other : Core α}
    (cores : Core.Translated origin core other) :
    Translated origin { base with core } { moved with core := other } where
  core := cores
  calls := translated.calls
  grants := translated.grants

/-- If the step of a call and what its result means are translated, then so is the
system after it. -/
theorem settle {Call Result : Type} (translated : Translated origin base moved)
    (actor : Fin actors) (since : SlotTotals) (resume : Call → RingCall)
    {shiftCall : Call → Call} {shiftResult : Result → Result}
    (resumed : ∀ call, resume (shiftCall call) = (resume call).shift origin)
    (finish finishMoved : RingSystem actors α → Result → RingSystem actors α × RingEvent α)
    (finished : ∀ first second, Translated origin first second → ∀ result,
      Translated origin (finish first result).1 (finishMoved second (shiftResult result)).1 ∧
        (finishMoved second (shiftResult result)).2 = (finish first result).2.shift origin)
    {step stepMoved : Core α × Progress Call Result}
    (stepped : Core.Translated origin step.1 stepMoved.1 ∧
      stepMoved.2 = step.2.map shiftCall shiftResult) :
    Translated origin (base.settle actor since resume finish step).1
        (moved.settle actor since resume finishMoved stepMoved).1 ∧
      (moved.settle actor since resume finishMoved stepMoved).2 =
        (base.settle actor since resume finish step).2.map (RingEvent.shift origin) := by
  obtain ⟨core, progress⟩ := step
  obtain ⟨coreMoved, progressMoved⟩ := stepMoved
  obtain ⟨cores, progressed⟩ := stepped
  simp only at cores progressed
  subst progressMoved
  cases progress with
  | running call =>
      refine ⟨?_, rfl⟩
      have continued := (translated.withCore cores).setCall actor (some ⟨resume call, since⟩)
      simp only [RingSystem.settle, Progress.map, resumed]
      exact continued
  | returned result =>
      have left := (translated.withCore cores).setCall actor none
      obtain ⟨recorded, observed⟩ := finished _ _ left result
      exact ⟨recorded, congrArg some observed⟩

theorem recordClaim (translated : Translated origin base moved) (actor : Fin actors)
    (exclusive : Bool) (result : Claim.Result) :
    Translated origin (RingSystem.recordClaim actor exclusive base result).1
        (RingSystem.recordClaim actor exclusive moved (result.shift origin)).1 ∧
      (RingSystem.recordClaim actor exclusive moved (result.shift origin)).2 =
        (RingSystem.recordClaim actor exclusive base result).2.shift origin := by
  obtain ⟨verdict, attempts⟩ := result
  cases verdict with
  | short available => exact ⟨translated, rfl⟩
  | granted reservation =>
      refine ⟨⟨translated.core, translated.calls, ?_⟩, rfl⟩
      simp [RingSystem.recordClaim, Claim.Result.shift, Verdict.shift, translated.grants,
        Grant.shift]

theorem recordPublication (translated : Translated origin base moved) (grant spins : Nat) :
    Translated origin (RingSystem.recordPublication grant base spins).1
        (RingSystem.recordPublication grant moved (id spins)).1 ∧
      (RingSystem.recordPublication grant moved (id spins)).2 =
        (RingSystem.recordPublication grant base spins).2.shift origin := by
  refine ⟨⟨translated.core, translated.calls, ?_⟩, rfl⟩
  simp only [RingSystem.recordPublication, translated.grants, id, Grant.settle_map_shift]

theorem accessed (translated : Translated origin base moved) {core other : Core α}
    (cores : Core.Translated origin core other) (index : Nat) (grant : Grant α) (offset : Nat)
    (value : α) :
    Translated origin
      { base with core, grants := base.grants.set index (grant.accessed offset value) }
      { moved with
        core := other
        grants := moved.grants.set index ((grant.shift origin).accessed offset value) } where
  core := cores
  calls := translated.calls
  grants := by
    simp only [translated.grants, List.map_set]
    rfl

theorem advance (translated : Translated origin base moved) (actor : Fin actors)
    (refused : Bool) :
    Translated origin (base.next (.advance actor refused)).1
        (moved.next (.advance actor refused)).1 ∧
      (moved.next (.advance actor refused)).2 =
        (base.next (.advance actor refused)).2.map (RingEvent.shift origin) := by
  have same := translated.calls actor
  cases within : base.calls actor with
  | none =>
      rw [within, Option.map_none] at same
      simpa [RingSystem.next, within, same] using translated
  | some active =>
      obtain ⟨call, since⟩ := active
      rw [within, Option.map_some] at same
      cases call with
      | claim claim =>
          have settled := translated.settle actor since .claim (fun _ => rfl) _ _
            (fun _ _ related result =>
              related.recordClaim actor claim.request.exclusive result)
            (translated.core.claim_step claim refused)
          simpa only [RingSystem.next, within, same, ActiveCall.shift_claim, Claim.shift_request]
            using settled
      | publish grant publication =>
          have settled := translated.settle actor since (.publish grant) (fun _ => rfl) _ _
            (fun _ _ related spins => related.recordPublication grant spins)
            (translated.core.publication_step publication)
          simpa only [RingSystem.next, within, same, ActiveCall.shift_publish] using settled
      | census census =>
          have settled := translated.settle actor since .census (fun _ => rfl)
            (fun system count => (system, .counted count))
            (fun system count => (system, .counted count))
            (fun _ _ related _ => ⟨related, rfl⟩) (translated.core.census_step census)
          simpa only [RingSystem.next, within, same, ActiveCall.shift_census] using settled

theorem next (translated : Translated origin base moved) (move : RingMove actors α) :
    Translated origin (base.next move).1 (moved.next move).1 ∧
      (moved.next move).2 = (base.next move).2.map (RingEvent.shift origin) := by
  have granted (grant : Nat) :
      moved.grants[grant]? = (base.grants[grant]?).map (Grant.shift origin) := by
    rw [translated.grants, List.getElem?_map]
  cases move with
  | claim actor request =>
      refine ⟨?_, rfl⟩
      have entered := translated.enter actor (.claim (Claim.start base.core request))
      rwa [RingCall.shift, ← translated.core.claim_start] at entered
  | publish actor grant exclusive =>
      have same := granted grant
      cases found : base.grants[grant]? with
      | none =>
          rw [found, Option.map_none] at same
          simpa [RingSystem.next, found, same] using translated
      | some held =>
          rw [found, Option.map_some] at same
          have entered : Translated origin
              (base.enter actor (.publish grant (Publication.start held.reservation exclusive)))
              (moved.enter actor
                (.publish grant (Publication.start (held.shift origin).reservation exclusive))) :=
            translated.enter actor _
          simpa [RingSystem.next, found, same] using entered
  | census actor => exact ⟨translated.enter actor (.census .start), rfl⟩
  | advance actor refused => exact translated.advance actor refused
  | write actor grant offset value =>
      have same := granted grant
      cases found : base.grants[grant]? with
      | none =>
          rw [found, Option.map_none] at same
          simpa [RingSystem.next, found, same] using translated
      | some held =>
          rw [found, Option.map_some] at same
          have written := translated.core.write (held.cursor offset) value
          rw [← held.shift_cursor] at written
          simpa [RingSystem.next, found, same] using
            translated.accessed written grant held offset value
  | read actor grant offset =>
      have same := granted grant
      cases found : base.grants[grant]? with
      | none =>
          rw [found, Option.map_none] at same
          simpa [RingSystem.next, found, same] using translated
      | some held =>
          rw [found, Option.map_some] at same
          have value := translated.core.read (held.cursor offset)
          rw [← held.shift_cursor] at value
          simpa [RingSystem.next, found, same, value, RingEvent.shift] using
            translated.accessed translated.core grant held offset
              (base.core.read (held.cursor offset))

theorem start (capacity : Capacity) (blank : α) (origin : Cursor) :
    Translated origin (RingSystem.start capacity blank 0 : RingSystem actors α)
      (RingSystem.start capacity blank origin) where
  core := Core.Translated.create capacity blank origin
  calls := fun _ => rfl
  grants := rfl

theorem run (translated : Translated origin base moved) (moves : List (RingMove actors α)) :
    Translated origin (base.run moves).1 (moved.run moves).1 ∧
      (moved.run moves).2 = (base.run moves).2.map (RingEvent.shift origin) := by
  induction moves generalizing base moved with
  | nil => exact ⟨translated, rfl⟩
  | cons move moves ih =>
      obtain ⟨related, observed⟩ := translated.next move
      obtain ⟨final, events⟩ := ih related
      refine ⟨final, ?_⟩
      simp only [RingSystem.run, observed, events, List.map_append]
      cases (base.next move).2 <;> rfl

end RingSystem.Translated

/-- A schedule of any moves, permitted or not, is observed alike whatever the origin of
the cursors: step by step it brings the same grants and refusals, sizes, rooms,
numbers of attempts and of pauses, counts and values, and the loop that drops what is
left comes upon the same values.  Only the cursors in a reservation differ, by the origin. -/
theorem origin_is_unobservable (capacity : Capacity) (blank : α) (origin : Cursor)
    (moves : List (RingMove actors α)) :
    let there := (RingSystem.start capacity blank origin).run moves
    let here := (RingSystem.start capacity blank 0).run moves
    there.2 = here.2.map (RingEvent.shift origin) ∧
      (∀ move, (there.1.next move).2 = (here.1.next move).2.map (RingEvent.shift origin)) ∧
      there.1.core.drop = here.1.core.drop ∧
      RingSystem.Translated origin here.1 there.1 ∧
      ∀ reservation : Reservation, (reservation.shift origin).len = reservation.len ∧
        ∀ offset, (reservation.shift origin).index offset =
          reservation.index offset + origin := by
  intro there here
  have started : RingSystem.Translated origin (RingSystem.start capacity blank 0)
      (RingSystem.start capacity blank origin : RingSystem actors α) :=
    RingSystem.Translated.start capacity blank origin
  obtain ⟨final, events⟩ := started.run moves
  exact ⟨events, fun move => (final.next move).2, final.core.drop, final,
    fun reservation => ⟨reservation.shift_len, reservation.shift_index⟩⟩

end RingPool

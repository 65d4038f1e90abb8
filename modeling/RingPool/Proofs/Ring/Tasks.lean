import RingPool.Proofs.Ring.Delivery
import RingPool.Proofs.Ring.Transfers
import RingPool.Ring.Operations

/-!
# Operations keep the discipline of the ring memory

What an actor is doing on the memory can be read off its operation (`ActorFacts`), and a
move of one actor leaves the others with what they know (`Undisturbed`).  If operations of
the exclusive kind have their side to themselves, then each atomic step of an operation is
a permitted move of the memory: a reservation that nobody has published is in the hands of
a transfer on its side.
-/

set_option autoImplicit false

namespace RingPool

open Grant

variable {actors : Nat} {α : Type} {origin : Cursor}

/-! ## Acts are moves -/

theorem Haul.exists_move {haul later : Haul α} {system after : RingSystem actors α}
    {actor : Fin actors} {order : RingOrder α}
    (moves : haul.move? system actor order = some (after, later)) :
    ∃ move, after = (system.next move).1 := by
  unfold Haul.move? at moves
  simp only at moves
  split at moves
  case isTrue => cases moves
  case isFalse =>
  split at moves
  case h_1 items whole =>
      split at moves
      case h_1 => cases moves
      case h_2 item listed =>
          cases moves
          exact ⟨_, rfl⟩
  case h_2 =>
      split at moves
      case h_1 read =>
          cases moves
          exact ⟨_, (congrArg Prod.fst read).symm⟩
      case h_2 => cases moves

theorem BusyRing.exists_move_of_stepTransfer (busy : BusyRing actors α) (actor : Fin actors)
    (refused : Bool) (transfer : RingTransfer α) :
    ∃ move, (busy.stepTransfer actor refused transfer).1 = (busy.system.next move).1 := by
  unfold BusyRing.stepTransfer
  split
  case h_1 =>
      refine ⟨.advance actor refused, ?_⟩
      rcases busy.system.next (.advance actor refused) with ⟨after, event⟩
      split <;> rename_i step <;> exact (congrArg Prod.fst step).symm
  case h_2 haul stage =>
      split
      case h_1 moves => exact Haul.exists_move moves
      case h_2 => exact ⟨_, rfl⟩
  case h_3 =>
      refine ⟨.advance actor refused, ?_⟩
      rcases busy.system.next (.advance actor refused) with ⟨after, event | event⟩ <;> rfl

theorem BusyRing.next_memory (busy : BusyRing actors α) (act : RingAct actors α) :
    (busy.next act).1.system = busy.system ∨
      ∃ move, (busy.next act).1.system = (busy.system.next move).1 := by
  cases act with
  | start actor order exclusive =>
      rw [BusyRing.next]
      split
      · exact Or.inl rfl
      · split
        · exact Or.inl rfl
        · exact Or.inr ⟨_, rfl⟩
  | count actor =>
      rw [BusyRing.next]
      split
      · exact Or.inl rfl
      · exact Or.inr ⟨_, rfl⟩
  | advance actor refused =>
      rw [BusyRing.next]
      split
      case h_1 => exact Or.inl rfl
      case h_2 =>
          refine Or.inr ⟨.advance actor refused, ?_⟩
          split <;> rename_i step <;> exact (congrArg Prod.fst step).symm
      case h_3 transfer within =>
          obtain ⟨move, made⟩ := busy.exists_move_of_stepTransfer actor refused transfer
          refine Or.inr ⟨move, ?_⟩
          rw [← made]
          split <;> rename_i step <;> exact (congrArg Prod.fst step).symm

theorem BusyRing.capacity_next (busy : BusyRing actors α) (act : RingAct actors α) :
    (busy.next act).1.system.core.capacity = busy.system.core.capacity := by
  rcases busy.next_memory act with same | ⟨move, made⟩
  · rw [same]
  · rw [made, RingSystem.capacity_next]

theorem BusyRing.capacity_run (busy : BusyRing actors α) (acts : List (RingAct actors α)) :
    (busy.run acts).1.system.core.capacity = busy.system.core.capacity := by
  induction acts generalizing busy with
  | nil => rfl
  | cons act acts ih => exact (ih (busy.next act).1).trans (busy.capacity_next act)

/-! ## Moves of one actor -/

/-- A move of one actor changes neither the calls of the others nor their grants. -/
structure Undisturbed (before after : RingSystem actors α) (actor : Fin actors) : Prop where
  calls : ∀ other, other ≠ actor → after.calls other = before.calls other
  grants : ∀ (index : Nat) (granted : Grant α), granted.actor ≠ actor.val →
    (after.grants[index]? = some granted ↔ before.grants[index]? = some granted)

namespace Undisturbed

variable {system before after : RingSystem actors α} {actor : Fin actors}

theorem setCall (undisturbed : Undisturbed before after actor) (call : Option ActiveCall) :
    Undisturbed before (after.setCall actor call) actor where
  calls := by
    intro other different
    rw [RingSystem.setCall_calls_other _ _ different]
    exact undisturbed.calls other different
  grants := undisturbed.grants

theorem refl (system : RingSystem actors α) (actor : Fin actors) :
    Undisturbed system system actor := ⟨fun _ _ => rfl, fun _ _ _ => Iff.rfl⟩

theorem granted (system : RingSystem actors α) (actor : Fin actors) (exclusive : Bool)
    (offer : Reservation) (side : Side) :
    Undisturbed system (system.granted actor exclusive offer side) actor where
  calls := fun _ _ => rfl
  grants := by
    intro index granted foreign
    rw [RingSystem.granted]
    by_cases old : index < system.grants.length
    · rw [List.getElem?_append_left old]
    · rw [List.getElem?_append_right (Nat.le_of_not_lt old),
        List.getElem?_eq_none (Nat.le_of_not_lt old)]
      constructor
      · intro found
        have new := List.mem_singleton.mp (List.mem_of_getElem? found)
        exact absurd (congrArg Grant.actor new) foreign
      · intro found
        cases found

theorem changed {index : Nat} {own changed : Grant α} (found : before.grants[index]? = some own)
    (calls : after.calls = before.calls) (grants : after.grants = before.grants.set index changed)
    (holder : own.actor = actor) (stays : changed.actor = actor) :
    Undisturbed before after actor where
  calls := fun other _ => congrFun calls other
  grants := by
    intro position granted foreign
    rw [grants]
    by_cases same : index = position
    · subst position
      have inside := (List.getElem?_eq_some_iff.mp found).1
      rw [List.getElem?_set_self inside, found]
      constructor
      · intro equal
        cases equal
        exact absurd stays foreign
      · intro equal
        cases equal
        exact absurd holder foreign
    · rw [List.getElem?_set_ne same]

/-- No permitted move disturbs other actors. -/
theorem next (coherent : Coherent origin system) (move : RingMove actors α)
    (permitted : system.PermitsAccess move) :
    Undisturbed system (system.next move).1 move.mover := by
  have effect := system.effect_of_next move
  generalize (system.next move).1 = after at effect ⊢
  generalize (system.next move).2 = event at effect
  cases effect with
  | stay => exact refl system _
  | claimStarts | publicationStarts | censusStarts | claimShort | claimOffered | claimOutrun
  | publicationReady | publicationWaits | publicationPauses | censusLooks | censusCounts =>
      exact (refl system _).setCall _
  | claimGranted actor refused claim since offer =>
      exact (granted system actor claim.request.exclusive offer claim.request.side).setCall none
  | publicationSettles actor refused index publication since within =>
      obtain ⟨held, facts⟩ := coherent.publicationFacts within
      have grants : (system.published index publication.reservation).grants =
          system.grants.set index held.settle := by
        obtain ⟨before, rest, split, rfl⟩ := split_of_getElem? facts.found
        rw [RingSystem.published_grants split, split, set_split]
      have own : Undisturbed system (system.published index publication.reservation) actor :=
        changed facts.found rfl grants facts.holder facts.holder
      exact own.setCall none
  | writes actor index offset value held found | reads actor index offset held found =>
      obtain ⟨-, other, member, holder, -⟩ := permitted
      cases found.symm.trans member
      exact changed found rfl rfl holder holder

end Undisturbed

/-! ## What an actor does on the memory -/

/-- A reservation that an actor works on.  The slots that it has accessed are the first
ones, and it has put the elements there in their order. -/
structure Carried (system : RingSystem actors α) (actor : Fin actors) (order : RingOrder α)
    (exclusive : Bool) (haul : Haul α) (granted : Grant α) : Prop where
  found : system.grants[haul.grant]? = some granted
  holder : granted.actor = actor
  exclusive : granted.exclusive = exclusive
  waiting : granted.published = false
  reservation : granted.reservation = haul.reservation
  side : granted.reservation.side = order.side
  keys : granted.accesses.map Prod.fst = (List.range haul.moved.length).reverse
  values : granted.values =
    haul.moved.map some ++ List.replicate (granted.size - haul.moved.length) none
  fits : haul.moved.length ≤ granted.size
  brought : order.side = .producer →
    haul.moved = order.items.take haul.moved.length ∧ granted.size ≤ order.items.length

def StageFacts (system : RingSystem actors α) (policy : TransferPolicy) (actor : Fin actors)
    (transfer : RingTransfer α) : Prop :=
  match transfer.stage with
  | .claiming => ∃ claim since, system.calls actor = some ⟨.claim claim, since⟩ ∧
      claim.request = transfer.order.request policy transfer.exclusive
  | .moving haul => system.calls actor = none ∧
      ∃ granted, Carried system actor transfer.order transfer.exclusive haul granted
  | .publishing haul =>
      (∃ publication since, system.calls actor = some ⟨.publish haul.grant publication, since⟩) ∧
        ∃ granted, Carried system actor transfer.order transfer.exclusive haul granted ∧
          haul.moved.length = granted.size

def TaskFacts (system : RingSystem actors α) (policy : TransferPolicy) (actor : Fin actors) :
    Option (RingTask α) → Prop
  | none => system.calls actor = none
  | some .counting => ∃ census since, system.calls actor = some ⟨.census census, since⟩
  | some (.transfer transfer) => StageFacts system policy actor transfer

def RingTransfer.haul? (transfer : RingTransfer α) : Option (Haul α) :=
  match transfer.stage with
  | .claiming => none
  | .moving haul | .publishing haul => some haul

def RingTask.haul? : RingTask α → Option (Haul α)
  | .counting => none
  | .transfer work => work.haul?

theorem Carried.imp {before after : RingSystem actors α} {actor other : Fin actors}
    {order : RingOrder α} {exclusive : Bool} {haul : Haul α} {granted : Grant α}
    (carried : Carried before other order exclusive haul granted)
    (undisturbed : Undisturbed before after actor) (different : other ≠ actor) :
    Carried after other order exclusive haul granted where
  found := by
    refine (undisturbed.grants _ _ ?_).mpr carried.found
    rw [carried.holder]
    exact fun same => different (Fin.ext same)
  holder := carried.holder
  exclusive := carried.exclusive
  waiting := carried.waiting
  reservation := carried.reservation
  side := carried.side
  keys := carried.keys
  values := carried.values
  fits := carried.fits
  brought := carried.brought

theorem TaskFacts.imp {before after : RingSystem actors α} {policy : TransferPolicy}
    {actor other : Fin actors} {task : Option (RingTask α)}
    (facts : TaskFacts before policy other task) (undisturbed : Undisturbed before after actor)
    (different : other ≠ actor) : TaskFacts after policy other task := by
  have calls := undisturbed.calls other different
  cases task with
  | none => exact calls.trans facts
  | some task =>
      cases task with
      | counting =>
          obtain ⟨census, since, within⟩ := facts
          exact ⟨census, since, calls.trans within⟩
      | transfer transfer =>
          obtain ⟨order, exclusive, stage⟩ := transfer
          cases stage with
          | claiming =>
              obtain ⟨claim, since, within, asks⟩ := facts
              exact ⟨claim, since, calls.trans within, asks⟩
          | moving haul =>
              obtain ⟨free, granted, carried⟩ := facts
              exact ⟨calls.trans free, granted, carried.imp undisturbed different⟩
          | publishing haul =>
              obtain ⟨⟨publication, since, within⟩, granted, carried, complete⟩ := facts
              exact ⟨⟨publication, since, calls.trans within⟩, granted,
                carried.imp undisturbed different, complete⟩

namespace Carried

variable {system : RingSystem actors α} {actor : Fin actors} {order : RingOrder α}
  {exclusive : Bool} {haul : Haul α} {granted : Grant α}

theorem size_eq (carried : Carried system actor order exclusive haul granted) :
    granted.size = haul.reservation.len.toNat := by
  rw [Grant.size, carried.reservation]

theorem complete (carried : Carried system actor order exclusive haul granted)
    (done : haul.moved.length = granted.size) : granted.Complete := by
  have length := congrArg List.length carried.keys
  rw [List.length_map, List.length_reverse, List.length_range] at length
  exact length.trans done

theorem mayAccess (carried : Carried system actor order exclusive haul granted)
    (free : system.calls actor = none) (more : haul.moved.length < granted.size) :
    system.MayAccess actor order.side haul.grant haul.moved.length := by
  refine ⟨free, granted, carried.found, carried.holder, carried.side, carried.waiting, more, ?_⟩
  rw [carried.keys, List.mem_reverse, List.mem_range]
  exact Nat.lt_irrefl _

/-- The next slot is accessed. -/
theorem accessed (carried : Carried system actor order exclusive haul granted)
    (more : haul.moved.length < granted.size) (memory : Core α) {item : α}
    (next : order.side = .producer → order.items[haul.moved.length]? = some item) :
    Carried (system.accessed memory haul.grant granted haul.moved.length item) actor order
      exclusive (haul.add item) (granted.accessed haul.moved.length item) where
  found := by
    have inside := (List.getElem?_eq_some_iff.mp carried.found).1
    exact List.getElem?_set_self inside
  holder := carried.holder
  exclusive := carried.exclusive
  waiting := carried.waiting
  reservation := carried.reservation
  side := carried.side
  keys := by
    rw [Grant.accessed, List.map_cons, carried.keys, Haul.add, List.length_append,
      List.length_singleton, List.range_succ, List.reverse_append, List.reverse_singleton]
    rfl
  values := by
    have left : granted.size - haul.moved.length = granted.size - (haul.moved.length + 1) + 1 := by
      omega
    rw [values_accessed, carried.values, accessed_size, Haul.add, List.length_append,
      List.length_singleton, left, List.replicate_succ, List.set_append_right _ _ (by simp),
      List.length_map, Nat.sub_self, List.set_cons_zero, List.map_append, List.map_singleton,
      List.append_assoc, List.singleton_append]
  fits := by
    rw [Haul.add, List.length_append, List.length_singleton, accessed_size]
    exact more
  brought := by
    intro producing
    obtain ⟨front, enough⟩ := carried.brought producing
    refine ⟨?_, enough⟩
    rw [Haul.add, List.length_append, List.length_singleton, List.take_add_one, ← front,
      next producing, Option.toList_some]

theorem move?_cases (carried : Carried system actor order exclusive haul granted)
    (free : system.calls actor = none) :
    (haul.moved.length = granted.size ∧ haul.move? system actor order = none) ∨
    (haul.moved.length < granted.size ∧ ∃ move memory item, RingMove.mover move = actor ∧
      system.Permits move ∧
      (system.next move).1 =
        system.accessed memory haul.grant granted haul.moved.length item ∧
      haul.move? system actor order = some ((system.next move).1, haul.add item) ∧
      (order.side = .producer → order.items[haul.moved.length]? = some item)) := by
  have size := carried.size_eq
  have found := carried.found
  rcases Nat.lt_or_ge haul.moved.length granted.size with more | all
  · have access := carried.mayAccess free more
    have room : ¬ haul.reservation.len.toNat ≤ haul.moved.length := by omega
    refine Or.inr ⟨more, ?_⟩
    cases order with
    | put items whole =>
        obtain ⟨-, enough⟩ := carried.brought rfl
        obtain ⟨item, listed⟩ : ∃ item, items[haul.moved.length]? = some item :=
          ⟨_, List.getElem?_eq_getElem (more.trans_le enough)⟩
        have writes : (system.next (.write actor haul.grant haul.moved.length item)).1 =
            system.accessed (system.core.write (granted.cursor haul.moved.length) item)
              haul.grant granted haul.moved.length item := by
          simp only [RingSystem.next, found]
          rfl
        refine ⟨.write actor haul.grant haul.moved.length item, _, _, rfl, ⟨True.intro, access⟩,
          writes, ?_, fun _ => listed⟩
        rw [Haul.move?, if_neg room]
        simp only [listed]
    | take most whole =>
        have reads : system.next (.read actor haul.grant haul.moved.length) =
            (system.accessed system.core haul.grant granted haul.moved.length
              (system.core.read (granted.cursor haul.moved.length)),
              some (.value (system.core.read (granted.cursor haul.moved.length)))) := by
          simp only [RingSystem.next, found]
          rfl
        refine ⟨.read actor haul.grant haul.moved.length, _, _, rfl, ⟨True.intro, access⟩,
          congrArg Prod.fst reads, ?_, fun contrary => by cases contrary⟩
        rw [Haul.move?, if_neg room, reads]
  · have fits := carried.fits
    refine Or.inl ⟨by omega, ?_⟩
    unfold Haul.move?
    exact if_pos (by omega)

end Carried

/-! ## All actors together -/

/-- Each actor does on the memory what its operation says, a reservation that nobody has
published is in the hands of a transfer, and an exclusive transfer has its side to
itself. -/
structure Staffed (busy : BusyRing actors α) : Prop where
  tasks : ∀ actor, TaskFacts busy.system busy.policy actor (busy.tasks actor)
  carried : ∀ (index : Nat) (granted : Grant α), busy.system.grants[index]? = some granted →
    granted.published = false →
      ∃ actor task haul, busy.tasks actor = some task ∧ task.haul? = some haul ∧
        haul.grant = index
  alone : ∀ actor, ∀ transfer ∈ busy.transfer? actor, transfer.exclusive = true →
    ∀ other, ∀ rival ∈ busy.transfer? other, rival.order.side = transfer.order.side →
      other = actor

namespace BusyRing

@[simp] theorem worked_tasks_self (busy : BusyRing actors α) (actor : Fin actors)
    (system : RingSystem actors α) (task : Option (RingTask α)) :
    (busy.worked actor system task).tasks actor = task := if_pos rfl

@[simp] theorem worked_tasks_other (busy : BusyRing actors α) {actor other : Fin actors}
    (system : RingSystem actors α) (task : Option (RingTask α)) (different : other ≠ actor) :
    (busy.worked actor system task).tasks other = busy.tasks other := if_neg different

theorem mem_transfer? {busy : BusyRing actors α} {actor : Fin actors} {transfer : RingTransfer α} :
    transfer ∈ busy.transfer? actor ↔ busy.tasks actor = some (.transfer transfer) := by
  rw [Option.mem_def, BusyRing.transfer?]
  cases busy.tasks actor with
  | none => simp
  | some task => cases task <;> simp

theorem mem_transfer?_worked {busy : BusyRing actors α} {actor other : Fin actors}
    {system : RingSystem actors α} {task : Option (RingTask α)} {transfer : RingTransfer α} :
    transfer ∈ (busy.worked actor system task).transfer? other ↔
      (other = actor ∧ task = some (.transfer transfer)) ∨
        (other ≠ actor ∧ transfer ∈ busy.transfer? other) := by
  rw [mem_transfer?, mem_transfer?]
  by_cases same : other = actor
  · subst other
    simp
  · simp [same]

end BusyRing

namespace Staffed

variable {busy : BusyRing actors α} {actor : Fin actors}

theorem start (capacity : Capacity) (policy : TransferPolicy) (watermark : Option UInt32)
    (blank : α) (origin : Cursor) :
    Staffed (BusyRing.start capacity policy watermark blank origin : BusyRing actors α) where
  tasks := fun _ => rfl
  carried := by
    intro index granted found
    cases found
  alone := by
    intro actor transfer within
    cases within

theorem carrier (staffed : Staffed busy) {index : Nat} {granted : Grant α}
    (found : busy.system.grants[index]? = some granted) (waiting : granted.published = false) :
    ∃ actor, ∃ transfer ∈ busy.transfer? actor, ∃ haul, transfer.haul? = some haul ∧
      haul.grant = index ∧
        Carried busy.system actor transfer.order transfer.exclusive haul granted := by
  obtain ⟨actor, task, haul, within, holds, same⟩ := staffed.carried index granted found waiting
  have facts := staffed.tasks actor
  rw [within] at facts
  cases task with
  | counting => cases holds
  | transfer transfer =>
      refine ⟨actor, transfer, BusyRing.mem_transfer?.mpr within, haul, holds, same, ?_⟩
      obtain ⟨order, exclusive, stage⟩ := transfer
      cases stage with
      | claiming => cases holds
      | moving held =>
          cases holds
          obtain ⟨-, other, carried⟩ := facts
          have equal := carried.found
          rw [same, found] at equal
          cases equal
          exact carried
      | publishing held =>
          cases holds
          obtain ⟨-, other, carried, -⟩ := facts
          have equal := carried.found
          rw [same, found] at equal
          cases equal
          exact carried

/-- What an actor holds is what its transfer works on. -/
theorem own_haul (staffed : Staffed busy) {transfer : RingTransfer α}
    (within : transfer ∈ busy.transfer? actor) {index : Nat} {granted : Grant α}
    (found : busy.system.grants[index]? = some granted) (mine : granted.actor = actor)
    (waiting : granted.published = false) :
    ∃ haul, transfer.haul? = some haul ∧ haul.grant = index := by
  obtain ⟨other, held, heldWithin, haul, holds, same, carried⟩ := staffed.carrier found waiting
  have equal : other = actor := Fin.ext (carried.holder.symm.trans mine)
  rw [equal] at heldWithin
  cases Option.some.inj (within.symm.trans heldWithin)
  exact ⟨haul, holds, same⟩

theorem claimer (staffed : Staffed busy) {request : Request}
    (claims : request ∈ busy.system.claiming actor) :
    ∃ transfer ∈ busy.transfer? actor,
      request = transfer.order.request busy.policy transfer.exclusive := by
  obtain ⟨claim, since, within, rfl⟩ := mem_claiming.mp claims
  have facts := staffed.tasks actor
  cases task : busy.tasks actor with
  | none =>
      rw [task] at facts
      cases within.symm.trans facts
  | some task' =>
      rw [task] at facts
      cases task' with
      | counting =>
          obtain ⟨census, started, counting⟩ := facts
          cases within.symm.trans counting
      | transfer transfer =>
          refine ⟨transfer, BusyRing.mem_transfer?.mpr task, ?_⟩
          obtain ⟨order, exclusive, stage⟩ := transfer
          cases stage with
          | claiming =>
              obtain ⟨own, started, claiming, asks⟩ := facts
              cases within.symm.trans claiming
              exact asks
          | moving haul =>
              obtain ⟨free, -⟩ := facts
              cases within.symm.trans free
          | publishing haul =>
              obtain ⟨⟨publication, started, publishing⟩, -⟩ := facts
              cases within.symm.trans publishing

/-- A permitted transfer starts with a permitted claim. -/
theorem permits_claim (staffed : Staffed busy) {order : RingOrder α} {exclusive : Bool}
    (permitted : busy.Permits (.start actor order exclusive)) (free : busy.tasks actor = none)
    (asks : order.requested ≠ 0) :
    busy.system.Permits (.claim actor (order.request busy.policy exclusive)) := by
  have idle := staffed.tasks actor
  rw [free] at idle
  refine ⟨⟨idle, UInt32.pos_iff_ne_zero.mpr asks, ?_⟩, True.intro⟩
  change if exclusive then _ else _
  cases exclusive with
  | true =>
      refine ⟨fun other request claims same => ?_, fun grant listed => ?_⟩
      · obtain ⟨transfer, within, rfl⟩ := staffed.claimer claims
        cases (permitted other transfer within same).1
      · obtain ⟨listed, onSide⟩ := mem_onSide.mp listed
        obtain ⟨index, found⟩ := List.getElem?_of_mem listed
        by_contra waits
        obtain ⟨other, transfer, within, haul, -, -, carried⟩ :=
          staffed.carrier found (Bool.not_eq_true _ ▸ waits)
        cases (permitted other transfer within (carried.side.symm.trans onSide)).1
  | false =>
      refine ⟨fun other request claims same => ?_, fun grant listed exclusive => ?_⟩
      · obtain ⟨transfer, within, rfl⟩ := staffed.claimer claims
        exact (permitted other transfer within same).2
      · obtain ⟨listed, onSide⟩ := mem_onSide.mp listed
        obtain ⟨index, found⟩ := List.getElem?_of_mem listed
        by_contra waits
        obtain ⟨other, transfer, within, haul, -, -, carried⟩ :=
          staffed.carrier found (Bool.not_eq_true _ ▸ waits)
        have shared := (permitted other transfer within (carried.side.symm.trans onSide)).2
        rw [← carried.exclusive, exclusive] at shared
        cases shared

theorem permits_publish (staffed : Staffed busy) {transfer : RingTransfer α} {haul : Haul α}
    (within : transfer ∈ busy.transfer? actor) (moving : transfer.stage = .moving haul)
    (free : busy.system.calls actor = none) {granted : Grant α}
    (carried : Carried busy.system actor transfer.order transfer.exclusive haul granted)
    (done : haul.moved.length = granted.size) :
    busy.system.Permits (.publish actor haul.grant transfer.exclusive) := by
  refine ⟨⟨free, granted, carried.found, carried.holder, carried.waiting, ?_⟩, ?_⟩
  · intro exclusive other listed sameSide
    obtain ⟨index, apart, found⟩ := List.mem_eraseIdx_iff_getElem?.mp listed
    by_contra waits
    obtain ⟨rivalActor, rival, rivalWithin, rivalHaul, holds, same, rivalCarried⟩ :=
      staffed.carrier found (Bool.not_eq_true _ ▸ waits)
    have onSide : rival.order.side = transfer.order.side :=
      rivalCarried.side.symm.trans (sameSide.trans carried.side)
    have equal := staffed.alone actor transfer within exclusive rivalActor rival rivalWithin onSide
    rw [equal] at rivalWithin
    cases Option.some.inj (within.symm.trans rivalWithin)
    rw [RingTransfer.haul?, moving] at holds
    cases holds
    exact apart same.symm
  · intro held listed
    cases carried.found.symm.trans listed
    exact carried.complete done

theorem change (staffed : Staffed busy) {after : RingSystem actors α}
    (task : Option (RingTask α)) (undisturbed : Undisturbed busy.system after actor)
    (own : TaskFacts after busy.policy actor task)
    (carried : ∀ (index : Nat) (granted : Grant α), after.grants[index]? = some granted →
      granted.actor = actor → granted.published = false →
        ∃ held haul, task = some held ∧ held.haul? = some haul ∧ haul.grant = index)
    (alone : ∀ transfer, task = some (.transfer transfer) →
      (∃ old ∈ busy.transfer? actor, old.order = transfer.order ∧
        old.exclusive = transfer.exclusive) ∨
      busy.Permits (.start actor transfer.order transfer.exclusive)) :
    Staffed (busy.worked actor after task) where
  tasks := by
    intro other
    by_cases same : other = actor
    · subst other
      rw [BusyRing.worked_tasks_self]
      exact own
    · rw [BusyRing.worked_tasks_other _ _ _ same]
      exact (staffed.tasks other).imp undisturbed same
  carried := by
    intro index granted found waiting
    by_cases mine : granted.actor = actor
    · obtain ⟨held, haul, equal, holds, same⟩ := carried index granted found mine waiting
      refine ⟨actor, held, haul, ?_, holds, same⟩
      rw [BusyRing.worked_tasks_self]
      exact equal
    · have old := (undisturbed.grants index granted mine).mp found
      obtain ⟨other, transfer, within, haul, holds, same, facts⟩ := staffed.carrier old waiting
      refine ⟨other, .transfer transfer, haul, ?_, holds, same⟩
      have different : other ≠ actor := by
        rintro rfl
        exact mine facts.holder
      rw [BusyRing.worked_tasks_other _ _ _ different]
      exact BusyRing.mem_transfer?.mp within
  alone := by
    have known : ∀ other transfer, other ≠ actor →
        transfer ∈ (busy.worked actor after task).transfer? other →
          transfer ∈ busy.transfer? other := by
      intro other transfer different within
      rw [BusyRing.mem_transfer?, BusyRing.worked_tasks_other _ _ _ different] at within
      exact BusyRing.mem_transfer?.mpr within
    have new : ∀ transfer, transfer ∈ (busy.worked actor after task).transfer? actor →
        task = some (.transfer transfer) := by
      intro transfer within
      rw [BusyRing.mem_transfer?, BusyRing.worked_tasks_self] at within
      exact within
    intro first transfer within exclusive other rival rivalWithin sameSide
    by_cases isFirst : first = actor <;> by_cases isOther : other = actor
    · rw [isFirst, isOther]
    · subst first
      have rivalOld := known other rival isOther rivalWithin
      rcases alone transfer (new transfer within) with ⟨old, oldWithin, order, kind⟩ | permitted
      · rw [← order] at sameSide
        exact staffed.alone actor old oldWithin (kind.trans exclusive) other rival rivalOld sameSide
      · rw [(permitted other rival rivalOld sameSide).1] at exclusive
        cases exclusive
    · subst other
      have old := known first transfer isFirst within
      rcases alone rival (new rival rivalWithin) with ⟨held, heldWithin, order, -⟩ | permitted
      · rw [← order] at sameSide
        exact staffed.alone first transfer old exclusive actor held heldWithin sameSide
      · rw [(permitted first transfer old sameSide.symm).2] at exclusive
        cases exclusive
    · exact staffed.alone first transfer (known first transfer isFirst within) exclusive other
        rival (known other rival isOther rivalWithin) sameSide

end Staffed

end RingPool

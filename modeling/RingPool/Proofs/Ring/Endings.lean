import RingPool.Proofs.Ring.Tasks
import RingPool.Proofs.Ring.BoundedQueue

/-!
# How the elements of a ring end

The elements that operations have reported to have gone through a side are those of the
grants that the side has published, in their order (`Ledger`): a transfer reports in the
step in which it stores the tail.  When nobody is at work, the traffic of the consumers is
the beginning of that of the producers (`Delivered`), and the rest of it is what the ring
still owns.  The loop that drops it comes to its end after as many rounds.

Main statement: the elements that were accepted are those that were returned, followed by
those that are dropped, and no other element is dropped.
-/

set_option autoImplicit false

namespace RingPool

open Grant

variable {actors : Nat} {α : Type} {origin : Cursor}

/-! ## What is published -/

section Settled

variable {core : Core α} {before after : List (Grant α)} {grant : Grant α}

/-- A grant that is published comes after those that its side has published before. -/
theorem Layout.settledOn_settle (layout : Layout origin core (before ++ grant :: after))
    (waiting : grant.published = false) (side : Side) :
    settledOn side (before ++ grant.settle :: after) =
      settledOn side (before ++ grant :: after) ++
        if grant.reservation.side = side then [grant.settle] else [] := by
  rw [settledOn_append, settledOn_append, settledOn_cons, settledOn_cons, waiting]
  by_cases same : grant.reservation.side = side
  · subst side
    simp [layout.settledOn_after_eq_nil waiting]
  · simp [same]

theorem settledOn_accessed (waiting : grant.published = false) (side : Side) (offset : Nat)
    (value : α) :
    settledOn side (before ++ grant.accessed offset value :: after) =
      settledOn side (before ++ grant :: after) := by
  rw [settledOn_append, settledOn_append, settledOn_cons, settledOn_cons, accessed_published,
    waiting]
  simp

end Settled

theorem RingSystem.setCall_calls (system : RingSystem actors α) (actor : Fin actors) :
    system.setCall actor (system.calls actor) = system := by
  have same : (system.setCall actor (system.calls actor)).calls = system.calls := by
    funext other
    by_cases equal : other = actor
    · rw [equal, setCall_calls_self]
    · rw [setCall_calls_other _ _ equal]
  exact congrArg (fun calls => { system with calls }) same

/-! ## Receipts -/

namespace RingOrder

theorem passed_receipt (order : RingOrder α) (ring : Ring α) (haul : Haul α) (side : Side) :
    (order.receipt ring haul).passed side = if order.side = side then haul.moved else [] := by
  cases order <;> cases side <;> rfl

theorem passed_refused (order : RingOrder α) (policy : TransferPolicy) (available : UInt32)
    (side : Side) : (order.refused policy available).passed side = [] := by
  rcases order with ⟨items, _ | _⟩ | ⟨most, whole⟩ <;> cases policy <;> cases side <;> rfl

theorem handedBack_refused (order : RingOrder α) (policy : TransferPolicy) (available : UInt32) :
    (order.refused policy available).handedBack = order.items := by
  rcases order with ⟨items, _ | _⟩ | ⟨most, whole⟩ <;> cases policy <;> rfl

theorem passed_nothing (order : RingOrder α) (side : Side) : order.nothing.passed side = [] := by
  cases order <;> cases side <;> rfl

theorem handedBack_nothing (order : RingOrder α) : order.nothing.handedBack = order.items := by
  cases order <;> rfl

end RingOrder

/-- What operations have reported: the elements that went through a side are those of its
published grants, and a caller that brings elements gets those back that the ring did not
accept. -/
structure Ledger (reports : List (RingReport actors α)) (system : RingSystem actors α) :
    Prop where
  settled : ∀ side, (settledOn side system.grants).flatMap Grant.values =
    (reports.flatMap (RingReport.passed side)).map some
  whole : ∀ actor order receipt, RingReport.moved actor order receipt ∈ reports →
    receipt.passed .producer ++ receipt.handedBack = order.items

/-- A ring with actors at work whose memory, operations and reports agree. -/
structure InOrder (origin : Cursor) (reports : List (RingReport actors α))
    (busy : BusyRing actors α) : Prop where
  coherent : Coherent origin busy.system
  accounted : Accounted busy.system
  delivered : Delivered origin busy.system
  staffed : Staffed busy
  ledger : Ledger reports busy.system

namespace InOrder

variable {reports : List (RingReport actors α)} {busy : BusyRing actors α} {actor : Fin actors}

theorem start (capacity : Capacity) (policy : TransferPolicy) (watermark : Option UInt32)
    (blank : α) (origin : Cursor) :
    InOrder origin [] (BusyRing.start capacity policy watermark blank origin :
      BusyRing actors α) where
  coherent := Coherent.start capacity blank origin
  accounted := Accounted.start capacity blank origin
  delivered := Delivered.start capacity blank origin
  staffed := Staffed.start capacity policy watermark blank origin
  ledger := by
    refine ⟨fun side => rfl, ?_⟩
    intro actor order receipt listed
    cases listed

/-- One actor makes a permitted move, and may report what it has moved. -/
theorem change (inOrder : InOrder origin reports busy) (window : busy.system.WithinWindow)
    {move : RingMove actors α} (permitted : busy.system.Permits move)
    {after : RingSystem actors α} (made : (busy.system.next move).1 = after)
    (task : Option (RingTask α)) (new : List (RingReport actors α))
    (staffed : Staffed (busy.worked move.mover after task))
    (settled : ∀ side, (settledOn side after.grants).flatMap Grant.values =
      (settledOn side busy.system.grants).flatMap Grant.values ++
        (new.flatMap (RingReport.passed side)).map some)
    (whole : ∀ actor order receipt, RingReport.moved actor order receipt ∈ new →
      receipt.passed .producer ++ receipt.handedBack = order.items) :
    InOrder origin (reports ++ new)
      (busy.worked move.mover after task) := by
  subst after
  refine ⟨inOrder.coherent.next window move permitted.1,
    inOrder.accounted.next inOrder.coherent move permitted,
    inOrder.delivered.next inOrder.coherent inOrder.accounted move permitted, staffed, ?_, ?_⟩
  · intro side
    rw [List.flatMap_append, List.map_append, ← inOrder.ledger.settled side]
    exact settled side
  · intro actor order receipt listed
    rcases List.mem_append.mp listed with old | fresh
    · exact inOrder.ledger.whole actor order receipt old
    · exact whole actor order receipt fresh

theorem calls (inOrder : InOrder origin reports busy) (window : busy.system.WithinWindow)
    {move : RingMove actors α} (permitted : busy.system.Permits move)
    {call : Option ActiveCall} (made : (busy.system.next move).1 =
      busy.system.setCall move.mover call)
    (task : Option (RingTask α))
    (own : TaskFacts (busy.system.setCall move.mover call) busy.policy move.mover task)
    (keeps : ∀ transfer ∈ busy.transfer? move.mover, ∀ haul, transfer.haul? = some haul →
      ∃ held, task = some held ∧ held.haul? = some haul)
    (alone : ∀ transfer, task = some (.transfer transfer) →
      (∃ old ∈ busy.transfer? move.mover, old.order = transfer.order ∧
        old.exclusive = transfer.exclusive) ∨
      busy.Permits (.start move.mover transfer.order transfer.exclusive))
    (new : List (RingReport actors α)) (none : ∀ side, new.flatMap (RingReport.passed side) = [])
    (whole : ∀ actor order receipt, RingReport.moved actor order receipt ∈ new →
      receipt.passed .producer ++ receipt.handedBack = order.items) :
    InOrder origin (reports ++ new)
      (busy.worked move.mover (busy.system.setCall move.mover call) task) := by
  refine inOrder.change window permitted made task new ?_ ?_ whole
  · refine inOrder.staffed.change task ((Undisturbed.refl _ _).setCall call) own ?_ alone
    intro index granted found mine waiting
    obtain ⟨other, transfer, within, haul, holds, same, carried⟩ :=
      inOrder.staffed.carrier found waiting
    have equal : other = move.mover := Fin.ext (carried.holder.symm.trans mine)
    rw [equal] at within
    obtain ⟨held, equal, holds⟩ := keeps transfer within haul holds
    exact ⟨held, haul, equal, holds, same⟩
  · intro side
    rw [none, List.map_nil, List.append_nil]
    rfl

theorem goesOn (inOrder : InOrder origin reports busy) (window : busy.system.WithinWindow)
    {move : RingMove actors α} (permitted : busy.system.Permits move)
    {call : Option ActiveCall} (made : (busy.system.next move).1 =
      busy.system.setCall move.mover call)
    {transfer later : RingTransfer α} (within : transfer ∈ busy.transfer? move.mover)
    (order : transfer.order = later.order) (exclusive : transfer.exclusive = later.exclusive)
    (haul : later.haul? = transfer.haul?)
    (facts : StageFacts (busy.system.setCall move.mover call) busy.policy move.mover later) :
    InOrder origin (reports ++ [])
      (busy.worked move.mover (busy.system.setCall move.mover call) (some (.transfer later))) := by
  refine inOrder.calls window permitted made (some (.transfer later)) facts ?_ ?_ []
    (fun _ => rfl) (by simp)
  · intro held heldWithin own holds
    cases Option.some.inj (within.symm.trans heldWithin)
    exact ⟨_, rfl, haul.trans holds⟩
  · intro same listed
    cases listed
    exact Or.inl ⟨transfer, within, order, exclusive⟩

theorem starts (inOrder : InOrder origin reports busy) (window : busy.system.WithinWindow)
    {order : RingOrder α} {exclusive : Bool} (idle : busy.tasks actor = none)
    (permitted : busy.Permits (.start actor order exclusive)) :
    InOrder origin (reports ++ (busy.next (.start actor order exclusive)).2.toList)
      (busy.next (.start actor order exclusive)).1 := by
  have free := inOrder.staffed.tasks actor
  rw [idle] at free
  by_cases nothing : order.requested = 0
  · have made : busy.next (.start actor order exclusive) =
        (busy, some (.moved actor order order.nothing)) := by
      simp only [BusyRing.next, idle, if_pos nothing]
    rw [made]
    refine ⟨inOrder.coherent, inOrder.accounted, inOrder.delivered, inOrder.staffed, ?_, ?_⟩
    · intro side
      simp [inOrder.ledger.settled side, RingReport.passed, order.passed_nothing]
    · intro other told receipt listed
      rcases List.mem_append.mp listed with old | new
      · exact inOrder.ledger.whole other told receipt old
      · cases List.mem_singleton.mp new
        rw [order.passed_nothing, order.handedBack_nothing, List.nil_append]
  · have claims := inOrder.staffed.permits_claim permitted idle nothing
    have enters : (busy.system.next (.claim actor (order.request busy.policy exclusive))).1 =
        busy.system.setCall actor (some ⟨.claim (Claim.start busy.system.core
          (order.request busy.policy exclusive)), busy.system.totals⟩) := by
      simp only [RingSystem.next, RingSystem.enter]
      rw [free]
    have made : busy.next (.start actor order exclusive) =
        (busy.worked actor (busy.system.setCall actor (some ⟨.claim (Claim.start busy.system.core
          (order.request busy.policy exclusive)), busy.system.totals⟩))
            (some (.transfer ⟨order, exclusive, .claiming⟩)), none) := by
      simp only [BusyRing.next, idle, if_neg nothing, enters]
    rw [made]
    refine inOrder.calls window claims enters _ ?_ ?_ ?_ [] (fun _ => rfl) (by simp)
    · exact ⟨_, _, RingSystem.setCall_calls_self _ _ _, rfl⟩
    · intro transfer within
      cases idle.symm.trans (BusyRing.mem_transfer?.mp within)
    · intro transfer same
      cases same
      exact Or.inr permitted

theorem startsCount (inOrder : InOrder origin reports busy)
    (window : busy.system.WithinWindow) (idle : busy.tasks actor = none) :
    InOrder origin (reports ++ (busy.next (.count actor)).2.toList)
      (busy.next (.count actor)).1 := by
  have free := inOrder.staffed.tasks actor
  rw [idle] at free
  have enters : (busy.system.next (.census actor)).1 =
      busy.system.setCall actor (some ⟨.census .start, busy.system.totals⟩) := by
    simp only [RingSystem.next, RingSystem.enter]
    rw [free]
  have made : busy.next (.count actor) =
      (busy.worked actor (busy.system.setCall actor (some ⟨.census .start, busy.system.totals⟩))
        (some .counting), none) := by
    simp only [BusyRing.next, idle, enters]
  rw [made]
  have permitted : busy.system.Permits (.census actor) := ⟨free, True.intro⟩
  refine inOrder.calls window permitted enters _ ?_ ?_ ?_ [] (fun _ => rfl) (by simp)
  · exact ⟨_, _, RingSystem.setCall_calls_self _ _ _⟩
  · intro transfer within
    cases idle.symm.trans (BusyRing.mem_transfer?.mp within)
  · intro transfer same
    cases same

theorem counts (inOrder : InOrder origin reports busy) (window : busy.system.WithinWindow)
    (counting : busy.tasks actor = some .counting) (refused : Bool) :
    InOrder origin (reports ++ (busy.next (.advance actor refused)).2.toList)
      (busy.next (.advance actor refused)).1 := by
  obtain ⟨census, since, within⟩ : ∃ census since,
      busy.system.calls actor = some ⟨.census census, since⟩ := by
    have facts := inOrder.staffed.tasks actor
    rw [counting] at facts
    exact facts
  have permitted : busy.system.Permits (.advance actor refused) := ⟨True.intro, True.intro⟩
  have noTransfer : ∀ transfer, transfer ∉ busy.transfer? actor := by
    intro transfer holds
    cases counting.symm.trans (BusyRing.mem_transfer?.mp holds)
  cases census with
  | start =>
      have looks : busy.system.next (.advance actor refused) =
          (busy.system.setCall actor (some ⟨.census (.seen busy.system.core.consumer.tail),
            since⟩), none) := by
        simp only [RingSystem.next, within, Census.step, RingSystem.settle]
      have made : busy.next (.advance actor refused) =
          (busy.worked actor (busy.system.setCall actor (some ⟨.census
            (.seen busy.system.core.consumer.tail), since⟩)) (some .counting), none) := by
        simp only [BusyRing.next, counting, looks]
      rw [made]
      refine inOrder.calls window permitted (congrArg Prod.fst looks) _ ?_ ?_ ?_ [] (fun _ => rfl)
        (by simp)
      · exact ⟨_, _, RingSystem.setCall_calls_self _ _ _⟩
      · exact fun transfer holds => absurd holds (noTransfer transfer)
      · exact fun transfer same => by cases same
  | seen tail =>
      have answers : busy.system.next (.advance actor refused) =
          (busy.system.setCall actor none, some (.counted (min
            (busy.system.core.producer.tail - tail) busy.system.core.capacity.mask))) := by
        simp only [RingSystem.next, within, Census.step, RingSystem.settle]
      have made : busy.next (.advance actor refused) =
          (busy.worked actor (busy.system.setCall actor none) none, some (.counted actor (min
            (busy.system.core.producer.tail - tail) busy.system.core.capacity.mask))) := by
        simp only [BusyRing.next, counting, answers]
      rw [made]
      refine inOrder.calls window permitted (congrArg Prod.fst answers) none ?_ ?_ ?_
        [.counted actor _] (fun _ => rfl) (by simp)
      · exact RingSystem.setCall_calls_self _ _ _
      · exact fun transfer holds => absurd holds (noTransfer transfer)
      · exact fun transfer same => by cases same

/-- A claim that is granted: the reservation is in the hands of its transfer. -/
theorem wins (inOrder : InOrder origin reports busy) (window : busy.system.WithinWindow)
    {order : RingOrder α} {exclusive refused : Bool}
    (claiming : busy.tasks actor = some (.transfer ⟨order, exclusive, .claiming⟩))
    {claim : Claim} {since : SlotTotals} {offer : Reservation} {attempts : Nat}
    (within : busy.system.calls actor = some ⟨.claim claim, since⟩)
    (asks : claim.request = order.request busy.policy exclusive)
    (bidding : claim.phase = .bid offer)
    (unopposed : claim.request.exclusive = true ∨
      (busy.system.core.cursors claim.request.side).head = offer.head)
    (step : busy.system.next (.advance actor refused) =
      ((busy.system.granted actor claim.request.exclusive offer claim.request.side).setCall actor
        none, some (.claimed ⟨.granted offer, attempts⟩))) :
    InOrder origin (reports ++ (busy.next (.advance actor refused)).2.toList)
      (busy.next (.advance actor refused)).1 := by
  have permitted : busy.system.Permits (.advance actor refused) := ⟨True.intro, True.intro⟩
  have holds := BusyRing.mem_transfer?.mpr claiming
  obtain ⟨side, -, -, -, -⟩ := inOrder.coherent.grant_fits window within bidding unopposed
  obtain ⟨known, facts⟩ := inOrder.coherent.claimFacts within
  obtain ⟨-, fits, -⟩ := facts.offer offer bidding
  obtain ⟨-, -, few, -⟩ := Request.fit?_eq_some fits facts.asks
  rw [asks] at side few
  have made : busy.next (.advance actor refused) =
      (busy.worked actor ((busy.system.granted actor claim.request.exclusive offer
        claim.request.side).setCall actor none)
          (some (.transfer ⟨order, exclusive, .moving ⟨busy.system.grants.length, offer, []⟩⟩)),
        none) := by
    simp only [BusyRing.next, claiming, BusyRing.stepTransfer, step]
  rw [made]
  refine inOrder.change window permitted (congrArg Prod.fst step) _ [] ?_ ?_ (by simp)
  · refine inOrder.staffed.change _ ((Undisturbed.granted _ _ _ _ _).setCall none) ?_ ?_ ?_
    · refine ⟨RingSystem.setCall_calls_self _ _ _,
        ⟨actor, claim.request.exclusive, offer, [], false⟩, ?_, rfl, ?_, rfl, rfl, side, rfl, ?_,
        Nat.zero_le _, ?_⟩
      · exact getElem?_split busy.system.grants [] _
      · rw [asks]
        rfl
      · simp [Grant.values]
      · intro producing
        refine ⟨rfl, ?_⟩
        cases order with
        | put items whole =>
            have small := UInt32.le_iff_toNat_le.mp few
            have asked : (requestSize items.length).toNat = _ := requestSize_toNat items.length
            exact small.trans (asked.trans_le (Nat.min_le_left _ _))
        | take most whole => cases producing
    · intro index granted found mine waiting
      by_cases old : index < busy.system.grants.length
      · have known : busy.system.grants[index]? = some granted :=
          (List.getElem?_append_left old).symm.trans found
        obtain ⟨haul, none, -⟩ := inOrder.staffed.own_haul holds known mine waiting
        cases none
      · have length : ((busy.system.granted actor claim.request.exclusive offer
            claim.request.side).setCall actor none).grants.length =
              busy.system.grants.length + 1 := List.length_append
        have inside : index < busy.system.grants.length + 1 := by
          rw [← length]
          exact (List.getElem?_eq_some_iff.mp found).1
        refine ⟨_, _, rfl, rfl, ?_⟩
        change busy.system.grants.length = index
        omega
    · intro transfer same
      cases same
      exact Or.inl ⟨_, holds, rfl, rfl⟩
  · intro side
    rw [List.flatMap_nil, List.map_nil, List.append_nil]
    exact congrArg (List.flatMap Grant.values) (settledOn_granted side _ rfl)

theorem claims (inOrder : InOrder origin reports busy) (window : busy.system.WithinWindow)
    {order : RingOrder α} {exclusive : Bool}
    (claiming : busy.tasks actor = some (.transfer ⟨order, exclusive, .claiming⟩))
    (refused : Bool) :
    InOrder origin (reports ++ (busy.next (.advance actor refused)).2.toList)
      (busy.next (.advance actor refused)).1 := by
  obtain ⟨claim, since, within, asks⟩ : ∃ claim since,
      busy.system.calls actor = some ⟨.claim claim, since⟩ ∧
        claim.request = order.request busy.policy exclusive := by
    have facts := inOrder.staffed.tasks actor
    rw [claiming] at facts
    exact facts
  have permitted : busy.system.Permits (.advance actor refused) := ⟨True.intro, True.intro⟩
  have holds := BusyRing.mem_transfer?.mpr claiming
  have goesOn : ∀ later : Claim, later.request = claim.request →
      busy.system.next (.advance actor refused) =
        (busy.system.setCall actor (some ⟨.claim later, since⟩), none) →
      InOrder origin (reports ++ (busy.next (.advance actor refused)).2.toList)
        (busy.next (.advance actor refused)).1 := by
    intro later same step
    have made : busy.next (.advance actor refused) =
        (busy.worked actor (busy.system.setCall actor (some ⟨.claim later, since⟩))
          (some (.transfer ⟨order, exclusive, .claiming⟩)), none) := by
      simp only [BusyRing.next, claiming, BusyRing.stepTransfer, step]
    rw [made]
    exact inOrder.goesOn window permitted (congrArg Prod.fst step) holds rfl rfl rfl
      ⟨later, since, RingSystem.setCall_calls_self _ _ _, same.trans asks⟩
  have effect := busy.system.effect_of_next (.advance actor refused)
  rcases step : busy.system.next (.advance actor refused) with ⟨after, event⟩
  rw [step] at effect
  cases effect with
  | stay =>
      refine goesOn claim rfl ?_
      rw [step, ← within, RingSystem.setCall_calls]
  | claimOffered _ _ own started head offer calling =>
      cases within.symm.trans calling
      exact goesOn { claim with phase := .bid offer } rfl step
  | claimOutrun _ _ own started offer calling =>
      cases within.symm.trans calling
      exact goesOn { claim with
        attempts := claim.attempts + 1
        phase := .seek (busy.system.core.cursors claim.request.side).head } rfl step
  | claimShort _ _ own started head available calling =>
      have made : busy.next (.advance actor refused) =
          (busy.worked actor (busy.system.setCall actor none) none,
            some (.moved actor order (order.refused busy.policy available))) := by
        simp only [BusyRing.next, claiming, BusyRing.stepTransfer, step]
        rfl
      rw [made]
      refine inOrder.calls window permitted (congrArg Prod.fst step) none ?_ ?_ ?_
        [.moved actor order (order.refused busy.policy available)] ?_ ?_
      · exact RingSystem.setCall_calls_self _ _ _
      · intro transfer held haul has
        cases Option.some.inj (holds.symm.trans held)
        cases has
      · exact fun transfer same => by cases same
      · intro side
        simp [RingReport.passed, order.passed_refused]
      · intro other told receipt listed
        cases List.mem_singleton.mp listed
        rw [order.passed_refused, order.handedBack_refused, List.nil_append]
  | claimGranted _ _ own started offer calling bidding unopposed =>
      cases within.symm.trans calling
      exact inOrder.wins window claiming within asks bidding unopposed step
  | publicationReady _ _ _ _ _ calling | publicationWaits _ _ _ _ _ calling
  | publicationPauses _ _ _ _ _ calling | publicationSettles _ _ _ _ _ calling
  | censusLooks _ _ _ calling | censusCounts _ _ _ _ calling =>
      cases within.symm.trans calling

theorem moves (inOrder : InOrder origin reports busy) (window : busy.system.WithinWindow)
    {order : RingOrder α} {exclusive : Bool} {haul : Haul α}
    (moving : busy.tasks actor = some (.transfer ⟨order, exclusive, .moving haul⟩))
    (refused : Bool) :
    InOrder origin (reports ++ (busy.next (.advance actor refused)).2.toList)
      (busy.next (.advance actor refused)).1 := by
  obtain ⟨free, granted, carried⟩ : busy.system.calls actor = none ∧
      ∃ granted, Carried busy.system actor order exclusive haul granted := by
    have facts := inOrder.staffed.tasks actor
    rw [moving] at facts
    exact facts
  have holds := BusyRing.mem_transfer?.mpr moving
  rcases carried.move?_cases free with ⟨done, none⟩ |
    ⟨more, move, memory, item, mover, permitted, accessed, moves, next⟩
  · have permitted := inOrder.staffed.permits_publish holds rfl free carried done
    have enters : (busy.system.next (.publish actor haul.grant exclusive)).1 =
        busy.system.setCall actor (some ⟨.publish haul.grant
          (Publication.start granted.reservation exclusive), busy.system.totals⟩) := by
      simp only [RingSystem.next, RingSystem.enter, carried.found, free]
    have made : busy.next (.advance actor refused) =
        (busy.worked actor (busy.system.setCall actor (some ⟨.publish haul.grant
          (Publication.start granted.reservation exclusive), busy.system.totals⟩))
            (some (.transfer ⟨order, exclusive, .publishing haul⟩)), Option.none) := by
      simp only [BusyRing.next, moving, BusyRing.stepTransfer, none, enters]
    rw [made]
    exact inOrder.goesOn window permitted enters holds rfl rfl rfl
      ⟨⟨_, _, RingSystem.setCall_calls_self _ _ _⟩, granted, { carried with }, done⟩
  · subst mover
    have made : busy.next (.advance move.mover refused) =
        (busy.worked move.mover (busy.system.next move).1
          (some (.transfer ⟨order, exclusive, .moving (haul.add item)⟩)), none) := by
      simp only [BusyRing.next, moving, BusyRing.stepTransfer, moves]
    obtain ⟨before, rest, split, place⟩ := split_of_getElem? carried.found
    have grants : (busy.system.accessed memory haul.grant granted haul.moved.length item).grants =
        before ++ granted.accessed haul.moved.length item :: rest := by
      rw [← place]
      exact RingSystem.accessed_grants split memory haul.moved.length item
    rw [made, accessed]
    refine inOrder.change window permitted accessed _ [] ?_ ?_ (by simp)
    · have undisturbed := Undisturbed.next inOrder.coherent move permitted.2
      rw [accessed] at undisturbed
      refine inOrder.staffed.change _ undisturbed
        ⟨free, _, carried.accessed more memory next⟩ ?_ ?_
      · intro index found listed mine waiting
        refine ⟨_, _, rfl, rfl, ?_⟩
        by_contra elsewhere
        rw [grants, getElem?_split_ne _ _ granted _ (fun same => elsewhere (place.symm.trans
          same.symm)), ← split] at listed
        obtain ⟨own, has, same⟩ := inOrder.staffed.own_haul holds listed mine waiting
        cases has
        exact elsewhere same
      · intro transfer same
        cases same
        exact Or.inl ⟨_, holds, rfl, rfl⟩
    · intro side
      rw [grants, settledOn_accessed carried.waiting, ← split, List.flatMap_nil, List.map_nil,
        List.append_nil]

/-- A publication that settles: what the transfer reports comes after all that its side
has published. -/
theorem settles (inOrder : InOrder origin reports busy) (window : busy.system.WithinWindow)
    {order : RingOrder α} {exclusive refused : Bool} {haul : Haul α} {granted : Grant α}
    (publishing : busy.tasks actor = some (.transfer ⟨order, exclusive, .publishing haul⟩))
    (carried : Carried busy.system actor order exclusive haul granted)
    (done : haul.moved.length = granted.size) {spins : Nat}
    (step : busy.system.next (.advance actor refused) =
      ((busy.system.published haul.grant granted.reservation).setCall actor none,
        some (.published spins))) :
    InOrder origin (reports ++ (busy.next (.advance actor refused)).2.toList)
      (busy.next (.advance actor refused)).1 := by
  have permitted : busy.system.Permits (.advance actor refused) := ⟨True.intro, True.intro⟩
  have holds := BusyRing.mem_transfer?.mpr publishing
  have made : busy.next (.advance actor refused) =
      (busy.worked actor ((busy.system.published haul.grant granted.reservation).setCall actor none)
        none, some (.moved actor order (order.receipt busy.ring haul))) := by
    simp only [BusyRing.next, publishing, BusyRing.stepTransfer, step]
  obtain ⟨before, rest, split, place⟩ := split_of_getElem? carried.found
  have grants : ((busy.system.published haul.grant granted.reservation).setCall actor none).grants =
      before ++ granted.settle :: rest := by
    rw [← place]
    exact RingSystem.published_grants split granted.reservation
  have layout := inOrder.coherent.layout
  rw [split] at layout
  rw [made]
  refine inOrder.change window permitted (congrArg Prod.fst step) none
    [.moved actor order (order.receipt busy.ring haul)] ?_ ?_ ?_
  · have undisturbed := Undisturbed.next inOrder.coherent (.advance actor refused) permitted.2
    rw [step] at undisturbed
    refine inOrder.staffed.change none undisturbed (RingSystem.setCall_calls_self _ _ _) ?_
      (fun transfer same => by cases same)
    intro index found listed mine waiting
    rw [grants] at listed
    -- The grant that is published waits no longer, and the actor has no other.
    by_cases here : index = before.length
    · rw [here, getElem?_split] at listed
      cases listed
      cases waiting
    · rw [getElem?_split_ne _ _ granted _ here, ← split] at listed
      obtain ⟨own, has, same⟩ := inOrder.staffed.own_haul holds listed mine waiting
      cases has
      exact absurd (same.symm.trans place.symm) here
  · intro side
    have values : granted.settle.values = haul.moved.map some := by
      rw [values_settle, carried.values, done, Nat.sub_self, List.replicate_zero, List.append_nil]
    rw [grants, layout.settledOn_settle carried.waiting, ← split, List.flatMap_append,
      List.flatMap_singleton, RingReport.passed, RingOrder.passed_receipt, carried.side]
    by_cases same : order.side = side
    · rw [if_pos same, if_pos same, List.flatMap_singleton, values]
    · rw [if_neg same, if_neg same]
      rfl
  · intro other told receipt listed
    cases List.mem_singleton.mp listed
    cases order with
    | put items whole =>
        obtain ⟨front, -⟩ := carried.brought rfl
        have size := carried.size_eq
        change haul.moved ++ items.drop haul.reservation.len.toNat = items
        rw [← size, ← done]
        exact (congrArg (· ++ items.drop haul.moved.length) front).trans
          (List.take_append_drop _ _)
    | take most whole => rfl

theorem publishes (inOrder : InOrder origin reports busy) (window : busy.system.WithinWindow)
    {order : RingOrder α} {exclusive : Bool} {haul : Haul α}
    (publishing : busy.tasks actor = some (.transfer ⟨order, exclusive, .publishing haul⟩))
    (refused : Bool) :
    InOrder origin (reports ++ (busy.next (.advance actor refused)).2.toList)
      (busy.next (.advance actor refused)).1 := by
  obtain ⟨⟨publication, since, within⟩, granted, carried, done⟩ :
      (∃ publication since, busy.system.calls actor = some ⟨.publish haul.grant publication,
        since⟩) ∧ ∃ granted, Carried busy.system actor order exclusive haul granted ∧
          haul.moved.length = granted.size := by
    have facts := inOrder.staffed.tasks actor
    rw [publishing] at facts
    exact facts
  have permitted : busy.system.Permits (.advance actor refused) := ⟨True.intro, True.intro⟩
  have holds := BusyRing.mem_transfer?.mpr publishing
  have goesOn : ∀ later : Publication,
      busy.system.next (.advance actor refused) =
        (busy.system.setCall actor (some ⟨.publish haul.grant later, since⟩), none) →
      InOrder origin (reports ++ (busy.next (.advance actor refused)).2.toList)
        (busy.next (.advance actor refused)).1 := by
    intro later step
    have made : busy.next (.advance actor refused) =
        (busy.worked actor (busy.system.setCall actor (some ⟨.publish haul.grant later, since⟩))
          (some (.transfer ⟨order, exclusive, .publishing haul⟩)), none) := by
      simp only [BusyRing.next, publishing, BusyRing.stepTransfer, step]
    rw [made]
    exact inOrder.goesOn window permitted (congrArg Prod.fst step) holds rfl rfl rfl
      ⟨⟨later, since, RingSystem.setCall_calls_self _ _ _⟩, granted, { carried with }, done⟩
  have effect := busy.system.effect_of_next (.advance actor refused)
  rcases step : busy.system.next (.advance actor refused) with ⟨after, event⟩
  rw [step] at effect
  cases effect with
  | stay =>
      refine goesOn publication ?_
      rw [step, ← within, RingSystem.setCall_calls]
  | publicationReady _ _ index own started calling =>
      cases within.symm.trans calling
      exact goesOn { publication with phase := .settle } step
  | publicationWaits _ _ index own started calling =>
      cases within.symm.trans calling
      exact goesOn { publication with phase := .pause } step
  | publicationPauses _ _ index own started calling =>
      cases within.symm.trans calling
      exact goesOn ⟨publication.reservation, publication.spins + 1, .check⟩ step
  | publicationSettles _ _ index own started calling =>
      cases within.symm.trans calling
      obtain ⟨held, facts⟩ := inOrder.coherent.publicationFacts within
      cases carried.found.symm.trans facts.found
      have settled : busy.system.next (.advance actor refused) =
          ((busy.system.published haul.grant granted.reservation).setCall actor none,
            some (.published publication.spins)) := by
        rw [step, ← facts.reservation]
        rfl
      exact inOrder.settles window publishing carried done settled
  | claimShort _ _ _ _ _ _ calling | claimOffered _ _ _ _ _ _ calling
  | claimGranted _ _ _ _ _ calling | claimOutrun _ _ _ _ _ calling
  | censusLooks _ _ _ calling | censusCounts _ _ _ _ calling =>
      cases within.symm.trans calling

theorem next (inOrder : InOrder origin reports busy) (window : busy.system.WithinWindow)
    (act : RingAct actors α) (permitted : busy.Permits act) :
    InOrder origin (reports ++ (busy.next act).2.toList) (busy.next act).1 := by
  cases act with
  | start actor order exclusive =>
      cases idle : busy.tasks actor with
      | none => exact inOrder.starts window idle permitted
      | some task =>
          have stays : busy.next (.start actor order exclusive) = (busy, none) := by
            simp only [BusyRing.next, idle]
          rw [stays, Option.toList_none, List.append_nil]
          exact inOrder
  | count actor =>
      cases idle : busy.tasks actor with
      | none => exact inOrder.startsCount window idle
      | some task =>
          have stays : busy.next (.count actor) = (busy, none) := by
            simp only [BusyRing.next, idle]
          rw [stays, Option.toList_none, List.append_nil]
          exact inOrder
  | advance actor refused =>
      cases busy' : busy.tasks actor with
      | none =>
          have stays : busy.next (.advance actor refused) = (busy, none) := by
            simp only [BusyRing.next, busy']
          rw [stays, Option.toList_none, List.append_nil]
          exact inOrder
      | some task =>
          cases task with
          | counting => exact inOrder.counts window busy' refused
          | transfer transfer =>
              obtain ⟨order, exclusive, stage⟩ := transfer
              cases stage with
              | claiming => exact inOrder.claims window busy' refused
              | moving haul => exact inOrder.moves window busy' refused
              | publishing haul => exact inOrder.publishes window busy' refused

theorem run (inOrder : InOrder origin reports busy) (window : busy.system.WithinWindow)
    (acts : List (RingAct actors α)) (orderly : busy.Orderly acts)
    (windowed : busy.Windowed acts) :
    InOrder origin (reports ++ (busy.run acts).2) (busy.run acts).1 := by
  induction acts generalizing reports busy with
  | nil =>
      rw [BusyRing.run, List.append_nil]
      exact inOrder
  | cons act acts ih =>
      obtain ⟨permitted, orderlyRest⟩ := orderly
      obtain ⟨windowNext, windowedRest⟩ := windowed
      have later := ih (inOrder.next window act permitted) windowNext orderlyRest windowedRest
      rw [List.append_assoc] at later
      exact later

end InOrder

/-! ## The loop that drops -/

/-- The loop drops as many elements as lie between the cursors, wherever cursors wrap. -/
theorem Core.dropFrom_eq (core : Core α) (index : Cursor) {count : Nat}
    (near : count < UInt32.size) :
    core.dropFrom index (cursorAt index count) = core.readRange index count := by
  induction count generalizing index with
  | zero =>
      rw [Core.dropFrom, cursorAt_zero, if_pos rfl]
      rfl
  | succ count ih =>
      have apart : index ≠ cursorAt index (count + 1) := by
        intro same
        have none := cursorAt_injective index (Nat.zero_le (count + 1)) near
          ((cursorAt_zero index).trans same)
        cases none
      have further : cursorAt index (count + 1) = cursorAt (index + 1) count := by
        rw [Nat.add_comm, cursorAt_add]
        rfl
      rw [Core.dropFrom, if_neg apart, further, ih (index + 1) (Nat.lt_of_succ_lt near),
        Core.readRange_succ]

theorem Ring.drop_eq_toList (ring : Ring α) : ring.drop = ring.toList := by
  have near : ring.core.leftovers.length < UInt32.size := by
    rw [Core.leftovers_length]
    exact UInt32.toNat_lt _
  rw [Ring.drop, Core.drop, Core.producer_tail_eq, Core.dropFrom_eq _ _ near, Core.leftovers_length]
  rfl

/-! ## When nobody is at work -/

namespace InOrder

variable {reports : List (RingReport actors α)} {busy : BusyRing actors α}

theorem settledOn_eq (inOrder : InOrder origin reports busy)
    (idle : ∀ actor, busy.tasks actor = none) (side : Side) :
    settledOn side busy.system.grants = onSide side busy.system.grants := by
  refine List.filter_eq_self.mpr fun grant listed => ?_
  obtain ⟨index, found⟩ := List.getElem?_of_mem (mem_onSide.mp listed).1
  by_contra waits
  obtain ⟨actor, transfer, within, -⟩ :=
    inOrder.staffed.carrier found (Bool.not_eq_true _ ▸ waits)
  cases (idle actor).symm.trans (BusyRing.mem_transfer?.mp within)

theorem traffic_eq (inOrder : InOrder origin reports busy)
    (idle : ∀ actor, busy.tasks actor = none) (side : Side) :
    traffic side busy.system.grants = (reports.flatMap (RingReport.passed side)).map some := by
  rw [← inOrder.ledger.settled side, inOrder.settledOn_eq idle]
  rfl

theorem publishedOn_eq (inOrder : InOrder origin reports busy)
    (idle : ∀ actor, busy.tasks actor = none) (side : Side) :
    publishedOn side busy.system.grants = (reports.flatMap (RingReport.passed side)).length := by
  have length := traffic_length side busy.system.grants
  rw [inOrder.traffic_eq idle, List.length_map] at length
  rw [length, publishedOn, inOrder.settledOn_eq idle, reservedOn]

theorem carries_iff (inOrder : InOrder origin reports busy)
    (idle : ∀ actor, busy.tasks actor = none) (side : Side) (position : Nat) (value : α) :
    Carries side busy.system.grants position value ↔
      (reports.flatMap (RingReport.passed side))[position]? = some value := by
  rw [Carries, inOrder.traffic_eq idle, List.getElem?_map]
  cases (reports.flatMap (RingReport.passed side))[position]? <;> simp

theorem settled (inOrder : InOrder origin reports busy)
    (idle : ∀ actor, busy.tasks actor = none) : busy.system.core.Settled := by
  have layout := inOrder.coherent.layout
  have order := layout.ordered
  have heads : ∀ side, (busy.system.core.cursors side).head =
      (busy.system.core.cursors side).tail := by
    intro side
    rw [layout.head_eq, layout.tail_eq, publishedOn, inOrder.settledOn_eq idle, reservedOn]
  refine ⟨⟨heads .producer, heads .consumer⟩, ?_⟩
  have near := busy.system.core.capacity.size_lt_wordSize
  have first : busy.system.core.consumer.tail = _ := layout.tail_eq .consumer
  have last : busy.system.core.producer.tail = _ := layout.tail_eq .producer
  rw [Core.leftovers_length, first, last, cursorAt_sub_toNat origin (by omega) (by omega)]
  omega

/-- What a ring still owns is what producers brought after the elements that consumers
have taken. -/
theorem accepted_eq (inOrder : InOrder origin reports busy)
    (idle : ∀ actor, busy.tasks actor = none) :
    reports.flatMap (RingReport.passed .producer) =
      reports.flatMap (RingReport.passed .consumer) ++ busy.ring.toList := by
  have layout := inOrder.coherent.layout
  obtain ⟨released, bounded, published, near⟩ := layout.ordered
  have small := busy.system.core.capacity.size_lt_wordSize
  have produced := inOrder.publishedOn_eq idle .producer
  have consumed := inOrder.publishedOn_eq idle .consumer
  have first : busy.system.core.consumer.tail = _ := layout.tail_eq .consumer
  have last : busy.system.core.producer.tail = _ := layout.tail_eq .producer
  have owned : busy.ring.toList = busy.system.core.readRange
      (cursorAt origin (publishedOn .consumer busy.system.grants))
      (publishedOn .producer busy.system.grants - publishedOn .consumer busy.system.grants) := by
    rw [Ring.toList, Core.leftovers]
    change busy.system.core.readRange busy.system.core.consumer.tail
      (busy.system.core.producer.tail - busy.system.core.consumer.tail).toNat = _
    rw [first, last, cursorAt_sub_toNat origin (by omega) (by omega)]
  refine List.ext_getElem? fun position => ?_
  rcases Nat.lt_or_ge position (reports.flatMap (RingReport.passed .consumer)).length with
    taken | left
  · rw [List.getElem?_append_left taken, List.getElem?_eq_getElem taken]
    have read := (inOrder.carries_iff idle .consumer position _).mpr
      (List.getElem?_eq_getElem taken)
    exact (inOrder.carries_iff idle .producer position _).mp
      (inOrder.delivered.matched position _ read)
  · rw [List.getElem?_append_right left, owned, Core.readRange, List.getElem?_map, ← consumed]
    rcases Nat.lt_or_ge position (reports.flatMap (RingReport.passed .producer)).length with
      kept | beyond
    · have written := List.getElem?_eq_getElem kept
      have value := inOrder.delivered.kept position _
        ((inOrder.carries_iff idle .producer position _).mpr written) (by omega)
      rw [written, List.getElem?_range (by omega), Option.map_some]
      change _ = some (busy.system.core.read (cursorAt _ _))
      rw [← cursorAt_add, Nat.add_sub_cancel' (by omega), value]
    · rw [List.getElem?_eq_none beyond, List.getElem?_eq_none (by
        rw [List.length_range]
        omega)]
      rfl

end InOrder

/-- Every element that a ring has accepted is returned to one caller or dropped by the
ring, once: when no operation is in progress, the accepted elements, in the order in which
they were published, are those that were returned and then those that are dropped.  The
loop that drops makes as many rounds as the ring counts entries.  What an operation brings
is accepted or handed back, and so nothing that is handed back is dropped.  This holds for
rings of any capacity, policy and watermark with their cursors anywhere, after every run
in which exclusive operations have their side to themselves and no side comes round while
a claim runs. -/
theorem elements_end_once (capacity : Capacity) (policy : TransferPolicy)
    (watermark : Option UInt32) (blank : α) (origin : Cursor) (acts : List (RingAct actors α))
    (orderly : (BusyRing.start capacity policy watermark blank origin).Orderly acts)
    (windowed : (BusyRing.start capacity policy watermark blank origin).Windowed acts)
    (idle : ∀ actor,
      ((BusyRing.start capacity policy watermark blank origin).run acts).1.tasks actor = none) :
    let final := ((BusyRing.start capacity policy watermark blank origin).run acts).1
    let reports := ((BusyRing.start capacity policy watermark blank origin).run acts).2
    reports.flatMap (RingReport.passed .producer) =
        reports.flatMap (RingReport.passed .consumer) ++ final.ring.drop ∧
      final.ring.drop.length = final.ring.count.toNat ∧
      final.ring.count.toNat ≤ capacity.size - 1 ∧
      ∀ actor order receipt, RingReport.moved actor order receipt ∈ reports →
        receipt.passed .producer ++ receipt.handedBack = order.items := by
  intro final reports
  have inOrder : InOrder origin reports final :=
    (InOrder.start capacity policy watermark blank origin).run
      (withinWindow_start capacity blank origin) acts orderly windowed
  have settled := inOrder.settled idle
  have count : final.ring.count.toNat = final.ring.toList.length := settled.committed_toNat
  refine ⟨?_, ?_, ?_, inOrder.ledger.whole⟩
  · rw [Ring.drop_eq_toList]
    exact inOrder.accepted_eq idle
  · rw [Ring.drop_eq_toList, count]
  · have fits := settled.fits
    have kept : final.system.core.capacity = capacity := BusyRing.capacity_run _ acts
    have owned : final.ring.toList.length < capacity.size := kept ▸ fits
    omega

def dayStart : BusyRing 3 Nat := .start sampleCapacity .burst none 0 0xFFFFFFFE

/-- Two producers race for slots where cursors wrap, and the one that comes second waits
until it can publish; then it finds the ring full.  A consumer that is alone takes one
element, and somebody counts. -/
def dayActs : List (RingAct 3 Nat) :=
  List.flatten
    [[.start sampleProducer (.enqueueBulk [10, 11]) false,
        .start sampleRival (.enqueue 20) false, .advance sampleRival false,
        .advance sampleProducer false, .advance sampleProducer true,
        .advance sampleProducer false, .advance sampleProducer false],
      List.replicate 6 (.advance sampleRival false),
      List.replicate 5 (.advance sampleProducer false),
      List.replicate 3 (.advance sampleRival false),
      [.start sampleRival (.enqueue 21) false, .advance sampleRival false],
      [.start sampleConsumer .dequeue true, .count sampleProducer],
      List.replicate 5 (.advance sampleConsumer false),
      List.replicate 2 (.advance sampleProducer false)]

def dayEnd : BusyRing 3 Nat := (dayStart.run dayActs).1

def dayReports : List (RingReport 3 Nat) := (dayStart.run dayActs).2

/-- Three elements are accepted, one of them is returned and the other two are dropped;
the one that found the ring full is handed back. -/
theorem elements_end_once_sample :
    dayStart.Orderly dayActs ∧ dayStart.Windowed dayActs ∧
      (∀ actor, dayEnd.tasks actor = none) ∧
      dayReports.flatMap (RingReport.passed .producer) = [10, 11, 20] ∧
      dayReports.flatMap (RingReport.passed .consumer) = [10] ∧
      dayEnd.ring.drop = [11, 20] ∧ dayEnd.ring.count.toNat = 2 := by
  have orderly : dayStart.Orderly dayActs := by decide +kernel
  have windowed : dayStart.Windowed dayActs := by decide +kernel
  have idle : ∀ actor, dayEnd.tasks actor = none := by decide +kernel
  have accepted : dayReports.flatMap (RingReport.passed .producer) = [10, 11, 20] := by
    decide +kernel
  have returned : dayReports.flatMap (RingReport.passed .consumer) = [10] := by decide +kernel
  have split : dayReports.flatMap (RingReport.passed .producer) =
        dayReports.flatMap (RingReport.passed .consumer) ++ dayEnd.ring.drop ∧
      dayEnd.ring.drop.length = dayEnd.ring.count.toNat := by
    unfold dayReports dayEnd dayStart at *
    obtain ⟨ends, rounds, -, -⟩ := elements_end_once sampleCapacity .burst none 0 0xFFFFFFFE
      dayActs orderly windowed idle
    exact ⟨ends, rounds⟩
  obtain ⟨ends, rounds⟩ := split
  rw [accepted, returned, List.singleton_append] at ends
  have dropped : dayEnd.ring.drop = [11, 20] := (List.cons.inj ends).2.symm
  refine ⟨orderly, windowed, idle, accepted, returned, dropped, ?_⟩
  rw [← rounds, dropped]
  rfl

end RingPool

import RingPool.Proofs.Linked.Chain

/-!
# The lives of the nodes of a linked queue

At one address nodes may live one after the other.  Each of them is made, is
swapped in, is left behind by the consumer and is freed, in this order and once;
`lifeOf` follows an address through the record of a run and stops at an act that
comes at the wrong stage.  Since the chain of a system says where each live node
stands, the record and the memory agree on every address, and nobody touches a
node that is freed.
-/

set_option autoImplicit false

namespace RingPool

variable {producers : Nat} {α : Type}

/-- How far the node at an address has come in its life. -/
inductive NodeStage where
  | absent
  | made
  | queued
  | left
  deriving DecidableEq, Repr

/-- The address that an act is about, with its stages before and after the act. -/
def LinkedAct.turn? : LinkedAct producers α → Option (Address × NodeStage × NodeStage)
  | .accepted _ _ => none
  | .made address => some (address, .absent, .made)
  | .queued address _ => some (address, .made, .queued)
  | .left address => some (address, .queued, .left)
  | .freed address => some (address, .left, .absent)

/-- The stage of an address after an act, if the act suits its stage. -/
def LinkedAct.follow (address : Address) (stage : NodeStage) (act : LinkedAct producers α) :
    Option NodeStage :=
  match act.turn? with
  | none => some stage
  | some (subject, before, after) =>
      if subject = address then if stage = before then some after else none else some stage

/-- The stage of an address at the end of a record.  At its beginning a queue has its
first stub, and no other node. -/
def lifeOf (address : Address) (acts : List (LinkedAct producers α)) : Option NodeStage :=
  acts.foldlM (LinkedAct.follow address) (if address = 0 then .queued else .absent)

def LinkedAct.reaches? (stage : NodeStage) (act : LinkedAct producers α) : Option Address :=
  match act.turn? with
  | some (subject, _, after) => if after = stage then some subject else none
  | none => none

/-- The addresses whose nodes came to a stage, in the order of the record. -/
def reachedIn (stage : NodeStage) (acts : List (LinkedAct producers α)) : List Address :=
  acts.filterMap (LinkedAct.reaches? stage)

@[simp] theorem reachedIn_append (stage : NodeStage) (first second : List (LinkedAct producers α)) :
    reachedIn stage (first ++ second) = reachedIn stage first ++ reachedIn stage second :=
  List.filterMap_append

theorem lifeOf_append {address : Address} {acts : List (LinkedAct producers α)}
    {stage : NodeStage} (life : lifeOf address acts = some stage)
    (act : LinkedAct producers α) :
    lifeOf address (acts ++ [act]) = act.follow address stage := by
  unfold lifeOf at life ⊢
  rw [List.foldlM_append, life]
  simp

theorem LinkedAct.follow_self {act : LinkedAct producers α} {address : Address}
    {before after : NodeStage} (turn : act.turn? = some (address, before, after)) :
    act.follow address before = some after := by
  simp [follow, turn]

theorem LinkedAct.follow_other {act : LinkedAct producers α} {address subject : Address}
    {before after : NodeStage} (turn : act.turn? = some (subject, before, after))
    (different : subject ≠ address) (stage : NodeStage) :
    act.follow address stage = some stage := by
  simp [follow, turn, different]

namespace LinkedSystem

/-- Where a system has the node of an address that is at a stage. -/
def Stands (system : LinkedSystem producers α) (nodes : List (Address × α)) (address : Address) :
    NodeStage → Prop
  | .absent => system.queue.heap.get? address = none
  | .made => ∃ producer value, system.pushes producer = some (value, .swap address)
  | .queued => address ∈ system.queue.path nodes
  | .left => system.retiring = some address

variable {system after : LinkedSystem producers α} {nodes more : List (Address × α)}
  {address : Address} {stage : NodeStage}

theorem Chained.live_iff (chained : Chained system nodes)
    (stands : Stands system nodes address stage) :
    system.queue.Live address ↔ stage ≠ .absent := by
  cases stage with
  | absent =>
      have missing : system.queue.heap.get? address = none := stands
      simp [LinkedQueue.Live, missing]
  | made =>
      obtain ⟨producer, value, within⟩ := stands
      simpa using chained.live_of_holding (holding_of_push within)
  | queued => simpa using chained.live_of_mem stands
  | left => simpa using (chained.retired address stands).1

theorem Chained.stage_unique (chained : Chained system nodes) {first second : NodeStage}
    (one : Stands system nodes address first) (two : Stands system nodes address second) :
    first = second := by
  have outside {producer : Fin producers} {value : α}
      (within : system.pushes producer = some (value, .swap address)) :
      address ∉ system.queue.path nodes := (chained.pushing producer _ within).2
  have same : first = .absent ↔ second = .absent := by
    rw [← not_iff_not]
    exact (chained.live_iff one).symm.trans (chained.live_iff two)
  cases first with
  | absent => exact (same.mp rfl).symm
  | made =>
      obtain ⟨producer, value, within⟩ := one
      cases second with
      | absent => exact same.mpr rfl
      | made => rfl
      | queued => exact absurd two (outside within)
      | left => exact absurd within ((chained.retired address two).2.2 producer value)
  | queued =>
      cases second with
      | absent => exact same.mpr rfl
      | made =>
          obtain ⟨producer, value, within⟩ := two
          exact absurd one (outside within)
      | queued => rfl
      | left => exact absurd one (chained.retired address two).2.1
  | left =>
      cases second with
      | absent => exact same.mpr rfl
      | made =>
          obtain ⟨producer, value, within⟩ := two
          exact absurd within ((chained.retired address one).2.2 producer value)
      | queued => exact absurd two (chained.retired address one).2.1
      | left => rfl

theorem Stands.imp (stands : Stands system nodes address stage)
    (absent : system.queue.heap.get? address = none → after.queue.heap.get? address = none)
    (made : ∀ producer value, system.pushes producer = some (value, .swap address) →
      after.pushes producer = some (value, .swap address))
    (queued : address ∈ system.queue.path nodes → address ∈ after.queue.path more)
    (left : system.retiring = some address → after.retiring = some address) :
    Stands after more address stage := by
  cases stage with
  | absent => exact absent stands
  | made =>
      obtain ⟨producer, value, within⟩ := stands
      exact ⟨producer, value, made producer value within⟩
  | queued => exact queued stands
  | left => exact left stands

theorem get?_put_of_live {heap : NodeHeap α} {place : Address} {node other : Node α}
    (live : heap.get? place = some other) (missing : heap.get? address = none) :
    (heap.put place node).get? address = none := by
  rw [NodeHeap.get?_put, if_neg]
  · exact missing
  · rintro rfl
    cases missing.symm.trans live

/-- The record follows each address to the stage at which the system has it. -/
def Recorded (system : LinkedSystem producers α) (nodes : List (Address × α))
    (acts : List (LinkedAct producers α)) : Prop :=
  ∀ address, ∃ stage, lifeOf address acts = some stage ∧ Stands system nodes address stage

namespace Recorded

variable {acts : List (LinkedAct producers α)}

theorem start : Recorded (LinkedSystem.start : LinkedSystem producers α) [] [] := by
  intro address
  by_cases first : address = 0
  · exact ⟨.queued, by simp [lifeOf, first], List.mem_singleton.mpr first⟩
  · refine ⟨.absent, by simp [lifeOf, first], ?_⟩
    simp [Stands, LinkedSystem.start, LinkedQueue.empty, NodeHeap.get?_put, first]

theorem turn (recorded : Recorded system nodes acts) (chained : Chained system nodes)
    {act : LinkedAct producers α} {subject : Address} {before next : NodeStage}
    (turn : act.turn? = some (subject, before, next))
    (stands : Stands system nodes subject before) (reaches : Stands after more subject next)
    (kept : ∀ address stage, address ≠ subject → Stands system nodes address stage →
      Stands after more address stage) :
    Recorded after more (acts ++ [act]) := by
  intro address
  obtain ⟨stage, life, stood⟩ := recorded address
  rw [lifeOf_append life]
  by_cases here : address = subject
  · subst here
    cases chained.stage_unique stood stands
    exact ⟨next, LinkedAct.follow_self turn, reaches⟩
  · exact ⟨stage, LinkedAct.follow_other turn (Ne.symm here) stage, kept address stage here stood⟩

theorem imp (recorded : Recorded system nodes acts) {act : Option (LinkedAct producers α)}
    (silent : act.bind LinkedAct.turn? = none)
    (kept : ∀ address stage, Stands system nodes address stage → Stands after more address stage) :
    Recorded after more (acts ++ act.toList) := by
  intro address
  obtain ⟨stage, life, stands⟩ := recorded address
  refine ⟨stage, ?_, kept address stage stands⟩
  cases act with
  | none => simpa using life
  | some act =>
      have turn : act.turn? = none := silent
      rw [Option.toList_some, lifeOf_append life, LinkedAct.follow, turn]

theorem creates (recorded : Recorded system nodes acts) (chained : Chained system nodes)
    {producer : Fin producers} {value content : α}
    (within : system.pushes producer = some (value, .create content)) {address : Address}
    (fresh : system.queue.heap.get? address = none) :
    Recorded (system.created producer value content address) nodes (acts ++ [.made address]) := by
  refine recorded.turn chained rfl fresh ⟨producer, value, if_pos rfl⟩ ?_
  · intro other stage different stands
    refine stands.imp (fun missing => ?_) (fun _ _ => ?_) id id
    · rw [created_get?, if_neg different]
      exact missing
    · exact setPush_keeps (by simp [within])

theorem swaps (recorded : Recorded system nodes acts) (chained : Chained system nodes)
    {producer : Fin producers} {value : α} {address : Address}
    (within : system.pushes producer = some (value, .swap address)) :
    Recorded (system.entered producer value address) (nodes ++ [(address, value)])
      (acts ++ [.queued address value]) := by
  refine recorded.turn chained rfl ⟨producer, value, within⟩ ?_ ?_
  · change address ∈ LinkedQueue.path _ _
    rw [path_entered]
    exact List.mem_append_right _ List.mem_cons_self
  · intro other stage different stands
    refine stands.imp id (fun holder held holds => ?_) (fun member => ?_) id
    · refine setPush_keeps (fun same => ?_) holds
      cases within.symm.trans same
      exact different rfl
    · rw [path_entered]
      exact List.mem_append_left _ member

theorem advances (recorded : Recorded system nodes acts) (chained : Chained system nodes)
    {spins : Nat} {next : Address}
    (within : system.consumer = some (.pop ⟨spins, .advance next⟩)) {node : Node α}
    (found : system.queue.heap.get? next = some node) :
    Recorded (system.advanced spins next node) nodes.tail
      (acts ++ [.left system.queue.stub]) := by
  obtain ⟨value, rest, rfl, -⟩ := chained.linked_of_advance within
  refine recorded.turn chained rfl List.mem_cons_self rfl ?_
  intro address stage different stands
  refine stands.imp (get?_put_of_live found) (fun _ _ => id) (fun member => ?_) (fun retired => ?_)
  · exact (List.mem_cons.mp member).resolve_left different
  · simp [retiring, within] at retired

theorem frees (recorded : Recorded system nodes acts) (chained : Chained system nodes)
    {spins : Nat} {old : Address} {value : Option α}
    (within : system.consumer = some (.pop ⟨spins, .free old value⟩)) :
    Recorded (system.relieved old value) nodes (acts ++ [.freed old]) := by
  have retiring : system.retiring = some old := by simp [LinkedSystem.retiring, within]
  refine recorded.turn chained rfl retiring ?_ ?_
  · exact (relieved_get? system old old value).trans (if_pos rfl)
  · intro address stage different stands
    refine stands.imp (fun missing => ?_) (fun _ _ => id) id (fun retired => ?_)
    · rw [relieved_get?, if_neg different]
      exact missing
    · rw [retiring] at retired
      cases retired
      exact absurd rfl different

theorem effect (recorded : Recorded system nodes acts) (chained : Chained system nodes)
    {move : LinkedMove producers α} {event : Option (LinkedEvent α)}
    {act : Option (LinkedAct producers α)} (effect : LinkedEffect system move after event act) :
    Recorded after (LinkedAct.applyTo act nodes) (acts ++ act.toList) := by
  cases effect with
  | stay => exact recorded.imp rfl fun _ _ => id
  | pushStarts producer value free =>
      refine recorded.imp rfl fun address stage stands => stands.imp id (fun _ _ => ?_) id id
      exact setPush_keeps (by simp [free])
  | creates producer address value content within fresh =>
      exact recorded.creates chained within fresh
  | swaps producer address value node within => exact recorded.swaps chained within
  | links producer address value before joined node within found =>
      refine recorded.imp rfl fun other stage stands =>
        stands.imp (get?_put_of_live found) (fun _ _ => ?_) id id
      exact setPush_keeps (by simp [within])
  | turns turn =>
      refine recorded.imp rfl fun address stage stands => stands.imp id (fun _ _ => id) id ?_
      simp [turn.retiring_eq.1]
  | advances spins next node within found => exact recorded.advances chained within found
  | frees spins old value within live => exact recorded.frees chained within

end Recorded

/-- The nodes that came to each stage, in the order of the swaps. -/
structure Passed (system : LinkedSystem producers α) (nodes : List (Address × α))
    (acts : List (LinkedAct producers α)) : Prop where
  entered : 0 :: reachedIn .queued acts = reachedIn .left acts ++ system.queue.path nodes
  freed : reachedIn .left acts = reachedIn .absent acts ++ system.retiring.toList

namespace Passed

variable {acts : List (LinkedAct producers α)}

/-- Nothing changes for an act that brings no node further than made. -/
theorem imp (passed : Passed system nodes acts) {act : Option (LinkedAct producers α)}
    (silent : ∀ stage, stage ≠ .made → reachedIn stage act.toList = [])
    (stub : after.queue.stub = system.queue.stub) (retiring : after.retiring = system.retiring) :
    Passed after nodes (acts ++ act.toList) where
  entered := by
    have entered := passed.entered
    unfold LinkedQueue.path at entered ⊢
    simpa [silent, stub] using entered
  freed := by simpa [silent, retiring] using passed.freed

theorem start : Passed (LinkedSystem.start : LinkedSystem producers α) [] [] := ⟨rfl, rfl⟩

theorem swaps (passed : Passed system nodes acts) (producer : Fin producers) (value : α)
    (address : Address) :
    Passed (system.entered producer value address) (nodes ++ [(address, value)])
      (acts ++ [.queued address value]) where
  entered := by
    rw [reachedIn_append, reachedIn_append, path_entered, ← List.cons_append, passed.entered]
    simp [reachedIn, LinkedAct.reaches?, LinkedAct.turn?]
  freed := by
    have same : (system.entered producer value address).retiring = system.retiring := rfl
    rw [reachedIn_append, reachedIn_append, passed.freed, same]
    simp [reachedIn, LinkedAct.reaches?, LinkedAct.turn?]

theorem advances (passed : Passed system nodes acts) (chained : Chained system nodes)
    {spins : Nat} {next : Address}
    (within : system.consumer = some (.pop ⟨spins, .advance next⟩)) (node : Node α) :
    Passed (system.advanced spins next node) nodes.tail (acts ++ [.left system.queue.stub]) where
  entered := by
    obtain ⟨value, rest, rfl, -⟩ := chained.linked_of_advance within
    rw [reachedIn_append, reachedIn_append, ← List.cons_append, passed.entered,
      List.append_assoc, List.append_assoc]
    simp [reachedIn, LinkedAct.reaches?, LinkedAct.turn?, LinkedQueue.path, advanced]
  freed := by
    have unretiring : system.retiring = none := by simp [retiring, within]
    rw [reachedIn_append, reachedIn_append, passed.freed, unretiring]
    simp [reachedIn, LinkedAct.reaches?, LinkedAct.turn?, retiring, advanced]

theorem frees (passed : Passed system nodes acts) {spins : Nat} {old : Address}
    {value : Option α} (within : system.consumer = some (.pop ⟨spins, .free old value⟩)) :
    Passed (system.relieved old value) nodes (acts ++ [.freed old]) where
  entered := by
    rw [reachedIn_append, reachedIn_append, ← List.cons_append, passed.entered]
    simp [reachedIn, LinkedAct.reaches?, LinkedAct.turn?, LinkedQueue.path, relieved]
  freed := by
    have retired : system.retiring = some old := by simp [retiring, within]
    rw [reachedIn_append, reachedIn_append, passed.freed, retired]
    simp [reachedIn, LinkedAct.reaches?, LinkedAct.turn?, retiring, relieved]

theorem effect (passed : Passed system nodes acts) (chained : Chained system nodes)
    {move : LinkedMove producers α} {event : Option (LinkedEvent α)}
    {act : Option (LinkedAct producers α)} (effect : LinkedEffect system move after event act) :
    Passed after (LinkedAct.applyTo act nodes) (acts ++ act.toList) := by
  cases effect with
  | stay => exact passed.imp (fun _ _ => rfl) rfl rfl
  | pushStarts producer value free => exact passed.imp (fun _ _ => rfl) rfl rfl
  | creates producer address value content within fresh =>
      refine passed.imp (fun stage unmade => ?_) rfl rfl
      simp [reachedIn, LinkedAct.reaches?, LinkedAct.turn?, Ne.symm unmade]
  | links producer address value before joined node within found =>
      exact passed.imp (fun _ _ => rfl) rfl rfl
  | turns turn =>
      exact passed.imp (fun _ _ => rfl) rfl (turn.retiring_eq.2.trans turn.retiring_eq.1.symm)
  | swaps producer address value node within => exact passed.swaps producer value node
  | advances spins next node within found => exact passed.advances chained within node
  | frees spins old value within live => exact passed.frees within

end Passed

theorem lived_run (moves : List (LinkedMove producers α))
    (fresh : (start : LinkedSystem producers α).AllocatesFreshly moves) :
    ∃ final events, start.run moves = .ok (final, events) ∧ ∃ nodes, Chained final nodes ∧
      Recorded final nodes (start.acts moves) ∧ Passed final nodes (start.acts moves) := by
  refine run_invariant
    (fun system acts _ => ∃ nodes, Chained system nodes ∧ Recorded system nodes acts ∧
      Passed system nodes acts) ?_ [] [] ⟨[], .start, .start, .start⟩ moves fresh
  rintro system acts - ⟨nodes, chained, recorded, passed⟩ move fresh
  obtain ⟨after, event, act, effect, chainedAfter⟩ := chained.next move fresh
  exact ⟨after, event, act, effect, _, chainedAfter, recorded.effect chained effect,
    passed.effect chained effect⟩

end LinkedSystem

open LinkedSystem in
/-- Whatever the interleaving and whichever free addresses new nodes get, no run stops at
a dead node, and a step that may come next finds every address that it loads from or
stores to live: the nodes of pending links, which are unlinked until then, the stub, and
the node that a pop moves to, which has its value still.  The nodes of each address go
through their stages one after the other, so that each is freed once and after the
consumer moved past it; all that it moved past are freed but the old stub of a pop in
progress.  The head is the stub only if every node that was swapped in after the stub's
is behind it. -/
theorem nodes_live_while_touched (moves : List (LinkedMove producers α))
    (fresh : (start : LinkedSystem producers α).AllocatesFreshly moves) :
    ∃ final events, start.run moves = .ok (final, events) ∧
      (∀ move, ∀ address ∈ final.touches move, final.queue.Live address) ∧
      (∀ producer before after, final.pendingLink producer = some (before, after) →
        ∃ value, final.queue.heap.get? before = some ⟨value, none⟩) ∧
      (∃ next, final.queue.heap.get? final.queue.stub = some ⟨none, next⟩) ∧
      (∀ spins next, final.consumer = some (.pop ⟨spins, .advance next⟩) →
        ∃ value link, final.queue.heap.get? next = some ⟨some value, link⟩) ∧
      (∀ address, ∃ stage, lifeOf address (start.acts moves) = some stage ∧
        (final.queue.Live address ↔ stage ≠ .absent)) ∧
      reachedIn .left (start.acts moves) =
        reachedIn .absent (start.acts moves) ++ final.retiring.toList ∧
      ∃ ahead, 0 :: reachedIn .queued (start.acts moves) =
          reachedIn .left (start.acts moves) ++ final.queue.stub :: ahead ∧
        (0 :: reachedIn .queued (start.acts moves)).getLast? = some final.queue.head ∧
        (final.queue.head = final.queue.stub ↔ ahead = []) := by
  obtain ⟨final, events, ran, nodes, chained, recorded, passed⟩ := lived_run moves fresh
  refine ⟨final, events, ran, chained.touched_live, ?pending, chained.spent, ?moving, ?lives,
    passed.freed, nodes.map Prod.fst, passed.entered, ?newest, ?reused⟩
  case pending =>
    intro producer before after pending
    obtain ⟨value, within⟩ := pendingLink_eq_some.mp pending
    exact (chained.pushing producer _ within).1
  case moving =>
    intro spins next within
    obtain ⟨value, rest, rfl, -⟩ := chained.linked_of_advance within
    obtain ⟨link, loaded⟩ := chained.loaded (next, value) List.mem_cons_self
    exact ⟨value, link, loaded⟩
  case lives =>
    intro address
    obtain ⟨stage, life, stands⟩ := recorded address
    exact ⟨stage, life, chained.live_iff stands⟩
  case newest =>
    rw [passed.entered, List.getLast?_append, chained.ends]
    rfl
  case reused =>
    rw [chained.head_eq_stub_iff, List.map_eq_nil_iff]

open LinkedSystem in
/-- In the sample run the address of the first stub is that of the newest node again. -/
theorem nodes_live_while_touched_sample :
    start.AllocatesFreshly sampleMoves ∧
      reachedIn .absent (start.acts sampleMoves) = [0, 1] ∧
      lifeOf 0 (start.acts sampleMoves) = some .queued ∧
      lifeOf 1 (start.acts sampleMoves) = some .absent ∧
      (∀ move, ∀ address ∈ sampleEnd.touches move, sampleEnd.queue.Live address) ∧
      sampleEnd.queue.Live 0 ∧ ¬ sampleEnd.queue.Live 1 := by
  obtain ⟨final, events, ran, live, -, -, -, lives, -⟩ :=
    nodes_live_while_touched sampleMoves sample_allocatesFreshly
  cases sample_run.symm.trans ran
  have first : lifeOf 0 (start.acts sampleMoves) = some .queued := by decide +kernel
  have second : lifeOf 1 (start.acts sampleMoves) = some .absent := by decide +kernel
  obtain ⟨stage, life, alive⟩ := lives 0
  obtain ⟨gone, ended, dead⟩ := lives 1
  cases first.symm.trans life
  cases second.symm.trans ended
  exact ⟨sample_allocatesFreshly, by decide +kernel, first, second, live,
    alive.mpr (by decide), fun live => dead.mp live rfl⟩

end RingPool

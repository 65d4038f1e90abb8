import Mathlib.Data.List.Chain
import RingPool.Proofs.Linked.Moves

/-!
# The chain of nodes behind a linked queue

The nodes that the consumer has still to come to form a chain from the stub to the
head, in the order of the swaps.  It may be broken at any number of places, and at
each of them a push stands that is about to mend it.  Every other live node is
held by one push that has not entered it, or is the old stub of a pop that is
about to free it.  `Chained` says this of a system and the list of the nodes after
its stub, and every move keeps it (`Chained.next`): no move needs a node that is
not live.
-/

set_option autoImplicit false

namespace RingPool

variable {producers : Nat} {α : Type}

/-- The node that a push has for itself: the one that it has made, or the one that
it is about to link. -/
def Push.holds : Push α → Option Address
  | .create _ => none
  | .swap address => some address
  | .link before _ => some before

def LinkedAct.applyTo : Option (LinkedAct producers α) → List (Address × α) → List (Address × α)
  | some (.queued address value), nodes => nodes ++ [(address, value)]
  | some (.left _), nodes => nodes.tail
  | _, nodes => nodes

namespace LinkedQueue

/-- The addresses from the stub to the head. -/
def path (queue : LinkedQueue α) (nodes : List (Address × α)) : List Address :=
  queue.stub :: nodes.map Prod.fst

/-- What a push relies on: the node that it has made is its own, and the node that
it is about to link is neither linked nor the head. -/
def PushFits (queue : LinkedQueue α) (nodes : List (Address × α)) : α × Push α → Prop
  | (value, .create content) => content = value
  | (value, .swap address) =>
      queue.heap.get? address = some ⟨some value, none⟩ ∧ address ∉ queue.path nodes
  | (_, .link before _) =>
      (∃ value, queue.heap.get? before = some ⟨value, none⟩) ∧ before ∈ queue.path nodes ∧
        before ≠ queue.head

def CallFits (queue : LinkedQueue α) (nodes : List (Address × α)) : ConsumerCall α → Prop
  | .pop ⟨_, .pause⟩ | .pop ⟨_, .lookAgain⟩ => nodes ≠ []
  | .pop ⟨_, .advance next⟩ => ∃ value, queue.heap.get? queue.stub = some ⟨value, some next⟩
  | .pop ⟨_, .look⟩ | .pop ⟨_, .peek⟩ | .pop ⟨_, .free _ _⟩ | .isEmpty _ => True

variable {queue other : LinkedQueue α} {nodes : List (Address × α)}

theorem PushFits.imp {push : α × Push α} {more : List (Address × α)}
    (fits : queue.PushFits nodes push)
    (kept : ∀ address, push.2.holds = some address → address ∉ queue.path nodes →
      other.heap.get? address = queue.heap.get? address ∧ address ∉ other.path more)
    (placed : ∀ address value, push.2.holds = some address → address ∈ queue.path nodes →
      queue.heap.get? address = some ⟨value, none⟩ → address ≠ queue.head →
        (∃ content, other.heap.get? address = some ⟨content, none⟩) ∧
          address ∈ other.path more ∧ address ≠ other.head) :
    other.PushFits more push := by
  obtain ⟨value, push⟩ := push
  cases push with
  | create content => exact fits
  | swap address =>
      obtain ⟨found, outside⟩ := fits
      obtain ⟨same, stillOutside⟩ := kept address rfl outside
      exact ⟨same.trans found, stillOutside⟩
  | link before after =>
      obtain ⟨⟨content, found⟩, member, inner⟩ := fits
      exact placed before content rfl member found inner

/-- A call of the consumer goes on as before if nothing is taken from the chain and
the link of the stub stays. -/
theorem CallFits.imp {call : ConsumerCall α} {more : List (Address × α)}
    (fits : queue.CallFits nodes call) (ahead : nodes ≠ [] → more ≠ [])
    (kept : ∀ value next, queue.heap.get? queue.stub = some ⟨value, some next⟩ →
      ∃ content, other.heap.get? other.stub = some ⟨content, some next⟩) :
    other.CallFits more call := by
  cases call with
  | isEmpty check => trivial
  | pop pop =>
      obtain ⟨spins, phase⟩ := pop
      cases phase with
      | look | peek | free => trivial
      | pause | lookAgain => exact ahead fits
      | advance next =>
          obtain ⟨value, found⟩ := fits
          exact kept value next found

end LinkedQueue

namespace LinkedSystem

def holding (system : LinkedSystem producers α) (producer : Fin producers) : Option Address :=
  (system.pushes producer).bind fun push => push.2.holds

/-- One node follows another: it is linked to it, or a push is about to link it. -/
def Follows (system : LinkedSystem producers α) (before after : Address) : Prop :=
  (∃ value, system.queue.heap.get? before = some ⟨value, some after⟩) ∨
    ∃ value producer pushed, system.queue.heap.get? before = some ⟨value, none⟩ ∧
      system.pushes producer = some (pushed, .link before after)

/-- `nodes` are the addresses and values after the stub, in the order of the swaps. -/
structure Chained (system : LinkedSystem producers α) (nodes : List (Address × α)) : Prop where
  ends : (system.queue.path nodes).getLast? = some system.queue.head
  distinct : (system.queue.path nodes).Nodup
  spent : ∃ next, system.queue.heap.get? system.queue.stub = some ⟨none, next⟩
  loaded : ∀ node ∈ nodes, ∃ next, system.queue.heap.get? node.1 = some ⟨some node.2, next⟩
  follows : (system.queue.path nodes).IsChain system.Follows
  last : ∃ value, system.queue.heap.get? system.queue.head = some ⟨value, none⟩
  pushing : ∀ producer push, system.pushes producer = some push →
    system.queue.PushFits nodes push
  apart : ∀ first second address, system.holding first = some address →
    system.holding second = some address → first = second
  calling : ∀ call, system.consumer = some call → system.queue.CallFits nodes call
  retired : ∀ old, system.retiring = some old → system.queue.Live old ∧
    old ∉ system.queue.path nodes ∧
      ∀ producer value, system.pushes producer ≠ some (value, .swap old)
  complete : ∀ address, system.queue.Live address → address ∈ system.queue.path nodes ∨
    (∃ producer value, system.pushes producer = some (value, .swap address)) ∨
      system.retiring = some address

theorem path_entered (system : LinkedSystem producers α) (nodes : List (Address × α))
    (producer : Fin producers) (value : α) (address : Address) :
    (system.entered producer value address).queue.path (nodes ++ [(address, value)]) =
      system.queue.path nodes ++ [address] := by
  simp [LinkedQueue.path, entered]

theorem setPush_holding (system : LinkedSystem producers α) (producer other : Fin producers)
    (push : Option (α × Push α)) :
    (system.setPush producer push).holding other =
      if other = producer then push.bind fun push => push.2.holds else system.holding other := by
  unfold holding
  rw [setPush_pushes]
  split <;> rfl

theorem pendingLink_eq_some {system : LinkedSystem producers α} {producer : Fin producers}
    {before after : Address} :
    system.pendingLink producer = some (before, after) ↔
      ∃ value, system.pushes producer = some (value, .link before after) := by
  unfold pendingLink
  split
  case h_1 value first second within => simp [within]
  case h_2 other =>
    simp only [reduceCtorEq, false_iff, not_exists]
    exact fun value within => other value before after within

theorem holding_of_push {system : LinkedSystem producers α} {producer : Fin producers}
    {push : α × Push α} (within : system.pushes producer = some push) :
    system.holding producer = push.2.holds := by
  simp [holding, within]

/-- A chain stays one if no link is lost and no push gives up its link. -/
theorem Follows.imp {system other : LinkedSystem producers α} {before after : Address}
    (follows : system.Follows before after)
    (links : ∀ value next, system.queue.heap.get? before = some ⟨value, next⟩ →
      ∃ content, other.queue.heap.get? before = some ⟨content, next⟩)
    (pending : ∀ producer pushed, system.pushes producer = some (pushed, .link before after) →
      other.pushes producer = some (pushed, .link before after)) :
    other.Follows before after := by
  rcases follows with ⟨value, linked⟩ | ⟨value, producer, pushed, unlinked, within⟩
  · exact Or.inl (links value _ linked)
  · obtain ⟨content, kept⟩ := links value _ unlinked
    exact Or.inr ⟨content, producer, pushed, kept, pending producer pushed within⟩

namespace Chained

variable {system : LinkedSystem producers α} {nodes : List (Address × α)}

theorem start : Chained (LinkedSystem.start : LinkedSystem producers α) [] where
  ends := rfl
  distinct := by simp [LinkedQueue.path]
  spent := ⟨none, rfl⟩
  loaded := by simp
  follows := List.isChain_singleton _
  last := ⟨none, rfl⟩
  pushing := by simp [LinkedSystem.start]
  apart := by simp [LinkedSystem.start, holding]
  calling := by simp [LinkedSystem.start]
  retired := by simp [LinkedSystem.start, retiring]
  complete := by
    rintro address ⟨node, found⟩
    refine Or.inl ?_
    simp only [LinkedSystem.start, LinkedQueue.empty, NodeHeap.get?_put, NodeHeap.get?_empty]
      at found
    split at found
    case isTrue here => simp [here, LinkedQueue.path, LinkedSystem.start, LinkedQueue.empty]
    case isFalse => cases found

theorem live_of_mem (chained : Chained system nodes) {address : Address}
    (member : address ∈ system.queue.path nodes) : system.queue.Live address := by
  rcases List.mem_cons.mp member with rfl | member
  · obtain ⟨next, found⟩ := chained.spent
    exact ⟨_, found⟩
  · obtain ⟨node, listed, rfl⟩ := List.mem_map.mp member
    obtain ⟨next, found⟩ := chained.loaded node listed
    exact ⟨_, found⟩

theorem head_mem (chained : Chained system nodes) :
    system.queue.head ∈ system.queue.path nodes :=
  List.mem_of_getLast? chained.ends

theorem live_of_holding (chained : Chained system nodes) {producer : Fin producers}
    {address : Address} (held : system.holding producer = some address) :
    system.queue.Live address := by
  obtain ⟨push, within, holds⟩ := Option.bind_eq_some_iff.mp held
  have fits := chained.pushing producer push within
  obtain ⟨value, push⟩ := push
  cases push with
  | create content => cases holds
  | swap node =>
      cases holds
      exact ⟨_, fits.1⟩
  | link before after =>
      cases holds
      obtain ⟨content, found⟩ := fits.1
      exact ⟨_, found⟩

theorem ne_of_holds (chained : Chained system nodes) {producer other : Fin producers}
    {address node : Address} (held : system.holding producer = some address)
    (different : other ≠ producer) {push : α × Push α}
    (within : system.pushes other = some push) (holds : push.2.holds = some node) :
    node ≠ address := by
  rintro rfl
  exact different (chained.apart other producer node ((holding_of_push within).trans holds) held)

theorem apart_setPush (chained : Chained system nodes) (producer : Fin producers)
    (push : Option (α × Push α))
    (own : ∀ other address, (push.bind fun push => push.2.holds) = some address →
      system.holding other = some address → other = producer)
    (first second : Fin producers) (address : Address)
    (one : (system.setPush producer push).holding first = some address)
    (two : (system.setPush producer push).holding second = some address) : first = second := by
  rw [setPush_holding] at one two
  split at one
  case isTrue here =>
    split at two
    case isTrue there => exact here.trans there.symm
    case isFalse => exact here.trans (own second address one two).symm
  case isFalse =>
    split at two
    case isTrue there => exact (own first address two one).trans there.symm
    case isFalse => exact chained.apart first second address one two

theorem pushStarts (chained : Chained system nodes) {producer : Fin producers}
    (free : system.pushes producer = none) (value : α) :
    Chained (system.setPush producer (some (value, .create value))) nodes where
  ends := chained.ends
  distinct := chained.distinct
  spent := chained.spent
  loaded := chained.loaded
  follows := by
    refine chained.follows.imp fun before after follows => follows.imp ?_ ?_
    · exact fun value next found => ⟨value, found⟩
    · exact fun holder pushed => setPush_keeps (by simp [free])
  last := chained.last
  pushing := by
    intro other push within
    rw [setPush_pushes] at within
    split at within
    case isTrue =>
      cases within
      rfl
    case isFalse => exact chained.pushing other push within
  apart := chained.apart_setPush producer _ (by simp [Push.holds])
  calling := chained.calling
  retired := by
    intro old retiring
    obtain ⟨live, outside, unowned⟩ := chained.retired old retiring
    exact ⟨live, outside, fun other content within =>
      unowned other content (of_setPush (by simp) within)⟩
  complete := by
    intro address live
    rcases chained.complete address live with member | ⟨other, content, within⟩ | retiring
    · exact Or.inl member
    · exact Or.inr (Or.inl ⟨other, content, setPush_keeps (by simp [free]) within⟩)
    · exact Or.inr (Or.inr retiring)

theorem creates (chained : Chained system nodes) {producer : Fin producers} {value content : α}
    (within : system.pushes producer = some (value, .create content)) {address : Address}
    (fresh : system.queue.heap.get? address = none) :
    Chained (system.created producer value content address) nodes := by
  have new {other : Address} (live : system.queue.Live other) : other ≠ address := by
    obtain ⟨node, found⟩ := live
    rintro rfl
    cases fresh.symm.trans found
  have kept {other : Address} (live : system.queue.Live other) :
      (system.created producer value content address).queue.heap.get? other =
        system.queue.heap.get? other := by
    rw [created_get?, if_neg (new live)]
  refine ⟨chained.ends, chained.distinct, ?spent, ?loaded, ?follows, ?last, ?pushing, ?apart,
    ?calling, ?retired, ?complete⟩
  case spent =>
    obtain ⟨next, found⟩ := chained.spent
    exact ⟨next, (kept ⟨_, found⟩).trans found⟩
  case loaded =>
    intro node listed
    obtain ⟨next, found⟩ := chained.loaded node listed
    exact ⟨next, (kept ⟨_, found⟩).trans found⟩
  case follows =>
    refine chained.follows.imp fun before after follows => follows.imp ?_ ?_
    · exact fun value next found => ⟨value, (kept ⟨_, found⟩).trans found⟩
    · exact fun holder pushed => setPush_keeps (by simp [within])
  case last =>
    obtain ⟨value, found⟩ := chained.last
    exact ⟨value, (kept ⟨_, found⟩).trans found⟩
  case pushing =>
    intro other push after
    rw [created_pushes] at after
    split at after
    case isTrue =>
      cases after
      have same : content = value := chained.pushing producer _ within
      refine ⟨by rw [created_get?, if_pos rfl, same], fun member => ?_⟩
      exact new (chained.live_of_mem member) rfl
    case isFalse =>
      have held {address : Address} (holds : push.2.holds = some address) :
          system.holding other = some address := (holding_of_push after).trans holds
      refine (chained.pushing other push after).imp ?_ ?_
      · exact fun node holds outside => ⟨kept (chained.live_of_holding (held holds)), outside⟩
      · exact fun node value holds member found inner =>
          ⟨⟨value, (kept ⟨_, found⟩).trans found⟩, member, inner⟩
  case apart =>
    refine chained.apart_setPush producer _ fun other node holds held => ?_
    cases holds
    exact absurd rfl (new (chained.live_of_holding held))
  case calling =>
    intro call called
    refine (chained.calling call called).imp id fun value next found => ?_
    exact ⟨value, (kept ⟨_, found⟩).trans found⟩
  case retired =>
    intro old retiring
    obtain ⟨live, outside, unowned⟩ := chained.retired old retiring
    refine ⟨?_, outside, fun other held after => unowned other held (of_setPush ?_ after)⟩
    · obtain ⟨node, found⟩ := live
      exact ⟨node, (kept ⟨_, found⟩).trans found⟩
    · rintro ⟨⟩
      exact new live rfl
  case complete =>
    rintro other ⟨node, found⟩
    rw [created_get?] at found
    split at found
    case isTrue here =>
      subst here
      exact Or.inr (Or.inl ⟨producer, value, if_pos rfl⟩)
    case isFalse =>
      rcases chained.complete other ⟨node, found⟩ with member | ⟨holder, held, holds⟩ | retiring
      · exact Or.inl member
      · exact Or.inr (Or.inl ⟨holder, held, setPush_keeps (by simp [within]) holds⟩)
      · exact Or.inr (Or.inr retiring)

theorem swaps (chained : Chained system nodes) {producer : Fin producers} {value : α}
    {address : Address} (within : system.pushes producer = some (value, .swap address)) :
    Chained (system.entered producer value address) (nodes ++ [(address, value)]) := by
  obtain ⟨made, outside⟩ : system.queue.heap.get? address = some ⟨some value, none⟩ ∧
    address ∉ system.queue.path nodes := chained.pushing producer _ within
  have held : system.holding producer = some address := holding_of_push within
  refine ⟨?ends, ?distinct, chained.spent, ?loaded, ?follows, ⟨_, made⟩, ?pushing, ?apart,
    ?calling, ?retired, ?complete⟩
  case ends =>
    rw [path_entered]
    exact List.getLast?_concat
  case distinct =>
    rw [path_entered]
    refine List.nodup_append.mpr ⟨chained.distinct, by simp, ?_⟩
    intro node member last listed same
    rw [same, List.mem_singleton.mp listed] at member
    exact outside member
  case loaded =>
    intro node listed
    rcases List.mem_append.mp listed with earlier | latest
    · exact chained.loaded node earlier
    · cases List.mem_singleton.mp latest
      exact ⟨none, made⟩
  case follows =>
    rw [path_entered]
    refine List.isChain_append.mpr ⟨?_, List.isChain_singleton _, ?_⟩
    · refine chained.follows.imp fun before after follows => follows.imp ?_ ?_
      · exact fun value next found => ⟨value, found⟩
      · exact fun holder pushed => setPush_keeps (by simp [within])
    · intro before ends after first
      rw [chained.ends] at ends
      cases ends
      cases first
      obtain ⟨content, unlinked⟩ := chained.last
      exact Or.inr ⟨content, producer, value, unlinked, if_pos rfl⟩
  case pushing =>
    intro other push after
    rw [entered_pushes] at after
    split at after
    case isTrue =>
      cases after
      refine ⟨chained.last, ?_, fun same : system.queue.head = address => ?_⟩
      · rw [path_entered]
        exact List.mem_append_left _ chained.head_mem
      · exact outside (same ▸ chained.head_mem)
    case isFalse different =>
      have unshared {node : Address} (holds : push.2.holds = some node) : node ≠ address :=
        chained.ne_of_holds held different after holds
      refine (chained.pushing other push after).imp ?_ ?_
      · intro node holds apart
        refine ⟨rfl, ?_⟩
        rw [path_entered, List.mem_append, List.mem_singleton]
        exact fun member => member.elim apart (unshared holds)
      · intro node content holds member found inner
        refine ⟨⟨content, found⟩, ?_, unshared holds⟩
        rw [path_entered]
        exact List.mem_append_left _ member
  case apart =>
    -- No other push holds the old head: what it has made is outside the chain, and what it
    -- is about to link is not the head.
    refine chained.apart_setPush producer _ fun other node holds others => ?_
    cases holds
    obtain ⟨push, after, holds⟩ := Option.bind_eq_some_iff.mp others
    have fits := chained.pushing other push after
    obtain ⟨content, push⟩ := push
    cases push with
    | create content => cases holds
    | swap node =>
        cases holds
        exact absurd chained.head_mem fits.2
    | link before node =>
        cases holds
        exact absurd rfl fits.2.2
  case calling =>
    intro call called
    exact LinkedQueue.CallFits.imp (chained.calling call called) (by simp)
      fun value next found => ⟨value, found⟩
  case retired =>
    intro old retiring
    obtain ⟨live, apart, unowned⟩ := chained.retired old retiring
    refine ⟨live, ?_, fun other content after =>
      unowned other content (of_setPush (by simp) after)⟩
    rw [path_entered, List.mem_append, List.mem_singleton]
    rintro (member | rfl)
    · exact apart member
    · exact unowned producer value within
  case complete =>
    intro node live
    rw [path_entered, List.mem_append, List.mem_singleton]
    rcases chained.complete node live with member | ⟨holder, content, holds⟩ | retiring
    · exact Or.inl (Or.inl member)
    · by_cases here : system.pushes producer = some (content, .swap node)
      · cases within.symm.trans here
        exact Or.inl (Or.inr rfl)
      · exact Or.inr (Or.inl ⟨holder, content, setPush_keeps here holds⟩)
    · exact Or.inr (Or.inr retiring)

theorem links (chained : Chained system nodes) {producer : Fin producers} {value : α}
    {before after : Address} (within : system.pushes producer = some (value, .link before after))
    {node : Node α} (found : system.queue.heap.get? before = some node) :
    Chained (system.joined producer before after node) nodes := by
  obtain ⟨⟨content, unlinked⟩, member, inner⟩ :
    (∃ value, system.queue.heap.get? before = some ⟨value, none⟩) ∧
      before ∈ system.queue.path nodes ∧ before ≠ system.queue.head :=
    chained.pushing producer _ within
  cases found.symm.trans unlinked
  have kept {other : Address} (different : other ≠ before) :
      (system.joined producer before after ⟨content, none⟩).queue.heap.get? other =
        system.queue.heap.get? other := by
    rw [joined_get?, if_neg different]
  have value_kept {other : Address} {value : Option α}
      (holds : ∃ next, system.queue.heap.get? other = some ⟨value, next⟩) :
      ∃ next, (system.joined producer before after ⟨content, none⟩).queue.heap.get? other =
        some ⟨value, next⟩ := by
    obtain ⟨next, holds⟩ := holds
    by_cases here : other = before
    · subst here
      cases unlinked.symm.trans holds
      exact ⟨some after, by rw [joined_get?, if_pos rfl]⟩
    · exact ⟨next, (kept here).trans holds⟩
  have held : system.holding producer = some before := holding_of_push within
  refine ⟨chained.ends, chained.distinct, value_kept chained.spent, ?loaded, ?follows, ?last,
    ?pushing, ?apart, ?calling, ?retired, ?complete⟩
  case loaded => exact fun node listed => value_kept (chained.loaded node listed)
  case follows =>
    refine chained.follows.imp fun first second follows => ?_
    by_cases here : first = before
    · subst here
      -- The only push that can be about to link this node is the one that does so now.
      rcases follows with ⟨value, linked⟩ | ⟨value, other, pushed, -, pending⟩
      · cases unlinked.symm.trans linked
      · cases chained.apart other producer first (holding_of_push pending) held
        cases within.symm.trans pending
        exact Or.inl ⟨content, by rw [joined_get?, if_pos rfl]⟩
    · refine follows.imp ?_ fun holder pushed => setPush_keeps fun pending => ?_
      · exact fun value next found => ⟨value, (kept here).trans found⟩
      · cases within.symm.trans pending
        exact here rfl
  case last =>
    obtain ⟨value, found⟩ := chained.last
    exact ⟨value, (kept (Ne.symm inner)).trans found⟩
  case pushing =>
    intro other push holds
    rw [joined_pushes] at holds
    split at holds
    case isTrue => cases holds
    case isFalse different =>
      have unshared {address : Address} (own : push.2.holds = some address) :
          address ≠ before := chained.ne_of_holds held different holds own
      refine (chained.pushing other push holds).imp ?_ ?_
      · exact fun address own outside => ⟨kept (unshared own), outside⟩
      · exact fun address value own member found inner =>
          ⟨⟨value, (kept (unshared own)).trans found⟩, member, inner⟩
  case apart => exact chained.apart_setPush producer _ (by simp)
  case calling =>
    intro call called
    refine LinkedQueue.CallFits.imp (chained.calling call called) id fun value next linked => ?_
    refine ⟨value, (kept fun here : system.queue.stub = before => ?_).trans linked⟩
    rw [here] at linked
    cases unlinked.symm.trans linked
  case retired =>
    intro old retiring
    obtain ⟨⟨node, found⟩, outside, unowned⟩ := chained.retired old retiring
    have different : old ≠ before := by
      rintro rfl
      exact outside member
    exact ⟨⟨node, (kept different).trans found⟩, outside, fun other content holds =>
      unowned other content (of_setPush (by simp) holds)⟩
  case complete =>
    rintro other ⟨node, found⟩
    by_cases here : other = before
    · subst here
      exact Or.inl member
    · rcases chained.complete other ⟨node, (kept here).symm.trans found⟩ with
        inside | ⟨holder, content, holds⟩ | retiring
      · exact Or.inl inside
      · exact Or.inr (Or.inl ⟨holder, content, setPush_keeps (by simp [within]) holds⟩)
      · exact Or.inr (Or.inr retiring)

theorem head_eq_stub_iff (chained : Chained system nodes) :
    system.queue.head = system.queue.stub ↔ nodes = [] := by
  constructor
  · intro same
    cases nodes with
    | nil => rfl
    | cons node rest =>
        have ends := chained.ends
        rw [LinkedQueue.path, List.map_cons, List.getLast?_cons_cons, same] at ends
        exact absurd (List.mem_of_getLast? ends) (List.nodup_cons.mp chained.distinct).1
  · rintro rfl
    exact (Option.some.inj chained.ends).symm

theorem callFits_of_turn (chained : Chained system nodes) {move : LinkedMove producers α}
    {call : ConsumerCall α} {event : Option (LinkedEvent α)}
    (turn : ConsumerTurn system move (some call) event) : system.queue.CallFits nodes call := by
  cases turn with
  | popStarts | checkStarts | popMisses | checkMisses => trivial
  | popFinds spins value next within linked | popFindsLate spins value next within linked =>
      exact ⟨value, linked⟩
  | popWaits spins within ahead => exact fun none => ahead (chained.head_eq_stub_iff.mpr none)
  | popPauses spins within | popMissesAgain spins value within =>
      have ahead : nodes ≠ [] := chained.calling _ within
      exact ahead

theorem turns (chained : Chained system nodes) {move : LinkedMove producers α}
    {call : Option (ConsumerCall α)} {event : Option (LinkedEvent α)}
    (turn : ConsumerTurn system move call event) : Chained (system.turned call) nodes where
  ends := chained.ends
  distinct := chained.distinct
  spent := chained.spent
  loaded := chained.loaded
  follows := chained.follows
  last := chained.last
  pushing := chained.pushing
  apart := chained.apart
  calling := by
    rintro next rfl
    exact chained.callFits_of_turn turn
  retired := by simp [turn.retiring_eq.2]
  complete := by
    intro address live
    have known := chained.complete address live
    rw [turn.retiring_eq.1] at known
    rw [turn.retiring_eq.2]
    exact known

theorem linked_of_advance (chained : Chained system nodes) {spins : Nat} {next : Address}
    (within : system.consumer = some (.pop ⟨spins, .advance next⟩)) :
    ∃ value rest, nodes = (next, value) :: rest ∧
      system.queue.heap.get? system.queue.stub = some ⟨none, some next⟩ := by
  obtain ⟨content, linked⟩ : ∃ value, system.queue.heap.get? system.queue.stub =
    some ⟨value, some next⟩ := chained.calling _ within
  obtain ⟨link, spent⟩ := chained.spent
  cases linked.symm.trans spent
  cases nodes with
  | nil =>
      have ends := chained.ends
      obtain ⟨value, unlinked⟩ := chained.last
      rw [← Option.some.inj ends] at unlinked
      cases linked.symm.trans unlinked
  | cons node rest =>
      obtain ⟨address, value⟩ := node
      have follows := (List.isChain_cons_cons.mp chained.follows).1
      rcases follows with ⟨_, found⟩ | ⟨_, _, _, found, _⟩
      · cases linked.symm.trans found
        exact ⟨value, rest, rfl, linked⟩
      · cases linked.symm.trans found

theorem advances (chained : Chained system nodes) {spins : Nat} {next : Address}
    (within : system.consumer = some (.pop ⟨spins, .advance next⟩)) {node : Node α}
    (found : system.queue.heap.get? next = some node) :
    Chained (system.advanced spins next node) nodes.tail := by
  obtain ⟨value, rest, rfl, linked⟩ := chained.linked_of_advance within
  rw [List.tail_cons]
  have distinct : (system.queue.stub :: next :: rest.map Prod.fst).Nodup := chained.distinct
  have kept {other : Address} (different : other ≠ next) :
      (system.advanced spins next node).queue.heap.get? other =
        system.queue.heap.get? other := by
    rw [advanced_get?, if_neg different]
  have next_kept {other : Address} {value : Option α} {link : Option Address}
      (holds : system.queue.heap.get? other = some ⟨value, link⟩) :
      ∃ content, (system.advanced spins next node).queue.heap.get? other =
        some ⟨content, link⟩ := by
    by_cases here : other = next
    · subst here
      cases found.symm.trans holds
      exact ⟨none, by rw [advanced_get?, if_pos rfl]⟩
    · exact ⟨value, (kept here).trans holds⟩
  refine ⟨?ends, distinct.of_cons, ⟨node.next, by rw [advanced_get?]; exact if_pos rfl⟩,
    ?loaded, ?follows, ?last, ?pushing, chained.apart, ?calling, ?retired, ?complete⟩
  case ends =>
    have ends := chained.ends
    rw [LinkedQueue.path, List.map_cons, List.getLast?_cons_cons] at ends
    exact ends
  case loaded =>
    intro node listed
    obtain ⟨link, holds⟩ := chained.loaded node (List.mem_cons_of_mem _ listed)
    refine ⟨link, (kept ?_).trans holds⟩
    intro here
    exact (List.nodup_cons.mp distinct.of_cons).1 (List.mem_map.mpr ⟨node, listed, here⟩)
  case follows =>
    refine chained.follows.tail.imp fun before after follows => follows.imp ?_ ?_
    · exact fun value link holds => next_kept holds
    · exact fun holder pushed pending => pending
  case last =>
    obtain ⟨content, holds⟩ := chained.last
    exact next_kept holds
  case pushing =>
    intro other push holds
    refine (chained.pushing other push holds).imp ?_ ?_
    · intro address own outside
      rw [LinkedQueue.path, List.map_cons, List.mem_cons, not_or] at outside
      refine ⟨kept ?_, outside.2⟩
      rintro rfl
      exact outside.2 List.mem_cons_self
    · intro address content own member holds inner
      refine ⟨next_kept holds, ?_, inner⟩
      -- The stub leaves the chain, but it is linked, so no push is about to link it.
      rcases List.mem_cons.mp member with rfl | member
      · cases linked.symm.trans holds
      · exact member
  case calling =>
    intro call called
    cases called
    trivial
  case retired =>
    intro old retiring
    cases retiring
    refine ⟨?_, (List.nodup_cons.mp distinct).1, fun producer value holds => ?_⟩
    · obtain ⟨content, holds⟩ := next_kept linked
      exact ⟨_, holds⟩
    · obtain ⟨-, outside⟩ : _ ∧ system.queue.stub ∉ system.queue.path _ :=
        chained.pushing producer _ holds
      exact outside List.mem_cons_self
  case complete =>
    rintro address ⟨content, holds⟩
    have live : system.queue.Live address := by
      by_cases here : address = next
      · exact here ▸ ⟨node, found⟩
      · exact ⟨content, (kept here).symm.trans holds⟩
    rcases chained.complete address live with member | owned | retiring
    · rcases List.mem_cons.mp member with rfl | member
      · exact Or.inr (Or.inr rfl)
      · exact Or.inl member
    · exact Or.inr (Or.inl owned)
    · simp [LinkedSystem.retiring, within] at retiring

theorem frees (chained : Chained system nodes) {spins : Nat} {old : Address} {value : Option α}
    (within : system.consumer = some (.pop ⟨spins, .free old value⟩)) :
    Chained (system.relieved old value) nodes := by
  have retiring : system.retiring = some old := by simp [LinkedSystem.retiring, within]
  obtain ⟨-, outside, unowned⟩ := chained.retired old retiring
  have kept {other : Address} (different : other ≠ old) :
      (system.relieved old value).queue.heap.get? other = system.queue.heap.get? other := by
    rw [relieved_get?, if_neg different]
  have queued {other : Address} (member : other ∈ system.queue.path nodes) : other ≠ old := by
    rintro rfl
    exact outside member
  refine ⟨chained.ends, chained.distinct, ?spent, ?loaded, ?follows, ?last, ?pushing,
    chained.apart, ?calling, ?retired, ?complete⟩
  case spent =>
    obtain ⟨next, found⟩ := chained.spent
    exact ⟨next, (kept (queued List.mem_cons_self)).trans found⟩
  case loaded =>
    intro node listed
    obtain ⟨next, found⟩ := chained.loaded node listed
    refine ⟨next, (kept (queued ?_)).trans found⟩
    exact List.mem_cons_of_mem _ (List.mem_map.mpr ⟨node, listed, rfl⟩)
  case follows =>
    refine chained.follows.imp_of_mem_imp fun before after member _ follows => follows.imp ?_ ?_
    · exact fun value next found => ⟨value, (kept (queued member)).trans found⟩
    · exact fun holder pushed pending => pending
  case last =>
    obtain ⟨content, found⟩ := chained.last
    exact ⟨content, (kept (queued chained.head_mem)).trans found⟩
  case pushing =>
    intro other push holds
    obtain ⟨pushed, push⟩ := push
    refine (chained.pushing other _ holds).imp ?_ ?_
    · intro address own apart
      refine ⟨kept ?_, apart⟩
      rintro rfl
      cases push with
      | create content => cases own
      | swap node =>
          cases own
          exact unowned other pushed holds
      | link before after =>
          cases own
          exact apart (chained.pushing other _ holds).2.1
    · exact fun address content own member found inner =>
        ⟨⟨content, (kept (queued member)).trans found⟩, member, inner⟩
  case calling =>
    intro call called
    cases called
  case retired =>
    intro other gone
    cases gone
  case complete =>
    rintro address ⟨node, found⟩
    rw [relieved_get?] at found
    split at found
    case isTrue => cases found
    case isFalse different =>
      rcases chained.complete address ⟨node, found⟩ with member | owned | retired
      · exact Or.inl member
      · exact Or.inr (Or.inl owned)
      · rw [retiring] at retired
        cases retired
        exact absurd rfl different

theorem touched_live (chained : Chained system nodes) (move : LinkedMove producers α) :
    ∀ address ∈ system.touches move, system.queue.Live address := by
  have stub : system.queue.Live system.queue.stub := chained.live_of_mem List.mem_cons_self
  intro address touched
  cases move with
  | push | pop | isEmpty => cases touched
  | advance producer made =>
      simp only [touches] at touched
      split at touched
      case h_1 value before after within =>
        cases List.mem_singleton.mp touched
        exact chained.live_of_holding (holding_of_push within)
      case h_2 => cases touched
  | consume =>
      simp only [touches] at touched
      split at touched
      case h_1 => exact List.mem_singleton.mp touched ▸ stub
      case h_2 => exact List.mem_singleton.mp touched ▸ stub
      case h_3 spins next within =>
        cases List.mem_singleton.mp touched
        obtain ⟨value, rest, rfl, -⟩ := chained.linked_of_advance within
        exact chained.live_of_mem (List.mem_cons_of_mem _ List.mem_cons_self)
      case h_4 spins old value within =>
        cases List.mem_singleton.mp touched
        exact (chained.retired address (by simp [retiring, within])).1
      case h_5 => exact List.mem_singleton.mp touched ▸ stub
      case h_6 => cases touched

theorem effect (chained : Chained system nodes) {move : LinkedMove producers α}
    {after : LinkedSystem producers α} {event : Option (LinkedEvent α)}
    {act : Option (LinkedAct producers α)} (effect : LinkedEffect system move after event act) :
    Chained after (LinkedAct.applyTo act nodes) := by
  cases effect with
  | stay => exact chained
  | pushStarts producer value free => exact chained.pushStarts free value
  | creates producer address value content within fresh => exact chained.creates within fresh
  | swaps producer address value node within => exact chained.swaps within
  | links producer address value before after node within found =>
      exact chained.links within found
  | turns turn => exact chained.turns turn
  | advances spins next node within found => exact chained.advances within found
  | frees spins old value within live => exact chained.frees within

/-- A move on a chained system has one of the effects, and leaves it chained. -/
theorem next (chained : Chained system nodes) (move : LinkedMove producers α)
    (fresh : system.AllocatesFresh move) :
    ∃ after event act, LinkedEffect system move after event act ∧
      Chained after (LinkedAct.applyTo act nodes) := by
  obtain ⟨after, event, act, effect⟩ :=
    system.exists_effect move (chained.touched_live move) fresh
  exact ⟨after, event, act, effect, chained.effect effect⟩

end Chained

end LinkedSystem

end RingPool

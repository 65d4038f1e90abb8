import RingPool.Proofs.Pool.Contention
import RingPool.Proofs.Pool.Spilling

/-!
# A flush, in bulks and as a whole

A flush moves its cache out bulk by bulk.  `Desk.flush` says on lists what it comes to: one
transfer of the whole cache, of which the shared ring stores the front and the source takes back
the rest, cut at one place.  A bulk moved before that transfer changes nothing of it
(`Desk.flush_spill`), so that the result does not depend on how large bulks are.

What others do to the shared ring meanwhile changes where the bulks end, but not how many there
are: each takes the same part of a cache that only its worker touches (`PoolSystem.Flushing`).

Main statement: in every state that the workers of a pool can reach, a flush that nobody
interrupts is one transfer, and a flush that others interrupt ends after as many bulks as its
cache made at the beginning.
-/

set_option autoImplicit false

namespace RingPool

variable {Source α : Type}

/-- How many bulks so many objects make; the last of them may be short. -/
def PoolConfig.bulks (config : PoolConfig) (count : Nat) : Nat :=
  (count + config.bulkSize.toNat - 1) / config.bulkSize.toNat

section Bulks

variable {config : PoolConfig} {localCapacity sharedCapacity : Capacity}

theorem PoolConfig.Fits.bulks_zero (sizing : config.Fits localCapacity sharedCapacity) :
    config.bulks 0 = 0 := by
  have bulk := sizing.bulkSize_pos
  rw [PoolConfig.bulks]
  exact Nat.div_eq_of_lt (by omega)

theorem PoolConfig.Fits.bulks_sub (sizing : config.Fits localCapacity sharedCapacity)
    {count : Nat} (some : 0 < count) :
    config.bulks count = 1 + config.bulks (count - config.bulkSize.toNat) := by
  have bulk := sizing.bulkSize_pos
  rcases Nat.lt_or_ge count config.bulkSize.toNat with short | long
  · rw [Nat.sub_eq_zero_of_le short.le, sizing.bulks_zero, PoolConfig.bulks]
    exact Nat.div_eq_of_lt_le (by omega) (by omega)
  · have split : count + config.bulkSize.toNat - 1 =
        count - config.bulkSize.toNat + config.bulkSize.toNat - 1 + config.bulkSize.toNat := by
      omega
    rw [PoolConfig.bulks, split, Nat.add_div_right _ bulk, Nat.add_comm 1]
    rfl

/-- As many objects as there is room for, out of a bulk and what comes after it: a bulk of which
anything is stored counts as one. -/
theorem PoolConfig.Fits.bulks_stored (sizing : config.Fits localCapacity sharedCapacity)
    (count room : Nat) :
    (if 0 < min (min config.bulkSize.toNat count) room then 1 else 0) +
        config.bulks (min (count - config.bulkSize.toNat)
          (room - min config.bulkSize.toNat count)) =
      config.bulks (min count room) := by
  have bulk := sizing.bulkSize_pos
  have left : min (count - config.bulkSize.toNat) (room - min config.bulkSize.toNat count) =
      min count room - config.bulkSize.toNat := by
    omega
  rw [left]
  rcases Nat.eq_zero_or_pos (min count room) with none | some
  · have nothing : ¬ 0 < min (min config.bulkSize.toNat count) room := by omega
    rw [if_neg nothing, none, Nat.zero_sub, sizing.bulks_zero]
  · have something : 0 < min (min config.bulkSize.toNat count) room := by omega
    rw [if_pos something, sizing.bulks_sub some]

end Bulks

/-! ## One transfer -/

section Transfer

variable [ObjectSource Source α] {config : PoolConfig} {localCapacity sharedCapacity : Capacity}

/-- What a flush leaves: the shared ring stores as much of the cache as it has room for, and the
source takes back the rest. -/
def Desk.flush (config : PoolConfig) (desk : Desk Source α) : Desk Source α :=
  let stored := min desk.cache.length (config.sharedCapacity.toNat - 1 - desk.shared.length)
  { cache := []
    shared := desk.shared ++ desk.cache.take stored
    stats := { desk.stats with
      sharedSpills := desk.stats.sharedSpills + config.bulks stored
      sourceFrees := desk.stats.sourceFrees + (desk.cache.length - stored) }
    source := ObjectSource.freeAll desk.source (desk.cache.drop stored) }

theorem Desk.flush_of_empty (sizing : config.Fits localCapacity sharedCapacity)
    {desk : Desk Source α} (empty : desk.cache = []) : desk.flush config = desk := by
  obtain ⟨cache, shared, stats, source⟩ := desk
  cases empty
  simp only [Desk.flush, List.length_nil, Nat.zero_min, sizing.bulks_zero, List.take_nil,
    List.append_nil, List.drop_nil]
  rfl

theorem ObjectSource.freeAll_append (source : Source) (first second : List α) :
    freeAll source (first ++ second) = freeAll (freeAll source first) second :=
  List.foldl_append

theorem Desk.flush_spill (sizing : config.Fits localCapacity sharedCapacity)
    (desk : Desk Source α) : (desk.spill config).flush config = desk.flush config := by
  generalize bulkSize : config.bulkSize.toNat = size
  generalize vacancy : config.sharedCapacity.toNat - 1 - desk.shared.length = room
  -- The room that is left is what the front of the cache lacks to fill it.
  have roomLeft : config.sharedCapacity.toNat - 1 -
      (desk.shared ++ (desk.cache.take size).take room).length =
        room - (desk.cache.take size).length := by
    rw [List.length_append, List.length_take]
    omega
  have stored : (desk.cache.take size).take room ++
      (desk.cache.drop size).take (room - (desk.cache.take size).length) =
        desk.cache.take room := by
    rw [← List.take_append, List.take_append_drop]
  have refused : (desk.cache.take size).drop room ++
      (desk.cache.drop size).drop (room - (desk.cache.take size).length) =
        desk.cache.drop room := by
    rw [← List.drop_append, List.take_append_drop]
  have spills : (if 0 < min (desk.cache.take size).length room then 1 else 0) +
      config.bulks (min (desk.cache.drop size).length (room - (desk.cache.take size).length)) =
        config.bulks (min desk.cache.length room) := by
    rw [List.length_take, List.length_drop, ← bulkSize]
    exact sizing.bulks_stored desk.cache.length room
  have frees : (desk.cache.take size).length - room + ((desk.cache.drop size).length -
      min (desk.cache.drop size).length (room - (desk.cache.take size).length)) =
        desk.cache.length - min desk.cache.length room := by
    rw [List.length_take, List.length_drop]
    omega
  have cut : ∀ (items : List α) (count : Nat),
      items.take (min items.length count) = items.take count ∧
        items.drop (min items.length count) = items.drop count := by
    intro items count
    rw [Nat.min_comm, ← List.take_eq_take_min, ← List.drop_eq_drop_min]
    exact ⟨rfl, rfl⟩
  simp only [Desk.flush, Desk.spill, bulkSize, vacancy, roomLeft, cut, List.append_assoc, stored,
    Nat.add_assoc, spills, frees, ← ObjectSource.freeAll_append, refused]

/-- The steps of a flush come to one transfer. -/
theorem Desk.flush_ends (sizing : config.Fits localCapacity sharedCapacity)
    (desk : Desk Source α) :
    Desk.Ends config localCapacity sharedCapacity desk .check (desk.flush config) .done := by
  generalize size : desk.cache.length = count
  induction count using Nat.strongRecOn generalizing desk with
  | ind count ih =>
      cases items : desk.cache with
      | nil =>
          rw [desk.flush_of_empty sizing items]
          refine .returns ?_
          simp only [Desk.step, items]
      | cons first rest =>
          have cached : desk.cache ≠ [] := items ▸ List.cons_ne_nil first rest
          have looks : desk.step config localCapacity sharedCapacity .check =
              (desk, .running (.unload .check)) := by
            simp only [Desk.step, items]
          have fewer : (desk.spill config).cache.length < count := by
            have bulk := sizing.bulkSize_pos
            have some := List.length_pos_iff.mpr cached
            rw [Desk.spill, List.length_drop]
            omega
          refine .goesOn looks (.spill sizing rfl cached ?_)
          rw [← Desk.flush_spill sizing desk]
          exact ih _ fewer (desk.spill config) rfl

end Transfer

/-! ## Bulk by bulk, among others -/

/-- Where a flush can stand, by what is in the cache. -/
inductive WorkerPhase.Flushes (cache : List α) : WorkerPhase α → Prop
  | check : Flushes cache .check
  | unload (cached : cache ≠ []) : Flushes cache (.unload .check)
  | offload (bulk : List α) : Flushes cache (.offload bulk .check)
  | reclaim (object : α) (rest : List α) (count : Nat) :
      Flushes cache (.reclaim object rest count .check)

def WorkerPhase.spills : WorkerPhase α → Nat
  | .unload _ => 1
  | _ => 0

theorem flushes_goesOn {cache left : List α} :
    ∃ later, Workplace.reclaimAll .check left = .running later ∧ later.Flushes cache := by
  cases left with
  | nil => exact ⟨_, rfl, .check⟩
  | cons object rest => exact ⟨_, rfl, .reclaim object rest 0⟩

theorem Desk.step_flushes [ObjectSource Source α] {config : PoolConfig}
    {localCapacity sharedCapacity : Capacity} (sizing : config.Fits localCapacity sharedCapacity)
    (desk : Desk Source α) {phase : WorkerPhase α} (flushes : phase.Flushes desk.cache) :
    config.bulks desk.cache.length = phase.spills +
        config.bulks (desk.step config localCapacity sharedCapacity phase).1.cache.length ∧
      ((∃ later, (desk.step config localCapacity sharedCapacity phase).2 = .running later ∧
        later.Flushes (desk.step config localCapacity sharedCapacity phase).1.cache) ∨
      ((desk.step config localCapacity sharedCapacity phase).2 = .returned .done ∧
        (desk.step config localCapacity sharedCapacity phase).1.cache = [])) := by
  cases flushes with
  | check =>
      rw [Desk.step]
      split
      case h_1 empty => exact ⟨(Nat.zero_add _).symm, .inr ⟨rfl, empty⟩⟩
      case h_2 first rest items =>
          exact ⟨(Nat.zero_add _).symm,
            .inl ⟨_, rfl, .unload (items ▸ List.cons_ne_nil first rest)⟩⟩
  | unload cached =>
      rw [Desk.step]
      split
      case h_1 nothing =>
          rcases List.take_eq_nil_iff.mp nothing with none | empty
          · exact absurd none (Nat.ne_of_gt sizing.bulkSize_pos)
          · exact absurd empty cached
      case h_2 first rest taken =>
          refine ⟨?_, .inl ⟨_, rfl, .offload (first :: rest)⟩⟩
          rw [List.length_drop]
          exact sizing.bulks_sub (List.length_pos_iff.mpr cached)
  | offload bulk => exact ⟨(Nat.zero_add _).symm, .inl flushes_goesOn⟩
  | reclaim object rest count =>
      cases rest with
      | nil => exact ⟨(Nat.zero_add _).symm, .inl ⟨_, rfl, .check⟩⟩
      | cons next rest => exact ⟨(Nat.zero_add _).symm, .inl ⟨_, rfl, .reclaim next rest _⟩⟩

namespace PoolSystem

/-- How far the flush of a worker is: how many bulks it still moves out, and how many steps it
takes at most.  A flush that is over has left an empty cache. -/
inductive Flushing (sharedSlots : Nat) (system : PoolSystem Source α) (id : UInt64) :
    Nat → Nat → Prop
  | within {slot : WorkerSlot α} {phase : WorkerPhase α} {steps : Nat}
      (found : system.pool.slots[id.toNat]? = some slot)
      (calling : system.calls id = some phase) (flushes : phase.Flushes slot.cache.toList)
      (enough : phase.stepsLeft sharedSlots slot.cache.toList.length ≤ steps) :
      Flushing sharedSlots system id (system.pool.config.bulks slot.cache.toList.length) steps
  | past {slot : WorkerSlot α} {steps : Nat}
      (found : system.pool.slots[id.toNat]? = some slot) (idle : system.calls id = none)
      (empty : slot.cache.toList = []) : Flushing sharedSlots system id 0 steps

def unloads [DecidableEq α] (id : UInt64) (before : PoolSystem Source α) (move : PoolMove α)
    (_ : PoolSystem Source α) : Nat :=
  match before.calls id with
  | some phase => if move = .advance id then phase.spills else 0
  | none => 0

section Interleaved

variable [ObjectSource Source α] [DecidableEq α] {localCapacity sharedCapacity : Capacity}
  {system : PoolSystem Source α} {id : UInt64} {bulks steps : Nat}

def spills (system : PoolSystem Source α) (id : UInt64) (moves : List (PoolMove α)) : Nat :=
  system.tally (unloads id) moves

theorem Flushing.begins (ready : system.isReady id = true) {slot : WorkerSlot α}
    (found : system.pool.slots[id.toNat]? = some slot) (sharedSlots : Nat) :
    (system.next (.flush id)).1.Flushing sharedSlots id
        (system.pool.config.bulks slot.cache.toList.length) (5 * slot.cache.toList.length + 1) ∧
      (system.next (.flush id)).1.calls id ≠ none := by
  have begun : (system.next (.flush id)).1 = system.setCall id (some .check) := if_pos ready
  have calling : (system.setCall id (some .check)).calls id = some .check := if_pos rfl
  rw [begun, calling]
  exact ⟨.within found calling .check (Nat.le_refl _), Option.some_ne_none _⟩

omit [DecidableEq α] in
theorem Flushing.idle (sizing : system.pool.config.Fits localCapacity sharedCapacity)
    (flushing : system.Flushing sharedCapacity.size id bulks 0) : system.calls id = none := by
  cases flushing with
  | @within slot phase _ _ _ _ enough =>
      have further := Desk.stepsLeft_lt sizing (system.workplace slot).desk phase
      exact absurd (further.trans_le enough) (Nat.not_lt_zero _)
  | past _ idle => exact idle

omit [ObjectSource Source α] [DecidableEq α] in
theorem Flushing.of_idle (flushing : system.Flushing sharedCapacity.size id bulks steps)
    (idle : system.calls id = none) :
    bulks = 0 ∧ ∃ slot, system.pool.slots[id.toNat]? = some slot ∧ slot.cache.toList = [] := by
  cases flushing with
  | within _ calling =>
      rw [idle] at calling
      cases calling
  | past found _ empty => exact ⟨rfl, _, found, empty⟩

theorem Flushing.other (flushing : system.Flushing sharedCapacity.size id bulks steps)
    {move : PoolMove α} (other : move.worker ≠ id) :
    (system.next move).1.Flushing sharedCapacity.size id bulks steps ∧
      system.unloads id move (system.next move).1 = 0 := by
  obtain ⟨slots, calls⟩ := system.next_other other
  have config : (system.next move).1.pool.config = system.pool.config :=
    system.run_config [move]
  have apart : move ≠ .advance id := by
    rintro rfl
    exact other rfl
  cases flushing with
  | within found calling flushes enough =>
      refine ⟨?_, ?_⟩
      · rw [← config]
        exact .within (slots.trans found) (calls.trans calling) flushes enough
      · rw [unloads, calling]
        exact if_neg apart
  | past found idle empty =>
      refine ⟨.past (slots.trans found) (calls.trans idle) empty, ?_⟩
      rw [unloads, idle]

/-- A step of the worker brings its flush nearer to the end. -/
theorem Flushing.advance (tended : system.Tended localCapacity sharedCapacity)
    (flushing : system.Flushing sharedCapacity.size id bulks steps) :
    ∃ left, (system.next (.advance id)).1.Flushing sharedCapacity.size id left (steps - 1) ∧
      bulks = system.unloads id (.advance id) (system.next (.advance id)).1 + left ∧
      (system.calls id ≠ none → (system.next (.advance id)).1.calls id = none →
        (system.next (.advance id)).2 = some (.returned id .done)) := by
  cases flushing with
  | past found idle empty =>
      have stays : system.next (.advance id) = (system, none) := by rw [next, idle]
      rw [stays]
      refine ⟨0, .past found idle empty, ?_, fun calling => absurd idle calling⟩
      rw [unloads, idle]
  | @within slot phase _ found calling flushes enough =>
      have reached := (tended.tidy found).step system.pool.config phase
      have nearer := Desk.stepsLeft_lt tended.sizing (system.workplace slot).desk phase
      obtain ⟨bulks, goes⟩ :=
        Desk.step_flushes tended.sizing (system.workplace slot).desk flushes
      rw [← reached.desk, ← reached.progress] at nearer goes
      rw [← reached.desk] at bulks
      have after := system.next_advance found calling
      have changed := system.worked_slot found
        ((system.workplace slot).step system.pool.config phase)
      have own := system.worked_call id ((system.workplace slot).step system.pool.config phase)
      rw [← after] at changed own
      have config : (system.next (.advance id)).1.pool.config = system.pool.config := by
        rw [after]
        rfl
      have spills : system.unloads id (.advance id) (system.next (.advance id)).1 =
          phase.spills := by
        rw [unloads, calling]
        exact if_pos rfl
      rw [← spills] at bulks
      refine ⟨_, ?_, bulks, ?_⟩
      · rcases goes with ⟨later, runs, flushesLater⟩ | ⟨returned, empty⟩
        · rw [runs] at own nearer
          have stands := Flushing.within changed own flushesLater
            (Nat.le_sub_one_of_lt (nearer.trans_le enough))
          rw [config] at stands
          exact stands
        · rw [returned] at own
          rw [empty, List.length_nil, tended.sizing.bulks_zero]
          exact .past changed own empty
      · intro _ idle
        rw [own] at idle
        rcases goes with ⟨later, runs, -⟩ | ⟨returned, -⟩
        · rw [runs] at idle
          cases idle
        · exact system.next_advance_returned found calling (Prod.ext rfl returned)

/-- While a worker only goes on with its flush and others do what they like, the bulks that it
took out and those that are left are as many as at the beginning; and when it is over, it has
returned. -/
theorem Flushing.run (tended : system.Tended localCapacity sharedCapacity)
    (flushing : system.Flushing sharedCapacity.size id bulks steps) {moves : List (PoolMove α)}
    (own : ∀ move ∈ moves, move.worker = id → move = .advance id) :
    ∃ left, (system.run moves).1.Flushing sharedCapacity.size id left
        (steps - moves.count (.advance id)) ∧
      bulks = system.spills id moves + left ∧
      (system.calls id ≠ none → (system.run moves).1.calls id = none →
        .returned id .done ∈ (system.run moves).2) := by
  induction moves generalizing system bulks steps with
  | nil => exact ⟨bulks, flushing, (Nat.zero_add _).symm, fun calling idle => absurd idle calling⟩
  | cons move moves ih =>
      have tendedNext := tended.effect (effect_of_next system move)
      have ownNext : ∀ move ∈ moves, move.worker = id → move = .advance id :=
        fun move listed => own move (List.mem_cons_of_mem _ listed)
      have whole : (system.run (move :: moves)).1 = ((system.next move).1.run moves).1 := rfl
      have events : (system.run (move :: moves)).2 =
          (system.next move).2.toList ++ ((system.next move).1.run moves).2 := rfl
      rw [whole, events]
      by_cases mine : move.worker = id
      · obtain rfl := own move List.mem_cons_self mine
        obtain ⟨next, flushingNext, now, returns⟩ := flushing.advance tended
        obtain ⟨left, flushingLast, later, returnsLater⟩ := ih tendedNext flushingNext ownNext
        refine ⟨left, ?_, ?_, ?_⟩
        · rw [List.count_cons_self, Nat.add_comm, ← Nat.sub_sub]
          exact flushingLast
        · rw [now, later, spills, spills, tally, Nat.add_assoc]
        · intro calling idle
          by_cases idleThen : (system.next (.advance id)).1.calls id = none
          · rw [returns calling idleThen]
            exact List.mem_append_left _ List.mem_cons_self
          · exact List.mem_append_right _ (returnsLater idleThen idle)
      · obtain ⟨flushingNext, nothing⟩ := flushing.other mine
        obtain ⟨left, flushingLast, later, returnsLater⟩ := ih tendedNext flushingNext ownNext
        have apart : move ≠ .advance id := by
          rintro rfl
          exact mine rfl
        refine ⟨left, ?_, ?_, ?_⟩
        · rw [List.count_cons_of_ne apart]
          exact flushingLast
        · rw [later, spills, spills, tally, nothing, Nat.zero_add]
        · intro calling idle
          refine List.mem_append_right _ (returnsLater ?_ idle)
          rw [(system.next_other mine).2]
          exact calling

end Interleaved

end PoolSystem

/-- In every state that the workers of a pool can reach, a flush that nobody interrupts is one
transfer of the cache, whatever the bulk size.  If other workers act in between, the flush of a
worker that is ready takes out no more bulks than the cache makes, and just as many when it is
over, with an empty cache; and five steps for each object and one more bring it to its end. -/
theorem flush_is_one_transfer [Inhabited α] [ObjectSource Source α] [DecidableEq α]
    {config : PoolConfig} {source : Source} {pool : Pool Source α}
    (opened : Pool.create config source = .ok pool) (held : List α) (moves : List (PoolMove α))
    {reached : PoolSystem Source α}
    (reaches : ({ PoolSystem.start pool with held }.run moves).1 = reached) (id : UInt64)
    {slot : WorkerSlot α} (found : reached.pool.slots[id.toNat]? = some slot) :
    (∃ after changed,
      reached.pool.flush id = (after, .done) ∧
      after.desk changed = (reached.pool.desk slot).flush config ∧
      (∀ other : PoolConfig, other.sharedCapacity = config.sharedCapacity →
        changed.cache.toList = ((reached.pool.desk slot).flush other).cache ∧
        after.shared.toList = ((reached.pool.desk slot).flush other).shared ∧
        after.source = ((reached.pool.desk slot).flush other).source) ∧
      after.slots = reached.pool.slots.setIfInBounds id.toNat changed ∧
      changed.claimed = slot.claimed ∧ after.config = config) ∧
    (reached.isReady id = true →
      ∀ interleaved : List (PoolMove α),
        (∀ move ∈ interleaved, move.worker = id → move = .advance id) →
        let begun := (reached.next (.flush id)).1
        let ended := begun.run interleaved
        begun.spills id interleaved ≤ config.bulks slot.cache.toList.length ∧
        (ended.1.calls id = none →
          begun.spills id interleaved = config.bulks slot.cache.toList.length ∧
          .returned id .done ∈ ended.2 ∧
          ∃ last, ended.1.pool.slots[id.toNat]? = some last ∧ last.cache.toList = []) ∧
        (5 * slot.cache.toList.length + 1 ≤ interleaved.count (.advance id) →
          ended.1.calls id = none)) := by
  obtain ⟨-, -, -, sameConfig, -⟩ :=
    Pool.shelves_of_run opened held moves (congrArg PoolSystem.pool reaches)
  obtain ⟨localCapacity, sharedCapacity, started⟩ := PoolSystem.Tended.start opened held
  have tended := (started.run moves).1
  rw [reaches] at tended
  refine ⟨?_, ?_⟩
  · obtain ⟨after, changed, ran, kept, slots, claimed, desk⟩ :=
      Pool.run_ends tended.sizing found (tended.cache found) tended.shared (Or.inr (Or.inr rfl))
        (Desk.flush_ends tended.sizing (reached.pool.desk slot))
    rw [sameConfig] at desk kept
    refine ⟨after, changed, ran, desk, ?_, slots, claimed, kept⟩
    intro other same
    have cache : changed.cache.toList = _ := congrArg Desk.cache desk
    have shared : after.shared.toList = _ := congrArg Desk.shared desk
    have source : after.source = _ := congrArg Desk.source desk
    rw [cache, shared, source]
    simp only [Desk.flush, same, and_self]
  · intro ready interleaved own begun ended
    have tendedBegun : begun.Tended localCapacity sharedCapacity :=
      tended.effect (PoolSystem.effect_of_next reached (.flush id))
    have tendedEnded : ended.1.Tended localCapacity sharedCapacity :=
      (tendedBegun.run interleaved).1
    obtain ⟨flushing, calling⟩ :=
      PoolSystem.Flushing.begins ready found sharedCapacity.size
    rw [sameConfig] at flushing
    obtain ⟨left, last, all, returns⟩ := flushing.run tendedBegun own
    refine ⟨?_, ?_, ?_⟩
    · rw [all]
      exact Nat.le_add_right _ _
    · intro idleThen
      obtain ⟨none, empty⟩ := last.of_idle idleThen
      rw [none] at all
      exact ⟨all.symm, returns calling idleThen, empty⟩
    · intro enough
      rw [Nat.sub_eq_zero_of_le enough] at last
      exact last.idle tendedEnded.sizing

/-- The first worker's flush, and a second worker that takes what the first bulk has brought to the
shared ring. -/
def narrowFlush : List (PoolMove UInt64) :=
  List.flatten [List.replicate 3 (.advance 0), [.alloc 1], List.replicate 3 (.advance 1),
    List.replicate 5 (.advance 0)]

/-- Of a cache of three objects the shared ring stores one, and the other two, of different bulks,
go back to the source.  When a second worker makes room meanwhile, there are two bulks all the
same. -/
theorem flush_is_one_transfer_sample :
    (∃ slot, narrowReached.pool.slots[(0 : UInt64).toNat]? = some slot ∧
      slot.cache.toList = [7, 8, 9]) ∧
    (∃ after, ∃ changed : WorkerSlot UInt64,
      narrowReached.pool.flush 0 = (after, .done) ∧ changed.cache.toList = [] ∧
      after.shared.toList = [7] ∧ after.source.account.freed = #[8, 9]) ∧
    narrowReached.isReady 0 = true ∧
    (∀ move ∈ narrowFlush, move.worker = 0 → move = .advance 0) ∧
    let begun := (narrowReached.next (.flush 0)).1
    let ended := (begun.run narrowFlush).1
    ended.calls 0 = none ∧ begun.spills 0 narrowFlush = 2 ∧ ended.pool.shared.toList = [9] := by
  obtain ⟨slot, found, before⟩ := narrowReached_desk
  have cached : slot.cache.toList = [7, 8, 9] := congrArg Desk.cache before
  have ready : narrowReached.isReady 0 = true := by decide +kernel
  have own : ∀ move ∈ narrowFlush, move.worker = 0 → move = .advance 0 := by decide
  obtain ⟨⟨after, changed, ran, desk, -⟩, interrupted⟩ :=
    flush_is_one_transfer (narrowPool_opens _) [7, 8, 9, 10] narrowMoves narrowReached_run 0 found
  rw [before] at desk
  have idle : (((narrowReached.next (.flush 0)).1.run narrowFlush).1.calls 0).isNone = true := by
    decide +kernel
  have idleThen := Option.isNone_iff_eq_none.mp idle
  obtain ⟨bulks, -, -⟩ := (interrupted ready narrowFlush own).2.1 idleThen
  rw [cached] at bulks
  refine ⟨⟨slot, found, cached⟩, ⟨after, changed, ran, congrArg Desk.cache desk,
    congrArg Desk.shared desk, congrArg (fun desk => desk.source.account.freed) desk⟩, ready, own,
    idleThen, bulks, ?_⟩
  decide +kernel

end RingPool

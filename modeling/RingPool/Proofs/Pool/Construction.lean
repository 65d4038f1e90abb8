import RingPool.Proofs.Pool.Closing

/-!
# What becomes of the objects that a pool gets in advance

A pool asks its source for a number of objects before it opens.  `ObjectSource.Gives` says what
the source answers, request by request.  Either it gives all, and they are in the shared ring of
the pool that opens; or it fails at one of the requests, and the pool that was built around what
it gave goes at once, so that all of it goes back.

Main statement: for every sizing and every source, no object of the source gets lost, whether the
sizing is refused, the source fails, or the pool opens.
-/

set_option autoImplicit false

namespace RingPool

variable {Source α : Type}

/-- Asked for so many objects, a source gives these, one by one. -/
inductive ObjectSource.Gives [ObjectSource Source α] : Source → List α → Source → Prop
  | nothing (source : Source) : Gives source [] source
  | next {source after left : Source} {object : α} {objects : List α}
      (gave : ObjectSource.alloc source = (some object, after))
      (further : Gives after objects left) : Gives source (object :: objects) left

section Source

variable [ObjectSource Source α] {source left last : Source} {objects : List α}

namespace ObjectSource.Gives

theorem allocUpTo (gives : Gives source objects left) (more : Nat) (obtained : Array α) :
    ObjectSource.allocUpTo source (objects.length + more) obtained =
      ObjectSource.allocUpTo left more (obtained ++ objects) := by
  induction gives generalizing obtained with
  | nothing source => rw [List.length_nil, Nat.zero_add, Array.appendList_nil]
  | @next source after left object objects gave further ih =>
      have requests : (object :: objects).length + more = objects.length + more + 1 := by
        rw [List.length_cons]
        omega
      rw [requests, ObjectSource.allocUpTo, gave, Array.appendList_cons]
      exact ih (obtained.push object)

/-- A source that is recorded gives the same, and each object goes on record. -/
theorem recorded (gives : Gives source objects left) (calls : List (SourceCall α)) :
    Gives (⟨source, calls⟩ : Recorded Source α) objects
      ⟨left, (objects.map .gave).reverse ++ calls⟩ := by
  induction gives generalizing calls with
  | nothing source => exact .nothing _
  | @next source after left object objects gave further ih =>
      rw [List.map_cons, List.reverse_cons, List.append_assoc]
      refine .next ?_ (ih (.gave object :: calls))
      simp only [ObjectSource.alloc] at gave ⊢
      rw [gave]

end ObjectSource.Gives

/-- Asked for so many objects, a source gives all of them or fails at one of the requests. -/
theorem ObjectSource.exists_gives (source : Source) (count : Nat) :
    ∃ (objects : List α) (left : Source), Gives source objects left ∧
      (objects.length = count ∨
        objects.length < count ∧ ∃ last, alloc left = ((none : Option α), last)) := by
  induction count generalizing source with
  | zero => exact ⟨[], source, .nothing source, .inl rfl⟩
  | succ count ih =>
      rcases answer : alloc source with ⟨_ | object, after⟩
      · exact ⟨[], source, .nothing source, .inr ⟨Nat.succ_pos count, after, answer⟩⟩
      · obtain ⟨objects, left, gives, ending⟩ := ih after
        refine ⟨object :: objects, left, .next answer gives, ?_⟩
        rcases ending with all | ⟨fewer, refused⟩
        · exact .inl (congrArg (· + 1) all)
        · exact .inr ⟨Nat.succ_lt_succ fewer, refused⟩

theorem Recorded.alloc_of_refused (refused : ObjectSource.alloc source = ((none : Option α), last))
    (calls : List (SourceCall α)) :
    ObjectSource.alloc (⟨source, calls⟩ : Recorded Source α) =
      (none, ⟨last, .refused :: calls⟩) := by
  simp only [ObjectSource.alloc] at refused ⊢
  rw [refused]

/-! ## The request in advance -/

variable {config : PoolConfig} {localCapacity sharedCapacity : Capacity}

theorem PoolConfig.Fits.mask_eq (sizing : config.Fits localCapacity sharedCapacity) :
    sharedCapacity.mask = config.sharedCapacity - 1 := by
  have slots := sharedCapacity.two_le_size
  have size := size_of_checkCapacity sizing.sharedSlots
  have one : (1 : UInt32) ≤ config.sharedCapacity := by
    rw [UInt32.le_iff_toNat_le, ← size, UInt32.toNat_one]
    omega
  rw [← UInt32.toNat_inj, UInt32.toNat_sub_of_le _ _ one, Capacity.mask_toNat, size,
    UInt32.toNat_one]

omit [ObjectSource Source α] in
theorem Pool.shelved_of_built [Inhabited α] {built : Pool Source α}
    (shared : built.shared.IsShelf sharedCapacity)
    (slots : built.slots = Array.replicate config.workers.toNat (.create localCapacity)) :
    built.Shelved localCapacity sharedCapacity ∧
      (∀ slot ∈ built.slots, slot.cache.toList = []) ∧ built.pooled = built.shared.toList := by
  have created : ∀ slot ∈ built.slots, slot = .create localCapacity := by
    intro slot member
    rw [slots] at member
    exact Array.eq_of_mem_replicate member
  have empty : ∀ slot ∈ built.slots, slot.cache.toList = [] := by
    intro slot member
    rw [created slot member]
    exact Ring.forObjects_toList localCapacity
  refine ⟨⟨shared, ?_⟩, empty, ?_⟩
  · intro slot member
    rw [created slot member]
    exact Ring.forObjects_isShelf localCapacity
  · have caches : built.slots.toList.flatMap (fun slot => slot.cache.toList) = [] :=
      List.flatMap_eq_nil_iff.mpr fun slot member => empty slot (Array.mem_toList_iff.mp member)
    rw [Pool.pooled, caches, List.nil_append]

/-- A source that gives all that it is asked for stocks the pool. -/
theorem Pool.create_of_gives [Inhabited α]
    (accepted : config.check = .ok (localCapacity, sharedCapacity))
    (gives : ObjectSource.Gives source objects left)
    (all : objects.length = (min config.prealloc (config.sharedCapacity - 1)).toNat) :
    ∃ pool : Pool Source α, Pool.create config source = .ok pool ∧ pool.config = config ∧
      pool.shared.toList = objects ∧ pool.slots.size = config.workers.toNat ∧
      (∀ slot ∈ pool.slots, slot.cache.toList = []) ∧ pool.source = left := by
  rw [← (PoolConfig.fits_of_check accepted).mask_eq] at all
  have asked := gives.allocUpTo 0 #[]
  have given : config.preallocated sharedCapacity source = (objects.toArray, left) := by
    rw [Nat.add_zero, all] at asked
    rw [PoolConfig.preallocated, asked, ObjectSource.allocUpTo, List.toArray_appendList]
    rfl
  obtain ⟨pool, sizing, shared, list, slots, source, created⟩ := Pool.create_eq accepted given
  obtain ⟨-, empty, -⟩ := Pool.shelved_of_built shared slots
  have enough : ¬ objects.toArray.size < (min config.prealloc sharedCapacity.mask).toNat := by
    rw [List.size_toArray, all]
    exact Nat.lt_irrefl _
  refine ⟨pool, created.trans (if_neg enough), sizing, list, ?_, empty, source⟩
  rw [slots, Array.size_replicate]

/-- A source that fails before that takes back what it gave, in the same order. -/
theorem Pool.create_of_refused [Inhabited α]
    (accepted : config.check = .ok (localCapacity, sharedCapacity))
    (gives : ObjectSource.Gives source objects left)
    (fewer : objects.length < (min config.prealloc (config.sharedCapacity - 1)).toNat)
    (refused : ObjectSource.alloc left = ((none : Option α), last)) :
    ∃ obtained : UInt32, obtained.toNat = objects.length ∧
      (Pool.create config source : Except (PoolError × Source) (Pool Source α)) =
        .error (.prealloc (min config.prealloc (config.sharedCapacity - 1)) obtained,
          ObjectSource.freeAll last objects) := by
  rw [← (PoolConfig.fits_of_check accepted).mask_eq] at fewer ⊢
  obtain ⟨more, requests⟩ := Nat.exists_eq_add_of_lt fewer
  have asked := gives.allocUpTo (more + 1) #[]
  have given : config.preallocated sharedCapacity source = (objects.toArray, last) := by
    rw [PoolConfig.preallocated, requests, Nat.add_assoc, asked, ObjectSource.allocUpTo, refused,
      List.toArray_appendList]
    rfl
  obtain ⟨pool, -, shared, list, slots, source, created⟩ := Pool.create_eq accepted given
  obtain ⟨shelved, -, pooled⟩ := Pool.shelved_of_built shared slots
  have back : pool.destroy.1 = ObjectSource.freeAll last objects := by
    refine shelved.drain.1.trans ?_
    rw [pooled, list, source]
  refine ⟨UInt32.ofNat objects.length,
    UInt32.toNat_ofNat_of_lt' (fewer.trans (UInt32.toNat_lt _)), ?_⟩
  rw [← back, ← List.size_toArray]
  rw [← List.size_toArray] at fewer
  exact created.trans (if_pos fewer)

end Source

/-- Whatever the sizing and the source, no object gets lost when a pool is opened.  A sizing that
is refused leaves the source alone.  Otherwise the source is asked for as many objects as the
sizing says and the shared ring takes.  If it gives all of them, the pool opens with just these in
its shared ring, in the order in which they came, and none went back.  If it fails before, it is
not asked again, and what it gave goes back to it, each object once and in the same order. -/
theorem create_leaks_nothing [Inhabited α] [ObjectSource Source α] (config : PoolConfig)
    (source : Source) :
    (∀ fault, config.check = .error fault →
      (Pool.create config (Recorded.fresh source) :
        Except (PoolError × Recorded Source α) (Pool (Recorded Source α) α)) =
          .error (.config fault, Recorded.fresh source)) ∧
    ∀ capacities, config.check = .ok capacities →
      let requested := min config.prealloc (config.sharedCapacity - 1)
      (∃ (objects : List α) (left : Source), ObjectSource.Gives source objects left ∧
        (objects.length = requested.toNat ∨ objects.length < requested.toNat ∧
          ∃ last, ObjectSource.alloc left = ((none : Option α), last))) ∧
      ∀ (objects : List α) (left : Source), ObjectSource.Gives source objects left →
        (objects.length = requested.toNat →
          ∃ pool : Pool (Recorded Source α) α,
            Pool.create config (Recorded.fresh source) = .ok pool ∧
            pool.config = config ∧ pool.shared.toList = objects ∧
            pool.slots.size = config.workers.toNat ∧
            (∀ slot ∈ pool.slots, slot.cache.toList = []) ∧
            pool.source = ⟨left, (objects.map .gave).reverse⟩) ∧
        (objects.length < requested.toNat →
          ∀ last, ObjectSource.alloc left = (none, last) →
            ∃ obtained : UInt32, obtained.toNat = objects.length ∧
              (Pool.create config (Recorded.fresh source) :
                Except (PoolError × Recorded Source α) (Pool (Recorded Source α) α)) =
                  .error (.prealloc requested obtained,
                    ⟨ObjectSource.freeAll last objects, (objects.map .tookBack).reverse ++
                      .refused :: (objects.map .gave).reverse⟩)) := by
  refine ⟨?_, ?_⟩
  · intro fault refused
    rw [Pool.create, refused]
  · rintro ⟨localCapacity, sharedCapacity⟩ accepted requested
    refine ⟨ObjectSource.exists_gives source requested.toNat, ?_⟩
    intro objects left gives
    have recorded := gives.recorded []
    rw [List.append_nil] at recorded
    refine ⟨Pool.create_of_gives accepted recorded, ?_⟩
    intro fewer last refused
    have fails := Pool.create_of_refused accepted recorded fewer
      (Recorded.alloc_of_refused refused _)
    rw [Recorded.freeAll] at fails
    exact fails

/-- A sizing that asks for one object more than the shared ring takes. -/
def stockedConfig : PoolConfig := ⟨2, 4, 4, 4, 2, 1⟩

def stockedOpening (config : PoolConfig) (failing : List Nat) :
    Except (PoolError × Recorded ScriptedSource UInt64)
      (Pool (Recorded ScriptedSource UInt64) UInt64) :=
  Pool.create config (Recorded.fresh (ScriptedSource.create none failing))

/-- A source that does not fail stocks the pool with three objects; one that fails at its third
request has the other two taken back; and one whose pool would have no worker is not called. -/
theorem create_leaks_nothing_sample :
    (∃ pool, stockedOpening stockedConfig [] = .ok pool ∧ pool.shared.toList = [0, 1, 2] ∧
      pool.source.calls = [.gave 2, .gave 1, .gave 0]) ∧
    (∃ left, stockedOpening stockedConfig [2] = .error (.prealloc 3 2, left) ∧
      left.calls = [.tookBack 1, .tookBack 0, .refused, .gave 1, .gave 0]) ∧
    stockedOpening { stockedConfig with workers := 0 } [] =
      .error (.config .noWorkers, Recorded.fresh (ScriptedSource.create none [])) := by
  refine ⟨?_, ?_, ?_⟩
  · obtain ⟨left, gives⟩ : ∃ left,
        ObjectSource.Gives (ScriptedSource.create none []) [0, 1, 2] left :=
      ⟨_, .next rfl (.next rfl (.next rfl (.nothing _)))⟩
    obtain ⟨pool, opens, -, shared, -, -, source⟩ :=
      (((create_leaks_nothing stockedConfig _).2 _ rfl).2 _ _ gives).1 rfl
    exact ⟨pool, opens, shared, congrArg Recorded.calls source⟩
  · obtain ⟨left, last, gives, refused⟩ : ∃ left last,
        ObjectSource.Gives (ScriptedSource.create none [2]) [0, 1] left ∧
          ObjectSource.alloc left = (none, last) :=
      ⟨_, _, .next rfl (.next rfl (.nothing _)), rfl⟩
    obtain ⟨obtained, number, fails⟩ :=
      (((create_leaks_nothing stockedConfig _).2 _ rfl).2 _ _ gives).2 (by decide) last refused
    obtain rfl : obtained = 2 := UInt32.toNat_inj.mp number
    exact ⟨_, fails, rfl⟩
  · exact (create_leaks_nothing { stockedConfig with workers := 0 } _).1 _ rfl

end RingPool

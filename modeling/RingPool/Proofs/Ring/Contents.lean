import RingPool.Proofs.Ring.Layout
import Mathlib.Data.List.Perm.Subperm

/-!
# What the grants of a side carry

The traffic of a side is the list of the values that went through its grants, in
the order of the grants and within a grant in the order of its slots; a slot that
was not accessed yet has no value.  For producers these are the values written,
for consumers the values read.  The place of a grant is where its values begin.
-/

set_option autoImplicit false

namespace RingPool

namespace Grant

variable {α : Type} {side : Side}

def values (grant : Grant α) : List (Option α) :=
  (List.range grant.size).map fun offset => grant.accesses.lookup offset

/-- The values of all slots that a side was granted. -/
def traffic (side : Side) (grants : List (Grant α)) : List (Option α) :=
  (onSide side grants).flatMap values

def Carries (side : Side) (grants : List (Grant α)) (position : Nat) (value : α) : Prop :=
  (traffic side grants)[position]? = some (some value)

/-- No slot of a grant was accessed twice, and no slot outside of it. -/
structure AccessedOnce (grant : Grant α) : Prop where
  nodup : (grant.accesses.map Prod.fst).Nodup
  inside : ∀ offset ∈ grant.accesses.map Prod.fst, offset < grant.size

def Complete (grant : Grant α) : Prop := grant.accesses.length = grant.size

/-! ## The values of one grant -/

@[simp] theorem values_length (grant : Grant α) : grant.values.length = grant.size := by
  simp [values]

@[simp] theorem values_settle (grant : Grant α) : grant.settle.values = grant.values := rfl

theorem values_accessed (grant : Grant α) (offset : Nat) (value : α) :
    (grant.accessed offset value).values = grant.values.set offset (some value) := by
  apply List.ext_getElem
  · simp
  · intro position inside _
    rw [List.getElem_set]
    by_cases same : offset = position
    · simp [values, accessed, same]
    · have other : (position == offset) = false := by simpa using Ne.symm same
      simp [values, accessed, same, List.lookup_cons, other]

theorem AccessedOnce.accessed {grant : Grant α} (once : grant.AccessedOnce) {offset : Nat}
    (inside : offset < grant.size) (fresh : offset ∉ grant.accesses.map Prod.fst) (value : α) :
    (grant.accessed offset value).AccessedOnce where
  nodup := List.nodup_cons.mpr ⟨fresh, once.nodup⟩
  inside := by
    intro other member
    rcases List.mem_cons.mp member with rfl | old
    · exact inside
    · exact once.inside other old

theorem AccessedOnce.settle {grant : Grant α} (once : grant.AccessedOnce) :
    grant.settle.AccessedOnce := ⟨once.nodup, once.inside⟩

theorem exists_of_mem_values {grant : Grant α} (once : grant.AccessedOnce)
    (complete : grant.Complete) {entry : Option α} (member : entry ∈ grant.values) :
    ∃ value, entry = some value := by
  obtain ⟨offset, inside, rfl⟩ := List.mem_map.mp member
  have covered : (grant.accesses.map Prod.fst).Perm (List.range grant.size) := by
    have within : grant.accesses.map Prod.fst ⊆ List.range grant.size := by
      intro key keyMember
      exact List.mem_range.mpr (once.inside key keyMember)
    refine (List.Nodup.subperm once.nodup within).perm_of_length_le ?_
    rw [List.length_range, List.length_map, complete]
  obtain ⟨⟨key, value⟩, keyMember, rfl⟩ := List.mem_map.mp (covered.mem_iff.mpr inside)
  refine Option.isSome_iff_exists.mp (List.lookup_isSome_iff.mpr ⟨_, keyMember, ?_⟩)
  exact beq_self_eq_true key

/-! ## The values of a side -/

@[simp] theorem traffic_append (side : Side) (first second : List (Grant α)) :
    traffic side (first ++ second) = traffic side first ++ traffic side second := by
  simp [traffic]

theorem traffic_cons (side : Side) (grant : Grant α) (rest : List (Grant α)) :
    traffic side (grant :: rest) =
      (if grant.reservation.side = side then grant.values else []) ++ traffic side rest := by
  unfold traffic
  rw [onSide_cons]
  split <;> simp

theorem flatMap_values_length (grants : List (Grant α)) :
    (grants.flatMap values).length = totalSize grants := by
  induction grants with
  | nil => rfl
  | cons grant rest inductionHypothesis =>
      rw [List.flatMap_cons, List.length_append, values_length, inductionHypothesis,
        totalSize_cons]

@[simp] theorem traffic_length (side : Side) (grants : List (Grant α)) :
    (traffic side grants).length = reservedOn side grants :=
  flatMap_values_length (onSide side grants)

theorem traffic_settle (side : Side) (before after : List (Grant α)) (grant : Grant α) :
    traffic side (before ++ grant.settle :: after) = traffic side (before ++ grant :: after) := by
  rw [traffic_append, traffic_append, traffic_cons, traffic_cons, values_settle,
    settle_reservation]

theorem traffic_accessed_self (before after : List (Grant α)) {grant : Grant α} {offset : Nat}
    (same : grant.reservation.side = side) (inside : offset < grant.size) (value : α) :
    traffic side (before ++ grant.accessed offset value :: after) =
      (traffic side (before ++ grant :: after)).set (reservedOn side before + offset)
        (some value) := by
  rw [traffic_append, traffic_append, traffic_cons, traffic_cons, accessed_reservation,
    if_pos same, if_pos same, values_accessed, List.set_append_right _ _ (by simp),
    traffic_length, Nat.add_sub_cancel_left, List.set_append_left _ _ (by simpa using inside)]

theorem traffic_accessed_other (before after : List (Grant α)) {grant : Grant α}
    (different : grant.reservation.side ≠ side) (offset : Nat) (value : α) :
    traffic side (before ++ grant.accessed offset value :: after) =
      traffic side (before ++ grant :: after) := by
  rw [traffic_append, traffic_append, traffic_cons, traffic_cons, accessed_reservation,
    if_neg different, if_neg different]

/-! ## The value at a position -/

theorem Carries.lt {grants : List (Grant α)} {position : Nat} {value : α}
    (carries : Carries side grants position value) : position < reservedOn side grants := by
  rw [← traffic_length]
  exact (List.getElem?_eq_some_iff.mp carries).1

theorem Carries.unique {grants : List (Grant α)} {position : Nat} {first second : α}
    (carries : Carries side grants position first)
    (other : Carries side grants position second) : first = second :=
  Option.some.inj (Option.some.inj (carries.symm.trans other))

theorem carries_granted {grants : List (Grant α)} {grant : Grant α}
    (untouched : grant.accesses = []) {position : Nat} {value : α} :
    Carries side (grants ++ [grant]) position value ↔ Carries side grants position value := by
  unfold Carries
  rw [traffic_append]
  by_cases inside : position < (traffic side grants).length
  · rw [List.getElem?_append_left inside]
  · have absent : (traffic side grants)[position]? = none :=
      List.getElem?_eq_none (Nat.le_of_not_lt inside)
    rw [List.getElem?_append_right (Nat.le_of_not_lt inside), absent]
    constructor
    · intro carries
      have member := List.mem_of_getElem? carries
      have empty : ∀ entry ∈ traffic side [grant], entry = none := by
        rw [traffic_cons]
        split <;> simp [traffic, onSide, values, untouched]
      cases empty _ member
    · intro contrary
      cases contrary

theorem carries_settle {before after : List (Grant α)} {grant : Grant α} {position : Nat}
    {value : α} :
    Carries side (before ++ grant.settle :: after) position value ↔
      Carries side (before ++ grant :: after) position value := by
  unfold Carries
  rw [traffic_settle]

theorem carries_accessed_self {before after : List (Grant α)} {grant : Grant α} {offset : Nat}
    (same : grant.reservation.side = side) (inside : offset < grant.size) (value : α) :
    Carries side (before ++ grant.accessed offset value :: after)
      (reservedOn side before + offset) value := by
  unfold Carries
  rw [traffic_accessed_self before after same inside, List.getElem?_set_self]
  rw [traffic_length, reservedOn_append, reservedOn_cons, if_pos same]
  omega

theorem carries_accessed_ne {before after : List (Grant α)} {grant : Grant α} {offset : Nat}
    (same : grant.reservation.side = side) (inside : offset < grant.size) {position : Nat}
    {value other : α} (elsewhere : reservedOn side before + offset ≠ position) :
    Carries side (before ++ grant.accessed offset value :: after) position other ↔
      Carries side (before ++ grant :: after) position other := by
  unfold Carries
  rw [traffic_accessed_self before after same inside, List.getElem?_set_ne elsewhere]

theorem carries_accessed_other {before after : List (Grant α)} {grant : Grant α}
    (different : grant.reservation.side ≠ side) {offset : Nat} {position : Nat}
    {value other : α} :
    Carries side (before ++ grant.accessed offset value :: after) position other ↔
      Carries side (before ++ grant :: after) position other := by
  unfold Carries
  rw [traffic_accessed_other before after different]

theorem exists_carries {origin : Cursor} {core : Core α} {grants : List (Grant α)}
    (layout : Layout origin core grants) (once : ∀ grant ∈ grants, grant.AccessedOnce)
    (whole : ∀ grant ∈ grants, grant.published = true → grant.Complete) {position : Nat}
    (published : position < publishedOn side grants) :
    ∃ value, Carries side grants position value := by
  have parts : traffic side grants =
      (settledOn side grants).flatMap values ++ (pendingOn side grants).flatMap values := by
    rw [traffic, layout.onSide_eq_append, List.flatMap_append]
  have inside : position < ((settledOn side grants).flatMap values).length := by
    rw [flatMap_values_length]
    exact published
  have found := List.getElem?_eq_getElem inside
  obtain ⟨grant, settled, member⟩ := List.mem_flatMap.mp (List.mem_of_getElem? found)
  obtain ⟨known, -, isPublished⟩ := mem_settledOn.mp settled
  obtain ⟨value, entry⟩ := exists_of_mem_values (once grant known)
    (whole grant known isPublished) member
  refine ⟨value, ?_⟩
  rw [Carries, parts, List.getElem?_append_left inside, found, entry]

end Grant

end RingPool

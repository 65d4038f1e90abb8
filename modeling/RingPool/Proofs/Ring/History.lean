import RingPool.Ring.Interleaving
import RingPool.Proofs.Ring.Counter

/-!
# The grants of a ring as a history

The grants of a side are split into those that are published (`settledOn`) and
those that are not (`pendingOn`), each in the order of the grants.  `Tiles` says
that ranges lead from one cursor to another without gap or overlap; the sizes of
the ranges then add up to the distance of the two cursors.  The place of a grant
is the number of slots that its side had reserved before it.
-/

set_option autoImplicit false

namespace RingPool

namespace Grant

variable {α : Type}

def onSide (side : Side) (grants : List (Grant α)) : List (Grant α) :=
  grants.filter fun grant => grant.reservation.side == side

def settledOn (side : Side) (grants : List (Grant α)) : List (Grant α) :=
  (onSide side grants).filter Grant.published

def pendingOn (side : Side) (grants : List (Grant α)) : List (Grant α) :=
  (onSide side grants).filter fun grant => !grant.published

def reservedOn (side : Side) (grants : List (Grant α)) : Nat := totalSize (onSide side grants)

def publishedOn (side : Side) (grants : List (Grant α)) : Nat :=
  totalSize (settledOn side grants)

/-- Consecutive ranges that lead from one cursor to another. -/
def Tiles : Cursor → List (Grant α) → Cursor → Prop
  | first, [], last => first = last
  | first, grant :: rest, last =>
      grant.reservation.head = first ∧ Tiles grant.reservation.next rest last

@[simp] theorem settle_reservation (grant : Grant α) :
    grant.settle.reservation = grant.reservation := rfl

@[simp] theorem settle_size (grant : Grant α) : grant.settle.size = grant.size := rfl

@[simp] theorem settle_published (grant : Grant α) : grant.settle.published = true := rfl

@[simp] theorem accessed_reservation (grant : Grant α) (offset : Nat) (value : α) :
    (grant.accessed offset value).reservation = grant.reservation := rfl

@[simp] theorem accessed_size (grant : Grant α) (offset : Nat) (value : α) :
    (grant.accessed offset value).size = grant.size := rfl

@[simp] theorem accessed_published (grant : Grant α) (offset : Nat) (value : α) :
    (grant.accessed offset value).published = grant.published := rfl

/-! ## Lists of grants cut in two -/

@[simp] theorem totalSize_nil : totalSize ([] : List (Grant α)) = 0 := rfl

@[simp] theorem totalSize_cons (grant : Grant α) (rest : List (Grant α)) :
    totalSize (grant :: rest) = grant.size + totalSize rest := rfl

@[simp] theorem totalSize_append (first second : List (Grant α)) :
    totalSize (first ++ second) = totalSize first + totalSize second := by
  induction first with
  | nil => simp
  | cons grant rest inductionHypothesis =>
      rw [List.cons_append, totalSize_cons, totalSize_cons, inductionHypothesis]
      omega

@[simp] theorem onSide_append (side : Side) (first second : List (Grant α)) :
    onSide side (first ++ second) = onSide side first ++ onSide side second :=
  List.filter_append first second

theorem onSide_cons (side : Side) (grant : Grant α) (rest : List (Grant α)) :
    onSide side (grant :: rest) =
      if grant.reservation.side = side then grant :: onSide side rest else onSide side rest := by
  simp [onSide, List.filter_cons]

@[simp] theorem settledOn_append (side : Side) (first second : List (Grant α)) :
    settledOn side (first ++ second) = settledOn side first ++ settledOn side second := by
  simp [settledOn]

theorem settledOn_cons (side : Side) (grant : Grant α) (rest : List (Grant α)) :
    settledOn side (grant :: rest) =
      if grant.reservation.side = side ∧ grant.published = true then
        grant :: settledOn side rest
      else settledOn side rest := by
  by_cases same : grant.reservation.side = side <;>
    simp [settledOn, onSide_cons, List.filter_cons, same]

@[simp] theorem pendingOn_append (side : Side) (first second : List (Grant α)) :
    pendingOn side (first ++ second) = pendingOn side first ++ pendingOn side second := by
  simp [pendingOn]

theorem pendingOn_cons (side : Side) (grant : Grant α) (rest : List (Grant α)) :
    pendingOn side (grant :: rest) =
      if grant.reservation.side = side ∧ grant.published = false then
        grant :: pendingOn side rest
      else pendingOn side rest := by
  by_cases same : grant.reservation.side = side <;>
    simp [pendingOn, onSide_cons, List.filter_cons, same]

@[simp] theorem reservedOn_append (side : Side) (first second : List (Grant α)) :
    reservedOn side (first ++ second) = reservedOn side first + reservedOn side second := by
  simp [reservedOn]

theorem reservedOn_cons (side : Side) (grant : Grant α) (rest : List (Grant α)) :
    reservedOn side (grant :: rest) =
      (if grant.reservation.side = side then grant.size else 0) + reservedOn side rest := by
  unfold reservedOn
  rw [onSide_cons]
  split <;> simp

@[simp] theorem publishedOn_append (side : Side) (first second : List (Grant α)) :
    publishedOn side (first ++ second) = publishedOn side first + publishedOn side second := by
  simp [publishedOn]

theorem publishedOn_cons (side : Side) (grant : Grant α) (rest : List (Grant α)) :
    publishedOn side (grant :: rest) =
      (if grant.reservation.side = side ∧ grant.published = true then grant.size else 0) +
        publishedOn side rest := by
  unfold publishedOn
  rw [settledOn_cons]
  split <;> simp

theorem mem_onSide {side : Side} {grants : List (Grant α)} {grant : Grant α} :
    grant ∈ onSide side grants ↔ grant ∈ grants ∧ grant.reservation.side = side := by
  simp [onSide]

theorem mem_settledOn {side : Side} {grants : List (Grant α)} {grant : Grant α} :
    grant ∈ settledOn side grants ↔
      grant ∈ grants ∧ grant.reservation.side = side ∧ grant.published = true := by
  simp [settledOn, mem_onSide, and_assoc]

theorem mem_pendingOn {side : Side} {grants : List (Grant α)} {grant : Grant α} :
    grant ∈ pendingOn side grants ↔
      grant ∈ grants ∧ grant.reservation.side = side ∧ grant.published = false := by
  simp [pendingOn, mem_onSide, and_assoc]

theorem reservedOn_eq_add (side : Side) (grants : List (Grant α)) :
    reservedOn side grants = publishedOn side grants + totalSize (pendingOn side grants) := by
  induction grants with
  | nil => rfl
  | cons grant rest inductionHypothesis =>
      rw [reservedOn_cons, publishedOn_cons, pendingOn_cons, inductionHypothesis]
      cases published : grant.published <;>
        by_cases same : grant.reservation.side = side <;> simp [same] <;> omega

theorem publishedOn_le_reservedOn (side : Side) (grants : List (Grant α)) :
    publishedOn side grants ≤ reservedOn side grants := by
  rw [reservedOn_eq_add]
  omega

theorem settledOn_granted (side : Side) (grants : List (Grant α)) {grant : Grant α}
    (waiting : grant.published = false) :
    settledOn side (grants ++ [grant]) = settledOn side grants := by
  have none : settledOn side [grant] = [] := by
    rw [settledOn_cons, waiting]
    simp [settledOn, onSide]
  rw [settledOn_append, none, List.append_nil]

theorem publishedOn_granted (side : Side) (grants : List (Grant α)) {grant : Grant α}
    (waiting : grant.published = false) :
    publishedOn side (grants ++ [grant]) = publishedOn side grants :=
  congrArg totalSize (settledOn_granted side grants waiting)

/-! ## Tilings -/

@[simp] theorem tiles_nil {first last : Cursor} :
    Tiles first ([] : List (Grant α)) last ↔ first = last := Iff.rfl

@[simp] theorem tiles_cons {first last : Cursor} {grant : Grant α} {rest : List (Grant α)} :
    Tiles first (grant :: rest) last ↔
      grant.reservation.head = first ∧ Tiles grant.reservation.next rest last := Iff.rfl

theorem tiles_append {first last : Cursor} {before after : List (Grant α)} :
    Tiles first (before ++ after) last ↔
      ∃ middle, Tiles first before middle ∧ Tiles middle after last := by
  induction before generalizing first with
  | nil => simp
  | cons grant rest inductionHypothesis =>
      rw [List.cons_append, tiles_cons, inductionHypothesis]
      constructor
      · rintro ⟨head, middle, left, right⟩
        exact ⟨middle, ⟨head, left⟩, right⟩
      · rintro ⟨middle, ⟨head, left⟩, right⟩
        exact ⟨head, middle, left, right⟩

theorem next_eq_cursorAt (grant : Grant α) :
    grant.reservation.next = cursorAt grant.reservation.head grant.size := by
  rw [cursorAt, size, UInt32.ofNat_toNat, Reservation.len, UInt32.add_comm, UInt32.sub_add_cancel]

theorem tiles_last {first last : Cursor} {grants : List (Grant α)}
    (tiles : Tiles first grants last) : last = cursorAt first (totalSize grants) := by
  induction grants generalizing first with
  | nil => simpa using tiles.symm
  | cons grant rest inductionHypothesis =>
      obtain ⟨head, tail⟩ := tiles
      rw [inductionHypothesis tail, next_eq_cursorAt, head, totalSize_cons, cursorAt_add]

/-- In a tiling a range begins where those before it end. -/
theorem tiles_head {first last : Cursor} {before after : List (Grant α)} {grant : Grant α}
    (tiles : Tiles first (before ++ grant :: after) last) :
    grant.reservation.head = cursorAt first (totalSize before) := by
  obtain ⟨middle, left, head, -⟩ := tiles_append.mp tiles
  rw [head, tiles_last left]

theorem eq_nil_of_totalSize_eq_zero {grants : List (Grant α)}
    (sized : ∀ grant ∈ grants, 0 < grant.size) (empty : totalSize grants = 0) :
    grants = [] := by
  cases grants with
  | nil => rfl
  | cons grant rest =>
      have positive := sized grant List.mem_cons_self
      rw [totalSize_cons] at empty
      omega

/-! ## One grant of a history -/

theorem split_of_getElem? {grants : List (Grant α)} {index : Nat} {grant : Grant α}
    (found : grants[index]? = some grant) :
    ∃ before after, grants = before ++ grant :: after ∧ before.length = index := by
  obtain ⟨inside, rfl⟩ := List.getElem?_eq_some_iff.mp found
  refine ⟨grants.take index, grants.drop (index + 1), ?_, ?_⟩
  · rw [List.getElem_cons_drop, List.take_append_drop]
  · rw [List.length_take]
    omega

theorem modify_split (before after : List (Grant α)) (grant : Grant α)
    (change : Grant α → Grant α) :
    (before ++ grant :: after).modify before.length change = before ++ change grant :: after := by
  induction before with
  | nil => rfl
  | cons first rest inductionHypothesis =>
      rw [List.cons_append, List.length_cons, List.modify_succ_cons, inductionHypothesis,
        List.cons_append]

theorem set_split (before after : List (Grant α)) (grant changed : Grant α) :
    (before ++ grant :: after).set before.length changed = before ++ changed :: after := by
  simp

theorem getElem?_split_ne (before after : List (Grant α)) (grant changed : Grant α) {index : Nat}
    (different : index ≠ before.length) :
    (before ++ changed :: after)[index]? = (before ++ grant :: after)[index]? := by
  rw [← set_split before after grant changed, List.getElem?_set_ne (Ne.symm different)]

theorem getElem?_split (before after : List (Grant α)) (grant : Grant α) :
    (before ++ grant :: after)[before.length]? = some grant := by
  simp

theorem forall_mem_split {property : Grant α → Prop} {before after : List (Grant α)}
    {grant changed : Grant α} (all : ∀ other ∈ before ++ grant :: after, property other)
    (new : property changed) : ∀ other ∈ before ++ changed :: after, property other := by
  intro other member
  rcases List.mem_append.mp member with old | rest
  · exact all other (List.mem_append_left _ old)
  · rcases List.mem_cons.mp rest with rfl | old
    · exact new
    · exact all other (List.mem_append_right _ (List.mem_cons_of_mem _ old))

/-- The number of slots that the side of a grant had reserved before it. -/
def place (grants : List (Grant α)) (index : Nat) (side : Side) : Nat :=
  reservedOn side (grants.take index)

theorem place_split (before after : List (Grant α)) (grant : Grant α) (side : Side) :
    place (before ++ grant :: after) before.length side = reservedOn side before := by
  simp [place]

theorem place_add_size_le {grants : List (Grant α)} {index : Nat} {grant : Grant α}
    (found : grants[index]? = some grant) :
    place grants index grant.reservation.side + grant.size ≤
      reservedOn grant.reservation.side grants := by
  obtain ⟨before, after, rfl, rfl⟩ := split_of_getElem? found
  rw [place_split, reservedOn_append, reservedOn_cons, if_pos rfl]
  omega

theorem place_add_size_le_place {grants : List (Grant α)} {index later : Nat} {grant : Grant α}
    (found : grants[index]? = some grant) (after : index < later) :
    place grants index grant.reservation.side + grant.size ≤
      place grants later grant.reservation.side := by
  have kept : (grants.take later)[index]? = some grant := by
    rw [List.getElem?_take_of_lt after]
    exact found
  have within := place_add_size_le kept
  rw [place, List.take_take, Nat.min_eq_left (by omega)] at within
  exact within

/-! ## Grants that are published or accessed -/

theorem reservedOn_settle (side : Side) (before after : List (Grant α)) (grant : Grant α) :
    reservedOn side (before ++ grant.settle :: after) =
      reservedOn side (before ++ grant :: after) := by
  rw [reservedOn_append, reservedOn_append, reservedOn_cons, reservedOn_cons]
  rfl

theorem publishedOn_settle (side : Side) (before after : List (Grant α)) {grant : Grant α}
    (waiting : grant.published = false) :
    publishedOn side (before ++ grant.settle :: after) =
      publishedOn side (before ++ grant :: after) +
        if grant.reservation.side = side then grant.size else 0 := by
  rw [publishedOn_append, publishedOn_append, publishedOn_cons, publishedOn_cons, waiting]
  simp only [settle_reservation, settle_published, settle_size, and_true, and_false,
    Bool.false_eq_true, if_false]
  omega

theorem reservedOn_accessed (side : Side) (before after : List (Grant α)) (grant : Grant α)
    (offset : Nat) (value : α) :
    reservedOn side (before ++ grant.accessed offset value :: after) =
      reservedOn side (before ++ grant :: after) := by
  rw [reservedOn_append, reservedOn_append, reservedOn_cons, reservedOn_cons]
  rfl

theorem publishedOn_accessed (side : Side) (before after : List (Grant α)) (grant : Grant α)
    (offset : Nat) (value : α) :
    publishedOn side (before ++ grant.accessed offset value :: after) =
      publishedOn side (before ++ grant :: after) := by
  rw [publishedOn_append, publishedOn_append, publishedOn_cons, publishedOn_cons]
  rfl

end Grant

end RingPool

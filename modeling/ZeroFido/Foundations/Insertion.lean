import Mathlib.Data.List.DropRight

/-!
# Insertion from the end

An insertion sort that walks back from the end of the sorted part: `insertLate` puts an element
after every element it does not come before. For a comparison that is a strict weak order the
position does not depend on elements that are filtered out later, so sorting and filtering commute
(`filter_foldl_insertLate`).
-/

set_option autoImplicit false
set_option relaxedAutoImplicit false

namespace ZeroFido.Foundations

variable {Value : Type} (before : Value → Value → Bool)

/-- Inserts behind the elements at the end that the new one comes before. -/
def insertLate (new : Value) (list : List Value) : List Value :=
  list.rdropWhile (before new) ++ new :: list.rtakeWhile (before new)

/-- No element comes before an earlier one. -/
def InOrder (list : List Value) : Prop :=
  list.Pairwise fun first second ↦ before second first = false

/-- A comparison whose incomparability is transitive. -/
structure WeakOrder : Prop where
  asymm : ∀ first second, before first second = true → before second first = false
  not_trans : ∀ first second third, before second first = false → before third second = false →
    before third first = false

variable {before} {new : Value} {list : List Value}

/-- In an ordered list the elements a new one comes before stand together at the end. -/
theorem rtakeWhile_eq_filter (hbefore : WeakOrder before) (hlist : InOrder before list) :
    list.rtakeWhile (before new) = list.filter (before new) ∧
      list.rdropWhile (before new) = list.filter fun value ↦ !before new value := by
  induction list using List.reverseRecOn with
  | nil => simp
  | append_singleton list last ih =>
    unfold InOrder at hlist
    rw [List.pairwise_append] at hlist
    obtain ⟨hlist, -, hlast⟩ := hlist
    obtain ⟨htake, hdrop⟩ := ih hlist
    by_cases hnew : before new last = true
    · rw [List.rtakeWhile_concat_pos _ _ _ hnew, List.rdropWhile_concat_pos _ _ _ hnew, htake,
        hdrop]
      simp [hnew]
    · -- Nothing earlier in the list can come after `new` either.
      have hearlier : ∀ value ∈ list, before new value = false := by
        intro value hvalue
        exact hbefore.not_trans value last new (hlast value hvalue last (by simp))
          (by simpa using hnew)
      have htail : list.filter (before new) = [] :=
        List.filter_eq_nil_iff.mpr fun value hvalue ↦ by simp [hearlier value hvalue]
      have hhead : (list.filter fun value ↦ !before new value) = list :=
        List.filter_eq_self.mpr fun value hvalue ↦ by simp [hearlier value hvalue]
      rw [List.rtakeWhile_concat_neg _ _ _ hnew, List.rdropWhile_concat_neg _ _ _ hnew,
        List.filter_append, List.filter_append, htail, hhead]
      simp [hnew]

theorem insertLate_eq (hbefore : WeakOrder before) (hlist : InOrder before list) :
    insertLate before new list = (list.filter fun value ↦ !before new value) ++
      new :: list.filter (before new) := by
  obtain ⟨htake, hdrop⟩ := rtakeWhile_eq_filter hbefore hlist
  rw [insertLate, htake, hdrop]

theorem inOrder_insertLate (hbefore : WeakOrder before) (hlist : InOrder before list) :
    InOrder before (insertLate before new list) := by
  rw [insertLate_eq hbefore hlist]
  unfold InOrder at hlist ⊢
  rw [List.pairwise_append, List.pairwise_cons]
  refine ⟨hlist.filter _, ⟨fun value hvalue ↦ ?_, hlist.filter _⟩, ?_⟩
  · exact hbefore.asymm new value (List.mem_filter.mp hvalue).2
  · intro first hfirst second hsecond
    obtain ⟨-, hfirst⟩ := List.mem_filter.mp hfirst
    rw [Bool.not_eq_true'] at hfirst
    obtain rfl | hsecond := List.mem_cons.mp hsecond
    · exact hfirst
    · -- `second` comes after `new`, which does not come before `first`.
      obtain ⟨-, hsecond⟩ := List.mem_filter.mp hsecond
      exact hbefore.not_trans first new second hfirst (hbefore.asymm new second hsecond)

/-- Filtering after an insertion is filtering before it, with the new element if it is kept. -/
theorem filter_insertLate (hbefore : WeakOrder before) (hlist : InOrder before list)
    (keep : Value → Bool) :
    (insertLate before new list).filter keep =
      if keep new then insertLate before new (list.filter keep) else list.filter keep := by
  have hcomm (p : Value → Bool) : (list.filter p).filter keep = (list.filter keep).filter p := by
    rw [List.filter_filter, List.filter_filter]
    exact List.filter_congr fun value _ ↦ Bool.and_comm _ _
  have hfiltered : InOrder before (list.filter keep) := List.Pairwise.filter keep hlist
  rw [insertLate_eq hbefore hlist, List.filter_append, List.filter_cons, hcomm, hcomm]
  split_ifs with hkeep
  · rw [insertLate_eq hbefore hfiltered]
  · obtain ⟨htake, hdrop⟩ := rtakeWhile_eq_filter hbefore hfiltered
    rw [← htake, ← hdrop, List.rdropWhile_append_rtakeWhile]

/-- Sorting and filtering commute. -/
theorem filter_foldl_insertLate (hbefore : WeakOrder before) (hlist : InOrder before list)
    (keep : Value → Bool) (values : List Value) :
    (values.foldl (fun sorted value ↦ insertLate before value sorted) list).filter keep =
      (values.filter keep).foldl (fun sorted value ↦ insertLate before value sorted)
        (list.filter keep) := by
  induction values generalizing list with
  | nil => rfl
  | cons value values ih =>
    rw [List.foldl_cons, ih (inOrder_insertLate hbefore hlist), filter_insertLate hbefore hlist,
      List.filter_cons]
    split_ifs with hkeep
    · rfl
    · rfl

theorem perm_insertLate : (insertLate before new list).Perm (new :: list) := by
  have hsplit : (insertLate before new list).Perm
      (new :: (list.rdropWhile (before new) ++ list.rtakeWhile (before new))) := List.perm_middle
  rwa [List.rdropWhile_append_rtakeWhile] at hsplit

/-- Inserting one value after the other sorts them. -/
theorem sorted_foldl_insertLate (hbefore : WeakOrder before) (hlist : InOrder before list)
    (values : List Value) :
    InOrder before (values.foldl (fun sorted value ↦ insertLate before value sorted) list) ∧
      (values.foldl (fun sorted value ↦ insertLate before value sorted) list).Perm
        (values ++ list) := by
  induction values generalizing list with
  | nil => exact ⟨hlist, List.Perm.refl list⟩
  | cons value values ih =>
    obtain ⟨hinOrder, hperm⟩ := ih (inOrder_insertLate hbefore hlist)
    refine ⟨hinOrder, hperm.trans ?_⟩
    exact (perm_insertLate.append_left values).trans List.perm_middle

/-- Inserting commutes with a map along which the comparison is pulled back. -/
theorem map_insertLate {Index : Type} (value : Index → Value) (index : Index) (list : List Index) :
    (insertLate (fun first second ↦ before (value first) (value second)) index list).map value =
      insertLate before (value index) (list.map value) := by
  have hreverse (p : Value → Bool) :
      (list.map value).rtakeWhile p = (list.rtakeWhile (p ∘ value)).map value ∧
      (list.map value).rdropWhile p = (list.rdropWhile (p ∘ value)).map value := by
    simp only [List.rtakeWhile, List.rdropWhile, ← List.map_reverse, List.takeWhile_map,
      List.dropWhile_map, and_self]
  obtain ⟨htake, hdrop⟩ := hreverse (before (value index))
  rw [insertLate, insertLate, htake, hdrop, List.map_append, List.map_cons]
  rfl

end ZeroFido.Foundations

import Mathlib.Data.List.Basic

/-!
# Compaction

The positions of the elements with a property, in ascending order, and a list from which they are
erased. Erasing the last position first leaves the elements without the property in their order
(`foldr_eraseIdx_positions`).
-/

set_option autoImplicit false
set_option relaxedAutoImplicit false

namespace ZeroFido.Foundations

variable {Value : Type} (selects : Value → Bool)

/-- The positions of the elements with the property, in a list that begins at a position. -/
def positionsFrom (list : List Value) (start : ℕ) : List ℕ :=
  ((list.zipIdx start).filter fun entry ↦ selects entry.1).map Prod.snd

/-- The positions of the elements with the property. -/
def positions (list : List Value) : List ℕ := positionsFrom selects list 0

@[simp]
theorem positionsFrom_nil (start : ℕ) : positionsFrom selects [] start = [] := rfl

variable {selects} {value : Value} {list : List Value} {start index : ℕ}

theorem positionsFrom_cons_pos (h : selects value = true) :
    positionsFrom selects (value :: list) start =
      start :: positionsFrom selects list (start + 1) := by
  simp [positionsFrom, List.zipIdx_cons, h]

theorem positionsFrom_cons_neg (h : selects value = false) :
    positionsFrom selects (value :: list) start = positionsFrom selects list (start + 1) := by
  simp [positionsFrom, List.zipIdx_cons, h]

/-- The property may be replaced by one that is the same on the list. -/
theorem positionsFrom_congr {selects' : Value → Bool}
    (h : ∀ value ∈ list, selects' value = selects value) :
    positionsFrom selects' list start = positionsFrom selects list start := by
  induction list generalizing start with
  | nil => rfl
  | cons head tail ih =>
    rw [List.forall_mem_cons] at h
    by_cases hhead : selects head = true
    · rw [positionsFrom_cons_pos hhead, positionsFrom_cons_pos (h.1.trans hhead), ih h.2]
    · rw [Bool.not_eq_true] at hhead
      rw [positionsFrom_cons_neg hhead, positionsFrom_cons_neg (h.1.trans hhead), ih h.2]

theorem length_positionsFrom :
    (positionsFrom selects list start).length = (list.filter selects).length := by
  induction list generalizing start with
  | nil => rfl
  | cons head tail ih =>
    by_cases hhead : selects head = true
    · rw [positionsFrom_cons_pos hhead, List.filter_cons_of_pos hhead, List.length_cons,
        List.length_cons, ih]
    · rw [List.filter_cons_of_neg hhead, positionsFrom_cons_neg (Bool.not_eq_true _ ▸ hhead), ih]

theorem exists_of_mem_positions (h : index ∈ positions selects list) :
    ∃ value, list[index]? = some value ∧ selects value = true := by
  obtain ⟨⟨value, position⟩, hmem, rfl⟩ := List.mem_map.mp h
  obtain ⟨hentry, hselects⟩ := List.mem_filter.mp hmem
  exact ⟨value, List.mem_zipIdx_iff_getElem?.mp hentry, hselects⟩

theorem mem_positions (h : list[index]? = some value) (hselects : selects value = true) :
    index ∈ positions selects list :=
  List.mem_map.mpr ⟨(value, index), List.mem_filter.mpr
    ⟨List.mem_zipIdx_iff_getElem?.mpr h, hselects⟩, rfl⟩

/-- Erasing the positions behind a list of elements that stay, the last one first. -/
theorem foldr_eraseIdx_positionsFrom (front : List Value) :
    (positionsFrom selects list front.length).foldr (fun index list ↦ list.eraseIdx index)
      (front ++ list) = front ++ list.filter fun value ↦ !selects value := by
  induction list generalizing front with
  | nil => rfl
  | cons head tail ih =>
    have htail := ih (front ++ [head])
    rw [List.length_append, List.length_singleton, List.append_assoc, List.singleton_append] at htail
    by_cases hhead : selects head = true
    · rw [positionsFrom_cons_pos hhead, List.foldr_cons, htail, List.filter_cons_of_neg (by simpa),
        List.append_assoc, List.eraseIdx_append_of_length_le (Nat.le_refl _), Nat.sub_self]
      rfl
    · rw [Bool.not_eq_true] at hhead
      rw [positionsFrom_cons_neg hhead, htail, List.filter_cons_of_pos (by simp [hhead]),
        List.append_assoc]
      rfl

/-- Erasing every position, the last one first. -/
theorem foldr_eraseIdx_positions :
    (positions selects list).foldr (fun index list ↦ list.eraseIdx index) list =
      list.filter fun value ↦ !selects value :=
  foldr_eraseIdx_positionsFrom []

/-- What is left when positions in ascending order are erased, the last one first, was at none of
them. -/
theorem exists_of_mem_foldr_eraseIdx {indices : List ℕ} (hsorted : indices.Pairwise (· < ·))
    (h : value ∈ indices.foldr (fun index list ↦ list.eraseIdx index) list) :
    ∃ index, list[index]? = some value ∧ index ∉ indices := by
  -- A position before the erased ones is the same in the list that is left.
  have hposition : ∀ (indices : List ℕ) (index : ℕ), indices.Pairwise (· < ·) →
      (indices.foldr (fun index list ↦ list.eraseIdx index) list)[index]? = some value →
      ∃ original, list[original]? = some value ∧ original ∉ indices ∧ index ≤ original ∧
        ((∀ erased ∈ indices, index < erased) → original = index) := by
    intro indices
    induction indices with
    | nil => exact fun index _ hvalue ↦ ⟨index, hvalue, by simp, Nat.le_refl _, fun _ ↦ rfl⟩
    | cons first rest ih =>
      intro index hsorted hvalue
      obtain ⟨hfirst, hrest⟩ := List.pairwise_cons.mp hsorted
      rw [List.foldr_cons, List.getElem?_eraseIdx] at hvalue
      split_ifs at hvalue with hbefore
      · obtain ⟨original, horiginal, hnot, hle, hsame⟩ := ih index hrest hvalue
        have heq := hsame fun erased herased ↦ Nat.lt_trans hbefore (hfirst erased herased)
        refine ⟨original, horiginal, ?_, hle, fun _ ↦ heq⟩
        rw [List.mem_cons, not_or]
        exact ⟨by omega, hnot⟩
      · obtain ⟨original, horiginal, hnot, hle, -⟩ := ih (index + 1) hrest hvalue
        refine ⟨original, horiginal, ?_, by omega, fun hall ↦ ?_⟩
        · rw [List.mem_cons, not_or]
          exact ⟨by omega, hnot⟩
        · exact absurd (hall first List.mem_cons_self) hbefore
  obtain ⟨index, hindex⟩ := List.mem_iff_getElem?.mp h
  obtain ⟨original, horiginal, hnot, -⟩ := hposition indices index hsorted hindex
  exact ⟨original, horiginal, hnot⟩

/-- Erasing one element is leaving out those with its key, when no two have the same. -/
theorem eraseIdx_eq_filter {Key : Type} [DecidableEq Key] {key : Value → Key}
    (hdistinct : (list.map key).Nodup) (h : list[index]? = some value) :
    list.eraseIdx index = list.filter fun other ↦ decide (key other ≠ key value) := by
  induction list generalizing index with
  | nil => exact absurd h (by simp)
  | cons head tail ih =>
    rw [List.map_cons, List.nodup_cons] at hdistinct
    obtain ⟨hhead, htail⟩ := hdistinct
    cases index with
    | zero =>
      obtain rfl : head = value := Option.some.inj h
      rw [List.eraseIdx_cons_zero, List.filter_cons_of_neg (by simp), List.filter_eq_self.mpr]
      intro other hother
      exact decide_eq_true fun hsame ↦ hhead (hsame ▸ List.mem_map_of_mem hother)
    | succ index =>
      rw [List.getElem?_cons_succ] at h
      have hne : key head ≠ key value := fun hsame ↦
        hhead (hsame ▸ List.mem_map_of_mem (List.mem_of_getElem? h))
      rw [List.eraseIdx_cons_succ, List.filter_cons_of_pos (by simpa using hne), ih htail h]

end ZeroFido.Foundations

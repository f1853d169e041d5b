/-
Tables that are given column by column.

A block has columns of the same length; its rows are read across the columns.  The
rows of several blocks one after the other are the rows of the columns that are
joined.
-/
import Mathlib.Data.List.Basic
import Mathlib.Data.List.Range

namespace Relational

variable {α : Type} {m : ℕ}

/-- The rows of columns, as many as the first column has entries. -/
def rowsOf (columns : List (List (Option α))) : List (List (Option α)) :=
  (List.range (columns.headD []).length).map fun k => columns.map fun column => column.getD k none

/-- A number of columns of the same length. -/
structure Rectangular (m : ℕ) (columns : List (List (Option α))) : Prop where
  length_eq : columns.length = m
  length_column : ∀ column ∈ columns, column.length = (columns.headD []).length

/-- The columns of several blocks, one after the other. -/
def joined (m : ℕ) (blocks : List (List (List (Option α)))) : List (List (Option α)) :=
  (List.range m).map fun i => blocks.flatMap fun block => block.getD i []

lemma rectangular_of_length {columns : List (List (Option α))} {n : ℕ} (hm : columns.length = m)
    (h : ∀ column ∈ columns, column.length = n) : Rectangular m columns := by
  refine ⟨hm, fun column hcolumn => ?_⟩
  cases columns with
  | nil => cases hcolumn
  | cons first columns => rw [h column hcolumn, List.headD_cons, h first List.mem_cons_self]

/-- The rows of columns that are appended to others. -/
lemma rowsOf_zipWith_append {columns columns' : List (List (Option α))}
    (h : Rectangular m columns) (h' : Rectangular m columns') :
    rowsOf (List.zipWith (· ++ ·) columns columns') = rowsOf columns ++ rowsOf columns' := by
  cases columns with
  | nil =>
    have hnil : columns' = [] := List.length_eq_zero_iff.mp (h'.length_eq.trans h.length_eq.symm)
    subst hnil
    rfl
  | cons column columns =>
    obtain ⟨column', columns', rfl⟩ : ∃ c cs, columns' = c :: cs :=
      List.exists_of_length_succ columns' (h'.length_eq.trans h.length_eq.symm)
    have hlength : columns.length = columns'.length :=
      Nat.succ.inj (h.length_eq.trans h'.length_eq.symm)
    have hcolumns : ∀ i (hi : i < (column :: columns).length),
        (column :: columns)[i].length = column.length := fun i hi =>
      h.length_column _ (List.getElem_mem hi)
    rw [rowsOf, List.zipWith_cons_cons, List.headD_cons, List.length_append, List.range_add,
      List.map_append, List.map_map, ← List.zipWith_cons_cons]
    refine congrArg₂ (· ++ ·) (List.map_congr_left fun k hk => ?_)
      (List.map_congr_left fun k _ => ?_)
    · -- the first rows are those of the first columns
      have hk' : k < column.length := List.mem_range.mp hk
      refine List.ext_getElem (by simp [hlength]) fun i h₁ h₂ => ?_
      have hi : i < (column :: columns).length := by simpa using h₂
      rw [List.getElem_map, List.getElem_map, List.getElem_zipWith, List.getD_eq_getElem?_getD,
        List.getElem?_append_left (by rw [hcolumns i hi]; exact hk'), List.getD_eq_getElem?_getD]
    · refine List.ext_getElem (by simp [hlength]) fun i h₁ h₂ => ?_
      have hi : i < (column :: columns).length := by simpa [hlength] using h₂
      show (List.map _ _)[i] = _
      rw [List.getElem_map, List.getElem_map, List.getElem_zipWith, List.getD_eq_getElem?_getD,
        List.getElem?_append_right (by rw [hcolumns i hi]; exact Nat.le_add_right _ _),
        hcolumns i hi, Nat.add_sub_cancel_left, List.getD_eq_getElem?_getD]

lemma joined_cons {block : List (List (Option α))} (blocks : List (List (List (Option α))))
    (h : block.length = m) :
    joined m (block :: blocks) = List.zipWith (· ++ ·) block (joined m blocks) := by
  refine List.ext_getElem (by simp [joined, h]) fun i h₁ h₂ => ?_
  have hi : i < block.length := by
    rw [h]
    simpa [joined] using h₁
  simp [joined, hi]

/-- The height of joined columns is the sum of the heights. -/
lemma length_headD_zipWith {columns columns' : List (List (Option α))}
    (h : columns.length = columns'.length) :
    ((List.zipWith (· ++ ·) columns columns').headD []).length =
      (columns.headD []).length + (columns'.headD []).length := by
  cases columns with
  | nil =>
    rw [List.length_eq_zero_iff.mp h.symm]
    rfl
  | cons column columns =>
    obtain ⟨column', columns', rfl⟩ := List.exists_of_length_succ columns' h.symm
    simp

lemma rectangular_zipWith_append {columns columns' : List (List (Option α))}
    (h : Rectangular m columns) (h' : Rectangular m columns') :
    Rectangular m (List.zipWith (· ++ ·) columns columns') := by
  refine ⟨by simp [h.length_eq, h'.length_eq], fun column hcolumn => ?_⟩
  obtain ⟨i, hi, rfl⟩ := List.getElem_of_mem hcolumn
  rw [List.getElem_zipWith, List.length_append,
    length_headD_zipWith (h.length_eq.trans h'.length_eq.symm),
    h.length_column _ (List.getElem_mem _), h'.length_column _ (List.getElem_mem _)]

lemma rectangular_joined {blocks : List (List (List (Option α)))}
    (h : ∀ block ∈ blocks, Rectangular m block) : Rectangular m (joined m blocks) := by
  induction blocks with
  | nil =>
    have hnil : ∀ column ∈ (joined m [] : List (List (Option α))), column = [] := by
      simp [joined]
    refine ⟨by simp [joined], fun column hcolumn => ?_⟩
    rw [hnil column hcolumn]
    cases m <;> simp [joined, List.range_succ_eq_map]
  | cons block blocks ih =>
    rw [List.forall_mem_cons] at h
    rw [joined_cons blocks h.1.length_eq]
    exact rectangular_zipWith_append h.1 (ih h.2)

/-- The rows of blocks one after the other are the rows of their joined columns. -/
lemma rowsOf_joined {blocks : List (List (List (Option α)))}
    (h : ∀ block ∈ blocks, Rectangular m block) : rowsOf (joined m blocks) = blocks.flatMap rowsOf := by
  induction blocks with
  | nil => cases m <;> simp [joined, rowsOf, List.range_succ_eq_map]
  | cons block blocks ih =>
    rw [List.forall_mem_cons] at h
    rw [joined_cons blocks h.1.length_eq, rowsOf_zipWith_append h.1 (rectangular_joined h.2),
      ih h.2, List.flatMap_cons]

/-- No cell is missing in the rows if and only if none is missing in the columns. -/
lemma none_notMem_rowsOf_iff {columns : List (List (Option α))} (h : Rectangular m columns) :
    (∀ row ∈ rowsOf columns, none ∉ row) ↔ ∀ column ∈ columns, none ∉ column := by
  constructor
  · intro hrows column hcolumn hnone
    obtain ⟨k, hk, hget⟩ := List.getElem_of_mem hnone
    have hk' : k < (columns.headD []).length := by rwa [← h.length_column column hcolumn]
    refine hrows _ (List.mem_map.mpr ⟨k, List.mem_range.mpr hk', rfl⟩) ?_
    refine List.mem_map.mpr ⟨column, hcolumn, ?_⟩
    rw [List.getD_eq_getElem?_getD, List.getElem?_eq_getElem hk, hget]
    rfl
  · intro hcolumns row hrow hnone
    obtain ⟨k, hk, rfl⟩ := List.mem_map.mp hrow
    obtain ⟨column, hcolumn, hget⟩ := List.mem_map.mp hnone
    have hk' : k < column.length := by
      rw [h.length_column column hcolumn]
      exact List.mem_range.mp hk
    rw [List.getD_eq_getElem?_getD, List.getElem?_eq_getElem hk'] at hget
    exact hcolumns column hcolumn (List.mem_of_getElem hget)

end Relational

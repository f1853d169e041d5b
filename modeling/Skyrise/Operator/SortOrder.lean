/-
The order of sorted rows.

The rows are sorted by the last definition first, and every sort keeps the order of
the rows that tie, so in the end they are in lexicographic order: by the first
definition, where it ties by the second one, and where all of them tie as they are
in the table.  NULLs come first in either direction.
-/
import Skyrise.Operator.Sort
import Skyrise.Utils.StableSort

namespace Skyrise

variable {R : Type} [LinearOrder R]

namespace SortOperator

/-- Whether the first of two cells is sorted in front of the second one. -/
def CellBefore (mode : SortMode) : AllTypeVariant R → AllTypeVariant R → Prop
  | none, some _ => True
  | some a, some b =>
    match mode with
    | .ascending => a < b
    | .descending => b < a
  | _, none => False

/-- Whether the first of two rows of a table is sorted in front of the second one: the first
definition that tells them apart decides, without one the positions of the rows do. -/
def RowBefore (table : Table R) : List SortColumnDefinition → RowId → RowId → Prop
  | [], a, b => a < b
  | d :: ds, a, b =>
    CellBefore d.sortMode (table.cellAt d.columnId.toNat a) (table.cellAt d.columnId.toNat b) ∨
      table.cellAt d.columnId.toNat a = table.cellAt d.columnId.toNat b ∧ RowBefore table ds a b

variable {table : Table R} {columnId : ℕ} {mode : SortMode} {positions : List RowId}
  {definitions : List SortColumnDefinition}

lemma inOrder_trans (a b c : Value R) (hab : inOrder mode a b) (hbc : inOrder mode b c) :
    inOrder mode a c := by
  cases mode <;> simp only [inOrder, Bool.not_eq_true', decide_eq_false_iff_not, not_lt] at *
  · exact hab.trans hbc
  · exact hbc.trans hab

lemma inOrder_total (a b : Value R) : inOrder mode a b || inOrder mode b a := by
  cases mode <;> simp only [inOrder, Bool.or_eq_true, Bool.not_eq_true', decide_eq_false_iff_not,
    not_lt]
  · exact le_total a b
  · exact le_total b a

/-- Two values that a sort leaves in order tie or are told apart. -/
lemma cellBefore_or_eq_of_inOrder {a b : Value R} (h : inOrder mode a b) :
    CellBefore mode (some a) (some b) ∨ a = b ∧ inOrder mode b a := by
  cases mode <;> simp only [inOrder, CellBefore, Bool.not_eq_true', decide_eq_false_iff_not,
    not_lt] at *
  · rcases h.lt_or_eq with hlt | rfl
    · exact .inl hlt
    · exact .inr ⟨rfl, h⟩
  · rcases h.lt_or_eq with hlt | rfl
    · exact .inl hlt
    · exact .inr ⟨rfl, h⟩

/-- A sort orders the rows by the column, and as they were where the column ties. -/
lemma pairwise_sortByColumn {r : RowId → RowId → Prop} {previouslySorted : List RowId}
    (hpositions : positionsToSort table previouslySorted = positions) (hnodup : positions.Nodup)
    (h : positions.Pairwise r) :
    (sortByColumn table columnId mode previouslySorted).Pairwise fun a b =>
      CellBefore mode (table.cellAt columnId a) (table.cellAt columnId b) ∨
        table.cellAt columnId a = table.cellAt columnId b ∧ r a b := by
  rw [sortByColumn, hpositions]
  set pairs := positions.filterMap fun id =>
    (table.cellAt columnId id).map fun value => (id, value) with hpairs
  have hcell : ∀ p ∈ pairs, table.cellAt columnId p.1 = some p.2 := by
    intro p hp
    obtain ⟨id, -, hid⟩ := List.mem_filterMap.mp hp
    obtain ⟨v, hv, rfl⟩ := Option.map_eq_some_iff.mp hid
    exact hv
  -- a pair is made from the position that it starts with
  have hof : ∀ {id : RowId} {p : RowId × Value R},
      (table.cellAt columnId id).map (fun value => (id, value)) = some p → id = p.1 := by
    intro id p hp
    obtain ⟨v, -, rfl⟩ := Option.map_eq_some_iff.mp hp
    rfl
  have hpairsNodup : pairs.Nodup := by
    rw [List.Nodup, hpairs, List.pairwise_filterMap]
    refine hnodup.imp fun {a b} hab p hp q hq hpq => hab ?_
    rw [hof hp, hof hq, hpq]
  have hpairsOrder : pairs.Pairwise fun p q => r p.1 q.1 := by
    rw [hpairs, List.pairwise_filterMap]
    refine h.imp fun {a b} hab p hp q hq => ?_
    rw [← hof hp, ← hof hq]
    exact hab
  rw [List.pairwise_append]
  refine ⟨?_, ?_, ?_⟩
  · -- the rows that are NULL stay as they were
    refine (h.filter _).imp_of_mem fun {a b} ha hb hab => .inr ⟨?_, hab⟩
    rw [Option.isNone_iff_eq_none.mp (List.mem_filter.mp ha).2,
      Option.isNone_iff_eq_none.mp (List.mem_filter.mp hb).2]
  · rw [List.pairwise_map]
    have hsorted : (pairs.mergeSort fun p q => inOrder mode p.2 q.2).Pairwise fun p q =>
        inOrder mode p.2 q.2 ∧ (inOrder mode q.2 p.2 → r p.1 q.1) :=
      StableSort.pairwise_mergeSort (fun a b c => inOrder_trans a.2 b.2 c.2)
        (fun a b => inOrder_total a.2 b.2) hpairsNodup hpairsOrder
    refine hsorted.imp_of_mem fun {p q} hp hq hpq => ?_
    rw [hcell p (List.mem_mergeSort.mp hp), hcell q (List.mem_mergeSort.mp hq)]
    rcases cellBefore_or_eq_of_inOrder hpq.1 with hbefore | ⟨heq, htie⟩
    · exact .inl hbefore
    · exact .inr ⟨congrArg some heq, hpq.2 htie⟩
  · intro a ha b hb
    obtain ⟨q, hq, rfl⟩ := List.mem_map.mp hb
    rw [Option.isNone_iff_eq_none.mp (List.mem_filter.mp ha).2,
      hcell q (List.mem_mergeSort.mp hq)]
    exact .inl trivial

lemma sortedPositions_cons (table : Table R) (d : SortColumnDefinition)
    (ds : List SortColumnDefinition) : sortedPositions table (d :: ds) =
      sortByColumn table d.columnId.toNat d.sortMode (sortedPositions table ds) := by
  rw [sortedPositions, List.reverse_cons, List.foldl_append]
  rfl

/-- The next sort starts from all rows. -/
lemma positionsToSort_perm (table : Table R) (definitions : List SortColumnDefinition) :
    (positionsToSort table (sortedPositions table definitions)).Perm table.rowIds := by
  rw [positionsToSort]
  split
  · exact List.Perm.refl _
  · next hne =>
    refine sortedPositions_perm table ?_
    rintro rfl
    exact hne rfl

/-- The next sort starts from rows that are in order for the definitions sorted by so far.  The
induction is on the definitions, the last of which is sorted by first. -/
lemma pairwise_positionsToSort (table : Table R) (definitions : List SortColumnDefinition) :
    (positionsToSort table (sortedPositions table definitions)).Pairwise
      (RowBefore table definitions) := by
  induction definitions with
  | nil => exact table.pairwise_rowIds
  | cons d ds ih =>
    have hperm := positionsToSort_perm table ds
    have hsorted : (sortByColumn table d.columnId.toNat d.sortMode
        (sortedPositions table ds)).Pairwise (RowBefore table (d :: ds)) :=
      pairwise_sortByColumn rfl (hperm.nodup_iff.mpr table.nodup_rowIds) ih
    rw [sortedPositions_cons, positionsToSort]
    split
    · next hempty =>
      -- an empty table
      have hnil := (sortByColumn_perm table d.columnId.toNat d.sortMode
        (sortedPositions table ds)).trans hperm
      rw [List.isEmpty_iff.mp hempty] at hnil
      rw [hnil.symm.eq_nil]
      exact List.Pairwise.nil
    · exact hsorted

end SortOperator

end Skyrise

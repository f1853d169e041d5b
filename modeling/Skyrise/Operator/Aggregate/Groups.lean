/-
The groups of the rows.

The output of the aggregate operator has a row for every group.  Its GROUP BY columns
hold the values that the rows of the group have there, and the column of an aggregate
holds what is written for the rows of the group.
-/
import Mathlib.Data.List.Dedup
import Skyrise.Operator.Aggregate.AggregateOrder
import Skyrise.Operator.Aggregate.GroupKeys

namespace Skyrise

variable {R : Type} [FloatingPoint R]

section

variable (table : Table R) (groupByColumnIds : List ℕ)

/-- The groups of the rows, in the order in which their results are written. -/
def groups : List (List RowId) :=
  (occurring (numberedRows table groupByColumnIds)).map
    (rowsOfResult (numberedRows table groupByColumnIds))

/-- The rows that have the same values in the GROUP BY columns as a row. -/
def groupOf (rowId : RowId) : List RowId :=
  table.rowIds.filter fun id =>
    groupValues table groupByColumnIds id = groupValues table groupByColumnIds rowId

end

variable {table : Table R} {groupByColumnIds : List ℕ} {aggregates : List AggregateExpression}
  {g : List RowId} {id : RowId}

lemma mem_groupOf : id ∈ groupOf table groupByColumnIds id ↔ id ∈ table.rowIds := by
  simp [groupOf]

omit [FloatingPoint R] in
lemma mem_occurring {done : List (ℕ × RowId)} {i : ℕ} :
    i ∈ occurring done ↔ ∃ d ∈ done, d.1 = i := by
  constructor
  · intro h
    exact exists_of_rowsOfResult (List.mem_filter.mp h).2
  · rintro ⟨d, hd, rfl⟩
    rw [← filter_range_occurring fun d' hd' => Nat.lt_succ_of_le
      (List.single_le_sum (fun _ _ => Nat.zero_le _) _ (List.mem_map_of_mem (f := Prod.fst) hd'))]
    refine List.mem_filter.mpr ⟨List.mem_range.mpr (Nat.lt_succ_of_le
      (List.single_le_sum (fun _ _ => Nat.zero_le _) _ (List.mem_map_of_mem (f := Prod.fst) hd))), ?_⟩
    rw [Bool.not_eq_true', List.isEmpty_eq_false_iff]
    exact fun hnil => rowsOfResult_eq_nil_iff.mp hnil d hd rfl

omit [FloatingPoint R] in
/-- The rows with the index of a row. -/
lemma rowsOfResult_map (indexOf : RowId → ℕ) (ids : List RowId) (i : ℕ) :
    rowsOfResult (ids.map fun id => (indexOf id, id)) i = ids.filter fun id => indexOf id = i := by
  rw [rowsOfResult, List.filter_map, List.map_map]
  exact List.map_id _

/-- The groups are the sets of rows with the same values in the GROUP BY columns. -/
lemma mem_groups_iff (ht : table.WellFormed)
    (hcols : ∀ c ∈ groupByColumnIds, c < table.getColumnCount) :
    g ∈ groups table groupByColumnIds ↔
      ∃ id ∈ table.rowIds, g = groupOf table groupByColumnIds id := by
  obtain ⟨indexOf, hrows, hindex⟩ := numberedRows_spec ht hcols
  have hgroup : ∀ id ∈ table.rowIds,
      rowsOfResult (numberedRows table groupByColumnIds) (indexOf id) =
        groupOf table groupByColumnIds id := by
    intro id hid
    rw [hrows, rowsOfResult_map, groupOf]
    exact List.filter_congr fun id' hid' => by simpa using hindex id' hid' id hid
  rw [groups, List.mem_map]
  constructor
  · rintro ⟨i, hi, rfl⟩
    obtain ⟨d, hd, rfl⟩ := mem_occurring.mp hi
    rw [hrows] at hd
    obtain ⟨id, hid, rfl⟩ := List.mem_map.mp hd
    exact ⟨id, hid, hgroup id hid⟩
  · rintro ⟨id, hid, rfl⟩
    refine ⟨indexOf id, mem_occurring.mpr ⟨(indexOf id, id), ?_, rfl⟩, hgroup id hid⟩
    rw [hrows]
    exact List.mem_map_of_mem (f := fun id => (indexOf id, id)) hid

lemma length_groups : (groups table groupByColumnIds).length =
    (occurring (numberedRows table groupByColumnIds)).length := by
  rw [groups, List.length_map]

omit [FloatingPoint R] in
lemma KeyKind.mem_of_pickRow {kind : KeyKind} {rows : List RowId} (h : kind.pickRow rows = some id) :
    id ∈ rows := by
  cases kind with
  | cached => exact List.mem_of_getLast? h
  | empty => exact List.mem_of_head? h
  | hashed => exact List.mem_of_head? h

omit [FloatingPoint R] in
lemma getElem?_filterMap_of_isSome {α β : Type*} {f : α → Option β} {l : List α}
    (h : ∀ x ∈ l, (f x).isSome) (i : ℕ) : (l.filterMap f)[i]? = l[i]?.bind f := by
  induction l generalizing i with
  | nil => rfl
  | cons x l ih =>
    rw [List.forall_mem_cons] at h
    obtain ⟨y, hy⟩ := Option.isSome_iff_exists.mp h.1
    rw [List.filterMap_cons_some hy]
    cases i with
    | zero => exact hy.symm
    | succ i => exact ih h.2 i

/-- The rows that the GROUP BY columns are read from belong to the groups. -/
lemma groupPositions_getElem? {i : ℕ} (hg : (groups table groupByColumnIds)[i]? = some g) :
    ∃ id ∈ g, (groupPositions table groupByColumnIds)[i]? = some id := by
  rw [groups, List.getElem?_map, Option.map_eq_some_iff] at hg
  obtain ⟨k, hk, rfl⟩ := hg
  have hsome : ∀ k ∈ occurring (numberedRows table groupByColumnIds),
      (((partitionByGroupByKeys table groupByColumnIds).kind groupByColumnIds).pickRow
        (rowsOfResult (numberedRows table groupByColumnIds) k)).isSome := by
    intro k hk
    rw [KeyKind.isSome_pickRow]
    exact (List.mem_filter.mp hk).2
  obtain ⟨id, hid⟩ := Option.isSome_iff_exists.mp (hsome k (List.mem_of_getElem? hk))
  refine ⟨id, KeyKind.mem_of_pickRow hid, ?_⟩
  rw [groupPositions, getElem?_filterMap_of_isSome hsome, hk]
  exact hid

/-! ### The cells of the output -/

omit [FloatingPoint R] in
lemma cellAt_tableOfColumns {columns : List (OutputColumn R)}
    (hsize : 0 < (⟨columns.map Prod.snd⟩ : Chunk R).size) (columnId i : ℕ) :
    (tableOfColumns columns).cellAt columnId ⟨0, i⟩ =
      ((⟨columns.map Prod.snd⟩ : Chunk R).getSegment columnId).variantAt i := by
  rw [tableOfColumns, if_pos hsize]
  rfl

/-- A column of the output of an aggregate, in which there are NULLs only if there can be. -/
lemma variantAt_aggregateOutput {aggregate : AggregateExpression} {cells : List (AllTypeVariant R)}
    {i : ℕ} (hi : i < cells.length)
    (hnull : needsNull aggregate.aggregateFunction = false → cells[i] ≠ none) :
    (aggregateOutput table groupByColumnIds aggregate cells).2.variantAt i = cells[i] := by
  have hne : ¬(groupByColumnIds = [] ∧ cells = []) :=
    fun h => List.ne_nil_of_length_pos (Nat.zero_lt_of_lt hi) h.2
  rw [aggregateOutput]
  dsimp only
  rw [if_neg hne]
  split
  · simp only [ValueSegment.variantAt_ofNullable, List.getD_eq_getElem?_getD, List.getElem?_map,
      List.getElem?_eq_getElem hi, Option.map_some, Option.getD_some]
    cases cells[i] <;> rfl
  · next hneeds =>
    obtain ⟨v, hv⟩ := Option.ne_none_iff_exists'.mp (hnull (by simpa using hneeds))
    rw [ValueSegment.variantAt_ofValues, List.getElem?_map, List.getElem?_eq_getElem hi, hv]
    rfl

/-- COUNT and COUNT DISTINCT are never NULL. -/
lemma writeAggregateValue_ne_none {aggregate : AggregateExpression}
    (hnull : needsNull aggregate.aggregateFunction = false) (s : AggregateValue R) :
    writeAggregateValue table aggregate s ≠ none := by
  rw [needsNull, Bool.and_eq_false_iff] at hnull
  rcases hnull with h | h <;> simp only [ne_eq, decide_not, Bool.not_eq_false',
    decide_eq_true_eq] at h <;> simp [writeAggregateValue, h]

/-- A GROUP BY column of the output. -/
lemma variantAt_writeUnaggregatedColumn (ht : table.WellFormed) {columnId : ℕ}
    (hcol : columnId < table.getColumnCount) {positions : List RowId} {i : ℕ}
    (hi : positions[i]? = some id) (hid : id ∈ table.rowIds) :
    (writeUnaggregatedColumn table positions columnId).2.variantAt i = table.cellAt columnId id := by
  rw [writeUnaggregatedColumn]
  dsimp only
  split
  · simp only [ValueSegment.variantAt_ofNullable, List.getD_eq_getElem?_getD, List.getElem?_map, hi,
      Option.map_some, Option.getD_some]
    cases table.cellAt columnId id <;> rfl
  · next hnull =>
    have hne := ht.cellAt_ne_none hid hcol (by rw [Table.columnIsNullable]; simpa using hnull)
    rw [ValueSegment.variantAt_ofValues, List.getElem?_map, hi]
    cases hcell : table.cellAt columnId id with
    | none => exact absurd hcell hne
    | some v => simp [hcell]

/-- A GROUP BY column has the values of the rows of the groups. -/
lemma variantAt_groupColumn (ht : table.WellFormed)
    (hcols : ∀ c ∈ groupByColumnIds, c < table.getColumnCount) {i : ℕ}
    (hg : (groups table groupByColumnIds)[i]? = some g) {c : ℕ} (hc : c ∈ groupByColumnIds)
    (hid : id ∈ g) :
    (writeUnaggregatedColumn table (groupPositions table groupByColumnIds) c).2.variantAt i =
      table.cellAt c id := by
  obtain ⟨id₀, hid₀, hposition⟩ := groupPositions_getElem? hg
  obtain ⟨id', -, rfl⟩ := (mem_groups_iff ht hcols).mp (List.mem_of_getElem? hg)
  obtain ⟨hmem₀, hvalues₀⟩ := List.mem_filter.mp hid₀
  obtain ⟨hmem, hvalues⟩ := List.mem_filter.mp hid
  rw [variantAt_writeUnaggregatedColumn ht (hcols c hc) hposition hmem₀]
  have hsame : groupValues table groupByColumnIds id₀ = groupValues table groupByColumnIds id :=
    (of_decide_eq_true hvalues₀).trans (of_decide_eq_true hvalues).symm
  exact List.map_inj_left.mp hsame c hc

/-- The column of an aggregate has what is written for the groups. -/
lemma variantAt_aggregateColumnOf {aggregate : AggregateExpression} {i : ℕ}
    (hg : (groups table groupByColumnIds)[i]? = some g)
    (hany : aggregate.aggregateFunction ≠ .any)
    (hstar : ¬(aggregate.columnId = none ∧ groupByColumnIds = [])) :
    (aggregateColumnOf table groupByColumnIds aggregate).2.variantAt i =
      writeAggregateValue table aggregate
        (aggregated (stepOf table aggregate) (startOf table aggregate) g) := by
  have hcells : aggregateCells table groupByColumnIds (numberedRows table groupByColumnIds)
      aggregate = (groups table groupByColumnIds).map fun g => writeAggregateValue table aggregate
        (aggregated (stepOf table aggregate) (startOf table aggregate) g) := by
    rw [aggregateCells, if_neg hstar, groups, List.map_map]
    rfl
  obtain ⟨hlt, hgi⟩ := List.getElem?_eq_some_iff.mp hg
  rw [aggregateColumnOf, if_neg hany, hcells, variantAt_aggregateOutput (by rwa [List.length_map]),
    List.getElem_map, hgi]
  intro hnull
  rw [List.getElem_map]
  exact writeAggregateValue_ne_none hnull _

/-- **The output for the groups.**  A row of the output is read for the group with its number. -/
lemma onExecute_groups (ht : table.WellFormed)
    (hcols : ∀ c ∈ groupByColumnIds, c < table.getColumnCount)
    (hvalid : ∀ a ∈ aggregates, a.Valid table) (hany : ∀ a ∈ aggregates, a.aggregateFunction ≠ .any)
    (hne : aggregates ≠ []) :
    ∃ out, onExecute table groupByColumnIds aggregates = .ok out ∧
      ∀ i g, (groups table groupByColumnIds)[i]? = some g →
        (∀ k c, groupByColumnIds[k]? = some c → ∀ id ∈ g,
          out.cellAt k ⟨0, i⟩ = table.cellAt c id) ∧
        ∀ j a, aggregates[j]? = some a → ¬(a.columnId = none ∧ groupByColumnIds = []) →
          out.cellAt (groupByColumnIds.length + j) ⟨0, i⟩ = writeAggregateValue table a
            (aggregated (stepOf table a) (startOf table a) g) := by
  refine ⟨_, onExecute_of_ne_any ht hvalid hany hne, fun i g hg => ?_⟩
  set columns := groupColumns table groupByColumnIds ++
    aggregates.map (aggregateColumnOf table groupByColumnIds) with hcolumns
  have hsize : 0 < (⟨columns.map Prod.snd⟩ : Chunk R).size := by
    rw [hcolumns]
    cases groupByColumnIds with
    | nil =>
      obtain ⟨a, rest, rfl⟩ := List.exists_cons_of_ne_nil hne
      have ha : (aggregateColumnOf table [] a).2.size = 1 := by
        rw [aggregateColumnOf, if_neg (hany a List.mem_cons_self),
          size_aggregateOutput (length_aggregateCells_le a), if_pos rfl]
      show 0 < (aggregateColumnOf table [] a).2.size
      omega
    | cons c cs =>
      have hc : (writeUnaggregatedColumn table (groupPositions table (c :: cs)) c).2.size =
          (groupPositions table (c :: cs)).length := size_writeUnaggregatedColumn _ _
      obtain ⟨id₀, -, hposition⟩ := groupPositions_getElem? hg
      have hlength : i < (groupPositions table (c :: cs)).length :=
        (List.getElem?_eq_some_iff.mp hposition).1
      show 0 < (writeUnaggregatedColumn table (groupPositions table (c :: cs)) c).2.size
      omega
  have hread : ∀ k column, columns[k]? = some column →
      (tableOfColumns columns).cellAt k ⟨0, i⟩ = column.2.variantAt i := by
    intro k column hk
    rw [cellAt_tableOfColumns hsize, Chunk.getSegment, List.getD_eq_getElem?_getD,
      List.getElem?_map, hk]
    rfl
  refine ⟨fun k c hk id hid => ?_, fun j a hj hstar => ?_⟩
  · have hcol : columns[k]? = some (writeUnaggregatedColumn table
        (groupPositions table groupByColumnIds) c) := by
      have hk' : k < (groupColumns table groupByColumnIds).length := by
        rw [groupColumns, List.length_map]
        exact (List.getElem?_eq_some_iff.mp hk).1
      rw [hcolumns, List.getElem?_append_left hk', groupColumns, List.getElem?_map, hk]
      rfl
    rw [hread k _ hcol, variantAt_groupColumn ht hcols hg (List.mem_of_getElem? hk) hid]
  · have hcol : columns[groupByColumnIds.length + j]? =
        some (aggregateColumnOf table groupByColumnIds a) := by
      have hlength : (groupColumns table groupByColumnIds).length = groupByColumnIds.length := by
        rw [groupColumns, List.length_map]
      rw [hcolumns, List.getElem?_append_right (by omega), hlength, Nat.add_sub_cancel_left,
        List.getElem?_map, hj]
      rfl
    rw [hread _ _ hcol, variantAt_aggregateColumnOf hg (hany a (List.mem_of_getElem? hj)) hstar]

/-! ### One row for every group -/

/-- Every group is listed once. -/
lemma nodup_groups (ht : table.WellFormed)
    (hcols : ∀ c ∈ groupByColumnIds, c < table.getColumnCount) :
    (groups table groupByColumnIds).Nodup := by
  obtain ⟨indexOf, hrows, -⟩ := numberedRows_spec ht hcols
  have hoccurring : (occurring (numberedRows table groupByColumnIds)).Nodup :=
    List.nodup_range.filter _
  refine hoccurring.map_on fun i hi j _ heq => ?_
  obtain ⟨d, hd, rfl⟩ := mem_occurring.mp hi
  rw [hrows] at hd heq
  obtain ⟨id, hid, rfl⟩ := List.mem_map.mp hd
  rw [rowsOfResult_map, rowsOfResult_map] at heq
  -- a row of the group has the number of the group
  have hmem : id ∈ table.rowIds.filter fun id' => indexOf id' = j := by
    rw [← heq]
    exact List.mem_filter.mpr ⟨hid, decide_eq_true rfl⟩
  exact of_decide_eq_true (List.mem_filter.mp hmem).2

/-- The groups are those of the keys that occur. -/
lemma groups_perm (ht : table.WellFormed)
    (hcols : ∀ c ∈ groupByColumnIds, c < table.getColumnCount) :
    (groups table groupByColumnIds).Perm
      ((table.rowIds.map (groupValues table groupByColumnIds)).dedup.map fun key =>
        table.rowIds.filter fun id => groupValues table groupByColumnIds id = key) := by
  refine (List.perm_ext_iff_of_nodup (nodup_groups ht hcols) ?_).mpr fun g => ?_
  · refine (List.nodup_dedup _).map_on fun key hkey key' _ heq => ?_
    obtain ⟨id, hid, rfl⟩ := List.mem_map.mp (List.mem_dedup.mp hkey)
    have hmem : id ∈ table.rowIds.filter fun id' =>
        groupValues table groupByColumnIds id' = key' := by
      rw [← heq]
      exact mem_groupOf.mpr hid
    exact of_decide_eq_true (List.mem_filter.mp hmem).2
  · rw [mem_groups_iff ht hcols, List.mem_map]
    constructor
    · rintro ⟨id, hid, rfl⟩
      exact ⟨_, List.mem_dedup.mpr (List.mem_map_of_mem hid), rfl⟩
    · rintro ⟨key, hkey, rfl⟩
      obtain ⟨id, hid, rfl⟩ := List.mem_map.mp (List.mem_dedup.mp hkey)
      exact ⟨id, hid, rfl⟩

end Skyrise

/-
The rows of the aggregate operator.

The reference has one row for every combination of values that occurs in the GROUP BY
columns, with NULL as one of the values, and in it the aggregates of the rows with these
values.  Without GROUP BY columns it has one row, also for an empty table.  The operator
returns these rows, whichever way the keys of the groups are represented and looked up.
-/
import Skyrise.Operator.Aggregate.Groups
import Skyrise.Operator.Aggregate.ReferenceAggregates

namespace Skyrise

variable {R : Type} [FloatingPoint R]

/-- The row of a group. -/
def referenceRow (table : Table R) (aggregates : List AggregateExpression)
    (key : List (AllTypeVariant R)) (rows : List RowId) : List (AllTypeVariant R) :=
  key ++ aggregates.map fun aggregate => referenceAggregate table aggregate rows

/-- The rows of the groups. -/
def referenceRows (table : Table R) (groupByColumnIds : List ℕ)
    (aggregates : List AggregateExpression) : List (List (AllTypeVariant R)) :=
  if groupByColumnIds = [] then [referenceRow table aggregates [] table.rowIds]
  else (table.rowIds.map (groupValues table groupByColumnIds)).dedup.map fun key =>
    referenceRow table aggregates key
      (table.rowIds.filter fun id => groupValues table groupByColumnIds id = key)

variable {table : Table R} {groupByColumnIds : List ℕ} {aggregates : List AggregateExpression}
  {aggregate : AggregateExpression}

omit [FloatingPoint R] in
/-- The rows of columns of one size. -/
lemma rows_tableOfColumns {columns : List (OutputColumn R)} {n : ℕ} (hne : columns ≠ [])
    (hsize : ∀ column ∈ columns, column.2.size = n) :
    (tableOfColumns columns).rows =
      (List.range n).map fun i => columns.map fun column => column.2.variantAt i := by
  have hchunk : (⟨columns.map Prod.snd⟩ : Chunk R).size = n := by
    obtain ⟨column, rest, rfl⟩ := List.exists_cons_of_ne_nil hne
    exact hsize column List.mem_cons_self
  have hrow : ∀ i, (⟨columns.map Prod.snd⟩ : Chunk R).row i =
      columns.map fun column => column.2.variantAt i := by
    intro i
    rw [Chunk.row, List.map_map]
    rfl
  rw [tableOfColumns, hchunk]
  split
  · rw [Table.rows, List.flatMap_singleton, Chunk.rows, hchunk]
    exact List.map_congr_left fun i _ => hrow i
  · next hzero =>
    obtain rfl : n = 0 := by omega
    rfl

lemma AggregateFunction.IsStandard.ne_any {f : AggregateFunction} (hf : f.IsStandard) :
    f ≠ .any := by
  rcases hf with rfl | rfl | rfl | rfl | rfl <;> simp

/-! ### Without GROUP BY columns -/

/-- All rows make up one group. -/
lemma groups_of_nil (ht : table.WellFormed) (hrows : table.rowIds ≠ []) :
    groups table [] = [table.rowIds] := by
  have hall : ∀ id : RowId, groupOf table [] id = table.rowIds := by
    intro id
    rw [groupOf, List.filter_eq_self]
    exact fun id' _ => decide_eq_true rfl
  have hmem : ∀ g, g ∈ groups table [] ↔ g = table.rowIds := by
    intro g
    rw [mem_groups_iff ht fun c hc => absurd hc List.not_mem_nil]
    obtain ⟨id, hid⟩ := List.exists_mem_of_ne_nil _ hrows
    constructor
    · rintro ⟨id', -, hg⟩
      exact hg.trans (hall id')
    · intro hg
      exact ⟨id, hid, hg.trans (hall id).symm⟩
  have hnodup : (groups table []).Nodup := nodup_groups ht fun c hc => absurd hc List.not_mem_nil
  exact List.perm_singleton.mp ((List.perm_ext_iff_of_nodup hnodup (List.nodup_singleton _)).mpr
    fun g => by rw [hmem, List.mem_singleton])

/-- The cell of no result. -/
lemma variantAt_aggregateOutput_nil : (aggregateOutput table [] aggregate []).2.variantAt 0 =
    if needsNull aggregate.aggregateFunction then none
    else some (aggregate.dataType table).defaultValue := by
  have hnil : ([] : List ℕ) = [] ∧ ([] : List (AllTypeVariant R)) = [] := ⟨rfl, rfl⟩
  rw [aggregateOutput, if_pos hnil]
  cases needsNull aggregate.aggregateFunction <;> rfl

/-- The only cell of an aggregate. -/
lemma variantAt_aggregateColumnOf_nil (ht : table.WellFormed) (ha : aggregate.Valid table)
    (hf : aggregate.aggregateFunction.IsStandard) :
    (aggregateColumnOf table [] aggregate).2.variantAt 0 =
      referenceAggregate table aggregate table.rowIds := by
  obtain ⟨indexOf, hnumbered⟩ : ∃ indexOf : RowId → ℕ,
      numberedRows table [] = table.rowIds.map fun rowId => (indexOf rowId, rowId) := by
    obtain ⟨indexOf, hnumbered, -⟩ := numberedRows_spec ht fun c hc => absurd hc List.not_mem_nil
    exact ⟨indexOf, hnumbered⟩
  cases hcolumn : aggregate.columnId with
  | none =>
    -- COUNT(*) counts the rows without a group
    have hcells : aggregateCells table [] (numberedRows table []) aggregate =
        [some (.long (.ofNat table.rowIds.length))] := by
      rw [aggregateCells, if_pos ⟨hcolumn, rfl⟩, hnumbered, List.length_map]
    rw [aggregateColumnOf, if_neg hf.ne_any, hcells,
      variantAt_aggregateOutput Nat.one_pos fun _ => by simp, referenceAggregate, hcolumn]
    rfl
  | some columnId =>
    have hstar : ¬(aggregate.columnId = none ∧ ([] : List ℕ) = []) := by simp [hcolumn]
    by_cases hrows : table.rowIds = []
    · -- the row of no row
      have hcells : aggregateCells table [] (numberedRows table []) aggregate = [] := by
        rw [aggregateCells, if_neg hstar, hnumbered, hrows]
        rfl
      rw [aggregateColumnOf, if_neg hf.ne_any, hcells, hrows, variantAt_aggregateOutput_nil,
        referenceAggregate, hcolumn, AggregateExpression.dataType]
      rcases hf with hf | hf | hf | hf | hf <;> rw [hf] <;> rfl
    · have hgroup : (groups table [])[0]? = some table.rowIds := by
        rw [groups_of_nil ht hrows]
        rfl
      rw [variantAt_aggregateColumnOf hgroup hf.ne_any hstar]
      exact writeAggregateValue_aggregated ht ha hf fun _ hid => hid

/-! ### With GROUP BY columns -/

/-- The row of a group, with the values of its first row. -/
def rowOfGroup (table : Table R) (groupByColumnIds : List ℕ) (aggregates : List AggregateExpression)
    (g : List RowId) : List (AllTypeVariant R) :=
  referenceRow table aggregates ((g.head?.map (groupValues table groupByColumnIds)).getD []) g

lemma rowOfGroup_of_key {key : List (AllTypeVariant R)} {g : List RowId}
    (hg : ∀ id ∈ g, groupValues table groupByColumnIds id = key) (hne : g ≠ []) :
    rowOfGroup table groupByColumnIds aggregates g = referenceRow table aggregates key g := by
  obtain ⟨id, rest, rfl⟩ := List.exists_cons_of_ne_nil hne
  rw [rowOfGroup, List.head?_cons, Option.map_some, Option.getD_some, hg id List.mem_cons_self]

/-- The row of a group in the output. -/
lemma row_eq_rowOfGroup (ht : table.WellFormed)
    (hcols : ∀ c ∈ groupByColumnIds, c < table.getColumnCount)
    (hvalid : ∀ a ∈ aggregates, a.Valid table)
    (hstandard : ∀ a ∈ aggregates, a.aggregateFunction.IsStandard) (hgroup : groupByColumnIds ≠ [])
    {g : List RowId} {i : ℕ} (hg : (groups table groupByColumnIds)[i]? = some g) :
    (groupColumns table groupByColumnIds ++
        aggregates.map (aggregateColumnOf table groupByColumnIds)).map
        (fun column => column.2.variantAt i) = rowOfGroup table groupByColumnIds aggregates g := by
  obtain ⟨id, hid, hgroupOf⟩ := (mem_groups_iff ht hcols).mp (List.mem_of_getElem? hg)
  have hrows : ∀ id' ∈ g, id' ∈ table.rowIds := by
    rw [hgroupOf]
    exact fun _ hid' => List.mem_of_mem_filter hid'
  have hkey : ∀ id' ∈ g, groupValues table groupByColumnIds id' =
      groupValues table groupByColumnIds id := by
    rw [hgroupOf]
    exact fun _ hid' => of_decide_eq_true (List.mem_filter.mp hid').2
  have hidg : id ∈ g := by
    rw [hgroupOf]
    exact mem_groupOf.mpr hid
  rw [rowOfGroup_of_key hkey (List.ne_nil_of_mem hidg), List.map_append, groupColumns,
    List.map_map, List.map_map, referenceRow, groupValues]
  congr 1
  · exact List.map_congr_left fun c hc => variantAt_groupColumn ht hcols hg hc hidg
  · refine List.map_congr_left fun a ha => ?_
    exact (variantAt_aggregateColumnOf hg (hstandard a ha).ne_any fun h => hgroup h.2).trans
      (writeAggregateValue_aggregated ht (hvalid a ha) (hstandard a ha) hrows)

/-- The rows of the groups are those of the keys that occur. -/
lemma map_rowOfGroup_perm (ht : table.WellFormed)
    (hcols : ∀ c ∈ groupByColumnIds, c < table.getColumnCount) (hgroup : groupByColumnIds ≠ []) :
    ((groups table groupByColumnIds).map (rowOfGroup table groupByColumnIds aggregates)).Perm
      (referenceRows table groupByColumnIds aggregates) := by
  refine ((groups_perm ht hcols).map _).trans (List.Perm.of_eq ?_)
  rw [List.map_map, referenceRows, if_neg hgroup]
  refine List.map_congr_left fun key hkey => ?_
  obtain ⟨id, hid, hvalues⟩ := List.mem_map.mp (List.mem_dedup.mp hkey)
  have hmem : id ∈ table.rowIds.filter fun id => groupValues table groupByColumnIds id = key :=
    List.mem_filter.mpr ⟨hid, decide_eq_true hvalues⟩
  exact rowOfGroup_of_key (fun id' hid' => of_decide_eq_true (List.mem_filter.mp hid').2)
    (List.ne_nil_of_mem hmem)

/-- The rows of the output are those of the reference. -/
lemma rows_output_perm (ht : table.WellFormed)
    (hcols : ∀ c ∈ groupByColumnIds, c < table.getColumnCount)
    (hvalid : ∀ a ∈ aggregates, a.Valid table)
    (hstandard : ∀ a ∈ aggregates, a.aggregateFunction.IsStandard)
    (hne : aggregates ≠ [] ∨ groupByColumnIds ≠ []) :
    (tableOfColumns (groupColumns table groupByColumnIds ++
      aggregates.map (aggregateColumnOf table groupByColumnIds))).rows.Perm
        (referenceRows table groupByColumnIds aggregates) := by
  have hany : ∀ a ∈ aggregates, a.aggregateFunction ≠ .any := fun a ha => (hstandard a ha).ne_any
  have hcolumns : groupColumns table groupByColumnIds ++
      aggregates.map (aggregateColumnOf table groupByColumnIds) ≠ [] := by
    rcases hne with hne | hne
    · exact List.append_ne_nil_of_right_ne_nil _ (mt List.map_eq_nil_iff.mp hne)
    · exact List.append_ne_nil_of_left_ne_nil (mt List.map_eq_nil_iff.mp hne) _
  rw [rows_tableOfColumns hcolumns (size_columns_of_ne_any hany)]
  by_cases hgroup : groupByColumnIds = []
  · subst hgroup
    have hrow : (aggregates.map (aggregateColumnOf table [])).map
        (fun column => column.2.variantAt 0) = referenceRow table aggregates [] table.rowIds := by
      rw [List.map_map]
      exact List.map_congr_left fun a ha =>
        variantAt_aggregateColumnOf_nil ht (hvalid a ha) (hstandard a ha)
    rw [if_pos rfl, referenceRows, if_pos rfl, ← hrow]
    exact List.Perm.refl _
  · rw [if_neg hgroup, groupPositions, length_filterMap_pickRow, ← length_groups]
    refine List.Perm.trans (List.Perm.of_eq ?_) (map_rowOfGroup_perm ht hcols hgroup)
    refine List.ext_getElem (by simp) fun i hi hi' => ?_
    rw [List.length_map] at hi'
    rw [List.getElem_map, List.getElem_range, List.getElem_map]
    exact row_eq_rowOfGroup ht hcols hvalid hstandard hgroup (List.getElem?_eq_getElem hi')

/-- Three rows of integers in two chunks. -/
def threeIntegers : Table ℚ := .ofInts "a" [[1, 2], [1]]

end Skyrise

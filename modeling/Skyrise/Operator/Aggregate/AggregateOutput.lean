/-
The output table of the aggregate operator.

The GROUP BY columns keep their definitions.  The column of an aggregate has the data
type of the aggregate, and can hold NULLs unless it counts.  Every column is a segment
of its data type, and all of them have an entry for every group.
-/
import Skyrise.Operator.Aggregate.ReferenceRows

namespace Skyrise

variable {R : Type} [FloatingPoint R]

/-- The column definitions of the output. -/
def outputDefinitions (table : Table R) (groupByColumnIds : List ℕ)
    (aggregates : List AggregateExpression) : List TableColumnDefinition :=
  groupByColumnIds.map table.columnDefinition ++ aggregates.map fun aggregate =>
    ⟨aggregate.asColumnName, aggregate.dataType table, needsNull aggregate.aggregateFunction⟩

/-- A column of a table: its segment has the data type of its definition, and no NULLs if it is not
nullable. -/
structure OutputColumn.WellFormed (column : OutputColumn R) : Prop where
  segment : column.2.WellFormed
  dataType : column.2.dataType = column.1.dataType
  not_null : column.1.nullable = false → ∀ i, column.2.isNull i = false

variable {table : Table R} {groupByColumnIds : List ℕ} {aggregates : List AggregateExpression}
  {aggregate : AggregateExpression}

omit [FloatingPoint R] in
/-- Columns of one size make up a table. -/
lemma wellFormed_tableOfColumns {columns : List (OutputColumn R)} {n : ℕ}
    (hcolumns : ∀ column ∈ columns, OutputColumn.WellFormed column)
    (hsize : ∀ column ∈ columns, column.2.size = n) : (tableOfColumns columns).WellFormed := by
  have hchunk : (⟨columns.map Prod.snd⟩ : Chunk R).WellFormed (columns.map Prod.fst) := by
    constructor
    · rw [List.map_map, List.map_map]
      exact List.map_congr_left fun column hcolumn => (hcolumns column hcolumn).dataType
    · intro s hs
      obtain ⟨column, hcolumn, rfl⟩ := List.mem_map.mp hs
      exact (hcolumns column hcolumn).segment
    · intro s hs
      obtain ⟨column, hcolumn, rfl⟩ := List.mem_map.mp hs
      cases columns with
      | nil => cases hcolumn
      | cons first rest =>
        exact (hsize column hcolumn).trans (hsize first List.mem_cons_self).symm
    · intro columnId d hd hnullable i
      rw [List.getElem?_map, Option.map_eq_some_iff] at hd
      obtain ⟨column, hcolumn, rfl⟩ := hd
      rw [Chunk.getSegment, List.getD_eq_getElem?_getD, List.getElem?_map, hcolumn]
      exact (hcolumns column (List.mem_of_getElem? hcolumn)).not_null hnullable i
  constructor
  · intro d hd
    obtain ⟨column, hcolumn, rfl⟩ := List.mem_map.mp hd
    rw [← (hcolumns column hcolumn).dataType]
    exact (hcolumns column hcolumn).segment.dataType_ne_null
  · intro c hc
    rw [tableOfColumns] at hc
    dsimp only at hc
    split at hc
    · obtain rfl := List.mem_singleton.mp hc
      exact hchunk
    · cases hc

/-! ### The columns -/

/-- The rows that the GROUP BY columns are read from are rows of the table. -/
lemma mem_rowIds_of_mem_groupPositions (ht : table.WellFormed)
    (hcols : ∀ c ∈ groupByColumnIds, c < table.getColumnCount) {id : RowId}
    (hid : id ∈ groupPositions table groupByColumnIds) : id ∈ table.rowIds := by
  obtain ⟨i, -, hpick⟩ := List.mem_filterMap.mp hid
  have hmem := KeyKind.mem_of_pickRow hpick
  obtain ⟨indexOf, hnumbered, -⟩ := numberedRows_spec ht hcols
  rw [hnumbered, rowsOfResult_map] at hmem
  exact List.mem_of_mem_filter hmem

/-- A column whose cells have its data type, or are NULL. -/
lemma wellFormed_of_cells {π : Type*} {definition : TableColumnDefinition} {ps : List π}
    {cell : π → AllTypeVariant R} (hne : definition.dataType ≠ .null)
    (hcell : ∀ p ∈ ps, ∀ v, cell p = some v → v.dataType = definition.dataType) :
    OutputColumn.WellFormed (definition, if definition.nullable then
      ValueSegment.ofNullable definition.dataType
        (ps.map fun p => (cell p).getD definition.dataType.defaultValue)
        (ps.map fun p => (cell p).isNone)
    else .ofValues definition.dataType
      (ps.map fun p => (cell p).getD definition.dataType.defaultValue)) := by
  have htyped : ∀ v ∈ ps.map fun p => (cell p).getD definition.dataType.defaultValue,
      v.dataType = definition.dataType := by
    intro v hv
    obtain ⟨p, hp, rfl⟩ := List.mem_map.mp hv
    cases h : cell p with
    | none => exact DataType.dataType_defaultValue hne
    | some v => exact hcell p hp v h
  split
  · next hnullable =>
    refine ⟨ValueSegment.wellFormed_ofNullable hne htyped (by simp), rfl, ?_⟩
    intro hnot
    rw [hnullable] at hnot
    cases hnot
  · exact ⟨ValueSegment.wellFormed_ofValues hne htyped, rfl, fun _ _ => rfl⟩

lemma wellFormed_writeUnaggregatedColumn (ht : table.WellFormed) {columnId : ℕ}
    (hcol : columnId < table.getColumnCount) {positions : List RowId}
    (hpositions : ∀ id ∈ positions, id ∈ table.rowIds) :
    OutputColumn.WellFormed (writeUnaggregatedColumn table positions columnId) :=
  wellFormed_of_cells (ht.columnDataType_ne_null hcol) fun id hid _ hv =>
    ht.dataType_of_cellAt (hpositions id hid) hcol hv

lemma wellFormed_aggregateOutput (hne : aggregate.dataType table ≠ .null)
    {cells : List (AllTypeVariant R)}
    (hcells : ∀ v, some v ∈ cells → v.dataType = aggregate.dataType table) :
    OutputColumn.WellFormed (aggregateOutput table groupByColumnIds aggregate cells) := by
  have hcells' : ∀ v, some v ∈ (if groupByColumnIds = [] ∧ cells = [] then
      [if needsNull aggregate.aggregateFunction then none
        else some (aggregate.dataType table).defaultValue] else cells) →
      v.dataType = aggregate.dataType table := by
    intro v hv
    split at hv
    · split at hv
      · cases List.mem_singleton.mp hv
      · obtain rfl := Option.some.inj (List.mem_singleton.mp hv)
        exact DataType.dataType_defaultValue hne
    · exact hcells v hv
  rw [aggregateOutput]
  generalize (if groupByColumnIds = [] ∧ cells = [] then _ else cells) = cells' at hcells'
  exact @wellFormed_of_cells R _ _ _ cells' (fun cell => cell) hne fun cell hcell v hv =>
    hcells' v (hv ▸ hcell)

/-- The data type of an aggregate. -/
lemma dataType_referenceAggregate (ht : table.WellFormed) (ha : aggregate.Valid table)
    (hf : aggregate.aggregateFunction.IsStandard) {rows : List RowId}
    (hrows : ∀ id ∈ rows, id ∈ table.rowIds) {v : Value R}
    (hv : referenceAggregate table aggregate rows = some v) :
    v.dataType = aggregate.dataType table := by
  rw [referenceAggregate] at hv
  rw [AggregateExpression.dataType, AggregateExpression.columnDataType]
  cases hcolumn : aggregate.columnId with
  | none =>
    rw [hcolumn] at hv
    rw [ha.star hcolumn, ← Option.some.inj hv]
    rfl
  | some columnId =>
    have hcol := ha.columnId_lt columnId hcolumn
    have htypes := mem_nonNullValues_dataType ht hcol hrows
    have hstring := ha.arithmetic columnId hcolumn
    have hnull := ht.columnDataType_ne_null hcol
    rw [hcolumn] at hv
    dsimp only at hv ⊢
    rcases hf with hf | hf | hf | hf | hf <;> rw [hf] at hv hstring ⊢
    · rw [← Option.some.inj hv]
      rfl
    · rw [← Option.some.inj hv]
      rfl
    · exact htypes v (List.min?_mem hv)
    · exact htypes v (List.max?_mem hv)
    · dsimp only at hv
      split at hv
      · cases hv
      · rw [← Option.some.inj hv]
        cases htype : table.columnDataType columnId with
        | null => exact absurd htype hnull
        | string => exact absurd rfl (hstring htype).1
        | int | long | float | double => rfl

omit [FloatingPoint R] in
lemma AggregateExpression.Valid.dataType_ne_null (ha : aggregate.Valid table) (ht : table.WellFormed)
    (hf : aggregate.aggregateFunction.IsStandard) : aggregate.dataType table ≠ .null := by
  rw [AggregateExpression.dataType, AggregateExpression.columnDataType]
  cases hcolumn : aggregate.columnId with
  | none =>
    rw [ha.star hcolumn]
    simp [aggregateDataType]
  | some columnId =>
    have hnull := ht.columnDataType_ne_null (ha.columnId_lt columnId hcolumn)
    have hstring := ha.arithmetic columnId hcolumn
    dsimp only
    rcases hf with hf | hf | hf | hf | hf <;> rw [hf] at hstring ⊢
    · simp [aggregateDataType]
    · simp [aggregateDataType]
    · exact hnull
    · exact hnull
    · cases htype : table.columnDataType columnId with
      | null => exact absurd htype hnull
      | string => exact absurd rfl (hstring htype).1
      | int | long | float | double => simp [aggregateDataType]

lemma wellFormed_aggregateColumnOf (ht : table.WellFormed)
    (hcols : ∀ c ∈ groupByColumnIds, c < table.getColumnCount) (ha : aggregate.Valid table)
    (hf : aggregate.aggregateFunction.IsStandard) :
    OutputColumn.WellFormed (aggregateColumnOf table groupByColumnIds aggregate) := by
  rw [aggregateColumnOf, if_neg hf.ne_any]
  refine wellFormed_aggregateOutput (ha.dataType_ne_null ht hf) fun v hv => ?_
  rw [aggregateCells] at hv
  split at hv
  · next hstar =>
    obtain rfl := Option.some.inj (List.mem_singleton.mp hv)
    rw [AggregateExpression.dataType, ha.star hstar.1]
    rfl
  · obtain ⟨i, -, hcell⟩ := List.mem_map.mp hv
    have hrows : ∀ id ∈ rowsOfResult (numberedRows table groupByColumnIds) i,
        id ∈ table.rowIds := by
      obtain ⟨indexOf, hnumbered, -⟩ := numberedRows_spec ht hcols
      rw [hnumbered, rowsOfResult_map]
      exact fun id hid => List.mem_of_mem_filter hid
    rw [writeAggregateValue_aggregated ht ha hf hrows] at hcell
    exact dataType_referenceAggregate ht ha hf hrows hcell

/-! ### The table -/

/-- The output table. -/
def aggregateTable (table : Table R) (groupByColumnIds : List ℕ)
    (aggregates : List AggregateExpression) : Table R :=
  tableOfColumns (groupColumns table groupByColumnIds ++
    aggregates.map (aggregateColumnOf table groupByColumnIds))

lemma onExecute_eq_aggregateTable (ht : table.WellFormed) (hvalid : ∀ a ∈ aggregates, a.Valid table)
    (hstandard : ∀ a ∈ aggregates, a.aggregateFunction.IsStandard)
    (hne : aggregates ≠ [] ∨ groupByColumnIds ≠ []) :
    onExecute table groupByColumnIds aggregates =
      .ok (aggregateTable table groupByColumnIds aggregates) := by
  have hany : ∀ a ∈ aggregates, a.aggregateFunction ≠ .any := fun a ha => (hstandard a ha).ne_any
  cases aggregates with
  | nil => exact onExecute_of_any (by simp) (by simp) (by simp) hne
  | cons first rest => exact onExecute_of_ne_any ht hvalid hany (List.cons_ne_nil _ _)

/-- **The output is well-formed.** -/
lemma wellFormed_aggregateTable (ht : table.WellFormed)
    (hcols : ∀ c ∈ groupByColumnIds, c < table.getColumnCount)
    (hvalid : ∀ a ∈ aggregates, a.Valid table)
    (hstandard : ∀ a ∈ aggregates, a.aggregateFunction.IsStandard) :
    (aggregateTable table groupByColumnIds aggregates).WellFormed := by
  refine wellFormed_tableOfColumns ?_ (size_columns_of_ne_any fun a ha => (hstandard a ha).ne_any)
  intro column hcolumn
  rcases List.mem_append.mp hcolumn with hcolumn | hcolumn
  · obtain ⟨c, hc, rfl⟩ := List.mem_map.mp hcolumn
    exact wellFormed_writeUnaggregatedColumn ht (hcols c hc) fun id hid =>
      mem_rowIds_of_mem_groupPositions ht hcols hid
  · obtain ⟨a, ha, rfl⟩ := List.mem_map.mp hcolumn
    exact wellFormed_aggregateColumnOf ht hcols (hvalid a ha) (hstandard a ha)

lemma columnDefinitions_aggregateTable
    (hstandard : ∀ a ∈ aggregates, a.aggregateFunction.IsStandard) :
    (aggregateTable table groupByColumnIds aggregates).columnDefinitions =
      outputDefinitions table groupByColumnIds aggregates := by
  rw [aggregateTable, tableOfColumns, outputDefinitions]
  dsimp only
  rw [List.map_append, groupColumns, List.map_map, List.map_map]
  refine congrArg₂ _ rfl (List.map_congr_left fun a ha => ?_)
  rw [Function.comp_apply, aggregateColumnOf, if_neg (hstandard a ha).ne_any]
  rfl

end Skyrise

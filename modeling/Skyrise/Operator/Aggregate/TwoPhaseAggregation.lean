/-
Aggregation in two phases.

Workers aggregate the rows that they have, and their results are aggregated again.
Counts and sums are summed up, and of the minima and maxima the least and the greatest
one are taken.  This has the same rows as the aggregation of all rows at once, however
they are split: a group is missing in the results of a worker that has no row of it,
and without GROUP BY columns every worker has a result, also if it has no rows.

Sums are taken modulo 2^64, as those of longs are.
-/
import Skyrise.Operator.Aggregate.AggregateOutput
import Skyrise.Utils.Grouping

namespace Skyrise

variable {R : Type} [FloatingPoint R]

/-! ### Aggregates of rows -/

/-- The aggregate of some values. -/
def aggregateOfValues (f : AggregateFunction) (t : DataType) (values : List (Value R)) :
    AllTypeVariant R :=
  match f with
  | .count => some (.long (.ofNat values.length))
  | .countDistinct => some (.long (.ofNat values.dedup.length))
  | .min => values.min?
  | .max => values.max?
  | .sum => if values = [] then none else some (sumOf t values)
  | _ => none

/-- The values of a column in some rows, without NULLs. -/
def columnValues (columnId : ℕ) (rows : List (List (AllTypeVariant R))) : List (Value R) :=
  rows.filterMap fun row => (row[columnId]?).join

/-- The aggregate of some rows. -/
def aggregateOfRows (dataType : ℕ → DataType) (aggregate : AggregateExpression)
    (rows : List (List (AllTypeVariant R))) : AllTypeVariant R :=
  match aggregate.columnId with
  | none => some (.long (.ofNat rows.length))
  | some columnId => aggregateOfValues aggregate.aggregateFunction (dataType columnId)
      (columnValues columnId rows)

/-- The values of a row in the GROUP BY columns. -/
def keyOfRow (groupByColumnIds : List ℕ) (row : List (AllTypeVariant R)) :
    List (AllTypeVariant R) :=
  groupByColumnIds.map fun columnId => (row[columnId]?).join

/-- The row of a group. -/
def rowOfRows (dataType : ℕ → DataType) (aggregates : List AggregateExpression)
    (key : List (AllTypeVariant R)) (rows : List (List (AllTypeVariant R))) :
    List (AllTypeVariant R) :=
  key ++ aggregates.map fun aggregate => aggregateOfRows dataType aggregate rows

/-- The rows of all groups of some rows. -/
def aggregatedRows (dataType : ℕ → DataType) (groupByColumnIds : List ℕ)
    (aggregates : List AggregateExpression) (rows : List (List (AllTypeVariant R))) :
    List (List (AllTypeVariant R)) :=
  if groupByColumnIds = [] then [rowOfRows dataType aggregates [] rows]
  else Grouping.grouped (keyOfRow groupByColumnIds) (rowOfRows dataType aggregates) rows

section

variable {table : Table R} {groupByColumnIds : List ℕ} {aggregates : List AggregateExpression}
  {aggregate : AggregateExpression} {ids : List RowId}

omit [FloatingPoint R] in
lemma columnValues_map_rowAt (ht : table.WellFormed) {columnId : ℕ}
    (hcol : columnId < table.getColumnCount) (hids : ∀ id ∈ ids, id ∈ table.rowIds) :
    columnValues columnId (ids.map table.rowAt) = nonNullValues table columnId ids := by
  rw [columnValues, nonNullValues, List.filterMap_map]
  refine List.filterMap_congr fun id hid => ?_
  rw [Function.comp_apply, ht.getElem?_rowAt (hids id hid) hcol]
  rfl

/-- The aggregate of a group, from its rows. -/
lemma referenceAggregate_eq (ht : table.WellFormed) (ha : aggregate.Valid table)
    (hids : ∀ id ∈ ids, id ∈ table.rowIds) : referenceAggregate table aggregate ids =
      aggregateOfRows table.columnDataType aggregate (ids.map table.rowAt) := by
  rw [referenceAggregate, aggregateOfRows]
  cases hcolumn : aggregate.columnId with
  | none => rw [List.length_map]
  | some columnId =>
    dsimp only
    rw [columnValues_map_rowAt ht (ha.columnId_lt columnId hcolumn) hids]
    rfl

omit [FloatingPoint R] in
lemma keyOfRow_rowAt (ht : table.WellFormed)
    (hcols : ∀ c ∈ groupByColumnIds, c < table.getColumnCount) {id : RowId} (hid : id ∈ table.rowIds) :
    keyOfRow groupByColumnIds (table.rowAt id) = groupValues table groupByColumnIds id := by
  rw [keyOfRow, groupValues]
  refine List.map_congr_left fun c hc => ?_
  rw [ht.getElem?_rowAt hid (hcols c hc)]
  rfl

/-- The rows of the reference, from those of the table. -/
lemma referenceRows_eq (ht : table.WellFormed)
    (hcols : ∀ c ∈ groupByColumnIds, c < table.getColumnCount)
    (hvalid : ∀ a ∈ aggregates, a.Valid table) : referenceRows table groupByColumnIds aggregates =
      aggregatedRows table.columnDataType groupByColumnIds aggregates table.rows := by
  have hrow : ∀ (key : List (AllTypeVariant R)) {ids : List RowId},
      (∀ id ∈ ids, id ∈ table.rowIds) → referenceRow table aggregates key ids =
        rowOfRows table.columnDataType aggregates key (ids.map table.rowAt) := by
    intro key ids hids
    rw [referenceRow, rowOfRows]
    exact congrArg (key ++ ·) (List.map_congr_left fun a ha =>
      referenceAggregate_eq ht (hvalid a ha) hids)
  rw [referenceRows, aggregatedRows, Table.rows_eq_map_rowAt]
  split
  · rw [hrow [] fun id hid => hid]
  · have hkeys : table.rowIds.map (groupValues table groupByColumnIds) =
        (table.rowIds.map table.rowAt).map (keyOfRow groupByColumnIds) := by
      rw [List.map_map]
      exact List.map_congr_left fun id hid => (keyOfRow_rowAt ht hcols hid).symm
    rw [Grouping.grouped, ← hkeys]
    refine List.map_congr_left fun key _ => ?_
    rw [hrow key fun id hid => List.mem_of_mem_filter hid, List.filter_map]
    refine congrArg (fun ids => rowOfRows _ _ key (List.map table.rowAt ids)) ?_
    refine List.filter_congr fun id hid => ?_
    rw [Function.comp_apply, keyOfRow_rowAt ht hcols hid]

end

/-! ### Combining partial aggregates -/

/-- An aggregate that can be computed from those of parts of the rows: COUNT, MIN, MAX or the SUM of
integers. -/
def AggregateExpression.IsDecomposable (table : Table R) (aggregate : AggregateExpression) : Prop :=
  aggregate.aggregateFunction = .count ∨ aggregate.aggregateFunction = .min ∨
    aggregate.aggregateFunction = .max ∨ (aggregate.aggregateFunction = .sum ∧
      ∀ c, aggregate.columnId = some c → table.columnDataType c = .int ∨
        table.columnDataType c = .long)

/-- The function that combines partial aggregates: counts are summed up. -/
def combiningFunction : AggregateFunction → AggregateFunction
  | .count => .sum
  | f => f

/-- The aggregate of a column of partial aggregates. -/
def AggregateExpression.combining (aggregate : AggregateExpression) (columnId : ℕ) :
    AggregateExpression :=
  ⟨combiningFunction aggregate.aggregateFunction, some columnId, aggregate.asColumnName, none⟩

/-- The aggregates of partial results, which have the GROUP BY columns in front of those of the
aggregates. -/
def combiningAggregates (groupByCount : ℕ) (aggregates : List AggregateExpression) :
    List AggregateExpression :=
  aggregates.mapIdx fun i aggregate => aggregate.combining (groupByCount + i)

section

variable {table : Table R} {aggregates : List AggregateExpression} {aggregate : AggregateExpression}
  {t : DataType}

omit [FloatingPoint R] in
lemma AggregateExpression.IsDecomposable.sum_columnDataType (ha : aggregate.IsDecomposable table)
    {columnId : ℕ} (hcolumn : aggregate.columnId = some columnId)
    (hsum : aggregate.aggregateFunction = .sum) :
    table.columnDataType columnId = .int ∨ table.columnDataType columnId = .long := by
  rcases ha with hf | hf | hf | ⟨-, htype⟩
  · rw [hf] at hsum
    cases hsum
  · rw [hf] at hsum
    cases hsum
  · rw [hf] at hsum
    cases hsum
  · exact htype columnId hcolumn

lemma aggregateOfValues_perm {f : AggregateFunction} (hsum : f = .sum → t = .int ∨ t = .long)
    (hf : f = .count ∨ f = .min ∨ f = .max ∨ f = .sum) {values values' : List (Value R)}
    (h : values.Perm values') : aggregateOfValues f t values = aggregateOfValues f t values' := by
  rcases hf with rfl | rfl | rfl | rfl
  · rw [aggregateOfValues, aggregateOfValues, h.length_eq]
  · exact Grouping.pick_perm List.min?_eq_some_iff h
  · exact Grouping.pick_perm List.max?_eq_some_iff h
  · have hnil : values = [] ↔ values' = [] := by
      rw [← List.length_eq_zero_iff, h.length_eq, List.length_eq_zero_iff]
    have hsumOf : sumOf t values = sumOf t values' := by
      rcases hsum rfl with rfl | rfl <;>
        rw [sumOf, sumOf, (h.map integerOf).sum_eq]
    simp only [aggregateOfValues, hnil, hsumOf]

lemma aggregateOfRows_perm (ha : aggregate.IsDecomposable table)
    {rows rows' : List (List (AllTypeVariant R))} (h : rows.Perm rows') :
    aggregateOfRows table.columnDataType aggregate rows =
      aggregateOfRows table.columnDataType aggregate rows' := by
  rw [aggregateOfRows, aggregateOfRows]
  cases hcolumn : aggregate.columnId with
  | none => rw [h.length_eq]
  | some columnId =>
    exact aggregateOfValues_perm (ha.sum_columnDataType hcolumn)
      (ha.imp id (Or.imp id (Or.imp id And.left))) (h.filterMap _)

/-- Longs that are sums are summed up. -/
lemma ofInt_sum_toInt (sums : List ℤ) :
    Int64.ofInt (sums.map fun sum => (Int64.ofInt sum).toInt).sum = Int64.ofInt sums.sum := by
  induction sums with
  | nil => rfl
  | cons sum sums ih =>
    rw [List.map_cons, List.sum_cons, List.sum_cons, Int64.ofInt_add, ih, Int64.ofInt_toInt,
      ← Int64.ofInt_add]

lemma sumOf_longs (sums : List ℤ) :
    sumOf .long (sums.map fun sum => (.long (.ofInt sum) : Value R)) = .long (.ofInt sums.sum) := by
  rw [sumOf, List.map_map]
  exact congrArg Value.long (ofInt_sum_toInt sums)

/-- The sum of counts. -/
lemma aggregateOfValues_counts (counts : List ℕ) (hne : counts ≠ []) :
    aggregateOfValues .sum .long (counts.map fun count => (.long (.ofNat count) : Value R)) =
      some (.long (.ofNat counts.sum)) := by
  have hcounts : (counts.map fun count => (.long (.ofNat count) : Value R)) =
      (counts.map Int.ofNat).map fun sum => .long (.ofInt sum) := by
    rw [List.map_map]
    rfl
  have hsum : ∀ counts : List ℕ, (counts.map Int.ofNat).sum = Int.ofNat counts.sum := by
    intro counts
    induction counts with
    | nil => rfl
    | cons count counts ih =>
      rw [List.map_cons, List.sum_cons, List.sum_cons, ih]
      rfl
  rw [aggregateOfValues, if_neg (mt List.map_eq_nil_iff.mp hne), hcounts, sumOf_longs, hsum]
  rfl

/-- The sum of the sums of some parts; those of no values are NULL. -/
lemma aggregateOfValues_sums (htype : t = .int ∨ t = .long) (parts : List (List (Value R))) :
    aggregateOfValues .sum .long (parts.filterMap (aggregateOfValues .sum t)) =
      aggregateOfValues .sum t parts.flatten := by
  have hsumOf : ∀ values : List (Value R),
      sumOf t values = .long (.ofInt (values.map integerOf).sum) := by
    intro values
    rcases htype with rfl | rfl <;> rfl
  have hsums : parts.filterMap (aggregateOfValues .sum t) =
      ((parts.filter (· ≠ [])).map fun values => (values.map integerOf).sum).map
        fun sum => (.long (.ofInt sum) : Value R) := by
    rw [List.map_map]
    induction parts with
    | nil => rfl
    | cons values parts ih =>
      rw [List.filterMap_cons, List.filter_cons, ih, aggregateOfValues]
      by_cases hnil : values = []
      · simp [hnil]
      · simp [hnil, hsumOf]
  have hflatten : parts.flatten = (parts.filter (· ≠ [])).flatten := List.flatten_filter_ne_nil.symm
  have hnil : ∀ values ∈ parts.filter (· ≠ []), values ≠ [] := fun values hvalues =>
    of_decide_eq_true (List.mem_filter.mp hvalues).2
  rw [hsums, hflatten]
  generalize parts.filter (· ≠ []) = occurring at hnil
  cases occurring with
  | nil => rfl
  | cons values occurring =>
    have hne : (values :: occurring).flatten ≠ [] :=
      List.append_ne_nil_of_left_ne_nil (hnil values List.mem_cons_self) _
    rw [aggregateOfValues, aggregateOfValues, if_neg hne, if_neg (by simp), sumOf_longs, hsumOf,
      List.map_flatten, List.sum_flatten, List.map_map]
    rfl

/-- **An aggregate of partial aggregates** is the aggregate of all values. -/
lemma aggregateOfValues_flatten {f : AggregateFunction} (hsum : f = .sum → t = .int ∨ t = .long)
    (hf : f = .count ∨ f = .min ∨ f = .max ∨ f = .sum) {parts : List (List (Value R))}
    (hne : parts ≠ []) :
    aggregateOfValues (combiningFunction f) (aggregateDataType t f)
      (parts.filterMap (aggregateOfValues f t)) = aggregateOfValues f t parts.flatten := by
  rcases hf with rfl | rfl | rfl | rfl
  · have hcounts : parts.filterMap (aggregateOfValues .count t) =
        (parts.map List.length).map fun count => (.long (.ofNat count) : Value R) := by
      rw [List.map_map, ← List.filterMap_eq_map]
      rfl
    rw [hcounts]
    refine (aggregateOfValues_counts _ (mt List.map_eq_nil_iff.mp hne)).trans ?_
    rw [aggregateOfValues, List.length_flatten]
  · exact Grouping.pick_filterMap List.min?_eq_some_iff List.min?_eq_none_iff parts
  · exact Grouping.pick_filterMap List.max?_eq_some_iff List.max?_eq_none_iff parts
  · have htype : aggregateDataType t .sum = .long := by
      rcases hsum rfl with rfl | rfl <;> rfl
    rw [htype]
    exact aggregateOfValues_sums (hsum rfl) parts

omit [FloatingPoint R] in
lemma columnValues_flatten (columnId : ℕ) (parts : List (List (List (AllTypeVariant R)))) :
    columnValues columnId parts.flatten = (parts.map (columnValues columnId)).flatten :=
  List.filterMap_flatten

/-- The cells of an aggregate in the rows of one group of some parts. -/
lemma columnValues_rowOfRows {dataType : ℕ → DataType} {j : ℕ} (hj : aggregates[j]? = some aggregate)
    (key : List (AllTypeVariant R)) (parts : List (List (List (AllTypeVariant R)))) :
    columnValues (key.length + j) (parts.map (rowOfRows dataType aggregates key)) =
      parts.filterMap (aggregateOfRows dataType aggregate) := by
  rw [columnValues, List.filterMap_map]
  refine List.filterMap_congr fun rows _ => ?_
  rw [Function.comp_apply, rowOfRows, List.getElem?_append_right (Nat.le_add_right _ _),
    Nat.add_sub_cancel_left, List.getElem?_map, hj]
  rfl

/-- An aggregate of the rows of one group of some parts. -/
lemma aggregateOfRows_combining (ha : aggregate.IsDecomposable table)
    (hstar : aggregate.columnId = none → aggregate.aggregateFunction = .count)
    {j : ℕ} (hj : aggregates[j]? = some aggregate) (key : List (AllTypeVariant R))
    {dataType : ℕ → DataType} (htype : dataType (key.length + j) = aggregate.dataType table)
    {parts : List (List (List (AllTypeVariant R)))} (hne : parts ≠ []) :
    aggregateOfRows dataType (aggregate.combining (key.length + j))
        (parts.map (rowOfRows table.columnDataType aggregates key)) =
      aggregateOfRows table.columnDataType aggregate parts.flatten := by
  have hcombining : aggregateOfRows dataType (aggregate.combining (key.length + j))
      (parts.map (rowOfRows table.columnDataType aggregates key)) =
        aggregateOfValues (combiningFunction aggregate.aggregateFunction)
          (aggregate.dataType table)
          (parts.filterMap (aggregateOfRows table.columnDataType aggregate)) := by
    rw [← columnValues_rowOfRows hj key, ← htype]
    rfl
  rw [hcombining]
  cases hcolumn : aggregate.columnId with
  | none =>
    have hcounts : parts.filterMap (aggregateOfRows table.columnDataType aggregate) =
        (parts.map List.length).map fun count => (.long (.ofNat count) : Value R) := by
      rw [List.map_map, ← List.filterMap_eq_map]
      refine List.filterMap_congr fun rows _ => ?_
      rw [aggregateOfRows, hcolumn]
      rfl
    rw [hcounts, AggregateExpression.dataType, hstar hcolumn, aggregateOfRows, hcolumn]
    refine (aggregateOfValues_counts _ (mt List.map_eq_nil_iff.mp hne)).trans ?_
    rw [← List.length_flatten]
  | some columnId =>
    have hvalues : parts.filterMap (aggregateOfRows table.columnDataType aggregate) =
        (parts.map (columnValues columnId)).filterMap (aggregateOfValues aggregate.aggregateFunction
          (table.columnDataType columnId)) := by
      rw [List.filterMap_map]
      refine List.filterMap_congr fun rows _ => ?_
      rw [aggregateOfRows, hcolumn]
      rfl
    have hfunction : aggregate.aggregateFunction = .count ∨ aggregate.aggregateFunction = .min ∨
        aggregate.aggregateFunction = .max ∨ aggregate.aggregateFunction = .sum :=
      ha.imp id (Or.imp id (Or.imp id And.left))
    rw [hvalues, AggregateExpression.dataType, AggregateExpression.columnDataType, hcolumn,
      aggregateOfRows, hcolumn]
    dsimp only
    rw [columnValues_flatten]
    exact aggregateOfValues_flatten (ha.sum_columnDataType hcolumn) hfunction
      (mt List.map_eq_nil_iff.mp hne)

lemma keyOfRow_rowOfRows {dataType : ℕ → DataType} {key : List (AllTypeVariant R)} {n : ℕ}
    (hkey : key.length = n) {rows : List (List (AllTypeVariant R))} :
    keyOfRow (List.range n) (rowOfRows dataType aggregates key rows) = key := by
  subst hkey
  rw [keyOfRow, rowOfRows]
  refine List.ext_getElem (by simp) fun i hi hi' => ?_
  rw [List.getElem_map, List.getElem_range, List.getElem?_append_left hi',
    List.getElem?_eq_getElem hi']
  rfl

/-- **The rows of the groups of partial results** are those of all rows. -/
theorem aggregatedRows_aggregatedRows {groupByColumnIds : List ℕ}
    (hdecomposable : ∀ a ∈ aggregates, a.IsDecomposable table)
    (hvalid : ∀ a ∈ aggregates, a.Valid table) {dataType : ℕ → DataType}
    (htype : ∀ j a, aggregates[j]? = some a →
      dataType (groupByColumnIds.length + j) = a.dataType table)
    {parts : List (List (List (AllTypeVariant R)))} (hne : parts ≠ []) :
    (aggregatedRows dataType (List.range groupByColumnIds.length)
        (combiningAggregates groupByColumnIds.length aggregates) (parts.flatMap
          (aggregatedRows table.columnDataType groupByColumnIds aggregates))).Perm
      (aggregatedRows table.columnDataType groupByColumnIds aggregates parts.flatten) := by
  have hrow : ∀ (key : List (AllTypeVariant R)) (parts : List (List (List (AllTypeVariant R)))),
      key.length = groupByColumnIds.length → parts ≠ [] →
      rowOfRows dataType (combiningAggregates groupByColumnIds.length aggregates) key
          (parts.map (rowOfRows table.columnDataType aggregates key)) =
        rowOfRows table.columnDataType aggregates key parts.flatten := by
    intro key parts hkey hne
    rw [rowOfRows, rowOfRows, combiningAggregates, ← hkey]
    refine congrArg (key ++ ·) (List.ext_getElem (by simp) fun j hj hj' => ?_)
    have hlt : j < aggregates.length := by simpa using hj'
    have ha := List.getElem_mem hlt
    rw [List.getElem_map, List.getElem_map, List.getElem_mapIdx]
    exact aggregateOfRows_combining (hdecomposable _ ha) (hvalid _ ha).star
      (List.getElem?_eq_getElem hlt) key (by rw [hkey, htype j _ (List.getElem?_eq_getElem hlt)]) hne
  by_cases hgroup : groupByColumnIds = []
  · subst hgroup
    have hfirst : parts.flatMap (aggregatedRows table.columnDataType [] aggregates) =
        parts.map (rowOfRows table.columnDataType aggregates []) := by
      rw [List.map_eq_flatMap]
      rfl
    rw [hfirst]
    exact List.Perm.of_eq (congrArg ([·]) (hrow [] parts rfl hne))
  · have hrange : List.range groupByColumnIds.length ≠ [] := by
      simpa using hgroup
    have hfirst : aggregatedRows (R := R) table.columnDataType groupByColumnIds aggregates =
        Grouping.grouped (keyOfRow groupByColumnIds)
          (rowOfRows table.columnDataType aggregates) := by
      ext1 rows
      rw [aggregatedRows, if_neg hgroup]
    rw [aggregatedRows, if_neg hrange, hfirst]
    have hkey : ∀ (key : List (AllTypeVariant R)) (rows : List (List (AllTypeVariant R))),
        (∃ row ∈ rows, keyOfRow groupByColumnIds row = key) →
        keyOfRow (List.range groupByColumnIds.length)
          (rowOfRows table.columnDataType aggregates key rows) = key := by
      rintro key rows ⟨row, -, rfl⟩
      exact keyOfRow_rowOfRows (by rw [keyOfRow, List.length_map])
    refine Grouping.grouped_grouped hkey (fun row parts hne => ?_) parts
    exact hrow (keyOfRow groupByColumnIds row) parts (by rw [keyOfRow, List.length_map]) hne

end

/-! ### Aggregating the tables of workers -/

/-- The concatenation of tables with the same columns. -/
def concatenate (tables : List (Table R)) : Table R :=
  ⟨(tables.head?.map Table.columnDefinitions).getD [], tables.flatMap Table.chunks⟩

section

variable {table part : Table R} {groupByColumnIds : List ℕ} {aggregates : List AggregateExpression}
  {aggregate : AggregateExpression}

omit [FloatingPoint R] in
lemma AggregateExpression.IsDecomposable.isStandard (ha : aggregate.IsDecomposable table) :
    aggregate.aggregateFunction.IsStandard := by
  rcases ha with hf | hf | hf | ⟨hf, -⟩
  · exact .inl hf
  · exact .inr (.inr (.inl hf))
  · exact .inr (.inr (.inr (.inl hf)))
  · exact .inr (.inr (.inr (.inr hf)))

lemma aggregatedRows_perm (hdecomposable : ∀ a ∈ aggregates, a.IsDecomposable table)
    {rows rows' : List (List (AllTypeVariant R))} (h : rows.Perm rows') :
    (aggregatedRows table.columnDataType groupByColumnIds aggregates rows).Perm
      (aggregatedRows table.columnDataType groupByColumnIds aggregates rows') := by
  have hrow : ∀ (key : List (AllTypeVariant R)) {rows rows' : List (List (AllTypeVariant R))},
      rows.Perm rows' → rowOfRows table.columnDataType aggregates key rows =
        rowOfRows table.columnDataType aggregates key rows' := by
    intro key rows rows' h
    exact congrArg (key ++ ·) (List.map_congr_left fun a ha =>
      aggregateOfRows_perm (hdecomposable a ha) h)
  rw [aggregatedRows, aggregatedRows]
  split
  · rw [hrow [] h]
  · exact Grouping.grouped_perm hrow h

/-- What a worker returns for its part of the rows. -/
lemma aggregateTable_part (hpart : part.WellFormed)
    (hdefinitions : part.columnDefinitions = table.columnDefinitions)
    (hcols : ∀ c ∈ groupByColumnIds, c < table.getColumnCount)
    (hvalid : ∀ a ∈ aggregates, a.Valid table)
    (hdecomposable : ∀ a ∈ aggregates, a.IsDecomposable table)
    (hne : aggregates ≠ [] ∨ groupByColumnIds ≠ []) :
    onExecute part groupByColumnIds aggregates =
        .ok (aggregateTable part groupByColumnIds aggregates) ∧
      (aggregateTable part groupByColumnIds aggregates).WellFormed ∧
      (aggregateTable part groupByColumnIds aggregates).columnDefinitions =
        outputDefinitions table groupByColumnIds aggregates ∧
      (aggregateTable part groupByColumnIds aggregates).rows.Perm
        (aggregatedRows table.columnDataType groupByColumnIds aggregates part.rows) := by
  have hstandard : ∀ a ∈ aggregates, a.aggregateFunction.IsStandard :=
    fun a ha => (hdecomposable a ha).isStandard
  obtain ⟨definitions, chunks⟩ := part
  obtain ⟨definitions', chunks'⟩ := table
  obtain rfl : definitions = definitions' := hdefinitions
  have hvalid' : ∀ a ∈ aggregates, a.Valid (⟨definitions, chunks⟩ : Table R) := fun a ha =>
    ⟨(hvalid a ha).star, (hvalid a ha).columnId_lt, (hvalid a ha).arithmetic,
      (hvalid a ha).stringAgg⟩
  refine ⟨onExecute_eq_aggregateTable hpart hvalid' hstandard hne,
    wellFormed_aggregateTable hpart hcols hvalid' hstandard,
    columnDefinitions_aggregateTable hstandard, ?_⟩
  refine (rows_output_perm hpart hcols hvalid' hstandard hne).trans ?_
  rw [referenceRows_eq hpart hcols hvalid']
  exact List.Perm.refl _

/-! ### Aggregating the concatenation -/

omit [FloatingPoint R] in
lemma concatenate_spec {tables : List (Table R)} {definitions : List TableColumnDefinition}
    (hne : tables ≠ []) (h : ∀ t ∈ tables, t.WellFormed ∧ t.columnDefinitions = definitions) :
    (concatenate tables).WellFormed ∧ (concatenate tables).columnDefinitions = definitions ∧
      (concatenate tables).rows = tables.flatMap Table.rows := by
  have hdefinitions : (concatenate tables).columnDefinitions = definitions := by
    obtain ⟨first, rest, rfl⟩ := List.exists_cons_of_ne_nil hne
    exact (h first List.mem_cons_self).2
  refine ⟨⟨?_, ?_⟩, hdefinitions, ?_⟩
  · obtain ⟨first, rest, rfl⟩ := List.exists_cons_of_ne_nil hne
    exact (h first List.mem_cons_self).1.dataTypes
  · intro c hc
    obtain ⟨t, ht, hc⟩ := List.mem_flatMap.mp hc
    rw [hdefinitions, ← (h t ht).2]
    exact (h t ht).1.chunks c hc
  · rw [Table.rows, concatenate]
    exact List.flatMap_assoc

section

variable {partials : Table R}
  (hdefinitions : partials.columnDefinitions = outputDefinitions table groupByColumnIds aggregates)

include hdefinitions

omit [FloatingPoint R] in
lemma getColumnCount_partials :
    partials.getColumnCount = groupByColumnIds.length + aggregates.length := by
  rw [Table.getColumnCount, hdefinitions, outputDefinitions, List.length_append, List.length_map,
    List.length_map]

omit [FloatingPoint R] in
lemma columnDataType_partials {j : ℕ} (hj : aggregates[j]? = some aggregate) :
    partials.columnDataType (groupByColumnIds.length + j) = aggregate.dataType table := by
  rw [Table.columnDataType, Table.columnDefinition, hdefinitions, outputDefinitions,
    List.getD_eq_getElem?_getD, List.getElem?_append_right (by simp), List.length_map,
    Nat.add_sub_cancel_left, List.getElem?_map, hj]
  rfl

omit [FloatingPoint R] in
/-- The aggregate of a column of partial aggregates is one that the operator accepts. -/
lemma combining_spec {j : ℕ} (hj : aggregates[j]? = some aggregate)
    (hdecomposable : aggregate.IsDecomposable table) :
    (aggregate.combining (groupByColumnIds.length + j)).Valid partials ∧
      (aggregate.combining (groupByColumnIds.length + j)).IsDecomposable partials := by
  have hcol : groupByColumnIds.length + j < partials.getColumnCount := by
    rw [getColumnCount_partials hdefinitions]
    exact Nat.add_lt_add_left (List.getElem?_eq_some_iff.mp hj).1 _
  have htype := columnDataType_partials hdefinitions hj
  have hlong : combiningFunction aggregate.aggregateFunction = .sum →
      aggregate.dataType table = .long := by
    intro hsum
    rw [AggregateExpression.dataType]
    rcases hdecomposable with hf | hf | hf | ⟨hf, hinteger⟩
    · rw [hf]
      rfl
    · rw [hf] at hsum
      cases hsum
    · rw [hf] at hsum
      cases hsum
    · rw [AggregateExpression.columnDataType, hf]
      cases hcolumn : aggregate.columnId with
      | none => rfl
      | some c =>
        dsimp only
        rcases hinteger c hcolumn with h | h <;> rw [h] <;> rfl
  have hfunction : combiningFunction aggregate.aggregateFunction = .min ∨
      combiningFunction aggregate.aggregateFunction = .max ∨
      combiningFunction aggregate.aggregateFunction = .sum := by
    rcases hdecomposable with hf | hf | hf | ⟨hf, -⟩ <;> rw [hf] <;> simp [combiningFunction]
  refine ⟨⟨?_, ?_, ?_, ?_⟩, ?_⟩
  · intro hnone
    cases hnone
  · intro c hc
    obtain rfl := Option.some.inj hc
    exact hcol
  · intro c hc hstring
    obtain rfl := Option.some.inj hc
    rw [htype] at hstring
    have hsum : combiningFunction aggregate.aggregateFunction ≠ .sum := by
      intro hsum
      rw [hlong hsum] at hstring
      cases hstring
    rcases hfunction with hf | hf | hf
    · simp [AggregateExpression.combining, hf]
    · simp [AggregateExpression.combining, hf]
    · exact absurd hf hsum
  · intro c _ hagg
    rcases hfunction with hf | hf | hf <;> simp [AggregateExpression.combining, hf] at hagg
  · rcases hfunction with hf | hf | hf
    · exact .inr (.inl hf)
    · exact .inr (.inr (.inl hf))
    · refine .inr (.inr (.inr ⟨hf, fun c hc => .inr ?_⟩))
      obtain rfl := Option.some.inj hc
      rw [htype, hlong hf]

end

omit [FloatingPoint R] in
lemma mem_combiningAggregates {n : ℕ} {a : AggregateExpression} :
    a ∈ combiningAggregates n aggregates ↔
      ∃ j, ∃ aggregate : AggregateExpression, aggregates[j]? = some aggregate ∧
        aggregate.combining (n + j) = a := by
  rw [combiningAggregates, List.mem_iff_getElem?]
  simp only [List.getElem?_mapIdx, Option.map_eq_some_iff]

end

end Skyrise

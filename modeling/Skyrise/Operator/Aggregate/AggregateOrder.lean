/-
The order of the aggregates.

The output has a column for every aggregate, in the order in which they are listed.
Nothing else depends on the order, as long as the columns that are not aggregated are
written: those of ANY are, and so are the GROUP BY columns, unless ANY comes first.
-/
import Skyrise.Operator.Aggregate.AggregateHash

namespace Skyrise

variable {R : Type} [FloatingPoint R]

/-! ### The order of the aggregates -/

section

variable (table : Table R) (groupByColumnIds : List ℕ)

/-- For every order of the aggregates, the operator returns the same GROUP BY columns and for every
aggregate the same column, all of them with an entry for every group. -/
def OrderIrrelevant (aggregates : List AggregateExpression) : Prop :=
  ∃ (groupColumns : List (OutputColumn R)) (columnOf : AggregateExpression → OutputColumn R)
    (groupCount : ℕ), groupColumns.length = groupByColumnIds.length ∧
      (∀ column ∈ groupColumns ++ aggregates.map columnOf, column.2.size = groupCount) ∧
      ∀ permuted : List AggregateExpression, permuted.Perm aggregates →
        onExecute table groupByColumnIds permuted =
          .ok (tableOfColumns (groupColumns ++ permuted.map columnOf))

variable {table groupByColumnIds} {aggregates : List AggregateExpression}

lemma size_writeUnaggregatedColumn (positions : List RowId) (columnId : ℕ) :
    (writeUnaggregatedColumn table positions columnId).2.size = positions.length := by
  rw [writeUnaggregatedColumn]
  dsimp only
  split <;> simp

lemma size_aggregateOutput {aggregate : AggregateExpression} {cells : List (AllTypeVariant R)}
    (h : groupByColumnIds = [] → cells.length ≤ 1) :
    (aggregateOutput table groupByColumnIds aggregate cells).2.size =
      if groupByColumnIds = [] then 1 else cells.length := by
  have hsize : ∀ values : List (Value R), ∀ nulls : List Bool,
      (if needsNull aggregate.aggregateFunction = true then
        ValueSegment.ofNullable (aggregate.dataType table) values nulls
      else .ofValues (aggregate.dataType table) values).size = values.length := by
    intro values nulls
    split <;> simp
  rw [aggregateOutput]
  dsimp only
  rw [hsize, List.length_map]
  by_cases hgroup : groupByColumnIds = []
  · rw [if_pos hgroup]
    have hle := h hgroup
    split
    · rfl
    · next hne =>
      have hpos := List.length_pos_of_ne_nil fun hnil => hne ⟨hgroup, hnil⟩
      omega
  · rw [if_neg hgroup, if_neg fun hcells => hgroup hcells.1]

/-- Without GROUP BY columns there is at most one group. -/
lemma length_occurring_le (hgroup : groupByColumnIds = []) :
    (occurring (numberedRows table groupByColumnIds)).length ≤ 1 := by
  obtain ⟨-, -, -, hsize⟩ := partitionByGroupByKeys_spec table groupByColumnIds
  have hempty := (Partitioning.kind_eq_empty_iff groupByColumnIds
    (partitionByGroupByKeys table groupByColumnIds)).mp hgroup
  have hstart : Aggregated (partitionByGroupByKeys table groupByColumnIds).expectedResultSize
      ((partitionByGroupByKeys table groupByColumnIds).kind groupByColumnIds) (fun _ s => s)
      (createAggregateContext table _ ⟨.min, none, "", none⟩) [] [] :=
    aggregated_createAggregateContext _ (fun _ => hsize hgroup) _
  obtain ⟨context, -, haggregated⟩ := hstart.foldlM_collectGroups
      (fun rows hrows row hrow => (partitioned_rows rows hrows row hrow).1)
      Partitioning.kind_eq_cached
  have hlength := haggregated.empty hempty
  have hfilter := congrArg List.length haggregated.hasResults.filter_eq
  rw [List.length_map] at hfilter
  have hle := List.length_filter_le (fun r : AggregateResult R => r.rowId.isSome) context.results
  have hcount : context.results.length ≤ 1 := by
    rw [hlength]
    split <;> omega
  exact (hfilter.symm.le.trans hle).trans hcount

lemma length_aggregateCells (aggregate : AggregateExpression) (hgroup : groupByColumnIds ≠ []) :
    (aggregateCells table groupByColumnIds (numberedRows table groupByColumnIds) aggregate).length =
      (groupPositions table groupByColumnIds).length := by
  rw [aggregateCells, if_neg fun hstar => hgroup hstar.2, List.length_map, groupPositions,
    length_filterMap_pickRow]

lemma length_aggregateCells_le (aggregate : AggregateExpression) (hgroup : groupByColumnIds = []) :
    (aggregateCells table groupByColumnIds (numberedRows table groupByColumnIds)
      aggregate).length ≤ 1 := by
  rw [aggregateCells]
  split
  · simp
  · rw [List.length_map]
    exact length_occurring_le hgroup

/-- Every column has an entry for every group, and without GROUP BY columns just one. -/
lemma size_columns_of_ne_any (hany : ∀ a ∈ aggregates, a.aggregateFunction ≠ .any) :
    ∀ column ∈ groupColumns table groupByColumnIds ++
      aggregates.map (aggregateColumnOf table groupByColumnIds), column.2.size =
        if groupByColumnIds = [] then 1 else (groupPositions table groupByColumnIds).length := by
  intro column hcolumn
  rcases List.mem_append.mp hcolumn with hcolumn | hcolumn
  · obtain ⟨c, hc, rfl⟩ := List.mem_map.mp hcolumn
    rw [size_writeUnaggregatedColumn, if_neg (List.ne_nil_of_mem hc)]
  · obtain ⟨a, ha, rfl⟩ := List.mem_map.mp hcolumn
    rw [aggregateColumnOf, if_neg (hany a ha), size_aggregateOutput (length_aggregateCells_le a)]
    split
    · rfl
    · next hgroup => exact length_aggregateCells a hgroup

/-- Every column has the same number of entries. -/
lemma size_columns (h : (∀ a ∈ aggregates, a.aggregateFunction ≠ .any) ∨
      ∀ a ∈ aggregates, a.aggregateFunction = .any) :
    ∃ n, ∀ column ∈ groupColumns table groupByColumnIds ++
      aggregates.map (aggregateColumnOf table groupByColumnIds), column.2.size = n := by
  rcases h with hany | hany
  · exact ⟨_, size_columns_of_ne_any hany⟩
  · refine ⟨(groupPositions table groupByColumnIds).length, fun column hcolumn => ?_⟩
    rcases List.mem_append.mp hcolumn with hcolumn | hcolumn
    · obtain ⟨c, hc, rfl⟩ := List.mem_map.mp hcolumn
      exact size_writeUnaggregatedColumn _ _
    · obtain ⟨a, ha, rfl⟩ := List.mem_map.mp hcolumn
      rw [aggregateColumnOf, if_pos (hany a ha), size_writeUnaggregatedColumn]

/-! ### ANY as the first aggregate -/

lemma map_fst_of_aggregateChunk {cacheResultIds : Bool}
    {contexts contexts' : List (AggregateExpression × AggregateContext R)}
    {rows : List (AggregateKey × RowId)}
    (h : aggregateChunk table groupByColumnIds cacheResultIds contexts rows = .ok contexts') :
    contexts'.map Prod.fst = contexts.map Prod.fst := by
  induction contexts generalizing rows contexts' with
  | nil =>
    rw [← Except.ok.inj h]
  | cons entry contexts ih =>
    rw [aggregateChunk] at h
    obtain ⟨⟨rows', context⟩, -, h⟩ := exists_of_bind_eq_ok h
    obtain ⟨contexts'', hrest, h⟩ := exists_of_bind_eq_ok h
    rw [← Except.ok.inj h]
    exact congrArg (entry.1 :: ·) (ih hrest)

lemma map_fst_of_foldlM_aggregateChunk {cacheResultIds : Bool}
    {contexts contexts' : List (AggregateExpression × AggregateContext R)}
    {chunks : List (List (AggregateKey × RowId))}
    (h : chunks.foldlM (aggregateChunk table groupByColumnIds cacheResultIds) contexts =
      .ok contexts') : contexts'.map Prod.fst = contexts.map Prod.fst := by
  induction chunks generalizing contexts with
  | nil => rw [← Except.ok.inj h]
  | cons rows chunks ih =>
    rw [List.foldlM_cons] at h
    obtain ⟨contexts'', hrun, h⟩ := exists_of_bind_eq_ok h
    exact (ih h).trans (map_fst_of_aggregateChunk hrun)

/-- Without positions the first column is not written if the first aggregate is ANY. -/
lemma outputTable_writeColumns_none {first : AggregateExpression} (hany : first.aggregateFunction = .any)
    (context : AggregateContext R) (contexts : List (AggregateExpression × AggregateContext R))
    (result : Table R) :
    outputTable (writeColumns table groupByColumnIds none ((first, context) :: contexts)) ≠
      .ok result := by
  have hcons : ∃ rest, writeColumns table groupByColumnIds none ((first, context) :: contexts) =
      none :: rest := by
    rw [writeColumns]
    cases groupByColumnIds with
    | nil =>
      rw [List.map_nil, List.nil_append, List.map_cons]
      dsimp only
      rw [if_pos hany]
      exact ⟨_, rfl⟩
    | cons c cs => exact ⟨_, rfl⟩
  obtain ⟨rest, hrest⟩ := hcons
  rw [hrest, outputTable, if_neg (List.cons_ne_nil _ _), List.mapM_cons]
  simp

/-- **ANY in front of an aggregate function.**  The GROUP BY columns are not written. -/
lemma onExecute_ne_ok_of_any_first {first : AggregateExpression} {rest : List AggregateExpression}
    (hany : first.aggregateFunction = .any) (hfunctions : hasAggregateFunctions (first :: rest) = true)
    (result : Table R) : onExecute table groupByColumnIds (first :: rest) ≠ .ok result := by
  intro h
  rw [onExecute] at h
  obtain ⟨-, -, h⟩ := exists_of_bind_eq_ok h
  obtain ⟨-, -, h⟩ := exists_of_bind_eq_ok h
  dsimp only at h
  rw [if_pos hfunctions] at h
  obtain ⟨contexts, hrun, houtput⟩ := exists_of_bind_eq_ok h
  have hfst := map_fst_of_foldlM_aggregateChunk hrun
  cases contexts with
  | nil => cases hfst
  | cons entry contexts =>
    obtain ⟨a, context⟩ := entry
    obtain rfl : a = first := (List.cons.inj hfst).1
    rw [List.head?_cons, Option.bind_some] at houtput
    dsimp only at houtput
    rw [if_pos hany] at houtput
    exact outputTable_writeColumns_none hany context contexts result houtput

/-- ANY of a column of strings, if it is the first one and there is no aggregate function. -/
lemma onExecute_ne_ok_of_string_first {first : AggregateExpression}
    {rest : List AggregateExpression}
    (hfunctions : hasAggregateFunctions (first :: rest) = false)
    (hstring : first.dataType table = .string) (result : Table R) :
    onExecute table groupByColumnIds (first :: rest) ≠ .ok result := by
  intro h
  rw [onExecute] at h
  obtain ⟨-, -, h⟩ := exists_of_bind_eq_ok h
  obtain ⟨-, -, h⟩ := exists_of_bind_eq_ok h
  dsimp only at h
  rw [hfunctions, if_neg (by simp)] at h
  obtain ⟨context, hdistinct, -⟩ := exists_of_bind_eq_ok h
  rw [distinctContext, if_pos hstring] at hdistinct
  cases hdistinct

lemma hasAggregateFunctions_eq_true_iff :
    hasAggregateFunctions aggregates = true ↔ ∃ a ∈ aggregates, a.aggregateFunction ≠ .any := by
  simp [hasAggregateFunctions]

end

/-- **The order of the aggregates is irrelevant** if and only if there is no ANY, or nothing else and
no ANY of strings. -/
theorem orderIrrelevant_iff {R : Type} [FloatingPoint R] (table : Table R)
    (groupByColumnIds : List ℕ) (aggregates : List AggregateExpression) (ht : table.WellFormed)
    (hvalid : ∀ a ∈ aggregates, a.Valid table) (hne : aggregates ≠ [] ∨ groupByColumnIds ≠ []) :
    OrderIrrelevant table groupByColumnIds aggregates ↔
      (∀ a ∈ aggregates, a.aggregateFunction ≠ .any) ∨
        ∀ a ∈ aggregates, a.aggregateFunction = .any ∧ a.columnDataType table ≠ .string := by
  constructor
  · rintro ⟨groupColumns, columnOf, -, -, -, hrun⟩
    by_contra hcon
    push Not at hcon
    obtain ⟨⟨a, ha, hany⟩, b, hb, hstring⟩ := hcon
    by_cases hfunctions : ∃ a ∈ aggregates, a.aggregateFunction ≠ .any
    · -- an ANY is put first
      have hperm := (List.perm_cons_erase ha).symm
      refine onExecute_ne_ok_of_any_first hany ?_ _ (hrun _ hperm)
      obtain ⟨c, hc, hcany⟩ := hfunctions
      exact hasAggregateFunctions_eq_true_iff.mpr ⟨c, hperm.mem_iff.mpr hc, hcany⟩
    · push Not at hfunctions
      -- an ANY of strings is put first
      have hperm := (List.perm_cons_erase hb).symm
      refine onExecute_ne_ok_of_string_first ?_ ?_ _ (hrun _ hperm)
      · rw [Bool.eq_false_iff, Ne, hasAggregateFunctions_eq_true_iff]
        rintro ⟨c, hc, hcany⟩
        exact hcany (hfunctions c (hperm.mem_iff.mp hc))
      · rw [AggregateExpression.dataType, hfunctions b hb]
        exact hstring (hfunctions b hb)
  · intro h
    obtain ⟨n, hsize⟩ : ∃ n, ∀ column ∈ groupColumns table groupByColumnIds ++
        aggregates.map (aggregateColumnOf table groupByColumnIds), column.2.size = n :=
      size_columns (h.imp_right fun h a ha => (h a ha).1)
    refine ⟨groupColumns table groupByColumnIds, aggregateColumnOf table groupByColumnIds, n,
      List.length_map .., hsize, fun permuted hperm => ?_⟩
    have hvalid' : ∀ a ∈ permuted, a.Valid table := fun a ha => hvalid a (hperm.mem_iff.mp ha)
    rcases h with hany | hany
    · by_cases hnil : aggregates = []
      · subst hnil
        obtain rfl := hperm.eq_nil
        exact onExecute_of_any hvalid' (by simp) (by simp) hne
      · refine onExecute_of_ne_any ht hvalid' (fun a ha => hany a (hperm.mem_iff.mp ha)) ?_
        rintro rfl
        exact hnil hperm.symm.eq_nil
    · refine onExecute_of_any hvalid' (fun a ha => (hany a (hperm.mem_iff.mp ha)).1)
        (fun a ha => ?_) ?_
      · obtain ⟨ha', hstring⟩ := hany a (hperm.mem_iff.mp ha)
        rw [AggregateExpression.dataType, ha']
        exact hstring
      · refine hne.imp_left fun hne hnil => hne ?_
        rw [hnil] at hperm
        exact hperm.symm.eq_nil

/-! ### ANY in front of a sum -/

/-- Two rows of integers in one chunk. -/
def twoIntegers : Table ℚ := .ofInts "a" [[1, 2]]

/-- The sum of the integers. -/
def sumOfIntegers : AggregateExpression := ⟨.sum, some 0, "a", none⟩

/-- Any of the integers. -/
def anyInteger : AggregateExpression := ⟨.any, some 0, "a", none⟩

/-- COUNT(*). -/
def countStar : AggregateExpression := ⟨.count, none, "*", none⟩

/-- The sum and the number of rows can be asked for in any order. -/
theorem orderIrrelevant_sumOfIntegers :
    OrderIrrelevant twoIntegers [0] [sumOfIntegers, countStar] := by
  have hvalid : ∀ a ∈ [sumOfIntegers, countStar], a.Valid twoIntegers := by
    refine List.forall_mem_cons.mpr ⟨⟨?_, ?_, ?_, ?_⟩, List.forall_mem_singleton.mpr
      ⟨fun _ => rfl, ?_, ?_, ?_⟩⟩ <;> simp [sumOfIntegers, countStar] <;> decide
  exact (orderIrrelevant_iff twoIntegers [0] _ Table.wellFormed_ofInts hvalid (by simp)).mpr
    (.inl (by decide))

/-- With ANY in front of the sum, the GROUP BY column is not written. -/
theorem not_orderIrrelevant_anyInteger :
    ¬ OrderIrrelevant twoIntegers [0] [sumOfIntegers, anyInteger] := by
  rintro ⟨_, _, _, -, -, hrun⟩
  exact onExecute_ne_ok_of_any_first rfl rfl _ (hrun [anyInteger, sumOfIntegers] (.swap _ _ _))

end Skyrise

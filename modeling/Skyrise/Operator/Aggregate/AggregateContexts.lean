/-
The types of the contexts.

`contexts_per_column_` holds the context of every aggregate, and a dummy one behind them
if there is no aggregate function, without their types.  A context is cast to a type by
whoever reads it: the cast is not checked, and right only if it is the type that the
context was created with.
-/
import Skyrise.Operator.Aggregate.AggregateHash

namespace Skyrise

variable {R : Type}

/-- The type of a column in a context: that of a column of a table, or `DistinctColumnType`. -/
inductive ContextColumnType where
  | ofDataType (dataType : DataType)
  | int8
deriving DecidableEq, Repr

/-- `CountColumnType`. -/
def ContextColumnType.count : ContextColumnType := .ofDataType .int

/-- The template arguments of an `AggregateContext`. -/
structure ContextType where
  columnType : ContextColumnType
  aggregateFunction : AggregateFunction
deriving DecidableEq, Repr

/-- What a run does with the contexts: a context is read as one of some type, or the run ends with
an exception. -/
inductive ContextAction where
  | read (index : ℕ) (contextType : ContextType)
  | fail
deriving DecidableEq, Repr

/-- The contexts that are read, with the types that they are read as. -/
def readContexts : List ContextAction → List (ℕ × ContextType)
  | [] => []
  | .read index contextType :: actions => (index, contextType) :: readContexts actions
  | .fail :: _ => []

section

variable (table : Table R) (groupByColumnIds : List ℕ) (aggregates : List AggregateExpression)

/-- The type that the context of an aggregate is created with. -/
def contextType (aggregate : AggregateExpression) : ContextType :=
  match aggregate.columnId with
  | none => ⟨.count, .count⟩
  | some columnId => ⟨.ofDataType (table.columnDataType columnId), aggregate.aggregateFunction⟩

/-- `contexts_per_column_`.  The dummy context is behind those of the aggregates. -/
def contextsPerColumn : List ContextType :=
  aggregates.map (contextType table) ++
    if hasAggregateFunctions aggregates then [] else [⟨.ofDataType .int, .min⟩]

/-- Whether STRING_AGG fails in a chunk: it is given a value that is no string. -/
def stringAggFails (chunk : Chunk R) (aggregate : AggregateExpression) (columnId : ℕ) : Bool :=
  aggregate.aggregateFunction = .stringAgg && table.columnDataType columnId ≠ .string &&
    (chunk.getSegment columnId).cells.any Option.isSome

/-- The rows of a chunk for one aggregate: COUNT(*) in `Aggregate`, the others in
`AggregateSegment`. -/
def aggregateSegmentActions (chunk : Chunk R) (aggregate : AggregateExpression) (index : ℕ) :
    List ContextAction :=
  match aggregate.columnId with
  | none => [.read index ⟨.count, .count⟩]
  | some columnId =>
    if aggregate.aggregateFunction = .any then []
    else .read index ⟨.ofDataType (table.columnDataType columnId), aggregate.aggregateFunction⟩ ::
      if stringAggFails table chunk aggregate columnId then [.fail] else []

/-- `Aggregate` for one chunk. -/
def aggregateActions (chunk : Chunk R) : List ContextAction :=
  if hasAggregateFunctions aggregates then
    aggregates.zipIdx.flatMap fun (aggregate, index) =>
      aggregateSegmentActions table chunk aggregate index
  else [.read 0 ⟨.int8, .min⟩]

/-- `WriteAggregateOutput`. -/
def writeAggregateActions (aggregate : AggregateExpression) (index : ℕ) : List ContextAction :=
  if aggregate.aggregateFunction = .any then []
  else [.read index ⟨.ofDataType (aggregate.columnDataType table), aggregate.aggregateFunction⟩]

/-- Whether the assertions of the constructor and of `ValidateAggregates` hold. -/
def accepts : Bool :=
  !(aggregates.isEmpty && groupByColumnIds.isEmpty) &&
    aggregates.all fun aggregate => validateAggregate table aggregate = .ok ()

/-- `OnExecute`. -/
def onExecuteActions : List ContextAction :=
  if accepts table groupByColumnIds aggregates then
    table.chunks.flatMap (aggregateActions table aggregates) ++
      ((if hasAggregateFunctions aggregates then [] else [.read 0 ⟨.int8, .min⟩]) ++
        aggregates.zipIdx.flatMap fun (aggregate, index) =>
          writeAggregateActions table aggregate index)
  else [.fail]

/-- Every context is read with the type that it was created with. -/
def ContextsAtOwnType : Prop :=
  ∀ read ∈ readContexts (onExecuteActions table groupByColumnIds aggregates),
    (contextsPerColumn table aggregates)[read.1]? = some read.2

/-- Whether the aggregation ends with an exception. -/
def AggregationFails : Prop :=
  ∃ chunk ∈ table.chunks, ∃ aggregate ∈ aggregates, ∃ columnId,
    aggregate.columnId = some columnId ∧ stringAggFails table chunk aggregate columnId = true

end

/-! ### Actions -/

variable {actions actions' : List ContextAction} {read : ℕ × ContextType}

lemma readContexts_append_of_fail (h : .fail ∈ actions) :
    readContexts (actions ++ actions') = readContexts actions := by
  induction actions with
  | nil => cases h
  | cons action actions ih =>
    cases action with
    | read index contextType =>
      rw [List.cons_append, readContexts, readContexts, ih (by simpa using h)]
    | fail => rfl

lemma readContexts_append (h : .fail ∉ actions) :
    readContexts (actions ++ actions') = readContexts actions ++ readContexts actions' := by
  induction actions with
  | nil => rfl
  | cons action actions ih =>
    rw [List.mem_cons, not_or] at h
    cases action with
    | read index contextType => rw [List.cons_append, readContexts, readContexts, ih h.2]; rfl
    | fail => exact absurd rfl h.1

lemma mem_of_mem_readContexts (h : read ∈ readContexts actions) :
    ContextAction.read read.1 read.2 ∈ actions := by
  induction actions with
  | nil => cases h
  | cons action actions ih =>
    cases action with
    | read index contextType =>
      rcases List.mem_cons.mp h with rfl | h
      · exact List.mem_cons_self
      · exact List.mem_cons_of_mem _ (ih h)
    | fail => cases h

lemma mem_readContexts (h : .fail ∉ actions) (hread : ContextAction.read read.1 read.2 ∈ actions) :
    read ∈ readContexts actions := by
  induction actions with
  | nil => cases hread
  | cons action actions ih =>
    rw [List.mem_cons, not_or] at h
    cases action with
    | read index contextType =>
      rcases List.mem_cons.mp hread with heq | hread
      · cases heq
        exact List.mem_cons_self
      · exact List.mem_cons_of_mem _ (ih h.2 hread)
    | fail => exact absurd rfl h.1

/-! ### The reads of a run -/

section

variable {table : Table R} {groupByColumnIds : List ℕ} {aggregates : List AggregateExpression}
  {aggregate : AggregateExpression} {chunk : Chunk R} {index : ℕ}

lemma accepts_iff : accepts table groupByColumnIds aggregates = true ↔
    ¬(aggregates = [] ∧ groupByColumnIds = []) ∧
      ∀ a ∈ aggregates, validateAggregate table a = .ok () := by
  rw [accepts, Bool.and_eq_true, List.all_eq_true]
  refine and_congr ?_ (by simp)
  rw [Bool.not_eq_true', Bool.and_eq_false_iff, not_and_or]
  simp

/-- Only COUNT has no column. -/
lemma aggregateFunction_of_validateAggregate (h : validateAggregate table aggregate = .ok ())
    (hcolumn : aggregate.columnId = none) : aggregate.aggregateFunction = .count := by
  by_contra hne
  rw [validateAggregate, hcolumn] at h
  simp [hne] at h

/-- In `Aggregate`, the context of an aggregate is read with its own type. -/
lemma read_aggregateSegmentActions
    (h : .read read.1 read.2 ∈ aggregateSegmentActions table chunk aggregate index) :
    read = (index, contextType table aggregate) := by
  rw [aggregateSegmentActions] at h
  rw [contextType]
  split at h
  · next hcolumn =>
    rw [List.mem_singleton, ContextAction.read.injEq] at h
    exact Prod.ext h.1 h.2
  · next columnId hcolumn =>
    split at h
    · cases h
    · rcases List.mem_cons.mp h with h | h
      · rw [ContextAction.read.injEq] at h
        exact Prod.ext h.1 h.2
      · split at h
        · exact absurd (List.mem_singleton.mp h) (by simp)
        · cases h

lemma fail_mem_aggregateSegmentActions : .fail ∈ aggregateSegmentActions table chunk aggregate index ↔
    ∃ columnId, aggregate.columnId = some columnId ∧
      stringAggFails table chunk aggregate columnId = true := by
  rw [aggregateSegmentActions]
  split
  · next hcolumn => simp [hcolumn]
  · next columnId hcolumn =>
    split
    · next hany => simp [stringAggFails, hany]
    · simp [hcolumn]

/-- `WriteAggregateOutput` reads COUNT(*) as a function of another column. -/
lemma read_writeAggregateActions :
    .read read.1 read.2 ∈ writeAggregateActions table aggregate index ↔
      aggregate.aggregateFunction ≠ .any ∧ read =
        (index, ⟨.ofDataType (aggregate.columnDataType table), aggregate.aggregateFunction⟩) := by
  rw [writeAggregateActions]
  split
  · next hany => simp [hany]
  · next hany =>
    rw [List.mem_singleton, ContextAction.read.injEq, Prod.ext_iff]
    exact (and_iff_right hany).symm

lemma getElem?_contextsPerColumn (h : aggregates[index]? = some aggregate) :
    (contextsPerColumn table aggregates)[index]? = some (contextType table aggregate) := by
  have hlt : index < (aggregates.map (contextType table)).length := by
    rw [List.length_map]
    exact (List.getElem?_eq_some_iff.mp h).1
  rw [contextsPerColumn, List.getElem?_append_left hlt, List.getElem?_map, h]
  rfl

/-- No context is created with `DistinctColumnType`. -/
lemma columnType_of_getElem?_contextsPerColumn {t : ContextType}
    (h : (contextsPerColumn table aggregates)[index]? = some t) : t.columnType ≠ .int8 := by
  have hmem := List.mem_of_getElem? h
  rw [contextsPerColumn, List.mem_append, List.mem_map] at hmem
  rcases hmem with ⟨a, -, rfl⟩ | hmem
  · rw [contextType]
    split <;> simp [ContextColumnType.count]
  · split at hmem
    · cases hmem
    · rw [List.mem_singleton.mp hmem]
      simp

lemma fail_mem_aggregation (h : hasAggregateFunctions aggregates = true) :
    .fail ∈ table.chunks.flatMap (aggregateActions table aggregates) ↔
      AggregationFails table aggregates := by
  simp only [AggregationFails, List.mem_flatMap, aggregateActions, h, if_true, Prod.exists,
    fail_mem_aggregateSegmentActions]
  refine exists_congr fun chunk => and_congr_right fun _ => ⟨?_, ?_⟩
  · rintro ⟨a, i, hmem, hfails⟩
    exact ⟨a, List.fst_mem_of_mem_zipIdx hmem, hfails⟩
  · rintro ⟨a, ha, hfails⟩
    obtain ⟨i, hi, rfl⟩ := List.getElem_of_mem ha
    exact ⟨_, i, List.mk_mem_zipIdx_iff_getElem?.mpr (List.getElem?_eq_getElem hi), hfails⟩

/-- `Aggregate` reads all contexts with their own types. -/
lemma read_aggregation (h : hasAggregateFunctions aggregates = true)
    (hread : .read read.1 read.2 ∈ table.chunks.flatMap (aggregateActions table aggregates)) :
    (contextsPerColumn table aggregates)[read.1]? = some read.2 := by
  obtain ⟨chunk, -, hread⟩ := List.mem_flatMap.mp hread
  rw [aggregateActions, if_pos h] at hread
  obtain ⟨⟨a, i⟩, hmem, hread⟩ := List.mem_flatMap.mp hread
  rw [read_aggregateSegmentActions hread]
  exact getElem?_contextsPerColumn (List.mk_mem_zipIdx_iff_getElem?.mp hmem)

lemma fail_not_mem_writeActions : .fail ∉ aggregates.zipIdx.flatMap
    fun (aggregate, index) => writeAggregateActions table aggregate index := by
  intro h
  obtain ⟨⟨a, i⟩, -, h⟩ := List.mem_flatMap.mp h
  dsimp only at h
  rw [writeAggregateActions] at h
  split at h <;> simp at h

/-- Without aggregate functions, a context is read as one of `DistinctColumnType`. -/
lemma not_contextsAtOwnType_of_distinct (haccepts : accepts table groupByColumnIds aggregates = true)
    (h : hasAggregateFunctions aggregates = false) :
    ¬ContextsAtOwnType table groupByColumnIds aggregates := by
  intro hown
  have hchunks : ContextAction.fail ∉ table.chunks.flatMap (aggregateActions table aggregates) := by
    simp [aggregateActions, h]
  have hmem : ((0, ⟨.int8, .min⟩) : ℕ × ContextType) ∈
      readContexts (onExecuteActions table groupByColumnIds aggregates) := by
    rw [onExecuteActions, if_pos haccepts, readContexts_append hchunks, h]
    exact List.mem_append_right _ List.mem_cons_self
  exact columnType_of_getElem?_contextsPerColumn (hown _ hmem) rfl

/-- The contexts are read with the types that they were created with if and only if the aggregates
are not accepted, or there is a function and either no COUNT(*) or an exception before anything is
written. -/
theorem contextsAtOwnType_iff {R : Type} (table : Table R) (groupByColumnIds : List ℕ)
    (aggregates : List AggregateExpression) : ContextsAtOwnType table groupByColumnIds aggregates ↔
      accepts table groupByColumnIds aggregates = false ∨
        hasAggregateFunctions aggregates = true ∧
          ((∀ a ∈ aggregates, a.columnId ≠ none) ∨ AggregationFails table aggregates) := by
  cases haccepts : accepts table groupByColumnIds aggregates with
  | false =>
    refine iff_of_true (fun read hread => ?_) (.inl rfl)
    rw [onExecuteActions, haccepts] at hread
    cases hread
  | true =>
    cases hfunctions : hasAggregateFunctions aggregates with
    | false =>
      exact iff_of_false (not_contextsAtOwnType_of_distinct haccepts hfunctions) (by simp)
    | true =>
      rw [ContextsAtOwnType, onExecuteActions, if_pos haccepts, hfunctions, if_pos rfl,
        List.nil_append]
      by_cases hfails : AggregationFails table aggregates
      · refine iff_of_true (fun read hread => ?_) (.inr ⟨rfl, .inr hfails⟩)
        rw [readContexts_append_of_fail ((fail_mem_aggregation hfunctions).mpr hfails)] at hread
        exact read_aggregation hfunctions (mem_of_mem_readContexts hread)
      · rw [readContexts_append fun h => hfails ((fail_mem_aggregation hfunctions).mp h)]
        refine ⟨fun hown => .inr ⟨rfl, .inl fun a ha hcolumn => ?_⟩, ?_⟩
        · -- COUNT(*) is written as a function of a long column
          have hcount := aggregateFunction_of_validateAggregate ((accepts_iff.mp haccepts).2 a ha)
            hcolumn
          obtain ⟨i, hi, rfl⟩ := List.getElem_of_mem ha
          have hget := List.getElem?_eq_getElem hi
          have hread := hown (i, ⟨.ofDataType .long, .count⟩) (List.mem_append_right _
            (mem_readContexts fail_not_mem_writeActions (List.mem_flatMap.mpr ⟨(aggregates[i], i),
              List.mk_mem_zipIdx_iff_getElem?.mpr hget, read_writeAggregateActions.mpr
                ⟨by simp [hcount], by simp [AggregateExpression.columnDataType, hcolumn, hcount]⟩⟩)))
          rw [getElem?_contextsPerColumn hget, contextType, hcolumn] at hread
          exact absurd hread (by simp [ContextColumnType.count])
        · rintro (h | ⟨-, h⟩)
          · cases h
          · intro read hread
            rcases List.mem_append.mp hread with hread | hread
            · exact read_aggregation hfunctions (mem_of_mem_readContexts hread)
            · obtain ⟨⟨a, i⟩, hmem, hread⟩ := List.mem_flatMap.mp (mem_of_mem_readContexts hread)
              obtain ⟨-, rfl⟩ := read_writeAggregateActions.mp hread
              have hget := List.mk_mem_zipIdx_iff_getElem?.mp hmem
              obtain ⟨columnId, hcolumn⟩ := Option.ne_none_iff_exists'.mp
                ((h.resolve_right hfails) a (List.mem_of_getElem? hget))
              rw [getElem?_contextsPerColumn hget, contextType, AggregateExpression.columnDataType,
                hcolumn]

/-- DISTINCT reads the dummy context of type `int32_t` as one of type `int8_t`. -/
theorem not_contextsAtOwnType_distinct :
    ¬ContextsAtOwnType (Table.ofInts "a" [[1]] : Table ℤ) [0] [] := by
  intro hown
  exact absurd (hown (0, ⟨.int8, .min⟩) (by decide)) (by decide)

end

end Skyrise

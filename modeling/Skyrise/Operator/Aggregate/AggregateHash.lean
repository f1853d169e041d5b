/-
The aggregate operator.

Every aggregate has a context with the results of the groups.  In every chunk the first
aggregate looks the keys of the rows up, and leaves the indexes of the results in the
keys for the others.  The first aggregate writes the GROUP BY columns, which include the
columns of ANY, before its own.
-/
import Skyrise.Operator.Aggregate.AggregateResults

namespace Skyrise

variable {R : Type} [FloatingPoint R]

section

/-! ### The aggregation -/

variable (table : Table R) (groupByColumnIds : List ℕ)

/-- An aggregate that `ValidateAggregates` accepts. -/
def validateAggregate (aggregate : AggregateExpression) : Except Exception Unit :=
  match aggregate.columnId with
  | none => assert (aggregate.aggregateFunction = .count)
      "Aggregate: Asterisk is only valid with COUNT."
  | some columnId => assert (table.columnDataType columnId ≠ .string ||
        (aggregate.aggregateFunction ≠ .sum && aggregate.aggregateFunction ≠ .avg &&
          aggregate.aggregateFunction ≠ .standardDeviationSample))
      "Aggregate: Cannot calculate SUM, AVG or STDDEV_SAMP on string column."

/-- The data type of the column of an aggregate. -/
def AggregateExpression.columnDataType (aggregate : AggregateExpression) : DataType :=
  match aggregate.columnId with
  | none => .long
  | some columnId => table.columnDataType columnId

/-- The data type of an output column. -/
def AggregateExpression.dataType (aggregate : AggregateExpression) : DataType :=
  aggregateDataType (aggregate.columnDataType table) aggregate.aggregateFunction

/-- `CreateAggregateContext`. -/
def createAggregateContext (expectedResultSize : ℕ) (aggregate : AggregateExpression) :
    AggregateContext R :=
  let start : AggregateValue R :=
    ⟨⟨(aggregate.dataType table).defaultValue, [], ⟨0, 0, 0, 0⟩, []⟩, 0⟩
  ⟨start, [], List.replicate expectedResultSize ⟨start, none⟩⟩

/-- What a row adds to an aggregate; in COUNT(*) every row counts. -/
def processRow (aggregate : AggregateExpression) (rowId : RowId) (s : AggregateValue R) :
    Except Exception (AggregateValue R) :=
  match aggregate.columnId with
  | none => .ok { s with aggregateCount := s.aggregateCount + 1 }
  | some columnId =>
    processPosition aggregate.aggregateFunction (table.cellAt columnId rowId) rowId s

/-- COUNT(*) of the rows of a chunk without groups. -/
def countRows (rowCount : ℕ) (context : AggregateContext R) : AggregateContext R :=
  let result := context.results.headD ⟨context.start, none⟩
  { context with results := [{ result with
      aggregateCount := result.aggregateCount + rowCount, rowId := some ⟨0, 0⟩ }] }

/-- One aggregate for the rows of a chunk. -/
def aggregateColumn (cacheResultIds : Bool) (aggregate : AggregateExpression)
    (rows : List (AggregateKey × RowId)) (context : AggregateContext R) :
    Except Exception (List (AggregateKey × RowId) × AggregateContext R) :=
  if aggregate.columnId = none ∧ groupByColumnIds = [] then
    .ok (rows, countRows rows.length context)
  -- ANY is left to `WriteGroupByOutput`
  else if aggregate.aggregateFunction = .any then .ok (rows, context)
  else aggregateRows cacheResultIds (processRow table aggregate) rows context

/-- All aggregates for the rows of a chunk, one after the other, each with the keys that the one
before left. -/
def aggregateChunk (cacheResultIds : Bool) :
    List (AggregateExpression × AggregateContext R) → List (AggregateKey × RowId) →
      Except Exception (List (AggregateExpression × AggregateContext R))
  | [], _ => .ok []
  | (aggregate, context) :: contexts, rows => do
    let (rows, context) ← aggregateColumn table groupByColumnIds cacheResultIds aggregate rows context
    let contexts ← aggregateChunk cacheResultIds contexts rows
    return (aggregate, context) :: contexts

/-- What a row adds if there are no aggregate functions: the groups alone are of interest. -/
def keepValue (_ : RowId) (s : AggregateValue R) : Except Exception (AggregateValue R) := .ok s

/-- The groups of the rows of a chunk. -/
def collectGroups (cacheResultIds : Bool) (context : AggregateContext R)
    (rows : List (AggregateKey × RowId)) : Except Exception (AggregateContext R) := do
  let (_, context) ← aggregateRows cacheResultIds keepValue rows context
  return context

/-- Whether there is an aggregate function other than ANY. -/
def hasAggregateFunctions (aggregates : List AggregateExpression) : Bool :=
  aggregates.any fun aggregate => aggregate.aggregateFunction ≠ .any

/-- The context that collects the groups if there are no aggregate functions.  The dummy context is
the last one, but the first one is taken, which is that of the first ANY, if there is one; its
results are laid out like those of the dummy context unless they hold strings. -/
def distinctContext (expectedResultSize : ℕ) :
    List AggregateExpression → Except Exception (AggregateContext R)
  | [] => .ok (createAggregateContext table expectedResultSize ⟨.min, none, "", none⟩)
  | aggregate :: _ =>
    if aggregate.dataType table = .string then .error .undefinedBehavior
    else .ok (createAggregateContext table expectedResultSize aggregate)

/-! ### The output -/

/-- A column of the output, if it has been written. -/
abbrev OutputColumn (R : Type) := TableColumnDefinition × ValueSegment R

/-- A column that `WriteGroupByOutput` writes. -/
def writeUnaggregatedColumn (positions : List RowId) (columnId : ℕ) : OutputColumn R :=
  let definition := table.columnDefinition columnId
  let values := positions.map fun rowId =>
    (table.cellAt columnId rowId).getD definition.dataType.defaultValue
  (definition, if definition.nullable then
      .ofNullable definition.dataType values
        (positions.map fun rowId => (table.cellAt columnId rowId).isNone)
    else .ofValues definition.dataType values)

/-- Whether an aggregate column can hold NULLs. -/
def needsNull (aggregateFunction : AggregateFunction) : Bool :=
  aggregateFunction ≠ .count && aggregateFunction ≠ .countDistinct

/-- The column of an aggregate from the cells of the groups. -/
def aggregateOutput (aggregate : AggregateExpression) (cells : List (AllTypeVariant R)) :
    OutputColumn R :=
  let dataType := aggregate.dataType table
  let nullable := needsNull aggregate.aggregateFunction
  -- without groups there is a row also if there is no result
  let cells := if groupByColumnIds = [] ∧ cells = [] then
    [if nullable then none else some dataType.defaultValue] else cells
  let values := cells.map fun cell => cell.getD dataType.defaultValue
  (⟨aggregate.asColumnName, dataType, nullable⟩,
    if nullable then .ofNullable dataType values (cells.map Option.isNone)
    else .ofValues dataType values)

/-- The cells that `WriteAggregateValues` writes, without the results of no group. -/
def writeAggregateValues (aggregate : AggregateExpression) (context : AggregateContext R) :
    List (AllTypeVariant R) :=
  (context.results.filter fun r => r.rowId.isSome).map fun r =>
    writeAggregateValue table aggregate r.toAggregateValue

/-- The output columns.  `positions` is the list that `WriteGroupByOutput` is called with, if it is
called. -/
def writeColumns (positions : Option (List RowId))
    (contexts : List (AggregateExpression × AggregateContext R)) : List (Option (OutputColumn R)) :=
  groupByColumnIds.map (fun columnId => positions.map (writeUnaggregatedColumn table · columnId)) ++
    contexts.map fun (aggregate, context) =>
      if aggregate.aggregateFunction = .any then
        positions.map (writeUnaggregatedColumn table · (aggregate.columnId.getD 0))
      else some (aggregateOutput table groupByColumnIds aggregate
        (writeAggregateValues table aggregate context))

/-- The table of some columns; there is a chunk if there is a row. -/
def tableOfColumns (columns : List (OutputColumn R)) : Table R :=
  let chunk : Chunk R := ⟨columns.map Prod.snd⟩
  ⟨columns.map Prod.fst, if 0 < chunk.size then [chunk] else []⟩

/-- The output table.  A column that has not been written has no segment. -/
def outputTable (columns : List (Option (OutputColumn R))) : Except Exception (Table R) :=
  if columns = [] then .error .outOfRange
  else
    match columns.mapM id with
    | none => .error .undefinedBehavior
    | some columns => .ok (tableOfColumns columns)

/-- `OnExecute`, after the assertion of the constructor. -/
def onExecute (aggregates : List AggregateExpression) : Except Exception (Table R) := do
  assert (!(aggregates.isEmpty && groupByColumnIds.isEmpty))
    "Neither aggregate nor GROUP BY columns have been specified."
  aggregates.forM (validateAggregate table)
  let partitioning := partitionByGroupByKeys table groupByColumnIds
  let size := partitioning.expectedResultSize
  let contexts := aggregates.map fun aggregate => (aggregate, createAggregateContext table size aggregate)
  if hasAggregateFunctions aggregates then
    let cacheResultIds := 1 < contexts.length || partitioning.useImmediateKeyShortcut
    let contexts ← partitioning.rows.foldlM
      (aggregateChunk table groupByColumnIds cacheResultIds) contexts
    -- the first aggregate writes the GROUP BY columns, unless it is ANY
    let positions := contexts.head?.bind fun (aggregate, context) =>
      if aggregate.aggregateFunction = .any then none else some context.positionList
    outputTable (writeColumns table groupByColumnIds positions contexts)
  else
    let context ← distinctContext table size aggregates
    let context ← partitioning.rows.foldlM (collectGroups partitioning.useImmediateKeyShortcut) context
    outputTable (writeColumns table groupByColumnIds (some context.positionList) contexts)

end

/-! ### All aggregates -/

section

variable (table : Table R)

/-- An aggregate that the operator accepts: what `ValidateAggregates` asserts, and that only strings
are concatenated. -/
structure AggregateExpression.Valid (aggregate : AggregateExpression) : Prop where
  star : aggregate.columnId = none → aggregate.aggregateFunction = .count
  columnId_lt : ∀ c, aggregate.columnId = some c → c < table.getColumnCount
  arithmetic : ∀ c, aggregate.columnId = some c → table.columnDataType c = .string →
    aggregate.aggregateFunction ≠ .sum ∧ aggregate.aggregateFunction ≠ .avg ∧
      aggregate.aggregateFunction ≠ .standardDeviationSample
  stringAgg : ∀ c, aggregate.columnId = some c → aggregate.aggregateFunction = .stringAgg →
    table.columnDataType c = .string

/-- What the results of an aggregate start with. -/
def startOf (aggregate : AggregateExpression) : AggregateValue R :=
  (createAggregateContext table 0 aggregate).start

/-- What a row adds to an aggregate that is valid. -/
def stepOf (aggregate : AggregateExpression) (rowId : RowId) (s : AggregateValue R) :
    AggregateValue R :=
  match processRow table aggregate rowId s with
  | .ok s => s
  | .error _ => s

variable {table}

/-- A valid aggregate accumulates every row. -/
lemma AggregateExpression.Valid.processRow_eq {aggregate : AggregateExpression}
    (h : aggregate.Valid table) (ht : table.WellFormed) (hany : aggregate.aggregateFunction ≠ .any)
    {rowId : RowId} (hrow : rowId ∈ table.rowIds) (s : AggregateValue R) :
    processRow table aggregate rowId s = .ok (stepOf table aggregate rowId s) := by
  have hok : ∃ s', processRow table aggregate rowId s = .ok s' := by
    rw [processRow]
    split
    · exact ⟨_, rfl⟩
    · next c hc =>
      rw [processPosition.eq_def]
      split
      · exact ⟨_, rfl⟩
      · next v hv =>
        have hacc : ∃ accumulator, accumulate aggregate.aggregateFunction v rowId s.aggregateCount
            s.accumulator = .ok accumulator := by
          rw [accumulate.eq_def]
          split
          any_goals exact ⟨_, rfl⟩
          · next hf =>
            have hv' := ht.dataType_of_cellAt hrow (h.columnId_lt c hc) hv
            rw [h.stringAgg c hc hf] at hv'
            split
            · exact ⟨_, rfl⟩
            · next hne => cases v <;> simp_all [Value.dataType]
          · next hf => exact absurd hf hany
        obtain ⟨accumulator, hacc⟩ := hacc
        rw [hacc]
        exact ⟨_, rfl⟩
  obtain ⟨s', hs'⟩ := hok
  rw [stepOf, hs']

variable (table) in
/-- What an aggregate and its context satisfy after some rows. -/
structure Entry (size : ℕ) (kind : KeyKind) (done : List (ℕ × RowId))
    (ids : List (AggregateKey × ℕ)) (entry : AggregateExpression × AggregateContext R) : Prop where
  valid : entry.1.Valid table
  ne_any : entry.1.aggregateFunction ≠ .any
  start : entry.2.start = startOf table entry.1
  aggregated : Aggregated size kind (stepOf table entry.1) entry.2 done ids

variable {groupByColumnIds : List ℕ} {size : ℕ} {kind : KeyKind} {done : List (ℕ × RowId)}
  {ids : List (AggregateKey × ℕ)} {entry : AggregateExpression × AggregateContext R}
  {contexts : List (AggregateExpression × AggregateContext R)}
  {rows : List (AggregateKey × RowId)} {cacheResultIds : Bool}

/-- One aggregate for the rows of a chunk. -/
lemma Entry.aggregateColumn (h : Entry table size kind done ids entry) (ht : table.WellFormed)
    (hstar : ¬(entry.1.columnId = none ∧ groupByColumnIds = []))
    (hrows : ∀ row ∈ rows, row.1.kind = kind ∧ row.2 ∈ table.rowIds)
    (hcache : kind = .cached → cacheResultIds = true) :
    ∃ context, aggregateColumn table groupByColumnIds cacheResultIds entry.1 rows entry.2 =
        .ok (rowsAfter cacheResultIds rows (numberRows size ids rows).1, context) ∧
      Entry table size kind (done ++ (numberRows size ids rows).1) (numberRows size ids rows).2
        (entry.1, context) := by
  obtain ⟨context, hrun, hstart, haggregated⟩ := h.aggregated.aggregateRows
    (fun row hrow => (hrows row hrow).1) hcache
    fun row hrow => h.valid.processRow_eq ht h.ne_any (hrows row hrow).2
  rw [Skyrise.aggregateColumn, if_neg hstar, if_neg h.ne_any]
  exact ⟨context, hrun, h.valid, h.ne_any, hstart.trans h.start, haggregated⟩

/-- One aggregate whose keys are not looked up leaves them as they are. -/
lemma Entry.aggregateColumn_of_ne_hashed (h : Entry table size kind done [] entry)
    (ht : table.WellFormed) (hkind : kind ≠ .hashed)
    (hstar : ¬(entry.1.columnId = none ∧ groupByColumnIds = []))
    (hrows : ∀ row ∈ rows, row.1.kind = kind ∧ row.2 ∈ table.rowIds)
    (hcache : kind = .cached → cacheResultIds = true) :
    ∃ context, Skyrise.aggregateColumn table groupByColumnIds cacheResultIds entry.1 rows entry.2 =
        .ok (rows, context) ∧
      Entry table size kind (done ++ (numberRows size [] rows).1) [] (entry.1, context) := by
  have hkinds : ∀ row ∈ rows, row.1.kind ≠ .hashed :=
    fun row hrow => (hrows row hrow).1.trans_ne hkind
  obtain ⟨context, hrun, hentry⟩ := h.aggregateColumn ht hstar hrows hcache
  rw [rowsAfter_of_ne_hashed hkinds] at hrun
  rw [(numberRows_of_ne_hashed hkinds [] []).2] at hentry
  exact ⟨context, hrun, hentry⟩

variable (table) in
/-- What COUNT(*) without groups and its context satisfy after some rows. -/
structure CountEntry (done : List (ℕ × RowId))
    (entry : AggregateExpression × AggregateContext R) : Prop where
  columnId : entry.1.columnId = none
  count : entry.1.aggregateFunction = .count
  start : entry.2.start = startOf table entry.1
  results : (entry.2.results = [] ∧ done = []) ∨ entry.2.results =
    [⟨{ startOf table entry.1 with aggregateCount := done.length }, some ⟨0, 0⟩⟩]

lemma length_numberRows (size : ℕ) (ids : List (AggregateKey × ℕ))
    (rows : List (AggregateKey × RowId)) : (numberRows size ids rows).1.length = rows.length := by
  induction rows generalizing ids with
  | nil => rfl
  | cons row rows ih => simp [numberRows, ih]

/-- COUNT(*) for the rows of a chunk. -/
lemma CountEntry.aggregateColumn (h : CountEntry table done entry) (size : ℕ) :
    ∃ context, aggregateColumn table [] cacheResultIds entry.1 rows entry.2 = .ok (rows, context) ∧
      CountEntry table (done ++ (numberRows size [] rows).1) (entry.1, context) := by
  rw [Skyrise.aggregateColumn, if_pos ⟨h.columnId, rfl⟩]
  refine ⟨_, rfl, h.columnId, h.count, h.start, .inr ?_⟩
  rw [countRows, List.length_append, length_numberRows]
  rcases h.results with ⟨hresults, hdone⟩ | hresults
  · rw [hresults, hdone, h.start]
    rfl
  · rw [hresults]
    rfl

/-- All aggregates of a chunk, if each leaves the keys as they are. -/
lemma aggregateChunk_of_forall {P Q : AggregateExpression × AggregateContext R → Prop}
    (hstep : ∀ entry, P entry → ∃ context, aggregateColumn table groupByColumnIds cacheResultIds
      entry.1 rows entry.2 = .ok (rows, context) ∧ Q (entry.1, context))
    (h : ∀ entry ∈ contexts, P entry) :
    ∃ contexts', aggregateChunk table groupByColumnIds cacheResultIds contexts rows = .ok contexts' ∧
      contexts'.map Prod.fst = contexts.map Prod.fst ∧ ∀ entry ∈ contexts', Q entry := by
  induction contexts with
  | nil => exact ⟨[], rfl, rfl, by simp⟩
  | cons entry contexts ih =>
    rw [List.forall_mem_cons] at h
    obtain ⟨context, hrun, hentry⟩ := hstep entry h.1
    obtain ⟨contexts', hruns, haggregates, hentries⟩ := ih h.2
    refine ⟨(entry.1, context) :: contexts', ?_, congrArg (entry.1 :: ·) haggregates,
      List.forall_mem_cons.mpr ⟨hentry, hentries⟩⟩
    rw [aggregateChunk, hrun]
    show (do
      let contexts ← aggregateChunk table groupByColumnIds cacheResultIds contexts rows
      return (entry.1, context) :: contexts) = _
    rw [hruns]
    rfl

variable (table) in
/-- What all contexts satisfy after some rows.  If keys are looked up, the first aggregate looks
them up for all. -/
def AllResults (size : ℕ) (done : List (ℕ × RowId)) (ids : List (AggregateKey × ℕ))
    (contexts : List (AggregateExpression × AggregateContext R)) : KeyKind → Prop
  | .empty => ∀ entry ∈ contexts, CountEntry table done entry ∨
      entry.1.columnId ≠ none ∧ Entry table size .empty done [] entry
  | .cached => ∀ entry ∈ contexts, Entry table size .cached done [] entry
  | .hashed => ∃ first rest, contexts = first :: rest ∧ Entry table size .hashed done ids first ∧
      ∀ entry ∈ rest, Entry table size .cached done [] entry

/-- **A chunk.** -/
lemma AllResults.aggregateChunk (h : AllResults table size done ids contexts kind)
    (ht : table.WellFormed) (hgroup : groupByColumnIds = [] ↔ kind = .empty)
    (hrows : ∀ row ∈ rows, row.1.kind = kind ∧ row.2 ∈ table.rowIds)
    (hcache : 1 < contexts.length ∨ kind = .cached → cacheResultIds = true) :
    ∃ contexts', aggregateChunk table groupByColumnIds cacheResultIds contexts rows = .ok contexts' ∧
      contexts'.map Prod.fst = contexts.map Prod.fst ∧
      AllResults table size (done ++ (numberRows size ids rows).1) (numberRows size ids rows).2
        contexts' kind := by
  cases kind with
  | empty =>
    obtain rfl := hgroup.mpr rfl
    have hkinds : ∀ row ∈ rows, row.1.kind ≠ .hashed :=
      fun row hrow => by rw [(hrows row hrow).1]; simp
    rw [(numberRows_of_ne_hashed hkinds ids []).1]
    refine aggregateChunk_of_forall (fun entry hentry => ?_) h
    rcases hentry with hentry | ⟨hcolumn, hentry⟩
    · obtain ⟨context, hrun, hentry⟩ := hentry.aggregateColumn size
      exact ⟨context, hrun, .inl hentry⟩
    · obtain ⟨context, hrun, hentry⟩ := hentry.aggregateColumn_of_ne_hashed ht (by simp)
        (fun hstar => hcolumn hstar.1) hrows (by simp)
      exact ⟨context, hrun, .inr ⟨hcolumn, hentry⟩⟩
  | cached =>
    have hne : groupByColumnIds ≠ [] := fun hnil => by cases hgroup.mp hnil
    have hkinds : ∀ row ∈ rows, row.1.kind ≠ .hashed :=
      fun row hrow => by rw [(hrows row hrow).1]; simp
    rw [(numberRows_of_ne_hashed hkinds ids []).1]
    exact aggregateChunk_of_forall (fun entry hentry => hentry.aggregateColumn_of_ne_hashed ht
      (by simp) (fun hstar => hne hstar.2) hrows fun _ => hcache (.inr rfl)) h
  | hashed =>
    have hne : groupByColumnIds ≠ [] := fun hnil => by cases hgroup.mp hnil
    obtain ⟨first, rest, rfl, hfirst, hrest⟩ := h
    obtain ⟨context, hrun, hfirst⟩ := hfirst.aggregateColumn ht (fun hstar => hne hstar.2) hrows
      fun hk : KeyKind.hashed = .cached => (show cacheResultIds = true by cases hk)
    have htail : ∃ contexts', Skyrise.aggregateChunk table groupByColumnIds cacheResultIds rest
          (rowsAfter cacheResultIds rows (numberRows size ids rows).1) = .ok contexts' ∧
        contexts'.map Prod.fst = rest.map Prod.fst ∧ ∀ entry ∈ contexts',
          Entry table size .cached (done ++ (numberRows size ids rows).1) [] entry := by
      cases rest with
      | nil => exact ⟨[], rfl, rfl, by simp⟩
      | cons second rest =>
        obtain rfl := hcache (.inl (by simp))
        obtain ⟨hkinds, hrowIds, hnumbers⟩ :=
          rowsAfter_of_hashed size (fun row hrow => (hrows row hrow).1) ids []
        have hmem : ∀ row ∈ rowsAfter true rows (numberRows size ids rows).1,
            row.2 ∈ table.rowIds := by
          intro row hrow
          have hmap := List.mem_map_of_mem (f := Prod.snd) hrow
          rw [hrowIds] at hmap
          obtain ⟨row', hrow', heq⟩ := List.mem_map.mp hmap
          rw [← heq]
          exact (hrows row' hrow').2
        obtain ⟨contexts', hruns, haggregates, hentries⟩ := aggregateChunk_of_forall
          (fun entry hentry => Entry.aggregateColumn_of_ne_hashed hentry ht (by simp)
            (fun hstar => hne hstar.2) (fun row hrow => ⟨hkinds row hrow, hmem row hrow⟩)
            fun _ => rfl) hrest
        rw [hnumbers] at hentries
        exact ⟨contexts', hruns, haggregates, hentries⟩
    obtain ⟨contexts', hruns, haggregates, hentries⟩ := htail
    refine ⟨(first.1, context) :: contexts', ?_, congrArg (first.1 :: ·) haggregates,
      _, _, rfl, hfirst, hentries⟩
    rw [Skyrise.aggregateChunk, hrun]
    show (do
      let contexts ← Skyrise.aggregateChunk table groupByColumnIds cacheResultIds rest
        (rowsAfter cacheResultIds rows (numberRows size ids rows).1)
      return (first.1, context) :: contexts) = _
    rw [hruns]
    rfl

/-- **All chunks.** -/
lemma AllResults.foldlM_aggregateChunk {chunks : List (List (AggregateKey × RowId))}
    (h : AllResults table size done ids contexts kind) (ht : table.WellFormed)
    (hgroup : groupByColumnIds = [] ↔ kind = .empty)
    (hrows : ∀ rows ∈ chunks, ∀ row ∈ rows, row.1.kind = kind ∧ row.2 ∈ table.rowIds)
    (hcache : 1 < contexts.length ∨ kind = .cached → cacheResultIds = true) :
    ∃ contexts', chunks.foldlM (Skyrise.aggregateChunk table groupByColumnIds cacheResultIds)
        contexts = .ok contexts' ∧
      contexts'.map Prod.fst = contexts.map Prod.fst ∧
      AllResults table size (done ++ (numberRows size ids chunks.flatten).1)
        (numberRows size ids chunks.flatten).2 contexts' kind := by
  induction chunks generalizing contexts done ids with
  | nil => exact ⟨contexts, rfl, rfl, by simpa [numberRows] using h⟩
  | cons rows chunks ih =>
    rw [List.forall_mem_cons] at hrows
    obtain ⟨contexts', hrun, haggregates, hresults⟩ := h.aggregateChunk ht hgroup hrows.1 hcache
    have hlength : contexts'.length = contexts.length := by
      simpa using congrArg List.length haggregates
    obtain ⟨contexts'', hruns, haggregates', hresults'⟩ := ih hresults hrows.2 (by rwa [hlength])
    refine ⟨contexts'', ?_, haggregates'.trans haggregates, ?_⟩
    · rw [List.foldlM_cons, hrun]
      exact hruns
    · rw [List.flatten_cons, numberRows_append]
      simpa using hresults'

end

/-! ### The output of the groups -/

section

variable (table : Table R) (groupByColumnIds : List ℕ)

/-- The rows of the input with the indexes of their results. -/
def numberedRows : List (ℕ × RowId) :=
  (numberRows (partitionByGroupByKeys table groupByColumnIds).expectedResultSize []
    (partitionByGroupByKeys table groupByColumnIds).rows.flatten).1

/-- The rows that the GROUP BY columns are read from. -/
def groupPositions : List RowId :=
  (occurring (numberedRows table groupByColumnIds)).filterMap fun i =>
    ((partitionByGroupByKeys table groupByColumnIds).kind groupByColumnIds).pickRow
      (rowsOfResult (numberedRows table groupByColumnIds) i)

/-- The GROUP BY columns. -/
def groupColumns : List (OutputColumn R) :=
  groupByColumnIds.map (writeUnaggregatedColumn table (groupPositions table groupByColumnIds))

/-- The cells of an aggregate after some rows. -/
def aggregateCells (done : List (ℕ × RowId)) (aggregate : AggregateExpression) :
    List (AllTypeVariant R) :=
  if aggregate.columnId = none ∧ groupByColumnIds = [] then [some (.long (Int64.ofNat done.length))]
  else (occurring done).map fun i => writeAggregateValue table aggregate
    (aggregated (stepOf table aggregate) (startOf table aggregate) (rowsOfResult done i))

/-- The column of an aggregate, wherever it stands. -/
def aggregateColumnOf (aggregate : AggregateExpression) : OutputColumn R :=
  if aggregate.aggregateFunction = .any then
    writeUnaggregatedColumn table (groupPositions table groupByColumnIds) (aggregate.columnId.getD 0)
  else aggregateOutput table groupByColumnIds aggregate
    (aggregateCells table groupByColumnIds (numberedRows table groupByColumnIds) aggregate)

variable {table groupByColumnIds} {size : ℕ} {kind : KeyKind} {done : List (ℕ × RowId)}
  {ids : List (AggregateKey × ℕ)} {entry : AggregateExpression × AggregateContext R}
  {contexts : List (AggregateExpression × AggregateContext R)}
  {aggregates : List AggregateExpression}

lemma Entry.writeAggregateValues_eq (h : Entry table size kind done ids entry)
    (hstar : ¬(entry.1.columnId = none ∧ groupByColumnIds = [])) :
    writeAggregateValues table entry.1 entry.2 = aggregateCells table groupByColumnIds done entry.1 := by
  rw [writeAggregateValues, h.aggregated.hasResults.filter_eq, aggregateCells, if_neg hstar,
    List.map_map, h.start]
  rfl

/-- COUNT(*) of no chunk is zero. -/
lemma CountEntry.aggregateOutput_eq (h : CountEntry table done entry) :
    aggregateOutput table [] entry.1 (writeAggregateValues table entry.1 entry.2) =
      aggregateOutput table [] entry.1 (aggregateCells table [] done entry.1) := by
  rw [aggregateCells, if_pos ⟨h.columnId, rfl⟩]
  rcases h.results with ⟨hresults, hdone⟩ | hresults
  · rw [writeAggregateValues, hresults, hdone, aggregateOutput, aggregateOutput]
    simp [needsNull, AggregateExpression.dataType, aggregateDataType, h.count,
      DataType.defaultValue]
  · rw [writeAggregateValues, hresults]
    simp [writeAggregateValue, h.count]

/-- The columns of the aggregates, from all contexts. -/
lemma AllResults.aggregateOutput_eq (h : AllResults table size done ids contexts kind)
    (hgroup : groupByColumnIds = [] ↔ kind = .empty) (hentry : entry ∈ contexts) :
    aggregateOutput table groupByColumnIds entry.1 (writeAggregateValues table entry.1 entry.2) =
      aggregateOutput table groupByColumnIds entry.1
        (aggregateCells table groupByColumnIds done entry.1) := by
  cases kind with
  | empty =>
    obtain rfl := hgroup.mpr rfl
    rcases h entry hentry with hcount | ⟨hcolumn, haggregated⟩
    · exact hcount.aggregateOutput_eq
    · rw [haggregated.writeAggregateValues_eq fun hstar => hcolumn hstar.1]
  | cached =>
    have hne : groupByColumnIds ≠ [] := fun hnil => by cases hgroup.mp hnil
    rw [(h entry hentry).writeAggregateValues_eq fun hstar => hne hstar.2]
  | hashed =>
    have hne : groupByColumnIds ≠ [] := fun hnil => by cases hgroup.mp hnil
    obtain ⟨first, rest, rfl, hfirst, hrest⟩ := h
    rcases List.mem_cons.mp hentry with rfl | hentry
    · rw [hfirst.writeAggregateValues_eq fun hstar => hne hstar.2]
    · rw [(hrest entry hentry).writeAggregateValues_eq fun hstar => hne hstar.2]

/-- The positions, from the context of the first aggregate. -/
lemma AllResults.positionList_eq (h : AllResults table size done ids contexts kind)
    (hkind : kind ≠ .empty) (hentry : contexts.head? = some entry) :
    entry.2.positionList = (occurring done).filterMap fun i => kind.pickRow (rowsOfResult done i) := by
  cases kind with
  | empty => exact absurd rfl hkind
  | cached =>
    exact (h entry (List.mem_of_mem_head? hentry)).aggregated.hasResults.filterMap_eq
  | hashed =>
    obtain ⟨first, rest, rfl, hfirst, -⟩ := h
    obtain rfl := Option.some.inj hentry
    exact hfirst.aggregated.hasResults.filterMap_eq

/-- A context without rows. -/
lemma aggregated_createAggregateContext (g : RowId → AggregateValue R → AggregateValue R)
    (hempty : kind = .empty → size = 0) (aggregate : AggregateExpression) :
    Aggregated size kind g (createAggregateContext table size aggregate) [] [] := by
  have hnil : HasResults kind g (createAggregateContext table size aggregate).start [] [] :=
    ⟨fun _ hd => absurd hd List.not_mem_nil, fun _ _ hr => (by simp at hr)⟩
  refine ⟨hnil.append_empty size, fun hk => ?_, fun _ => rfl, fun _ => ?_, fun _ key i hi => ?_⟩
  · rw [hempty hk]
    rfl
  · simp [createAggregateContext]
  · cases hi

/-- All contexts without rows. -/
lemma allResults_createAggregateContext (hvalid : ∀ a ∈ aggregates, a.Valid table)
    (hany : ∀ a ∈ aggregates, a.aggregateFunction ≠ .any) (hne : aggregates ≠ [])
    (hempty : kind = .empty → size = 0) : AllResults table size [] []
      (aggregates.map fun a => (a, createAggregateContext table size a)) kind := by
  have hentry : ∀ (kind' : KeyKind), (kind' = .empty → size = 0) → ∀ a ∈ aggregates,
      Entry table size kind' [] [] (a, createAggregateContext table size a) :=
    fun kind' hempty a ha => ⟨hvalid a ha, hany a ha, rfl,
      aggregated_createAggregateContext _ hempty a⟩
  cases kind with
  | empty =>
    obtain rfl := hempty rfl
    intro entry hmem
    obtain ⟨a, ha, rfl⟩ := List.mem_map.mp hmem
    by_cases hcolumn : a.columnId = none
    · exact .inl ⟨hcolumn, (hvalid a ha).star hcolumn, rfl, .inl ⟨rfl, rfl⟩⟩
    · exact .inr ⟨hcolumn, hentry .empty (fun _ => rfl) a ha⟩
  | cached =>
    intro entry hmem
    obtain ⟨a, ha, rfl⟩ := List.mem_map.mp hmem
    exact hentry .cached (by simp) a ha
  | hashed =>
    obtain ⟨first, rest, rfl⟩ := List.exists_cons_of_ne_nil hne
    refine ⟨_, _, rfl, hentry .hashed (by simp) first List.mem_cons_self, fun entry hmem => ?_⟩
    obtain ⟨a, ha, rfl⟩ := List.mem_map.mp hmem
    exact hentry .cached (by simp) a (List.mem_cons_of_mem _ ha)

omit [FloatingPoint R] in
lemma outputTable_map_some {columns : List (OutputColumn R)} (h : columns ≠ []) :
    outputTable (columns.map some) = .ok (tableOfColumns columns) := by
  have hmapM : (columns.map some).mapM id = some columns := by
    clear h
    induction columns with
    | nil => rfl
    | cons column columns ih =>
      rw [List.map_cons, List.mapM_cons, ih]
      rfl
  rw [outputTable, if_neg (by simpa using h), hmapM]

omit [FloatingPoint R] in
lemma validateAggregates_eq_ok (h : ∀ a ∈ aggregates, a.Valid table) :
    aggregates.forM (validateAggregate table) = .ok () := by
  induction aggregates with
  | nil => rfl
  | cons a aggregates ih =>
    rw [List.forall_mem_cons] at h
    have ha : validateAggregate table a = .ok () := by
      rw [validateAggregate]
      split
      · next hc => simp [h.1.star hc]
      · next c hc =>
        by_cases hstring : table.columnDataType c = .string
        · obtain ⟨h₁, h₂, h₃⟩ := h.1.arithmetic c hc hstring
          simp [h₁, h₂, h₃]
        · simp [hstring]
    show (do validateAggregate table a; aggregates.forM (validateAggregate table)) = _
    rw [ha]
    exact ih h.2

lemma hasAggregateFunctions_of_forall (hany : ∀ a ∈ aggregates, a.aggregateFunction ≠ .any)
    (hne : aggregates ≠ []) : hasAggregateFunctions aggregates = true := by
  obtain ⟨first, rest, rfl⟩ := List.exists_cons_of_ne_nil hne
  simp [hasAggregateFunctions, hany first List.mem_cons_self]

/-- **Aggregate functions** other than ANY, in the order in which they are listed. -/
lemma onExecute_of_ne_any (ht : table.WellFormed) (hvalid : ∀ a ∈ aggregates, a.Valid table)
    (hany : ∀ a ∈ aggregates, a.aggregateFunction ≠ .any) (hne : aggregates ≠ []) :
    onExecute table groupByColumnIds aggregates = .ok (tableOfColumns
      (groupColumns table groupByColumnIds ++
        aggregates.map (aggregateColumnOf table groupByColumnIds))) := by
  obtain ⟨-, -, -, hsize⟩ := partitionByGroupByKeys_spec table groupByColumnIds
  have hgroup := Partitioning.kind_eq_empty_iff groupByColumnIds
    (partitionByGroupByKeys table groupByColumnIds)
  have hstart := allResults_createAggregateContext hvalid hany hne fun hk => hsize (hgroup.mpr hk)
  have hcache : 1 < (aggregates.map fun a => (a, createAggregateContext table
        (partitionByGroupByKeys table groupByColumnIds).expectedResultSize a)).length ∨
      (partitionByGroupByKeys table groupByColumnIds).kind groupByColumnIds = .cached →
      (1 < (aggregates.map fun a => (a, createAggregateContext table
          (partitionByGroupByKeys table groupByColumnIds).expectedResultSize a)).length ||
        (partitionByGroupByKeys table groupByColumnIds).useImmediateKeyShortcut) = true := by
    rintro (hlength | hk)
    · simp only [hlength, decide_true, Bool.true_or]
    · simp [Partitioning.kind_eq_cached hk]
  obtain ⟨contexts, hrun, haggregates, hresults⟩ :=
    hstart.foldlM_aggregateChunk ht hgroup partitioned_rows hcache
  have hfst : contexts.map Prod.fst = aggregates := by
    rw [haggregates, List.map_map]
    exact List.map_id aggregates
  obtain ⟨first, rest, rfl⟩ : ∃ first rest, contexts = first :: rest := by
    cases contexts with
    | nil => exact absurd hfst.symm hne
    | cons first rest => exact ⟨first, rest, rfl⟩
  have hanyEntry : ∀ entry ∈ first :: rest, entry.1.aggregateFunction ≠ .any :=
    fun entry hentry => hany _ (hfst ▸ List.mem_map_of_mem hentry)
  have hcolumns : writeColumns table groupByColumnIds (some first.2.positionList) (first :: rest) =
      (groupColumns table groupByColumnIds ++
        aggregates.map (aggregateColumnOf table groupByColumnIds)).map some := by
    rw [writeColumns, List.map_append, groupColumns, ← hfst, List.map_map, List.map_map,
      List.map_map]
    congr 1
    · refine List.map_congr_left fun c hc => ?_
      have hk : (partitionByGroupByKeys table groupByColumnIds).kind groupByColumnIds ≠ .empty :=
        fun hk => by rw [hgroup.mpr hk] at hc; cases hc
      rw [hresults.positionList_eq hk rfl]
      rfl
    · refine List.map_congr_left fun entry hentry => ?_
      have houtput := hresults.aggregateOutput_eq hgroup hentry
      obtain ⟨a, context⟩ := entry
      dsimp only at houtput ⊢
      rw [if_neg (hanyEntry _ hentry), Function.comp_apply, Function.comp_apply,
        aggregateColumnOf, if_neg (hanyEntry _ hentry), houtput]
      rfl
  have hcons : groupColumns table groupByColumnIds ++
      aggregates.map (aggregateColumnOf table groupByColumnIds) ≠ [] := by
    simp [hne]
  have hassert : (!(aggregates.isEmpty && groupByColumnIds.isEmpty)) = true := by simp [hne]
  rw [onExecute, hassert, assert_true, validateAggregates_eq_ok hvalid]
  show (if hasAggregateFunctions aggregates = true then _ else _) = _
  rw [if_pos (hasAggregateFunctions_of_forall hany hne)]
  dsimp only
  rw [hrun]
  show outputTable (writeColumns table groupByColumnIds
    (if first.1.aggregateFunction = .any then none else some first.2.positionList)
      (first :: rest)) = _
  rw [if_neg (hanyEntry first List.mem_cons_self), hcolumns, outputTable_map_some hcons]

omit [FloatingPoint R] in
/-- A run over rows that only collects the groups. -/
lemma Aggregated.foldlM_collectGroups {context : AggregateContext R}
    {chunks : List (List (AggregateKey × RowId))} {cacheResultIds : Bool}
    (h : Aggregated size kind (fun _ s => s) context done ids)
    (hkind : ∀ rows ∈ chunks, ∀ row ∈ rows, row.1.kind = kind)
    (hcache : kind = .cached → cacheResultIds = true) :
    ∃ context', chunks.foldlM (collectGroups cacheResultIds) context = .ok context' ∧
      Aggregated size kind (fun _ s => s) context'
        (done ++ (numberRows size ids chunks.flatten).1) (numberRows size ids chunks.flatten).2 := by
  induction chunks generalizing context done ids with
  | nil => exact ⟨context, rfl, by simpa [numberRows] using h⟩
  | cons rows chunks ih =>
    rw [List.forall_mem_cons] at hkind
    have hupdate : ∀ row ∈ rows, ∀ s : AggregateValue R, keepValue row.2 s = .ok s :=
      fun _ _ _ => rfl
    obtain ⟨context', hrun, -, haggregated⟩ := h.aggregateRows hkind.1 hcache hupdate
    obtain ⟨context'', hruns, haggregated'⟩ := ih haggregated hkind.2
    refine ⟨context'', ?_, ?_⟩
    · rw [List.foldlM_cons, collectGroups, hrun]
      exact hruns
    · rw [List.flatten_cons, numberRows_append]
      simpa using haggregated'

/-- **No aggregate functions** other than ANY, none of them of strings. -/
lemma onExecute_of_any (hvalid : ∀ a ∈ aggregates, a.Valid table)
    (hany : ∀ a ∈ aggregates, a.aggregateFunction = .any)
    (hstring : ∀ a ∈ aggregates, a.dataType table ≠ .string)
    (hne : aggregates ≠ [] ∨ groupByColumnIds ≠ []) :
    onExecute table groupByColumnIds aggregates = .ok (tableOfColumns
      (groupColumns table groupByColumnIds ++
        aggregates.map (aggregateColumnOf table groupByColumnIds))) := by
  obtain ⟨-, -, -, hsize⟩ := partitionByGroupByKeys_spec table groupByColumnIds
  have hgroup := Partitioning.kind_eq_empty_iff groupByColumnIds
    (partitionByGroupByKeys table groupByColumnIds)
  obtain ⟨aggregate, hdistinct⟩ : ∃ aggregate,
      distinctContext table (partitionByGroupByKeys table groupByColumnIds).expectedResultSize
        aggregates = .ok (createAggregateContext table
          (partitionByGroupByKeys table groupByColumnIds).expectedResultSize aggregate) := by
    cases aggregates with
    | nil => exact ⟨_, rfl⟩
    | cons first rest => exact ⟨first, if_neg (hstring first List.mem_cons_self)⟩
  have hstart : Aggregated (partitionByGroupByKeys table groupByColumnIds).expectedResultSize
      ((partitionByGroupByKeys table groupByColumnIds).kind groupByColumnIds) (fun _ s => s)
      (createAggregateContext table _ aggregate) [] [] :=
    aggregated_createAggregateContext _ (fun hk => hsize (hgroup.mpr hk)) aggregate
  obtain ⟨context, hrun, haggregated⟩ := hstart.foldlM_collectGroups
    (fun rows hrows row hrow => (partitioned_rows rows hrows row hrow).1)
    Partitioning.kind_eq_cached
  have hpositions : context.positionList = groupPositions table groupByColumnIds :=
    haggregated.hasResults.filterMap_eq
  have hcolumns : ∀ contexts : List (AggregateExpression × AggregateContext R),
      contexts.map Prod.fst = aggregates →
      writeColumns table groupByColumnIds (some context.positionList) contexts =
        (groupColumns table groupByColumnIds ++
          aggregates.map (aggregateColumnOf table groupByColumnIds)).map some := by
    rintro contexts rfl
    rw [writeColumns, List.map_append, groupColumns, List.map_map, List.map_map, List.map_map,
      hpositions]
    congr 1
    refine List.map_congr_left fun entry hentry => ?_
    have ha := hany entry.1 (List.mem_map_of_mem hentry)
    obtain ⟨a, context⟩ := entry
    dsimp only at ha ⊢
    rw [if_pos ha, Function.comp_apply, Function.comp_apply, aggregateColumnOf, if_pos ha]
    rfl
  have hassert : (!(aggregates.isEmpty && groupByColumnIds.isEmpty)) = true := by
    rcases hne with hne | hne <;> simp [hne]
  have hfunctions : hasAggregateFunctions aggregates = false := by
    simpa [hasAggregateFunctions] using hany
  rw [onExecute, hassert, assert_true, validateAggregates_eq_ok hvalid]
  show (if hasAggregateFunctions aggregates = true then _ else _) = _
  rw [hfunctions, if_neg (by simp), hdistinct]
  change Except.bind (List.foldlM _ _ _) _ = _
  rw [hrun]
  show outputTable (writeColumns table groupByColumnIds (some context.positionList) _) = _
  rw [hcolumns _ ?_, outputTable_map_some]
  · rcases hne with hne | hne <;> simp [hne, groupColumns]
  · rw [List.map_map]
    exact List.map_id aggregates

end

end Skyrise

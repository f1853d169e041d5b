/-
The rows that a projection returns.

Every chunk is projected on its own: columns are forwarded, and all other expressions
are evaluated to segments.  An evaluation does not depend on the chunk if it returns,
but whether it returns does, and a chunk that is split loses its NULLs.
-/
import Skyrise.Expression.Evaluation.ChunkLocality
import Skyrise.Expression.Evaluation.RowValues
import Skyrise.Operator.Projection

namespace Skyrise

variable {R : Type}

section

variable [FloatingPoint R] (conversions : Conversions R)

/-- The results that an evaluator has stored. -/
abbrev ResultCache (R : Type) := List (Expression R × DataType × ExpressionResult R)

/-- What `EvaluateExpressionToSegment` requests. -/
def requestResult (table : Table R) (chunkId : ℕ) (e : Expression R) : Requests R :=
  resolveRequests e (requests (evaluateComputedExpression conversions) table chunkId e)
    fun r => .done (.ok r)

/-- The segment of a result. -/
def segmentOf (rowCount : ℕ) (result : ExpressionResult R) : Except Exception (ValueSegment R) := do
  assert (result.dataType ≠ .null) "Cannot create a Segment from a NULL."
  let values ← (List.range rowCount).mapM result.asView.value
  if result.asView.isNullable then
    let nulls ← (List.range rowCount).mapM result.asView.isNull
    return .ofNullable result.dataType values nulls
  else return .ofValues result.dataType values

/-- `EvaluateExpressionToSegment`, with the results that are stored before and afterwards.  It is
undefined to find a result of another type than is requested. -/
def evaluateExpressionToSegment (table : Table R) (chunkId : ℕ) (e : Expression R)
    (cache : ResultCache R) : Except Exception (ValueSegment R × ResultCache R) :=
  match (requestResult conversions table chunkId e).runCached Expression.equals cache with
  | none => .error .undefinedBehavior
  | some (.error x, _) => .error x
  | some (.ok result, cache') => do
    return (← segmentOf (table.getChunk chunkId).size result, cache')

namespace ProjectionOperator

/-- The column that an expression forwards. -/
def forwardedColumn (e : Expression R) : Option ℕ :=
  match e.root with
  | .pqpColumn columnId _ _ _ => some columnId.toNat
  | _ => none

/-- The segment of a column of the input. -/
def forwardSegment (table : Table R) (chunkId columnId : ℕ) : Except Exception (ValueSegment R) :=
  match (table.getChunk chunkId).segments[columnId]? with
  | some segment => .ok segment
  | none => .error .outOfRange

/-- The segments of the expressions in a chunk, which one evaluator evaluates one after the
other. -/
def projectSegments (table : Table R) (chunkId : ℕ) :
    List (Expression R) → ResultCache R → Except Exception (List (ValueSegment R))
  | [], _ => .ok []
  | e :: expressions, cache =>
    match forwardedColumn e with
    | some columnId => do
      let segment ← forwardSegment table chunkId columnId
      return segment :: (← projectSegments table chunkId expressions cache)
    | none => do
      let (segment, cache) ← evaluateExpressionToSegment conversions table chunkId e cache
      return segment :: (← projectSegments table chunkId expressions cache)

/-- The chunk of the results in a chunk. -/
def projectChunk (table : Table R) (expressions : List (Expression R)) (chunkId : ℕ) :
    Except Exception (Chunk R) := do
  return ⟨← projectSegments conversions table chunkId expressions []⟩

/-- Whether a column of the output is declared nullable: a forwarded column as in the input, and
another one if a segment of it has flags. -/
def nullableColumn (table : Table R) (chunks : List (Chunk R)) (e : Expression R) (columnId : ℕ) :
    Bool :=
  match forwardedColumn e with
  | some inputColumn => table.chunkCount ≠ 0 && table.columnIsNullable inputColumn
  | none => chunks.any fun chunk => (chunk.getSegment columnId).isNullable

/-- The definition of a column of the output. -/
def outputDefinition (asColumnName : Expression R → String) (table : Table R)
    (chunks : List (Chunk R)) (column : Expression R × ℕ) :
    Except Exception TableColumnDefinition := do
  return ⟨asColumnName column.1, ← column.1.getDataType,
    nullableColumn table chunks column.1 column.2⟩

/-- `ProjectionOperator::OnExecute`.  The chunks are evaluated by jobs, and there is no output if
one of them fails; `asColumnName` are the descriptions of the expressions. -/
def projectionOperator (asColumnName : Expression R → String) (expressions : List (Expression R))
    (inputTable : Table R) : Except Exception (Table R) := do
  let table ← splitInput inputTable
  let chunks ← (List.range table.chunkCount).mapM (projectChunk conversions table expressions)
  let columnDefinitions ← expressions.zipIdx.mapM (outputDefinition asColumnName table chunks)
  return ⟨columnDefinitions, chunks⟩

/-! ### When there is an output -/

/-- Whether all expressions have a type and can be evaluated in every chunk. -/
def Projectable (expressions : List (Expression R)) (inputTable : Table R) : Prop :=
  (∀ e ∈ expressions, ∃ t, e.getDataType = .ok t) ∧
    ∀ table, splitInput inputTable = .ok table → ∀ chunkId < table.chunkCount,
      ∃ segments, projectSegments conversions table chunkId expressions [] = .ok segments

variable {conversions} {asColumnName : Expression R → String} {expressions : List (Expression R)}
  {table inputTable : Table R}

/-- What a projection projects. -/
lemma projectionOperator_eq_ok (hsplit : splitInput inputTable = .ok table) {out : Table R}
    (h : projectionOperator conversions asColumnName expressions inputTable = .ok out) :
    (List.range table.chunkCount).mapM (projectChunk conversions table expressions) =
        .ok out.chunks ∧ ∀ e ∈ expressions, ∃ t, e.getDataType = .ok t := by
  obtain ⟨table', hsplit', h⟩ := exists_of_bind_eq_ok h
  obtain rfl := Except.ok.inj (hsplit.symm.trans hsplit')
  obtain ⟨chunks, hchunks, h⟩ := exists_of_bind_eq_ok h
  obtain ⟨columnDefinitions, hdefinitions, h⟩ := exists_of_bind_eq_ok h
  cases h
  refine ⟨hchunks, fun e he => ?_⟩
  obtain ⟨i, hi, rfl⟩ := List.getElem_of_mem he
  have hmem : (expressions[i], i) ∈ expressions.zipIdx :=
    List.mk_mem_zipIdx_iff_getElem?.mpr (List.getElem?_eq_getElem hi)
  obtain ⟨y, hy⟩ := exists_mapM_eq_ok_iff.mp ⟨_, hdefinitions⟩ _ hmem
  obtain ⟨t, ht, -⟩ := exists_of_bind_eq_ok hy
  exact ⟨t, ht⟩

lemma projectable_iff (hsplit : splitInput inputTable = .ok table) :
    Projectable conversions expressions inputTable ↔
      ∃ out, projectionOperator conversions asColumnName expressions inputTable = .ok out := by
  constructor
  · rintro ⟨htypes, hsegments⟩
    obtain ⟨chunks, hchunks⟩ : ∃ chunks, (List.range table.chunkCount).mapM
        (projectChunk conversions table expressions) = .ok chunks := by
      refine exists_mapM_eq_ok_iff.mpr fun chunkId hchunk => ?_
      obtain ⟨segments, hok⟩ := hsegments table hsplit chunkId (List.mem_range.mp hchunk)
      exact ⟨⟨segments⟩, by rw [projectChunk, hok]; rfl⟩
    obtain ⟨columnDefinitions, hdefinitions⟩ : ∃ columnDefinitions, expressions.zipIdx.mapM
        (outputDefinition asColumnName table chunks) = .ok columnDefinitions := by
      refine exists_mapM_eq_ok_iff.mpr fun column hcolumn => ?_
      obtain ⟨t, ht⟩ := htypes column.1 (List.fst_mem_of_mem_zipIdx hcolumn)
      exact ⟨_, by rw [outputDefinition, ht]; rfl⟩
    refine ⟨⟨columnDefinitions, chunks⟩, ?_⟩
    rw [projectionOperator, hsplit]
    change Except.bind ((List.range table.chunkCount).mapM
      (projectChunk conversions table expressions)) _ = _
    rw [hchunks]
    change Except.bind (expressions.zipIdx.mapM (outputDefinition asColumnName table chunks)) _ = _
    rw [hdefinitions]
    rfl
  · rintro ⟨out, hout⟩
    obtain ⟨hchunks, htypes⟩ := projectionOperator_eq_ok hsplit hout
    refine ⟨htypes, fun table' hsplit' chunkId hchunk => ?_⟩
    obtain rfl := Except.ok.inj (hsplit.symm.trans hsplit')
    obtain ⟨chunk, hok⟩ :=
      exists_mapM_eq_ok_iff.mp ⟨_, hchunks⟩ chunkId (List.mem_range.mpr hchunk)
    obtain ⟨segments, hsegments, -⟩ := exists_of_bind_eq_ok hok
    exact ⟨segments, hsegments⟩

/-! ### The cells of the output -/

/-- A segment has the cells of the result. -/
lemma segmentOf_eq_ok {rowCount : ℕ} {r : ExpressionResult R} {segment : ValueSegment R}
    (h : segmentOf rowCount r = .ok segment) : segment.size = rowCount ∧
      (Rowed rowCount r → ∀ i < rowCount, segment.variantAt i = r.cell i) := by
  obtain ⟨-, -, h⟩ := exists_of_bind_eq_ok h
  obtain ⟨values, hvalues, h⟩ := exists_of_bind_eq_ok h
  obtain ⟨hlength, hget⟩ := getD_of_mapM_range hvalues r.dataType.defaultValue
  -- the value of a row that is not NULL
  have hvalue : ∀ i < rowCount,
      values[i]? = some (values.getD i r.dataType.defaultValue) := by
    intro i hi
    rw [List.getD_eq_getElem?_getD, List.getElem?_eq_getElem (hlength ▸ hi), Option.getD_some]
  split at h
  · obtain ⟨nulls, hnulls, h⟩ := exists_of_bind_eq_ok h
    cases h
    obtain ⟨-, hget'⟩ := getD_of_mapM_range hnulls false
    refine ⟨hlength, fun hrowed i hi => ?_⟩
    obtain ⟨hnull, hv⟩ := hrowed.reads hi (.inl rfl) (hget i hi) (hget' i hi)
    rw [ValueSegment.variantAt, ValueSegment.isNull_ofNullable, ExpressionResult.cell, hnull,
      ValueSegment.values_ofNullable, hvalue i hi]
    cases hfalse : r.isNull i with
    | true => rfl
    | false => rw [hv (hnull.trans hfalse)]
  · next hnullable =>
    cases h
    refine ⟨hlength, fun hrowed i hi => ?_⟩
    obtain ⟨hnull, hv⟩ := hrowed.reads hi (.inl rfl) (hget i hi)
      (ExpressionResultView.isNull_of_isNullable (by simpa using hnullable))
    rw [ValueSegment.variantAt_ofValues, ExpressionResult.cell, ← hnull, hvalue i hi, hv rfl]
    rfl

lemma evaluateExpressionToSegment_eq_ok {chunkId : ℕ} {e : Expression R}
    {cache cache' : ResultCache R} {segment : ValueSegment R}
    (h : evaluateExpressionToSegment conversions table chunkId e cache = .ok (segment, cache')) :
    ∃ r, (requestResult conversions table chunkId e).runCached Expression.equals cache =
        some (.ok r, cache') ∧ segmentOf (table.getChunk chunkId).size r = .ok segment := by
  rw [evaluateExpressionToSegment] at h
  split at h
  · cases h
  · cases h
  · next r cache'' hrun =>
    obtain ⟨segment', hsegment, h⟩ := exists_of_bind_eq_ok h
    cases h
    exact ⟨r, hrun, hsegment⟩

/-- What a column evaluates to. -/
lemma evaluateColumnExpression_eq_ok {chunkId columnId : ℕ} {t : DataType} {r : ExpressionResult R}
    (hchunk : (table.getChunk chunkId).WellFormed table.columnDefinitions)
    (h : evaluateColumnExpression table (table.getChunk chunkId) columnId t = .ok r) :
    columnId < table.getColumnCount ∧ Rowed (table.getChunk chunkId).size r ∧ r.dataType = t ∧
      (table.columnIsNullable columnId = true →
        ((table.getChunk chunkId).getSegment columnId).nullValues ≠ none) ∧
      ∀ i < (table.getChunk chunkId).size,
        r.cell i = ((table.getChunk chunkId).getSegment columnId).variantAt i := by
  rw [evaluateColumnExpression] at h
  split at h
  · cases h
  · next segment hsegment =>
    obtain ⟨hlt, hget⟩ := List.getElem?_eq_some_iff.mp hsegment
    have hcol : columnId < table.getColumnCount := hlt.trans_eq hchunk.length_segments
    obtain rfl : (table.getChunk chunkId).getSegment columnId = segment := by
      rw [Chunk.getSegment_of_lt hlt, hget]
    have hsize := hchunk.size_getSegment hcol
    have hwell := hchunk.wellFormed_getSegment hcol
    have hvalues : ((table.getChunk chunkId).getSegment columnId).values.length =
        (table.getChunk chunkId).size := hsize
    obtain ⟨-, -, h⟩ := exists_of_bind_eq_ok h
    refine ⟨hcol, ?_⟩
    split at h
    · split at h
      · next nulls hnulls =>
        cases h
        have hlength := (hwell.nulls_length nulls hnulls).trans hvalues
        refine ⟨⟨.inr hvalues, .inr (.inr hlength), fun hone => ?_⟩, rfl, fun _ => ?_, ?_⟩
        · rw [ExpressionResult.size, hvalues] at hone
          exact (hlength.trans hone).le
        · rw [hnulls]
          exact Option.some_ne_none nulls
        · rw [← hsize]
          exact fun i hi => cell_of_represents (represents_of_nullValues hwell hnulls) hi
      · cases h
    · next hnullable =>
      cases h
      refine ⟨⟨.inr hvalues, .inl rfl, fun _ => Nat.zero_le 1⟩, rfl,
        fun htrue => absurd htrue hnullable, ?_⟩
      rw [← hsize]
      refine fun i hi => cell_of_represents (represents_of_isNull ?_) hi
      exact hchunk.not_null columnId _ (Table.columnDefinition_of_lt hcol)
        (Bool.eq_false_of_not_eq_true hnullable)

/-- What the segments of several expressions are. -/
lemma projectSegments_cons_eq_ok {chunkId : ℕ} {e : Expression R} {cache : ResultCache R}
    {segments : List (ValueSegment R)}
    (h : projectSegments conversions table chunkId (e :: expressions) cache = .ok segments) :
    ∃ segment rest cache', segments = segment :: rest ∧
      projectSegments conversions table chunkId expressions cache' = .ok rest ∧
      ((∃ columnId, forwardedColumn e = some columnId ∧ cache' = cache ∧
        (table.getChunk chunkId).segments[columnId]? = some segment) ∨
      (forwardedColumn e = none ∧ evaluateExpressionToSegment conversions table chunkId e cache =
        .ok (segment, cache'))) := by
  rw [projectSegments] at h
  split at h
  · next columnId hforward =>
    obtain ⟨segment, hsegment, h⟩ := exists_of_bind_eq_ok h
    obtain ⟨rest, hrest, h⟩ := exists_of_bind_eq_ok h
    cases h
    refine ⟨segment, rest, cache, rfl, hrest, .inl ⟨columnId, hforward, rfl, ?_⟩⟩
    rw [forwardSegment] at hsegment
    split at hsegment
    · next hget => rw [hget, Except.ok.inj hsegment]
    · cases hsegment
  · next hforward =>
    obtain ⟨⟨segment, cache'⟩, hsegment, h⟩ := exists_of_bind_eq_ok h
    obtain ⟨rest, hrest, h⟩ := exists_of_bind_eq_ok h
    cases h
    exact ⟨segment, rest, cache', rfl, hrest, .inr ⟨hforward, hsegment⟩⟩

variable (conversions) in
/-- The cells of the expressions at a row. -/
def projectedRow (table : Table R) (expressions : List (Expression R)) (rowId : RowId) :
    List (AllTypeVariant R) :=
  match projectSegments conversions table rowId.chunkId expressions [] with
  | .ok segments => segments.map fun segment => segment.variantAt rowId.chunkOffset
  | .error _ => []

/-- The rows of the output are those of the table that is projected. -/
lemma rows_projectionOperator (hsplit : splitInput inputTable = .ok table) (ht : table.WellFormed)
    {out : Table R}
    (h : projectionOperator conversions asColumnName expressions inputTable = .ok out)
    (hne : expressions ≠ []) :
    out.rows = table.rowIds.map (projectedRow conversions table expressions) := by
  obtain ⟨hchunks, -⟩ := projectionOperator_eq_ok hsplit h
  rw [mapM_eq_ok_iff] at hchunks
  rw [Table.rowIds_eq_flatMap_range, List.map_flatMap, Table.rows]
  refine List.flatMap_eq_of_forall₂ (hchunks.imp_of_mem fun chunkId hmem chunk hok => ?_)
  have hchunk := ht.getChunk (List.mem_range.mp hmem)
  obtain ⟨segments, hsegments, hchunk'⟩ := exists_of_bind_eq_ok hok
  cases hchunk'
  -- the size is that of the first segment
  have hsize : (⟨segments⟩ : Chunk R).size = (table.getChunk chunkId).size := by
    obtain ⟨e, es, rfl⟩ := List.exists_cons_of_ne_nil hne
    obtain ⟨segment, rest, cache', rfl, -, ⟨columnId, -, -, hget⟩ | ⟨-, hsegment⟩⟩ :=
      projectSegments_cons_eq_ok hsegments
    · exact hchunk.sizes _ (List.mem_of_getElem? hget)
    · obtain ⟨r, -, hr⟩ := evaluateExpressionToSegment_eq_ok hsegment
      exact (segmentOf_eq_ok hr).1
  rw [Chunk.rows, hsize, Table.chunkRowIds, List.map_map]
  refine List.map_congr_left fun i _ => ?_
  show segments.map _ = projectedRow conversions table expressions ⟨chunkId, i⟩
  rw [projectedRow, hsegments]

/-- Without expressions there are no rows. -/
lemma rows_projectionOperator_nil (hsplit : splitInput inputTable = .ok table) {out : Table R}
    (h : projectionOperator conversions asColumnName [] inputTable = .ok out) : out.rows = [] := by
  obtain ⟨hchunks, -⟩ := projectionOperator_eq_ok hsplit h
  rw [mapM_eq_ok_iff] at hchunks
  rw [Table.rows, List.flatMap_eq_nil_iff]
  refine hchunks.forall_mem_right fun chunkId chunk _ hok => ?_
  cases hok
  rfl

/-- A column that is forwarded is one of the table. -/
lemma lt_of_forwardedColumn {chunkId : ℕ}
    (hchunk : (table.getChunk chunkId).WellFormed table.columnDefinitions) {e : Expression R}
    {columnId : ℕ} (he : e ∈ expressions) (hforward : forwardedColumn e = some columnId) :
    ∀ {cache : ResultCache R} {segments : List (ValueSegment R)},
      projectSegments conversions table chunkId expressions cache = .ok segments →
      columnId < table.getColumnCount := by
  induction expressions with
  | nil => exact absurd he List.not_mem_nil
  | cons e' expressions ih =>
    intro cache segments h
    obtain ⟨segment, rest, cache', -, hrest, hcase⟩ := projectSegments_cons_eq_ok h
    rcases List.mem_cons.mp he with rfl | he
    · rw [hforward] at hcase
      rcases hcase with ⟨columnId', heq, -, hget⟩ | ⟨hnone, -⟩
      · obtain rfl := Option.some.inj heq
        exact (List.getElem?_eq_some_iff.mp hget).1.trans_eq hchunk.length_segments
      · cases hnone
    · exact ih he hrest

omit [FloatingPoint R] in
lemma cellAt_of_getElem? {rowId : RowId} {columnId : ℕ} {segment : ValueSegment R}
    (h : (table.getChunk rowId.chunkId).segments[columnId]? = some segment) :
    table.cellAt columnId rowId = segment.variantAt rowId.chunkOffset := by
  obtain ⟨hlt, rfl⟩ := List.getElem?_eq_some_iff.mp h
  rw [Table.cellAt, Chunk.getSegment_of_lt hlt]

/-! ### Two divisions of the same rows -/

/-- Whether a column of two tables is forwarded with the same cells: a table that is split loses
the NULLs of the column, and where both are, the same values are stored in the place of NULLs. -/
structure ForwardsAlike (table₁ table₂ : Table R) (columnId : ℕ) : Prop where
  left : Splits table₁ → ¬ Splits table₂ →
    ∀ rowId ∈ table₁.rowIds, table₁.cellAt columnId rowId ≠ none
  right : Splits table₂ → ¬ Splits table₁ →
    ∀ rowId ∈ table₂.rowIds, table₂.cellAt columnId rowId ≠ none
  both : Splits table₁ → Splits table₂ →
    table₁.rowIds.map (table₁.storedAt columnId) = table₂.rowIds.map (table₂.storedAt columnId)

/-- The cells of a column, row by row. -/
def columnCells (table : Table R) (columnId : ℕ) : List (AllTypeVariant R) :=
  table.rowIds.map (table.cellAt columnId)

omit [FloatingPoint R] in
lemma columnCells_eq (ht : table.WellFormed) {columnId : ℕ}
    (hcol : columnId < table.getColumnCount) :
    columnCells table columnId = table.rows.map fun row => row.getD columnId none := by
  rw [columnCells, table.rows_eq_map_rowAt, List.map_map]
  exact List.map_congr_left fun rowId hrowId => (ht.getD_rowAt hrowId hcol).symm

/-- The cells of a column of a split table are the stored values. -/
lemma columnCells_of_splits (ht : table.WellFormed) (hsplit : Splits table)
    {table' : Table R} (hok : splitInput table = .ok table') {columnId : ℕ}
    (hcol : columnId < table.getColumnCount) :
    columnCells table' columnId = (table.rowIds.map (table.storedAt columnId)).map some := by
  obtain ⟨t, ht', hdefinitions, hwell, hrows, -⟩ := splitInput_of_splits ht hsplit
  obtain rfl := Except.ok.inj (ht'.symm.trans hok)
  have hcol' : columnId < t.getColumnCount := by
    rwa [Table.getColumnCount, hdefinitions]
  rw [columnCells_eq hwell hcol', hrows, List.map_map, List.map_map]
  refine List.map_congr_left fun rowId _ => ?_
  simp [Table.storedRow, List.getD_eq_getElem?_getD, hcol]

/-- Splitting keeps the cells of a column if and only if it has no NULLs. -/
lemma columnCells_split_eq_iff (ht : table.WellFormed) (hsplit : Splits table)
    {table' : Table R} (hok : splitInput table = .ok table') {columnId : ℕ}
    (hcol : columnId < table.getColumnCount) :
    columnCells table' columnId = columnCells table columnId ↔
      ∀ rowId ∈ table.rowIds, table.cellAt columnId rowId ≠ none := by
  rw [columnCells_of_splits ht hsplit hok hcol, columnCells, List.map_map, List.map_inj_left]
  refine forall₂_congr fun rowId hrowId => ⟨fun h => ?_, fun h => ?_⟩
  · rw [← h]
    exact Option.some_ne_none _
  · exact (ht.cellAt_eq_some_storedAt hrowId hcol h).symm

variable {table₁ table₂ table₁' table₂' : Table R}

lemma forwardsAlike_iff (h₁ : table₁.WellFormed) (h₂ : table₂.WellFormed)
    (hok₁ : splitInput table₁ = .ok table₁') (hok₂ : splitInput table₂ = .ok table₂')
    (hdefinitions : table₁.columnDefinitions = table₂.columnDefinitions)
    (hrows : table₁.rows = table₂.rows) {columnId : ℕ} (hcol : columnId < table₁.getColumnCount) :
    ForwardsAlike table₁ table₂ columnId ↔
      columnCells table₁' columnId = columnCells table₂' columnId := by
  have hcol₂ : columnId < table₂.getColumnCount := by
    rwa [Table.getColumnCount, ← hdefinitions]
  have hsame : columnCells table₁ columnId = columnCells table₂ columnId := by
    rw [columnCells_eq h₁ hcol, columnCells_eq h₂ hcol₂, hrows]
  by_cases hsplit₁ : Splits table₁
  · by_cases hsplit₂ : Splits table₂
    · rw [columnCells_of_splits h₁ hsplit₁ hok₁ hcol, columnCells_of_splits h₂ hsplit₂ hok₂ hcol₂,
        (List.map_injective_iff.mpr (Option.some_injective _)).eq_iff]
      exact ⟨fun h => h.both hsplit₁ hsplit₂, fun h => ⟨fun _ hnot => absurd hsplit₂ hnot,
        fun _ hnot => absurd hsplit₁ hnot, fun _ _ => h⟩⟩
    · obtain rfl := Except.ok.inj ((splitInput_of_not_splits hsplit₂).symm.trans hok₂)
      rw [← hsame, columnCells_split_eq_iff h₁ hsplit₁ hok₁ hcol]
      exact ⟨fun h => h.left hsplit₁ hsplit₂, fun h => ⟨fun _ _ => h,
        fun hsplit => absurd hsplit hsplit₂, fun _ hsplit => absurd hsplit hsplit₂⟩⟩
  · obtain rfl := Except.ok.inj ((splitInput_of_not_splits hsplit₁).symm.trans hok₁)
    by_cases hsplit₂ : Splits table₂
    · rw [hsame, eq_comm, columnCells_split_eq_iff h₂ hsplit₂ hok₂ hcol₂]
      exact ⟨fun h => h.right hsplit₂ hsplit₁, fun h => ⟨fun hsplit => absurd hsplit hsplit₁,
        fun _ _ => h, fun hsplit => absurd hsplit hsplit₁⟩⟩
    · obtain rfl := Except.ok.inj ((splitInput_of_not_splits hsplit₂).symm.trans hok₂)
      exact iff_of_true ⟨fun hsplit => absurd hsplit hsplit₁, fun hsplit => absurd hsplit hsplit₂,
        fun hsplit => absurd hsplit hsplit₁⟩ hsame

/-! ### What is evaluated -/

omit [FloatingPoint R] in
/-- Two divisions of the same rows have the same columns. -/
lemma columnCells_congr (h₁ : table₁.WellFormed) (h₂ : table₂.WellFormed)
    (hdefinitions : table₁.columnDefinitions = table₂.columnDefinitions)
    (hrows : table₁.rows = table₂.rows) {columnId : ℕ} (hcol : columnId < table₁.getColumnCount) :
    columnCells table₁ columnId = columnCells table₂ columnId := by
  have hcol₂ : columnId < table₂.getColumnCount := by
    rwa [Table.getColumnCount, ← hdefinitions]
  rw [columnCells_eq h₁ hcol, columnCells_eq h₂ hcol₂, hrows]

/-- What splitting keeps. -/
lemma splitInput_spec (ht : inputTable.WellFormed) (hok : splitInput inputTable = .ok table) :
    table.columnDefinitions = inputTable.columnDefinitions ∧ table.WellFormed ∧
      table.rowIds.length = inputTable.rowIds.length := by
  by_cases hsplit : Splits inputTable
  · obtain ⟨t, hok', hdefinitions, hwell, hrows, -⟩ := splitInput_of_splits ht hsplit
    obtain rfl := Except.ok.inj (hok'.symm.trans hok)
    refine ⟨hdefinitions, hwell, ?_⟩
    rw [Table.length_rowIds, ← Table.length_rows, hrows, List.length_map]
  · obtain rfl := Except.ok.inj ((splitInput_of_not_splits hsplit).symm.trans hok)
    exact ⟨rfl, ht, rfl⟩

lemma exists_splitInput (ht : inputTable.WellFormed) :
    ∃ table, splitInput inputTable = .ok table := by
  by_cases hsplit : Splits inputTable
  · obtain ⟨table, hok, -⟩ := splitInput_of_splits ht hsplit
    exact ⟨table, hok⟩
  · exact ⟨inputTable, splitInput_of_not_splits hsplit⟩

lemma length_rowIds_split (h₁ : table₁.WellFormed) (h₂ : table₂.WellFormed)
    (hok₁ : splitInput table₁ = .ok table₁') (hok₂ : splitInput table₂ = .ok table₂')
    (hrows : table₁.rows = table₂.rows) : table₁'.rowIds.length = table₂'.rowIds.length := by
  rw [(splitInput_spec h₁ hok₁).2.2, (splitInput_spec h₂ hok₂).2.2, Table.length_rowIds,
    Table.length_rowIds, ← Table.length_rows, ← Table.length_rows, hrows]

/-- Splitting keeps the cells of a column that can be evaluated afterwards. -/
lemma columnCells_of_evaluated (ht : inputTable.WellFormed)
    (hok : splitInput inputTable = .ok table) {columnId chunkId : ℕ}
    (hcol : columnId < inputTable.getColumnCount) (hchunk : chunkId < table.chunkCount)
    (hflags : inputTable.columnIsNullable columnId = true →
      ((table.getChunk chunkId).getSegment columnId).nullValues ≠ none) :
    columnCells table columnId = columnCells inputTable columnId := by
  by_cases hsplit : Splits inputTable
  · cases hnullable : inputTable.columnIsNullable columnId with
    | false =>
      exact (columnCells_split_eq_iff ht hsplit hok hcol).mpr
        fun rowId hrowId => ht.cellAt_ne_none hrowId hcol hnullable
    | true =>
      obtain ⟨t, hok', -, -, -, hnone⟩ := splitInput_of_splits ht hsplit
      obtain rfl := Except.ok.inj (hok'.symm.trans hok)
      refine absurd (hnone _ ?_ columnId hcol) (hflags hnullable)
      rw [Table.getChunk, List.getD_eq_getElem?_getD, List.getElem?_eq_getElem hchunk]
      exact List.getElem_mem hchunk
  · obtain rfl := Except.ok.inj ((splitInput_of_not_splits hsplit).symm.trans hok)
    rfl

variable {id₁ id₂ : RowId}

/-- In the rows at one position of both divisions, columns that can be evaluated have the same
cell. -/
lemma agree_columns (h₁ : table₁.WellFormed) (h₂ : table₂.WellFormed)
    (hok₁ : splitInput table₁ = .ok table₁') (hok₂ : splitInput table₂ = .ok table₂')
    (hdefinitions : table₁.columnDefinitions = table₂.columnDefinitions)
    (hrows : table₁.rows = table₂.rows) (hid : (id₁, id₂) ∈ table₁'.rowIds.zip table₂'.rowIds)
    (columnId : ℕ) (t : DataType) :
    Agree (table₁'.getChunk id₁.chunkId).size id₁.chunkOffset
      (table₂'.getChunk id₂.chunkId).size id₂.chunkOffset
      (evaluateColumnExpression table₁' (table₁'.getChunk id₁.chunkId) columnId t)
      (evaluateColumnExpression table₂' (table₂'.getChunk id₂.chunkId) columnId t) := by
  intro r₁ r₂ hr₁ hr₂
  obtain ⟨hdefinitions₁, hwell₁, -⟩ := splitInput_spec h₁ hok₁
  obtain ⟨hdefinitions₂, hwell₂, -⟩ := splitInput_spec h₂ hok₂
  obtain ⟨hmem₁, hmem₂⟩ := List.of_mem_zip hid
  obtain ⟨hchunk₁, hi₁⟩ := Table.mem_rowIds.mp hmem₁
  obtain ⟨hchunk₂, hi₂⟩ := Table.mem_rowIds.mp hmem₂
  obtain ⟨hcol, hrowed₁, htype₁, hflags₁, hcell₁⟩ :=
    evaluateColumnExpression_eq_ok (hwell₁.getChunk hchunk₁) hr₁
  obtain ⟨-, hrowed₂, htype₂, hflags₂, hcell₂⟩ :=
    evaluateColumnExpression_eq_ok (hwell₂.getChunk hchunk₂) hr₂
  rw [Table.getColumnCount, hdefinitions₁] at hcol
  have hcol₂ : columnId < table₂.getColumnCount := by
    rwa [Table.getColumnCount, ← hdefinitions]
  rw [Table.columnIsNullable, Table.columnDefinition, hdefinitions₁] at hflags₁
  rw [Table.columnIsNullable, Table.columnDefinition, hdefinitions₂] at hflags₂
  have hcells : columnCells table₁' columnId = columnCells table₂' columnId := by
    rw [columnCells_of_evaluated h₁ hok₁ hcol hchunk₁ hflags₁,
      columnCells_of_evaluated h₂ hok₂ hcol₂ hchunk₂ hflags₂]
    exact columnCells_congr h₁ h₂ hdefinitions hrows hcol
  refine ⟨hrowed₁, hrowed₂, htype₁.trans htype₂.symm, ?_⟩
  rw [hcell₁ _ hi₁, hcell₂ _ hi₂]
  exact (List.map_eq_map_iff_zip
    (length_rowIds_split h₁ h₂ hok₁ hok₂ hrows)).mp hcells id₁ id₂ hid

/-- In the rows at one position of both divisions, the same cells are projected if and only if the
columns that are forwarded have the same cells. -/
lemma map_projectSegments_eq_iff (h₁ : table₁.WellFormed) (h₂ : table₂.WellFormed)
    (hok₁ : splitInput table₁ = .ok table₁') (hok₂ : splitInput table₂ = .ok table₂')
    (hdefinitions : table₁.columnDefinitions = table₂.columnDefinitions)
    (hrows : table₁.rows = table₂.rows) (hid : (id₁, id₂) ∈ table₁'.rowIds.zip table₂'.rowIds)
    (expressions : List (Expression R)) :
    ∀ {cache₁ cache₂ : ResultCache R} {segments₁ segments₂ : List (ValueSegment R)},
      Calls.RelatedCaches (SameAt (table₁'.getChunk id₁.chunkId).size id₁.chunkOffset
        (table₂'.getChunk id₂.chunkId).size id₂.chunkOffset) cache₁ cache₂ →
      projectSegments conversions table₁' id₁.chunkId expressions cache₁ = .ok segments₁ →
      projectSegments conversions table₂' id₂.chunkId expressions cache₂ = .ok segments₂ →
      ((segments₁.map fun segment => segment.variantAt id₁.chunkOffset) =
          (segments₂.map fun segment => segment.variantAt id₂.chunkOffset) ↔
        ∀ e ∈ expressions, ∀ columnId, forwardedColumn e = some columnId →
          table₁'.cellAt columnId id₁ = table₂'.cellAt columnId id₂) := by
  obtain ⟨hmem₁, hmem₂⟩ := List.of_mem_zip hid
  obtain ⟨-, hi₁⟩ := Table.mem_rowIds.mp hmem₁
  obtain ⟨-, hi₂⟩ := Table.mem_rowIds.mp hmem₂
  induction expressions with
  | nil =>
    intro cache₁ cache₂ segments₁ segments₂ _ hsegments₁ hsegments₂
    obtain rfl := Except.ok.inj hsegments₁
    obtain rfl := Except.ok.inj hsegments₂
    exact iff_of_true rfl fun e he => absurd he List.not_mem_nil
  | cons e expressions ih =>
    intro cache₁ cache₂ segments₁ segments₂ hcaches hsegments₁ hsegments₂
    obtain ⟨segment₁, rest₁, cache₁', rfl, hrest₁, hcase₁⟩ := projectSegments_cons_eq_ok hsegments₁
    obtain ⟨segment₂, rest₂, cache₂', rfl, hrest₂, hcase₂⟩ := projectSegments_cons_eq_ok hsegments₂
    rw [List.map_cons, List.map_cons, List.cons.injEq, List.forall_mem_cons]
    rcases hcase₁ with ⟨columnId, hforward, rfl, hget₁⟩ | ⟨hforward, hsegment₁⟩
    · rcases hcase₂ with ⟨columnId', hforward', rfl, hget₂⟩ | ⟨hforward', -⟩
      · obtain rfl := Option.some.inj (hforward.symm.trans hforward')
        refine and_congr ?_ (ih hcaches hrest₁ hrest₂)
        rw [hforward]
        simp only [Option.some.injEq, forall_eq']
        rw [cellAt_of_getElem? hget₁, cellAt_of_getElem? hget₂]
      · rw [hforward] at hforward'
        cases hforward'
    · rcases hcase₂ with ⟨columnId, hforward', -, -⟩ | ⟨-, hsegment₂⟩
      · rw [hforward] at hforward'
        cases hforward'
      · obtain ⟨r₁, hrun₁, hr₁⟩ := evaluateExpressionToSegment_eq_ok hsegment₁
        obtain ⟨r₂, hrun₂, hr₂⟩ := evaluateExpressionToSegment_eq_ok hsegment₂
        have hrelated := related_resolveRequests e (related_requests hi₁ hi₂ conversions
          (agree_columns h₁ h₂ hok₁ hok₂ hdefinitions hrows hid) e).1
          (fun _ _ hsame => .done (Agree.pure hsame))
        obtain ⟨hsame, hcaches'⟩ := hrelated.runCached hcaches hrun₁ hrun₂
        refine and_congr (iff_of_true ?_ fun columnId h => ?_) (ih hcaches' hrest₁ hrest₂)
        · rw [(segmentOf_eq_ok hr₁).2 hsame.left _ hi₁, (segmentOf_eq_ok hr₂).2 hsame.right _ hi₂]
          exact hsame.cell
        · rw [hforward] at h
          cases h

/-- The columns that are forwarded have the same cells in both divisions if and only if they are
forwarded alike. -/
lemma forwardsAlike_iff_cellAt (h₁ : table₁.WellFormed) (h₂ : table₂.WellFormed)
    (hok₁ : splitInput table₁ = .ok table₁') (hok₂ : splitInput table₂ = .ok table₂')
    (hdefinitions : table₁.columnDefinitions = table₂.columnDefinitions)
    (hrows : table₁.rows = table₂.rows) {columnId : ℕ}
    (hcol : ∀ id ∈ table₁'.rowIds, columnId < table₁'.getColumnCount) :
    ForwardsAlike table₁ table₂ columnId ↔
      ∀ id₁ id₂, (id₁, id₂) ∈ table₁'.rowIds.zip table₂'.rowIds →
        table₁'.cellAt columnId id₁ = table₂'.cellAt columnId id₂ := by
  obtain ⟨hdefinitions₁, -, hlength₁⟩ := splitInput_spec h₁ hok₁
  obtain ⟨-, -, hlength₂⟩ := splitInput_spec h₂ hok₂
  have hlength := length_rowIds_split h₁ h₂ hok₁ hok₂ hrows
  rcases hids : table₁'.rowIds with _ | ⟨id, ids⟩
  · -- without rows nothing is split
    rw [hids] at hlength₁ hlength
    have hnot₁ : ¬ Splits table₁ := fun hsplit => by
      rw [Table.length_rowIds, List.length_nil] at hlength₁
      exact absurd hsplit.2 (by omega)
    have hnot₂ : ¬ Splits table₂ := fun hsplit => by
      rw [← hlength, Table.length_rowIds, List.length_nil] at hlength₂
      exact absurd hsplit.2 (by omega)
    exact iff_of_true ⟨fun hsplit => absurd hsplit hnot₁, fun hsplit => absurd hsplit hnot₂,
      fun hsplit => absurd hsplit hnot₁⟩ fun _ _ hid => absurd hid (by simp)
  · have hlt := hcol id (hids ▸ List.mem_cons_self)
    rw [Table.getColumnCount, hdefinitions₁] at hlt
    rw [← hids, forwardsAlike_iff h₁ h₂ hok₁ hok₂ hdefinitions hrows hlt, columnCells, columnCells,
      List.map_eq_map_iff_zip hlength]

/-- The same rows are returned if and only if the columns that are forwarded are forwarded alike. -/
lemma rows_eq_iff (h₁ : table₁.WellFormed) (h₂ : table₂.WellFormed)
    (hok₁ : splitInput table₁ = .ok table₁') (hok₂ : splitInput table₂ = .ok table₂')
    (hdefinitions : table₁.columnDefinitions = table₂.columnDefinitions)
    (hrows : table₁.rows = table₂.rows) {out₁ out₂ : Table R}
    (hout₁ : projectionOperator conversions asColumnName expressions table₁ = .ok out₁)
    (hout₂ : projectionOperator conversions asColumnName expressions table₂ = .ok out₂) :
    out₁.rows = out₂.rows ↔ ∀ e ∈ expressions, ∀ columnId, forwardedColumn e = some columnId →
      ForwardsAlike table₁ table₂ columnId := by
  rcases eq_or_ne expressions [] with rfl | hne
  · refine iff_of_true ?_ fun e he => absurd he List.not_mem_nil
    rw [rows_projectionOperator_nil hok₁ hout₁, rows_projectionOperator_nil hok₂ hout₂]
  obtain ⟨-, hwell₁, -⟩ := splitInput_spec h₁ hok₁
  obtain ⟨-, hwell₂, -⟩ := splitInput_spec h₂ hok₂
  have hsegments₁ := ((projectable_iff hok₁).mpr ⟨out₁, hout₁⟩).2 table₁' hok₁
  have hsegments₂ := ((projectable_iff hok₂).mpr ⟨out₂, hout₂⟩).2 table₂' hok₂
  have hrow : ∀ id₁ id₂, (id₁, id₂) ∈ table₁'.rowIds.zip table₂'.rowIds →
      (projectedRow conversions table₁' expressions id₁ =
          projectedRow conversions table₂' expressions id₂ ↔
        ∀ e ∈ expressions, ∀ columnId, forwardedColumn e = some columnId →
          table₁'.cellAt columnId id₁ = table₂'.cellAt columnId id₂) := by
    intro id₁ id₂ hid
    obtain ⟨hmem₁, hmem₂⟩ := List.of_mem_zip hid
    obtain ⟨segments₁, hok₁'⟩ := hsegments₁ id₁.chunkId (Table.mem_rowIds.mp hmem₁).1
    obtain ⟨segments₂, hok₂'⟩ := hsegments₂ id₂.chunkId (Table.mem_rowIds.mp hmem₂).1
    rw [projectedRow, projectedRow, hok₁', hok₂']
    exact map_projectSegments_eq_iff h₁ h₂ hok₁ hok₂ hdefinitions hrows hid expressions .nil hok₁'
      hok₂'
  have halike : ∀ e ∈ expressions, ∀ columnId, forwardedColumn e = some columnId →
      (ForwardsAlike table₁ table₂ columnId ↔
        ∀ id₁ id₂, (id₁, id₂) ∈ table₁'.rowIds.zip table₂'.rowIds →
          table₁'.cellAt columnId id₁ = table₂'.cellAt columnId id₂) := by
    intro e he columnId hforward
    refine forwardsAlike_iff_cellAt h₁ h₂ hok₁ hok₂ hdefinitions hrows fun id hid => ?_
    obtain ⟨segments, hsegments⟩ := hsegments₁ id.chunkId (Table.mem_rowIds.mp hid).1
    exact lt_of_forwardedColumn (hwell₁.chunk_of_mem_rowIds hid) he hforward hsegments
  rw [rows_projectionOperator hok₁ hwell₁ hout₁ hne, rows_projectionOperator hok₂ hwell₂ hout₂ hne,
    List.map_eq_map_iff_zip (length_rowIds_split h₁ h₂ hok₁ hok₂ hrows)]
  constructor
  · intro h e he columnId hforward
    exact (halike e he columnId hforward).mpr fun id₁ id₂ hid =>
      (hrow id₁ id₂ hid).mp (h id₁ id₂ hid) e he columnId hforward
  · intro h id₁ id₂ hid
    exact (hrow id₁ id₂ hid).mpr fun e he columnId hforward =>
      (halike e he columnId hforward).mp (h e he columnId hforward) id₁ id₂ hid

end ProjectionOperator

end

namespace ProjectionOperator

/-! ### A NULL in a large chunk -/

/-- Conversions of rational numbers that refuse all strings. -/
def rationalConversions : Conversions ℚ :=
  ⟨fun q => q.num.tdiv q.den, fun _ => [], fun _ _ => none⟩

/-- The column `a`. -/
def columnA (nullable : Bool) : Expression ℚ :=
  .node (.pqpColumn 0 .int nullable (Bytes.ofString "a")) []

/-- The column `a` and one more. -/
def columnAAndNext : List (Expression ℚ) :=
  [columnA false, .node (.arithmetic .addition) [columnA false, .node (.value (some (.int 1))) []]]

/-- A NULL and a number of sevens. -/
def nullAndSevens (sevens : ℕ) : Chunk ℚ :=
  ⟨[.ofNullable .int (.int 0 :: List.replicate sevens (.int 7))
    (true :: List.replicate sevens false)]⟩

/-- A number of sevens in a nullable column. -/
def onlySevens (sevens : ℕ) : Chunk ℚ :=
  ⟨[.ofNullable .int (List.replicate sevens (.int 7)) (List.replicate sevens false)]⟩

/-- A nullable column with a NULL in the first of 129 rows, in one chunk. -/
def undivided : Table ℚ := ⟨[⟨"a", .int, true⟩], [nullAndSevens 128]⟩

/-- The same rows in two chunks. -/
def divided : Table ℚ := ⟨[⟨"a", .int, true⟩], [nullAndSevens 64, onlySevens 64]⟩

/-- What is returned for the rows in one chunk. -/
def withoutNull : Table ℚ :=
  ⟨[⟨"", .int, true⟩], [⟨[.ofValues .int (.int 0 :: List.replicate 127 (.int 7))]⟩,
    ⟨[.ofValues .int [.int 7]]⟩]⟩

lemma wellFormed_nullableChunk {values : List (Value ℚ)} {nulls : List Bool}
    (hvalues : ∀ v ∈ values, v.dataType = .int) (hnulls : nulls.length = values.length) :
    (⟨[.ofNullable .int values nulls]⟩ : Chunk ℚ).WellFormed [⟨"a", .int, true⟩] := by
  refine ⟨rfl, ?_, ?_, ?_⟩
  · rw [List.forall_mem_singleton]
    exact ValueSegment.wellFormed_ofNullable (by decide) hvalues hnulls
  · rw [List.forall_mem_singleton]
    rfl
  · intro columnId d hd hnullable
    obtain ⟨hlt, rfl⟩ := List.getElem?_eq_some_iff.mp hd
    obtain rfl : columnId = 0 := by simpa using hlt
    cases hnullable

lemma wellFormed_nullAndSevens (sevens : ℕ) :
    (nullAndSevens sevens).WellFormed [⟨"a", .int, true⟩] :=
  wellFormed_nullableChunk
    (List.forall_mem_cons.mpr ⟨rfl, fun _ hv => by rw [List.eq_of_mem_replicate hv]; rfl⟩) (by simp)

lemma wellFormed_onlySevens (sevens : ℕ) : (onlySevens sevens).WellFormed [⟨"a", .int, true⟩] :=
  wellFormed_nullableChunk (fun _ hv => by rw [List.eq_of_mem_replicate hv]; rfl) (by simp)

end ProjectionOperator

end Skyrise

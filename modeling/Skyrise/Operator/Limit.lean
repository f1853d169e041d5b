/-
Limiting.

`limitOperator` evaluates the row count once, without a table, and then walks over the
chunks.  A chunk that fits into what remains of the row count is shared with the input,
and the first one that does not fit is cut.  The row count is signed when it is evaluated
and unsigned when the chunks are counted.
-/
import Skyrise.Expression.Evaluation.ExpressionEvaluator

namespace Skyrise

variable {R : Type}

namespace LimitOperator

/-- `row_count_int`: the first value of the evaluated row count, as an `unsigned int`. -/
def rowCountInt (rowCountResult : ExpressionResult R) : Except Exception ℕ := do
  assert (!rowCountResult.isNull 0) "The row count cannot be null"
  match rowCountResult.values[0]? with
  | some (Value.int n) => return n.toUInt32.toNat
  | some _ => .error .badVariantAccess
  | none => .error .undefinedBehavior

section

variable [Zero R]

/-- A value and its NULL flag in a segment that is cut. -/
def sliceValue (dataType : DataType) (inputSegment : ValueSegment R) (i : ℕ) :
    Except Exception (Value R × Bool) :=
  match inputSegment.variantAt i with
  | none => .ok (dataType.defaultValue, true)
  | some value => if value.dataType = dataType then .ok (value, false) else .error .badVariantAccess

/-- The first entries of a segment. -/
def sliceSegment (dataType : DataType) (inputSegment : ValueSegment R) (rowCount : ℕ) :
    Except Exception (ValueSegment R) := do
  let segment ← (List.range rowCount).mapM (sliceValue dataType inputSegment)
  return .ofNullable dataType (segment.map Prod.fst) (segment.map Prod.snd)

/-- The first rows of a chunk. -/
def sliceChunk (inputTable : Table R) (inputChunk : Chunk R) (rowCount : ℕ) :
    Except Exception (Chunk R) := do
  let outputSegments ← (List.range inputTable.getColumnCount).mapM fun columnId =>
    sliceSegment (inputTable.columnDataType columnId) (inputChunk.getSegment columnId) rowCount
  return ⟨outputSegments⟩

/-- The loop over the chunks, with what is left of the row count. -/
def limitChunks (inputTable : Table R) : ℕ → List (Chunk R) → Except Exception (List (Chunk R))
  | _, [] => .ok []
  | rowCount, inputChunk :: inputChunks =>
    if inputChunk.size ≤ rowCount then do
      return inputChunk :: (← limitChunks inputTable (rowCount - inputChunk.size) inputChunks)
    else do
      return [← sliceChunk inputTable inputChunk rowCount]

/-- `LimitOperator::OnExecute`, with what the row count evaluates to. -/
def limitOperator (rowCountResult : Except Exception (ExpressionResult R)) (inputTable : Table R) :
    Except Exception (Table R) := do
  let rowCount ← rowCountInt (← rowCountResult)
  return ⟨inputTable.columnDefinitions, ← limitChunks inputTable rowCount inputTable.chunks⟩

end

/-! ### The first rows -/

variable [Zero R] {inputTable : Table R} {c : Chunk R} {cs : List (Chunk R)} {n : ℕ}

/-- The first entries of a segment, NULLs included. -/
lemma sliceSegment_eq_ok {s : ValueSegment R} (hs : s.WellFormed) (n : ℕ) :
    ∃ out, sliceSegment s.dataType s n = .ok out ∧
      out.cells = (List.range n).map s.variantAt := by
  have hvalue : ∀ i ∈ List.range n, sliceValue s.dataType s i =
      .ok ((s.variantAt i).getD s.dataType.defaultValue, (s.variantAt i).isNone) := by
    intro i _
    rw [sliceValue]
    cases h : s.variantAt i with
    | none => rfl
    | some v => simp [hs.dataType_of_variantAt h]
  refine ⟨_, by rw [sliceSegment, mapM_eq_ok hvalue]; rfl, ?_⟩
  rw [List.map_map, List.map_map, Function.comp_def, Function.comp_def,
    ValueSegment.cells_ofNullable_map]
  refine List.map_congr_left fun i _ => ?_
  cases s.variantAt i <;> rfl

/-- The first rows of a chunk, where the chunk has more. -/
lemma sliceChunk_eq_ok (hc : c.WellFormed inputTable.columnDefinitions) (hn : n < c.size) :
    ∃ out, sliceChunk inputTable c n = .ok out ∧ out.rows = c.rows.take n := by
  have hsegment : ∀ columnId ∈ List.range inputTable.getColumnCount, ∃ out,
      sliceSegment (inputTable.columnDataType columnId) (c.getSegment columnId) n = .ok out ∧
        out.cells = (List.range n).map (c.getSegment columnId).variantAt := by
    intro columnId hcol
    have hlt : columnId < inputTable.columnDefinitions.length := List.mem_range.mp hcol
    have htype : inputTable.columnDataType columnId = (c.getSegment columnId).dataType := by
      rw [hc.dataType_getSegment hlt]
      simp [Table.columnDataType, Table.columnDefinition, hlt]
    rw [htype]
    exact sliceSegment_eq_ok (hc.wellFormed_getSegment hlt) n
  obtain ⟨segments, hsegments, hcells⟩ := exists_mapM_eq_ok _ hsegment
  refine ⟨⟨segments⟩, by rw [sliceChunk, hsegments]; rfl, ?_⟩
  -- a chunk with a row has a column
  have hcol : inputTable.getColumnCount ≠ 0 := by
    intro hzero
    have hnil : c.segments = [] := List.length_eq_zero_iff.mp (hc.length_segments.trans hzero)
    simp [Chunk.size, hnil] at hn
  have hne : (List.range inputTable.getColumnCount).map
      (fun columnId => (c.getSegment columnId).variantAt) ≠ [] := by simpa using hcol
  have hmap : segments.map ValueSegment.cells = ((List.range inputTable.getColumnCount).map
      fun columnId => (c.getSegment columnId).variantAt).map fun f => (List.range n).map f := by
    rw [List.map_map, ← List.forall₂_eq_eq_eq, List.forall₂_map_left_iff, List.forall₂_map_right_iff]
    exact hcells.flip
  rw [Chunk.rows_eq_map_of_cells _ hne hmap, Chunk.rows, ← List.map_take, List.take_range,
    min_eq_left hn.le]
  refine List.map_congr_left fun i _ => ?_
  rw [Chunk.row_eq_map_getSegment, hc.length_segments, List.map_map]
  rfl

/-- The loop returns the first rows of the chunks. -/
lemma limitChunks_eq_ok (hcs : ∀ c ∈ cs, c.WellFormed inputTable.columnDefinitions) (n : ℕ) :
    ∃ out, limitChunks inputTable n cs = .ok out ∧
      out.flatMap Chunk.rows = (cs.flatMap Chunk.rows).take n := by
  induction cs generalizing n with
  | nil => exact ⟨[], rfl, by simp⟩
  | cons c cs ih =>
    rw [List.forall_mem_cons] at hcs
    rw [limitChunks, List.flatMap_cons, List.take_append, Chunk.length_rows]
    split_ifs with hsize
    · obtain ⟨out, hout, hrows⟩ := ih hcs.2 (n - c.size)
      refine ⟨c :: out, by rw [hout]; rfl, ?_⟩
      rw [List.flatMap_cons, hrows, List.take_of_length_le (by rwa [Chunk.length_rows] : c.rows.length ≤ n)]
    · have hlt : n < c.size := Nat.lt_of_not_le hsize
      obtain ⟨out, hout, hrows⟩ := sliceChunk_eq_ok hcs.1 hlt
      refine ⟨[out], by rw [hout]; rfl, ?_⟩
      rw [Nat.sub_eq_zero_of_le hlt.le, List.take_zero, List.append_nil, ← hrows]
      simp

/-! ### What the row count has to be -/

/-- The row count evaluates to a value that is not NULL. -/
def EvaluatesTo (rowCountResult : Except Exception (ExpressionResult R)) (n : Int32) : Prop :=
  ∃ r, rowCountResult = .ok r ∧ r.isNull 0 = false ∧ r.values[0]? = some (.int n)

/-- A negative number as an unsigned one. -/
lemma toNat_toUInt32 (n : Int32) :
    (n.toUInt32.toNat : ℤ) = if 0 ≤ n.toInt then n.toInt else n.toInt + 2 ^ 32 := by
  have hint : n.toInt = n.toBitVec.toInt := rfl
  have hlt : n.toBitVec.toNat < 2 ^ 32 := n.toBitVec.isLt
  rw [← n.toNat_toBitVec, hint, BitVec.toInt_eq_toNat_cond]
  split_ifs <;> omega

/-- What the operator returns. -/
lemma limitOperator_eq_ok {rowCountResult : Except Exception (ExpressionResult R)} {n : Int32}
    (ht : inputTable.WellFormed) (hn : EvaluatesTo rowCountResult n) :
    ∃ out, limitOperator rowCountResult inputTable = .ok out ∧
      out.columnDefinitions = inputTable.columnDefinitions ∧
      out.rows = inputTable.rows.take n.toUInt32.toNat := by
  obtain ⟨r, rfl, hnull, hvalue⟩ := hn
  obtain ⟨chunks, hchunks, hrows⟩ := limitChunks_eq_ok ht.chunks n.toUInt32.toNat
  refine ⟨⟨inputTable.columnDefinitions, chunks⟩, ?_, rfl, hrows⟩
  have hcount : rowCountInt r = .ok n.toUInt32.toNat := by
    rw [rowCountInt, hnull, hvalue]
    rfl
  rw [limitOperator]
  change (rowCountInt r).bind _ = _
  rw [hcount]
  change (limitChunks inputTable n.toUInt32.toNat inputTable.chunks).bind _ = _
  rw [hchunks]
  rfl

/-- A limit returns the first rows of its input if and only if the row count is not negative or
there are no rows: a negative row count is a large one. -/
theorem limitOperator_iff {R : Type} [Zero R]
    {rowCountResult : Except Exception (ExpressionResult R)} {n : Int32} {inputTable : Table R}
    (ht : inputTable.WellFormed) (hn : EvaluatesTo rowCountResult n) :
    (∃ out, limitOperator rowCountResult inputTable = .ok out ∧
      out.columnDefinitions = inputTable.columnDefinitions ∧
      out.rows = inputTable.rows.take (max 0 (min n.toInt inputTable.rowCount)).toNat) ↔
    0 ≤ n.toInt ∨ inputTable.rowCount = 0 := by
  obtain ⟨out, hout, hdefinitions, hrows⟩ := limitOperator_eq_ok ht hn
  have hcount := toNat_toUInt32 n
  have hlen : inputTable.rows.length = inputTable.rowCount := inputTable.length_rows
  constructor
  · rintro ⟨out', hout', -, hrows'⟩
    obtain rfl := Except.ok.inj (hout.symm.trans hout')
    have hlength := congrArg List.length (hrows.symm.trans hrows')
    rw [List.length_take, List.length_take, hlen] at hlength
    by_contra hneg
    push Not at hneg
    have hmin := n.le_toInt
    rw [if_neg (by omega)] at hcount
    omega
  · intro hcond
    refine ⟨out, hout, hdefinitions, ?_⟩
    rw [hrows, List.take_eq_take_iff, hlen]
    split_ifs at hcount <;> omega

/-- Three rows of four, where the second chunk is empty and the third one is cut. -/
theorem limitOperator_iff_three :
    ∃ out, limitOperator (.ok ⟨.int, [.int 3], []⟩)
        (Table.ofInts "a" [[4, 5], [], [6, 7]] : Table ℤ) = .ok out ∧
      out.columnDefinitions = [⟨"a", .int, false⟩] ∧
      out.rows = (Table.ofInts "a" [[4, 5], [], [6, 7]]).rows.take 3 :=
  (limitOperator_iff Table.wellFormed_ofInts ⟨_, rfl, rfl, rfl⟩).mpr
    (.inl (by decide : 0 ≤ Int32.toInt 3))

/-- A row count of `-1` returns the row of the input instead of none. -/
theorem limitOperator_negative :
    EvaluatesTo (.ok ⟨.int, [.int (-1)], []⟩ : Except Exception (ExpressionResult ℤ)) (-1) ∧
      ¬ ∃ out, limitOperator (.ok ⟨.int, [.int (-1)], []⟩) (Table.ofInts "a" [[4]] : Table ℤ) =
          .ok out ∧ out.columnDefinitions = [⟨"a", .int, false⟩] ∧
        out.rows = (Table.ofInts "a" [[4]]).rows.take (max 0 (min (-1) 1)).toNat := by
  refine ⟨⟨_, rfl, rfl, rfl⟩, ?_⟩
  rintro ⟨out, hout, -, hrows⟩
  have hok : limitOperator (.ok ⟨.int, [.int (-1)], []⟩) (Table.ofInts "a" [[4]] : Table ℤ) =
      .ok (Table.ofInts "a" [[4]]) := rfl
  obtain rfl := Except.ok.inj (hok.symm.trans hout)
  exact absurd hrows (by decide)

end LimitOperator

end Skyrise

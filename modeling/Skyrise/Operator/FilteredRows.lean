/-
The rows that a filter returns.

A job evaluates the predicate to the positions of its chunk and moves their rows, so
the operator returns the rows at which the predicate is true, where the predicate can
be evaluated to positions in every chunk.
-/
import Skyrise.Expression.Evaluation.RowValues
import Skyrise.Operator.Filter

namespace Skyrise

namespace FilterOperator

section

variable {R : Type} [FloatingPoint R]
  {computed : ℕ → Expression R → DataType → Except Exception (ExpressionResult R)}
  {computedShape : ℕ → Expression R → ResultShape} {table : Table R} {e : Expression R}

/-- The filter implementation of a predicate. -/
def predicateFilter
    (computed : ℕ → Expression R → DataType → Except Exception (ExpressionResult R))
    (table : Table R) (e : Expression R) (chunkId : ℕ) : Except Exception (List RowId) :=
  evaluateExpressionToPositionList (computed chunkId) table chunkId e

/-- Whether a predicate is true at a row. -/
def selects (computed : ℕ → Expression R → DataType → Except Exception (ExpressionResult R))
    (table : Table R) (e : Expression R) (rowId : RowId) : Bool :=
  isTrue (valueAt (table.getChunk rowId.chunkId)
    (computedAt (computed rowId.chunkId) rowId.chunkOffset) rowId.chunkOffset e)

variable (computed table e) in
/-- The positions of the rows of a chunk at which a predicate is true. -/
def selectedPositions (chunkId : ℕ) : List RowId :=
  positionsOf table chunkId fun i => selects computed table e ⟨chunkId, i⟩

lemma selectedPositions_eq_filter (chunkId : ℕ) : selectedPositions computed table e chunkId =
    (table.chunkRowIds chunkId).filter (selects computed table e) := by
  rw [selectedPositions, positionsOf_eq_filter, Table.chunkRowIds]
  refine List.filter_congr fun rowId hrowId => ?_
  obtain ⟨i, -, rfl⟩ := List.mem_map.mp hrowId
  rfl

/-- In whatever order the chunks are finished, the rows are selected at which the predicate is
true. -/
lemma flatMap_selectedPositions_perm {finished : List ℕ}
    (hfinished : finished.Perm (List.range table.chunkCount)) :
    (finished.flatMap (selectedPositions computed table e)).Perm
      (table.rowIds.filter (selects computed table e)) := by
  have hrowIds : table.rowIds.filter (selects computed table e) =
      (List.range table.chunkCount).flatMap (selectedPositions computed table e) := by
    rw [Table.rowIds_eq_flatMap_range, List.filter_flatMap]
    exact List.flatMap_congr fun i _ => (selectedPositions_eq_filter i).symm
  rw [hrowIds]
  exact hfinished.flatMap_right _

omit [FloatingPoint R] in
lemma filterOperator_congr {filterChunk filterChunk' : ℕ → Except Exception (List RowId)}
    {finished : List ℕ} (h : ∀ i ∈ finished, filterChunk i = filterChunk' i) :
    filterOperator filterChunk table finished = filterOperator filterChunk' table finished := by
  have hchunks : finished.mapM (performFilter filterChunk table) =
      finished.mapM (performFilter filterChunk' table) :=
    mapM_congr_of_mem fun i hi => by rw [performFilter, performFilter, h i hi]
  rw [filterOperator, filterOperator, hchunks]

end

lemma wellFormed_nullableColumn_table {nulls : Option (List Bool)}
    (h : ∀ flags, nulls = some flags → flags.length = 2) : (nullableColumn nulls).WellFormed where
  dataTypes := List.forall_mem_singleton.mpr (by decide)
  chunks := List.forall_mem_singleton.mpr (wellFormed_nullableColumn h)

lemma nonNull_nullableColumn (nulls : Option (List Bool))
    (h : nulls = none ∨ nulls = some [false, false]) : (nullableColumn nulls).NonNull := by
  rcases h with rfl | rfl
  · show ∀ id ∈ (nullableColumn none).rowIds, ∀ columnId < 1,
      (nullableColumn none).cellAt columnId id ≠ none
    decide
  · show ∀ id ∈ (nullableColumn (some [false, false])).rowIds, ∀ columnId < 1,
      (nullableColumn (some [false, false])).cellAt columnId id ≠ none
    decide

lemma isTyped_largerThanOne (nulls : Option (List Bool)) (i : ℕ) :
    IsTyped (fun _ _ => .error .undefinedBehavior) (fun _ => ⟨true, .none, True⟩)
      (nullableColumn nulls) ((nullableColumn nulls).getChunk i).size true largerThanOne .int :=
  .comparison rfl (.column (.mk 0 ⟨"a", .int, true⟩ true rfl)) (.integer 1)

end FilterOperator

end Skyrise

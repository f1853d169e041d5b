/-
Row movement.

Filtering, sorting, partitioning, the matches of a join and the chunks that a
projection is evaluated on: in each of these an operator copies rows of its input and
computes nothing from them.  `Preserves` says that the copies have the cells of the
rows, NULLs included, and `Preservable` is what has to hold of the input for that.
Every copy is made by a loop of its own, and all of them lose or reject NULLs.
-/
import Skyrise.Operator.Filter
import Skyrise.Operator.Partition
import Skyrise.Operator.Projection
import Skyrise.Operator.Join.AbstractJoin

namespace Skyrise

variable {R : Type}

/-- An operator that moves rows, with its input. -/
inductive RowMovement (R : Type) where
  /-- A filter, with the positions that match in each chunk, and the order in which its jobs
  finish. -/
  | filter (positions : ℕ → List RowId) (finished : List ℕ) (table : Table R)
  | sort (sortDefinitions : List SortColumnDefinition) (table : Table R)
  | partition (hashCombine : ℕ → Value R → ℕ) (f : HashPartitioningFunction)
      (sortWithinPartition : Bool) (table : Table R)
  /-- The matched side of a join, in the state that its algorithm has filled. -/
  | matchedTuples (st : JoinState) (left right : Table R)
  /-- The split in front of a projection. -/
  | split (table : Table R)

namespace RowMovement

/-- An input that the operator is built for: tables that are well-formed, and arguments that pass
its assertions or that its callers compute. -/
def Accepted : RowMovement R → Prop
  | filter positions finished table => table.WellFormed ∧
      (∀ i, (positions i).Sublist (table.chunkRowIds i)) ∧
        finished.Perm (List.range table.chunkCount)
  | sort sortDefinitions table => table.WellFormed ∧ SortOperator.Accepts sortDefinitions table
  | partition _ f _ table => table.WellFormed ∧ f.Accepts table ∧ 0 < f.partitionCount
  | matchedTuples st left right => left.WellFormed ∧ right.WellFormed ∧
      0 < left.getColumnCount ∧ st.Fits left right
  | split table => table.WellFormed

variable [Zero R] [LinearOrder R]

open HashPartitioningFunction in
/-- The operator does not throw, and returns the selected rows with every cell as it was. -/
def Preserves : RowMovement R → Prop
  | filter positions finished table =>
      ∃ t, FilterOperator.filterOperator (fun i => .ok (positions i)) table finished = .ok t ∧
        t.columnDefinitions = table.columnDefinitions ∧
        t.rows = (finished.flatMap positions).map table.rowAt
  | sort sortDefinitions table =>
      ∃ t, SortOperator.sortOperator sortDefinitions table = .ok t ∧
        t.columnDefinitions = table.columnDefinitions ∧
        t.rows = (SortOperator.sortedPositions table sortDefinitions).map table.rowAt
  | partition hashCombine f sortWithinPartition table =>
      ∃ t, PartitionOperator.partitionOperator hashCombine f sortWithinPartition table = .ok t ∧
        t.columnDefinitions = table.columnDefinitions ∧ t.chunkCount = f.partitionCount ∧
        ∀ i < f.partitionCount,
          (t.getChunk i).rows.Perm ((rowIdsOf hashCombine f table i).map table.rowAt)
  | matchedTuples st left right =>
      ∃ c, materializeMatches left right st (computeResultRowCount st.positionLists) = .ok c ∧
        c.rows = st.matchedRows.map fun lr => left.rowAt lr.1 ++ right.rowAt lr.2
  | split table =>
      ∃ t, ProjectionOperator.splitInput table = .ok t ∧
        t.columnDefinitions = table.columnDefinitions ∧ t.rows = table.rows

/-- What has to hold of the input.  A filter shares the segments of a chunk all of whose rows match,
and a projection splits nothing but the only chunk of a table with many rows; apart from that no
row that is copied can have a NULL.  A partitioning needs chunks that it can count along, and rows
in every partition that it sorts, and the matches of a join are counted in an `int`. -/
def Preservable : RowMovement R → Prop
  | filter positions _ table =>
      ∀ i < table.chunkCount, FilterOperator.Movable table i (positions i)
  | sort _ table => table.NonNull
  | partition hashCombine f sortWithinPartition table =>
      PartitionOperator.Partitionable hashCombine sortWithinPartition f table ∧ table.NonNull
  | matchedTuples st left right => 0 ≤ computeResultRowCount st.positionLists ∧
      ∀ lr ∈ st.matchedRows, left.NonNullAt lr.1 ∧ right.NonNullAt lr.2
  | split table => table.chunkCount = 1 →
      ProjectionOperator.desiredChunkSize < table.rowCount → table.NonNull

/-- **Row movement.**  An operator that moves rows returns the selected rows with every NULL still
NULL and every value unchanged if and only if its input is preservable. -/
theorem preserves_iff_preservable (m : RowMovement R) (h : m.Accepted) :
    m.Preserves ↔ m.Preservable := by
  cases m with
  | filter positions finished table =>
    obtain ⟨ht, hpos, hfinished⟩ := h
    exact FilterOperator.filterOperator_eq_ok_iff ht hpos hfinished
  | sort sortDefinitions table => exact SortOperator.sortOperator_eq_ok_iff h.1 h.2
  | partition hashCombine f sortWithinPartition table =>
    obtain ⟨ht, hf, hp⟩ := h
    exact PartitionOperator.partitionOperator_eq_ok_iff ht hf hp
  | matchedTuples st left right =>
    obtain ⟨hl, hr, hcol, hst⟩ := h
    exact materializeMatches_eq_ok_iff hl hr hcol hst
  | split table => exact ProjectionOperator.splitInput_eq_ok_iff h

/-! ### A table with a NULL -/

/-- Three rows with a key each, and no value in the second one. -/
def keyedValues : Table ℚ where
  columnDefinitions := [⟨"key", .int, false⟩, ⟨"value", .int, true⟩]
  chunks := [⟨[.ofValues .int [.int 1, .int 2, .int 3],
    .ofNullable .int [.int 10, .int 0, .int 30] [false, true, false]]⟩]

lemma wellFormed_keyedValues : keyedValues.WellFormed := by
  refine ⟨by simp [keyedValues], fun c hc => ?_⟩
  obtain rfl : c = _ := List.mem_singleton.mp hc
  refine ⟨rfl, ?_, by simp [Chunk.size], ?_⟩
  · intro s hs
    simp only [List.mem_cons, List.not_mem_nil, or_false] at hs
    rcases hs with rfl | rfl
    · exact ValueSegment.wellFormed_ofValues (by decide) (by simp [Value.dataType])
    · exact ValueSegment.wellFormed_ofNullable (by decide) (by simp [Value.dataType]) rfl
  · intro columnId d hd hnullable i
    rcases columnId with - | - | columnId
    · rfl
    · obtain rfl := Option.some.inj hd
      cases hnullable
    · cases hd

/-- The rows of the second and the third key. -/
def lastTwo (chunkId : ℕ) : List RowId :=
  if chunkId = 0 then [⟨0, 1⟩, ⟨0, 2⟩] else []

lemma lastTwo_sublist (i : ℕ) : (lastTwo i).Sublist (keyedValues.chunkRowIds i) := by
  by_cases h : i = 0
  · subst h
    exact List.sublist_cons_self _ _
  · rw [lastTwo, if_neg h]
    exact List.nil_sublist _

/-- A filter by which all rows match shares the segments, and keeps the NULL. -/
theorem preserves_all_rows :
    (filter keyedValues.chunkRowIds [0] keyedValues).Accepted ∧
      ¬ keyedValues.NonNull ∧ (filter keyedValues.chunkRowIds [0] keyedValues).Preserves := by
  have h : (filter keyedValues.chunkRowIds [0] keyedValues).Accepted :=
    ⟨wellFormed_keyedValues, fun _ => List.Sublist.refl _, List.Perm.refl _⟩
  refine ⟨h, fun hnn => hnn ⟨0, 1⟩ (by decide) 1 (by decide) rfl, ?_⟩
  exact (preserves_iff_preservable _ h).mpr fun i _ => .inl (by simp [Table.chunkRowIds])

/-- A filter by which two rows match, and a sort, throw because of the NULL; a partitioning returns
the default value in its place. -/
theorem not_preserves_keyedValues :
    (filter lastTwo [0] keyedValues).Accepted ∧
    FilterOperator.filterOperator (fun i => .ok (lastTwo i)) keyedValues [0] =
      .error .badVariantAccess ∧
    ¬ (filter lastTwo [0] keyedValues).Preserves ∧
    (partition HashPartitioningFunction.addInt ⟨[0], 1⟩ false keyedValues).Accepted ∧
    ¬ (partition HashPartitioningFunction.addInt ⟨[0], 1⟩ false keyedValues).Preserves := by
  have hfilter : FilterOperator.filterOperator (fun i => .ok (lastTwo i)) keyedValues [0] =
      .error .badVariantAccess := rfl
  have hkey : HashPartitioningFunction.Accepts ⟨[0], 1⟩ keyedValues := by
    intro columnId hmem
    obtain rfl := List.mem_singleton.mp hmem
    exact ⟨by decide, rfl⟩
  refine ⟨⟨wellFormed_keyedValues, lastTwo_sublist, List.Perm.refl _⟩, hfilter, ?_,
    ⟨wellFormed_keyedValues, hkey, Nat.one_pos⟩, ?_⟩
  · rintro ⟨t, hok, -⟩
    rw [hfilter] at hok
    cases hok
  · intro h
    have hnn := (PartitionOperator.partitionOperator_eq_ok_iff wellFormed_keyedValues hkey
      Nat.one_pos).mp h
    exact hnn.2 ⟨0, 1⟩ (by decide) 1 (by decide) rfl

end RowMovement

end Skyrise

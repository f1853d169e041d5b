/-
Filtering.

`filterOperator` runs a job for every chunk.  A job asks the filter implementation
for the positions of the matching rows of its chunk, and appends a chunk with these
rows to the output: nothing if there are no matches, the segments of the chunk
themselves if all of its rows match, and otherwise new segments of the values
of the matching rows.  The jobs append in the order in which they finish.
-/
import Skyrise.Storage.Table
import Skyrise.Utils.Assert
import Mathlib.Data.List.ReduceOption

namespace Skyrise

variable {R : Type}

namespace FilterOperator

/-- A column of an output chunk if some rows match.  The value of every cell is taken out of the
variant, also of a NULL. -/
def filterSegment (inputTable : Table R) (chunkId : ℕ) (positions : List RowId) (columnId : ℕ) :
    Except Exception (ValueSegment R) := do
  let segmentValues ← positions.mapM fun position =>
    match ((inputTable.getChunk chunkId).getSegment columnId).variantAt position.chunkOffset with
    | none => Except.error .badVariantAccess
    | some value => .ok value
  return .ofValues (inputTable.columnDataType columnId) segmentValues

/-- The job of a chunk, with the filter implementation as a parameter. -/
def performFilter (filterChunk : ℕ → Except Exception (List RowId)) (inputTable : Table R)
    (chunkId : ℕ) : Except Exception (Option (Chunk R)) := do
  let inputChunk := inputTable.getChunk chunkId
  let positions ← filterChunk chunkId
  if positions.isEmpty then
    return none
  else if positions.length = inputChunk.size then
    return some ⟨(List.range inputTable.getColumnCount).map inputChunk.getSegment⟩
  else
    let outputSegments ← (List.range inputTable.getColumnCount).mapM
      (filterSegment inputTable chunkId positions)
    return some ⟨outputSegments⟩

/-- `FilterOperator::OnExecute`.  The chunk ids are given in the order in which the jobs append
their chunks. -/
def filterOperator (filterChunk : ℕ → Except Exception (List RowId)) (inputTable : Table R)
    (finished : List ℕ) : Except Exception (Table R) := do
  let outputChunks ← finished.mapM (performFilter filterChunk inputTable)
  return ⟨inputTable.columnDefinitions, outputChunks.reduceOption⟩

/-! ### The rows of an output chunk -/

variable {table : Table R} {chunkId : ℕ} {positions : List RowId}

/-- The rows that a job appends. -/
def outputRows (outputChunk : Option (Chunk R)) : List (List (AllTypeVariant R)) :=
  outputChunk.elim [] Chunk.rows

lemma rows_reduceOption (definitions : List TableColumnDefinition)
    (outputChunks : List (Option (Chunk R))) :
    (⟨definitions, outputChunks.reduceOption⟩ : Table R).rows = outputChunks.flatMap outputRows := by
  rw [Table.rows]
  induction outputChunks with
  | nil => rfl
  | cons outputChunk outputChunks ih =>
    cases outputChunk with
    | none => simpa [outputRows] using ih
    | some c => simpa [outputRows] using ih

/-- A chunk that shares the segments of another one has its rows. -/
lemma rows_shared (ht : table.WellFormed) (hchunk : chunkId < table.chunkCount) :
    (⟨(List.range table.getColumnCount).map (table.getChunk chunkId).getSegment⟩ : Chunk R).rows =
      (table.chunkRowIds chunkId).map table.rowAt := by
  have hshared : (List.range table.getColumnCount).map (table.getChunk chunkId).getSegment =
      (table.getChunk chunkId).segments := by
    have hlen := (ht.getChunk hchunk).length_segments
    apply List.ext_getElem
    · simpa [Table.getColumnCount] using hlen.symm
    · intro i h₁ h₂
      simp [Chunk.getSegment_of_lt h₂]
  rw [hshared, Table.chunkRowIds, List.map_map]
  rfl

variable [Zero R]

/-- Without NULLs in the matching rows, a job appends these rows. -/
lemma filterSegments_eq_ok (ht : table.WellFormed)
    (hpos : positions.Sublist (table.chunkRowIds chunkId)) (hchunk : chunkId < table.chunkCount)
    (hnn : ∀ id ∈ positions, table.NonNullAt id) :
    (List.range table.getColumnCount).mapM (filterSegment table chunkId positions) =
      .ok ((List.range table.getColumnCount).map fun i =>
        .ofValues (table.columnDataType i) (positions.map (table.storedAt i))) := by
  refine mapM_eq_ok fun i hi => ?_
  have hcell : ∀ id ∈ positions, ((table.getChunk chunkId).getSegment i).variantAt id.chunkOffset =
      some (table.storedAt i id) := by
    intro id hid
    obtain ⟨rfl, hoffset⟩ := Table.mem_chunkRowIds.mp (hpos.subset hid)
    exact ht.cellAt_eq_some_storedAt (Table.mem_rowIds.mpr ⟨hchunk, hoffset⟩)
      (List.mem_range.mp hi) (hnn id hid i (List.mem_range.mp hi))
  rw [filterSegment, mapM_eq_ok (g := table.storedAt i) fun id hid => by rw [hcell id hid]]
  rfl

omit [Zero R] in
/-- If the columns of the matching rows can be built, no cell is a NULL. -/
lemma nonNullAt_of_filterSegments_eq_ok (hpos : positions.Sublist (table.chunkRowIds chunkId))
    {outputSegments : List (ValueSegment R)}
    (h : (List.range table.getColumnCount).mapM (filterSegment table chunkId positions) =
      .ok outputSegments) : ∀ id ∈ positions, table.NonNullAt id := by
  intro id hid i hi hnone
  obtain ⟨s, hs⟩ := exists_mapM_eq_ok_iff.mp ⟨_, h⟩ i (List.mem_range.mpr hi)
  obtain ⟨values, hvalues, -⟩ := exists_of_bind_eq_ok hs
  obtain ⟨v, hv⟩ := exists_mapM_eq_ok_iff.mp ⟨_, hvalues⟩ id hid
  obtain ⟨rfl, -⟩ := Table.mem_chunkRowIds.mp (hpos.subset hid)
  rw [Table.cellAt] at hnone
  rw [hnone] at hv
  cases hv

/-- What has to hold of the matches in a chunk for their rows to be returned: all rows match, or
none of the matching rows has a NULL. -/
def Movable (table : Table R) (chunkId : ℕ) (positions : List RowId) : Prop :=
  positions.length = (table.getChunk chunkId).size ∨ ∀ id ∈ positions, table.NonNullAt id

/-- A job succeeds if and only if the matches of its chunk are movable, and then it appends the
matching rows. -/
lemma performFilter_eq_ok (ht : table.WellFormed)
    (hpos : positions.Sublist (table.chunkRowIds chunkId)) (hchunk : chunkId < table.chunkCount)
    (hmovable : Movable table chunkId positions) : ∃ outputChunk,
      performFilter (fun _ => .ok positions) table chunkId = .ok outputChunk ∧
        outputRows outputChunk = positions.map table.rowAt := by
  rw [performFilter]
  simp only [bind, Except.bind, pure, Except.pure]
  split_ifs with hempty hall
  · rw [List.isEmpty_iff.mp hempty]
    exact ⟨none, rfl, rfl⟩
  · refine ⟨_, rfl, ?_⟩
    -- all rows of the chunk match
    have heq : positions = table.chunkRowIds chunkId :=
      hpos.eq_of_length (by simpa [Table.chunkRowIds] using hall)
    rw [heq]
    exact rows_shared ht hchunk
  · have hnn := hmovable.resolve_left hall
    have hmem : ∀ id ∈ positions, id ∈ table.rowIds := by
      intro id hid
      obtain ⟨hid₁, hid₂⟩ := Table.mem_chunkRowIds.mp (hpos.subset hid)
      exact Table.mem_rowIds.mpr ⟨hid₁ ▸ hchunk, hid₁ ▸ hid₂⟩
    rw [filterSegments_eq_ok ht hpos hchunk hnn]
    refine ⟨_, rfl, ?_⟩
    have hgathers : table.Gathers positions ⟨(List.range table.getColumnCount).map fun i =>
        .ofValues (table.columnDataType i) (positions.map (table.storedAt i))⟩ := by
      refine ⟨by simp, fun i hi => ?_, fun i hi => ?_, fun i hi => .inl ?_⟩ <;>
        simp [Chunk.getSegment, hi, ValueSegment.ofValues]
    exact (hgathers.rows_of_mem ht hmem).trans ((ht.map_storedRow_eq_iff hmem).mpr hnn)

omit [Zero R] in
lemma movable_of_performFilter_eq_ok (hpos : positions.Sublist (table.chunkRowIds chunkId))
    {outputChunk : Option (Chunk R)}
    (h : performFilter (fun _ => .ok positions) table chunkId = .ok outputChunk) :
    Movable table chunkId positions := by
  by_cases hall : positions.length = (table.getChunk chunkId).size
  · exact .inl hall
  · right
    rw [performFilter] at h
    simp only [bind, Except.bind, pure, Except.pure, hall, if_false] at h
    split_ifs at h with hempty
    · rw [List.isEmpty_iff.mp hempty]
      exact fun id hid => absurd hid List.not_mem_nil
    · split at h
      · cases h
      · next hsegments => exact nonNullAt_of_filterSegments_eq_ok hpos hsegments

/-- The operator returns the matching rows, chunk by chunk in the order in which the jobs finish, if
and only if the matches of every chunk are movable. -/
lemma filterOperator_eq_ok_iff (ht : table.WellFormed) {positions : ℕ → List RowId}
    (hpos : ∀ i, (positions i).Sublist (table.chunkRowIds i)) {finished : List ℕ}
    (hfinished : finished.Perm (List.range table.chunkCount)) :
    (∃ t, filterOperator (fun i => .ok (positions i)) table finished = .ok t ∧
        t.columnDefinitions = table.columnDefinitions ∧
        t.rows = (finished.flatMap positions).map table.rowAt) ↔
      ∀ i < table.chunkCount, Movable table i (positions i) := by
  have hmem : ∀ i, i ∈ finished ↔ i < table.chunkCount :=
    fun i => hfinished.mem_iff.trans List.mem_range
  constructor
  · rintro ⟨t, hrun, -⟩ i hi
    obtain ⟨outputChunks, hchunks, -⟩ := exists_of_bind_eq_ok hrun
    obtain ⟨outputChunk, hchunk⟩ := exists_mapM_eq_ok_iff.mp ⟨_, hchunks⟩ i ((hmem i).mpr hi)
    exact movable_of_performFilter_eq_ok (hpos i) hchunk
  · intro hmovable
    obtain ⟨outputChunks, hchunks, hall⟩ := exists_mapM_eq_ok
      (f := performFilter (fun i => .ok (positions i)) table)
      (P := fun i outputChunk => outputRows outputChunk = (positions i).map table.rowAt) finished
      fun i hi => performFilter_eq_ok ht (hpos i) ((hmem i).mp hi) (hmovable i ((hmem i).mp hi))
    refine ⟨⟨table.columnDefinitions, outputChunks.reduceOption⟩, ?_, rfl, ?_⟩
    · rw [filterOperator, hchunks]
      rfl
    · rw [rows_reduceOption, List.map_flatMap]
      exact List.flatMap_eq_of_forall₂ hall

end FilterOperator

end Skyrise

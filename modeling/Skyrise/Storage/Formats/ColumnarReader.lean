/-
Reading Parquet and ORC files.

The library reads a file as record batches, whose columns are arrays of slots that
are valid or NULL.  `ParquetFormatReader` and `OrcFormatReader` take one batch after
the other and copy the values of the slots into segments.  A file is given by what
the library keeps of it, the cells of its columns; how the rows are cut into batches
is left to the library.
-/
import Skyrise.Relational.Columns
import Skyrise.Storage.Table
import Skyrise.Utils.Assert

namespace Skyrise

open Relational

variable {R : Type}

/-! ### Files and record batches -/

/-- `arrow::Type`, as far as it is the type of a column that is written. -/
inductive ArrowType where
  | float
  | double
  | int32
  | int64
  | string
deriving DecidableEq, Repr

/-- A slot of an array.  The value of a slot that is not valid is unspecified. -/
structure ArrowSlot (R : Type) where
  isValid : Bool
  value : Value R

/-- The cell of a slot. -/
def ArrowSlot.cell (slot : ArrowSlot R) : AllTypeVariant R :=
  if slot.isValid then some slot.value else none

/-- `arrow::Array`. -/
structure ArrowArray (R : Type) where
  typeId : ArrowType
  slots : List (ArrowSlot R)

/-- `arrow::RecordBatch`. -/
structure RecordBatch (R : Type) where
  columns : List (ArrowArray R)

/-- The cells of the columns of a batch. -/
def RecordBatch.block (batch : RecordBatch R) : List (List (AllTypeVariant R)) :=
  batch.columns.map fun column => column.slots.map ArrowSlot.cell

/-- A Parquet file, with its row groups, or an ORC file, with its stripes. -/
structure ColumnarFile (R : Type) where
  /-- The types of the columns. -/
  types : List ArrowType
  /-- The cells of the columns of each row group. -/
  rowGroups : List (List (List (AllTypeVariant R)))

namespace ColumnarFile

/-- A file in which all columns of a row group have the same length. -/
def WellFormed (file : ColumnarFile R) : Prop :=
  ∀ rowGroup ∈ file.rowGroups, Rectangular file.types.length rowGroup

/-- The batches have the cells of the file, in their order. -/
structure Scanned (file : ColumnarFile R) (batches : List (RecordBatch R)) : Prop where
  typeIds : ∀ batch ∈ batches, batch.columns.map ArrowArray.typeId = file.types
  rectangular : ∀ batch ∈ batches, Rectangular file.types.length batch.block
  cells : joined file.types.length (batches.map RecordBatch.block) =
    joined file.types.length file.rowGroups

lemma Scanned.rows {file : ColumnarFile R} {batches : List (RecordBatch R)}
    (h : file.Scanned batches) (hfile : file.WellFormed) :
    batches.flatMap (fun batch => rowsOf batch.block) = file.rowGroups.flatMap rowsOf := by
  rw [← rowsOf_joined hfile, ← h.cells, rowsOf_joined (List.forall_mem_map.mpr h.rectangular),
    List.flatMap_map]

end ColumnarFile

/-! ### Segments -/

/-- `ArrowTypeToSkyriseType`. -/
def arrowTypeToSkyriseType : ArrowType → DataType
  | .float => .float
  | .double => .double
  | .int32 => .int
  | .int64 => .long
  | .string => .string

/-- `ProcessArrowColumnToTypedSegment`, with `ArrowColumnToTypedSegment`: the values of all slots,
valid or not. -/
def processArrowColumnToTypedSegment (column : ArrowArray R) : ValueSegment R :=
  .ofValues (arrowTypeToSkyriseType column.typeId) (column.slots.map ArrowSlot.value)

/-- The chunk of a batch. -/
def RecordBatch.toChunk (batch : RecordBatch R) : Chunk R :=
  ⟨batch.columns.map processArrowColumnToTypedSegment⟩

/-- A batch in which all slots are valid. -/
def RecordBatch.filled (batch : RecordBatch R) : RecordBatch R :=
  ⟨batch.columns.map fun column =>
    { column with slots := column.slots.map fun slot => { slot with isValid := true } }⟩

/-- The rows of a chunk, from the cells of its segments. -/
lemma Chunk.rows_eq_rowsOf {c : Chunk R} (h : ∀ s ∈ c.segments, s.size = c.size) :
    c.rows = rowsOf (c.segments.map ValueSegment.cells) := by
  have hheight : ((c.segments.map ValueSegment.cells).headD []).length = c.size := by
    rw [Chunk.size]
    cases c.segments with
    | nil => rfl
    | cons s segments => simp
  rw [Chunk.rows, rowsOf, hheight]
  refine List.map_congr_left fun k hk => ?_
  rw [Chunk.row, List.map_map]
  refine List.map_congr_left fun s hs => ?_
  have hk' : k < s.size := by
    rw [h s hs]
    exact List.mem_range.mp hk
  simp [ValueSegment.cells, hk']

/-- The rows of the chunk of a batch are those of the batch as if all slots were valid. -/
lemma RecordBatch.rows_toChunk {m : ℕ} {batch : RecordBatch R} (h : Rectangular m batch.block) :
    batch.toChunk.rows = rowsOf batch.filled.block := by
  have hcells : batch.toChunk.segments.map ValueSegment.cells = batch.filled.block := by
    simp [toChunk, filled, block, processArrowColumnToTypedSegment, ValueSegment.cells_ofValues,
      ArrowSlot.cell, Function.comp_def]
  rw [← hcells]
  refine Chunk.rows_eq_rowsOf fun s hs => ?_
  obtain ⟨column, hcolumn, rfl⟩ := List.mem_map.mp hs
  have hlength := h.length_column _ (List.mem_map_of_mem hcolumn)
  rw [processArrowColumnToTypedSegment, ValueSegment.size_ofValues, Chunk.size, toChunk]
  cases hcolumns : batch.columns with
  | nil => simp [hcolumns] at hcolumn
  | cons first columns =>
    simp [block, hcolumns] at hlength
    simp [processArrowColumnToTypedSegment, hlength]

lemma RecordBatch.rectangular_filled {m : ℕ} {batch : RecordBatch R}
    (h : Rectangular m batch.block) : Rectangular m batch.filled.block := by
  have hlengths : batch.filled.block.map List.length = batch.block.map List.length := by
    simp [filled, block, Function.comp_def]
  have hheight : (batch.filled.block.headD []).length = (batch.block.headD []).length := by
    cases hcolumns : batch.columns <;> simp [filled, block, hcolumns]
  refine ⟨?_, fun column hcolumn => ?_⟩
  · rw [← h.length_eq]
    simpa using congrArg List.length hlengths
  · rw [hheight]
    have hmem : column.length ∈ batch.filled.block.map List.length := List.mem_map_of_mem hcolumn
    rw [hlengths] at hmem
    obtain ⟨column', hcolumn', heq⟩ := List.mem_map.mp hmem
    rw [← heq, h.length_column column' hcolumn']

/-- There is no NULL in the chunk of a batch. -/
lemma RecordBatch.none_notMem_of_mem_rows_toChunk {m : ℕ} {batch : RecordBatch R}
    (h : Rectangular m batch.block) : ∀ row ∈ batch.toChunk.rows, none ∉ row := by
  rw [rows_toChunk h, none_notMem_rowsOf_iff (rectangular_filled h)]
  intro column hcolumn hnone
  simp only [filled, block, List.map_map, List.mem_map, Function.comp_apply] at hcolumn
  obtain ⟨column', -, rfl⟩ := hcolumn
  simp [ArrowSlot.cell] at hnone

/-- A batch without NULLs is read as it is. -/
lemma RecordBatch.rows_toChunk_of_none_notMem {m : ℕ} {batch : RecordBatch R}
    (h : Rectangular m batch.block) (hnone : ∀ column ∈ batch.block, none ∉ column) :
    batch.toChunk.rows = rowsOf batch.block := by
  rw [rows_toChunk h]
  refine congrArg rowsOf ?_
  rw [block, block, filled, List.map_map]
  refine List.map_congr_left fun column hcolumn => ?_
  simp only [Function.comp_apply, List.map_map]
  refine List.map_congr_left fun slot hslot => ?_
  -- a slot that is not valid is NULL
  by_cases hvalid : slot.isValid
  · simp [ArrowSlot.cell, hvalid]
  · refine absurd ?_ (hnone _ (List.mem_map_of_mem hcolumn))
    refine List.mem_map.mpr ⟨slot, hslot, ?_⟩
    rw [ArrowSlot.cell, if_neg hvalid]

/-! ### Readers -/

/-- The state of a `ParquetFormatReader` or an `OrcFormatReader`. -/
structure ColumnarReader (R : Type) where
  /-- The batches that the library has not returned yet. -/
  batchIterator : List (RecordBatch R)
  /-- The batch that was returned but not read. -/
  nextBatch : Option (RecordBatch R) := none
  /-- Whether the end was not reached. -/
  iteratorHasNext : Bool := true

namespace ColumnarReader

/-- `HasNext`. -/
def hasNext (r : ColumnarReader R) : Bool × ColumnarReader R :=
  if r.iteratorHasNext then
    match r.nextBatch, r.batchIterator with
    | some _, _ => (true, r)
    | none, [] => (false, { r with iteratorHasNext := false })
    | none, batch :: batches => (true, { r with nextBatch := batch, batchIterator := batches })
  else (false, r)

/-- `Next`, which reads the columns of the next batch without a check. -/
def next (r : ColumnarReader R) : Except Exception (Option (Chunk R) × ColumnarReader R) :=
  if r.iteratorHasNext then
    match r.nextBatch, r.batchIterator with
    | some batch, _ => .ok (some batch.toChunk, { r with nextBatch := none })
    | none, [] => .error .undefinedBehavior
    | none, batch :: batches => .ok (some batch.toChunk, { r with batchIterator := batches })
  else .ok (none, r)

/-- The chunks that a reader returns as long as it has a next one. -/
def readChunks : ℕ → ColumnarReader R → Except Exception (List (Chunk R))
  | 0, _ => .ok []
  | fuel + 1, r =>
    match r.hasNext with
    | (false, _) => .ok []
    | (true, r') => do
      let (chunk, r'') ← r'.next
      let chunks ← readChunks fuel r''
      return chunk.toList ++ chunks

/-- A reader returns one chunk for each batch, and needs one more turn to see that there is no
other. -/
lemma readChunks_eq_ok {fuel : ℕ} {batches : List (RecordBatch R)} (hfuel : batches.length < fuel) :
    readChunks fuel { batchIterator := batches } = .ok (batches.map RecordBatch.toChunk) := by
  induction batches generalizing fuel with
  | nil =>
    obtain ⟨fuel, rfl⟩ := Nat.exists_eq_add_one_of_ne_zero (Nat.ne_zero_of_lt hfuel)
    rfl
  | cons batch batches ih =>
    obtain ⟨fuel, rfl⟩ := Nat.exists_eq_add_one_of_ne_zero (Nat.ne_zero_of_lt hfuel)
    have hrest := ih (Nat.lt_of_succ_lt_succ hfuel)
    simp [readChunks, hasNext, next, bind, Except.bind, pure, Except.pure, hrest]

end ColumnarReader

namespace ColumnarFile

variable {file : ColumnarFile R} {batches : List (RecordBatch R)}

/-- What is read has no NULL. -/
lemma Scanned.none_notMem_rows (h : file.Scanned batches) :
    ∀ row ∈ (batches.map RecordBatch.toChunk).flatMap Chunk.rows, none ∉ row := by
  intro row hrow
  rw [List.flatMap_map, List.mem_flatMap] at hrow
  obtain ⟨batch, hbatch, hrow⟩ := hrow
  exact RecordBatch.none_notMem_of_mem_rows_toChunk (h.rectangular batch hbatch) row hrow

/-- A file without NULLs is read as it is. -/
lemma Scanned.rows_of_none_notMem (h : file.Scanned batches) (hfile : file.WellFormed)
    (hnone : ∀ row ∈ file.rowGroups.flatMap rowsOf, none ∉ row) :
    (batches.map RecordBatch.toChunk).flatMap Chunk.rows = file.rowGroups.flatMap rowsOf := by
  rw [← h.rows hfile] at hnone ⊢
  rw [List.flatMap_map]
  refine List.flatMap_congr fun batch hbatch => ?_
  refine RecordBatch.rows_toChunk_of_none_notMem (h.rectangular batch hbatch) ?_
  rw [← none_notMem_rowsOf_iff (h.rectangular batch hbatch)]
  exact fun row hrow => hnone row (List.mem_flatMap.mpr ⟨batch, hbatch, hrow⟩)

/-- One batch for each row group, with default values where there is a NULL. -/
def scanRowGroups [Zero R] (file : ColumnarFile R) : List (RecordBatch R) :=
  file.rowGroups.map fun columns => ⟨List.zipWith (fun typeId cells =>
    ⟨typeId, cells.map fun cell =>
      ⟨cell.isSome, cell.getD (arrowTypeToSkyriseType typeId).defaultValue⟩⟩) file.types columns⟩

lemma scanned_scanRowGroups [Zero R] (hfile : file.WellFormed) :
    file.Scanned (scanRowGroups file) := by
  have hblock : (scanRowGroups file).map RecordBatch.block = file.rowGroups := by
    rw [scanRowGroups, List.map_map, List.map_congr_left (g := id), List.map_id]
    intro columns hcolumns
    have hlength := (hfile columns hcolumns).length_eq
    refine List.ext_getElem (by simp [RecordBatch.block, hlength]) fun i h₁ h₂ => ?_
    simp only [RecordBatch.block, Function.comp_apply, List.getElem_map, List.getElem_zipWith,
      List.map_map, id_eq]
    refine (List.map_congr_left (g := id) fun cell _ => ?_).trans (List.map_id _)
    cases cell <;> rfl
  refine ⟨fun batch hbatch => ?_, fun batch hbatch => ?_, by rw [hblock]⟩
  · obtain ⟨columns, hcolumns, rfl⟩ := List.mem_map.mp hbatch
    have hlength := (hfile columns hcolumns).length_eq
    exact List.ext_getElem (by simp [hlength]) fun i h₁ h₂ => by simp
  · refine hfile batch.block ?_
    rw [← hblock]
    exact List.mem_map_of_mem hbatch

end ColumnarFile

end Skyrise

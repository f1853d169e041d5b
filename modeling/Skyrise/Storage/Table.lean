/-
Tables: column definitions and a list of chunks, each chunk one value segment
for every column.

The definitions follow `ValueSegment`, `Chunk` and `Table`; sizes and ids are
natural numbers, and the marker values `kNullRowId` and `kInvalidColumnId` of
the program are `none`.  A table is read row by row by `Table.rows`, which is
what the results of the operators are compared by.
-/
import Skyrise.Storage.AllTypeVariant
import Skyrise.Utils.List
import Mathlib.Data.List.Basic
import Mathlib.Data.List.Nodup
import Mathlib.Data.List.Range
import Mathlib.Data.Prod.Lex

namespace Skyrise

variable {R : Type}

/-! ### Segments -/

/-- The values of one column in one chunk.  `nullValues` is present if the segment can hold NULLs;
where it is set, the value stored at the position is not used. -/
structure ValueSegment (R : Type) where
  /-- The type `T` of `ValueSegment<T>`. -/
  dataType : DataType
  /-- The stored values. -/
  values : List (Value R)
  /-- The positions that are NULL. -/
  nullValues : Option (List Bool)
deriving DecidableEq, Repr

namespace ValueSegment

/-- A segment without NULLs. -/
def ofValues (t : DataType) (values : List (Value R)) : ValueSegment R := ⟨t, values, none⟩

/-- A segment with a vector of NULL flags. -/
def ofNullable (t : DataType) (values : List (Value R)) (nulls : List Bool) : ValueSegment R :=
  ⟨t, values, some nulls⟩

/-- Whether the segment can hold NULLs. -/
def isNullable (s : ValueSegment R) : Bool := s.nullValues.isSome

/-- The number of entries. -/
def size (s : ValueSegment R) : ℕ := s.values.length

/-- Whether the entry at an offset is NULL. -/
def isNull (s : ValueSegment R) (i : ℕ) : Bool :=
  match s.nullValues with
  | none => false
  | some nulls => nulls.getD i false

/-- The cell at an offset of the segment, `operator[]` and `GetTypedValue` of the program. -/
def variantAt (s : ValueSegment R) (i : ℕ) : AllTypeVariant R :=
  if s.isNull i then none else s.values[i]?

/-- A segment that a `ValueSegment<T>` can be: its values have its type and there are as many NULL
flags as values. -/
structure WellFormed (s : ValueSegment R) : Prop where
  dataType_ne_null : s.dataType ≠ .null
  typed : ∀ v ∈ s.values, v.dataType = s.dataType
  nulls_length : ∀ nulls, s.nullValues = some nulls → nulls.length = s.values.length

/-- All cells, in order. -/
def cells (s : ValueSegment R) : List (AllTypeVariant R) := (List.range s.size).map s.variantAt

@[simp] lemma length_cells (s : ValueSegment R) : s.cells.length = s.size := by simp [cells]

@[simp] lemma size_ofValues (t : DataType) (vs : List (Value R)) :
    (ofValues t vs).size = vs.length := rfl

@[simp] lemma size_ofNullable (t : DataType) (vs : List (Value R)) (nulls : List Bool) :
    (ofNullable t vs nulls).size = vs.length := rfl

@[simp] lemma values_ofValues (t : DataType) (vs : List (Value R)) :
    (ofValues t vs).values = vs := rfl

@[simp] lemma values_ofNullable (t : DataType) (vs : List (Value R)) (nulls : List Bool) :
    (ofNullable t vs nulls).values = vs := rfl

@[simp] lemma dataType_ofValues (t : DataType) (vs : List (Value R)) :
    (ofValues t vs).dataType = t := rfl

@[simp] lemma dataType_ofNullable (t : DataType) (vs : List (Value R)) (nulls : List Bool) :
    (ofNullable t vs nulls).dataType = t := rfl

@[simp] lemma isNull_ofValues (t : DataType) (vs : List (Value R)) (i : ℕ) :
    (ofValues t vs).isNull i = false := rfl

@[simp] lemma isNull_ofNullable (t : DataType) (vs : List (Value R)) (nulls : List Bool) (i : ℕ) :
    (ofNullable t vs nulls).isNull i = nulls.getD i false := rfl

@[simp] lemma variantAt_ofValues (t : DataType) (vs : List (Value R)) (i : ℕ) :
    (ofValues t vs).variantAt i = vs[i]? := by
  simp [variantAt]

lemma variantAt_ofNullable (t : DataType) (vs : List (Value R)) (nulls : List Bool) (i : ℕ) :
    (ofNullable t vs nulls).variantAt i = if nulls.getD i false then none else vs[i]? := rfl

lemma cells_ofValues (t : DataType) (vs : List (Value R)) :
    (ofValues t vs).cells = vs.map some := by
  apply List.ext_getElem
  · simp
  · intro i h₁ h₂
    have hi : i < vs.length := by simpa using h₂
    simp [cells, hi]

/-- The cells of a segment that was filled with values and flags position by position. -/
lemma cells_ofNullable_map {π : Type*} (t : DataType) (ps : List π) (f : π → Value R)
    (null : π → Bool) : (ofNullable t (ps.map f) (ps.map null)).cells =
      ps.map fun p => if null p then none else some (f p) := by
  apply List.ext_getElem
  · simp
  · intro i h₁ h₂
    have hi : i < ps.length := by simpa using h₂
    simp [cells, variantAt_ofNullable, hi]

lemma variantAt_of_isNull_eq_false {s : ValueSegment R} {i : ℕ} (h : s.isNull i = false) :
    s.variantAt i = s.values[i]? := by
  simp [variantAt, h]

lemma WellFormed.dataType_of_variantAt {s : ValueSegment R} (hs : s.WellFormed) {i : ℕ}
    {v : Value R} (h : s.variantAt i = some v) : v.dataType = s.dataType := by
  unfold variantAt at h
  split at h
  · simp at h
  · exact hs.typed v (List.mem_of_getElem? h)

lemma wellFormed_ofValues {t : DataType} {vs : List (Value R)} (ht : t ≠ .null)
    (h : ∀ v ∈ vs, v.dataType = t) : (ofValues t vs).WellFormed :=
  ⟨ht, h, by simp [ofValues]⟩

lemma wellFormed_ofNullable {t : DataType} {vs : List (Value R)} {nulls : List Bool}
    (ht : t ≠ .null) (h : ∀ v ∈ vs, v.dataType = t) (hlen : nulls.length = vs.length) :
    (ofNullable t vs nulls).WellFormed :=
  ⟨ht, h, by simp [ofNullable, hlen]⟩

end ValueSegment

/-! ### Chunks and tables -/

/-- The name, the type and the nullability of a column. -/
structure TableColumnDefinition where
  name : String
  dataType : DataType
  nullable : Bool
deriving DecidableEq, Repr

/-- A horizontal part of a table, segment by segment. -/
structure Chunk (R : Type) where
  segments : List (ValueSegment R)
deriving DecidableEq, Repr

namespace Chunk

/-- The number of rows, which is the size of the first segment. -/
def size (c : Chunk R) : ℕ :=
  match c.segments with
  | [] => 0
  | s :: _ => s.size

/-- The segment of a column.  Column ids are within the bounds wherever the program asks for one;
an id beyond them gives an empty segment here and an exception there. -/
def getSegment (c : Chunk R) (columnId : ℕ) : ValueSegment R :=
  c.segments.getD columnId (.ofValues .int [])

/-- The row at an offset. -/
def row (c : Chunk R) (i : ℕ) : List (AllTypeVariant R) := c.segments.map fun s => s.variantAt i

/-- All rows, in order. -/
def rows (c : Chunk R) : List (List (AllTypeVariant R)) := (List.range c.size).map c.row

/-- A chunk that fits the column definitions: one well-formed segment for each column, of the type
of the column, all of them of the same size, and no NULL in a column that is not nullable. -/
structure WellFormed (definitions : List TableColumnDefinition) (c : Chunk R) : Prop where
  dataTypes : c.segments.map ValueSegment.dataType = definitions.map TableColumnDefinition.dataType
  segments : ∀ s ∈ c.segments, s.WellFormed
  sizes : ∀ s ∈ c.segments, s.size = c.size
  not_null : ∀ (columnId : ℕ) (d : TableColumnDefinition), definitions[columnId]? = some d →
    d.nullable = false → ∀ i, (c.getSegment columnId).isNull i = false

@[simp] lemma length_rows (c : Chunk R) : c.rows.length = c.size := by simp [rows]

/-- The rows of a chunk whose columns were filled by functions of one list of positions. -/
lemma rows_eq_map_of_cells {π : Type*} {c : Chunk R} (ps : List π)
    {fs : List (π → AllTypeVariant R)} (hne : fs ≠ [])
    (h : c.segments.map ValueSegment.cells = fs.map fun f => ps.map f) :
    c.rows = ps.map fun p => fs.map fun f => f p := by
  obtain ⟨s, ss, hss⟩ : ∃ s ss, c.segments = s :: ss := by
    cases hsegs : c.segments with
    | nil => simp_all
    | cons s ss => exact ⟨s, ss, rfl⟩
  have hsize : c.size = ps.length := by
    obtain ⟨f, fs, rfl⟩ := List.exists_cons_of_ne_nil hne
    rw [hss, List.map_cons, List.map_cons, List.cons.injEq] at h
    simpa [size, hss] using congrArg List.length h.1
  apply List.ext_getElem
  · simp [rows, hsize]
  · intro i h₁ h₂
    have hi : i < ps.length := by simpa using h₂
    have hrow : c.row i = (c.segments.map ValueSegment.cells).map fun cells => (cells[i]?).join := by
      rw [row, List.map_map]
      refine List.map_congr_left fun s' hs' => ?_
      have hlen : (s'.cells).length = ps.length := by
        have hmem : s'.cells ∈ fs.map fun f => ps.map f := h ▸ List.mem_map_of_mem hs'
        obtain ⟨f, -, hf⟩ := List.mem_map.mp hmem
        rw [← hf, List.length_map]
      have hi' : i < s'.size := by rwa [← ValueSegment.length_cells, hlen]
      simp [ValueSegment.cells, hi']
    simp [rows, hrow, h, hi]

lemma getSegment_of_lt {c : Chunk R} {columnId : ℕ} (h : columnId < c.segments.length) :
    c.getSegment columnId = c.segments[columnId] := by
  simp [getSegment, h]

namespace WellFormed

variable {definitions : List TableColumnDefinition} {c : Chunk R}

lemma length_segments (hc : c.WellFormed definitions) : c.segments.length = definitions.length := by
  simpa using congrArg List.length hc.dataTypes

lemma getSegment_mem (hc : c.WellFormed definitions) {columnId : ℕ}
    (h : columnId < definitions.length) : c.getSegment columnId ∈ c.segments := by
  rw [getSegment_of_lt (hc.length_segments ▸ h)]
  exact List.getElem_mem _

lemma size_getSegment (hc : c.WellFormed definitions) {columnId : ℕ}
    (h : columnId < definitions.length) : (c.getSegment columnId).size = c.size :=
  hc.sizes _ (hc.getSegment_mem h)

lemma wellFormed_getSegment (hc : c.WellFormed definitions) {columnId : ℕ}
    (h : columnId < definitions.length) : (c.getSegment columnId).WellFormed :=
  hc.segments _ (hc.getSegment_mem h)

lemma dataType_getSegment (hc : c.WellFormed definitions) {columnId : ℕ}
    (h : columnId < definitions.length) :
    (c.getSegment columnId).dataType = definitions[columnId].dataType := by
  have hlen : columnId < c.segments.length := hc.length_segments ▸ h
  have := List.getElem_of_eq hc.dataTypes (by simpa using hlen : columnId < _)
  rw [getSegment_of_lt hlen]
  simpa using this

end WellFormed

/-- A row is read column by column. -/
lemma row_eq_map_getSegment (c : Chunk R) (i : ℕ) :
    c.row i = (List.range c.segments.length).map fun columnId => (c.getSegment columnId).variantAt i := by
  apply List.ext_getElem
  · simp [row]
  · intro k h₁ h₂
    have hk : k < c.segments.length := by simpa [row] using h₁
    simp [row, getSegment_of_lt hk]

end Chunk

/-- The position of a row: its chunk and the offset in the chunk. -/
structure RowId where
  chunkId : ℕ
  chunkOffset : ℕ
deriving DecidableEq, Repr

/-- The order of positions, by which position lists are sorted. -/
instance : LinearOrder RowId :=
  LinearOrder.lift' (fun r => toLex (r.chunkId, r.chunkOffset)) fun a b h => by
    cases a
    cases b
    simpa [Prod.ext_iff] using h

lemma RowId.lt_iff {a b : RowId} :
    a < b ↔ a.chunkId < b.chunkId ∨ a.chunkId = b.chunkId ∧ a.chunkOffset < b.chunkOffset := by
  show toLex (a.chunkId, a.chunkOffset) < toLex (b.chunkId, b.chunkOffset) ↔ _
  rw [Prod.Lex.toLex_lt_toLex]

lemma RowId.mk_lt_mk {chunkId i j : ℕ} : RowId.mk chunkId i < RowId.mk chunkId j ↔ i < j := by
  simp [RowId.lt_iff]

/-- A table. -/
structure Table (R : Type) where
  columnDefinitions : List TableColumnDefinition
  chunks : List (Chunk R)
deriving DecidableEq, Repr

namespace Table

/-- The number of columns. -/
def getColumnCount (t : Table R) : ℕ := t.columnDefinitions.length

/-- The definition of a column. -/
def columnDefinition (t : Table R) (columnId : ℕ) : TableColumnDefinition :=
  t.columnDefinitions.getD columnId ⟨"", .int, false⟩

/-- The data type of a column. -/
def columnDataType (t : Table R) (columnId : ℕ) : DataType := (t.columnDefinition columnId).dataType

/-- Whether a column is declared nullable. -/
def columnIsNullable (t : Table R) (columnId : ℕ) : Bool := (t.columnDefinition columnId).nullable

/-- The number of chunks. -/
def chunkCount (t : Table R) : ℕ := t.chunks.length

/-- The number of rows of all chunks. -/
def rowCount (t : Table R) : ℕ := (t.chunks.map Chunk.size).sum

/-- The chunk with an id. -/
def getChunk (t : Table R) (chunkId : ℕ) : Chunk R := t.chunks.getD chunkId ⟨[]⟩

/-- All rows of the table, chunk by chunk. -/
def rows (t : Table R) : List (List (AllTypeVariant R)) := t.chunks.flatMap Chunk.rows

/-- The positions of all rows, chunk by chunk. -/
def rowIds (t : Table R) : List RowId :=
  t.chunks.zipIdx.flatMap fun (c, chunkId) => (List.range c.size).map (RowId.mk chunkId)

/-- The cell of a column at a position. -/
def cellAt (t : Table R) (columnId : ℕ) (rowId : RowId) : AllTypeVariant R :=
  ((t.getChunk rowId.chunkId).getSegment columnId).variantAt rowId.chunkOffset

/-- The value stored in a column at a position, which the program reads where it knows that there
is no NULL. -/
def storedAt [Zero R] (t : Table R) (columnId : ℕ) (rowId : RowId) : Value R :=
  ((t.getChunk rowId.chunkId).getSegment columnId).values.getD rowId.chunkOffset
    (t.columnDataType columnId).defaultValue

/-- The values stored in a row. -/
def storedRow [Zero R] (t : Table R) (rowId : RowId) : List (AllTypeVariant R) :=
  (List.range t.getColumnCount).map fun i => some (t.storedAt i rowId)

/-- The row at a position. -/
def rowAt (t : Table R) (rowId : RowId) : List (AllTypeVariant R) :=
  (t.getChunk rowId.chunkId).row rowId.chunkOffset

/-- A well-formed table: every column has a type, and every chunk fits the column definitions. -/
structure WellFormed (t : Table R) : Prop where
  dataTypes : ∀ d ∈ t.columnDefinitions, d.dataType ≠ .null
  chunks : ∀ c ∈ t.chunks, c.WellFormed t.columnDefinitions

/-- A table without NULLs. -/
def NonNull (t : Table R) : Prop :=
  ∀ id ∈ t.rowIds, ∀ columnId < t.getColumnCount, t.cellAt columnId id ≠ none

/-- A row without NULLs. -/
def NonNullAt (t : Table R) (rowId : RowId) : Prop :=
  ∀ columnId < t.getColumnCount, t.cellAt columnId rowId ≠ none

/-- A table without NULLs has none in any row. -/
lemma nonNull_iff {t : Table R} : t.NonNull ↔ ∀ id ∈ t.rowIds, t.NonNullAt id := Iff.rfl

lemma columnDefinition_of_lt {t : Table R} {columnId : ℕ} (h : columnId < t.getColumnCount) :
    t.columnDefinitions[columnId]? = some (t.columnDefinition columnId) := by
  simp only [getColumnCount] at h
  simp [columnDefinition, h]

@[simp] lemma rows_mk_nil (definitions : List TableColumnDefinition) :
    (⟨definitions, []⟩ : Table R).rows = [] := rfl

lemma rows_mk_cons (definitions : List TableColumnDefinition) (c : Chunk R) (cs : List (Chunk R)) :
    (⟨definitions, c :: cs⟩ : Table R).rows = c.rows ++ (⟨definitions, cs⟩ : Table R).rows := by
  simp [rows]

@[simp] lemma rows_singleton (definitions : List TableColumnDefinition) (c : Chunk R) :
    (⟨definitions, [c]⟩ : Table R).rows = c.rows := by
  simp [rows]

lemma mem_rowIds {t : Table R} {id : RowId} :
    id ∈ t.rowIds ↔ id.chunkId < t.chunkCount ∧ id.chunkOffset < (t.getChunk id.chunkId).size := by
  simp only [rowIds, List.mem_flatMap, Prod.exists, List.mem_map, List.mem_range]
  constructor
  · rintro ⟨c, i, hc, k, hk, rfl⟩
    have hget := List.mem_zipIdx_iff_getElem?.mp hc
    simp only at hget
    obtain ⟨hi, hci⟩ := List.getElem?_eq_some_iff.mp hget
    refine ⟨hi, ?_⟩
    simpa [getChunk, hi, hci] using hk
  · rintro ⟨hi, hk⟩
    refine ⟨t.getChunk id.chunkId, id.chunkId, ?_, id.chunkOffset, hk, rfl⟩
    rw [List.mem_zipIdx_iff_getElem?]
    have hi' : id.chunkId < t.chunks.length := hi
    simp [getChunk, hi']

/-- What holds of the chunks with their ids holds along the chunks and their positions. -/
lemma getChunk_of_mem_zipIdx {t : Table R} {c : Chunk R} {i : ℕ} (h : (c, i) ∈ t.chunks.zipIdx) :
    t.getChunk i = c := by
  have hget := List.mem_zipIdx_iff_getElem?.mp h
  simp only at hget
  simp [getChunk, hget]

lemma rows_eq_map_rowAt (t : Table R) : t.rows = t.rowIds.map t.rowAt := by
  have h : t.rowIds.map t.rowAt = t.chunks.zipIdx.flatMap fun ci => ci.1.rows := by
    simp only [rowIds, List.map_flatMap, List.map_map]
    apply List.flatMap_congr
    rintro ⟨c, i⟩ hci
    simp [Chunk.rows, rowAt, getChunk_of_mem_zipIdx hci, Function.comp_def]
  rw [h, rows]
  conv_lhs => rw [← List.zipIdx_map_fst 0 t.chunks]
  rw [List.flatMap_map]

/-- The positions of the rows of one chunk. -/
def chunkRowIds (t : Table R) (chunkId : ℕ) : List RowId :=
  (List.range (t.getChunk chunkId).size).map (RowId.mk chunkId)

lemma mem_chunkRowIds {t : Table R} {chunkId : ℕ} {id : RowId} :
    id ∈ t.chunkRowIds chunkId ↔
      id.chunkId = chunkId ∧ id.chunkOffset < (t.getChunk chunkId).size := by
  obtain ⟨i, k⟩ := id
  simp only [chunkRowIds, List.mem_map, List.mem_range, RowId.mk.injEq]
  constructor
  · rintro ⟨k', hk', rfl, rfl⟩
    exact ⟨rfl, hk'⟩
  · rintro ⟨rfl, hk⟩
    exact ⟨k, hk, rfl, rfl⟩

/-- The positions, chunk id by chunk id. -/
lemma rowIds_eq_flatMap_range (t : Table R) :
    t.rowIds = (List.range t.chunkCount).flatMap t.chunkRowIds := by
  rw [rowIds, List.zipIdx_eq_map_range t.chunks ⟨[]⟩, List.flatMap_map]
  rfl

lemma rowCount_eq_sum_range (t : Table R) :
    t.rowCount = ((List.range t.chunkCount).map fun i => (t.getChunk i).size).sum := by
  rw [rowCount]
  congr 1
  apply List.ext_getElem
  · simp [chunkCount]
  · intro i h₁ h₂
    have hi : i < t.chunks.length := by simpa using h₁
    simp [getChunk, hi]

lemma length_rowIds (t : Table R) : t.rowIds.length = t.rowCount := by
  rw [rowIds_eq_flatMap_range, rowCount_eq_sum_range, List.length_flatMap]
  simp [chunkRowIds]

@[simp] lemma length_rows (t : Table R) : t.rows.length = t.rowCount := by
  rw [rows_eq_map_rowAt, List.length_map, length_rowIds]

lemma nodup_rowIds (t : Table R) : t.rowIds.Nodup := by
  rw [rowIds, List.nodup_flatMap]
  refine ⟨fun ci _ => ?_, ?_⟩
  · exact (List.nodup_range).map fun a b h => by simpa using h
  · refine List.pairwise_iff_getElem.mpr fun i j hi hj hij => ?_
    intro id h₁ h₂
    simp only [List.mem_map, List.mem_range, List.getElem_zipIdx] at h₁ h₂
    obtain ⟨a, -, rfl⟩ := h₁
    obtain ⟨b, -, hb⟩ := h₂
    simp at hb
    omega

/-- The positions of the rows are in ascending order. -/
lemma pairwise_rowIds (t : Table R) : t.rowIds.Pairwise (· < ·) := by
  rw [rowIds_eq_flatMap_range, List.pairwise_flatMap]
  refine ⟨fun i _ => ?_, List.pairwise_lt_range.imp fun {i j} hij => ?_⟩
  · rw [chunkRowIds, List.pairwise_map]
    exact List.pairwise_lt_range.imp RowId.mk_lt_mk.mpr
  · intro a ha b hb
    rw [RowId.lt_iff, (mem_chunkRowIds.mp ha).1, (mem_chunkRowIds.mp hb).1]
    exact .inl hij

namespace WellFormed

variable {t : Table R}

lemma getChunk (ht : t.WellFormed) {chunkId : ℕ} (h : chunkId < t.chunkCount) :
    (t.getChunk chunkId).WellFormed t.columnDefinitions := by
  have h' : chunkId < t.chunks.length := h
  apply ht.chunks
  simp [Table.getChunk, h']

lemma chunk_of_mem_rowIds (ht : t.WellFormed) {id : RowId} (h : id ∈ t.rowIds) :
    (t.getChunk id.chunkId).WellFormed t.columnDefinitions :=
  ht.getChunk (mem_rowIds.mp h).1

/-- The row at a position, column by column. -/
lemma rowAt_eq (ht : t.WellFormed) {id : RowId} (h : id ∈ t.rowIds) :
    t.rowAt id = (List.range t.getColumnCount).map fun columnId => t.cellAt columnId id := by
  rw [rowAt, Chunk.row_eq_map_getSegment, (ht.chunk_of_mem_rowIds h).length_segments]
  rfl

/-- The cell of a column at a position is a cell of the row at the position. -/
lemma getElem?_rowAt (ht : t.WellFormed) {id : RowId} (h : id ∈ t.rowIds) {columnId : ℕ}
    (hcol : columnId < t.getColumnCount) : (t.rowAt id)[columnId]? = some (t.cellAt columnId id) := by
  rw [ht.rowAt_eq h]
  simp [hcol]

/-- A table without columns has no rows. -/
lemma getColumnCount_pos (ht : t.WellFormed) {id : RowId} (h : id ∈ t.rowIds) :
    0 < t.getColumnCount := by
  obtain ⟨hchunk, hoffset⟩ := mem_rowIds.mp h
  refine Nat.pos_of_ne_zero fun hzero => ?_
  have hsegments : (t.getChunk id.chunkId).segments = [] :=
    List.length_eq_zero_iff.mp ((ht.getChunk hchunk).length_segments.trans hzero)
  rw [Chunk.size, hsegments] at hoffset
  exact absurd hoffset (Nat.not_lt_zero _)

lemma offset_lt_length (ht : t.WellFormed) {id : RowId} (h : id ∈ t.rowIds) {columnId : ℕ}
    (hcol : columnId < t.getColumnCount) :
    id.chunkOffset < ((t.getChunk id.chunkId).getSegment columnId).values.length := by
  have hsize := (ht.chunk_of_mem_rowIds h).size_getSegment hcol
  have hlt := (mem_rowIds.mp h).2
  rw [← hsize] at hlt
  exact hlt

lemma dataType_of_cellAt (ht : t.WellFormed) {id : RowId} (h : id ∈ t.rowIds) {columnId : ℕ}
    (hcol : columnId < t.getColumnCount) {v : Value R} (hv : t.cellAt columnId id = some v) :
    v.dataType = t.columnDataType columnId := by
  have hc := ht.chunk_of_mem_rowIds h
  have hlt : columnId < t.columnDefinitions.length := hcol
  rw [(hc.wellFormed_getSegment hcol).dataType_of_variantAt hv, hc.dataType_getSegment hcol]
  rw [columnDataType, columnDefinition, List.getD_eq_getElem?_getD, List.getElem?_eq_getElem hlt]
  rfl

lemma columnDataType_ne_null (ht : t.WellFormed) {columnId : ℕ} (hcol : columnId < t.getColumnCount) :
    t.columnDataType columnId ≠ .null :=
  ht.dataTypes _ (List.mem_of_getElem? (columnDefinition_of_lt hcol))

lemma dataType_storedAt [Zero R] (ht : t.WellFormed) {id : RowId} (h : id ∈ t.rowIds) {columnId : ℕ}
    (hcol : columnId < t.getColumnCount) :
    (t.storedAt columnId id).dataType = t.columnDataType columnId := by
  have hc := ht.chunk_of_mem_rowIds h
  have hlt := ht.offset_lt_length h hcol
  have hmem : t.storedAt columnId id ∈
      ((t.getChunk id.chunkId).getSegment columnId).values := by
    simp [storedAt, hlt]
  rw [(hc.wellFormed_getSegment hcol).typed _ hmem, hc.dataType_getSegment hcol, columnDataType,
    columnDefinition, List.getD_eq_getElem?_getD, List.getElem?_eq_getElem hcol]
  rfl

/-- A column that is not declared nullable holds a value in every row. -/
lemma cellAt_ne_none (ht : t.WellFormed) {id : RowId} (h : id ∈ t.rowIds) {columnId : ℕ}
    (hcol : columnId < t.getColumnCount) (hnull : t.columnIsNullable columnId = false) :
    t.cellAt columnId id ≠ none := by
  have hc := ht.chunk_of_mem_rowIds h
  have hnot := hc.not_null columnId _ (columnDefinition_of_lt hcol) hnull id.chunkOffset
  rw [cellAt, ValueSegment.variantAt_of_isNull_eq_false hnot]
  simpa using ht.offset_lt_length h hcol

/-- Where there is no NULL, the stored value is the cell. -/
lemma cellAt_eq_some_storedAt [Zero R] (ht : t.WellFormed) {id : RowId} (h : id ∈ t.rowIds)
    {columnId : ℕ} (hcol : columnId < t.getColumnCount) (hne : t.cellAt columnId id ≠ none) :
    t.cellAt columnId id = some (t.storedAt columnId id) := by
  have hlt := ht.offset_lt_length h hcol
  unfold cellAt ValueSegment.variantAt at hne ⊢
  split at hne
  · exact absurd rfl hne
  · next hnull =>
    rw [if_neg hnull]
    simp [storedAt, hlt]

/-- In a table without NULLs, a row consists of the stored values. -/
lemma rowAt_eq_storedRow [Zero R] (ht : t.WellFormed) (hnn : t.NonNull) {id : RowId}
    (h : id ∈ t.rowIds) : t.rowAt id = t.storedRow id := by
  rw [ht.rowAt_eq h, storedRow]
  refine List.map_congr_left fun i hi => ?_
  have hi' := List.mem_range.mp hi
  exact ht.cellAt_eq_some_storedAt h hi' (hnn id h i hi')

/-- A row consists of the stored values if and only if none of its cells is a NULL. -/
lemma rowAt_eq_storedRow_iff [Zero R] (ht : t.WellFormed) {id : RowId} (h : id ∈ t.rowIds) :
    t.rowAt id = t.storedRow id ↔ t.NonNullAt id := by
  rw [ht.rowAt_eq h, storedRow, List.map_inj_left]
  constructor
  · intro heq i hi
    rw [heq i (List.mem_range.mpr hi)]
    exact Option.some_ne_none _
  · intro hnn i hi
    exact ht.cellAt_eq_some_storedAt h (List.mem_range.mp hi) (hnn i (List.mem_range.mp hi))

lemma map_storedRow_eq_iff [Zero R] (ht : t.WellFormed) {positions : List RowId}
    (hpos : ∀ id ∈ positions, id ∈ t.rowIds) :
    positions.map t.storedRow = positions.map t.rowAt ↔ ∀ id ∈ positions, t.NonNullAt id := by
  rw [List.map_inj_left]
  exact forall₂_congr fun id hid => eq_comm.trans (ht.rowAt_eq_storedRow_iff (hpos id hid))

/-- Rows that are permuted stored rows have no NULLs. -/
lemma map_storedRow_perm_iff [Zero R] (ht : t.WellFormed) {positions : List RowId}
    (hpos : ∀ id ∈ positions, id ∈ t.rowIds) :
    (positions.map t.storedRow).Perm (positions.map t.rowAt) ↔
      ∀ id ∈ positions, t.NonNullAt id := by
  constructor
  · intro h id hid i hi hnone
    have hmem : t.rowAt id ∈ positions.map t.storedRow :=
      h.mem_iff.mpr (List.mem_map_of_mem hid)
    obtain ⟨id', -, hrow⟩ := List.mem_map.mp hmem
    have hcell := ht.getElem?_rowAt (hpos id hid) hi
    -- a stored row has a value in every column
    rw [← hrow, hnone, storedRow, List.getElem?_map, List.getElem?_range hi] at hcell
    cases hcell
  · intro h
    rw [(ht.map_storedRow_eq_iff hpos).mpr h]

/-- The stored values of a column in a chunk, offset by offset. -/
lemma values_eq_map_storedAt [Zero R] (ht : t.WellFormed) {chunkId : ℕ} (h : chunkId < t.chunkCount)
    {columnId : ℕ} (hcol : columnId < t.getColumnCount) :
    ((t.getChunk chunkId).getSegment columnId).values =
      (List.range (t.getChunk chunkId).size).map fun k => t.storedAt columnId ⟨chunkId, k⟩ := by
  have hsize := (ht.getChunk h).size_getSegment hcol
  rw [ValueSegment.size] at hsize
  apply List.ext_getElem
  · simp [hsize]
  · intro k h₁ h₂
    simp [storedAt, h₁]

lemma getD_rowAt (ht : t.WellFormed) {id : RowId} (h : id ∈ t.rowIds) {columnId : ℕ}
    (hcol : columnId < t.getColumnCount) : (t.rowAt id).getD columnId none = t.cellAt columnId id := by
  simp [List.getD_eq_getElem?_getD, ht.getElem?_rowAt h hcol]

end WellFormed

/-! ### Chunks of rows at given positions -/

section Gathers

variable [Zero R] {t : Table R} {c : Chunk R} {positions : List RowId}

/-- A chunk that holds the stored values at the given positions, column by column, none of them
marked as NULL. -/
structure Gathers (t : Table R) (positions : List RowId) (c : Chunk R) : Prop where
  length_segments : c.segments.length = t.getColumnCount
  dataType : ∀ i < t.getColumnCount, (c.getSegment i).dataType = t.columnDataType i
  values : ∀ i < t.getColumnCount, (c.getSegment i).values = positions.map (t.storedAt i)
  nullValues : ∀ i < t.getColumnCount, (c.getSegment i).nullValues = none ∨
    (c.getSegment i).nullValues = some (positions.map fun _ => false)

namespace Gathers

lemma cells (h : t.Gathers positions c) {i : ℕ} (hi : i < t.getColumnCount) :
    (c.getSegment i).cells = positions.map fun id => some (t.storedAt i id) := by
  have hvalues := h.values i hi
  rcases h.nullValues i hi with hnull | hnull
  · have hseg : c.getSegment i =
        .ofValues (c.getSegment i).dataType (positions.map (t.storedAt i)) := by
      rw [ValueSegment.ofValues, ← hvalues, ← hnull]
    rw [hseg, ValueSegment.cells_ofValues, List.map_map]
    rfl
  · have hseg : c.getSegment i = .ofNullable (c.getSegment i).dataType
        (positions.map (t.storedAt i)) (positions.map fun _ => false) := by
      rw [ValueSegment.ofNullable, ← hvalues, ← hnull]
    rw [hseg, ValueSegment.cells_ofNullable_map]
    simp

lemma map_segments (h : t.Gathers positions c) {β : Type*} (f : ValueSegment R → β) :
    c.segments.map f = (List.range t.getColumnCount).map fun i => f (c.getSegment i) := by
  apply List.ext_getElem
  · simp [h.length_segments]
  · intro i h₁ h₂
    have hi : i < c.segments.length := by simpa using h₁
    simp [Chunk.getSegment_of_lt hi]

lemma rows (h : t.Gathers positions c) (hcol : 0 < t.getColumnCount) :
    c.rows = positions.map t.storedRow := by
  have hne : (List.range t.getColumnCount).map (fun i id => some (t.storedAt i id)) ≠ [] := by
    simpa using hcol.ne'
  rw [Chunk.rows_eq_map_of_cells positions hne]
  · simp [storedRow, Function.comp_def]
  · rw [h.map_segments, List.map_map]
    exact List.map_congr_left fun i hi => h.cells (List.mem_range.mp hi)

/-- The rows at the given positions, also if there are no columns. -/
lemma rows_of_mem (h : t.Gathers positions c) (ht : t.WellFormed)
    (hpos : ∀ id ∈ positions, id ∈ t.rowIds) : c.rows = positions.map t.storedRow := by
  rcases Nat.eq_zero_or_pos t.getColumnCount with hzero | hcol
  · have hnil : positions = [] := by
      refine List.eq_nil_iff_forall_not_mem.mpr fun id hid => ?_
      exact absurd hzero (ht.getColumnCount_pos (hpos id hid)).ne'
    have hsegments : c.segments = [] := List.length_eq_zero_iff.mp (h.length_segments.trans hzero)
    rw [Chunk.rows, Chunk.size, hsegments, hnil]
    rfl
  · exact h.rows hcol

lemma isNull (h : t.Gathers positions c) {i : ℕ} (hi : i < t.getColumnCount) (k : ℕ) :
    (c.getSegment i).isNull k = false := by
  rw [ValueSegment.isNull]
  rcases h.nullValues i hi with hnull | hnull
  · rw [hnull]
  · rw [hnull]
    by_cases hk : k < positions.length <;> simp [hk]

lemma size (h : t.Gathers positions c) (hcol : 0 < t.getColumnCount) :
    c.size = positions.length := by
  rw [← Chunk.length_rows, h.rows hcol, List.length_map]

lemma wellFormed (h : t.Gathers positions c) (ht : t.WellFormed)
    (hcol : 0 < t.getColumnCount) (hpos : ∀ id ∈ positions, id ∈ t.rowIds) :
    c.WellFormed t.columnDefinitions := by
  have hmem : ∀ s ∈ c.segments, ∃ i < t.getColumnCount, s = c.getSegment i := by
    intro s hs
    obtain ⟨i, hi, rfl⟩ := List.getElem_of_mem hs
    exact ⟨i, h.length_segments ▸ hi, (Chunk.getSegment_of_lt hi).symm⟩
  refine ⟨?_, ?_, ?_, ?_⟩
  · rw [h.map_segments]
    apply List.ext_getElem
    · simp [getColumnCount]
    · intro i h₁ h₂
      have hi : i < t.columnDefinitions.length := by simpa using h₂
      simp [h.dataType i hi, columnDataType, columnDefinition, hi]
  · intro s hs
    obtain ⟨i, hi, rfl⟩ := hmem s hs
    refine ⟨h.dataType i hi ▸ ht.columnDataType_ne_null hi, ?_, ?_⟩
    · rw [h.values i hi, h.dataType i hi]
      intro v hv
      obtain ⟨id, hid, rfl⟩ := List.mem_map.mp hv
      exact ht.dataType_storedAt (hpos id hid) hi
    · intro nulls hnulls
      rcases h.nullValues i hi with hnull | hnull
      · rw [hnull] at hnulls
        cases hnulls
      · rw [hnull, Option.some_inj] at hnulls
        rw [← hnulls, h.values i hi]
        simp
  · intro s hs
    obtain ⟨i, hi, rfl⟩ := hmem s hs
    rw [h.size hcol, ValueSegment.size, h.values i hi, List.length_map]
  · intro i d hd _ k
    obtain ⟨hi, -⟩ := List.getElem?_eq_some_iff.mp hd
    exact h.isNull hi k

/-- A chunk with given rows, as a table of its own. -/
lemma wellFormed_table (h : t.Gathers positions c) (ht : t.WellFormed)
    (hcol : 0 < t.getColumnCount) (hpos : ∀ id ∈ positions, id ∈ t.rowIds) :
    (⟨t.columnDefinitions, [c]⟩ : Table R).WellFormed :=
  ⟨ht.dataTypes, by simpa using h.wellFormed ht hcol hpos⟩

lemma nonNull_table (h : t.Gathers positions c) :
    (⟨t.columnDefinitions, [c]⟩ : Table R).NonNull := by
  intro id hid i hi
  obtain ⟨hchunk, hoffset⟩ := mem_rowIds.mp hid
  obtain ⟨chunkId, k⟩ := id
  obtain rfl : chunkId = 0 := by simpa [chunkCount] using hchunk
  have hlen : c.size = positions.length := h.size (Nat.zero_lt_of_lt hi)
  have hk : k < (c.getSegment i).values.length := by
    rw [h.values i hi, List.length_map, ← hlen]
    exact hoffset
  have hcell : (⟨t.columnDefinitions, [c]⟩ : Table R).cellAt i ⟨0, k⟩ =
      (c.getSegment i).values[k]? :=
    ValueSegment.variantAt_of_isNull_eq_false (h.isNull hi k)
  rw [hcell, List.getElem?_eq_getElem hk]
  exact Option.some_ne_none _

end Gathers

end Gathers

/-- The rows of a table without NULLs, as stored. -/
lemma WellFormed.rows_eq_map_storedRow [Zero R] {t : Table R} (ht : t.WellFormed) (hnn : t.NonNull) :
    t.rows = t.rowIds.map t.storedRow := by
  rw [rows_eq_map_rowAt]
  exact List.map_congr_left fun id hid => ht.rowAt_eq_storedRow hnn hid

/-! ### Tables of integers -/

/-- A table with one column of integers, given chunk by chunk. -/
def ofInts (name : String) (chunks : List (List Int32)) : Table R where
  columnDefinitions := [⟨name, .int, false⟩]
  chunks := chunks.map fun values => ⟨[.ofValues .int (values.map .int)]⟩

variable {name : String} {chunks : List (List Int32)}

lemma wellFormed_ofInts : (ofInts name chunks : Table R).WellFormed := by
  refine ⟨by simp [ofInts], fun c hc => ?_⟩
  obtain ⟨values, -, rfl⟩ := List.mem_map.mp hc
  refine ⟨rfl, ?_, ?_, ?_⟩
  · simp only [List.mem_singleton, forall_eq]
    refine ValueSegment.wellFormed_ofValues (by decide) fun v hv => ?_
    obtain ⟨i, -, rfl⟩ := List.mem_map.mp hv
    rfl
  · simp [Chunk.size]
  · intro columnId d hd _ i
    obtain ⟨hlt, -⟩ := List.getElem?_eq_some_iff.mp hd
    obtain rfl : columnId = 0 := by simpa [ofInts] using hlt
    rfl

@[simp] lemma getColumnCount_ofInts : (ofInts name chunks : Table R).getColumnCount = 1 := rfl

lemma nonNull_ofInts : (ofInts name chunks : Table R).NonNull := by
  intro id hid columnId hcol
  obtain rfl : columnId = 0 := by simpa using hcol
  exact wellFormed_ofInts.cellAt_ne_none hid hcol rfl

lemma rows_ofInts : (ofInts name chunks : Table R).rows =
    chunks.flatten.map fun v => [some (.int v)] := by
  rw [rows, ofInts, List.flatMap_map, List.map_flatten, List.flatMap_def]
  congr 1
  refine List.map_congr_left fun values _ => ?_
  rw [Chunk.rows_eq_map_of_cells values (List.cons_ne_nil (fun v => some (.int v)) [])]
  · rfl
  · simp [ValueSegment.cells_ofValues, Function.comp_def]

end Table

end Skyrise

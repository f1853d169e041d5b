/-
Writing Parquet and ORC files, and reading them again.

`ParquetFormatWriter` gives the library the values of a segment with a definition
level for each row; the library takes a value from the array for every level that is
not that of a NULL.  `OrcFormatWriter` gives it an array of slots for each segment.
The readers take the values of all slots, so that what was NULL is a value
afterwards.
-/
import Skyrise.Storage.Formats.ColumnarReader
import Skyrise.Storage.Formats.ParquetWriter

namespace Skyrise

open Relational

variable {R : Type}

/-- The type of a column that the library stores, `SkyriseTypeToParquetType` and
`SkyriseTypeToOrcType`. -/
def skyriseTypeToArrowType : DataType → Except Exception ArrowType
  | .float => .ok .float
  | .double => .ok .double
  | .int => .ok .int32
  | .long => .ok .int64
  | .string => .ok .string
  | .null => .error (.assertionFailed "NULL is not a supported column type.")

/-! ### Parquet -/

namespace ParquetFormatWriter

/-- The cells for definition levels, where `true` stands for the level of a value: the values are
taken from the array one after the other. -/
def assembleCells : List Bool → List (Value R) → Except Exception (List (AllTypeVariant R))
  | [], _ => .ok []
  | false :: levels, values => do
    let cells ← assembleCells levels values
    return none :: cells
  | true :: levels, value :: values => do
    let cells ← assembleCells levels values
    return some value :: cells
  | true :: _, [] => .error .undefinedBehavior

/-- `WriteBatch` of the library: a column that is not optional has no definition levels, and those of
an optional column are read without a check. -/
def writeBatch (optional : Bool) (numValues : ℕ) (definitionLevels : Option (List Bool))
    (values : List (Value R)) : Except Exception (List (AllTypeVariant R)) :=
  if optional then
    match definitionLevels with
    | some levels => assembleCells (levels.take numValues) values
    | none => if numValues = 0 then .ok [] else .error .undefinedBehavior
  else .ok ((values.take numValues).map some)

/-- `GenericCopySegmentToParquetColumn` for strings, one value at a time. -/
def copyStrings (optional : Bool) (segment : ValueSegment R) :
    Except Exception (List (AllTypeVariant R)) := do
  let cells ← segment.values.zipIdx.mapM fun value =>
    writeBatch optional 1 (some [!segment.isNull value.2]) [value.1]
  return cells.flatten

/-- `GenericCopySegmentToParquetColumn` for numbers. -/
def copyNumbers (optional : Bool) (segment : ValueSegment R) :
    Except Exception (List (AllTypeVariant R)) :=
  writeBatch optional segment.size (segment.nullValues.map fun nulls => nulls.map (!·))
    segment.values

/-- `CopySegmentToParquetColumn`, to a column with a definition. -/
def copySegmentToParquetColumn (definition : TableColumnDefinition) (segment : ValueSegment R) :
    Except Exception (List (AllTypeVariant R)) :=
  if segment.dataType = definition.dataType then
    match segment.dataType with
    | .string => copyStrings definition.nullable segment
    | .null => .error (.assertionFailed "Invalid type found.")
    | _ => copyNumbers definition.nullable segment
  else .error .undefinedBehavior

/-- The columns of a row group: the segments of its chunks, one after the other. -/
def writeColumns (definitions : List TableColumnDefinition) (rowGroup : RowGroup R) :
    Except Exception (List (List (AllTypeVariant R))) :=
  definitions.zipIdx.mapM fun definition => do
    let cells ← rowGroup.mapM fun chunk =>
      copySegmentToParquetColumn definition.1 (chunk.getSegment definition.2)
    return cells.flatten

/-- The file of a writer that was initialized with a schema, was given chunks and was finalized. -/
def writeFile (memoryUsage : ValueSegment R → ℕ) (config : ParquetFormatWriterOptions)
    (definitions : List TableColumnDefinition) (chunks : List (Chunk R)) :
    Except Exception (ColumnarFile R) := do
  let types ← definitions.mapM fun definition => skyriseTypeToArrowType definition.dataType
  let rowGroups ← (writeRowGroups memoryUsage config chunks).mapM (writeColumns definitions)
  return { types, rowGroups }

end ParquetFormatWriter

/-! ### ORC -/

namespace OrcFormatWriter

/-- `CopySegmentToArrowArray`, with `ValueSegmentToArray`. -/
def copySegmentToArrowArray (segment : ValueSegment R) :
    Except Exception (List (AllTypeVariant R)) :=
  if segment.dataType = .null then .error (.assertionFailed "Invalid type found.")
  else .ok (segment.values.zipIdx.map fun value =>
    if segment.isNull value.2 then none else some value.1)

/-- The file of a writer that was initialized with a schema, was given chunks and was finalized. -/
def writeFile (definitions : List TableColumnDefinition) (chunks : List (Chunk R)) :
    Except Exception (ColumnarFile R) := do
  let types ← definitions.mapM fun definition => skyriseTypeToArrowType definition.dataType
  let rowGroups ← chunks.mapM fun chunk => chunk.segments.mapM copySegmentToArrowArray
  return { types, rowGroups }

end OrcFormatWriter

/-! ### Segments that are written -/

/-- The cells of a segment, from its values and flags. -/
lemma ValueSegment.cells_eq_map_zipIdx (s : ValueSegment R) :
    s.cells = s.values.zipIdx.map fun value => if s.isNull value.2 then none else some value.1 := by
  refine List.ext_getElem (by simp [size]) fun i h₁ h₂ => ?_
  have hi : i < s.values.length := by simpa using h₂
  simp [cells, variantAt, hi]

/-- A segment that fits a column: its type is that of the column, and it has no NULL unless the column
is nullable. -/
structure ValueSegment.Fits (definition : TableColumnDefinition) (s : ValueSegment R) : Prop where
  wellFormed : s.WellFormed
  dataType_eq : s.dataType = definition.dataType
  isNull_eq_false : definition.nullable = false → ∀ i, s.isNull i = false

/-- Numbers of a nullable column are written with the flags of the segment. -/
def ValueSegment.HasNullVector (definition : TableColumnDefinition) (s : ValueSegment R) : Prop :=
  definition.nullable = true → definition.dataType ≠ .string → s.isNullable = true ∨ s.size = 0

namespace ParquetFormatWriter

lemma exists_assembleCells {levels : List Bool} {values : List (Value R)}
    (h : levels.length ≤ values.length) :
    ∃ cells, assembleCells levels values = .ok cells ∧ cells.length = levels.length := by
  induction levels generalizing values with
  | nil => exact ⟨[], rfl, rfl⟩
  | cons level levels ih =>
    obtain ⟨value, values, rfl⟩ := List.exists_cons_of_length_pos
      (Nat.lt_of_lt_of_le (Nat.succ_pos _) h)
    have h' : levels.length ≤ values.length := Nat.le_of_succ_le_succ h
    cases level with
    | false =>
      obtain ⟨cells, hcells, hlength⟩ := @ih (value :: values) (Nat.le_succ_of_le h')
      exact ⟨none :: cells, by rw [assembleCells, hcells]; rfl, by simp [hlength]⟩
    | true =>
      obtain ⟨cells, hcells, hlength⟩ := ih h'
      exact ⟨some value :: cells, by rw [assembleCells, hcells]; rfl, by simp [hlength]⟩

/-- Where no level is that of a NULL, the values are written as they are. -/
lemma assembleCells_of_all {levels : List Bool} {values : List (Value R)}
    (hlength : levels.length = values.length) (h : ∀ level ∈ levels, level = true) :
    assembleCells levels values = .ok (values.map some) := by
  induction levels generalizing values with
  | nil =>
    rw [List.length_eq_zero_iff.mp hlength.symm]
    rfl
  | cons level levels ih =>
    obtain ⟨value, values, rfl⟩ := List.exists_of_length_succ values hlength.symm
    rw [List.forall_mem_cons] at h
    rw [h.1, assembleCells, ih (Nat.succ.inj hlength) h.2]
    rfl

variable {definition : TableColumnDefinition} {s : ValueSegment R}

lemma copyStrings_eq_ok (hs : s.Fits definition) :
    copyStrings definition.nullable s = .ok s.cells := by
  have hbatch : ∀ value ∈ s.values.zipIdx,
      writeBatch definition.nullable 1 (some [!s.isNull value.2]) [value.1] =
        .ok [if s.isNull value.2 then none else some value.1] := by
    rintro ⟨v, i⟩ -
    cases hnullable : definition.nullable with
    | false => simp [writeBatch, hs.isNull_eq_false hnullable]
    | true =>
      cases s.isNull i <;> simp [writeBatch, assembleCells, bind, Except.bind, pure, Except.pure]
  rw [copyStrings, mapM_eq_ok hbatch, ValueSegment.cells_eq_map_zipIdx]
  show Except.ok (List.flatten _) = _
  rw [← List.flatMap_def, ← List.map_eq_flatMap]

lemma cells_of_isNull_eq_false (h : ∀ i, s.isNull i = false) : s.cells = s.values.map some := by
  rw [ValueSegment.cells_eq_map_zipIdx]
  refine List.ext_getElem (by simp) fun i h₁ h₂ => ?_
  simp [h]

/-- Numbers are written if the flags are there. -/
lemma copyNumbers_spec (hs : s.Fits definition) (hstring : definition.dataType ≠ .string) :
    ((∃ cells, copyNumbers definition.nullable s = .ok cells) ↔ s.HasNullVector definition) ∧
    (∀ cells, copyNumbers definition.nullable s = .ok cells → cells.length = s.size) ∧
    (s.HasNullVector definition → (∀ i, s.isNull i = false) →
      copyNumbers definition.nullable s = .ok s.cells) := by
  have htake : s.values.take s.size = s.values := List.take_length
  cases hnullable : definition.nullable with
  | false =>
    have hwrite : copyNumbers false s = .ok (s.values.map some) := by
      simp only [copyNumbers, writeBatch, Bool.false_eq_true, if_false, htake]
    have hvector : s.HasNullVector definition := fun h => absurd (hnullable.symm.trans h) (by simp)
    refine ⟨iff_of_true ⟨_, hwrite⟩ hvector, fun cells hcells => ?_, fun _ hnull => ?_⟩
    · rw [← Except.ok.inj (hwrite.symm.trans hcells), List.length_map, ValueSegment.size]
    · rw [hwrite, cells_of_isNull_eq_false hnull]
  | true =>
    cases hnulls : s.nullValues with
    | none =>
      -- the library reads levels that are not there
      have hwrite : copyNumbers true s = if s.size = 0 then .ok [] else .error .undefinedBehavior := by
        simp only [copyNumbers, writeBatch, if_true, hnulls, Option.map_none]
      have hvector : s.HasNullVector definition ↔ s.size = 0 := by
        simp [ValueSegment.HasNullVector, hnullable, hstring, ValueSegment.isNullable, hnulls]
      rw [hwrite, hvector]
      by_cases hsize : s.size = 0
      · have hcells : s.cells = [] := List.length_eq_zero_iff.mp (by rw [s.length_cells, hsize])
        rw [if_pos hsize, hcells]
        refine ⟨iff_of_true ⟨_, rfl⟩ hsize, fun cells h => ?_, fun _ _ => rfl⟩
        rw [← Except.ok.inj h, hsize]
        rfl
      · rw [if_neg hsize]
        refine ⟨iff_of_false ?_ hsize, ?_, fun h => absurd h hsize⟩
        · rintro ⟨cells, h⟩
          cases h
        · rintro cells h
          cases h
    | some nulls =>
      have hlength := hs.wellFormed.nulls_length nulls hnulls
      have hlevels : (nulls.map (!·)).take s.size = nulls.map (!·) :=
        List.take_of_length_le (by rw [List.length_map, hlength, ValueSegment.size])
      have hwrite : copyNumbers true s = assembleCells (nulls.map (!·)) s.values := by
        simp only [copyNumbers, writeBatch, if_true, hnulls, Option.map_some, hlevels]
      have hvector : s.HasNullVector definition := fun _ _ => .inl (by
        rw [ValueSegment.isNullable, hnulls]
        rfl)
      obtain ⟨cells, hcells, hcount⟩ := exists_assembleCells
        (by rw [List.length_map, hlength] : (nulls.map (!·)).length ≤ s.values.length)
      rw [hwrite]
      refine ⟨iff_of_true ⟨cells, hcells⟩ hvector, fun cells' h => ?_, fun _ hnull => ?_⟩
      · rw [← Except.ok.inj (hcells.symm.trans h), hcount, List.length_map, hlength,
          ValueSegment.size]
      · rw [cells_of_isNull_eq_false hnull]
        refine assembleCells_of_all (by rw [List.length_map, hlength]) fun level hlevel => ?_
        obtain ⟨flag, hflag, rfl⟩ := List.mem_map.mp hlevel
        obtain ⟨i, hi, rfl⟩ := List.getElem_of_mem hflag
        have hnot := hnull i
        rw [ValueSegment.isNull, hnulls] at hnot
        simpa [hi] using hnot

/-- A segment is written if it has flags where they are needed. -/
lemma copySegmentToParquetColumn_spec (hs : s.Fits definition) :
    ((∃ cells, copySegmentToParquetColumn definition s = .ok cells) ↔
      s.HasNullVector definition) ∧
    (∀ cells, copySegmentToParquetColumn definition s = .ok cells → cells.length = s.size) ∧
    (s.HasNullVector definition → (∀ i, s.isNull i = false) →
      copySegmentToParquetColumn definition s = .ok s.cells) := by
  rw [copySegmentToParquetColumn, if_pos hs.dataType_eq]
  by_cases hstring : definition.dataType = .string
  · rw [hs.dataType_eq, hstring]
    simp only
    rw [copyStrings_eq_ok hs]
    refine ⟨iff_of_true ⟨_, rfl⟩ fun _ h => absurd hstring h, fun cells h => ?_, fun _ _ => rfl⟩
    rw [← Except.ok.inj h, s.length_cells]
  · have hspec := copyNumbers_spec hs hstring
    have hnull := hs.wellFormed.dataType_ne_null
    rw [← hs.dataType_eq] at hstring
    cases hdataType : s.dataType
    case null => exact absurd hdataType hnull
    case string => exact absurd hdataType hstring
    all_goals exact hspec

end ParquetFormatWriter

/-! ### Chunks that are written -/

namespace Chunk

variable {definitions : List TableColumnDefinition} {c : Chunk R}

/-- The cells of the columns. -/
def block (c : Chunk R) : List (List (AllTypeVariant R)) := c.segments.map ValueSegment.cells

/-- Numbers of nullable columns have flags. -/
def HasNullVectors (definitions : List TableColumnDefinition) (c : Chunk R) : Prop :=
  ∀ (columnId : ℕ) (definition : TableColumnDefinition),
    definitions[columnId]? = some definition → (c.getSegment columnId).HasNullVector definition

/-- No cell is NULL. -/
def HasNoNulls (c : Chunk R) : Prop := ∀ row ∈ c.rows, none ∉ row

namespace WellFormed

lemma fits (hc : c.WellFormed definitions) {columnId : ℕ} {definition : TableColumnDefinition}
    (h : definitions[columnId]? = some definition) : (c.getSegment columnId).Fits definition := by
  obtain ⟨hlt, rfl⟩ := List.getElem?_eq_some_iff.mp h
  exact ⟨hc.wellFormed_getSegment hlt, hc.dataType_getSegment hlt, hc.not_null columnId _ h⟩

lemma rectangular (hc : c.WellFormed definitions) : Rectangular definitions.length c.block := by
  refine ⟨by rw [block, List.length_map, hc.length_segments], fun column hcolumn => ?_⟩
  obtain ⟨s, hs, rfl⟩ := List.mem_map.mp hcolumn
  rw [s.length_cells, hc.sizes s hs, Chunk.size, block]
  cases c.segments with
  | nil => rfl
  | cons first segments => rw [List.map_cons, List.headD_cons, first.length_cells]

lemma rows_eq (hc : c.WellFormed definitions) : c.rows = rowsOf c.block :=
  Chunk.rows_eq_rowsOf hc.sizes

lemma getD_block (hc : c.WellFormed definitions) {columnId : ℕ} (h : columnId < definitions.length) :
    c.block.getD columnId [] = (c.getSegment columnId).cells := by
  have hlt : columnId < c.segments.length := hc.length_segments ▸ h
  rw [block, Chunk.getSegment_of_lt hlt, List.getD_eq_getElem?_getD, List.getElem?_map,
    List.getElem?_eq_getElem hlt]
  rfl

/-- In a chunk without NULLs no flag is set. -/
lemma isNull_eq_false (hc : c.WellFormed definitions) (hnone : c.HasNoNulls) {columnId : ℕ}
    (h : columnId < definitions.length) (i : ℕ) : (c.getSegment columnId).isNull i = false := by
  have hs := hc.wellFormed_getSegment h
  by_contra hnull
  rw [Bool.not_eq_false] at hnull
  have hi : i < (c.getSegment columnId).size := by
    rw [ValueSegment.isNull] at hnull
    cases hnulls : (c.getSegment columnId).nullValues with
    | none => simp [hnulls] at hnull
    | some nulls =>
      rw [hnulls] at hnull
      by_contra hle
      rw [ValueSegment.size, ← hs.nulls_length nulls hnulls] at hle
      simp [Nat.le_of_not_lt hle] at hnull
  have hcolumns : ∀ column ∈ c.block, none ∉ column := by
    rw [← none_notMem_rowsOf_iff hc.rectangular, ← hc.rows_eq]
    exact hnone
  refine hcolumns _ (List.mem_map_of_mem (hc.getSegment_mem h)) ?_
  refine List.mem_map.mpr ⟨i, List.mem_range.mpr hi, ?_⟩
  rw [ValueSegment.variantAt, if_pos hnull]

end WellFormed

end Chunk

namespace ParquetFormatWriter

variable {definitions : List TableColumnDefinition} {rowGroup : RowGroup R}

lemma mem_zipIdx {definition : TableColumnDefinition × ℕ} (h : definition ∈ definitions.zipIdx) :
    definitions[definition.2]? = some definition.1 := List.mem_zipIdx_iff_getElem?.mp h

/-- A row group is written if the flags are there; all of its columns have a cell for each row. -/
lemma exists_writeColumns_iff (hchunks : ∀ c ∈ rowGroup, c.WellFormed definitions) :
    (∃ columns, writeColumns definitions rowGroup = .ok columns) ↔
      ∀ c ∈ rowGroup, c.HasNullVectors definitions := by
  have hcolumn : ∀ definition ∈ definitions.zipIdx, (∃ column, (do
      let cells ← rowGroup.mapM fun chunk =>
        copySegmentToParquetColumn definition.1 (chunk.getSegment definition.2)
      return cells.flatten) = Except.ok column) ↔
      ∀ c ∈ rowGroup, (c.getSegment definition.2).HasNullVector definition.1 := by
    intro definition hdefinition
    have hspec := fun c hc =>
      (copySegmentToParquetColumn_spec ((hchunks c hc).fits (mem_zipIdx hdefinition))).1
    constructor
    · rintro ⟨column, h⟩ c hc
      obtain ⟨cells, hcells, -⟩ := exists_of_bind_eq_ok h
      exact (hspec c hc).mp (exists_mapM_eq_ok_iff.mp ⟨cells, hcells⟩ c hc)
    · intro h
      obtain ⟨cells, hcells⟩ := exists_mapM_eq_ok_iff.mpr fun c hc => (hspec c hc).mpr (h c hc)
      exact ⟨cells.flatten, by rw [hcells]; rfl⟩
  rw [writeColumns, exists_mapM_eq_ok_iff]
  constructor
  · intro h c hc columnId definition hdefinition
    have hmem : (definition, columnId) ∈ definitions.zipIdx :=
      List.mem_zipIdx_iff_getElem?.mpr hdefinition
    exact (hcolumn _ hmem).mp (h _ hmem) c hc
  · exact fun h definition hdefinition => (hcolumn definition hdefinition).mpr fun c hc =>
      h c hc _ _ (mem_zipIdx hdefinition)

lemma rectangular_of_writeColumns (hchunks : ∀ c ∈ rowGroup, c.WellFormed definitions)
    {columns : List (List (AllTypeVariant R))}
    (h : writeColumns definitions rowGroup = .ok columns) :
    Rectangular definitions.length columns := by
  rw [writeColumns, mapM_eq_ok_iff] at h
  have hlengths : ∀ column ∈ columns, column.length = (rowGroup.map Chunk.size).sum := by
    refine h.forall_mem_right fun definition hdefinition column hcolumn => ?_
    obtain ⟨cells, hcells, hflatten⟩ := exists_of_bind_eq_ok hcolumn
    obtain rfl := Except.ok.inj hflatten
    have hsizes : rowGroup.map Chunk.size = cells.map List.length := by
      rw [← List.forall₂_eq_eq_eq, List.forall₂_map_left_iff, List.forall₂_map_right_iff]
      refine (mapM_eq_ok_iff.mp hcells).imp_of_mem fun c hc cell hcell => ?_
      have hget := mem_zipIdx hdefinition
      obtain ⟨hlt, -⟩ := List.getElem?_eq_some_iff.mp hget
      rw [(copySegmentToParquetColumn_spec ((hchunks c hc).fits hget)).2.1 cell hcell,
        (hchunks c hc).size_getSegment hlt]
    rw [List.length_flatten, hsizes]
  exact rectangular_of_length (by rw [← h.length_eq, List.length_zipIdx]) hlengths

lemma writeColumns_eq_ok (hchunks : ∀ c ∈ rowGroup, c.WellFormed definitions)
    (hvectors : ∀ c ∈ rowGroup, c.HasNullVectors definitions)
    (hnone : ∀ c ∈ rowGroup, c.HasNoNulls) : writeColumns definitions rowGroup =
      .ok (joined definitions.length (rowGroup.map Chunk.block)) := by
  have hcolumn : ∀ definition ∈ definitions.zipIdx, (do
      let cells ← rowGroup.mapM fun chunk =>
        copySegmentToParquetColumn definition.1 (chunk.getSegment definition.2)
      return cells.flatten) = Except.ok (ε := Exception)
        (rowGroup.flatMap fun c => c.block.getD definition.2 []) := by
    intro definition hdefinition
    have hget := mem_zipIdx hdefinition
    obtain ⟨hlt, -⟩ := List.getElem?_eq_some_iff.mp hget
    have hcells : ∀ c ∈ rowGroup,
        copySegmentToParquetColumn definition.1 (c.getSegment definition.2) =
          .ok (c.block.getD definition.2 []) := fun c hc => by
      rw [(hchunks c hc).getD_block hlt]
      exact (copySegmentToParquetColumn_spec ((hchunks c hc).fits hget)).2.2
        (hvectors c hc _ _ hget) ((hchunks c hc).isNull_eq_false (hnone c hc) hlt)
    rw [mapM_eq_ok hcells, List.flatMap_def]
    rfl
  rw [writeColumns, mapM_eq_ok hcolumn, joined]
  refine congrArg Except.ok (List.ext_getElem (by simp) fun i h₁ h₂ => ?_)
  simp [List.flatMap_map]

end ParquetFormatWriter

/-! ### Files that are written and read -/

section RoundTrip

variable {definitions : List TableColumnDefinition} {chunks : List (Chunk R)}

lemma exists_mapM_skyriseTypeToArrowType (htypes : ∀ d ∈ definitions, d.dataType ≠ .null) :
    ∃ types, (definitions.mapM fun definition => skyriseTypeToArrowType definition.dataType) =
      .ok types ∧ types.length = definitions.length := by
  obtain ⟨types, htypes'⟩ := exists_mapM_eq_ok_iff.mpr fun d hd => by
    have hne := htypes d hd
    show ∃ type, skyriseTypeToArrowType d.dataType = .ok type
    cases hd : d.dataType
    case null => exact absurd hd hne
    all_goals exact ⟨_, rfl⟩
  exact ⟨types, htypes', (mapM_eq_ok_iff.mp htypes').length_eq.symm⟩

/-- Chunks without NULLs have the rows of their blocks. -/
lemma rows_joined_block (hchunks : ∀ c ∈ chunks, c.WellFormed definitions) :
    rowsOf (joined definitions.length (chunks.map Chunk.block)) = chunks.flatMap Chunk.rows := by
  rw [rowsOf_joined (List.forall_mem_map.mpr fun c hc => (hchunks c hc).rectangular),
    List.flatMap_map]
  exact List.flatMap_congr fun c hc => (hchunks c hc).rows_eq.symm

namespace ParquetFormatWriter

variable {memoryUsage : ValueSegment R → ℕ} {config : ParquetFormatWriterOptions}

lemma mem_of_mem_writeRowGroups {rowGroup : RowGroup R} {c : Chunk R}
    (hrowGroup : rowGroup ∈ writeRowGroups memoryUsage config chunks) (hc : c ∈ rowGroup) :
    c ∈ chunks := by
  have hflatten : (writeRowGroups memoryUsage config chunks).flatten = chunks :=
    flatten_writeRowGroups chunks
  rw [← hflatten]
  exact List.mem_flatten.mpr ⟨rowGroup, hrowGroup, hc⟩

/-- A file is written if the flags are there. -/
lemma exists_writeFile_iff (htypes : ∀ d ∈ definitions, d.dataType ≠ .null)
    (hchunks : ∀ c ∈ chunks, c.WellFormed definitions) :
    (∃ file, writeFile memoryUsage config definitions chunks = .ok file) ↔
      ∀ c ∈ chunks, c.HasNullVectors definitions := by
  obtain ⟨types, htypes, -⟩ := exists_mapM_skyriseTypeToArrowType htypes
  have hrowGroups : (∃ rowGroups, (writeRowGroups memoryUsage config chunks).mapM
      (writeColumns definitions) = .ok rowGroups) ↔ ∀ c ∈ chunks, c.HasNullVectors definitions := by
    rw [exists_mapM_eq_ok_iff]
    constructor
    · intro h c hc
      have hflatten : (writeRowGroups memoryUsage config chunks).flatten = chunks :=
        flatten_writeRowGroups chunks
      rw [← hflatten] at hc
      obtain ⟨rowGroup, hrowGroup, hc⟩ := List.mem_flatten.mp hc
      exact (exists_writeColumns_iff fun c hc =>
        hchunks c (mem_of_mem_writeRowGroups hrowGroup hc)).mp (h rowGroup hrowGroup) c hc
    · exact fun h rowGroup hrowGroup => (exists_writeColumns_iff fun c hc =>
        hchunks c (mem_of_mem_writeRowGroups hrowGroup hc)).mpr fun c hc =>
          h c (mem_of_mem_writeRowGroups hrowGroup hc)
  rw [← hrowGroups, writeFile, htypes]
  constructor
  · rintro ⟨file, h⟩
    obtain ⟨_, -, h⟩ := exists_of_bind_eq_ok h
    obtain ⟨rowGroups, hrowGroups, -⟩ := exists_of_bind_eq_ok h
    exact ⟨rowGroups, hrowGroups⟩
  · rintro ⟨rowGroups, h⟩
    exact ⟨_, by rw [h]; rfl⟩

/-- The columns of a row group have the same length; without NULLs the file has the rows of the
chunks. -/
lemma writeFile_spec (htypes : ∀ d ∈ definitions, d.dataType ≠ .null)
    (hchunks : ∀ c ∈ chunks, c.WellFormed definitions) {file : ColumnarFile R}
    (h : writeFile memoryUsage config definitions chunks = .ok file) :
    file.WellFormed ∧ ((∀ c ∈ chunks, c.HasNoNulls) →
      file.rowGroups.flatMap rowsOf = chunks.flatMap Chunk.rows) := by
  have hvectors := (exists_writeFile_iff htypes hchunks).mp ⟨file, h⟩
  obtain ⟨types, htypes, hlength⟩ := exists_mapM_skyriseTypeToArrowType htypes
  obtain ⟨_, htypes', h⟩ := exists_of_bind_eq_ok h
  obtain rfl := Except.ok.inj (htypes.symm.trans htypes')
  obtain ⟨rowGroups, hrowGroups, hfile⟩ := exists_of_bind_eq_ok h
  obtain rfl := Except.ok.inj hfile
  constructor
  · rw [ColumnarFile.WellFormed, hlength]
    refine (mapM_eq_ok_iff.mp hrowGroups).forall_mem_right fun rowGroup hrowGroup columns => ?_
    exact rectangular_of_writeColumns fun c hc => hchunks c (mem_of_mem_writeRowGroups hrowGroup hc)
  · intro hnone
    have hcolumns : ∀ rowGroup ∈ writeRowGroups memoryUsage config chunks,
        writeColumns definitions rowGroup =
          .ok (joined definitions.length (rowGroup.map Chunk.block)) := fun rowGroup hrowGroup =>
      writeColumns_eq_ok (fun c hc => hchunks c (mem_of_mem_writeRowGroups hrowGroup hc))
        (fun c hc => hvectors c (mem_of_mem_writeRowGroups hrowGroup hc))
        fun c hc => hnone c (mem_of_mem_writeRowGroups hrowGroup hc)
    obtain rfl := Except.ok.inj ((mapM_eq_ok hcolumns).symm.trans hrowGroups)
    have hflatten : (writeRowGroups memoryUsage config chunks).flatten = chunks :=
      flatten_writeRowGroups chunks
    conv_rhs => rw [← hflatten, ← List.flatMap_id, List.flatMap_assoc]
    rw [List.flatMap_map]
    refine List.flatMap_congr fun rowGroup hrowGroup => ?_
    exact rows_joined_block fun c hc => hchunks c (mem_of_mem_writeRowGroups hrowGroup hc)

end ParquetFormatWriter

namespace OrcFormatWriter

/-- A file is always written, with the cells of the chunks. -/
lemma writeFile_eq_ok (htypes : ∀ d ∈ definitions, d.dataType ≠ .null)
    (hchunks : ∀ c ∈ chunks, c.WellFormed definitions) :
    ∃ file : ColumnarFile R, writeFile definitions chunks = .ok file ∧ file.WellFormed ∧
      file.rowGroups.flatMap rowsOf = chunks.flatMap Chunk.rows := by
  obtain ⟨types, htypes, hlength⟩ := exists_mapM_skyriseTypeToArrowType htypes
  have hsegments : ∀ c ∈ chunks, c.segments.mapM copySegmentToArrowArray = .ok c.block := by
    intro c hc
    refine mapM_eq_ok fun s hs => ?_
    rw [copySegmentToArrowArray, if_neg ((hchunks c hc).segments s hs).dataType_ne_null,
      s.cells_eq_map_zipIdx]
  refine ⟨⟨types, chunks.map Chunk.block⟩, ?_, ?_, ?_⟩
  · rw [writeFile, htypes, mapM_eq_ok hsegments]
    rfl
  · rw [ColumnarFile.WellFormed, hlength, List.forall_mem_map]
    exact fun c hc => (hchunks c hc).rectangular
  · rw [List.flatMap_map]
    exact List.flatMap_congr fun c hc => (hchunks c hc).rows_eq.symm

end OrcFormatWriter

/-- The rows of the chunks that a reader returns for a file. -/
def readRows (scan : ColumnarFile R → List (RecordBatch R)) (file : ColumnarFile R) :
    Except Exception (List (List (AllTypeVariant R))) := do
  let chunks ← ColumnarReader.readChunks ((scan file).length + 1) { batchIterator := scan file }
  return chunks.flatMap Chunk.rows

lemma readRows_eq_ok (scan : ColumnarFile R → List (RecordBatch R)) (file : ColumnarFile R) :
    readRows scan file = .ok (((scan file).map RecordBatch.toChunk).flatMap Chunk.rows) := by
  rw [readRows, ColumnarReader.readChunks_eq_ok (Nat.lt_succ_self _)]
  rfl

/-- A file is read as it is if and only if it has no NULL. -/
lemma readRows_eq_ok_iff {scan : ColumnarFile R → List (RecordBatch R)}
    (hscan : ∀ file : ColumnarFile R, file.WellFormed → file.Scanned (scan file))
    {file : ColumnarFile R} (hfile : file.WellFormed)
    (hrows : (∀ c ∈ chunks, c.HasNoNulls) →
      file.rowGroups.flatMap rowsOf = chunks.flatMap Chunk.rows) :
    readRows scan file = .ok (chunks.flatMap Chunk.rows) ↔ ∀ c ∈ chunks, c.HasNoNulls := by
  rw [readRows_eq_ok]
  constructor
  · intro h c hc row hrow
    refine (hscan file hfile).none_notMem_rows row ?_
    rw [Except.ok.inj h]
    exact List.mem_flatMap.mpr ⟨c, hc, hrow⟩
  · intro hnone
    refine congrArg Except.ok ?_
    rw [(hscan file hfile).rows_of_none_notMem hfile (fun row hrow => ?_), hrows hnone]
    rw [hrows hnone] at hrow
    obtain ⟨c, hc, hrow⟩ := List.mem_flatMap.mp hrow
    exact hnone c hc row hrow

end RoundTrip

/-- **A table survives being written and read** if and only if it has no NULL and, for Parquet, the
numbers of nullable columns have flags: the readers copy the values of all slots, also of those
that are NULL. -/
theorem columnar_roundTrip_iff {scanParquet scanOrc : ColumnarFile R → List (RecordBatch R)}
    (hparquet : ∀ file : ColumnarFile R, file.WellFormed → file.Scanned (scanParquet file))
    (horc : ∀ file : ColumnarFile R, file.WellFormed → file.Scanned (scanOrc file))
    (memoryUsage : ValueSegment R → ℕ) (config : ParquetFormatWriterOptions)
    {definitions : List TableColumnDefinition} (htypes : ∀ d ∈ definitions, d.dataType ≠ .null)
    {chunks : List (Chunk R)} (hchunks : ∀ c ∈ chunks, c.WellFormed definitions) :
    ((∃ file, ParquetFormatWriter.writeFile memoryUsage config definitions chunks = .ok file ∧
        readRows scanParquet file = .ok (chunks.flatMap Chunk.rows)) ↔
      ∀ c ∈ chunks, c.HasNoNulls ∧ c.HasNullVectors definitions) ∧
    ((∃ file, OrcFormatWriter.writeFile definitions chunks = .ok file ∧
        readRows scanOrc file = .ok (chunks.flatMap Chunk.rows)) ↔
      ∀ c ∈ chunks, c.HasNoNulls) := by
  constructor
  · constructor
    · rintro ⟨file, hfile, hread⟩ c hc
      obtain ⟨hwellFormed, hrows⟩ := ParquetFormatWriter.writeFile_spec htypes hchunks hfile
      exact ⟨(readRows_eq_ok_iff hparquet hwellFormed hrows).mp hread c hc,
        (ParquetFormatWriter.exists_writeFile_iff htypes hchunks).mp ⟨file, hfile⟩ c hc⟩
    · intro h
      have hwritten : ∃ file, ParquetFormatWriter.writeFile memoryUsage config definitions chunks =
          .ok file :=
        (ParquetFormatWriter.exists_writeFile_iff htypes hchunks).mpr fun c hc => (h c hc).2
      obtain ⟨file, hfile⟩ := hwritten
      obtain ⟨hwellFormed, hrows⟩ := ParquetFormatWriter.writeFile_spec htypes hchunks hfile
      exact ⟨file, hfile, (readRows_eq_ok_iff hparquet hwellFormed hrows).mpr fun c hc => (h c hc).1⟩
  · obtain ⟨file, hfile, hwellFormed, hrows⟩ := OrcFormatWriter.writeFile_eq_ok htypes hchunks
    rw [← readRows_eq_ok_iff horc hwellFormed fun _ => hrows]
    constructor
    · rintro ⟨file', hfile', hread⟩
      rwa [Except.ok.inj (hfile.symm.trans hfile')]
    · exact fun hread => ⟨file, hfile, hread⟩

/-- A nullable column of integers. -/
def nullableInts : List TableColumnDefinition := [⟨"number", .int, true⟩]

/-- A chunk with a NULL, or not, and the number 7. -/
def sevenAfter (null : Bool) : Chunk ℚ :=
  ⟨[.ofNullable .int [.int 0, .int 7] [null, false]]⟩

lemma wellFormed_sevenAfter (null : Bool) : (sevenAfter null).WellFormed nullableInts := by
  refine ⟨rfl, List.forall_mem_singleton.mpr ?_, List.forall_mem_singleton.mpr rfl, ?_⟩
  · exact ValueSegment.wellFormed_ofNullable (by decide) (by decide) rfl
  · intro columnId d hd hnullable
    obtain ⟨hlt, rfl⟩ := List.getElem?_eq_some_iff.mp hd
    obtain rfl : columnId = 0 := by simpa [nullableInts] using hlt
    cases hnullable

/-- Two chunks without NULLs survive being written as one row group and read. -/
theorem columnar_roundTrip_seven :
    (∃ file, ParquetFormatWriter.writeFile (fun _ => 0) ⟨true, 1⟩ nullableInts
        [sevenAfter false, sevenAfter false] = .ok file ∧
      readRows ColumnarFile.scanRowGroups file =
        .ok ([sevenAfter false, sevenAfter false].flatMap Chunk.rows)) ∧
    ∃ file, OrcFormatWriter.writeFile nullableInts [sevenAfter false, sevenAfter false] = .ok file ∧
      readRows ColumnarFile.scanRowGroups file =
        .ok ([sevenAfter false, sevenAfter false].flatMap Chunk.rows) := by
  have hchunks : ∀ c ∈ [sevenAfter false, sevenAfter false], c.WellFormed nullableInts := by
    simp [wellFormed_sevenAfter]
  have hnone : (sevenAfter false).HasNoNulls := by
    rw [Chunk.HasNoNulls]
    decide
  have hvectors : (sevenAfter false).HasNullVectors nullableInts := by
    intro columnId d hd _ _
    obtain ⟨hlt, -⟩ := List.getElem?_eq_some_iff.mp hd
    obtain rfl : columnId = 0 := by simpa [nullableInts] using hlt
    exact .inl rfl
  have hscan : ∀ file : ColumnarFile ℚ, file.WellFormed → file.Scanned file.scanRowGroups :=
    fun _ h => ColumnarFile.scanned_scanRowGroups h
  obtain ⟨hparquet, horc⟩ := columnar_roundTrip_iff hscan hscan (fun _ => 0) ⟨true, 1⟩
    (by decide : ∀ d ∈ nullableInts, d.dataType ≠ .null) hchunks
  exact ⟨hparquet.mpr (by simp [hnone, hvectors]), horc.mpr (by simp [hnone])⟩

/-- A NULL and the number 7 are not what is read: the Parquet file has a NULL and the number 0, and
either reader returns two numbers. -/
theorem not_columnar_roundTrip : (sevenAfter true).WellFormed nullableInts ∧
    (∀ file : ColumnarFile ℚ, file.WellFormed → file.Scanned file.scanRowGroups) ∧
    ParquetFormatWriter.writeFile (fun _ => 0) {} nullableInts [sevenAfter true] =
      .ok ⟨[.int32], [[[none, some (.int 0)]]]⟩ ∧
    readRows (ColumnarFile.scanRowGroups (R := ℚ)) ⟨[.int32], [[[none, some (.int 0)]]]⟩ =
      .ok [[some (.int 0)], [some (.int 0)]] ∧
    OrcFormatWriter.writeFile nullableInts [sevenAfter true] =
      .ok ⟨[.int32], [[[none, some (.int 7)]]]⟩ ∧
    readRows (ColumnarFile.scanRowGroups (R := ℚ)) ⟨[.int32], [[[none, some (.int 7)]]]⟩ =
      .ok [[some (.int 0)], [some (.int 7)]] ∧
    [sevenAfter true].flatMap Chunk.rows = [[none], [some (.int 7)]] :=
  ⟨wellFormed_sevenAfter true, fun _ => ColumnarFile.scanned_scanRowGroups, rfl, rfl, rfl, rfl, rfl⟩

end Skyrise

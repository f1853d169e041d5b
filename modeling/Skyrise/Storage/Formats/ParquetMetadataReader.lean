/-
The byte ranges of a Parquet file that a reader needs.

The footer of the file says where its row groups and their column chunks are.  If a reader
wants all columns, the row groups are read as a whole, with a padding, in requests of at
most one size.  Otherwise every column chunk is a range, and ranges that are close are
merged.  The library that parses the footer is a parameter: what it returns can be any
metadata.  Offsets are signed in the metadata and unsigned in the ranges.
-/
import Skyrise.Compiler.OperatorProxy.ImportOptions
import Skyrise.Storage.IoHandle.ObjectBuffer

namespace Skyrise

def kS3ReadRequestSizeBytes : ℕ := 16 * 1024 * 1024

def kReadRequestPaddingSizeBytes : ℕ := 1024 * 1024

def kParquetFooterSizeBytes : ℕ := 64 * 1024

def kParquetFooterMetadataSizeBytes : ℕ := 4

def kParquetFooterMetadataOffsetBytes : ℕ := 8

/-! ### Offsets -/

/-- What becomes of an unsigned offset that leaves its type.  The code wraps around; a check
finds out whether it does. -/
inductive OffsetArithmetic where
  | wrapping
  | checked
deriving DecidableEq

/-- The conversion of a signed number to `size_t`. -/
def sizeT (x : ℤ) : ℕ := (x % 2 ^ 64).toNat

/-- A number as an unsigned offset with a number of bits. -/
def OffsetArithmetic.unsigned (arithmetic : OffsetArithmetic) (bits : ℕ) (x : ℤ) :
    Except Exception ℕ :=
  match arithmetic with
  | wrapping => .ok (x % 2 ^ bits).toNat
  | checked => if 0 ≤ x ∧ x < 2 ^ bits then .ok x.toNat else .error .undefinedBehavior

/-- The sum of two numbers of type `int64_t`. -/
def addInt64 (x y : ℤ) : Except Exception ℤ :=
  if -2 ^ 63 ≤ x + y ∧ x + y < 2 ^ 63 then .ok (x + y) else .error .undefinedBehavior

lemma sizeT_of_nonneg {x : ℤ} (hx : 0 ≤ x) (hlt : x < 2 ^ 64) : sizeT x = x.toNat := by
  rw [sizeT, Int.emod_eq_of_lt hx hlt]

lemma addInt64_eq_ok_iff {x y z : ℤ} :
    addInt64 x y = .ok z ↔ (-2 ^ 63 ≤ x + y ∧ x + y < 2 ^ 63) ∧ z = x + y := by
  rw [addInt64]
  split
  · next h => exact ⟨fun heq => ⟨h, (Except.ok.inj heq).symm⟩, fun heq => by rw [heq.2]⟩
  · next h => exact ⟨fun heq => (by cases heq), fun heq => absurd heq.1 h⟩

/-! ### The metadata of a file -/

/-- The metadata of a column chunk. -/
structure ColumnChunkMetaData where
  dataPageOffset : ℤ
  /-- `dictionary_page_offset`, if there is a dictionary page. -/
  dictionaryPageOffset : Option ℤ
  totalCompressedSize : ℤ
deriving DecidableEq

/-- The metadata of a row group. -/
structure RowGroupMetaData where
  fileOffset : ℤ
  totalCompressedSize : ℤ
  totalByteSize : ℤ
  columns : List ColumnChunkMetaData
deriving DecidableEq

/-- The metadata of a file. -/
structure FileMetaData where
  numColumns : ℕ
  rowGroups : List RowGroupMetaData
  /-- Whether the writer is older than `PARQUET_816_FIXED_VERSION`. -/
  writtenBeforeParquet816 : Bool
deriving DecidableEq

/-- What the Parquet library makes of a footer. -/
structure ParquetFileFragment where
  /-- `EnsureCompleteMetadata` and `metadata`. -/
  metadata : Option FileMetaData
  /-- The text of the status of a subset that does not exist. -/
  subsetStatus : String

/-- An element of a vector of the library, which throws at any other index. -/
def parquetAt {α : Type} (xs : List α) (index : ℤ) : Except Exception α :=
  match if 0 ≤ index then xs[index.toNat]? else none with
  | some x => .ok x
  | none => .error .parquetException

/-- The number of bytes of a row group. -/
def RowGroupMetaData.size (partitionMetadata : RowGroupMetaData) : ℤ :=
  if partitionMetadata.totalCompressedSize = 0 then partitionMetadata.totalByteSize
  else partitionMetadata.totalCompressedSize

/-- `column_start`: the offset of the dictionary, if it comes before the data. -/
def ColumnChunkMetaData.columnStart (columnMetadata : ColumnChunkMetaData) : ℤ :=
  match columnMetadata.dictionaryPageOffset with
  | some dictionaryPageOffset =>
    if dictionaryPageOffset > 0 ∧ columnMetadata.dataPageOffset > dictionaryPageOffset then
      dictionaryPageOffset
    else columnMetadata.dataPageOffset
  | none => columnMetadata.dataPageOffset

/-! ### Ranges of row groups -/

/-- `AddRangesSafe`: a range in pieces of a maximum size. -/
def addRangesSafe (start «end» maxSize : ℕ) : List Range :=
  if start < «end» ∧ 0 < maxSize then
    let currentEnd := min (start + maxSize) «end»
    (start, currentEnd) :: addRangesSafe currentEnd «end» maxSize
  else []
termination_by «end» - start

/-- The first loop of `RemoveOverlaps`. -/
def truncateOverlaps : List Range → List Range
  | current :: next :: ranges =>
    (current.1, if current.2 > next.1 then next.1 else current.2) ::
      truncateOverlaps (next :: ranges)
  | ranges => ranges

/-- `RemoveOverlaps`. -/
def removeOverlaps (ranges : List Range) : Except Exception (List Range) :=
  -- `ranges.size() - 1` wraps around if there are none, and the loop reads the first two.
  if ranges.isEmpty then .error .undefinedBehavior
  else .ok ((truncateOverlaps ranges).filter fun range => ¬range.1 ≥ range.2)

namespace ParquetFormatMetadataReader

/-- `padding`. -/
def padding : ℤ := 1024 * 1024

/-- The range of a row group with the padding, up to the end of the object. -/
def rowGroupRange (objectSize : ℕ) (partitionMetadata : RowGroupMetaData) :
    Except Exception Range := do
  let startOffset := partitionMetadata.fileOffset
  assert (startOffset > 0) "Invalid start offset."
  let endOffset ← addInt64 (← addInt64 startOffset padding) partitionMetadata.size
  return (sizeT startOffset, sizeT (min endOffset objectSize))

/-- The ranges of row groups that are read as a whole. -/
def rowGroupRanges (objectSize : ℕ) (rowGroups : List RowGroupMetaData) :
    Except Exception (List Range) := do
  let ranges ← rowGroups.mapM (rowGroupRange objectSize)
  removeOverlaps (ranges.flatMap fun range =>
    addRangesSafe range.1 range.2 kS3ReadRequestSizeBytes)

/-! ### Ranges of column chunks -/

/-- `kMaxDictionaryHeaderSize`. -/
def kMaxDictionaryHeaderSize : ℤ := 100

/-- The end of `ComputeByteRange`: a new range, or a longer last one. -/
def mergeByteRange (arithmetic : OffsetArithmetic) (start «end» : ℕ) (ranges : List Range) :
    Except Exception (List Range) :=
  match ranges.getLast? with
  | none => .ok [(start, «end»)]
  | some back => do
    let gap ← arithmetic.unsigned 64 (start - back.2)
    if gap > kReadRequestPaddingSizeBytes ∨ sizeT (back.2 - back.1) ≥ kS3ReadRequestSizeBytes then
      return ranges ++ [(start, «end»)]
    else return ranges.dropLast ++ [(back.1, «end»)]

/-- `ComputeByteRange`, with the metadata of the column. -/
def computeByteRange (arithmetic : OffsetArithmetic) (writtenBeforeParquet816 : Bool)
    (sourceSize : ℤ) (columnMetadata : ColumnChunkMetaData) (ranges : List Range) :
    Except Exception (List Range) := do
  let columnStart := columnMetadata.columnStart
  let columnLength := columnMetadata.totalCompressedSize
  let columnEnd : ℤ := 0
  if columnStart < 0 ∨ columnLength < 0 then
    .error (.logicError "Invalid column metadata (corrupt file?)")
  else do
    let sum ← addInt64 columnStart columnLength
    if sum > 2 ^ 63 - 1 ∨ columnEnd > sourceSize then
      .error (.logicError "Invalid column metadata (corrupt file?)")
    else
      let columnEnd := sum
      -- a workaround for old files
      let columnLength :=
        if writtenBeforeParquet816 then
          columnLength + min kMaxDictionaryHeaderSize (sourceSize - columnEnd)
        else columnLength
      mergeByteRange arithmetic (sizeT columnStart) (sizeT (columnStart + columnLength)) ranges

/-- The metadata of a column chunk of a row group. -/
def columnChunk (fileMetadata : FileMetaData) (rowGroupIndex columnIndex : ℤ) :
    Except Exception ColumnChunkMetaData := do
  let rowGroupMetadata ← parquetAt fileMetadata.rowGroups rowGroupIndex
  parquetAt rowGroupMetadata.columns columnIndex

/-- The loop over the row groups and the columns. -/
def computeByteRanges (arithmetic : OffsetArithmetic) (fileMetadata : FileMetaData)
    (sourceSize : ℤ) : List (ℤ × ℤ) → List Range → Except Exception (List Range)
  | [], ranges => .ok ranges
  | (rowGroupIndex, columnIndex) :: rest, ranges => do
    let columnMetadata ← columnChunk fileMetadata rowGroupIndex columnIndex
    computeByteRanges arithmetic fileMetadata sourceSize rest
      (← computeByteRange arithmetic fileMetadata.writtenBeforeParquet816 sourceSize
        columnMetadata ranges)

/-! ### The ranges of a reader -/

variable {R A : Type}

/-- `Subset`: the row groups that are read, in the order in which they are asked for. -/
def rowGroupSubset (fragment : ParquetFileFragment) (fileMetadata : FileMetaData)
    (rowGroupIds : Option (List Int32)) : Except Exception (List ℤ) :=
  match rowGroupIds with
  | none => .ok ((List.range fileMetadata.rowGroups.length).map Int.ofNat)
  | some rowGroupIds => do
    assert (rowGroupIds.all fun id => 0 ≤ id.toInt ∧ id.toInt < fileMetadata.rowGroups.length)
      fragment.subsetStatus
    return rowGroupIds.map Int32.toInt

/-- The constructor of the reader, which asks for the subset if there are partitions. -/
def openFragment (fragment : ParquetFileFragment) (rowGroupIds : Option (List Int32)) :
    Except Exception Unit :=
  match rowGroupIds, fragment.metadata with
  | none, _ => .ok ()
  | some _, none => .error (.assertionFailed fragment.subsetStatus)
  | some rowGroupIds, some fileMetadata => do
    let _ ← rowGroupSubset fragment fileMetadata (some rowGroupIds)
    return

/-- The range of a buffer that is added, whose capacity is reserved. -/
def reserveBuffer (arithmetic : OffsetArithmetic) (range : Range) : Except Exception Range := do
  let capacity ← arithmetic.unsigned 64 (range.2 - range.1)
  if capacity < 2 ^ 63 then return range else .error .lengthError

/-- The row groups and the columns of the two nested loops; a column id is converted to `int`. -/
def requestedColumns (rowGroups : List ℤ) (includeColumns : List UInt32) : List (ℤ × ℤ) :=
  rowGroups.flatMap fun rowGroup => includeColumns.map fun column => (rowGroup, column.toInt32.toInt)

/-- The ranges for the columns of the configuration. -/
def columnRanges (arithmetic : OffsetArithmetic) (objectSize : ℕ) (fileMetadata : FileMetaData)
    (rowGroups : List ℤ) (includeColumns : Option (List UInt32)) : Except Exception (List Range) :=
  match includeColumns with
  | none => .ok []
  | some includeColumns =>
    if fileMetadata.numColumns = includeColumns.length then do
      rowGroupRanges objectSize (← rowGroups.mapM (parquetAt fileMetadata.rowGroups))
    else
      computeByteRanges arithmetic fileMetadata objectSize
        (requestedColumns rowGroups includeColumns) []

/-- `CalculatePageOffsetsForColumnIds`, with the row groups that are read: the ranges of the
buffers, in the order in which they are added. -/
def calculatePageOffsetsForColumnIds (arithmetic : OffsetArithmetic) (objectSize : ℕ)
    (fileMetadata : FileMetaData) (rowGroups : List ℤ)
    (configuration : ParquetFormatReaderOptions R A) (footerRequestRange : Range) :
    Except Exception (List Range) := do
  let ranges ← columnRanges arithmetic objectSize fileMetadata rowGroups
    configuration.includeColumns
  let ranges ← ranges.mapM (reserveBuffer arithmetic)
  return ranges ++ [footerRequestRange]

/-- A number of type `uint32_t` in memory. -/
def readUInt32 (bytes : List UInt8) : ℕ :=
  ((bytes.take 4).foldr (fun byte number => byte.toNat + 256 * number) 0)

/-- `ReadTail`. -/
def readTail (object : StoredObject) (numLastBytes : ℕ) : List UInt8 :=
  object.data.drop (object.data.length - numLastBytes)

/-- The size of the footer request, which grows if the metadata does not fit. -/
def footerRequest (arithmetic : OffsetArithmetic) (footerSize footerRequestSize : ℕ) :
    Except Exception ℕ :=
  if footerSize > footerRequestSize - kParquetFooterMetadataOffsetBytes then
    arithmetic.unsigned 32 (footerSize + kParquetFooterMetadataOffsetBytes)
  else .ok footerRequestSize

/-- `CalculatePageOffsets`, with what the library makes of the footer that has been read. -/
def calculatePageOffsets (arithmetic : OffsetArithmetic) (object : StoredObject)
    (fragment : List UInt8 → ParquetFileFragment)
    (configuration : ParquetFormatReaderOptions R A) : Except Exception (List Range) := do
  let objectSize := object.data.length
  let footerRequestSize := min objectSize kParquetFooterSizeBytes
  assert (footerRequestSize ≥ 8) "Footer request size needs to be at least 8 bytes."
  let footerBuffer := readTail object footerRequestSize
  let footerSize := readUInt32
    (footerBuffer.drop (footerRequestSize - kParquetFooterMetadataOffsetBytes))
  let footerRequestSize ← footerRequest arithmetic footerSize footerRequestSize
  let fragment := fragment (readTail object footerRequestSize)
  openFragment fragment configuration.rowGroupIds
  let footerStart ← arithmetic.unsigned 64 (objectSize - footerRequestSize)
  match fragment.metadata with
  | none => .error (.assertionFailed "Unable to extract metadata.")
  | some fileMetadata => do
    let rowGroups ← rowGroupSubset fragment fileMetadata configuration.rowGroupIds
    calculatePageOffsetsForColumnIds arithmetic objectSize fileMetadata rowGroups configuration
      (footerStart, objectSize)

end ParquetFormatMetadataReader

end Skyrise

/-
Row groups of Parquet files.

`ParquetFormatWriter` writes every chunk as a row group of its own, or collects
chunks and writes those it has collected as one row group when their estimated size
reaches a threshold.  A row group is given here by the chunks whose segments are
written into it one after the other, column by column.
-/
import Skyrise.Storage.Table

namespace Skyrise

variable {R : Type}

/-- The options of the writer that decide on the row groups. -/
structure ParquetFormatWriterOptions where
  /-- Whether chunks are collected. -/
  consolidateRowGroups : Bool := false
  /-- The size at which the collected chunks are written. -/
  kRowGroupSizeThresholdBytes : ℕ := 128 * 1024 * 1024 * 1024
deriving DecidableEq, Repr

/-- The chunks of a row group. -/
abbrev RowGroup (R : Type) := List (Chunk R)

/-- The state of a writer. -/
structure ParquetFormatWriter (R : Type) where
  /-- The chunks that have been collected. -/
  chunkBuffer : List (Chunk R) := []
  /-- Their estimated size. -/
  estimatedBufferedBytes : ℕ := 0
  /-- The row groups that have been written. -/
  rowGroups : List (RowGroup R) := []

namespace ParquetFormatWriter

/-- `FlushBuffer`. -/
def flushBuffer (w : ParquetFormatWriter R) : ParquetFormatWriter R :=
  if w.chunkBuffer.isEmpty then w
  else { chunkBuffer := [], estimatedBufferedBytes := 0, rowGroups := w.rowGroups ++ [w.chunkBuffer] }

section Write

-- `MemoryUsage` of a segment
variable (memoryUsage : ValueSegment R → ℕ) (config : ParquetFormatWriterOptions)

/-- `EstimateChunkSize`. -/
def estimateChunkSize (chunk : Chunk R) : ℕ := (chunk.segments.map memoryUsage).sum

/-- `ProcessChunk`. -/
def processChunk (w : ParquetFormatWriter R) (chunk : Chunk R) : ParquetFormatWriter R :=
  if config.consolidateRowGroups then
    let w' := { w with
      chunkBuffer := w.chunkBuffer ++ [chunk]
      estimatedBufferedBytes :=
        (w.estimatedBufferedBytes + estimateChunkSize memoryUsage chunk) % 2 ^ 64 }
    if config.kRowGroupSizeThresholdBytes ≤ w'.estimatedBufferedBytes then w'.flushBuffer else w'
  else { w with rowGroups := w.rowGroups ++ [[chunk]] }

/-- `Finalize`. -/
def finalize (w : ParquetFormatWriter R) : ParquetFormatWriter R :=
  if w.chunkBuffer.isEmpty then w else w.flushBuffer

/-- The row groups of a file to which chunks are written. -/
def writeRowGroups (chunks : List (Chunk R)) : List (RowGroup R) :=
  (chunks.foldl (processChunk memoryUsage config) {}).finalize.rowGroups

end Write

variable {memoryUsage : ValueSegment R → ℕ} {config : ParquetFormatWriterOptions}

/-- All chunks that a writer has been given. -/
def received (w : ParquetFormatWriter R) : List (Chunk R) := w.rowGroups.flatten ++ w.chunkBuffer

lemma received_flushBuffer (w : ParquetFormatWriter R) : w.flushBuffer.received = w.received := by
  rw [flushBuffer]
  split
  · rfl
  · simp [received]

lemma received_processChunk (memoryUsage : ValueSegment R → ℕ) (w : ParquetFormatWriter R) (chunk : Chunk R)
    (hw : config.consolidateRowGroups = true ∨ w.chunkBuffer = []) :
    (processChunk memoryUsage config w chunk).received = w.received ++ [chunk] ∧
      (config.consolidateRowGroups = true ∨
        (processChunk memoryUsage config w chunk).chunkBuffer = []) := by
  by_cases hflag : config.consolidateRowGroups
  · refine ⟨?_, .inl hflag⟩
    rw [processChunk, if_pos hflag]
    simp only
    split
    · rw [received_flushBuffer]
      simp [received]
    · simp [received]
  · have hnil := hw.resolve_left hflag
    rw [processChunk, if_neg hflag]
    exact ⟨by simp [received, hnil], .inr hnil⟩

/-- The row groups together are the chunks in their order. -/
lemma flatten_writeRowGroups (chunks : List (Chunk R)) :
    (writeRowGroups memoryUsage config chunks).flatten = chunks := by
  have hrun : ∀ (chunks : List (Chunk R)) (w : ParquetFormatWriter R),
      (config.consolidateRowGroups = true ∨ w.chunkBuffer = []) →
        (chunks.foldl (processChunk memoryUsage config) w).received = w.received ++ chunks := by
    intro chunks
    induction chunks with
    | nil => exact fun w _ => (List.append_nil _).symm
    | cons chunk chunks ih =>
      intro w hw
      obtain ⟨hreceived, hw'⟩ := received_processChunk memoryUsage w chunk hw
      rw [List.foldl_cons, ih _ hw', hreceived, List.append_assoc, List.singleton_append]
  have hall := hrun chunks {} (.inr rfl)
  rw [writeRowGroups, finalize]
  split
  · next hnil =>
    rw [received, List.isEmpty_iff.mp hnil, List.append_nil] at hall
    exact hall
  · next hne =>
    rw [flushBuffer, if_neg hne]
    simpa [received] using hall

/-- Without consolidation every chunk is a row group. -/
lemma writeRowGroups_of_not_consolidate (hflag : config.consolidateRowGroups = false)
    (chunks : List (Chunk R)) :
    writeRowGroups memoryUsage config chunks = chunks.map fun chunk => [chunk] := by
  have hrun : ∀ (chunks : List (Chunk R)) (w : ParquetFormatWriter R), w.chunkBuffer = [] →
      chunks.foldl (processChunk memoryUsage config) w =
        { w with rowGroups := w.rowGroups ++ chunks.map fun chunk => [chunk] } := by
    intro chunks
    induction chunks with
    | nil => exact fun w _ => by simp
    | cons chunk chunks ih =>
      intro w hw
      have hstep : processChunk memoryUsage config w chunk =
          { w with rowGroups := w.rowGroups ++ [[chunk]] } := by
        rw [processChunk, if_neg (by simp [hflag])]
      rw [List.foldl_cons, hstep, ih { w with rowGroups := w.rowGroups ++ [[chunk]] } hw]
      simp
  rw [writeRowGroups, hrun chunks {} rfl]
  simp [finalize]

end ParquetFormatWriter

end Skyrise

/-
Exporting a table.

`exportOperator` lets a format writer turn the chunks of a table into blocks of bytes
and hands them to an object writer, until one is refused; then it closes the object.
A format writer does not learn what becomes of its blocks.
-/
import Skyrise.Storage.Backend.S3ObjectWriter
import Skyrise.Storage.Formats.CsvWriter

namespace Skyrise

variable {R φ σ : Type}

/-- `AbstractFormatWriter`, with the states of an implementation: what is written to the output, in
blocks. -/
structure FormatWriter (R φ : Type) where
  start : φ
  initializeOutput : List TableColumnDefinition → φ → Except Exception (List Bytes × φ)
  processChunk : Chunk R → φ → Except Exception (List Bytes × φ)
  finalize : φ → Except Exception (List Bytes)

namespace FormatWriter

variable (formatter : FormatWriter R φ)

/-- What is written for chunks and at the end. -/
def processChunks : List (Chunk R) → φ → Except Exception (List Bytes)
  | [], s => formatter.finalize s
  | chunk :: chunks, s => do
    let (blocks, s) ← formatter.processChunk chunk s
    return blocks ++ (← processChunks chunks s)

/-- What is written for a table. -/
def produced (input : Table R) : Except Exception (List Bytes) := do
  let (blocks, s) ← formatter.initializeOutput input.columnDefinitions formatter.start
  return blocks ++ (← formatter.processChunks input.chunks s)

end FormatWriter

namespace ExportOperator

/-- The output handler: after an error nothing more is written. -/
def handleOutput (writer : ObjectWriter σ) (s : StorageError × σ) (block : Bytes) :
    StorageError × σ :=
  if s.1.isError then s else writer.write block s.2

/-- `ExportOperator::OnExecute`, with the writer that `OpenForWriting` returns; the number of bytes
that were written.  What `Close` returns is dropped. -/
def exportOperator (formatter : FormatWriter R φ) (writer : ObjectWriter σ) (output : σ)
    (input : Table R) : Except Exception ℕ := do
  let blocks ← formatter.produced input
  let (error, output) := blocks.foldl (handleOutput writer) (.success, output)
  let _ := writer.close output
  assert (!error.isError) error.message
  return (blocks.map List.length).sum

/-! ### Silent losses -/

/-- The operator finishes without an exception only if every block was accepted and the object was
closed without an error. -/
def NotPartial (formatter : FormatWriter R φ) (writer : ObjectWriter σ) (output : σ)
    (input : Table R) : Prop :=
  ∀ bytesWritten, exportOperator formatter writer output input = .ok bytesWritten →
    ∃ blocks s, formatter.produced input = .ok blocks ∧ writer.accept blocks output = some s ∧
      (writer.close s).1.isError = false

variable {formatter : FormatWriter R φ} {writer : ObjectWriter σ} {output s : σ}
  {input : Table R} {blocks : List Bytes}

lemma foldl_handleOutput_of_isError {e : StorageError} (he : e.isError = true)
    (blocks : List Bytes) : blocks.foldl (handleOutput writer) (e, s) = (e, s) := by
  induction blocks with
  | nil => rfl
  | cons block blocks ih =>
    rw [List.foldl_cons, handleOutput, if_pos he]
    exact ih

variable (writer) in
/-- The error after the last block is none exactly if all blocks were accepted. -/
lemma foldl_handleOutput (blocks : List Bytes) (e : StorageError) (he : e.isError = false)
    (output : σ) :
    match writer.accept blocks output with
    | some s => (blocks.foldl (handleOutput writer) (e, output)).1.isError = false ∧
        (blocks.foldl (handleOutput writer) (e, output)).2 = s
    | none => (blocks.foldl (handleOutput writer) (e, output)).1.isError = true := by
  induction blocks generalizing e output with
  | nil => exact ⟨he, rfl⟩
  | cons block blocks ih =>
    have hhandle : handleOutput writer (e, output) block = writer.write block output := by
      rw [handleOutput, he, if_neg Bool.false_ne_true]
    rw [List.foldl_cons, hhandle, ObjectWriter.accept]
    cases herror : (writer.write block output).1.isError with
    | true =>
      have hprod : writer.write block output =
          ((writer.write block output).1, (writer.write block output).2) := rfl
      rw [hprod, foldl_handleOutput_of_isError herror]
      exact herror
    | false =>
      rw [if_neg Bool.false_ne_true]
      exact ih _ herror _

lemma exportOperator_of_produced (h : formatter.produced input = .ok blocks) :
    exportOperator formatter writer output input =
      (assert (!(blocks.foldl (handleOutput writer) (.success, output)).1.isError)
        (blocks.foldl (handleOutput writer) (.success, output)).1.message).bind fun _ =>
          .ok (blocks.map List.length).sum := by
  rw [exportOperator, h]
  rfl

/-- The operator finishes exactly if all blocks were produced and accepted. -/
lemma exportOperator_eq_ok_iff {bytesWritten : ℕ} :
    exportOperator formatter writer output input = .ok bytesWritten ↔
      ∃ blocks s, formatter.produced input = .ok blocks ∧
        writer.accept blocks output = some s ∧ (blocks.map List.length).sum = bytesWritten := by
  cases hproduced : formatter.produced input with
  | error e =>
    have hrun : exportOperator formatter writer output input = .error e := by
      rw [exportOperator, hproduced]
      rfl
    rw [hrun]
    exact iff_of_false (fun h => nomatch h) fun ⟨_, _, h, _⟩ => nomatch h
  | ok blocks =>
    have hfold := foldl_handleOutput writer blocks .success rfl output
    rw [exportOperator_of_produced hproduced]
    cases haccept : writer.accept blocks output with
    | none =>
      rw [haccept] at hfold
      rw [hfold]
      refine iff_of_false (fun h => nomatch h) ?_
      rintro ⟨blocks', s, hblocks, hs, -⟩
      obtain rfl := Except.ok.inj hblocks
      rw [haccept] at hs
      cases hs
    | some s =>
      rw [haccept] at hfold
      rw [hfold.1]
      constructor
      · intro h
        exact ⟨blocks, s, rfl, haccept, Except.ok.inj h⟩
      · rintro ⟨blocks', s', hblocks, -, hsum⟩
        obtain rfl := Except.ok.inj hblocks
        exact congrArg Except.ok hsum

/-- **The operator is not silently partial exactly if the object is closed without an error whenever
all blocks are produced and accepted.** -/
theorem notPartial_iff (formatter : FormatWriter R φ) (writer : ObjectWriter σ) (output : σ)
    (input : Table R) :
    NotPartial formatter writer output input ↔
      ∀ blocks s, formatter.produced input = .ok blocks → writer.accept blocks output = some s →
        (writer.close s).1.isError = false := by
  constructor
  · intro h blocks s hblocks hs
    have hrun := exportOperator_eq_ok_iff.mpr ⟨blocks, s, hblocks, hs, rfl⟩
    obtain ⟨blocks', s', hblocks', hs', hclose⟩ := h _ hrun
    obtain rfl := Except.ok.inj (hblocks.symm.trans hblocks')
    obtain rfl := Option.some.inj (hs.symm.trans hs')
    exact hclose
  · intro h bytesWritten hrun
    obtain ⟨blocks, s, hblocks, hs, -⟩ := exportOperator_eq_ok_iff.mp hrun
    exact ⟨blocks, s, hblocks, hs, h blocks s hblocks hs⟩

/-! ### Exporting to S3 -/

open S3ObjectWriter

/-- To S3 the operator finishes whatever becomes of the requests, which are only made when the
writer is closed. -/
lemma exportOperator_s3 (client : S3Client) (hproduced : formatter.produced input = .ok blocks) :
    exportOperator formatter (s3ObjectWriter client) {} input =
      .ok (blocks.map List.length).sum := by
  obtain ⟨s, hs, -⟩ := exists_accept client blocks open_start
  exact exportOperator_eq_ok_iff.mpr ⟨blocks, s, hproduced, hs, rfl⟩

/-- `CsvFormatWriter`, which writes the names of the columns and then row by row. -/
def csvFormatWriter (toText : CsvFormatWriter.ToText R) (options : CsvFormatWriter.Options) :
    FormatWriter R ℕ where
  start := 0
  initializeOutput schema _ :=
    .ok (if options.includeHeaders then [CsvFormatWriter.initializeText options schema] else [],
      schema.length)
  processChunk chunk numFields :=
    if numFields = 0 then .ok ([], numFields)
    else do
      assert (decide (chunk.segments.length = numFields))
        "All chunks must have the same number of columns."
      return (chunk.rows.map fun row =>
        CsvFormatWriter.rowText toText options row ++ options.recordSeparator, numFields)
  finalize _ := .ok []

/-- A client whose requests all fail. -/
def refusingClient : S3Client where
  putObject _ := ⟨.notFound, "The specified bucket does not exist"⟩
  uploadParts _ := ⟨.notFound, "The specified bucket does not exist"⟩

/-- **A table is exported without an exception although the object cannot be put.** -/
theorem not_notPartial_refusingClient :
    exportOperator (csvFormatWriter (fun _ : Value ℚ => [49]) {}) (s3ObjectWriter refusingClient) {}
        (Table.ofInts "a" [[1]]) = .ok 4 ∧
      ¬ NotPartial (csvFormatWriter (fun _ : Value ℚ => [49]) {}) (s3ObjectWriter refusingClient) {}
        (Table.ofInts "a" [[1]]) := by
  have hproduced : (csvFormatWriter (fun _ : Value ℚ => [49]) {}).produced
      (Table.ofInts "a" [[1]]) = .ok [[97, 10], [49, 10]] := by decide
  have hrun := exportOperator_s3 refusingClient hproduced
  refine ⟨hrun, fun h => ?_⟩
  obtain ⟨blocks, s, -, haccept, hclose⟩ := h 4 hrun
  obtain ⟨s', hs', -, hopen⟩ := exists_accept refusingClient blocks open_start
  obtain rfl := Option.some.inj (haccept.symm.trans hs')
  have herror : ((s3ObjectWriter refusingClient).close s).1.isError = true := by
    obtain hput | ⟨parts, -, hupload⟩ := close_of_open refusingClient hopen
    · exact congrArg StorageError.isError hput
    · exact congrArg StorageError.isError hupload
  exact Bool.false_ne_true (hclose.symm.trans herror)

end ExportOperator

end Skyrise

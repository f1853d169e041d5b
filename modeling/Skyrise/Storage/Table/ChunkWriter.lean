/-
Writing chunks to several objects.

The writer opens an object for the first chunk and gives it chunks until they have as many
rows as a threshold asks for.  Then the object is closed, and the next chunk opens another
one, whose number is the next one.  With a threshold of zero there is one object.

A record says of an object which chunks its formatter has processed and how often it was
closed.
-/
import Skyrise.Operator.Export

namespace Skyrise

variable {R φ σ : Type}

/-- `Storage`, as far as objects are written. -/
structure WritableStorage (σ : Type) where
  openForWriting : String → σ
  writer : ObjectWriter σ

/-- Storage without errors. -/
structure WritableStorage.NoErrors (storage : WritableStorage σ) : Prop where
  write : ∀ block s, (storage.writer.write block s).1.isError = false
  close : ∀ s, (storage.writer.close s).1.isError = false

/-- `PartitionedChunkWriterConfig`. -/
structure PartitionedChunkWriterConfig (R φ : Type) where
  format : FormatWriter R φ
  namingStrategy : ℕ → String
  splitRows : ℕ

/-- An object that was opened, with its formatter. -/
structure OutputObject (R φ σ : Type) where
  name : String
  formatter : φ
  output : σ
  /-- The chunks that the formatter has processed. -/
  chunks : List (Chunk R) := []
  /-- How often the object was closed. -/
  closeCount : ℕ := 0

/-- The number of rows of the chunks of an object. -/
def OutputObject.rowCount (object : OutputObject R φ σ) : ℕ := (object.chunks.map Chunk.size).sum

/-- The members of `PartitionedChunkWriter`, and the objects that were closed. -/
structure PartitionedChunkWriter (R φ σ : Type) where
  /-- The formatter and the object that are not null. -/
  current : Option (OutputObject R φ σ) := none
  numRowsWritten : ℕ := 0
  objectIdCounter : ℕ := 0
  error : StorageError := .success
  flushed : List (OutputObject R φ σ) := []

namespace PartitionedChunkWriter

section

variable (config : PartitionedChunkWriterConfig R φ) (storage : WritableStorage σ)
  (schema : List TableColumnDefinition)

/-- The output handler of a formatter: an error of a block is set, and the next block is written
all the same. -/
def writeBlocks (blocks : List Bytes) (s : StorageError × σ) : StorageError × σ :=
  blocks.foldl (fun s block =>
    let answer := storage.writer.write block s.2
    (if answer.1.isError then answer.1 else s.1, answer.2)) s

/-- An object for the next chunk: the current one, or a new one. -/
def openObject (s : PartitionedChunkWriter R φ σ) :
    Except Exception (OutputObject R φ σ × PartitionedChunkWriter R φ σ) :=
  match s.current with
  | some object => .ok (object, s)
  | none => do
    let name := config.namingStrategy s.objectIdCounter
    let (blocks, formatter) ← config.format.initializeOutput schema config.format.start
    let (error, output) := writeBlocks storage blocks (s.error, storage.openForWriting name)
    return ({ name, formatter, output },
      { s with objectIdCounter := s.objectIdCounter + 1, error })

/-- `Flush` of an object. -/
def flush (object : OutputObject R φ σ) (s : PartitionedChunkWriter R φ σ) :
    Except Exception (PartitionedChunkWriter R φ σ) := do
  let blocks ← config.format.finalize object.formatter
  let (error, output) := writeBlocks storage blocks (s.error, object.output)
  let (closeError, output) := storage.writer.close output
  return { s with
    current := none
    error := if closeError.isError then closeError else error
    flushed := s.flushed ++ [{ object with output, closeCount := object.closeCount + 1 }] }

/-- `ProcessChunk`. -/
def processChunk (s : PartitionedChunkWriter R φ σ) (chunk : Option (Chunk R)) :
    Except Exception (PartitionedChunkWriter R φ σ) :=
  match chunk with
  | none => .ok s
  | some chunk =>
    if s.error.isError then .ok s
    else do
      let (object, s) ← openObject config storage schema s
      let (blocks, formatter) ← config.format.processChunk chunk object.formatter
      let (error, output) := writeBlocks storage blocks (s.error, object.output)
      let object := { object with formatter, output, chunks := object.chunks ++ [chunk] }
      let s := { s with current := some object, error }
      if error.isError then return s
      else
        let numRowsWritten := s.numRowsWritten + chunk.size
        if config.splitRows ≠ 0 ∧ config.splitRows ≤ numRowsWritten then do
          let s ← flush config storage object { s with numRowsWritten }
          return { s with numRowsWritten := 0 }
        else return { s with numRowsWritten }

/-- `NonVirtualFinalize`. -/
def nonVirtualFinalize (s : PartitionedChunkWriter R φ σ) :
    Except Exception (PartitionedChunkWriter R φ σ) :=
  match s.current with
  | some object => flush config storage object s
  | none => .ok s

/-- A writer that is given some chunks, finalized and destroyed. -/
def writeChunks (chunks : List (Option (Chunk R))) :
    Except Exception (PartitionedChunkWriter R φ σ) := do
  let s ← chunks.foldlM (processChunk config storage schema) {}
  let s ← nonVirtualFinalize config storage s
  nonVirtualFinalize config storage s

end

/-! ### One object after the other -/

/-- An object reaches a threshold with its last chunk, and not before. -/
def Reaches (splitRows : ℕ) (object : OutputObject R φ σ) : Prop :=
  splitRows ≤ object.rowCount ∧ (object.chunks.dropLast.map Chunk.size).sum < splitRows

/-- Chunks that are distributed over objects: the objects have consecutive numbers, none is empty,
all but the last are full, and each was closed once. -/
structure Distributed (config : PartitionedChunkWriterConfig R φ) (chunks : List (Chunk R))
    (objects : List (OutputObject R φ σ)) : Prop where
  names : objects.map OutputObject.name = (List.range objects.length).map config.namingStrategy
  chunks : objects.flatMap OutputObject.chunks = chunks
  chunks_ne_nil : ∀ object ∈ objects, object.chunks ≠ []
  full : ∀ object ∈ objects.dropLast, Reaches config.splitRows object
  closed : ∀ object ∈ objects, object.closeCount = 1

/-- Objects that were closed because they were full. -/
structure Full (config : PartitionedChunkWriterConfig R φ) (s : PartitionedChunkWriter R φ σ) :
    Prop where
  error : s.error.isError = false
  reaches : ∀ object ∈ s.flushed, Reaches config.splitRows object
  closed : ∀ object ∈ s.flushed, object.closeCount = 1

/-- A writer without an object that is open. -/
structure Idle (config : PartitionedChunkWriterConfig R φ) (received : List (Chunk R))
    (s : PartitionedChunkWriter R φ σ) : Prop extends Full config s where
  names : s.flushed.map OutputObject.name =
    (List.range s.flushed.length).map config.namingStrategy
  objectIdCounter : s.objectIdCounter = s.flushed.length
  chunks : s.flushed.flatMap OutputObject.chunks = received
  numRowsWritten : s.numRowsWritten = 0

/-- A writer with an open object, which is not full. -/
structure Opened (config : PartitionedChunkWriterConfig R φ) (received : List (Chunk R))
    (object : OutputObject R φ σ) (s : PartitionedChunkWriter R φ σ) : Prop
    extends Full config s where
  names : (s.flushed ++ [object]).map OutputObject.name =
    (List.range (s.flushed.length + 1)).map config.namingStrategy
  objectIdCounter : s.objectIdCounter = s.flushed.length + 1
  chunks : (s.flushed ++ [object]).flatMap OutputObject.chunks = received
  closeCount : object.closeCount = 0
  numRowsWritten : s.numRowsWritten = object.rowCount
  rowCount_lt : config.splitRows ≠ 0 → object.rowCount < config.splitRows

/-- What holds of a writer between two chunks. -/
def Invariant (config : PartitionedChunkWriterConfig R φ) (received : List (Chunk R))
    (s : PartitionedChunkWriter R φ σ) : Prop :=
  match s.current with
  | none => Idle config received s
  | some object => Opened config received object s ∧ object.chunks ≠ []

variable {config : PartitionedChunkWriterConfig R φ} {storage : WritableStorage σ}
  {schema : List TableColumnDefinition} {s s' : PartitionedChunkWriter R φ σ}
  {object : OutputObject R φ σ} {received : List (Chunk R)} {chunk : Chunk R}

lemma invariant_start : Invariant config [] ({} : PartitionedChunkWriter R φ σ) :=
  ⟨⟨rfl, by simp, by simp⟩, rfl, rfl, rfl, rfl⟩

lemma fst_writeBlocks (hstorage : storage.NoErrors) (blocks : List Bytes) (s : StorageError × σ) :
    (writeBlocks storage blocks s).1 = s.1 := by
  induction blocks generalizing s with
  | nil => rfl
  | cons block blocks ih =>
    rw [writeBlocks, List.foldl_cons, ← writeBlocks, ih]
    dsimp only
    rw [hstorage.write, if_neg Bool.false_ne_true]

/-- There is an object for the next chunk. -/
lemma openObject_spec (hstorage : storage.NoErrors) (h : Invariant config received s)
    (hopen : openObject config storage schema s = .ok (object, s')) :
    Opened config received object s' := by
  rw [openObject] at hopen
  rw [Invariant] at h
  cases hcurrent : s.current with
  | some current =>
    rw [hcurrent] at hopen h
    cases hopen
    exact h.1
  | none =>
    rw [hcurrent] at hopen h
    obtain ⟨⟨blocks, formatter⟩, -, hopen⟩ := exists_of_bind_eq_ok hopen
    dsimp only at hopen
    obtain ⟨rfl, rfl⟩ := Prod.mk.inj (Except.ok.inj hopen)
    refine ⟨⟨?_, h.reaches, h.closed⟩, ?_, ?_, ?_, rfl, h.numRowsWritten, Nat.pos_of_ne_zero⟩
    · rw [fst_writeBlocks hstorage]
      exact h.error
    · rw [List.map_append, h.names, List.range_succ, List.map_append, ← h.objectIdCounter]
      rfl
    · rw [h.objectIdCounter]
    · rw [List.flatMap_append, h.chunks]
      exact List.append_nil received

lemma rowCount_append (chunks : List (Chunk R)) (chunk : Chunk R) :
    ((chunks ++ [chunk]).map Chunk.size).sum = (chunks.map Chunk.size).sum + chunk.size := by
  rw [List.map_append, List.sum_append]
  simp

/-- A flush closes the object. -/
lemma flush_spec (hstorage : storage.NoErrors) (herror : s.error.isError = false)
    (hflush : flush config storage object s = .ok s') :
    ∃ output error, error.isError = false ∧ s' = { s with
      current := none
      error := error
      flushed := s.flushed ++ [{ object with output, closeCount := object.closeCount + 1 }] } := by
  rw [flush] at hflush
  obtain ⟨blocks, -, hflush⟩ := exists_of_bind_eq_ok hflush
  dsimp only at hflush
  rw [hstorage.close, if_neg Bool.false_ne_true] at hflush
  refine ⟨_, _, ?_, (Except.ok.inj hflush).symm⟩
  rw [fst_writeBlocks hstorage]
  exact herror

/-- An object with another chunk. -/
lemma Opened.add (h : Opened config received object s) (object' : OutputObject R φ σ)
    (chunk : Chunk R) (hname : object'.name = object.name) (hchunks : object'.chunks = object.chunks ++ [chunk]) :
    (s.flushed ++ [object']).map OutputObject.name =
        (List.range (s.flushed.length + 1)).map config.namingStrategy ∧
      (s.flushed ++ [object']).flatMap OutputObject.chunks = received ++ [chunk] ∧
      s.numRowsWritten + chunk.size = object'.rowCount := by
  refine ⟨?_, ?_, ?_⟩
  · rw [← h.names, List.map_append, List.map_append, List.map_singleton, List.map_singleton, hname]
  · rw [← h.chunks, List.flatMap_append, List.flatMap_append, List.flatMap_singleton,
      List.flatMap_singleton, hchunks, List.append_assoc]
  · rw [OutputObject.rowCount, hchunks, rowCount_append, h.numRowsWritten, OutputObject.rowCount]

/-- **One chunk** goes to the open object or to a new one, which is closed if it is full. -/
lemma Invariant.processChunk (hstorage : storage.NoErrors) (h : Invariant config received s)
    (hrun : processChunk config storage schema s (some chunk) = .ok s') :
    Invariant config (received ++ [chunk]) s' := by
  have herror : s.error.isError = false := by
    rw [Invariant] at h
    cases hcurrent : s.current with
    | none =>
      rw [hcurrent] at h
      exact h.error
    | some object =>
      rw [hcurrent] at h
      exact h.1.error
  rw [PartitionedChunkWriter.processChunk] at hrun
  dsimp only at hrun
  rw [if_neg (by rw [herror]; exact Bool.false_ne_true)] at hrun
  obtain ⟨⟨object, s₁⟩, hopen, hrun⟩ := exists_of_bind_eq_ok hrun
  obtain ⟨⟨blocks, formatter⟩, -, hrun⟩ := exists_of_bind_eq_ok hrun
  have hopened := openObject_spec hstorage h hopen
  dsimp only at hrun
  set written := writeBlocks storage blocks (s₁.error, object.output) with hwritten
  have hnoError : written.1.isError = false := by
    rw [hwritten, fst_writeBlocks hstorage]
    exact hopened.error
  rw [if_neg (by rw [hnoError]; exact Bool.false_ne_true)] at hrun
  set object' : OutputObject R φ σ := { object with
    formatter := formatter, output := written.2, chunks := object.chunks ++ [chunk] } with hobject'
  obtain ⟨hnames, hchunks, hrows⟩ := hopened.add object' chunk rfl rfl
  split at hrun
  · next hfull =>
    obtain ⟨s₂, hflush, hrun⟩ := exists_of_bind_eq_ok hrun
    obtain ⟨output, error, herror', rfl⟩ := flush_spec hstorage hnoError hflush
    obtain rfl := Except.ok.inj hrun
    refine ⟨⟨herror', ?_, ?_⟩, ?_, ?_, ?_, rfl⟩
    · intro o ho
      rcases List.mem_append.mp ho with ho | ho
      · exact hopened.reaches o ho
      · -- the last chunk is the one that fills the object
        obtain rfl := List.mem_singleton.mp ho
        refine ⟨hfull.2.trans hrows.le, ?_⟩
        show (((object.chunks ++ [chunk]).dropLast).map Chunk.size).sum < _
        rw [List.dropLast_concat]
        exact hopened.rowCount_lt hfull.1
    · intro o ho
      rcases List.mem_append.mp ho with ho | ho
      · exact hopened.closed o ho
      · obtain rfl := List.mem_singleton.mp ho
        exact congrArg (· + 1) hopened.closeCount
    · rw [List.map_append] at hnames ⊢
      rw [List.length_append]
      exact hnames
    · rw [List.length_append]
      exact hopened.objectIdCounter
    · rw [List.flatMap_append] at hchunks ⊢
      exact hchunks
  · next hfull =>
    obtain rfl := Except.ok.inj hrun
    refine ⟨⟨⟨hnoError, hopened.reaches, hopened.closed⟩, hnames, hopened.objectIdCounter, hchunks,
      hopened.closeCount, hrows, ?_⟩, ?_⟩
    · intro hsplit
      rw [← hrows]
      exact Nat.lt_of_not_le fun hle => hfull ⟨hsplit, hle⟩
    · exact List.append_ne_nil_of_right_ne_nil _ (List.cons_ne_nil _ _)

/-- What holds after some chunks. -/
lemma Invariant.foldlM (hstorage : storage.NoErrors) {chunks : List (Option (Chunk R))}
    (h : Invariant config received s)
    (hrun : chunks.foldlM (PartitionedChunkWriter.processChunk config storage schema) s = .ok s') :
    Invariant config (received ++ chunks.filterMap id) s' := by
  induction chunks generalizing s received with
  | nil =>
    obtain rfl := Except.ok.inj hrun
    rw [List.filterMap_nil, List.append_nil]
    exact h
  | cons chunk chunks ih =>
    rw [List.foldlM_cons] at hrun
    obtain ⟨s₁, hchunk, hrest⟩ := exists_of_bind_eq_ok hrun
    cases chunk with
    | none =>
      obtain rfl := Except.ok.inj hchunk
      exact ih h hrest
    | some chunk =>
      have hnext := ih (h.processChunk hstorage hchunk) hrest
      rw [List.append_assoc] at hnext
      exact hnext

/-- An object that is full is not empty. -/
lemma Reaches.chunks_ne_nil {splitRows : ℕ} (h : Reaches splitRows object) : object.chunks ≠ [] := by
  intro hnil
  obtain ⟨hle, hlt⟩ := h
  rw [OutputObject.rowCount, hnil] at hle
  rw [hnil] at hlt
  exact absurd (Nat.lt_of_lt_of_le hlt hle) (Nat.lt_irrefl _)

/-- The last object is closed at the end. -/
lemma Invariant.finalize (hstorage : storage.NoErrors) (h : Invariant config received s)
    (hrun : nonVirtualFinalize config storage s = .ok s') :
    s'.current = none ∧ Distributed config received s'.flushed := by
  rw [nonVirtualFinalize] at hrun
  rw [Invariant] at h
  cases hcurrent : s.current with
  | none =>
    rw [hcurrent] at h hrun
    obtain rfl := Except.ok.inj hrun
    refine ⟨hcurrent, h.names, h.chunks, ?_, ?_, h.closed⟩
    · intro o ho
      exact (h.reaches o ho).chunks_ne_nil
    · intro o ho
      exact h.reaches o (List.dropLast_subset _ ho)
  | some object =>
    rw [hcurrent] at h hrun
    obtain ⟨h, hne⟩ := h
    obtain ⟨output, error, -, rfl⟩ := flush_spec hstorage h.error hrun
    refine ⟨rfl, ?_, ?_, ?_, ?_, ?_⟩
    · have hnames := h.names
      rw [List.map_append] at hnames ⊢
      rw [List.length_append]
      exact hnames
    · have hchunks := h.chunks
      rw [List.flatMap_append] at hchunks ⊢
      exact hchunks
    · intro o ho
      rcases List.mem_append.mp ho with ho | ho
      · exact (h.reaches o ho).chunks_ne_nil
      · obtain rfl := List.mem_singleton.mp ho
        exact hne
    · intro o ho
      rw [List.dropLast_concat] at ho
      exact h.reaches o ho
    · intro o ho
      rcases List.mem_append.mp ho with ho | ho
      · exact h.closed o ho
      · obtain rfl := List.mem_singleton.mp ho
        exact congrArg (· + 1) h.closeCount

/-! ### Formatters that throw no exception -/

/-- A formatter throws no exception for a schema and some chunks, in whichever order they come: it
stays in valid states. -/
structure Formats (format : FormatWriter R φ) (schema : List TableColumnDefinition)
    (chunks : List (Chunk R)) (Valid : φ → Prop) : Prop where
  starts : ∃ blocks formatter,
    format.initializeOutput schema format.start = .ok (blocks, formatter) ∧ Valid formatter
  processes : ∀ chunk ∈ chunks, ∀ formatter, Valid formatter → ∃ blocks formatter',
    format.processChunk chunk formatter = .ok (blocks, formatter') ∧ Valid formatter'
  ends : ∀ formatter, Valid formatter → ∃ blocks, format.finalize formatter = .ok blocks

section

variable {Valid : φ → Prop} {chunks : List (Chunk R)}

variable (storage) in
lemma Formats.exists_flush (h : Formats config.format schema chunks Valid)
    (object : OutputObject R φ σ) (s : PartitionedChunkWriter R φ σ)
    (hvalid : Valid object.formatter) :
    ∃ s', flush config storage object s = .ok s' ∧ s'.current = none := by
  obtain ⟨blocks, hblocks⟩ := h.ends _ hvalid
  rw [flush, hblocks]
  exact ⟨_, rfl, rfl⟩

variable (storage) in
lemma Formats.exists_openObject (h : Formats config.format schema chunks Valid)
    (hvalid : ∀ object, s.current = some object → Valid object.formatter) :
    ∃ object s', openObject config storage schema s = .ok (object, s') ∧ Valid object.formatter := by
  rw [openObject]
  cases hcurrent : s.current with
  | some object => exact ⟨object, s, rfl, hvalid object hcurrent⟩
  | none =>
    obtain ⟨blocks, formatter, hblocks, hformatter⟩ := h.starts
    dsimp only
    rw [hblocks]
    exact ⟨_, _, rfl, hformatter⟩

variable (storage) in
/-- A chunk is processed without an exception. -/
lemma Formats.exists_processChunk (h : Formats config.format schema chunks Valid)
    (hvalid : ∀ object, s.current = some object → Valid object.formatter)
    {chunk : Option (Chunk R)} (hchunk : ∀ c, chunk = some c → c ∈ chunks) :
    ∃ s', processChunk config storage schema s chunk = .ok s' ∧
      ∀ object, s'.current = some object → Valid object.formatter := by
  have hsome : ∀ {object object' : OutputObject R φ σ}, Valid object.formatter →
      some object = some object' → Valid object'.formatter := by
    intro object object' hobject heq
    obtain rfl := Option.some.inj heq
    exact hobject
  cases chunk with
  | none => exact ⟨s, rfl, hvalid⟩
  | some chunk =>
    rw [processChunk]
    dsimp only
    split
    · exact ⟨s, rfl, hvalid⟩
    · obtain ⟨object, s₁, hopen, hobject⟩ := h.exists_openObject storage hvalid
      obtain ⟨blocks, formatter, hblocks, hformatter⟩ := h.processes chunk (hchunk _ rfl) _ hobject
      rw [hopen]
      dsimp only [bind, Except.bind]
      rw [hblocks]
      dsimp only
      split
      · exact ⟨_, rfl, fun _ => hsome hformatter⟩
      · split
        · -- the object is full
          set written := writeBlocks storage blocks (s₁.error, object.output)
          set object' : OutputObject R φ σ := { object with
            formatter := formatter, output := written.2, chunks := object.chunks ++ [chunk] }
          obtain ⟨s₂, hflush, hcurrent⟩ := h.exists_flush storage object' { s₁ with
            current := some object'
            error := written.1
            numRowsWritten := s₁.numRowsWritten + chunk.size } hformatter
          rw [hflush]
          refine ⟨_, rfl, ?_⟩
          intro object'' hobject''
          exact nomatch hcurrent.symm.trans hobject''
        · exact ⟨_, rfl, fun _ => hsome hformatter⟩

variable (storage) in
lemma Formats.exists_foldlM (h : Formats config.format schema chunks Valid)
    {input : List (Option (Chunk R))} (hinput : ∀ c, some c ∈ input → c ∈ chunks)
    (hvalid : ∀ object, s.current = some object → Valid object.formatter) :
    ∃ s', input.foldlM (processChunk config storage schema) s = .ok s' ∧
      ∀ object, s'.current = some object → Valid object.formatter := by
  induction input generalizing s with
  | nil => exact ⟨s, rfl, hvalid⟩
  | cons chunk input ih =>
    have hmem : ∀ c, chunk = some c → c ∈ chunks := by
      rintro c rfl
      exact hinput c List.mem_cons_self
    obtain ⟨s₁, hchunk, hvalid₁⟩ := h.exists_processChunk storage hvalid hmem
    obtain ⟨s', hrest, hvalid'⟩ := ih (fun c hc => hinput c (List.mem_cons_of_mem _ hc)) hvalid₁
    refine ⟨s', ?_, hvalid'⟩
    rw [List.foldlM_cons, hchunk]
    exact hrest

variable (storage) in
lemma Formats.exists_nonVirtualFinalize (h : Formats config.format schema chunks Valid)
    (hvalid : ∀ object, s.current = some object → Valid object.formatter) :
    ∃ s', nonVirtualFinalize config storage s = .ok s' ∧ s'.current = none := by
  rw [nonVirtualFinalize]
  cases hcurrent : s.current with
  | none => exact ⟨s, rfl, hcurrent⟩
  | some object => exact h.exists_flush storage object s (hvalid object hcurrent)

end

/-- Storage in memory. -/
def memory : WritableStorage Bytes where
  openForWriting _ := []
  writer := ⟨fun block content => (.success, content ++ block), fun content => (.success, content)⟩

/-- Chunks of two rows with one column. -/
def twoRows : Chunk ℚ := ⟨[.ofValues .int [.int 1, .int 2]]⟩

/-- Objects of at least three rows, as text. -/
def threeRows : PartitionedChunkWriterConfig ℚ ℕ where
  format := ExportOperator.csvFormatWriter (fun _ => [49]) {}
  namingStrategy := toString
  splitRows := 3

end PartitionedChunkWriter

end Skyrise

/-
The import of files, column by column.

A reader of a CSV file returns all its columns in the order of the file, and one of an
ORC or Parquet file the requested ones.  The operator selects the requested columns
from a chunk, unless there are as many in it.  Then it takes the chunk as it is, which
is right for what has been selected already and for all columns in their order, but not
for all columns in another order.

The jobs of the readers run one after the other.  A debug build compares the types of
the segments with the schema, which is left out.
-/
import Mathlib.Data.List.Basic
import Mathlib.Logic.Nontrivial.Basic
import Skyrise.Storage.IoHandle.InputHandler
import Skyrise.Storage.Table
import Skyrise.Utils.Assert

namespace Skyrise

namespace ImportOperator

variable {R : Type}

/-! ### The operator -/

/-- What a reader gives: its schema, its chunks and the error with which it ends. -/
structure ChunkReader (R : Type) where
  schema : Option (List TableColumnDefinition)
  chunks : List (Chunk R)
  error : Option String

/-- An element of a vector; there is an error for one that does not exist. -/
def elementAt {α : Type} (error : Exception) (l : List α) (columnId : UInt32) :
    Except Exception α :=
  match l[columnId.toNat]? with
  | some a => .ok a
  | none => .error error

/-- `ExtractSchema`. -/
def extractSchema (columnIds : List UInt32) (readerSchema : Option (List TableColumnDefinition)) :
    Except Exception (List TableColumnDefinition) := do
  match readerSchema with
  | none =>
    .error (.assertionFailed "The ChunkReader does not provide any table column information.")
  | some readerSchema =>
    assert (!columnIds.isEmpty && decide (columnIds.length ≤ readerSchema.length))
      "The number of ColumnIds is empty or exceeds the amount of columns within a table."
    if columnIds.length = readerSchema.length then return readerSchema
    else columnIds.mapM (elementAt .undefinedBehavior readerSchema)

/-- `GetNextChunk`, of the chunk that the reader returns. -/
def getNextChunk (columnIds : List UInt32) (readerChunk : Chunk R) : Except Exception (Chunk R) :=
  if readerChunk.segments.length = columnIds.length then .ok readerChunk
  else Chunk.mk <$> columnIds.mapM (elementAt .outOfRange readerChunk.segments)

/-- The chunks that are stored so far and the error of a reader. -/
structure State (R : Type) where
  chunks : List (Chunk R) := []
  readerError : Option String := none

/-- The loop over the chunks of a reader. -/
def storeChunks (columnIds : List UInt32) : List (Chunk R) → State R → Except Exception (State R)
  | [], state => .ok state
  | readerChunk :: readerChunks, state => do
    let chunk ← getNextChunk columnIds readerChunk
    if state.readerError.isNone then
      storeChunks columnIds readerChunks { state with chunks := state.chunks ++ [chunk] }
    else return state

/-- The job of a reader. -/
def readerJob (columnIds : List UInt32) (baseTableSchema : List TableColumnDefinition)
    (state : State R) (reader : ChunkReader R) : Except Exception (State R) :=
  match reader.schema with
  | none => .error .undefinedBehavior
  | some readerSchema =>
    if baseTableSchema ≠ readerSchema then
      .ok { state with readerError := some "Schema does not match between partitions." }
    else do
      let state ← storeChunks columnIds reader.chunks state
      return { state with readerError := reader.error.or state.readerError }

/-- `OnExecute` with the readers of the objects. -/
def onExecute (columnIds : List UInt32) (readers : List (ChunkReader R)) :
    Except Exception (Table R) := do
  match readers with
  | [] => .error .undefinedBehavior
  | first :: _ =>
    let loadedTableSchema ← extractSchema columnIds first.schema
    let state ← readers.foldlM (readerJob columnIds (first.schema.getD [])) {}
    match state.readerError with
    | some message => .error (.assertionFailed message)
    | none => return ⟨loadedTableSchema, state.chunks⟩

/-! ### Files and their readers -/

/-- The schema of a file. -/
structure FileSchema where
  definitions : List TableColumnDefinition
  dataTypes : ∀ d ∈ definitions, d.dataType ≠ .null

/-- The data of a file with a schema. -/
structure File (R : Type) (schema : FileSchema) where
  chunks : List (Chunk R)
  wellFormed : ∀ c ∈ chunks, c.WellFormed schema.definitions

/-- The requested columns of a chunk. -/
def requested (columnIds : List UInt32) (c : Chunk R) : Chunk R :=
  ⟨columnIds.map fun columnId => c.getSegment columnId.toNat⟩

/-- A reader of a file without errors: a CSV reader returns all columns, the others those that are
requested.  The schema is the one of the file. -/
def readerOf (importFormat : ImportFormat) (columnIds : List UInt32) {schema : FileSchema}
    (file : File R schema) : ChunkReader R where
  schema := some schema.definitions
  chunks :=
    match importFormat with
    | .csv => file.chunks
    | .orc | .parquet => file.chunks.map (requested columnIds)
  error := none

/-- The data of a column. -/
def column (chunks : List (Chunk R)) (columnId : ℕ) : List (AllTypeVariant R) :=
  chunks.flatMap fun c => (c.getSegment columnId).cells

/-- Every column of a table has the data of the file column that is requested in its place. -/
def InRequestedOrder (columnIds : List UInt32) {schema : FileSchema} (files : List (File R schema))
    (table : Table R) : Prop :=
  ∀ i (h : i < columnIds.length),
    column table.chunks i = column (files.flatMap File.chunks) columnIds[i].toNat

/-! ### What is stored -/

/-- The chunk that is stored for one of a reader. -/
def stored (columnIds : List UInt32) (c : Chunk R) : Chunk R :=
  if c.segments.length = columnIds.length then c else requested columnIds c

section

variable {columnIds : List UInt32} {schema : FileSchema} {importFormat : ImportFormat}
  {files : List (File R schema)}

lemma elementAt_eq_ok {α : Type} {error : Exception} {l : List α} {columnId : UInt32} {d : α}
    (h : columnId.toNat < l.length) : elementAt error l columnId = .ok (l.getD columnId.toNat d) := by
  rw [elementAt, List.getD_eq_getElem?_getD, List.getElem?_eq_getElem h]
  rfl

/-- What is stored is what is requested, unless all columns are requested in another order. -/
lemma getNextChunk_eq_ok {c : Chunk R}
    (h : c.segments.length = columnIds.length ∨ ∀ columnId ∈ columnIds,
      columnId.toNat < c.segments.length) :
    getNextChunk columnIds c = .ok (stored columnIds c) := by
  rw [getNextChunk, stored]
  split
  · rfl
  · next hne =>
    have hids := h.resolve_left hne
    rw [mapM_eq_ok (g := fun columnId => c.getSegment columnId.toNat)
      fun columnId hmem => elementAt_eq_ok (hids columnId hmem)]
    rfl

lemma storeChunks_eq_ok {chunks : List (Chunk R)} {state : State R}
    (herror : state.readerError = none) (h : ∀ c ∈ chunks,
      c.segments.length = columnIds.length ∨ ∀ columnId ∈ columnIds,
        columnId.toNat < c.segments.length) :
    storeChunks columnIds chunks state =
      .ok { state with chunks := state.chunks ++ chunks.map (stored columnIds) } := by
  induction chunks generalizing state with
  | nil => rw [storeChunks, List.map_nil, List.append_nil]
  | cons c chunks ih =>
    rw [List.forall_mem_cons] at h
    have hrest := @ih { state with chunks := state.chunks ++ [stored columnIds c] } herror h.2
    rw [List.append_assoc] at hrest
    rw [storeChunks, getNextChunk_eq_ok h.1]
    show (if state.readerError.isNone then _ else _) = _
    rw [if_pos (by rw [herror]; rfl)]
    exact hrest

/-- The segments of the chunks of a reader. -/
lemma segments_readerOf (hids : ∀ columnId ∈ columnIds, columnId.toNat < schema.definitions.length)
    (file : File R schema) : ∀ c ∈ (readerOf importFormat columnIds file).chunks,
      c.segments.length = columnIds.length ∨ ∀ columnId ∈ columnIds,
        columnId.toNat < c.segments.length := by
  have hrequested : ∀ c ∈ file.chunks.map (requested columnIds),
      c.segments.length = columnIds.length := by
    intro c hc
    obtain ⟨c, -, rfl⟩ := List.mem_map.mp hc
    exact List.length_map _
  intro c hc
  cases importFormat with
  | csv =>
    rw [(file.wellFormed _ hc).length_segments]
    exact .inr hids
  | orc => exact .inl (hrequested c hc)
  | parquet => exact .inl (hrequested c hc)

lemma foldlM_readerJob
    (hids : ∀ columnId ∈ columnIds, columnId.toNat < schema.definitions.length)
    {state : State R} (herror : state.readerError = none) :
    (files.map (readerOf importFormat columnIds)).foldlM
        (readerJob columnIds schema.definitions) state =
      .ok { state with chunks := state.chunks ++ files.flatMap fun file =>
        (readerOf importFormat columnIds file).chunks.map (stored columnIds) } := by
  induction files generalizing state with
  | nil =>
    rw [List.flatMap_nil, List.append_nil]
    rfl
  | cons file files ih =>
    have hjob : readerJob columnIds schema.definitions state
        (readerOf importFormat columnIds file) = .ok { state with
          chunks := state.chunks ++
            (readerOf importFormat columnIds file).chunks.map (stored columnIds) } := by
      rw [readerJob]
      show (if schema.definitions ≠ schema.definitions then _ else _) = _
      rw [if_neg (not_not_intro rfl), storeChunks_eq_ok herror (segments_readerOf hids file)]
      rfl
    have hrest := @ih { state with chunks := state.chunks ++
      (readerOf importFormat columnIds file).chunks.map (stored columnIds) } herror
    rw [List.append_assoc] at hrest
    rw [List.map_cons, List.foldlM_cons, hjob]
    exact hrest

/-- The schema for as many columns as there are. -/
lemma extractSchema_all (hlen : columnIds.length = schema.definitions.length)
    (hpos : 0 < columnIds.length) :
    extractSchema columnIds (some schema.definitions) = .ok schema.definitions := by
  have hne : columnIds.isEmpty = false := by
    rw [List.isEmpty_eq_false_iff]
    exact List.ne_nil_of_length_pos hpos
  rw [extractSchema, hne, decide_eq_true (Nat.le_of_eq hlen), if_pos hlen]
  rfl

/-- The table that is returned. -/
lemma onExecute_readerOf
    (hids : ∀ columnId ∈ columnIds, columnId.toNat < schema.definitions.length)
    (hfiles : files ≠ []) :
    onExecute columnIds (files.map (readerOf importFormat columnIds)) =
      (extractSchema columnIds (some schema.definitions)).map fun loadedTableSchema =>
        ⟨loadedTableSchema, files.flatMap fun file =>
          (readerOf importFormat columnIds file).chunks.map (stored columnIds)⟩ := by
  have hjobs := @foldlM_readerJob _ _ _ importFormat files hids {} rfl
  obtain ⟨file, rest, rfl⟩ := List.exists_cons_of_ne_nil hfiles
  rw [List.map_cons] at hjobs ⊢
  rw [onExecute]
  show (extractSchema columnIds (some schema.definitions) >>= fun loadedTableSchema => _) = _
  cases extractSchema columnIds (some schema.definitions) with
  | error e => rfl
  | ok loadedTableSchema =>
    show (List.foldlM (readerJob columnIds schema.definitions) {} _ >>= _) = _
    rw [hjobs]
    rfl

/-! ### Columns in the requested order -/

/-- The columns of a reader that selects them. -/
lemma column_map_requested (chunks : List (Chunk R)) {i : ℕ} (hi : i < columnIds.length) :
    column (chunks.map (requested columnIds)) i = column chunks columnIds[i].toNat := by
  rw [column, column, List.flatMap_map]
  refine List.flatMap_congr ?_
  intro c _
  rw [requested, Chunk.getSegment, List.getD_eq_getElem?_getD, List.getElem?_map,
    List.getElem?_eq_getElem hi]
  rfl

lemma map_stored_readerOf (file : File R schema) :
    (readerOf importFormat columnIds file).chunks.map (stored columnIds) =
      if importFormat = .csv ∧ columnIds.length = schema.definitions.length then file.chunks
      else file.chunks.map (requested columnIds) := by
  have hselected : (file.chunks.map (requested columnIds)).map (stored columnIds) =
      file.chunks.map (requested columnIds) := by
    rw [List.map_map]
    refine List.map_congr_left ?_
    intro c _
    exact if_pos (List.length_map _)
  cases importFormat with
  | csv =>
    show file.chunks.map (stored columnIds) = _
    split
    · next hlen =>
      conv_rhs => rw [← List.map_id file.chunks]
      refine List.map_congr_left ?_
      intro c hc
      exact if_pos (((file.wellFormed _ hc).length_segments).trans hlen.2.symm)
    · next hlen =>
      refine List.map_congr_left ?_
      intro c hc
      refine if_neg ?_
      intro heq
      exact hlen ⟨rfl, heq.symm.trans ((file.wellFormed _ hc).length_segments)⟩
  | orc => rw [if_neg (by simp)]; exact hselected
  | parquet => rw [if_neg (by simp)]; exact hselected

/-- The chunks of a table: those of the files as they are, or the requested columns of them. -/
lemma chunks_of_onExecute
    (hids : ∀ columnId ∈ columnIds, columnId.toNat < schema.definitions.length) {table : Table R}
    (h : onExecute columnIds (files.map (readerOf importFormat columnIds)) = .ok table) :
    table.chunks = if importFormat = .csv ∧ columnIds.length = schema.definitions.length
      then files.flatMap File.chunks
      else (files.flatMap File.chunks).map (requested columnIds) := by
  have hne : files ≠ [] := by
    rintro rfl
    cases h
  rw [onExecute_readerOf hids hne] at h
  cases hschema : extractSchema columnIds (some schema.definitions) with
  | error e =>
    rw [hschema] at h
    cases h
  | ok loadedTableSchema =>
    rw [hschema] at h
    obtain rfl := Except.ok.inj h
    show files.flatMap _ = _
    rw [List.map_flatMap]
    split
    · next hall =>
      refine List.flatMap_congr ?_
      intro file _
      rw [map_stored_readerOf, if_pos hall]
    · next hnot =>
      refine List.flatMap_congr ?_
      intro file _
      rw [map_stored_readerOf, if_neg hnot]

end

/-- A value of a type, one of two. -/
def sample (x y : R) : DataType → Bool → Value R
  | .null, b => .int (if b then 1 else 0)
  | .int, b => .int (if b then 1 else 0)
  | .long, b => .long (if b then 1 else 0)
  | .float, b => .float (if b then x else y)
  | .double, b => .double (if b then x else y)
  | .string, b => .string (if b then [0] else [])

/-- The two values are different. -/
lemma sample_true_ne_false {x y : R} (hne : x ≠ y) (t t' : DataType) :
    sample x y t true ≠ sample x y t' false := by
  cases t <;> cases t' <;> simp [sample, hne]

lemma dataType_sample {x y : R} {t : DataType} (ht : t ≠ .null) (b : Bool) :
    (sample x y t b).dataType = t := by
  cases t with
  | null => exact absurd rfl ht
  | _ => rfl

/-- A chunk with one row, in which one column has another value than the rest. -/
def oneRow (x y : R) (definitions : List TableColumnDefinition) (i : ℕ) : Chunk R :=
  ⟨definitions.mapIdx fun k d => .ofValues d.dataType [sample x y d.dataType (decide (k = i))]⟩

lemma exists_of_mem_oneRow {x y : R} {definitions : List TableColumnDefinition} {i : ℕ}
    {s : ValueSegment R} (h : s ∈ (oneRow x y definitions i).segments) :
    ∃ d ∈ definitions, ∃ b, s = .ofValues d.dataType [sample x y d.dataType b] := by
  obtain ⟨k, hk, rfl⟩ := List.mem_mapIdx.mp h
  exact ⟨_, List.getElem_mem hk, _, rfl⟩

/-- The file of this chunk. -/
def oneRowFile (x y : R) (schema : FileSchema) (i : ℕ) : File R schema where
  chunks := [oneRow x y schema.definitions i]
  wellFormed := by
    intro c hc
    obtain rfl := List.mem_singleton.mp hc
    have hsizes : ∀ s ∈ (oneRow x y schema.definitions i).segments, s.size = 1 := by
      intro s hs
      obtain ⟨d, -, b, rfl⟩ := exists_of_mem_oneRow hs
      rfl
    refine ⟨?_, ?_, ?_, ?_⟩
    · apply List.ext_getElem
      · simp [oneRow]
      · intro k h₁ h₂
        simp [oneRow, ValueSegment.ofValues]
    · intro s hs
      obtain ⟨d, hd, b, rfl⟩ := exists_of_mem_oneRow hs
      refine ValueSegment.WellFormed.mk (schema.dataTypes d hd) ?_ ?_
      · intro v hv
        obtain rfl := List.mem_singleton.mp hv
        exact dataType_sample (schema.dataTypes d hd) b
      · intro nulls hnulls
        cases hnulls
    · intro s hs
      rw [hsizes s hs, Chunk.size]
      split
      · next hnil =>
        rw [hnil] at hs
        cases hs
      · next first rest hcons => exact (hsizes first (hcons ▸ List.mem_cons_self)).symm
    · intro columnId d hd _ j
      rw [Chunk.getSegment, oneRow, List.getD_eq_getElem?_getD, List.getElem?_mapIdx, hd]
      rfl

/-- The column with another value differs from the rest. -/
lemma column_oneRow_ne {x y : R} (hne : x ≠ y) {definitions : List TableColumnDefinition} {i j : ℕ}
    (hi : i < definitions.length) (hj : j < definitions.length) (hij : j ≠ i) :
    column [oneRow x y definitions i] i ≠ column [oneRow x y definitions i] j := by
  have hcolumn : ∀ k (hk : k < definitions.length), column [oneRow x y definitions i] k =
      [some (sample x y definitions[k].dataType (decide (k = i)))] := by
    intro k hk
    rw [column, List.flatMap_singleton, Chunk.getSegment, oneRow, List.getD_eq_getElem?_getD,
      List.getElem?_mapIdx, List.getElem?_eq_getElem hk]
    rfl
  rw [hcolumn i hi, hcolumn j hj, decide_eq_true rfl, decide_eq_false hij]
  intro heq
  exact sample_true_ne_false hne _ _ (Option.some.inj (List.cons.inj heq).1)

/-- **The columns of an imported table.**  They are in the requested order for all files with a
schema, unless all columns of CSV files are requested in another order than that of the file. -/
theorem inRequestedOrder_iff [Nontrivial R] (importFormat : ImportFormat) (schema : FileSchema)
    (columnIds : List UInt32)
    (hids : ∀ columnId ∈ columnIds, columnId.toNat < schema.definitions.length) :
    (∀ (files : List (File R schema)) (table : Table R),
        onExecute columnIds (files.map (readerOf importFormat columnIds)) = .ok table →
          InRequestedOrder columnIds files table) ↔
      (importFormat = .csv → columnIds.length = schema.definitions.length →
        columnIds.map UInt32.toNat = List.range schema.definitions.length) := by
  constructor
  · intro h hcsv hlen
    subst hcsv
    by_contra hne
    -- some column is requested in the place of another
    obtain ⟨i, hi, hget⟩ : ∃ i, ∃ h : i < columnIds.length, columnIds[i].toNat ≠ i := by
      by_contra hall
      push Not at hall
      refine hne (List.ext_getElem (by simpa using hlen) ?_)
      intro i h₁ h₂
      have hi : i < columnIds.length := by simpa using h₁
      simpa using hall i hi
    obtain ⟨x, y, hxy⟩ := exists_pair_ne R
    have htable := @onExecute_readerOf _ _ _ .csv [oneRowFile x y schema i] hids
      (List.cons_ne_nil _ _)
    rw [extractSchema_all hlen (Nat.zero_lt_of_lt hi)] at htable
    have hchunks := chunks_of_onExecute hids htable
    rw [if_pos ⟨rfl, hlen⟩] at hchunks
    have hcolumn := h _ _ htable i hi
    rw [hchunks] at hcolumn
    exact column_oneRow_ne hxy (hlen ▸ hi) (hids _ (List.getElem_mem hi)) hget hcolumn
  · intro h files table htable i hi
    rw [chunks_of_onExecute hids htable]
    split
    · next hall =>
      -- the file columns are requested in their order
      have hrange := h hall.1 hall.2
      have hget : columnIds[i].toNat = i := by
        have heq := congrArg (fun l : List ℕ => l[i]?) hrange
        simpa [hi, hall.2 ▸ hi] using heq
      rw [hget]
    · exact column_map_requested _ hi

/-- A file with a column of ones and a column of twos. -/
def onesAndTwos : File ℚ ⟨[⟨"one", .int, false⟩, ⟨"two", .int, false⟩], by decide⟩ where
  chunks := [⟨[.ofValues .int [.int 1], .ofValues .int [.int 2]]⟩]
  wellFormed := by
    intro c hc
    obtain rfl := List.mem_singleton.mp hc
    refine ⟨rfl, ?_, by decide, ?_⟩
    · intro s hs
      rcases List.mem_pair.mp hs with rfl | rfl
      · exact ValueSegment.wellFormed_ofValues (by decide) (by decide)
      · exact ValueSegment.wellFormed_ofValues (by decide) (by decide)
    · intro columnId d _ _ j
      rcases columnId with - | - | columnId <;> rfl

/-- The columns of a Parquet file with this content are exchanged. -/
theorem inRequestedOrder_parquet_exchanged : InRequestedOrder [1, 0] [onesAndTwos]
    ⟨[⟨"one", .int, false⟩, ⟨"two", .int, false⟩],
      [⟨[.ofValues .int [.int 2], .ofValues .int [.int 1]]⟩]⟩ := by
  refine (inRequestedOrder_iff .parquet _ [1, 0] (by simp)).mpr ?_ [onesAndTwos] _ (by rfl)
  intro h
  cases h

/-- Those of a CSV file are not. -/
theorem not_inRequestedOrder_csv_exchanged : ∃ table,
    onExecute [1, 0] ([onesAndTwos].map (readerOf .csv [1, 0])) = .ok table ∧
      ¬ InRequestedOrder [1, 0] [onesAndTwos] table := by
  refine ⟨_, by rfl, ?_⟩
  intro h
  exact absurd (h 0 (by decide)) (by decide)

end ImportOperator

end Skyrise

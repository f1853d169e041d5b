/-
Reading a CSV file.

The file is read buffer by buffer.  If the buffer is full, it is cut behind its last
newline, as the line that follows may go on behind it; newlines at its end are
dropped.  The next buffer starts where the last one ended.  The lines of a buffer
that are not blank are split at the delimiter, and every column of the schema is
converted to its type.  Lines of a header and of types are ignored in the first
chunk.

The delimiter and whether there is a header or a line of types are given, as is the
schema.  Converting a text to a number is a parameter.
-/
import Skyrise.Json.Text
import Skyrise.Storage.Table
import Skyrise.Utils.Assert
import Skyrise.Utils.FieldColumns
import Skyrise.Utils.Lines

namespace Skyrise

variable {R : Type}

/-- The newline. -/
def newline : UInt8 := 10

namespace CsvFormatReader

/-- What is thrown while a chunk is built. -/
inductive ReadException where
  /-- `at` was called for a column that there is not. -/
  | outOfRange
  /-- A text was converted that is not a number. -/
  | invalidArgument
  /-- `Fail` was called. -/
  | failed (message : String)
deriving DecidableEq, Repr

/-- `CsvFormatReaderOptions`, where nothing is guessed. -/
structure Options where
  /-- The number of bytes that are read at once. -/
  readBufferSize : ℕ
  /-- What separates the fields of a line. -/
  delimiter : UInt8
  /-- Whether the first line holds the names of the columns. -/
  hasHeader : Bool
  /-- Whether a line holds the types of the columns. -/
  hasTypes : Bool
  /-- The schema. -/
  expectedSchema : List TableColumnDefinition

/-- `ToNumber`, which converts a text to a number of a type if it is one. -/
abbrev ToNumber (R : Type) := DataType → Bytes → Option (Value R)

/-- The members of a reader. -/
structure Reader where
  /-- What was read last. -/
  buffer : Bytes := []
  /-- The fields of the lines in the buffer, column by column. -/
  columns : List (List Bytes) := []
  /-- Where the next buffer starts. -/
  chunkOffset : ℕ := 0
  /-- Whether the end of the file was reached. -/
  readFullFile : Bool := false
  /-- The number of lines that the next chunk ignores. -/
  numIgnoreLines : ℕ := 0
  /-- Whether an error was set. -/
  hasError : Bool := false
deriving DecidableEq, Repr

/-! ### The buffer -/

/-- `ObjectBuffer::Read` of a file. -/
def readObject (source : Bytes) (offset nBytes : ℕ) : Bytes := (source.drop offset).take nBytes

/-- `FillBuffer`. -/
def fillBuffer (options : Options) (source : Bytes) (r : Reader) : Reader :=
  if r.readFullFile then { r with buffer := [] }
  else
    let buffer := readObject source r.chunkOffset options.readBufferSize
    let isFull := decide (buffer.length = options.readBufferSize)
    let buffer :=
      -- the lines in front of the last newline are complete
      if buffer.length = options.readBufferSize ∧ newline ∈ buffer then
        buffer.rdropWhile fun c => decide (c ≠ newline)
      else buffer
    let buffer := buffer.rdropWhile fun c => decide (c = newline)
    { r with
      buffer := buffer
      readFullFile := !isFull
      chunkOffset := r.chunkOffset + buffer.length }

/-! ### The columns -/

/-- What is done with a field: it is added to the column with its index, which is new if there are
just as many columns. -/
def addField (columns : List (List Bytes)) (field : Bytes × ℕ) : List (List Bytes) :=
  let columns := if columns.length = field.2 then columns ++ [[]] else columns
  columns.modify field.2 (· ++ [field.1])

/-- What is done with a line. -/
def addLine (delimiter : UInt8) (columns : List (List Bytes)) (line : Bytes) : List (List Bytes) :=
  if line.isEmpty then columns
  else (Lines.split delimiter line).zipIdx.foldl addField columns

/-- `ExtractColumns`. -/
def extractColumns (options : Options) (r : Reader) : Reader :=
  { r with columns := (Lines.split newline r.buffer).foldl (addLine options.delimiter) [] }

/-! ### The chunks -/

/-- `ParseSegmentForDataType`. -/
def parseSegmentForDataType (toNumber : ToNumber R) (type : DataType) (column : List Bytes)
    (skipLines : ℕ) :
    Except ReadException (ValueSegment R) :=
  match type with
  | .string => .ok (.ofValues .string ((column.drop skipLines).map .string))
  | .null => .error (.failed "Encountered invalid type")
  | type => do
    let values ← (column.drop skipLines).mapM fun value =>
      match toNumber type value with
      | some number => Except.ok number
      | none => .error .invalidArgument
    return .ofValues type values

/-- The segments of the next chunk. -/
def parseSegments (toNumber : ToNumber R) (options : Options) (r : Reader) :
    Except ReadException (List (ValueSegment R)) :=
  options.expectedSchema.zipIdx.mapM fun definition =>
    match r.columns[definition.2]? with
    | some column => parseSegmentForDataType toNumber definition.1.dataType column r.numIgnoreLines
    | none => .error .outOfRange

/-- `HasNext`. -/
def hasNext (r : Reader) : Bool :=
  !r.hasError && !r.buffer.isEmpty &&
    match r.columns with
    | [] => false
    | column :: _ => decide (r.numIgnoreLines < column.length)

/-- `Next`; the chunk is missing if the fields of a line do not fit the schema. -/
def next (toNumber : ToNumber R) (options : Options) (source : Bytes) (r : Reader) :
    Except Exception (Option (Chunk R) × Reader) :=
  match parseSegments toNumber options r with
  | .error (.failed message) => .error (.assertionFailed message)
  | .error _ => .ok (none, { r with hasError := true })
  | .ok segments => .ok (some ⟨segments⟩,
      extractColumns options (fillBuffer options source { r with numIgnoreLines := 0 }))

/-- The number of lines in front of the rows. -/
def Options.ignoredLines (options : Options) : ℕ :=
  (if options.hasHeader then 1 else 0) + if options.hasTypes then 1 else 0

/-- The constructor. -/
def init (options : Options) (source : Bytes) : Reader :=
  { extractColumns options (fillBuffer options source {}) with
    numIgnoreLines := options.ignoredLines }

/-- The rows of the chunks that `Next` returns while `HasNext` holds, for at most so many chunks. -/
def readRows (toNumber : ToNumber R) (options : Options) (source : Bytes) : ℕ → Reader →
    Except Exception (List (List (AllTypeVariant R)))
  | 0, _ => .ok []
  | fuel + 1, r =>
    if hasNext r then do
      let (chunk, r) ← next toNumber options source r
      let rows ← readRows toNumber options source fuel r
      return (chunk.map Chunk.rows).getD [] ++ rows
    else .ok []

/-! ### The rows of a file -/

/-- What a field is converted to. -/
def convert (toNumber : ToNumber R) (type : DataType) (field : Bytes) : AllTypeVariant R :=
  if type = .string then some (.string field) else toNumber type field

/-- The row of a line. -/
def parseLine (toNumber : ToNumber R) (options : Options) (line : Bytes) : List (AllTypeVariant R) :=
  options.expectedSchema.zipIdx.map fun definition =>
    convert toNumber definition.1.dataType ((Lines.split options.delimiter line).getD definition.2 [])

/-- The rows of a file, of which the lines that are not blank are parsed at once. -/
def rowsOfFile (toNumber : ToNumber R) (options : Options) (source : Bytes) :
    List (List (AllTypeVariant R)) :=
  ((Lines.nonempty newline source).drop options.ignoredLines).map (parseLine toNumber options)

/-- A file that matches the schema: every line that is not blank has a field for each column, and
every field of a row can be converted. -/
structure Matches (toNumber : ToNumber R) (options : Options) (source : Bytes) : Prop where
  columns : options.expectedSchema ≠ []
  dataTypes : ∀ d ∈ options.expectedSchema, d.dataType ≠ .null
  fields : ∀ line ∈ Lines.nonempty newline source,
    options.expectedSchema.length ≤ (Lines.split options.delimiter line).length
  converts : ∀ line ∈ (Lines.nonempty newline source).drop options.ignoredLines,
    none ∉ parseLine toNumber options line

variable {toNumber : ToNumber R} {options : Options} {source : Bytes} {columns : List (List Bytes)}
  {fields : List Bytes} {lines : List Bytes} {k i : ℕ}

/-! ### Extracting columns -/

/-- A line that is not blank adds its fields. -/
lemma addLine_eq (columns : List (List Bytes)) (delimiter : UInt8) {line : Bytes}
    (hline : line ≠ []) :
    addLine delimiter columns line =
      FieldColumns.addFields columns (Lines.split delimiter line) := by
  have hempty : line.isEmpty = false := List.isEmpty_eq_false_iff.mpr hline
  rw [addLine, hempty, if_neg Bool.false_ne_true]
  rfl

lemma addLine_spec (columns : List (List Bytes)) (delimiter : UInt8) (i : ℕ) {line : Bytes}
    (hline : line ≠ []) :
    (addLine delimiter columns line).length =
        max columns.length (Lines.split delimiter line).length ∧
      (addLine delimiter columns line).getD i [] =
        columns.getD i [] ++ ((Lines.split delimiter line)[i]?).toList := by
  rw [addLine_eq columns delimiter hline]
  exact ⟨FieldColumns.length_addFields _ _, FieldColumns.getD_addFields _ _ i⟩

/-- The columns of lines that are not blank. -/
lemma foldl_addLine_spec (columns : List (List Bytes)) (delimiter : UInt8) (i : ℕ)
    (hlines : ∀ line ∈ lines, line ≠ []) :
    columns.length ≤ (lines.foldl (addLine delimiter) columns).length ∧
      (∀ line ∈ lines, (Lines.split delimiter line).length ≤
        (lines.foldl (addLine delimiter) columns).length) ∧
      (lines.foldl (addLine delimiter) columns).getD i [] =
        columns.getD i [] ++ lines.flatMap fun line =>
          ((Lines.split delimiter line)[i]?).toList := by
  induction lines generalizing columns with
  | nil => simp
  | cons line lines ih =>
    rw [List.forall_mem_cons] at hlines
    obtain ⟨hlength, hget⟩ := addLine_spec columns delimiter i hlines.1
    obtain ⟨hle, hall, hget'⟩ := ih (addLine delimiter columns line) hlines.2
    rw [hlength] at hle
    refine ⟨by rw [List.foldl_cons]; omega, List.forall_mem_cons.mpr ⟨?_, hall⟩, ?_⟩
    · rw [List.foldl_cons]
      omega
    · rw [List.foldl_cons, hget', hget, List.flatMap_cons, List.append_assoc]

/-- Blank lines are skipped. -/
lemma foldl_addLine_filter (delimiter : UInt8) (lines : List Bytes) :
    lines.foldl (addLine delimiter) columns =
      (lines.filter fun line => decide (line ≠ [])).foldl (addLine delimiter) columns := by
  induction lines generalizing columns with
  | nil => rfl
  | cons line lines ih =>
    cases line with
    | nil => rw [List.foldl_cons, List.filter_cons_of_neg (by simp), ← ih]; rfl
    | cons c line => rw [List.foldl_cons, List.filter_cons_of_pos (by simp), List.foldl_cons, ih]

/-- The columns are those of the buffer. -/
def Extracted (options : Options) (r : Reader) : Prop :=
  r.columns = (Lines.nonempty newline r.buffer).foldl (addLine options.delimiter) []

lemma extracted_extractColumns (r : Reader) : Extracted options (extractColumns options r) :=
  foldl_addLine_filter _ _

lemma ne_nil_of_mem_nonempty {line s : Bytes} (h : line ∈ Lines.nonempty newline s) : line ≠ [] := by
  simpa using (List.mem_filter.mp h).2

variable {r : Reader}

/-- A column of lines that all have a field for it. -/
lemma column_eq_map (delimiter : UInt8) (i : ℕ) (hlines : ∀ line ∈ lines, line ≠ [])
    (hi : ∀ line ∈ lines, i < (Lines.split delimiter line).length) :
    (lines.foldl (addLine delimiter) []).getD i [] =
      lines.map fun line => (Lines.split delimiter line).getD i [] := by
  rw [(foldl_addLine_spec [] delimiter i hlines).2.2, List.getD_nil, List.nil_append, List.map_eq_flatMap]
  refine List.flatMap_congr fun line hline => ?_
  rw [List.getD_eq_getElem?_getD, List.getElem?_eq_getElem (hi line hline)]
  rfl

/-- There is a next chunk if the buffer has more lines than are ignored. -/
lemma hasNext_eq (h : Extracted options r) (herror : r.hasError = false) :
    hasNext r = decide (r.numIgnoreLines < (Lines.nonempty newline r.buffer).length) := by
  have hlines : ∀ line ∈ Lines.nonempty newline r.buffer, line ≠ [] := fun _ =>
    ne_nil_of_mem_nonempty
  have hfirst := column_eq_map options.delimiter 0 hlines fun line _ =>
    List.length_pos_iff.mpr (Lines.split_ne_nil _ line)
  rw [← h] at hfirst
  rw [hasNext, herror]
  cases hcolumns : r.columns with
  | nil =>
    rw [hcolumns, List.getD_nil] at hfirst
    have hnil : Lines.nonempty newline r.buffer = [] := List.map_eq_nil_iff.mp hfirst.symm
    simp [hnil]
  | cons column columns =>
    rw [hcolumns, List.getD_cons_zero] at hfirst
    have hbuffer : r.buffer.isEmpty = false := by
      rw [List.isEmpty_eq_false_iff]
      intro hnil
      rw [Extracted, hnil, hcolumns] at h
      cases h
    simp [hbuffer, hfirst]

/-! ### Parsing a chunk -/

/-- The value of a field that can be converted. -/
def fieldValue (toNumber : ToNumber R) (type : DataType) (field : Bytes) : Value R :=
  (convert toNumber type field).getD (.string [])

lemma some_fieldValue {type : DataType} {field : Bytes} (h : convert toNumber type field ≠ none) :
    some (fieldValue toNumber type field) = convert toNumber type field := by
  rw [fieldValue]
  obtain ⟨v, hv⟩ := Option.ne_none_iff_exists'.mp h
  rw [hv]
  rfl

lemma parseSegmentForDataType_eq {type : DataType} {column : List Bytes} (htype : type ≠ .null)
    (h : ∀ field ∈ column.drop k, convert toNumber type field ≠ none) :
    parseSegmentForDataType toNumber type column k =
      .ok (.ofValues type ((column.drop k).map (fieldValue toNumber type))) := by
  have hnumbers : type ≠ .string → ((column.drop k).mapM fun value =>
      match toNumber type value with
      | some number => Except.ok number
      | none => Except.error ReadException.invalidArgument) =
        .ok ((column.drop k).map (fieldValue toNumber type)) := by
    intro hstring
    refine mapM_eq_ok fun field hfield => ?_
    have hconvert := some_fieldValue (h field hfield)
    rw [convert, if_neg hstring] at hconvert
    rw [← hconvert]
  cases type with
  | null => exact absurd rfl htype
  | string => rfl
  | int | long | float | double =>
    show Except.bind _ _ = _
    rw [hnumbers (by decide)]
    rfl

/-- The chunk of a buffer whose lines match the schema has their rows. -/
lemma parseSegments_eq (h : Extracted options r) (hne : options.expectedSchema ≠ [])
    (htypes : ∀ d ∈ options.expectedSchema, d.dataType ≠ .null)
    (hlines : Lines.nonempty newline r.buffer ≠ [])
    (hfields : ∀ line ∈ Lines.nonempty newline r.buffer,
      options.expectedSchema.length ≤ (Lines.split options.delimiter line).length)
    (hconverts : ∀ line ∈ (Lines.nonempty newline r.buffer).drop r.numIgnoreLines,
      none ∉ parseLine toNumber options line) :
    ∃ segments, parseSegments toNumber options r = .ok segments ∧
      (⟨segments⟩ : Chunk R).rows = ((Lines.nonempty newline r.buffer).drop r.numIgnoreLines).map
        (parseLine toNumber options) := by
  set ls := Lines.nonempty newline r.buffer with hls
  refine ⟨_, mapM_eq_ok (g := fun definition : TableColumnDefinition × ℕ =>
    .ofValues definition.1.dataType ((ls.drop r.numIgnoreLines).map fun line =>
      fieldValue toNumber definition.1.dataType
        ((Lines.split options.delimiter line).getD definition.2 []))) ?_, ?_⟩
  · rintro ⟨d, i⟩ hmem
    have hget : options.expectedSchema[i]? = some d := List.mem_zipIdx_iff_getElem?.mp hmem
    obtain ⟨hi, rfl⟩ := List.getElem?_eq_some_iff.mp hget
    have hwide : ∀ line ∈ ls, i < (Lines.split options.delimiter line).length := fun line hline =>
      Nat.lt_of_lt_of_le hi (hfields line hline)
    obtain ⟨-, hall, -⟩ := foldl_addLine_spec [] options.delimiter 0 fun line (hline : line ∈ ls) =>
      ne_nil_of_mem_nonempty hline
    have hcolumn := column_eq_map options.delimiter i (fun _ => ne_nil_of_mem_nonempty) hwide
    rw [← h] at hall hcolumn
    obtain ⟨line, hline⟩ := List.exists_mem_of_ne_nil _ hlines
    have hlt : i < r.columns.length := Nat.lt_of_lt_of_le (hwide line hline) (hall line hline)
    have hsome : r.columns[i]? = some (ls.map fun line =>
        (Lines.split options.delimiter line).getD i []) := by
      rw [← hcolumn, List.getD_eq_getElem?_getD, List.getElem?_eq_getElem hlt]
      rfl
    simp only [hsome]
    rw [parseSegmentForDataType_eq (htypes _ (List.getElem_mem hi)), ← List.map_drop, List.map_map]
    · rfl
    · intro field hfield
      rw [← List.map_drop] at hfield
      obtain ⟨line, hline, rfl⟩ := List.mem_map.mp hfield
      intro hnone
      exact hconverts line hline (List.mem_map.mpr ⟨(_, i), hmem, hnone⟩)
  · have hfs : (options.expectedSchema.zipIdx.map fun definition line =>
        convert toNumber definition.1.dataType
          ((Lines.split options.delimiter line).getD definition.2 [])) ≠ [] := by
      rw [ne_eq, List.map_eq_nil_iff, List.zipIdx_eq_nil_iff]
      exact hne
    rw [Chunk.rows_eq_map_of_cells (ls.drop r.numIgnoreLines) hfs]
    · refine List.map_congr_left fun line _ => ?_
      rw [List.map_map]
      rfl
    · rw [List.map_map, List.map_map]
      refine List.map_congr_left fun definition hmem => ?_
      show ValueSegment.cells (.ofValues _ _) = _
      rw [ValueSegment.cells_ofValues, List.map_map]
      refine List.map_congr_left fun line hline => ?_
      refine some_fieldValue fun hnone => hconverts line hline ?_
      exact List.mem_map.mpr ⟨definition, hmem, hnone⟩

/-! ### Reading buffer by buffer -/

/-- What a reader has read of what was left of the file. -/
structure Reads (options : Options) (source : Bytes) (r : Reader) (left : Bytes) : Prop where
  extracted : Extracted options r
  noError : r.hasError = false
  buffer : r.buffer = Lines.kept newline options.readBufferSize left
  ended : r.readFullFile = true →
    Lines.nonempty newline (Lines.rest newline options.readBufferSize left) = []
  goesOn : r.readFullFile = false →
    source.drop r.chunkOffset = Lines.rest newline options.readBufferSize left

/-- Filling the buffer of a reader that is not at the end. -/
lemma reads_fillBuffer (hfull : r.readFullFile = false) (herror : r.hasError = false) :
    Reads options source (extractColumns options (fillBuffer options source r))
      (source.drop r.chunkOffset) := by
  have hbuffer : (fillBuffer options source r).buffer =
      Lines.kept newline options.readBufferSize (source.drop r.chunkOffset) := by
    rw [fillBuffer, hfull, if_neg Bool.false_ne_true]
    rfl
  have hended : (fillBuffer options source r).readFullFile =
      !decide ((readObject source r.chunkOffset options.readBufferSize).length =
        options.readBufferSize) := by
    simp [fillBuffer, hfull]
  have hoffset : (fillBuffer options source r).chunkOffset =
      r.chunkOffset + (fillBuffer options source r).buffer.length := by
    simp [fillBuffer, hfull]
  refine ⟨extracted_extractColumns _, ?_, hbuffer, fun hend => ?_, fun _ => ?_⟩
  · show (fillBuffer options source r).hasError = false
    simp [fillBuffer, hfull, herror]
  · refine Lines.nonempty_rest_of_length_lt ?_
    have hshort : ¬ (readObject source r.chunkOffset options.readBufferSize).length =
        options.readBufferSize := by
      have hend' : (fillBuffer options source r).readFullFile = true := hend
      rw [hended] at hend'
      simpa using hend'
    rw [readObject, List.length_take] at hshort
    omega
  · show source.drop (fillBuffer options source r).chunkOffset = _
    rw [hoffset, hbuffer, ← List.drop_drop]
    rfl

/-- Filling the buffer at the end of the file empties it. -/
lemma hasNext_fillBuffer_of_ended (hfull : r.readFullFile = true) :
    hasNext (extractColumns options (fillBuffer options source r)) = false := by
  simp [hasNext, extractColumns, fillBuffer, hfull]

variable {left : Bytes} {fuel : ℕ}

/-- The lines that are left match the schema. -/
structure LinesMatch (toNumber : ToNumber R) (options : Options) (lines : List Bytes) : Prop where
  fields : ∀ line ∈ lines,
    options.expectedSchema.length ≤ (Lines.split options.delimiter line).length
  converts : ∀ line ∈ lines, none ∉ parseLine toNumber options line

/-- The rows of the next chunk, and what is read after it. -/
lemma readRows_succ (hne : options.expectedSchema ≠ [])
    (htypes : ∀ d ∈ options.expectedSchema, d.dataType ≠ .null) (h : Reads options source r left)
    (hnext : r.numIgnoreLines < (Lines.nonempty newline r.buffer).length)
    (hfields : ∀ line ∈ Lines.nonempty newline r.buffer,
      options.expectedSchema.length ≤ (Lines.split options.delimiter line).length)
    (hconverts : ∀ line ∈ (Lines.nonempty newline r.buffer).drop r.numIgnoreLines,
      none ∉ parseLine toNumber options line)
    {rows : List (List (AllTypeVariant R))}
    (hrows : readRows toNumber options source fuel (extractColumns options
      (fillBuffer options source { r with numIgnoreLines := 0 })) = .ok rows) :
    readRows toNumber options source (fuel + 1) r =
      .ok (((Lines.nonempty newline r.buffer).drop r.numIgnoreLines).map
        (parseLine toNumber options) ++ rows) := by
  have hlines : Lines.nonempty newline r.buffer ≠ [] := by
    intro hnil
    rw [hnil] at hnext
    exact absurd hnext (Nat.not_lt_zero _)
  obtain ⟨segments, hsegments, hchunk⟩ :=
    parseSegments_eq h.extracted hne htypes hlines hfields hconverts
  rw [readRows, hasNext_eq h.extracted h.noError, if_pos (decide_eq_true hnext), next, hsegments]
  show Except.bind (readRows toNumber options source fuel _) _ = _
  rw [hrows, ← hchunk]
  rfl

/-- After its buffer, a reader reads the lines of the following windows, until a window keeps
nothing. -/
lemma readRows_rest (hn : 0 < options.readBufferSize) (hne : options.expectedSchema ≠ [])
    (htypes : ∀ d ∈ options.expectedSchema, d.dataType ≠ .null)
    (hholds : Lines.Holds newline options.readBufferSize left) (h : Reads options source r left)
    (hmatch : LinesMatch toNumber options
      (Lines.nonempty newline (Lines.rest newline options.readBufferSize left)))
    (hfuel : (Lines.rest newline options.readBufferSize left).length < fuel) :
    readRows toNumber options source fuel (extractColumns options
        (fillBuffer options source { r with numIgnoreLines := 0 })) = .ok
      ((Lines.readInWindows newline options.readBufferSize
        (Lines.rest newline options.readBufferSize left)).map (parseLine toNumber options)) := by
  induction fuel generalizing r left with
  | zero => exact absurd hfuel (Nat.not_lt_zero _)
  | succ fuel ih =>
    have hholds' := Lines.holds_of_atDelimiter hn (Lines.atDelimiter_rest hholds)
    rcases Bool.eq_false_or_eq_true r.readFullFile with hfull | hfull
    · -- only newlines are left, and nothing is read any more
      have hlead := Lines.readInWindows_isPrefix hn hholds'
      rw [h.ended hfull] at hlead
      rw [List.prefix_nil.mp hlead, readRows,
        hasNext_fillBuffer_of_ended (r := { r with numIgnoreLines := 0 }) hfull]
      rfl
    · have hreads : Reads options source (extractColumns options
          (fillBuffer options source { r with numIgnoreLines := 0 }))
            (Lines.rest newline options.readBufferSize left) := by
        rw [← h.goesOn hfull]
        exact reads_fillBuffer (r := { r with numIgnoreLines := 0 }) hfull h.noError
      have hignore : (extractColumns options
          (fillBuffer options source { r with numIgnoreLines := 0 })).numIgnoreLines = 0 := by
        show (fillBuffer options source { r with numIgnoreLines := 0 }).numIgnoreLines = 0
        simp [fillBuffer, hfull]
      generalize extractColumns options
        (fillBuffer options source { r with numIgnoreLines := 0 }) = r' at hreads hignore
      generalize Lines.rest newline options.readBufferSize left = left' at hreads hmatch hfuel hholds'
      rw [Lines.readInWindows]
      split
      · next hkept =>
        rw [readRows, hasNext_eq hreads.extracted hreads.noError, hreads.buffer, hkept]
        rfl
      · next hkept =>
        rw [Lines.nonempty_kept_append hholds', ← hreads.buffer] at hmatch
        obtain ⟨hfields, hconverts⟩ := hmatch
        rw [List.forall_mem_append] at hfields hconverts
        have hpos := List.length_pos_iff.mpr (Lines.nonempty_kept_ne_nil hkept)
        have hlength := Lines.length_rest_lt hkept
        rw [← hreads.buffer] at hpos
        rw [readRows_succ hne htypes hreads (by rw [hignore]; exact hpos) hfields.1
          (by rw [hignore]; exact hconverts.1)
          (ih hholds' hreads ⟨hfields.2, hconverts.2⟩ (by omega)), hignore, List.drop_zero,
          hreads.buffer, List.map_append]

/-- The buffers hold the rows of a file: there are none, or the first buffer reaches beyond the
ignored lines and every following one holds a line that is not blank as long as there is one. -/
def Buffered (options : Options) (source : Bytes) : Prop :=
  (Lines.nonempty newline source).length ≤ options.ignoredLines ∨
    options.ignoredLines <
        (Lines.nonempty newline (Lines.kept newline options.readBufferSize source)).length ∧
      Lines.Aligned newline options.readBufferSize
        (Lines.rest newline options.readBufferSize source)

/-- The rows that are read are those of the first lines of the file, and of all lines if and only if
the buffers hold the rows. -/
lemma exists_readRows_init (hmatch : Matches toNumber options source)
    (hfirst : options.ignoredLines = 0 → Lines.Holds newline options.readBufferSize source)
    (hfuel : source.length < fuel) :
    ∃ lines, readRows toNumber options source fuel (init options source) =
        .ok (lines.map (parseLine toNumber options)) ∧
      lines <+: (Lines.nonempty newline source).drop options.ignoredLines ∧
      (lines = (Lines.nonempty newline source).drop options.ignoredLines ↔
        Buffered options source) := by
  obtain ⟨fuel, rfl⟩ := Nat.exists_eq_succ_of_ne_zero (Nat.ne_zero_of_lt hfuel)
  have hreads : Reads options source (init options source) source := by
    have hfill : Reads options source (extractColumns options (fillBuffer options source {}))
      (source.drop 0) := reads_fillBuffer rfl rfl
    exact ⟨hfill.extracted, hfill.noError, hfill.buffer, hfill.ended, hfill.goesOn⟩
  have hbuffer := hreads.buffer
  have hignore : (init options source).numIgnoreLines = options.ignoredLines := rfl
  by_cases hnext : options.ignoredLines <
      (Lines.nonempty newline (Lines.kept newline options.readBufferSize source)).length
  · have hkept : Lines.kept newline options.readBufferSize source ≠ [] := fun hkept => by
      rw [hkept] at hnext
      exact absurd hnext (Nat.not_lt_zero _)
    have hn : 0 < options.readBufferSize := Lines.pos_of_kept_ne_nil hkept
    have hwindow : Lines.Holds newline options.readBufferSize source := by
      rcases Nat.eq_zero_or_pos options.ignoredLines with hzero | hpos
      · exact hfirst hzero
      · exact Lines.holds_of_one_lt (by omega)
    have hsplit := Lines.nonempty_kept_append hwindow
    have hlength := Lines.length_rest_lt hkept
    have hfields := hmatch.fields
    have hconverts := hmatch.converts
    rw [hsplit] at hfields hconverts
    rw [List.drop_append_of_le_length hnext.le, List.forall_mem_append] at hconverts
    rw [List.forall_mem_append] at hfields
    have hholds := Lines.holds_of_atDelimiter hn (Lines.atDelimiter_rest hwindow)
    refine ⟨(Lines.nonempty newline (Lines.kept newline options.readBufferSize source)).drop
        options.ignoredLines ++ Lines.readInWindows newline options.readBufferSize
          (Lines.rest newline options.readBufferSize source), ?_, ?_, ?_⟩
    · rw [readRows_succ hmatch.columns hmatch.dataTypes hreads (by rw [hbuffer]; exact hnext)
        (by rw [hbuffer]; exact hfields.1) (by rw [hbuffer]; exact hconverts.1)
        (readRows_rest hn hmatch.columns hmatch.dataTypes hwindow hreads
          ⟨hfields.2, hconverts.2⟩ (by omega)), hbuffer, hignore, List.map_append]
    · rw [hsplit, List.drop_append_of_le_length hnext.le]
      exact (List.prefix_append_right_inj _).mpr (Lines.readInWindows_isPrefix hn hholds)
    · rw [hsplit, List.drop_append_of_le_length hnext.le, List.append_cancel_left_eq,
        Lines.readInWindows_eq_iff hn hholds]
      constructor
      · intro haligned
        exact .inr ⟨hnext, haligned⟩
      · rintro (hle | ⟨-, haligned⟩)
        · rw [hsplit, List.length_append] at hle
          omega
        · exact haligned
  · refine ⟨[], ?_, List.nil_prefix, ?_⟩
    · rw [readRows, hasNext_eq hreads.extracted hreads.noError, hbuffer, hignore,
        if_neg (by simpa using hnext)]
      rfl
    · rw [eq_comm, List.drop_eq_nil_iff]
      constructor
      · exact .inl
      · rintro (hle | ⟨hlt, -⟩)
        · exact hle
        · exact absurd hlt hnext

/-- A reader of one column of strings. -/
def stringOptions (readBufferSize : ℕ) : Options :=
  ⟨readBufferSize, 44, false, false, [⟨"name", .string, false⟩]⟩

/-- No text is a number. -/
def noNumbers : ToNumber ℚ := fun _ _ => none

/-- Two lines of two bytes. -/
def twoLines : Bytes := [97, 97, 10, 98, 98, 10]

lemma matches_twoLines (readBufferSize : ℕ) :
    Matches noNumbers (stringOptions readBufferSize) twoLines where
  columns := by simp [stringOptions]
  dataTypes := by simp [stringOptions]
  fields := show ∀ line ∈ Lines.nonempty newline twoLines, 1 ≤ (Lines.split 44 line).length by
    decide
  converts := show ∀ line ∈ (Lines.nonempty newline twoLines).drop 0,
    none ∉ parseLine noNumbers (stringOptions 0) line by decide

end CsvFormatReader

end Skyrise

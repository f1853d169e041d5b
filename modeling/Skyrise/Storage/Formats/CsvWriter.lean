/-
Writing a CSV file.

The names of the columns and the cells of every row are joined by the separator of
fields and end with the separator of records.  Nothing is quoted.  The text of a
number is a parameter.
-/
import Mathlib.Data.Nat.Digits.Defs
import Mathlib.Tactic.IntervalCases
import Skyrise.Storage.Formats.CsvReader

namespace Skyrise

variable {R : Type}

namespace CsvFormatWriter

/-- `CsvFormatWriterOptions`. -/
structure Options where
  /-- What separates the fields of a record. -/
  fieldSeparator : Bytes := ";"
  /-- What ends a record. -/
  recordSeparator : Bytes := "\n"
  /-- Whether the names of the columns are written. -/
  includeHeaders : Bool := true

/-- The text of a number. -/
abbrev ToText (R : Type) := Value R → Bytes

/-- What a cell is written as. -/
def cellText (toText : ToText R) : AllTypeVariant R → Bytes
  | none => "NULL"
  | some (.string s) => s
  | some number => toText number

/-- What a row is written as, without the separator behind it. -/
def rowText (toText : ToText R) (options : Options) (row : List (AllTypeVariant R)) : Bytes :=
  options.fieldSeparator.intercalate (row.map (cellText toText))

/-- What the names are written as, without the separator behind them. -/
def headerText (options : Options) (schema : List TableColumnDefinition) : Bytes :=
  options.fieldSeparator.intercalate (schema.map fun d => Bytes.ofString d.name)

/-- What `Initialize` writes. -/
def initializeText (options : Options) (schema : List TableColumnDefinition) : Bytes :=
  if options.includeHeaders then headerText options schema ++ options.recordSeparator else []

/-- What `ProcessChunk` writes. -/
def processChunk (toText : ToText R) (options : Options) (numFields : ℕ) (chunk : Chunk R) :
    Except Exception Bytes :=
  if numFields = 0 then .ok []
  else do
    assert (decide (chunk.segments.length = numFields))
      "All chunks must have the same number of columns."
    return chunk.rows.flatMap fun row => rowText toText options row ++ options.recordSeparator

/-- The bytes of a file with the given chunks. -/
def writeFile (toText : ToText R) (options : Options) (schema : List TableColumnDefinition)
    (chunks : List (Chunk R)) : Except Exception Bytes := do
  let texts ← chunks.mapM (processChunk toText options schema.length)
  return initializeText options schema ++ texts.flatten

/-! ### Reading what was written -/

/-- The options of a writer whose files are read with a delimiter. -/
def writerOptions (delimiter : UInt8) : Options := { fieldSeparator := [delimiter] }

/-- The options of a reader of the files of a writer. -/
def readerOptions (readBufferSize : ℕ) (delimiter : UInt8) (schema : List TableColumnDefinition) :
    CsvFormatReader.Options :=
  ⟨readBufferSize, delimiter, true, false, schema⟩

/-- Formatting a number and converting its text are inverse to each other, and the texts hold neither
the delimiter nor a newline. -/
structure NumberTexts (toText : ToText R) (toNumber : CsvFormatReader.ToNumber R)
    (delimiter : UInt8) : Prop where
  toNumber_toText : ∀ v : Value R, v.dataType ≠ .string → toNumber v.dataType (toText v) = some v
  notMem : ∀ v : Value R, v.dataType ≠ .string → delimiter ∉ toText v ∧ newline ∉ toText v

/-- A table that can be written: its columns have types, its chunks fit them and hold no NULL, its
strings neither the delimiter nor a newline and its names no newline. -/
structure Writable (delimiter : UInt8) (schema : List TableColumnDefinition)
    (chunks : List (Chunk R)) : Prop where
  dataTypes : ∀ d ∈ schema, d.dataType ≠ .null
  names : ∀ d ∈ schema, newline ∉ Bytes.ofString d.name
  wellFormed : ∀ chunk ∈ chunks, chunk.WellFormed schema
  nonNull : ∀ chunk ∈ chunks, ∀ row ∈ chunk.rows, none ∉ row
  strings : ∀ chunk ∈ chunks, ∀ row ∈ chunk.rows, ∀ s, some (.string s) ∈ row →
    delimiter ∉ s ∧ newline ∉ s

variable {toText : ToText R} {toNumber : CsvFormatReader.ToNumber R} {delimiter : UInt8}
  {schema : List TableColumnDefinition} {chunks : List (Chunk R)} {chunk : Chunk R}
  {row : List (AllTypeVariant R)}

/-- The text of a cell holds neither the delimiter nor a newline. -/
lemma cellText_notMem (hnumbers : NumberTexts toText toNumber delimiter) {v : Value R}
    (hstring : ∀ s, v = .string s → delimiter ∉ s ∧ newline ∉ s) :
    delimiter ∉ cellText toText (some v) ∧ newline ∉ cellText toText (some v) := by
  cases v with
  | string s => exact hstring s rfl
  | int v => exact hnumbers.notMem (.int v) (by simp [Value.dataType])
  | long v => exact hnumbers.notMem (.long v) (by simp [Value.dataType])
  | float v => exact hnumbers.notMem (.float v) (by simp [Value.dataType])
  | double v => exact hnumbers.notMem (.double v) (by simp [Value.dataType])

/-- A cell is converted to itself. -/
lemma convert_cellText (hnumbers : NumberTexts toText toNumber delimiter) (v : Value R) :
    CsvFormatReader.convert toNumber v.dataType (cellText toText (some v)) = some v := by
  cases v with
  | string s => rfl
  | int v => exact hnumbers.toNumber_toText (.int v) (by simp [Value.dataType])
  | long v => exact hnumbers.toNumber_toText (.long v) (by simp [Value.dataType])
  | float v => exact hnumbers.toNumber_toText (.float v) (by simp [Value.dataType])
  | double v => exact hnumbers.toNumber_toText (.double v) (by simp [Value.dataType])

/-! ### The file -/

/-- The rows of the chunks. -/
def rowsOfChunks (chunks : List (Chunk R)) : List (List (AllTypeVariant R)) :=
  chunks.flatMap Chunk.rows

lemma mem_rowsOfChunks : row ∈ rowsOfChunks chunks ↔ ∃ chunk ∈ chunks, row ∈ chunk.rows :=
  List.mem_flatMap

lemma schema_ne_nil (h : Writable delimiter schema chunks) (hrow : row ∈ rowsOfChunks chunks) :
    schema ≠ [] := by
  rintro rfl
  obtain ⟨chunk, hchunk, hmem⟩ := mem_rowsOfChunks.mp hrow
  have hnil : chunk.segments = [] :=
    List.length_eq_zero_iff.mp (h.wellFormed chunk hchunk).length_segments
  rw [Chunk.rows, Chunk.size, hnil] at hmem
  exact absurd hmem List.not_mem_nil

/-- A written file is the header and the rows, each with a newline behind it. -/
lemma writeFile_eq_ok (toText : ToText R) (h : Writable delimiter schema chunks) :
    writeFile toText (writerOptions delimiter) schema chunks =
      .ok ((headerText (writerOptions delimiter) schema ::
        (rowsOfChunks chunks).map (rowText toText (writerOptions delimiter))).flatMap
          (· ++ [newline])) := by
  have hprocess : ∀ chunk ∈ chunks,
      processChunk toText (writerOptions delimiter) schema.length chunk =
        .ok (chunk.rows.flatMap fun row => rowText toText (writerOptions delimiter) row ++ [newline]) := by
    intro chunk hchunk
    rw [processChunk]
    split
    · next hzero =>
      have hnil : chunk.rows = [] := List.eq_nil_iff_forall_not_mem.mpr fun row hrow =>
        schema_ne_nil h (mem_rowsOfChunks.mpr ⟨chunk, hchunk, hrow⟩) (List.length_eq_zero_iff.mp hzero)
      rw [hnil]
      rfl
    · rw [(h.wellFormed chunk hchunk).length_segments]
      simp only [decide_true, assert_true]
      rfl
  rw [writeFile, mapM_eq_ok hprocess]
  show Except.ok _ = Except.ok _
  rw [List.flatMap_cons, List.flatMap_map, rowsOfChunks, List.flatMap_assoc, ← List.flatMap_def]
  rfl

/-- The cells of a row have the types of the columns. -/
lemma exists_cells (h : Writable delimiter schema chunks) (hrow : row ∈ rowsOfChunks chunks) :
    List.Forall₂ (fun cell d => ∃ v, cell = some v ∧ v.dataType = d.dataType ∧
      ∀ s, v = .string s → delimiter ∉ s ∧ newline ∉ s) row schema := by
  obtain ⟨chunk, hchunk, hmem⟩ := mem_rowsOfChunks.mp hrow
  have hwell := h.wellFormed chunk hchunk
  have hnone := h.nonNull chunk hchunk row hmem
  have hstrings := h.strings chunk hchunk row hmem
  obtain ⟨k, -, rfl⟩ := List.mem_map.mp hmem
  refine List.forall₂_iff_get.mpr ⟨by simp [Chunk.row, hwell.length_segments], fun i hi hi' => ?_⟩
  have hlt : i < schema.length := hi'
  have hcell : (chunk.row k).get ⟨i, hi⟩ = (chunk.getSegment i).variantAt k := by
    simp [Chunk.row, Chunk.getSegment_of_lt (hwell.length_segments ▸ hlt)]
  cases hv : (chunk.row k).get ⟨i, hi⟩ with
  | none => exact absurd (hv ▸ List.get_mem _ _) hnone
  | some v =>
    refine ⟨v, rfl, ?_, fun s hs => hstrings s ?_⟩
    · rw [hcell] at hv
      rw [(hwell.wellFormed_getSegment hlt).dataType_of_variantAt hv, hwell.dataType_getSegment hlt]
      rfl
    · rw [← hs, ← hv]
      exact List.get_mem _ _

lemma cellText_notMem_of_mem (hnumbers : NumberTexts toText toNumber delimiter)
    (h : Writable delimiter schema chunks) (hrow : row ∈ rowsOfChunks chunks)
    {field : Bytes} (hfield : field ∈ row.map (cellText toText)) :
    delimiter ∉ field ∧ newline ∉ field := by
  obtain ⟨cell, hcell, rfl⟩ := List.mem_map.mp hfield
  obtain ⟨_, -, v, rfl, -, hstring⟩ := (exists_cells h hrow).exists_of_mem hcell
  exact cellText_notMem hnumbers hstring

/-- The text of a row has its cells as fields. -/
lemma split_rowText (hnumbers : NumberTexts toText toNumber delimiter)
    (h : Writable delimiter schema chunks) (hrow : row ∈ rowsOfChunks chunks) :
    Lines.split delimiter (rowText toText (writerOptions delimiter) row) =
      row.map (cellText toText) := by
  refine Lines.split_intercalate ?_ fun field hfield =>
    (cellText_notMem_of_mem hnumbers h hrow hfield).1
  rw [ne_eq, List.map_eq_nil_iff]
  rintro rfl
  exact schema_ne_nil h hrow (List.forall₂_nil_left_iff.mp (exists_cells h hrow))

variable {readBufferSize : ℕ}

/-- A row is read from its text. -/
lemma parseLine_rowText (hnumbers : NumberTexts toText toNumber delimiter)
    (h : Writable delimiter schema chunks) (hrow : row ∈ rowsOfChunks chunks) :
    CsvFormatReader.parseLine toNumber (readerOptions readBufferSize delimiter schema)
      (rowText toText (writerOptions delimiter) row) = row := by
  have hcells := exists_cells h hrow
  rw [CsvFormatReader.parseLine, show (readerOptions readBufferSize delimiter schema).delimiter =
    delimiter from rfl, split_rowText hnumbers h hrow]
  show schema.zipIdx.map _ = row
  refine List.ext_getElem (by simpa using hcells.length_eq.symm) fun i h₁ h₂ => ?_
  have hi : i < schema.length := by simpa using h₁
  obtain ⟨v, hv, htype, -⟩ := hcells.get h₂ hi
  rw [List.get_eq_getElem] at hv htype
  rw [List.getElem_map, List.getElem_zipIdx, Nat.zero_add, List.getD_eq_getElem?_getD,
    List.getElem?_map, List.getElem?_eq_getElem h₂, hv, Option.map_some, Option.getD_some]
  show CsvFormatReader.convert toNumber schema[i].dataType _ = _
  rw [← htype]
  exact convert_cellText hnumbers v

/-- No text of a row or of the header holds a newline. -/
lemma newline_notMem (hnumbers : NumberTexts toText toNumber delimiter)
    (h : Writable delimiter schema chunks) (hdelimiter : delimiter ≠ newline) :
    ∀ line ∈ headerText (writerOptions delimiter) schema ::
      (rowsOfChunks chunks).map (rowText toText (writerOptions delimiter)), newline ∉ line := by
  refine List.forall_mem_cons.mpr ⟨?_, List.forall_mem_map.mpr fun row hrow => ?_⟩
  · refine Lines.notMem_intercalate hdelimiter.symm (List.forall_mem_map.mpr fun d hd => ?_)
    exact h.names d hd
  · exact Lines.notMem_intercalate hdelimiter.symm fun field hfield =>
      (cellText_notMem_of_mem hnumbers h hrow hfield).2

/-- The lines of a written file that are not blank. -/
lemma nonempty_writeFile (hnumbers : NumberTexts toText toNumber delimiter)
    (h : Writable delimiter schema chunks) (hdelimiter : delimiter ≠ newline) {source : Bytes}
    (hwrite : writeFile toText (writerOptions delimiter) schema chunks = .ok source) :
    Lines.nonempty newline source = (headerText (writerOptions delimiter) schema ::
      (rowsOfChunks chunks).map (rowText toText (writerOptions delimiter))).filter
        fun line => decide (line ≠ []) := by
  rw [writeFile_eq_ok toText h] at hwrite
  rw [← Except.ok.inj hwrite, Lines.nonempty_flatMap (newline_notMem hnumbers h hdelimiter)]

/-- A written file matches the schema. -/
lemma matches_writeFile (readBufferSize : ℕ) (hnumbers : NumberTexts toText toNumber delimiter)
    (h : Writable delimiter schema chunks) (hschema : schema ≠ []) (hdelimiter : delimiter ≠ newline)
    {source : Bytes}
    (hwrite : writeFile toText (writerOptions delimiter) schema chunks = .ok source) :
    CsvFormatReader.Matches toNumber (readerOptions readBufferSize delimiter schema) source := by
  have hlines := nonempty_writeFile hnumbers h hdelimiter hwrite
  refine ⟨hschema, h.dataTypes, fun line hline => ?_, fun line hline => ?_⟩
  · rw [hlines] at hline
    rcases List.mem_cons.mp (List.mem_of_mem_filter hline) with rfl | hline
    · have hle := Lines.length_le_length_split_intercalate delimiter
        (schema.map fun d => Bytes.ofString d.name)
      rwa [List.length_map] at hle
    · obtain ⟨row, hrow, rfl⟩ := List.mem_map.mp hline
      show schema.length ≤ (Lines.split delimiter _).length
      rw [split_rowText hnumbers h hrow, List.length_map, (exists_cells h hrow).length_eq]
  · have hrow : ∃ row ∈ rowsOfChunks chunks, rowText toText (writerOptions delimiter) row = line := by
      rw [hlines] at hline
      by_cases hheader : headerText (writerOptions delimiter) schema = []
      · rw [List.filter_cons_of_neg (by simpa using hheader)] at hline
        exact List.mem_map.mp (List.mem_of_mem_filter (List.mem_of_mem_drop hline))
      · rw [List.filter_cons_of_pos (by simpa using hheader)] at hline
        exact List.mem_map.mp (List.mem_of_mem_filter hline)
    obtain ⟨row, hrow, rfl⟩ := hrow
    rw [parseLine_rowText hnumbers h hrow]
    intro hnone
    obtain ⟨chunk, hchunk, hmem⟩ := mem_rowsOfChunks.mp hrow
    exact h.nonNull chunk hchunk row hmem hnone

/-- Nothing is read from the file of a table without columns. -/
lemma readRows_emptyLine {fuel : ℕ} (readBufferSize : ℕ) (hfuel : 0 < fuel) :
    CsvFormatReader.readRows toNumber (readerOptions readBufferSize delimiter []) [newline] fuel
      (CsvFormatReader.init (readerOptions readBufferSize delimiter []) [newline]) = .ok [] := by
  obtain ⟨fuel, rfl⟩ := Nat.exists_eq_succ_of_ne_zero hfuel.ne'
  have hbuffer : (CsvFormatReader.fillBuffer (readerOptions readBufferSize delimiter []) [newline]
      {}).buffer = [] := by
    show Lines.kept newline readBufferSize [newline] = []
    by_contra hkept
    refine Lines.nonempty_kept_ne_nil hkept (Lines.nonempty_of_forall fun c hc => ?_)
    exact List.mem_singleton.mp ((Lines.kept_isPrefix newline readBufferSize [newline]).subset hc)
  rw [CsvFormatReader.readRows, if_neg]
  rw [CsvFormatReader.hasNext]
  show ¬ (_ && !(CsvFormatReader.fillBuffer _ [newline] {}).buffer.isEmpty && _) = true
  rw [hbuffer, List.isEmpty_nil, Bool.not_true, Bool.and_false, Bool.false_and]
  exact Bool.false_ne_true

/-- **Reading a written file gives its rows if and only if** there are none, or the buffers of the
reader hold them and neither the header nor a row is written as a blank line. -/
theorem readRows_writeFile_iff {R : Type} (toText : ToText R) (toNumber : CsvFormatReader.ToNumber R)
    (delimiter : UInt8) (schema : List TableColumnDefinition) (chunks : List (Chunk R))
    (readBufferSize : ℕ) (hnumbers : NumberTexts toText toNumber delimiter)
    (h : Writable delimiter schema chunks) (hdelimiter : delimiter ≠ newline) :
    ∃ source, writeFile toText (writerOptions delimiter) schema chunks = .ok source ∧
      ∀ fuel, source.length < fuel →
        (CsvFormatReader.readRows toNumber (readerOptions readBufferSize delimiter schema) source fuel
            (CsvFormatReader.init (readerOptions readBufferSize delimiter schema) source) =
              .ok (rowsOfChunks chunks) ↔
          rowsOfChunks chunks = [] ∨
            CsvFormatReader.Buffered (readerOptions readBufferSize delimiter schema) source ∧
              headerText (writerOptions delimiter) schema ≠ [] ∧
              ∀ row ∈ rowsOfChunks chunks, rowText toText (writerOptions delimiter) row ≠ []) := by
  refine ⟨_, writeFile_eq_ok toText h, fun fuel hfuel => ?_⟩
  by_cases hschema : schema = []
  · have hnil : rowsOfChunks chunks = [] := List.eq_nil_iff_forall_not_mem.mpr fun row hrow =>
      schema_ne_nil h hrow hschema
    rw [hnil, hschema]
    exact iff_of_true (readRows_emptyLine readBufferSize (Nat.zero_lt_of_lt hfuel)) (.inl rfl)
  have hwrite := writeFile_eq_ok toText h
  have hlines := nonempty_writeFile hnumbers h hdelimiter hwrite
  obtain ⟨lines, hread, hlead, hiff⟩ := CsvFormatReader.exists_readRows_init
    (matches_writeFile readBufferSize hnumbers h hschema hdelimiter hwrite)
    (fun hzero => absurd hzero Nat.one_ne_zero) hfuel
  have hparse : ((rowsOfChunks chunks).map (rowText toText (writerOptions delimiter))).map
      (CsvFormatReader.parseLine toNumber (readerOptions readBufferSize delimiter schema)) =
        rowsOfChunks chunks := by
    rw [List.map_map]
    exact (List.map_congr_left fun row hrow => parseLine_rowText hnumbers h hrow).trans
      (List.map_id _)
  rw [hread, Except.ok.injEq]
  rw [hlines, show (readerOptions readBufferSize delimiter schema).ignoredLines = 1 from rfl]
    at hlead hiff
  have hfilter := List.length_filter_le (fun line => decide (line ≠ []))
    ((rowsOfChunks chunks).map (rowText toText (writerOptions delimiter)))
  have hlength := hlead.length_le
  by_cases hheader : headerText (writerOptions delimiter) schema = []
  · -- the first row that is not blank is taken for the header
    rw [List.filter_cons_of_neg (by simpa using hheader)] at hlength
    rw [List.length_drop] at hlength
    rw [List.length_map] at hfilter
    constructor
    · intro heq
      have hrows := congrArg List.length heq
      rw [List.length_map] at hrows
      exact .inl (List.length_eq_zero_iff.mp (by omega))
    · rintro (hnil | ⟨-, hne, -⟩)
      · rw [hnil] at hfilter hlength ⊢
        rw [List.length_nil] at hfilter
        rw [List.length_eq_zero_iff.mp (show lines.length = 0 by omega)]
        rfl
      · exact absurd hheader hne
  · rw [List.filter_cons_of_pos (by simpa using hheader), List.drop_one, List.tail_cons]
      at hlead hiff hlength
    constructor
    · intro heq
      have hrows := congrArg List.length heq
      rw [List.length_map, ← List.length_map (rowText toText (writerOptions delimiter))] at hrows
      have hall := List.length_filter_eq_length_iff.mp (le_antisymm hfilter (hrows ▸ hlength))
      refine .inr ⟨hiff.mp (hlead.eq_of_length (by omega)), hheader, fun row hrow => ?_⟩
      simpa using hall _ (List.mem_map_of_mem hrow)
    · rintro (hnil | ⟨hbuffered, -, hrows⟩)
      · rw [hnil] at hlead ⊢
        rw [List.prefix_nil.mp hlead]
        rfl
      · have hall : ∀ line ∈ (rowsOfChunks chunks).map (rowText toText (writerOptions delimiter)),
            decide (line ≠ []) = true :=
          List.forall_mem_map.mpr fun row hrow => decide_eq_true (hrows row hrow)
        rw [hiff.mpr hbuffered, List.filter_eq_self.mpr hall, hparse]

/-! ### Decimal numbers -/

/-- The decimal digits of a number. -/
def naturalText (n : ℕ) : Bytes :=
  if n = 0 then [48] else ((Nat.digits 10 n).map fun digit => UInt8.ofNat (48 + digit)).reverse

/-- The number with the decimal digits. -/
def naturalOfText (s : Bytes) : ℕ := Nat.ofDigits 10 (s.reverse.map fun c => c.toNat - 48)

/-- The digits of an integer, behind a sign if it is negative. -/
def integerText : ℤ → Bytes
  | .ofNat n => naturalText n
  | .negSucc n => 45 :: naturalText (n + 1)

/-- The integer with the sign and the digits. -/
def integerOfText (s : Bytes) : ℤ :=
  if s.head? = some 45 then -(naturalOfText s.tail : ℤ) else naturalOfText s

/-- The texts of integers; there are no other numbers. -/
def decimalText : ToText Empty
  | .int v => integerText v.toInt
  | .long v => integerText v.toInt
  | .float v => v.elim
  | .double v => v.elim
  | .string s => s

/-- The integers with the texts. -/
def decimalOfText : CsvFormatReader.ToNumber Empty
  | .int, s => some (.int (Int32.ofInt (integerOfText s)))
  | .long, s => some (.long (Int64.ofInt (integerOfText s)))
  | _, _ => none

lemma digit_of_mem {n : ℕ} {c : UInt8} (h : c ∈ naturalText n) : 48 ≤ c ∧ c ≤ 57 := by
  rw [naturalText] at h
  split at h
  · rw [List.mem_singleton.mp h]
    decide
  · obtain ⟨digit, hdigit, rfl⟩ := List.mem_map.mp (List.mem_reverse.mp h)
    have hlt := Nat.digits_lt_base (by decide) hdigit
    interval_cases digit <;> decide

lemma naturalOfText_naturalText (n : ℕ) : naturalOfText (naturalText n) = n := by
  rw [naturalText]
  split
  · next hzero =>
    rw [hzero]
    rfl
  · rw [naturalOfText, List.reverse_reverse, List.map_map]
    have hdigits : (Nat.digits 10 n).map ((fun c : UInt8 => c.toNat - 48) ∘
        fun digit => UInt8.ofNat (48 + digit)) = Nat.digits 10 n := by
      refine (List.map_congr_left fun digit hdigit => ?_).trans (List.map_id _)
      have hlt := Nat.digits_lt_base (by decide) hdigit
      show (UInt8.ofNat (48 + digit)).toNat - 48 = digit
      rw [UInt8.toNat_ofNat', Nat.mod_eq_of_lt (by omega)]
      omega
    rw [hdigits, Nat.ofDigits_digits]

lemma integerOfText_integerText (i : ℤ) : integerOfText (integerText i) = i := by
  cases i with
  | ofNat n =>
    have hhead : (naturalText n).head? ≠ some 45 := fun hhead =>
      absurd (digit_of_mem (List.mem_of_head? hhead)).1 (by decide)
    rw [integerText, integerOfText, if_neg hhead, naturalOfText_naturalText]
    rfl
  | negSucc n =>
    rw [integerText, integerOfText, List.head?_cons, if_pos rfl, List.tail_cons,
      naturalOfText_naturalText]
    rfl

lemma notMem_integerText {i : ℤ} {c : UInt8} (h : c ≠ 45 ∧ ¬ (48 ≤ c ∧ c ≤ 57)) :
    c ∉ integerText i := by
  intro hmem
  cases i with
  | ofNat n => exact h.2 (digit_of_mem hmem)
  | negSucc n =>
    rcases List.mem_cons.mp hmem with heq | hmem
    · exact h.1 heq
    · exact h.2 (digit_of_mem hmem)

lemma numberTexts_decimal : NumberTexts decimalText decimalOfText 59 where
  toNumber_toText v hv := by
    cases v with
    | int v => simp [Value.dataType, decimalOfText, decimalText, integerOfText_integerText]
    | long v => simp [Value.dataType, decimalOfText, decimalText, integerOfText_integerText]
    | float v => exact v.elim
    | double v => exact v.elim
    | string s => exact absurd rfl hv
  notMem v hv := by
    cases v with
    | int v => exact ⟨notMem_integerText (by decide), notMem_integerText (by decide)⟩
    | long v => exact ⟨notMem_integerText (by decide), notMem_integerText (by decide)⟩
    | float v => exact v.elim
    | double v => exact v.elim
    | string s => exact absurd rfl hv

/-! ### Columns of strings -/

/-- Columns of strings, all of one name. -/
def stringSchema (n : ℕ) : List TableColumnDefinition := List.replicate n ⟨"name", .string, false⟩

/-- A chunk of columns of strings. -/
def stringChunk (columns : List (List Bytes)) : Chunk Empty :=
  ⟨columns.map fun column => .ofValues .string (column.map .string)⟩

lemma size_stringChunk {columns : List (List Bytes)} {n : ℕ}
    (hsizes : ∀ column ∈ columns, column.length = n) :
    ∀ s ∈ (stringChunk columns).segments, s.size = (stringChunk columns).size := by
  cases columns with
  | nil => simp [stringChunk]
  | cons first columns =>
    refine List.forall_mem_map.mpr fun column hcolumn => ?_
    show (column.map Value.string).length = (first.map Value.string).length
    rw [List.length_map, List.length_map, hsizes column hcolumn, hsizes first List.mem_cons_self]

/-- The cells of a row are strings of the columns. -/
lemma exists_mem_of_mem_rows {columns : List (List Bytes)} {n : ℕ}
    (hsizes : ∀ column ∈ columns, column.length = n) {row : List (AllTypeVariant Empty)}
    (hrow : row ∈ (stringChunk columns).rows) {cell : AllTypeVariant Empty} (hcell : cell ∈ row) :
    ∃ column ∈ columns, ∃ s ∈ column, cell = some (.string s) := by
  obtain ⟨i, hi, rfl⟩ := List.mem_map.mp hrow
  obtain ⟨segment, hsegment, rfl⟩ := List.mem_map.mp hcell
  have hlt : i < segment.size := size_stringChunk hsizes segment hsegment ▸ List.mem_range.mp hi
  obtain ⟨column, hcolumn, rfl⟩ := List.mem_map.mp hsegment
  have hlt' : i < column.length := by simpa using hlt
  refine ⟨column, hcolumn, column[i], List.getElem_mem hlt', ?_⟩
  simp [hlt']

/-- Columns of strings can be written. -/
lemma writable_stringChunk (columns : List (List Bytes)) (n : ℕ)
    (hsizes : ∀ column ∈ columns, column.length = n)
    (hstrings : ∀ column ∈ columns, ∀ s ∈ column, 59 ∉ s ∧ newline ∉ s) :
    Writable 59 (stringSchema columns.length) [stringChunk columns] where
  dataTypes d hd := by
    rw [List.eq_of_mem_replicate hd]
    decide
  names d hd := by
    rw [List.eq_of_mem_replicate hd]
    decide
  wellFormed := by
    refine List.forall_mem_singleton.mpr ⟨?_, ?_, size_stringChunk hsizes, ?_⟩
    · simp [stringChunk, stringSchema, List.map_const', Function.comp_def]
    · refine List.forall_mem_map.mpr fun column _ => ValueSegment.wellFormed_ofValues (by decide) ?_
      exact List.forall_mem_map.mpr fun s _ => rfl
    · intro columnId d _ _ i
      rw [Chunk.getSegment, List.getD_eq_getElem?_getD]
      cases hsegment : (stringChunk columns).segments[columnId]? with
      | none => rfl
      | some segment =>
        obtain ⟨column, -, rfl⟩ := List.mem_map.mp (List.mem_of_getElem? hsegment)
        rfl
  nonNull := List.forall_mem_singleton.mpr fun row hrow hnone => by
    obtain ⟨_, -, _, -, heq⟩ := exists_mem_of_mem_rows hsizes hrow hnone
    exact absurd heq (Option.some_ne_none _).symm
  strings := List.forall_mem_singleton.mpr fun row hrow s hs => by
    obtain ⟨column, hcolumn, s', hs', heq⟩ := exists_mem_of_mem_rows hsizes hrow hs
    cases heq
    exact hstrings column hcolumn s hs'

/-- Strings that are empty at the start and at the end of a line are read. -/
theorem readRows_writeFile_emptyStrings :
    ∃ source, writeFile decimalText (writerOptions 59) (stringSchema 2)
        [stringChunk [[[120], []], [[], [121]]]] = .ok source ∧
      ∀ fuel, source.length < fuel →
        CsvFormatReader.readRows decimalOfText (readerOptions 64 59 (stringSchema 2)) source fuel
            (CsvFormatReader.init (readerOptions 64 59 (stringSchema 2)) source) =
          .ok [[some (.string [120]), some (.string [])],
            [some (.string []), some (.string [121])]] := by
  obtain ⟨source, hwrite, hread⟩ := readRows_writeFile_iff decimalText decimalOfText 59
    (stringSchema 2) [stringChunk [[[120], []], [[], [121]]]] 64 numberTexts_decimal
    (writable_stringChunk [[[120], []], [[], [121]]] 2 (by decide) (by decide)) (by decide)
  have hsource := Except.ok.inj hwrite
  subst hsource
  refine ⟨_, hwrite, fun fuel hfuel => (hread fuel hfuel).mpr (.inr ⟨?_, by decide, by decide⟩)⟩
  exact .inr ⟨by decide, .done (by decide)⟩

/-- **A row of one empty string is not read back**, as it is written as a blank line. -/
theorem not_readRows_writeFile_emptyString :
    NumberTexts decimalText decimalOfText 59 ∧
      Writable 59 (stringSchema 1) [stringChunk [[[120], []]]] ∧
      ∃ source, writeFile decimalText (writerOptions 59) (stringSchema 1)
          [stringChunk [[[120], []]]] = .ok source ∧
        ∀ fuel, source.length < fuel →
          CsvFormatReader.readRows decimalOfText (readerOptions 64 59 (stringSchema 1)) source fuel
              (CsvFormatReader.init (readerOptions 64 59 (stringSchema 1)) source) =
            .ok [[some (.string [120])]] ∧
          rowsOfChunks [stringChunk [[[120], []]]] =
            [[some (.string [120])], [some (.string [])]] := by
  refine ⟨numberTexts_decimal, writable_stringChunk [[[120], []]] 2 (by decide) (by decide), _, rfl,
    fun fuel hfuel => ⟨?_, by decide⟩⟩
  obtain ⟨fuel, rfl⟩ := Nat.exists_eq_add_of_le' (show 2 ≤ fuel from Nat.le_trans (by decide) hfuel)
  rfl

end CsvFormatWriter

end Skyrise

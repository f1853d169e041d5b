/-
The chunks of a CSV reader, column by column.

A line adds its fields to the columns from the first one on, so that a line with too few
fields is missing in the others and the fields of the later lines move up.  A chunk is
rectangular if all its segments have their entries from the same lines.  It is unless
some line of the buffer is too short for the schema, and then only if no entries are
left or if an error is found in the fields.

The delimiter, the lines to ignore and the schema are any, however they were guessed.
-/
import Skyrise.Storage.Formats.CsvReader

namespace Skyrise

namespace CsvFormatReader

variable {R : Type} {toNumber : ToNumber R} {options : Options} {source : Bytes} {r : Reader}

/-! ### The readers of a run -/

/-- The states of a reader: after the constructor and after each call of `Next`. -/
inductive Reachable (toNumber : ToNumber R) (options : Options) (source : Bytes) : Reader → Prop
  | init : Reachable toNumber options source (init options source)
  | next {r r' : Reader} {chunk : Option (Chunk R)} (h : Reachable toNumber options source r)
      (hnext : next toNumber options source r = .ok (chunk, r')) :
      Reachable toNumber options source r'

/-- A call of `Next` leaves the columns of the buffer. -/
lemma Extracted.next (h : Extracted options r) {r' : Reader} {chunk : Option (Chunk R)}
    (hnext : next toNumber options source r = .ok (chunk, r')) : Extracted options r' := by
  rw [CsvFormatReader.next] at hnext
  split at hnext
  · cases hnext
  · obtain ⟨-, rfl⟩ := Prod.mk.inj (Except.ok.inj hnext)
    exact h
  · obtain ⟨-, rfl⟩ := Prod.mk.inj (Except.ok.inj hnext)
    exact extracted_extractColumns _

/-- In every state the columns are those of the buffer. -/
lemma Reachable.extracted (h : Reachable toNumber options source r) : Extracted options r := by
  induction h with
  | init => exact extracted_extractColumns (fillBuffer options source {})
  | next _ hnext ih => exact ih.next hnext

/-! ### The entries of the segments -/

/-- The fields of the lines in the buffer that are not blank. -/
def fieldLines (options : Options) (r : Reader) : List (List Bytes) :=
  (Lines.nonempty newline r.buffer).map (Lines.split options.delimiter)

/-- The numbers of the lines from which a segment has its entries. -/
def entryLines (options : Options) (r : Reader) (i : ℕ) : List ℕ :=
  (FieldColumns.lineNumbers (fieldLines options r) i).drop r.numIgnoreLines

lemma Extracted.columns_eq (h : Extracted options r) :
    r.columns = FieldColumns.ofLines (fieldLines options r) := by
  have hfoldl : ∀ lines : List Bytes, (∀ line ∈ lines, line ≠ []) → ∀ columns,
      lines.foldl (addLine options.delimiter) columns =
        (lines.map (Lines.split options.delimiter)).foldl FieldColumns.addFields columns := by
    intro lines
    induction lines with
    | nil =>
      intro _ columns
      rfl
    | cons line lines ih =>
      intro hlines columns
      rw [List.forall_mem_cons] at hlines
      rw [List.foldl_cons, addLine_eq columns _ hlines.1, ih hlines.2]
      rfl
  rw [h, fieldLines, FieldColumns.ofLines]
  exact hfoldl _ (fun line => ne_nil_of_mem_nonempty) []

/-- Every line has a first field. -/
lemma pos_of_mem_fieldLines {fields : List Bytes} (h : fields ∈ fieldLines options r) :
    0 < fields.length := by
  obtain ⟨line, -, rfl⟩ := List.mem_map.mp h
  exact List.length_pos_iff.mpr (Lines.split_ne_nil _ line)

/-- The first segment has entries from all lines. -/
lemma entryLines_zero (options : Options) (r : Reader) :
    entryLines options r 0 = (List.range (fieldLines options r).length).drop r.numIgnoreLines := by
  rw [entryLines, FieldColumns.lineNumbers_of_forall fun _ => pos_of_mem_fieldLines]

/-- The cells of a segment, converted from the fields of its lines. -/
def entries (toNumber : ToNumber R) (options : Options) (r : Reader) (type : DataType) (i : ℕ) :
    List (AllTypeVariant R) :=
  (entryLines options r i).map fun n =>
    convert toNumber type (((fieldLines options r).getD n []).getD i [])

/-- A chunk whose segments have the same size and whose entries at an offset are from one line. -/
structure Rectangular (toNumber : ToNumber R) (options : Options) (r : Reader) (chunk : Chunk R) :
    Prop where
  sizes : ∀ s ∈ chunk.segments, s.size = chunk.size
  segments : chunk.segments.map ValueSegment.cells =
    options.expectedSchema.zipIdx.map fun d => entries toNumber options r d.1.dataType d.2
  lines : ∀ i < options.expectedSchema.length, entryLines options r i = entryLines options r 0

/-- `Next` returns a rectangular chunk, or an error. -/
def NextIsRectangular (toNumber : ToNumber R) (options : Options) (source : Bytes) (r : Reader) :
    Prop :=
  ∀ chunk r', next toNumber options source r = .ok (some chunk, r') →
    Rectangular toNumber options r chunk

/-! ### Errors -/

/-- A column of the schema has no type, no line has a field for it, or a field of it cannot be
converted. -/
def Rejected (toNumber : ToNumber R) (options : Options) (r : Reader) : Prop :=
  ∃ d i, options.expectedSchema[i]? = some d ∧
    (d.dataType = .null ∨ (∀ fields ∈ fieldLines options r, fields.length ≤ i) ∨
      ∃ field ∈ ((fieldLines options r).flatMap fun fields => (fields[i]?).toList).drop
        r.numIgnoreLines, convert toNumber d.dataType field = none)

/-- A segment is made if all its fields can be converted. -/
lemma parseSegmentForDataType_eq_ok_iff {type : DataType} {column : List Bytes} {k : ℕ} :
    (∃ s, parseSegmentForDataType toNumber type column k = .ok s) ↔
      type ≠ .null ∧ ∀ field ∈ column.drop k, convert toNumber type field ≠ none := by
  constructor
  · rintro ⟨s, hs⟩
    have hnumbers : ∀ {values} {read : Bytes → Except ReadException (Value R)},
        (column.drop k).mapM read = .ok values → type ≠ .string →
        (∀ field, toNumber type field = none → read field = .error .invalidArgument) →
        ∀ field ∈ column.drop k, convert toNumber type field ≠ none := by
      intro values read hvalues hstring hread field hfield hnone
      obtain ⟨value, hvalue⟩ := exists_mapM_eq_ok_iff.mp ⟨values, hvalues⟩ field hfield
      rw [convert, if_neg hstring] at hnone
      rw [hread field hnone] at hvalue
      cases hvalue
    cases type with
    | null => cases hs
    | string =>
      refine ⟨by decide, ?_⟩
      intro field _ hnone
      cases hnone
    | int | long | float | double =>
      obtain ⟨values, hvalues, -⟩ := exists_of_bind_eq_ok hs
      exact ⟨by decide, hnumbers hvalues (by decide) fun field hnone => by rw [hnone]⟩
  · rintro ⟨htype, hconvert⟩
    exact ⟨_, parseSegmentForDataType_eq htype hconvert⟩

lemma cells_of_parseSegmentForDataType {type : DataType} {column : List Bytes} {k : ℕ}
    {s : ValueSegment R} (h : parseSegmentForDataType toNumber type column k = .ok s) :
    s.cells = (column.drop k).map (convert toNumber type) := by
  obtain ⟨htype, hconvert⟩ := parseSegmentForDataType_eq_ok_iff.mp ⟨s, h⟩
  rw [parseSegmentForDataType_eq htype hconvert] at h
  rw [← Except.ok.inj h, ValueSegment.cells_ofValues, List.map_map]
  refine List.map_congr_left ?_
  intro field hfield
  exact some_fieldValue (hconvert field hfield)

/-- The cells of the segments are the entries of their lines. -/
lemma map_cells_parseSegments (h : Extracted options r) {segments : List (ValueSegment R)}
    (hsegments : parseSegments toNumber options r = .ok segments) :
    segments.map ValueSegment.cells =
      options.expectedSchema.zipIdx.map fun d => entries toNumber options r d.1.dataType d.2 := by
  rw [parseSegments, mapM_eq_ok_iff] at hsegments
  refine (List.map_eq_map_of_forall₂ (hsegments.imp ?_)).symm
  rintro ⟨d, i⟩ s hs
  have hcolumn := FieldColumns.map_lineNumbers (fieldLines options r) i []
  rw [← h.columns_eq, List.getD_eq_getElem?_getD] at hcolumn
  dsimp only at hs
  split at hs
  · next column hget =>
    rw [hget, Option.getD_some] at hcolumn
    rw [cells_of_parseSegmentForDataType hs, entries, entryLines, ← hcolumn, ← List.map_drop,
      List.map_map]
    rfl
  · cases hs

/-- The segments of a chunk have as many entries as there are lines for them. -/
lemma size_of_mem_parseSegments (h : Extracted options r) {segments : List (ValueSegment R)}
    (hsegments : parseSegments toNumber options r = .ok segments) {s : ValueSegment R}
    (hs : s ∈ segments) :
    ∃ i < options.expectedSchema.length, s.size = (entryLines options r i).length := by
  have hmem := List.mem_map_of_mem (f := ValueSegment.cells) hs
  rw [map_cells_parseSegments h hsegments] at hmem
  obtain ⟨⟨d, i⟩, hd, hcells⟩ := List.mem_map.mp hmem
  refine ⟨i, List.snd_lt_of_mem_zipIdx hd, ?_⟩
  rw [← ValueSegment.length_cells, ← hcells, entries, List.length_map]

/-- When the column at an index of the schema is parsed. -/
lemma exists_parseSegment_iff (h : Extracted options r) (t : DataType) (i : ℕ) :
    (∃ s, (match r.columns[i]? with
      | some column => parseSegmentForDataType toNumber t column r.numIgnoreLines
      | none => .error .outOfRange) = .ok s) ↔
      ¬ (t = .null ∨ (∀ fields ∈ fieldLines options r, fields.length ≤ i) ∨
        ∃ field ∈ ((fieldLines options r).flatMap fun fields => (fields[i]?).toList).drop
          r.numIgnoreLines, convert toNumber t field = none) := by
  have hlength := @FieldColumns.lt_length_ofLines _ (fieldLines options r) i
  have hget := FieldColumns.getD_ofLines (fieldLines options r) i
  rw [← h.columns_eq] at hlength hget
  split
  · next column hcolumn =>
    rw [List.getD_eq_getElem?_getD, hcolumn, Option.getD_some] at hget
    obtain ⟨fields, hfields, hlt⟩ := hlength.mp (List.getElem?_eq_some_iff.mp hcolumn).1
    rw [parseSegmentForDataType_eq_ok_iff, hget]
    push Not
    constructor
    · rintro ⟨htype, hconvert⟩
      exact ⟨htype, ⟨fields, hfields, hlt⟩, hconvert⟩
    · rintro ⟨htype, -, hconvert⟩
      exact ⟨htype, hconvert⟩
  · next hnone =>
    refine iff_of_false ?_ ?_
    · rintro ⟨s, hs⟩
      cases hs
    · refine not_not_intro (.inr (.inl ?_))
      intro fields hfields
      by_contra hlt
      have hi := hlength.mpr ⟨fields, hfields, Nat.lt_of_not_le hlt⟩
      rw [List.getElem?_eq_getElem hi] at hnone
      cases hnone

/-- There is a chunk unless the fields are rejected. -/
lemma exists_parseSegments_iff (h : Extracted options r) :
    (∃ segments, parseSegments toNumber options r = .ok segments) ↔
      ¬ Rejected toNumber options r := by
  rw [parseSegments, exists_mapM_eq_ok_iff]
  constructor
  · rintro hall ⟨d, i, hd, hrejected⟩
    exact (exists_parseSegment_iff h d.dataType i).mp
      (hall (d, i) (List.mk_mem_zipIdx_iff_getElem?.mpr hd)) hrejected
  · rintro hnot ⟨d, i⟩ hmem
    have hd := List.mk_mem_zipIdx_iff_getElem?.mp hmem
    exact (exists_parseSegment_iff h d.dataType i).mpr fun hrejected => hnot ⟨d, i, hd, hrejected⟩

/-- What `Next` does if there is a chunk. -/
lemma next_eq_ok {segments : List (ValueSegment R)}
    (h : parseSegments toNumber options r = .ok segments) :
    next toNumber options source r = .ok (some ⟨segments⟩,
      extractColumns options (fillBuffer options source { r with numIgnoreLines := 0 })) := by
  rw [next, h]

lemma exists_of_next_eq_ok {chunk : Chunk R} {r' : Reader}
    (h : next toNumber options source r = .ok (some chunk, r')) :
    parseSegments toNumber options r = .ok chunk.segments := by
  rw [next] at h
  split at h
  · cases h
  · cases h
  · next segments hsegments =>
    obtain ⟨hchunk, -⟩ := Prod.mk.inj (Except.ok.inj h)
    rw [hsegments, ← Option.some.inj hchunk]

/-! ### When a chunk is rectangular -/

/-- Every line has a field for each column of the schema, unless all lines are ignored. -/
def Uniform (options : Options) (r : Reader) : Prop :=
  (fieldLines options r).length ≤ r.numIgnoreLines ∨
    ∀ fields ∈ fieldLines options r, options.expectedSchema.length ≤ fields.length

/-- The entries are from the same lines if and only if all lines have fields for them. -/
lemma entryLines_eq_iff :
    (∀ i < options.expectedSchema.length, entryLines options r i = entryLines options r 0) ↔
      Uniform options r := by
  rw [Uniform, entryLines_zero]
  by_cases hle : (fieldLines options r).length ≤ r.numIgnoreLines
  · refine iff_of_true ?_ (.inl hle)
    intro i _
    have hlength := FieldColumns.length_lineNumbers_le (fieldLines options r) i
    rw [entryLines, List.drop_eq_nil_of_le (hlength.trans hle),
      List.drop_eq_nil_of_le (by rw [List.length_range]; exact hle)]
  · have hlt := Nat.lt_of_not_le hle
    rw [or_iff_right hle]
    constructor
    · intro h fields hfields
      by_contra hshort
      -- the column behind the last field of the line
      have heq := h fields.length (Nat.lt_of_not_le hshort)
      rw [entryLines, FieldColumns.drop_lineNumbers_eq_iff hlt] at heq
      exact Nat.lt_irrefl _ (heq fields hfields)
    · intro h i hi
      rw [entryLines, FieldColumns.drop_lineNumbers_eq_iff hlt]
      intro fields hfields
      exact Nat.lt_of_lt_of_le hi (h fields hfields)

/-- **A call of `Next` in any state of a reader** returns an error or a rectangular chunk if and
only if the lines of the buffer have fields for all columns, or all are ignored, or the fields are
rejected. -/
theorem nextIsRectangular_iff (hr : Reachable toNumber options source r) :
    NextIsRectangular toNumber options source r ↔
      Uniform options r ∨ Rejected toNumber options r := by
  have h := hr.extracted
  constructor
  · intro hnext
    by_contra hnot
    push Not at hnot
    obtain ⟨segments, hsegments⟩ := (exists_parseSegments_iff h).mpr hnot.2
    exact hnot.1 (entryLines_eq_iff.mp (hnext _ _ (next_eq_ok hsegments)).lines)
  · intro hcondition chunk r' hnext
    have hsegments := exists_of_next_eq_ok hnext
    have huniform := hcondition.resolve_right ((exists_parseSegments_iff h).mp ⟨_, hsegments⟩)
    have hlines := entryLines_eq_iff.mpr huniform
    have hsize : ∀ s ∈ chunk.segments, s.size = (entryLines options r 0).length := by
      intro s hs
      obtain ⟨i, hi, hsize⟩ := size_of_mem_parseSegments h hsegments hs
      rw [hsize, hlines i hi]
    refine ⟨?_, map_cells_parseSegments h hsegments, hlines⟩
    intro s hs
    rw [hsize s hs, Chunk.size]
    split
    · next hnil =>
      rw [hnil] at hs
      cases hs
    · next first rest hcons => exact (hsize first (hcons ▸ List.mem_cons_self)).symm

/-- Two columns of strings. -/
def twoStrings : Options :=
  ⟨100, 44, false, false, [⟨"first", .string, false⟩, ⟨"second", .string, false⟩]⟩

/-- Three lines with two fields, of which one may be missing. -/
def threeLines (middle : Bytes) : Bytes := [97, 44, 98, 10] ++ middle ++ [10, 101, 44, 102, 10]

/-- The lines `a,b`, `c,d` and `e,f`. -/
theorem nextIsRectangular_threeLines : NextIsRectangular noNumbers twoStrings
    (threeLines [99, 44, 100]) (init twoStrings (threeLines [99, 44, 100])) :=
  (nextIsRectangular_iff .init).mpr (.inl (.inr (by decide)))

/-- The lines `a,b`, `c` and `e,f`: the second row has an entry of the third line. -/
theorem not_nextIsRectangular_shortLine :
    ¬ NextIsRectangular noNumbers twoStrings (threeLines [99])
      (init twoStrings (threeLines [99])) := by
  intro h
  have hchunk := h ⟨[.ofValues .string [.string [97], .string [99], .string [101]],
    .ofValues .string [.string [98], .string [102]]]⟩ _ (by rfl)
  exact absurd (hchunk.lines 1 (by decide)) (by decide)

end CsvFormatReader

end Skyrise

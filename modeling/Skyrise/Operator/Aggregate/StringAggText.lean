/-
What a string aggregate writes.

The strings of a group are concatenated in the order of the rows that the sort operator
gives them, and a delimiter is appended once there is some text.  So a delimiter is
missing behind each empty string that comes first.  The sort keys are compared as they
are stored, also where they are NULL.
-/
import Skyrise.Operator.Aggregate.Groups
import Skyrise.Operator.SortOrder

namespace Skyrise

variable {R : Type}

namespace StringAgg

/-! ### Delimiters -/

/-- Strings of which the first one is not empty, unless it is the only one. -/
def NoLeadingEmpty (strings : List Bytes) : Prop := 2 ≤ strings.length → strings.head? ≠ some []

/-- A step of the concatenation. -/
def append (concatenated s : Bytes) : Bytes :=
  (if concatenated.isEmpty then concatenated else concatenated ++ kStringAggDefaultDelimiter) ++ s

/-- A string behind a delimiter. -/
def withDelimiter (s : Bytes) : Bytes := kStringAggDefaultDelimiter ++ s

lemma concatenate_eq_foldl (strings : List Bytes) : concatenate strings = strings.foldl append [] := rfl

/-- The strings behind the first one, each behind a delimiter. -/
lemma intercalate_cons (s : Bytes) (strings : List Bytes) :
    kStringAggDefaultDelimiter.intercalate (s :: strings) =
      s ++ strings.flatMap withDelimiter := by
  induction strings generalizing s with
  | nil => simp
  | cons t strings ih =>
    rw [List.intercalate_cons_cons, ih, List.flatMap_cons, withDelimiter, List.append_assoc,
      List.append_assoc]

/-- Once there is some text, every string is appended behind a delimiter. -/
lemma foldl_append_of_ne_nil {concatenated : Bytes} (h : concatenated ≠ []) (strings : List Bytes) :
    strings.foldl append concatenated =
      concatenated ++ strings.flatMap withDelimiter := by
  induction strings generalizing concatenated with
  | nil => simp
  | cons s strings ih =>
    have hstep : append concatenated s = concatenated ++ withDelimiter s := by
      rw [append, withDelimiter, List.isEmpty_eq_false_iff.mpr h, if_neg Bool.false_ne_true,
        List.append_assoc]
    rw [List.foldl_cons, hstep, ih (by simp [h]), List.flatMap_cons, List.append_assoc]

lemma append_nil_left (s : Bytes) : append [] s = s := rfl

/-- There are at most as many delimiters as there should be. -/
lemma length_concatenate_le (strings : List Bytes) :
    (concatenate strings).length ≤ (kStringAggDefaultDelimiter.intercalate strings).length := by
  induction strings with
  | nil => simp [concatenate]
  | cons s strings ih =>
    rw [concatenate_eq_foldl, List.foldl_cons, append_nil_left]
    rcases eq_or_ne s [] with rfl | hs
    · cases strings with
      | nil => simp
      | cons t strings =>
        rw [← concatenate_eq_foldl, List.intercalate_cons_cons, List.length_append,
          List.length_append]
        omega
    · rw [foldl_append_of_ne_nil hs, intercalate_cons]

/-- The parts are separated by delimiters if the first one is not empty. -/
lemma concatenate_eq_intercalate {strings : List Bytes} (h : NoLeadingEmpty strings) :
    concatenate strings = kStringAggDefaultDelimiter.intercalate strings := by
  cases strings with
  | nil => rfl
  | cons s strings =>
    rw [concatenate_eq_foldl, List.foldl_cons, append_nil_left]
    cases strings with
    | nil => simp
    | cons t strings =>
      have hs : s ≠ [] := by simpa [NoLeadingEmpty] using h
      rw [foldl_append_of_ne_nil hs, intercalate_cons]

/-- Otherwise a delimiter is missing. -/
lemma length_concatenate_lt {strings : List Bytes} (h : ¬NoLeadingEmpty strings) :
    (concatenate strings).length < (kStringAggDefaultDelimiter.intercalate strings).length := by
  rw [NoLeadingEmpty, Classical.not_imp, not_not] at h
  obtain ⟨hlength, hhead⟩ := h
  obtain ⟨s, t, strings, rfl⟩ : ∃ s t rest, strings = s :: t :: rest := by
    match strings, hlength with
    | s :: t :: rest, _ => exact ⟨s, t, rest, rfl⟩
  obtain rfl : s = [] := Option.some.inj hhead
  have hle := length_concatenate_le (t :: strings)
  have hdelimiter : 0 < kStringAggDefaultDelimiter.length := by decide
  rw [concatenate_eq_foldl, List.foldl_cons, append_nil_left, ← concatenate_eq_foldl,
    List.intercalate_cons_cons, List.length_append, List.length_append]
  omega

/-- The length of a text does not depend on the order of its parts. -/
lemma length_intercalate_perm {strings strings' : List Bytes} (h : strings.Perm strings') :
    (kStringAggDefaultDelimiter.intercalate strings).length =
      (kStringAggDefaultDelimiter.intercalate strings').length := by
  have hlength : ∀ s rest, (kStringAggDefaultDelimiter.intercalate (s :: rest)).length +
      kStringAggDefaultDelimiter.length =
        ((s :: rest).flatMap withDelimiter).length := by
    intro s rest
    rw [intercalate_cons, List.flatMap_cons, withDelimiter, List.length_append, List.length_append,
      List.length_append]
    omega
  cases strings with
  | nil => rw [h.nil_eq]
  | cons s rest =>
    obtain ⟨s', rest', rfl⟩ : ∃ s' rest', strings' = s' :: rest' :=
      List.exists_cons_of_ne_nil fun hnil => by rw [hnil] at h; exact List.cons_ne_nil _ _ h.eq_nil
    have hperm := (h.flatMap_right withDelimiter).length_eq
    have h₁ := hlength s rest
    have h₂ := hlength s' rest'
    omega

/-! ### The order -/

/-- The table with the values that are stored where there are NULLs. -/
def withoutNulls (table : Table R) : Table R :=
  ⟨table.columnDefinitions, table.chunks.map fun chunk =>
    ⟨chunk.segments.map fun segment => .ofValues segment.dataType segment.values⟩⟩

variable [LinearOrder R]

/-- Rows of a table in the order of sort definitions. -/
def InOrder (table : Table R) (definitions : List SortColumnDefinition) (ids ps : List RowId) :
    Prop :=
  ps.Perm ids ∧ ps.Pairwise (SortOperator.RowBefore table definitions)

/-- Rows of a table in the order in which the sort operator returns them. -/
def rowsInOrder (table : Table R) (definitions : List SortColumnDefinition) (ids : List RowId) :
    List RowId :=
  (SortOperator.positionsToSort table (SortOperator.sortedPositions table definitions)).filter
    fun id => id ∈ ids

variable {table : Table R} {definitions : List SortColumnDefinition} {ids ps qs : List RowId}

lemma inOrder_rowsInOrder (hnodup : ids.Nodup) (hids : ∀ id ∈ ids, id ∈ table.rowIds) :
    InOrder table definitions ids (rowsInOrder table definitions ids) := by
  have hperm := SortOperator.positionsToSort_perm table definitions
  refine ⟨?_, (SortOperator.pairwise_positionsToSort table definitions).filter _⟩
  refine (List.perm_ext_iff_of_nodup ?_ hnodup).mpr fun id => ?_
  · exact (hperm.nodup_iff.mpr table.nodup_rowIds).filter _
  · rw [rowsInOrder, List.mem_filter, hperm.mem_iff, decide_eq_true_eq]
    exact and_iff_right_of_imp (hids id)

lemma cellBefore_asymm {mode : SortMode} {a b : AllTypeVariant R}
    (h : SortOperator.CellBefore mode a b) : ¬SortOperator.CellBefore mode b a := by
  cases a <;> cases b <;> cases mode <;> simp_all [SortOperator.CellBefore, le_of_lt]

/-- Of two rows, only one is in front of the other. -/
lemma rowBefore_asymm {a b : RowId} (h : SortOperator.RowBefore table definitions a b) :
    ¬SortOperator.RowBefore table definitions b a := by
  induction definitions with
  | nil => exact lt_asymm h
  | cons d ds ih =>
    rintro (hba | ⟨heq, hba⟩) <;> rcases h with hab | ⟨heq', hab⟩
    · exact cellBefore_asymm hab hba
    · rw [heq'] at hba
      exact cellBefore_asymm hba hba
    · rw [heq] at hab
      exact cellBefore_asymm hab hab
    · exact ih hab hba

/-- There is one order of rows. -/
lemma InOrder.unique (hps : InOrder table definitions ids ps) (hqs : InOrder table definitions ids qs) :
    ps = qs :=
  List.Perm.eq_of_pairwise (fun _ _ _ _ hab hba => absurd hba (rowBefore_asymm hab)) hps.2 hqs.2
    (hps.1.trans hqs.1.symm)

section

variable [Zero R]

omit [LinearOrder R] in
/-- What is stored in a row. -/
lemma cellAt_withoutNulls (ht : table.WellFormed) {columnId : ℕ}
    (hcol : columnId < table.getColumnCount) {id : RowId} (hid : id ∈ table.rowIds) :
    (withoutNulls table).cellAt columnId id = some (table.storedAt columnId id) := by
  have hchunk : id.chunkId < table.chunks.length := (Table.mem_rowIds.mp hid).1
  have hlt := ht.offset_lt_length hid hcol
  have hsegments : columnId < (table.getChunk id.chunkId).segments.length :=
    (ht.chunk_of_mem_rowIds hid).length_segments ▸ hcol
  have hchunk' : (withoutNulls table).getChunk id.chunkId =
      ⟨(table.getChunk id.chunkId).segments.map fun segment =>
        .ofValues segment.dataType segment.values⟩ := by
    simp [withoutNulls, Table.getChunk, hchunk]
  rw [Table.cellAt, hchunk', Chunk.getSegment_of_lt (by simpa using hsegments), List.getElem_map,
    ValueSegment.variantAt_ofValues, Table.storedAt, Chunk.getSegment_of_lt hsegments]
  rw [Chunk.getSegment_of_lt hsegments] at hlt
  rw [List.getD_eq_getElem?_getD, List.getElem?_eq_getElem hlt]
  rfl

omit [LinearOrder R] [Zero R] in
lemma rowIds_withoutNulls (table : Table R) : (withoutNulls table).rowIds = table.rowIds := by
  have hcount : (withoutNulls table).chunkCount = table.chunkCount := List.length_map _
  rw [Table.rowIds_eq_flatMap_range, Table.rowIds_eq_flatMap_range, hcount]
  refine List.flatMap_congr fun i hi => ?_
  have hlt : i < table.chunks.length := List.mem_range.mp hi
  have hsize : ((withoutNulls table).getChunk i).size = (table.getChunk i).size := by
    simp only [withoutNulls, Table.getChunk, List.getD_eq_getElem?_getD, List.getElem?_map,
      List.getElem?_eq_getElem hlt, Option.map_some, Option.getD_some, Chunk.size]
    cases table.chunks[i].segments <;> rfl
  rw [Table.chunkRowIds, Table.chunkRowIds, hsize]

/-- A sort by one definition is the one of the sort operator, of the values that are stored. -/
lemma sortByDefinition_eq (ht : table.WellFormed) {definition : SortColumnDefinition}
    (hcol : definition.columnId.toNat < table.getColumnCount)
    (hids : ∀ id ∈ ids, id ∈ table.rowIds) {previouslySorted : List RowId}
    (hps : (if previouslySorted.isEmpty then ids else previouslySorted) = ps) (hperm : ps.Perm ids)
    (hne : ids ≠ []) : sortByDefinition table ids previouslySorted definition =
      SortOperator.sortByColumn (withoutNulls table) definition.columnId.toNat definition.sortMode
        ps := by
  have hcell : ∀ id ∈ ps, (withoutNulls table).cellAt definition.columnId.toNat id =
      some (table.storedAt definition.columnId.toNat id) :=
    fun id hid => cellAt_withoutNulls ht hcol (hids id (hperm.mem_iff.mp hid))
  have hpositions : SortOperator.positionsToSort (withoutNulls table) ps = ps := by
    rw [SortOperator.positionsToSort, List.isEmpty_eq_false_iff.mpr, if_neg Bool.false_ne_true]
    rintro rfl
    exact hne hperm.nil_eq.symm
  have hnulls : ps.filter (fun id =>
      ((withoutNulls table).cellAt definition.columnId.toNat id).isNone) = [] :=
    List.filter_eq_nil_iff.mpr fun id hid => by rw [hcell id hid]; simp
  have hpairs : ps.filterMap (fun id => ((withoutNulls table).cellAt definition.columnId.toNat
      id).map fun value => (id, value)) =
        ps.map fun id => (id, table.storedAt definition.columnId.toNat id) := by
    rw [← List.filterMap_eq_map]
    exact List.filterMap_congr fun id hid => by rw [hcell id hid]; rfl
  rw [sortByDefinition, SortOperator.sortByColumn, hpositions, hnulls, hpairs, hps]
  rfl

/-- The rows that the sort by one more definition starts from. -/
def positionsSorted (table : Table R) (definitions : List SortColumnDefinition)
    (ids : List RowId) : List RowId :=
  if (sortedPositions table definitions ids).isEmpty then ids
  else sortedPositions table definitions ids

/-- The sort by one more definition. -/
lemma inOrder_sortedPositions_cons (ht : table.WellFormed) {d : SortColumnDefinition}
    {ds : List SortColumnDefinition} (hcol : d.columnId.toNat < table.getColumnCount)
    (hids : ids.Sublist table.rowIds) (hne : ids ≠ [])
    (h : InOrder (withoutNulls table) ds ids (positionsSorted table ds ids)) :
    InOrder (withoutNulls table) (d :: ds) ids (sortedPositions table (d :: ds) ids) := by
  obtain ⟨hperm, hpairwise⟩ := h
  have hcons : sortedPositions table (d :: ds) ids =
      sortByDefinition table ids (sortedPositions table ds ids) d := by
    rw [sortedPositions, List.reverse_cons, List.foldl_append]
    rfl
  have hnil : positionsSorted table ds ids ≠ [] :=
    fun hnil => hne (by rw [hnil] at hperm; exact hperm.nil_eq.symm)
  have hpositions : SortOperator.positionsToSort (withoutNulls table)
      (positionsSorted table ds ids) = positionsSorted table ds ids := by
    rw [SortOperator.positionsToSort, List.isEmpty_eq_false_iff.mpr hnil, if_neg Bool.false_ne_true]
  have hsorted := SortOperator.sortByColumn_perm (withoutNulls table) d.columnId.toNat d.sortMode
    (positionsSorted table ds ids)
  rw [hpositions] at hsorted
  rw [hcons, sortByDefinition_eq ht hcol (fun id hid => hids.subset hid) rfl hperm hne]
  exact ⟨hsorted.trans hperm, SortOperator.pairwise_sortByColumn hpositions
    (hperm.nodup_iff.mpr (table.nodup_rowIds.sublist hids)) hpairwise⟩

/-- The order of the rows of a group is that of the values that are stored.  The induction is on the
definitions, the last of which is sorted by first. -/
lemma inOrder_positionsSorted (ht : table.WellFormed)
    (hcols : ∀ d ∈ definitions, d.columnId.toNat < table.getColumnCount)
    (hids : ids.Sublist table.rowIds) (hne : ids ≠ []) :
    InOrder (withoutNulls table) definitions ids (positionsSorted table definitions ids) := by
  induction definitions with
  | nil => exact ⟨.refl _, table.pairwise_rowIds.sublist hids⟩
  | cons d ds ih =>
    rw [List.forall_mem_cons] at hcols
    have hsorted := inOrder_sortedPositions_cons ht hcols.1 hids hne (ih hcols.2)
    rw [positionsSorted]
    split
    · next hempty =>
      rw [List.isEmpty_iff.mp hempty] at hsorted
      exact absurd hsorted.1.nil_eq.symm hne
    · exact hsorted

/-- The rows of a group in the order in which their strings are concatenated. -/
lemma sortedPositions_eq_rowsInOrder (ht : table.WellFormed)
    (hcols : ∀ d ∈ definitions, d.columnId.toNat < table.getColumnCount)
    (hids : ids.Sublist table.rowIds) (hne : ids ≠ []) (hdefinitions : definitions ≠ []) :
    sortedPositions table definitions ids = rowsInOrder (withoutNulls table) definitions ids := by
  obtain ⟨d, ds, rfl⟩ := List.exists_cons_of_ne_nil hdefinitions
  rw [List.forall_mem_cons] at hcols
  have hmem : ∀ id ∈ ids, id ∈ (withoutNulls table).rowIds := fun id hid => by
    rw [rowIds_withoutNulls]
    exact hids.subset hid
  exact (inOrder_sortedPositions_cons ht hcols.1 hids hne
    (inOrder_positionsSorted ht hcols.2 hids hne)).unique
      (inOrder_rowsInOrder (table.nodup_rowIds.sublist hids) hmem)

end

/-- Without sort definitions, the rows stay in their order. -/
lemma rowsInOrder_nil (hids : ids.Sublist table.rowIds) : rowsInOrder table [] ids = ids :=
  (inOrder_rowsInOrder (table.nodup_rowIds.sublist hids) fun _ hid => hids.subset hid).unique
    ⟨.refl _, table.pairwise_rowIds.sublist hids⟩

/-! ### What is written for a group -/

section

variable (table)

/-- The string in a row. -/
def stringAt (columnId : ℕ) (id : RowId) : Bytes :=
  match table.cellAt columnId id with
  | some v => asString v
  | none => []

/-- The rows of a group with a string that is not NULL. -/
def stringRows (columnId : ℕ) (g : List RowId) : List RowId :=
  g.filter fun id => (table.cellAt columnId id).isSome

/-- The strings of some rows with delimiters between them, or NULL if there are none. -/
def text (columnId : ℕ) (ps : List RowId) : AllTypeVariant R :=
  if ps = [] then none
  else some (.string (kStringAggDefaultDelimiter.intercalate (ps.map (stringAt table columnId))))

/-- What is to be written for a group: the strings that are not NULL, in the order of the sort
definitions, or without any in the order of the table. -/
def requiredText (columnId : ℕ)
    (sortColumnDefinitions : Option (List SortColumnDefinition)) (g : List RowId) :
    AllTypeVariant R :=
  text table columnId
    (rowsInOrder table (sortColumnDefinitions.getD []) (stringRows table columnId g))

/-- The condition for that: sort definitions that are given are not an empty list, the string that
comes first is not empty or the only one, and the text does not depend on whether a NULL in a sort
key is sorted to the front or as the value that is stored for it. -/
structure Delimited (columnId : ℕ)
    (sortColumnDefinitions : Option (List SortColumnDefinition)) (g : List RowId) : Prop where
  definitions : sortColumnDefinitions = some [] →
    (stringRows table columnId g).map (stringAt table columnId) = [] ∨
      (stringRows table columnId g).map (stringAt table columnId) = [[]]
  noLeadingEmpty : NoLeadingEmpty ((rowsInOrder (withoutNulls table)
    (sortColumnDefinitions.getD []) (stringRows table columnId g)).map (stringAt table columnId))
  nullKeys : text table columnId (rowsInOrder (withoutNulls table)
      (sortColumnDefinitions.getD []) (stringRows table columnId g)) =
    requiredText table columnId sortColumnDefinitions g

end

section

variable [Zero R] {columnId : ℕ} {sortColumnDefinitions : Option (List SortColumnDefinition)}
  {g : List RowId}

omit [LinearOrder R] [Zero R] in
lemma text_eq {ps : List RowId} (hne : ps ≠ []) : text table columnId ps = some
    (.string (kStringAggDefaultDelimiter.intercalate (ps.map (stringAt table columnId)))) :=
  if_neg hne

omit [LinearOrder R] in
lemma eq_singleton_nil_iff {strings : List Bytes} (hne : strings ≠ []) :
    [] = kStringAggDefaultDelimiter.intercalate strings ↔ strings = [[]] := by
  obtain ⟨s, rest, rfl⟩ := List.exists_cons_of_ne_nil hne
  cases rest with
  | nil => simp [eq_comm]
  | cons t rest =>
    refine iff_of_false (fun h => ?_) (by simp)
    have hlength := congrArg List.length h
    have hdelimiter : 0 < kStringAggDefaultDelimiter.length := by decide
    rw [List.intercalate_cons_cons, List.length_append, List.length_append] at hlength
    simp only [List.length_nil] at hlength
    omega

omit [LinearOrder R] [Zero R] in
variable (table columnId) in
/-- Strings that are concatenated in some order. -/
lemma concatenate_eq_iff {ps qs : List RowId} (hne : ps ≠ []) (hperm : ps.Perm qs) :
    concatenate (ps.map (stringAt table columnId)) =
        kStringAggDefaultDelimiter.intercalate (qs.map (stringAt table columnId)) ↔
      NoLeadingEmpty (ps.map (stringAt table columnId)) ∧
        text table columnId ps = text table columnId qs := by
  have hqs : qs ≠ [] := fun h => hne (by rw [h] at hperm; exact hperm.eq_nil)
  rw [text_eq hne, text_eq hqs, Option.some_inj, Value.string.injEq]
  constructor
  · intro heq
    have hleading : NoLeadingEmpty (ps.map (stringAt table columnId)) := by
      by_contra hleading
      have hlt := length_concatenate_lt hleading
      rw [heq, length_intercalate_perm (hperm.map _)] at hlt
      exact lt_irrefl _ hlt
    exact ⟨hleading, (concatenate_eq_intercalate hleading).symm.trans heq⟩
  · rintro ⟨hleading, htext⟩
    exact (concatenate_eq_intercalate hleading).trans htext

omit [Zero R] in
/-- A group without strings. -/
lemma delimited_of_nil (hnil : stringRows table columnId g = []) :
    Delimited table columnId sortColumnDefinitions g := by
  have horder : ∀ t : Table R, rowsInOrder t (sortColumnDefinitions.getD []) [] = [] :=
    fun t => by simp [rowsInOrder]
  refine ⟨fun _ => .inl ?_, ?_, ?_⟩
  · rw [hnil, List.map_nil]
  · rw [hnil, horder]
    exact fun h => absurd h (by simp)
  · rw [requiredText, hnil, horder, horder]

/-- What is written for a group is what is to be written if and only if the strings are
delimited. -/
lemma aggregateValue_iff (ht : table.WellFormed)
    (hcols : ∀ definitions, sortColumnDefinitions = some definitions →
      ∀ d ∈ definitions, d.columnId.toNat < table.getColumnCount)
    (hstored : ∀ id ∈ stringRows table columnId g,
      asString (table.storedAt columnId id) = stringAt table columnId id)
    (hg : g.Sublist table.rowIds) :
    aggregateValue table columnId sortColumnDefinitions
        ((stringRows table columnId g).map fun id => (id, stringAt table columnId id)) =
      requiredText table columnId sortColumnDefinitions g ↔
    Delimited table columnId sortColumnDefinitions g := by
  by_cases hnil : stringRows table columnId g = []
  · refine iff_of_true ?_ (delimited_of_nil hnil)
    rw [aggregateValue.eq_def, requiredText, hnil]
    simp [rowsInOrder, text]
  have hids : (stringRows table columnId g).Sublist table.rowIds := List.filter_sublist.trans hg
  have hids' : (stringRows table columnId g).Sublist (withoutNulls table).rowIds := by
    rwa [rowIds_withoutNulls]
  have hrequired : ∀ definitions, sortColumnDefinitions.getD [] = definitions →
      requiredText table columnId sortColumnDefinitions g = some (.string
        (kStringAggDefaultDelimiter.intercalate ((rowsInOrder table definitions
          (stringRows table columnId g)).map (stringAt table columnId)))) := by
    rintro definitions rfl
    refine text_eq fun h => hnil ?_
    have hperm := (inOrder_rowsInOrder (table.nodup_rowIds.sublist hids) fun _ hid =>
      hids.subset hid : InOrder table (sortColumnDefinitions.getD []) _ _).1
    rw [h] at hperm
    exact hperm.nil_eq.symm
  rw [aggregateValue.eq_def, if_neg (by simpa using hnil), List.map_map, List.map_map]
  have hfst : (stringRows table columnId g).map
      (Prod.fst ∘ fun id => (id, stringAt table columnId id)) = stringRows table columnId g :=
    List.map_id _
  cases sortColumnDefinitions with
  | none =>
    -- the order of the table
    have hiff := concatenate_eq_iff table columnId hnil (.refl _)
    rw [hrequired [] rfl, rowsInOrder_nil hids, Option.some_inj, Value.string.injEq]
    refine hiff.trans ⟨fun h => ⟨fun hsome => (by cases hsome), ?_, ?_⟩, fun h => ⟨?_, rfl⟩⟩
    · rw [Option.getD_none, rowsInOrder_nil hids']
      exact h.1
    · rw [requiredText, Option.getD_none, rowsInOrder_nil hids', rowsInOrder_nil hids]
    · simpa only [Option.getD_none, rowsInOrder_nil hids'] using h.noLeadingEmpty
  | some definitions =>
    cases definitions with
    | nil =>
      -- no row is ever sorted
      have hmap : (stringRows table columnId g).map (stringAt table columnId) ≠ [] := by
        simpa using hnil
      rw [hrequired [] rfl, rowsInOrder_nil hids, Option.some_inj, Value.string.injEq]
      refine (eq_singleton_nil_iff hmap).trans ⟨fun h => ⟨fun _ => .inr h, ?_, ?_⟩, fun h => ?_⟩
      · rw [Option.getD_some, rowsInOrder_nil hids', h]
        exact fun hlength => absurd hlength (by simp)
      · rw [requiredText, Option.getD_some, rowsInOrder_nil hids', rowsInOrder_nil hids]
      · exact (h.definitions rfl).resolve_left hmap
    | cons d ds =>
      have hpositions := sortedPositions_eq_rowsInOrder ht (hcols _ rfl) hids hnil
        (List.cons_ne_nil d ds)
      have hnodup := table.nodup_rowIds.sublist hids
      have hstoredOrder : InOrder (withoutNulls table) (d :: ds) (stringRows table columnId g) _ :=
        inOrder_rowsInOrder hnodup fun _ hid => hids'.subset hid
      have horder : InOrder table (d :: ds) (stringRows table columnId g) _ :=
        inOrder_rowsInOrder hnodup fun _ hid => hids.subset hid
      have hne : rowsInOrder (withoutNulls table) (d :: ds) (stringRows table columnId g) ≠ [] :=
        fun h => hnil (by have hperm := hstoredOrder.1; rw [h] at hperm; exact hperm.nil_eq.symm)
      have hstrings : (rowsInOrder (withoutNulls table) (d :: ds) (stringRows table columnId g)).map
          (fun id => asString (table.storedAt columnId id)) =
            (rowsInOrder (withoutNulls table) (d :: ds) (stringRows table columnId g)).map
              (stringAt table columnId) :=
        List.map_congr_left fun id hid => hstored id (hstoredOrder.1.mem_iff.mp hid)
      have hrequired' := hrequired (d :: ds) rfl
      dsimp only
      rw [hfst, hpositions, hstrings, hrequired', Option.some_inj, Value.string.injEq,
        concatenate_eq_iff table columnId hne (hstoredOrder.1.trans horder.1.symm)]
      exact ⟨fun h => ⟨fun hsome => (by cases hsome), h.1, h.2⟩,
        fun h => ⟨h.noLeadingEmpty, h.nullKeys⟩⟩

end

end StringAgg

/-! ### The output -/

section

open StringAgg

variable [FloatingPoint R] {table : Table R} {groupByColumnIds : List ℕ}
  {aggregates : List AggregateExpression} {aggregate : AggregateExpression} {columnId : ℕ}
  {g : List RowId}

omit [FloatingPoint R] in
/-- A string column holds strings. -/
lemma exists_string (ht : table.WellFormed) (hcol : columnId < table.getColumnCount)
    (hstring : table.columnDataType columnId = .string) {id : RowId} (hid : id ∈ table.rowIds)
    (hne : (table.cellAt columnId id).isSome) : ∃ s, table.cellAt columnId id = some (.string s) := by
  obtain ⟨v, hv⟩ := Option.isSome_iff_exists.mp hne
  have htype := (ht.dataType_of_cellAt hid hcol hv).trans hstring
  cases v with
  | string s => exact ⟨s, hv⟩
  | _ => cases htype

/-- The strings that are accumulated for a group. -/
lemma strings_aggregated (ht : table.WellFormed) (hvalid : aggregate.Valid table)
    (hstring : aggregate.aggregateFunction = .stringAgg) (hcol : aggregate.columnId = some columnId)
    (hg : ∀ id ∈ g, id ∈ table.rowIds) (s : AggregateValue R) :
    (aggregated (stepOf table aggregate) s g).accumulator.strings =
      s.accumulator.strings ++
        (stringRows table columnId g).map fun id => (id, stringAt table columnId id) := by
  induction g generalizing s with
  | nil => simp [aggregated, stringRows]
  | cons id g ih =>
    rw [List.forall_mem_cons] at hg
    have hstep : (stepOf table aggregate id s).accumulator.strings = s.accumulator.strings ++
        (stringRows table columnId [id]).map fun id => (id, stringAt table columnId id) := by
      rw [stepOf, processRow, hcol, hstring]
      dsimp only
      cases hcell : table.cellAt columnId id with
      | none => simp [processPosition, stringRows, hcell]
      | some v =>
        obtain ⟨t, ht'⟩ := exists_string ht (hvalid.columnId_lt _ hcol)
          (hvalid.stringAgg _ hcol hstring) hg.1 (by rw [hcell]; rfl)
        rw [hcell, Option.some_inj] at ht'
        subst ht'
        have hrow : stringRows table columnId [id] = [id] := by simp [stringRows, hcell]
        have hat : stringAt table columnId id = t := by rw [stringAt, hcell]; rfl
        rw [hrow, List.map_singleton, hat]
        rfl
    have hcons : stringRows table columnId (id :: g) =
        stringRows table columnId [id] ++ stringRows table columnId g :=
      List.filter_append [id] g
    rw [aggregated, List.foldl_cons]
    have hrest := ih hg.2 (stepOf table aggregate id s)
    rw [aggregated] at hrest
    rw [hrest, hstep, hcons, List.map_append, List.append_assoc]

/-- A table of strings. -/
def namesTable (names : List Bytes) : Table ℚ :=
  ⟨[⟨"name", .string, false⟩], [⟨[.ofValues .string (names.map .string)]⟩]⟩

/-- STRING_AGG of the names, in the order of the table. -/
def stringAggOfNames : AggregateExpression := ⟨.stringAgg, some 0, "name", none⟩

lemma wellFormed_namesTable (names : List Bytes) : (namesTable names).WellFormed := by
  refine ⟨by simp [namesTable], ?_⟩
  refine List.forall_mem_singleton.mpr ⟨rfl, ?_, by simp [Chunk.size], fun columnId d hd _ i => ?_⟩
  · refine List.forall_mem_singleton.mpr
      (ValueSegment.wellFormed_ofValues (by decide) fun v hv => ?_)
    obtain ⟨s, -, rfl⟩ := List.mem_map.mp hv
    rfl
  · obtain ⟨hlt, -⟩ := List.getElem?_eq_some_iff.mp hd
    obtain rfl : columnId = 0 := by simpa [namesTable] using hlt
    rfl

lemma valid_stringAggOfNames (names : List Bytes) :
    ∀ a ∈ [stringAggOfNames], a.Valid (namesTable names) := by
  refine List.forall_mem_singleton.mpr ⟨?_, ?_, ?_, ?_⟩ <;>
    simp [stringAggOfNames, namesTable, Table.getColumnCount, Table.columnDataType,
      Table.columnDefinition]

end

end Skyrise

/-
Sorting.

`sortByColumn` is `SortImplementation::Sort`: the rows, in the order of an earlier
sort if there was one, are sorted stably by a column, NULLs in front.
`materializeOutputTable` builds the table that has the rows at given positions.
-/
import Skyrise.Storage.Table
import Skyrise.Utils.Assert

namespace Skyrise

variable {R : Type}

/-- The direction of a sort. -/
inductive SortMode where
  | ascending
  | descending
deriving DecidableEq, Repr

/-- A column to sort by, and the direction. -/
structure SortColumnDefinition where
  columnId : UInt32
  sortMode : SortMode := .ascending
deriving DecidableEq, Repr

/-- The column id that is no column. -/
def kInvalidColumnId : UInt32 := 4294967295

/-- The number of rows of a chunk if nothing else is asked for. -/
def kChunkDefaultSize : ℕ := 65535

namespace SortOperator

/-- The positions that a sort starts from: those of an earlier sort, or all rows of the table. -/
def positionsToSort (table : Table R) (previouslySorted : List RowId) : List RowId :=
  if previouslySorted.isEmpty then table.rowIds else previouslySorted

/-- Whether the sort leaves two values in the given order. -/
def inOrder [LinearOrder R] (mode : SortMode) (a b : Value R) : Bool :=
  match mode with
  | .ascending => !decide (b < a)
  | .descending => !decide (a < b)

/-- `SortImplementation::Sort`.  The pairs of a position and a value that is not NULL are sorted,
the positions of the NULLs are put in front. -/
def sortByColumn [LinearOrder R] (table : Table R) (columnId : ℕ) (mode : SortMode)
    (previouslySorted : List RowId) : List RowId :=
  let positions := positionsToSort table previouslySorted
  let nullValueRows := positions.filter fun id => (table.cellAt columnId id).isNone
  let rowIdValuePairs := positions.filterMap fun id =>
    (table.cellAt columnId id).map fun value => (id, value)
  nullValueRows ++ (rowIdValuePairs.mergeSort fun a b => inOrder mode a.2 b.2).map Prod.fst

/-- A column of an output chunk.  The value of every cell is taken out of the variant, also of a
NULL. -/
def materializeColumn (table : Table R) (positions : List RowId) (columnId : ℕ) :
    Except Exception (ValueSegment R) := do
  let values ← positions.mapM fun id =>
    match table.cellAt columnId id with
    | none => Except.error .badVariantAccess
    | some value => .ok value
  let nulls := positions.map fun id => variantIsNull (table.cellAt columnId id)
  return if table.columnIsNullable columnId then
      .ofNullable (table.columnDataType columnId) values nulls
    else .ofValues (table.columnDataType columnId) values

/-- An output chunk. -/
def materializeChunk (table : Table R) (positions : List RowId) : Except Exception (Chunk R) := do
  let segments ← (List.range table.getColumnCount).mapM (materializeColumn table positions)
  return ⟨segments⟩

/-- `SortOperator::MaterializeOutputTable`.  The jobs that fill the chunks do not depend on each
other, and are run one after the other here. -/
def materializeOutputTable (table : Table R) (positions : List RowId) (singleChunk : Bool) :
    Except Exception (Table R) := do
  assert (positions.length == table.rowCount)
    "The input table size does not match the number of row-positions."
  let chunkSize := if singleChunk then table.rowCount else kChunkDefaultSize
  if chunkSize = 0 then
    throw .divisionByZero
  let numberOfOutputChunks :=
    table.rowCount / chunkSize + if table.rowCount % chunkSize = 0 then 0 else 1
  let chunks ← (List.range numberOfOutputChunks).mapM fun i =>
    materializeChunk table ((positions.drop (i * chunkSize)).take chunkSize)
  return ⟨table.columnDefinitions, chunks⟩

/-- The positions of all rows in the order of the sort definitions.  The rows are sorted by the
last definition first. -/
def sortedPositions [LinearOrder R] (table : Table R)
    (sortDefinitions : List SortColumnDefinition) : List RowId :=
  sortDefinitions.reverse.foldl (fun previouslySorted sortDefinition =>
    sortByColumn table sortDefinition.columnId.toNat sortDefinition.sortMode previouslySorted) []

/-- The assertions on a sort definition. -/
def checkDefinition (inputTable : Table R) (sortDefinition : SortColumnDefinition) :
    Except Exception Unit := do
  assert (decide (sortDefinition.columnId ≠ kInvalidColumnId)) "Invalid column in sort definition."
  assert (decide (sortDefinition.columnId.toNat < inputTable.getColumnCount))
    "ColumnId is greater than the column count."

/-- `SortOperator::OnExecute`. -/
def sortOperator [LinearOrder R] (sortDefinitions : List SortColumnDefinition)
    (inputTable : Table R) : Except Exception (Table R) := do
  sortDefinitions.forM (checkDefinition inputTable)
  if inputTable.rowCount = 0 then
    return inputTable
  materializeOutputTable inputTable (sortedPositions inputTable sortDefinitions) false

/-! ### Sorting permutes the rows -/

variable {table : Table R} {columnId : ℕ} {positions : List RowId}

lemma filterMap_cellAt_perm (table : Table R) (columnId : ℕ) (positions : List RowId) :
    (positions.filter (fun id => (table.cellAt columnId id).isNone) ++
      (positions.filterMap fun id => (table.cellAt columnId id).map fun value => (id, value)).map
        Prod.fst).Perm positions := by
  induction positions with
  | nil => exact List.Perm.refl _
  | cons id positions ih =>
    cases h : table.cellAt columnId id with
    | none => simpa [List.filter_cons, List.filterMap_cons, h] using ih
    | some v =>
      simp only [List.filter_cons, List.filterMap_cons, h, Option.isNone_some, Bool.false_eq_true,
        if_false, Option.map_some, List.map_cons]
      exact List.perm_middle.trans (ih.cons id)

/-- A sort permutes the positions that it starts from. -/
lemma sortByColumn_perm [LinearOrder R] (table : Table R) (columnId : ℕ) (mode : SortMode)
    (previouslySorted : List RowId) :
    (sortByColumn table columnId mode previouslySorted).Perm
      (positionsToSort table previouslySorted) := by
  refine List.Perm.trans ?_ (filterMap_cellAt_perm table columnId _)
  exact ((List.mergeSort_perm _ _).map Prod.fst).append_left _

/-- All rows are sorted if there is a sort definition. -/
lemma sortedPositions_perm [LinearOrder R] (table : Table R)
    {sortDefinitions : List SortColumnDefinition} (hne : sortDefinitions ≠ []) :
    (sortedPositions table sortDefinitions).Perm table.rowIds := by
  -- every sort but the first starts from all rows in some order, the first one from no rows
  have hsort : ∀ (definition : SortColumnDefinition) (sorted : List RowId),
      sorted = [] ∨ sorted.Perm table.rowIds → (sortByColumn table definition.columnId.toNat
        definition.sortMode sorted).Perm table.rowIds := by
    intro definition sorted hsorted
    refine (sortByColumn_perm table _ _ sorted).trans ?_
    rw [positionsToSort]
    split
    · exact List.Perm.refl _
    · next hnil => exact hsorted.resolve_left fun h => hnil (by rw [h]; rfl)
  have hloop : ∀ (definitions : List SortColumnDefinition) (sorted : List RowId),
      (sorted = [] ∧ definitions ≠ []) ∨ sorted.Perm table.rowIds →
      (definitions.foldl (fun previouslySorted definition => sortByColumn table
        definition.columnId.toNat definition.sortMode previouslySorted) sorted).Perm
          table.rowIds := by
    intro definitions
    induction definitions with
    | nil =>
      rintro sorted (⟨-, hnil⟩ | hperm)
      · exact absurd rfl hnil
      · exact hperm
    | cons definition definitions ih =>
      rintro sorted hsorted
      exact ih _ (.inr (hsort definition sorted (hsorted.imp_left And.left)))
  exact hloop _ [] (.inl ⟨rfl, by simpa using hne⟩)

/-! ### The materialised table -/

variable [Zero R]

/-- Without NULLs a column holds the stored values. -/
lemma materializeColumn_eq_ok (ht : table.WellFormed) (hnn : table.NonNull)
    (hpos : ∀ id ∈ positions, id ∈ table.rowIds) (hcol : columnId < table.getColumnCount) :
    materializeColumn table positions columnId = .ok
      (if table.columnIsNullable columnId then
        .ofNullable (table.columnDataType columnId) (positions.map (table.storedAt columnId))
          (positions.map fun _ => false)
      else .ofValues (table.columnDataType columnId) (positions.map (table.storedAt columnId))) := by
  have hcell : ∀ id ∈ positions, table.cellAt columnId id = some (table.storedAt columnId id) :=
    fun id hid => ht.cellAt_eq_some_storedAt (hpos id hid) hcol (hnn id (hpos id hid) _ hcol)
  have hvalues : positions.mapM (fun id => match table.cellAt columnId id with
      | none => Except.error Exception.badVariantAccess
      | some value => .ok value) = .ok (positions.map (table.storedAt columnId)) :=
    mapM_eq_ok fun id hid => by rw [hcell id hid]
  have hnulls : positions.map (fun id => variantIsNull (table.cellAt columnId id)) =
      positions.map fun _ => false :=
    List.map_congr_left fun id hid => by rw [hcell id hid, variantIsNull_some]
  rw [materializeColumn, hvalues, hnulls]
  rfl

/-- Without NULLs a chunk holds the rows at the positions. -/
lemma materializeChunk_eq_ok (ht : table.WellFormed) (hnn : table.NonNull)
    (hpos : ∀ id ∈ positions, id ∈ table.rowIds) :
    ∃ c, materializeChunk table positions = .ok c ∧ table.Gathers positions c := by
  have hcols : (List.range table.getColumnCount).mapM (materializeColumn table positions) = _ :=
    mapM_eq_ok fun i hi => materializeColumn_eq_ok ht hnn hpos (List.mem_range.mp hi)
  refine ⟨⟨(List.range table.getColumnCount).map fun i =>
    if table.columnIsNullable i then
      .ofNullable (table.columnDataType i) (positions.map (table.storedAt i))
        (positions.map fun _ => false)
    else .ofValues (table.columnDataType i) (positions.map (table.storedAt i))⟩, ?_, ?_⟩
  · rw [materializeChunk, hcols]
    rfl
  · refine ⟨by simp, fun i hi => ?_, fun i hi => ?_, fun i hi => ?_⟩ <;>
      cases hnullable : table.columnIsNullable i <;>
      simp [Chunk.getSegment, hi, hnullable, ValueSegment.ofNullable, ValueSegment.ofValues]

/-- The materialisation as one chunk, for a table with rows. -/
lemma materializeOutputTable_eq_ok (ht : table.WellFormed) (hnn : table.NonNull)
    (hpos : positions.Perm table.rowIds) (hne : table.rowCount ≠ 0) :
    ∃ c, materializeOutputTable table positions true = .ok ⟨table.columnDefinitions, [c]⟩ ∧
      table.Gathers positions c := by
  obtain ⟨c, hc, hgathers⟩ := materializeChunk_eq_ok ht hnn fun id hid => hpos.mem_iff.mp hid
  have hlen : positions.length = table.rowCount := by rw [hpos.length_eq, Table.length_rowIds]
  refine ⟨c, ?_, hgathers⟩
  have hdiv : table.rowCount / table.rowCount = 1 := Nat.div_self (Nat.pos_of_ne_zero hne)
  have hall : (positions.drop (0 * table.rowCount)).take table.rowCount = positions := by
    rw [Nat.zero_mul, List.drop_zero, ← hlen, List.take_length]
  rw [materializeOutputTable, hlen, beq_self_eq_true, assert_true]
  simp only [if_true, hdiv, Nat.mod_self, Nat.add_zero, List.range_one, List.mapM_cons, hall, hc,
    List.mapM_nil]
  rw [if_neg hne]
  rfl

omit [Zero R] in
/-- A column can be built only if it has no NULL at the positions. -/
lemma cellAt_ne_none_of_materializeColumn_eq_ok {s : ValueSegment R}
    (h : materializeColumn table positions columnId = .ok s) :
    ∀ id ∈ positions, table.cellAt columnId id ≠ none := by
  intro id hid hnone
  obtain ⟨values, hvalues, -⟩ := exists_of_bind_eq_ok h
  obtain ⟨v, hv⟩ := exists_mapM_eq_ok_iff.mp ⟨_, hvalues⟩ id hid
  rw [hnone] at hv
  cases hv

/-- The materialisation has the rows of the positions if and only if the table has no NULLs. -/
lemma materializeOutputTable_eq_ok_iff (ht : table.WellFormed)
    (hpos : positions.Perm table.rowIds) :
    (∃ t, materializeOutputTable table positions false = .ok t ∧
        t.columnDefinitions = table.columnDefinitions ∧ t.rows = positions.map table.rowAt) ↔
      table.NonNull := by
  have hlen : positions.length = table.rowCount := by rw [hpos.length_eq, Table.length_rowIds]
  have hmem : ∀ id ∈ positions, id ∈ table.rowIds := fun id hid => hpos.mem_iff.mp hid
  set n := table.rowCount / kChunkDefaultSize +
    if table.rowCount % kChunkDefaultSize = 0 then 0 else 1 with hn
  -- the chunks cover all positions
  have hcover : ((List.range n).flatMap fun i =>
      (positions.drop (i * kChunkDefaultSize)).take kChunkDefaultSize) = positions := by
    rw [List.flatMap_range_take_drop, List.take_of_length_le]
    rw [hlen, hn, kChunkDefaultSize]
    split_ifs <;> omega
  have hrun : materializeOutputTable table positions false = ((List.range n).mapM fun i =>
      materializeChunk table
        ((positions.drop (i * kChunkDefaultSize)).take kChunkDefaultSize)).bind fun chunks =>
          .ok ⟨table.columnDefinitions, chunks⟩ := by
    rw [materializeOutputTable, hlen, beq_self_eq_true, assert_true]
    rfl
  rw [hrun]
  constructor
  · rintro ⟨t, hok, -⟩ id hid i hi
    rw [← hpos.mem_iff, ← hcover, List.mem_flatMap] at hid
    obtain ⟨k, hk, hid⟩ := hid
    obtain ⟨chunks, hchunks, -⟩ := exists_of_bind_eq_ok hok
    obtain ⟨c, hc⟩ := exists_mapM_eq_ok_iff.mp ⟨_, hchunks⟩ k hk
    obtain ⟨segments, hsegments, -⟩ := exists_of_bind_eq_ok hc
    obtain ⟨s, hs⟩ := exists_mapM_eq_ok_iff.mp ⟨_, hsegments⟩ i (List.mem_range.mpr hi)
    exact cellAt_ne_none_of_materializeColumn_eq_ok hs id hid
  · intro hnn
    obtain ⟨chunks, hchunks, hall⟩ := exists_mapM_eq_ok
      (f := fun i => materializeChunk table
        ((positions.drop (i * kChunkDefaultSize)).take kChunkDefaultSize))
      (P := fun i c => c.rows =
        ((positions.drop (i * kChunkDefaultSize)).take kChunkDefaultSize).map table.rowAt)
      (List.range n) fun i _ => by
        set block := (positions.drop (i * kChunkDefaultSize)).take kChunkDefaultSize with hblock
        have hsub : ∀ id ∈ block, id ∈ table.rowIds :=
          fun id hid => hmem id (List.mem_of_mem_drop (List.mem_of_mem_take hid))
        obtain ⟨c, hc, hgathers⟩ := materializeChunk_eq_ok ht hnn hsub
        exact ⟨c, hc, (hgathers.rows_of_mem ht hsub).trans
          ((ht.map_storedRow_eq_iff hsub).mpr fun id hid => hnn id (hsub id hid))⟩
    refine ⟨⟨table.columnDefinitions, chunks⟩, by rw [hchunks]; rfl, rfl, ?_⟩
    conv_rhs => rw [← hcover]
    rw [List.map_flatMap, Table.rows]
    exact List.flatMap_eq_of_forall₂ hall

/-- Sort definitions that pass the assertions. -/
def Accepts (sortDefinitions : List SortColumnDefinition) (table : Table R) : Prop :=
  sortDefinitions ≠ [] ∧ ∀ d ∈ sortDefinitions,
    d.columnId ≠ kInvalidColumnId ∧ d.columnId.toNat < table.getColumnCount

/-- The operator returns the sorted rows if and only if the table has no NULLs. -/
lemma sortOperator_eq_ok_iff [LinearOrder R] {sortDefinitions : List SortColumnDefinition}
    (ht : table.WellFormed) (h : Accepts sortDefinitions table) :
    (∃ t, sortOperator sortDefinitions table = .ok t ∧
        t.columnDefinitions = table.columnDefinitions ∧
        t.rows = (sortedPositions table sortDefinitions).map table.rowAt) ↔ table.NonNull := by
  have hperm := sortedPositions_perm table h.1
  have hcheck : sortDefinitions.forM (checkDefinition table) = .ok () := by
    have hall := h.2
    clear hperm h
    induction sortDefinitions with
    | nil => rfl
    | cons d ds ih =>
      obtain ⟨⟨hvalid, hlt⟩, hds⟩ := List.forall_mem_cons.mp hall
      show (checkDefinition table d >>= fun _ => ds.forM (checkDefinition table)) = _
      rw [checkDefinition, decide_eq_true hvalid, decide_eq_true hlt, ih hds]
      rfl
  rw [sortOperator, hcheck]
  simp only [bind, Except.bind, pure, Except.pure]
  split_ifs with hzero
  · -- no rows, and no NULLs
    have hrowIds : table.rowIds = [] := List.length_eq_zero_iff.mp (table.length_rowIds.trans hzero)
    have hrows : table.rows = [] := List.length_eq_zero_iff.mp (table.length_rows.trans hzero)
    refine iff_of_true ⟨table, rfl, rfl, ?_⟩ fun id hid => absurd (hrowIds ▸ hid) List.not_mem_nil
    rw [hrowIds] at hperm
    rw [hrows, hperm.eq_nil]
    rfl
  · exact materializeOutputTable_eq_ok_iff ht hperm

omit [Zero R] in
/-- The materialisation of no rows as one chunk divides by zero. -/
lemma materializeOutputTable_eq_error (hzero : table.rowCount = 0) :
    materializeOutputTable table [] true = .error .divisionByZero := by
  rw [materializeOutputTable, hzero]
  rfl

end SortOperator

end Skyrise

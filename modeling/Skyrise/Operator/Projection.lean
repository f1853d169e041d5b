/-
The chunks that the projection operator evaluates its expressions on.

The only chunk of a table with many rows is split in front of the projection.  The
values of every column are appended to new segments, 128 in each.
-/
import Skyrise.Storage.Table
import Skyrise.Utils.Assert

namespace Skyrise

variable {R : Type}

/-- `ValueSegment::Get`, the value stored at an offset. -/
def ValueSegment.get (s : ValueSegment R) (chunkOffset : ℕ) : Except Exception (Value R) :=
  match s.values[chunkOffset]? with
  | none => .error .outOfRange
  | some value => .ok value

namespace ProjectionOperator

/-- The number of rows of a new chunk. -/
def desiredChunkSize : ℕ := 128

/-- A new segment with the values from an offset on.  It has no vector of NULL flags, and what is
appended to it is a stored value. -/
def splitSegment (segment : ValueSegment R) (offset rowCount : ℕ) :
    Except Exception (ValueSegment R) := do
  let values ← (List.range' offset (min desiredChunkSize (rowCount - offset))).mapM segment.get
  return .ofValues segment.dataType values

/-- A new chunk with the rows from an offset on. -/
def splitChunk (inputTable : Table R) (offset : ℕ) : Except Exception (Chunk R) := do
  let segments ← (List.range inputTable.getColumnCount).mapM fun a =>
    splitSegment ((inputTable.getChunk 0).getSegment a) offset inputTable.rowCount
  return ⟨segments⟩

/-- The table that the expressions are evaluated on. -/
def splitInput (inputTable : Table R) : Except Exception (Table R) :=
  if inputTable.chunkCount = 1 ∧ inputTable.rowCount > desiredChunkSize then do
    let chunkCount := (inputTable.rowCount + desiredChunkSize - 1) / desiredChunkSize
    let chunks ← (List.range chunkCount).mapM fun i => splitChunk inputTable (i * desiredChunkSize)
    return ⟨inputTable.columnDefinitions, chunks⟩
  else return inputTable

/-! ### The rows of the new chunks -/

variable [Zero R] {table : Table R}

/-- The positions of the rows of a new chunk. -/
def splitPositions (table : Table R) (offset : ℕ) : List RowId :=
  (List.range' offset (min desiredChunkSize (table.rowCount - offset))).map (RowId.mk 0)

omit [Zero R] in
lemma splitPositions_eq (table : Table R) (offset : ℕ) :
    splitPositions table offset =
      (((List.range table.rowCount).map (RowId.mk 0)).drop offset).take desiredChunkSize := by
  apply List.ext_getElem
  · simp [splitPositions]
  · intro i h₁ h₂
    simp [splitPositions]

omit [Zero R] in
/-- The rows of a table with one chunk. -/
lemma rowIds_eq_of_chunkCount_eq_one (hone : table.chunkCount = 1) :
    table.rowIds = (List.range table.rowCount).map (RowId.mk 0) := by
  rw [table.rowIds_eq_flatMap_range, table.rowCount_eq_sum_range, hone]
  simp [Table.chunkRowIds]

omit [Zero R] in
lemma mem_rowIds_of_mem_splitPositions (hone : table.chunkCount = 1) {offset : ℕ} {id : RowId}
    (hid : id ∈ splitPositions table offset) : id ∈ table.rowIds := by
  rw [rowIds_eq_of_chunkCount_eq_one hone]
  rw [splitPositions_eq] at hid
  exact List.mem_of_mem_drop (List.mem_of_mem_take hid)

/-- A new chunk holds the stored values of its rows, without flags. -/
lemma splitChunk_eq_ok (ht : table.WellFormed) (hone : table.chunkCount = 1) (offset : ℕ) :
    ∃ c, splitChunk table offset = .ok c ∧ table.Gathers (splitPositions table offset) c ∧
      ∀ i < table.getColumnCount, (c.getSegment i).nullValues = none := by
  have hmem : ∀ id ∈ splitPositions table offset, id ∈ table.rowIds :=
    fun _ hid => mem_rowIds_of_mem_splitPositions hone hid
  have hlt : 0 < table.chunkCount := by omega
  have hsegment : ∀ i ∈ List.range table.getColumnCount,
      splitSegment ((table.getChunk 0).getSegment i) offset table.rowCount =
        .ok (.ofValues (table.columnDataType i)
          ((splitPositions table offset).map (table.storedAt i))) := by
    intro i hi
    have hcol := List.mem_range.mp hi
    have hget : ∀ k ∈ List.range' offset (min desiredChunkSize (table.rowCount - offset)),
        ((table.getChunk 0).getSegment i).get k = .ok (table.storedAt i ⟨0, k⟩) := by
      intro k hk
      have hoffset := ht.offset_lt_length (hmem ⟨0, k⟩ (List.mem_map_of_mem hk)) hcol
      simp only at hoffset
      rw [ValueSegment.get, List.getElem?_eq_getElem hoffset]
      simp [Table.storedAt, hoffset]
    have htype : ((table.getChunk 0).getSegment i).dataType = table.columnDataType i := by
      rw [(ht.getChunk hlt).dataType_getSegment hcol, Table.columnDataType, Table.columnDefinition,
        List.getD_eq_getElem?_getD, List.getElem?_eq_getElem hcol]
      rfl
    rw [splitSegment, mapM_eq_ok hget, htype, splitPositions, List.map_map]
    rfl
  refine ⟨_, by rw [splitChunk, mapM_eq_ok hsegment]; rfl,
    ⟨by simp, fun i hi => ?_, fun i hi => ?_, fun i hi => .inl ?_⟩, fun i hi => ?_⟩ <;>
    simp [Chunk.getSegment, hi, ValueSegment.ofValues]

/-- Whether a table is split: it has one chunk, with many rows. -/
def Splits (table : Table R) : Prop :=
  table.chunkCount = 1 ∧ table.rowCount > desiredChunkSize

/-- A table that is split has the stored values of all rows, in chunks without flags. -/
lemma splitInput_of_splits (ht : table.WellFormed) (hsplit : Splits table) :
    ∃ t, splitInput table = .ok t ∧ t.columnDefinitions = table.columnDefinitions ∧
      t.WellFormed ∧ t.rows = table.rowIds.map table.storedRow ∧
        ∀ c ∈ t.chunks, ∀ i < table.getColumnCount, (c.getSegment i).nullValues = none := by
  obtain ⟨hone, hmany⟩ := hsplit
  have hcol : 0 < table.getColumnCount := by
    have hpos : 0 < table.rowIds.length := by
      rw [table.length_rowIds]
      exact Nat.zero_lt_of_lt hmany
    exact ht.getColumnCount_pos (List.getElem_mem hpos)
  set n := (table.rowCount + desiredChunkSize - 1) / desiredChunkSize with hn
  -- the new chunks cover all rows
  have hcover : ((List.range n).flatMap fun i => splitPositions table (i * desiredChunkSize)) =
      table.rowIds := by
    simp only [splitPositions_eq]
    rw [List.flatMap_range_take_drop, rowIds_eq_of_chunkCount_eq_one hone,
      List.take_of_length_le]
    rw [List.length_map, List.length_range, hn, desiredChunkSize]
    omega
  obtain ⟨chunks, hchunks, hall⟩ := exists_mapM_eq_ok
    (f := fun i => splitChunk table (i * desiredChunkSize)) (List.range n)
    fun i _ => splitChunk_eq_ok ht hone (i * desiredChunkSize)
  have hmem : ∀ c ∈ chunks, ∃ i, table.Gathers (splitPositions table (i * desiredChunkSize)) c ∧
      ∀ k < table.getColumnCount, (c.getSegment k).nullValues = none :=
    hall.forall_mem_right fun i _ _ h => ⟨i, h⟩
  refine ⟨⟨table.columnDefinitions, chunks⟩, ?_, rfl, ⟨ht.dataTypes, fun c hc => ?_⟩, ?_,
    fun c hc => ?_⟩
  · rw [splitInput, if_pos ⟨hone, hmany⟩]
    dsimp only
    rw [← hn, hchunks]
    rfl
  · obtain ⟨i, hgathers, -⟩ := hmem c hc
    exact hgathers.wellFormed ht hcol fun _ hid => mem_rowIds_of_mem_splitPositions hone hid
  · rw [← hcover, List.map_flatMap, Table.rows]
    exact List.flatMap_eq_of_forall₂ (hall.imp fun i c h => h.1.rows_of_mem ht
      fun _ hid => mem_rowIds_of_mem_splitPositions hone hid)
  · obtain ⟨i, -, hnulls⟩ := hmem c hc
    exact hnulls

omit [Zero R] in
lemma splitInput_of_not_splits (hsplit : ¬ Splits table) : splitInput table = .ok table :=
  if_neg hsplit

/-- The split table has the rows of the input if and only if nothing is split or the input has no
NULLs. -/
lemma splitInput_eq_ok_iff (ht : table.WellFormed) :
    (∃ t, splitInput table = .ok t ∧ t.columnDefinitions = table.columnDefinitions ∧
        t.rows = table.rows) ↔
      (table.chunkCount = 1 → desiredChunkSize < table.rowCount → table.NonNull) := by
  by_cases hsplit : Splits table
  · obtain ⟨t, hok, hdefinitions, -, hrows, -⟩ := splitInput_of_splits ht hsplit
    have hiff : table.rowIds.map table.storedRow = table.rowIds.map table.rowAt ↔ table.NonNull :=
      ht.map_storedRow_eq_iff fun _ hid => hid
    constructor
    · rintro ⟨t', hok', -, ht'⟩ - -
      obtain rfl := Except.ok.inj (hok.symm.trans hok')
      rw [hrows, table.rows_eq_map_rowAt] at ht'
      exact hiff.mp ht'
    · intro hnn
      refine ⟨t, hok, hdefinitions, ?_⟩
      rw [hrows, table.rows_eq_map_rowAt]
      exact hiff.mpr (hnn hsplit.1 hsplit.2)
  · exact iff_of_true ⟨table, splitInput_of_not_splits hsplit, rfl, rfl⟩
      fun hone hmany => absurd ⟨hone, hmany⟩ hsplit

end ProjectionOperator

end Skyrise

/-
Partitioning.

`HashPartitioningFunction` assigns every row to the partition that its hash, taken
modulo the number of partitions, names; the hash is combined from the values of
the partition columns.  The positions of the rows are counted along the chunks
with the hashes.  `partitionOperator` returns a table with one chunk for every
partition, sorted by the partition columns if that is asked for.
-/
import Skyrise.Operator.Sort
import Mathlib.Algebra.Order.BigOperators.Group.List
import Mathlib.Data.List.Iterate

namespace Skyrise

variable {R : Type}

/-- The columns whose values are hashed, in ascending order, and the number of partitions. -/
structure HashPartitioningFunction where
  partitionColumnIds : List ℕ
  partitionCount : ℕ
deriving DecidableEq, Repr

namespace HashPartitioningFunction

section Partition

-- `boost::hash_combine`: the new hash from the old one and the next value
variable (hashCombine : ℕ → Value R → ℕ)

/-- The assertions on a partition column. -/
def checkColumn (table : Table R) (columnId : ℕ) : Except Exception Unit := do
  assert (decide (columnId < table.getColumnCount)) "Column to partition is out of range."
  assert (!table.columnIsNullable columnId) "Nullable columns are not supported."

/-- Combines the hashes of all rows with the values of a column. -/
def combineColumn (table : Table R) (hashes : List ℕ) (columnId : ℕ) : List ℕ :=
  List.zipWith hashCombine hashes <|
    (List.range table.chunkCount).flatMap fun i => ((table.getChunk i).getSegment columnId).values

/-- The hashes of all rows. -/
def hashes (f : HashPartitioningFunction) (table : Table R) : Except Exception (List ℕ) :=
  f.partitionColumnIds.foldlM (fun hashes columnId => do
    checkColumn table columnId
    return combineColumn hashCombine table hashes columnId) (List.replicate table.rowCount 0)

/-- The position after the given one.  The comparison is one of `size_t`, in which the last offset
of an empty chunk is the largest number there is. -/
def nextPosition (chunkSizes : List ℕ) (position : RowId) : RowId :=
  let chunkSize := chunkSizes.getD position.chunkId 0
  if position.chunkOffset = (if chunkSize = 0 then 2 ^ 64 - 1 else chunkSize - 1) then
    ⟨position.chunkId + 1, 0⟩
  else ⟨position.chunkId, position.chunkOffset + 1⟩

/-- Appends the current position to the list of its partition and moves on. -/
def assign (partitionCount : ℕ) (chunkSizes : List ℕ) (s : List (List RowId) × RowId) (hash : ℕ) :
    List (List RowId) × RowId :=
  (s.1.modify (hash % partitionCount) fun positions => positions ++ [s.2],
    nextPosition chunkSizes s.2)

/-- `HashPartitioningFunction::Partition`: for every partition the positions of its rows. -/
def partition (f : HashPartitioningFunction) (table : Table R) :
    Except Exception (List (List RowId)) := do
  let hashes ← f.hashes hashCombine table
  if f.partitionCount = 0 ∧ hashes ≠ [] then
    throw .divisionByZero
  let chunkSizes := (List.range table.chunkCount).map fun i => (table.getChunk i).size
  return (hashes.foldl (assign f.partitionCount chunkSizes)
    (List.replicate f.partitionCount [], ⟨0, 0⟩)).1

end Partition

end HashPartitioningFunction

namespace PartitionOperator

variable [Zero R]

/-- The chunk with the rows at the positions. -/
def materializePartition (table : Table R) (positions : List RowId) : Chunk R :=
  ⟨(List.range table.getColumnCount).map fun columnId =>
    .ofValues (table.columnDataType columnId) (positions.map (table.storedAt columnId))⟩

/-- The only chunk of a table, sorted by each partition column. -/
def sortPartition [LinearOrder R] (f : HashPartitioningFunction) (partitionTable : Table R) :
    Except Exception (Chunk R) := do
  let sorted ← f.partitionColumnIds.foldlM (fun previouslySorted columnId => do
    HashPartitioningFunction.checkColumn partitionTable columnId
    return SortOperator.sortByColumn partitionTable columnId .ascending previouslySorted) []
  let sortedTable ← SortOperator.materializeOutputTable partitionTable sorted true
  assert (sortedTable.chunkCount == 1)
    "The sorted partition table must still contain just one chunk."
  return sortedTable.getChunk 0

/-- The chunk of one partition.  The values at a position that is not one of a row are read beyond
the end of a vector. -/
def partitionChunk [LinearOrder R] (f : HashPartitioningFunction) (sortWithinPartition : Bool)
    (table : Table R) (positions : List RowId) : Except Exception (Chunk R) := do
  if positions.any fun id => id ∉ table.rowIds then
    throw .undefinedBehavior
  let chunk := materializePartition table positions
  if sortWithinPartition then sortPartition f ⟨table.columnDefinitions, [chunk]⟩ else return chunk

/-- `PartitionOperator`. -/
def partitionOperator [LinearOrder R] (hashCombine : ℕ → Value R → ℕ)
    (f : HashPartitioningFunction) (sortWithinPartition : Bool) (table : Table R) :
    Except Exception (Table R) := do
  let positionLists ← f.partition hashCombine table
  let chunks ← positionLists.mapM (partitionChunk f sortWithinPartition table)
  return ⟨table.columnDefinitions, chunks⟩

end PartitionOperator

/-! ### The positions along the chunks -/

namespace HashPartitioningFunction

variable {table : Table R}

/-- A table none of whose chunks is empty. -/
def NoEmptyChunks (table : Table R) : Prop :=
  ∀ i < table.chunkCount, (table.getChunk i).size ≠ 0

lemma noEmptyChunks_ofInts {name : String} {chunks : List (List Int32)} (h : [] ∉ chunks) :
    NoEmptyChunks (Table.ofInts name chunks : Table R) := by
  intro i hi hzero
  have hi' : i < chunks.length := by simpa [Table.chunkCount, Table.ofInts] using hi
  have hnil : chunks[i] = [] := by
    simpa [Table.ofInts, Table.getChunk, Chunk.size, hi'] using hzero
  exact h (hnil ▸ List.getElem_mem hi')

/-- Inside of a chunk the position advances by one offset. -/
lemma iterate_nextPosition_of_lt {chunkSizes : List ℕ} {i size : ℕ}
    (hsize : chunkSizes.getD i 0 = size) {k : ℕ} (hk : k < size) :
    (nextPosition chunkSizes)^[k] ⟨i, 0⟩ = ⟨i, k⟩ := by
  induction k with
  | zero => rfl
  | succ k ih =>
    rw [Function.iterate_succ_apply', ih (Nat.lt_of_succ_lt hk), nextPosition, hsize]
    have hne : size ≠ 0 := by omega
    simp only [hne, if_false]
    rw [if_neg (by omega)]

lemma iterate_nextPosition_chunk {chunkSizes : List ℕ} {i size : ℕ}
    (hsize : chunkSizes.getD i 0 = size) (hne : size ≠ 0) :
    (nextPosition chunkSizes)^[size] ⟨i, 0⟩ = ⟨i + 1, 0⟩ := by
  obtain ⟨k, rfl⟩ := Nat.exists_eq_succ_of_ne_zero hne
  rw [Function.iterate_succ_apply', iterate_nextPosition_of_lt hsize (Nat.lt_succ_self k),
    nextPosition, hsize]
  simp

/-- The positions that are counted along chunks that are not empty. -/
lemma iterate_nextPosition_chunks {sizes : List ℕ}
    (hget : ∀ i < table.chunkCount, sizes.getD i 0 = (table.getChunk i).size) {n : ℕ}
    (hn : n ≤ table.chunkCount) (hne : ∀ i < n, (table.getChunk i).size ≠ 0) :
    List.iterate (nextPosition sizes) ⟨0, 0⟩
        ((List.range n).map fun i => (table.getChunk i).size).sum =
      (List.range n).flatMap table.chunkRowIds ∧
    (nextPosition sizes)^[((List.range n).map fun i => (table.getChunk i).size).sum] ⟨0, 0⟩ =
      ⟨n, 0⟩ := by
  induction n with
  | zero => exact ⟨rfl, rfl⟩
  | succ n ih =>
    obtain ⟨hlist, hpos⟩ := ih (Nat.le_of_succ_le hn) fun i hi => hne i (Nat.lt_succ_of_lt hi)
    have hchunk : List.iterate (nextPosition sizes) ⟨n, 0⟩ (table.getChunk n).size =
        table.chunkRowIds n := by
      apply List.ext_getElem
      · simp [Table.chunkRowIds]
      · intro k h₁ h₂
        have hk : k < (table.getChunk n).size := by simpa using h₁
        simp [Table.chunkRowIds, iterate_nextPosition_of_lt (hget n hn) hk]
    rw [List.range_succ, List.map_append, List.sum_append, List.flatMap_append]
    simp only [List.map_cons, List.map_nil, List.sum_cons, List.sum_nil, Nat.add_zero,
      List.flatMap_cons, List.flatMap_nil, List.append_nil]
    refine ⟨?_, ?_⟩
    · rw [List.iterate_add, hlist, hpos, hchunk]
    · rw [Nat.add_comm, Function.iterate_add_apply, hpos]
      exact iterate_nextPosition_chunk (hget n hn) (hne n (Nat.lt_succ_self n))

/-- A table in which no chunk with rows comes after an empty chunk. -/
def EmptyChunksLast (table : Table R) : Prop :=
  ∀ i j, i < j → j < table.chunkCount → (table.getChunk i).size = 0 → (table.getChunk j).size = 0

lemma NoEmptyChunks.emptyChunksLast (h : NoEmptyChunks table) : EmptyChunksLast table :=
  fun i _ hij hj hzero => absurd hzero (h i (hij.trans hj))

/-- The chunks in front of the first empty one. -/
lemma exists_nonempty_prefix (table : Table R) : ∃ n ≤ table.chunkCount,
    (∀ i < n, (table.getChunk i).size ≠ 0) ∧
      (n < table.chunkCount → (table.getChunk n).size = 0) := by
  by_cases h : ∃ i, i < table.chunkCount ∧ (table.getChunk i).size = 0
  · obtain ⟨hlt, hzero⟩ := Nat.find_spec h
    refine ⟨Nat.find h, hlt.le, fun i hi hsize => ?_, fun _ => hzero⟩
    exact Nat.find_min h hi ⟨hi.trans hlt, hsize⟩
  · refine ⟨table.chunkCount, le_refl _, fun i hi hsize => h ⟨i, hi, hsize⟩, fun hlt => ?_⟩
    exact absurd hlt (lt_irrefl _)

/-- If the empty chunks are last, the positions that are counted are those of the rows. -/
lemma iterate_nextPosition (hlast : EmptyChunksLast table) :
    List.iterate (nextPosition ((List.range table.chunkCount).map fun i => (table.getChunk i).size))
      ⟨0, 0⟩ table.rowCount = table.rowIds := by
  set sizes := (List.range table.chunkCount).map fun i => (table.getChunk i).size with hsizes
  have hget : ∀ i < table.chunkCount, sizes.getD i 0 = (table.getChunk i).size := by
    intro i hi
    simp [hsizes, hi]
  obtain ⟨n, hn, hne, hzero⟩ := exists_nonempty_prefix table
  obtain ⟨k, hk⟩ := Nat.exists_eq_add_of_le hn
  -- the chunks from the first empty one on have no rows
  have hrest : ∀ i < k, (table.getChunk (n + i)).size = 0 := by
    intro i hi
    rcases Nat.eq_zero_or_pos i with rfl | hpos
    · exact hzero (by omega)
    · exact hlast n (n + i) (by omega) (by omega) (hzero (by omega))
  have hsum : ((List.range k).map fun i => (table.getChunk (n + i)).size).sum = 0 :=
    List.sum_eq_zero fun x hx => by
      obtain ⟨i, hi, rfl⟩ := List.mem_map.mp hx
      exact hrest i (List.mem_range.mp hi)
  have hnil : (List.range k).flatMap (fun i => table.chunkRowIds (n + i)) = [] :=
    List.flatMap_eq_nil_iff.mpr fun i hi => by
      rw [Table.chunkRowIds, hrest i (List.mem_range.mp hi)]
      rfl
  rw [table.rowCount_eq_sum_range, table.rowIds_eq_flatMap_range, hk, List.range_add,
    List.map_append, List.sum_append, List.flatMap_append, List.map_map, List.flatMap_map]
  simp only [Function.comp_def]
  rw [hsum, hnil, Nat.add_zero, List.append_nil]
  exact (iterate_nextPosition_chunks hget hn hne).1

/-- If a chunk with rows comes after an empty chunk, a position is counted at which there is no
row. -/
lemma exists_position_not_mem_rowIds (hlast : ¬ EmptyChunksLast table) :
    ∃ id ∉ table.rowIds, id ∈ List.iterate
      (nextPosition ((List.range table.chunkCount).map fun i => (table.getChunk i).size))
        ⟨0, 0⟩ table.rowCount := by
  set sizes := (List.range table.chunkCount).map fun i => (table.getChunk i).size with hsizes
  have hget : ∀ i < table.chunkCount, sizes.getD i 0 = (table.getChunk i).size := by
    intro i hi
    simp [hsizes, hi]
  obtain ⟨n, hn, hne, hzero⟩ := exists_nonempty_prefix table
  obtain ⟨i, j, hij, hj, hi, hsize⟩ : ∃ i j, i < j ∧ j < table.chunkCount ∧
      (table.getChunk i).size = 0 ∧ (table.getChunk j).size ≠ 0 := by
    simpa [EmptyChunksLast] using hlast
  have hni : n ≤ i := by
    by_contra hlt
    exact hne i (not_le.mp hlt) hi
  -- the position of the first row after the chunks that are not empty
  have hpos := (iterate_nextPosition_chunks hget hn hne).2
  have hlt : ((List.range n).map fun i => (table.getChunk i).size).sum < table.rowCount := by
    rw [table.rowCount_eq_sum_range]
    have hmem : j ∈ (List.range (table.chunkCount - n)).map (n + ·) :=
      List.mem_map.mpr ⟨j - n, List.mem_range.mpr (by omega), by omega⟩
    have hsplit : List.range table.chunkCount =
        List.range n ++ (List.range (table.chunkCount - n)).map (n + ·) := by
      rw [← List.range_add]
      congr 1
      omega
    have hle : (table.getChunk j).size ≤
        (((List.range (table.chunkCount - n)).map (n + ·)).map fun i =>
          (table.getChunk i).size).sum :=
      List.single_le_sum (fun _ _ => Nat.zero_le _) _ (List.mem_map_of_mem hmem)
    rw [hsplit, List.map_append, List.sum_append]
    omega
  refine ⟨⟨n, 0⟩, ?_, ?_⟩
  · rw [Table.mem_rowIds]
    rintro ⟨hchunk, hoffset⟩
    exact absurd (hzero hchunk ▸ hoffset) (lt_irrefl _)
  · rw [← hpos]
    refine List.mem_iff_getElem.mpr ⟨_, by simpa using hlt, ?_⟩
    simp

/-- Every hash appends the position that belongs to it to the list of its partition. -/
lemma getElem?_foldl_assign (p : ℕ) (sizes : List ℕ) (hashes : List ℕ)
    (s : List (List RowId) × RowId) (i : ℕ) :
    (hashes.foldl (assign p sizes) s).1[i]? = s.1[i]?.map fun positions => positions ++
      ((hashes.zip (List.iterate (nextPosition sizes) s.2 hashes.length)).filter
        fun hp => hp.1 % p = i).map Prod.snd := by
  induction hashes generalizing s with
  | nil => simp
  | cons hash hashes ih =>
    rw [List.foldl_cons, ih, assign, List.length_cons, List.iterate, List.zip_cons_cons,
      List.getElem?_modify]
    by_cases hi : hash % p = i
    · simp [hi, Function.comp_def]
    · simp [hi]

variable [Zero R] {hashCombine : ℕ → Value R → ℕ} {columnId p : ℕ} {f : HashPartitioningFunction}

/-- The partition of a row, for one partition column. -/
def partitionOf (hashCombine : ℕ → Value R → ℕ) (p : ℕ) (table : Table R) (columnId : ℕ)
    (id : RowId) : ℕ :=
  hashCombine 0 (table.storedAt columnId id) % p

/-- The rows of a partition. -/
def partitionRowIds (hashCombine : ℕ → Value R → ℕ) (p : ℕ) (table : Table R) (columnId i : ℕ) :
    List RowId :=
  table.rowIds.filter fun id => partitionOf hashCombine p table columnId id = i

/-- The hash of a row. -/
def rowHash (hashCombine : ℕ → Value R → ℕ) (f : HashPartitioningFunction) (table : Table R)
    (id : RowId) : ℕ :=
  f.partitionColumnIds.foldl (fun hash columnId => hashCombine hash (table.storedAt columnId id)) 0

/-- The rows of a partition, for any number of partition columns. -/
def rowIdsOf (hashCombine : ℕ → Value R → ℕ) (f : HashPartitioningFunction) (table : Table R)
    (i : ℕ) : List RowId :=
  table.rowIds.filter fun id => rowHash hashCombine f table id % f.partitionCount = i

/-- The partition columns are columns of the table that are not nullable. -/
def Accepts (f : HashPartitioningFunction) (table : Table R) : Prop :=
  ∀ columnId ∈ f.partitionColumnIds,
    columnId < table.getColumnCount ∧ table.columnIsNullable columnId = false

omit [Zero R] in
lemma accepts_singleton (hcol : columnId < table.getColumnCount)
    (hnull : table.columnIsNullable columnId = false) : Accepts ⟨[columnId], p⟩ table := by
  intro c hc
  obtain rfl := List.mem_singleton.mp hc
  exact ⟨hcol, hnull⟩

omit [Zero R] in
lemma Accepts.checkColumn_eq_ok (h : f.Accepts table) (hmem : columnId ∈ f.partitionColumnIds) :
    checkColumn table columnId = .ok () := by
  obtain ⟨hcol, hnull⟩ := h columnId hmem
  rw [checkColumn, decide_eq_true hcol, hnull]
  rfl

/-- The hashes are combined with the values of a column row by row. -/
lemma combineColumn_map (ht : table.WellFormed) (hcol : columnId < table.getColumnCount)
    (hash : RowId → ℕ) : combineColumn hashCombine table (table.rowIds.map hash) columnId =
      table.rowIds.map fun id => hashCombine (hash id) (table.storedAt columnId id) := by
  have hvalues : ((List.range table.chunkCount).flatMap fun i =>
      ((table.getChunk i).getSegment columnId).values) =
        table.rowIds.map (table.storedAt columnId) := by
    rw [table.rowIds_eq_flatMap_range, List.map_flatMap]
    refine List.flatMap_congr fun i hi => ?_
    rw [ht.values_eq_map_storedAt (List.mem_range.mp hi) hcol, Table.chunkRowIds, List.map_map]
    rfl
  rw [combineColumn, hvalues, List.zipWith_map, List.zipWith_self]

/-- The hashes of the rows. -/
lemma hashes_eq_ok (ht : table.WellFormed) (hf : f.Accepts table) :
    hashes hashCombine f table = .ok (table.rowIds.map (rowHash hashCombine f table)) := by
  have hloop : ∀ (columnIds : List ℕ) (hash : RowId → ℕ), columnIds ⊆ f.partitionColumnIds →
      columnIds.foldlM (fun hashes columnId => do
        checkColumn table columnId
        return combineColumn hashCombine table hashes columnId) (table.rowIds.map hash) =
      Except.ok (table.rowIds.map fun id => columnIds.foldl (fun hash columnId =>
        hashCombine hash (table.storedAt columnId id)) (hash id)) := by
    intro columnIds
    induction columnIds with
    | nil => exact fun _ _ => rfl
    | cons columnId columnIds ih =>
      intro hash hsub
      have hmem := hsub List.mem_cons_self
      rw [List.foldlM_cons, hf.checkColumn_eq_ok hmem]
      simp only [bind, Except.bind, pure, Except.pure, combineColumn_map ht (hf _ hmem).1]
      exact ih _ fun c hc => hsub (List.mem_cons_of_mem _ hc)
  have hzero : List.replicate table.rowCount 0 = table.rowIds.map fun _ => 0 := by
    rw [List.map_const', Table.length_rowIds]
  rw [hashes, hzero]
  exact hloop f.partitionColumnIds (fun _ => 0) (List.Subset.refl _)

/-- Every partition lists the counted positions whose rows hash to it. -/
lemma partition_eq_ok (ht : table.WellFormed) (hf : f.Accepts table)
    (hp : 0 < f.partitionCount) :
    partition hashCombine f table = .ok ((List.range f.partitionCount).map fun i =>
      (((table.rowIds.map (rowHash hashCombine f table)).zip (List.iterate (nextPosition
        ((List.range table.chunkCount).map fun i => (table.getChunk i).size)) ⟨0, 0⟩
          table.rowCount)).filter fun hp => hp.1 % f.partitionCount = i).map Prod.snd) := by
  set sizes := (List.range table.chunkCount).map fun i => (table.getChunk i).size with hsizes
  simp only [partition, hashes_eq_ok ht hf, bind, Except.bind, pure, Except.pure, hp.ne',
    false_and, if_false, ← hsizes]
  congr 1
  apply List.ext_getElem?
  intro i
  rw [getElem?_foldl_assign, List.length_map, Table.length_rowIds]
  by_cases hi : i < f.partitionCount <;> simp [hi]

/-- If the empty chunks are last, every partition lists the rows that hash to it. -/
lemma partition_eq_ok_of_emptyChunksLast (ht : table.WellFormed) (hf : f.Accepts table)
    (hp : 0 < f.partitionCount) (hlast : EmptyChunksLast table) :
    partition hashCombine f table =
      .ok ((List.range f.partitionCount).map (rowIdsOf hashCombine f table)) := by
  rw [partition_eq_ok ht hf hp]
  refine congrArg Except.ok (List.map_congr_left fun i _ => ?_)
  rw [iterate_nextPosition hlast, rowIdsOf]
  have hzip : (table.rowIds.map (rowHash hashCombine f table)).zip table.rowIds =
      table.rowIds.map fun id => (rowHash hashCombine f table id, id) := by
    apply List.ext_getElem <;> simp
  rw [hzip, List.filter_map, List.map_map]
  exact List.map_id _

/-- If a chunk with rows comes after an empty chunk, a partition lists a position at which there is
no row. -/
lemma exists_partition_not_mem_rowIds (hashCombine : ℕ → Value R → ℕ) (ht : table.WellFormed)
    (hf : f.Accepts table)
    (hp : 0 < f.partitionCount) (hlast : ¬ EmptyChunksLast table) :
    ∃ lists, partition hashCombine f table = .ok lists ∧
      ∃ positions ∈ lists, ∃ id ∈ positions, id ∉ table.rowIds := by
  refine ⟨_, partition_eq_ok ht hf hp, ?_⟩
  set hs := table.rowIds.map (rowHash hashCombine f table) with hhs
  obtain ⟨id, hid, hmem⟩ := exists_position_not_mem_rowIds hlast
  obtain ⟨k, hk, hget⟩ := List.mem_iff_getElem.mp hmem
  have hlen : k < hs.length := by simpa [hhs, Table.length_rowIds] using hk
  refine ⟨_, List.mem_map.mpr ⟨hs[k] % f.partitionCount, List.mem_range.mpr (Nat.mod_lt _ hp), rfl⟩,
    id, ?_, hid⟩
  refine List.mem_map.mpr ⟨(hs[k], id), List.mem_filter.mpr ⟨?_, by simp⟩, rfl⟩
  refine List.mem_iff_getElem.mpr ⟨k, by simpa using ⟨by simpa using hlen, by simpa using hk⟩, ?_⟩
  rw [List.getElem_zip, hget]

/-- A hash that adds up integers. -/
def addInt (seed : ℕ) : Value ℚ → ℕ
  | .int v => seed + v.toInt.toNat
  | _ => seed

end HashPartitioningFunction

/-! ### The chunks of the partitions -/

namespace PartitionOperator

open HashPartitioningFunction

variable [Zero R] {table : Table R} {positions : List RowId} {columnId p : ℕ}

/-- A chunk that can stand for a table of its own and has the given rows, in any order. -/
structure Holds (table : Table R) (ids : List RowId) (c : Chunk R) : Prop where
  wellFormed : (⟨table.columnDefinitions, [c]⟩ : Table R).WellFormed
  nonNull : (⟨table.columnDefinitions, [c]⟩ : Table R).NonNull
  rows : c.rows.Perm (ids.map table.storedRow)

lemma gathers_materializePartition (table : Table R) (positions : List RowId) :
    table.Gathers positions (materializePartition table positions) := by
  refine ⟨by simp [materializePartition], fun i hi => ?_, fun i hi => ?_, fun i hi => Or.inl ?_⟩ <;>
    simp [materializePartition, Chunk.getSegment, hi, ValueSegment.ofValues]

lemma holds_of_gathers {c : Chunk R} (ht : table.WellFormed) (hcol : 0 < table.getColumnCount)
    (hpos : ∀ id ∈ positions, id ∈ table.rowIds) (h : table.Gathers positions c) :
    Holds table positions c :=
  ⟨h.wellFormed_table ht hcol hpos, h.nonNull_table, List.Perm.of_eq (h.rows hcol)⟩

lemma holds_materializePartition (ht : table.WellFormed) (hpos : ∀ id ∈ positions, id ∈ table.rowIds) :
    Holds table positions (materializePartition table positions) := by
  rcases Nat.eq_zero_or_pos table.getColumnCount with hzero | hcol
  · -- a table without columns has no rows
    have hnil : positions = [] := by
      refine List.eq_nil_iff_forall_not_mem.mpr fun id hid => ?_
      exact absurd hzero (ht.getColumnCount_pos (hpos id hid)).ne'
    have hdefinitions : table.columnDefinitions = [] := List.length_eq_zero_iff.mp hzero
    subst hnil
    have hchunk : materializePartition table [] = ⟨[]⟩ := by
      rw [materializePartition, hzero]
      rfl
    rw [hchunk]
    refine ⟨⟨ht.dataTypes, ?_⟩, ?_, List.Perm.refl _⟩
    · intro c hc
      obtain rfl := List.mem_singleton.mp hc
      rw [hdefinitions]
      exact ⟨rfl, by simp, by simp, by simp⟩
    · intro id _ i hi
      exact absurd (hzero ▸ hi : i < 0) (Nat.not_lt_zero _)
  · exact holds_of_gathers ht hcol hpos (gathers_materializePartition _ _)

lemma Holds.size {c : Chunk R} {ids : List RowId} (h : Holds table ids c) : c.size = ids.length := by
  rw [← Chunk.length_rows, h.rows.length_eq, List.length_map]

variable [LinearOrder R] {f : HashPartitioningFunction}

/-- Sorting a partition with rows keeps its rows. -/
lemma sortPartition_eq_ok (hf : f.Accepts table) (hcolumns : f.partitionColumnIds ≠ []) {c : Chunk R}
    {ids : List RowId} (h : Holds table ids c) (hne : ids ≠ []) :
    ∃ c', sortPartition f ⟨table.columnDefinitions, [c]⟩ = .ok c' ∧ Holds table ids c' := by
  set t : Table R := ⟨table.columnDefinitions, [c]⟩ with ht
  have hft : f.Accepts t := hf
  have hsize : t.rowCount = ids.length := by
    rw [← h.size]
    simp [ht, Table.rowCount]
  have hcount : t.rowCount ≠ 0 := by
    rw [hsize]
    exact fun hzero => hne (List.length_eq_zero_iff.mp hzero)
  -- every sort permutes the rows, the first one starts from all of them
  have hloop : ∀ (columnIds : List ℕ) (sorted : List RowId), columnIds ⊆ f.partitionColumnIds →
      (sorted = [] ∧ columnIds ≠ [] ∨ sorted.Perm t.rowIds) → ∃ sorted', columnIds.foldlM
        (fun previouslySorted columnId => do
          checkColumn t columnId
          return SortOperator.sortByColumn t columnId .ascending previouslySorted) sorted =
        Except.ok sorted' ∧ sorted'.Perm t.rowIds := by
    intro columnIds
    induction columnIds with
    | nil =>
      rintro sorted - (⟨-, hnil⟩ | hperm)
      · exact absurd rfl hnil
      · exact ⟨sorted, rfl, hperm⟩
    | cons columnId columnIds ih =>
      intro sorted hsub hsorted
      have hmem := hsub List.mem_cons_self
      have hperm : (SortOperator.sortByColumn t columnId .ascending sorted).Perm t.rowIds := by
        refine (SortOperator.sortByColumn_perm t columnId .ascending sorted).trans ?_
        rw [SortOperator.positionsToSort]
        rcases hsorted with ⟨rfl, -⟩ | hperm
        · exact List.Perm.refl _
        · split
          · exact List.Perm.refl _
          · exact hperm
      rw [List.foldlM_cons, hft.checkColumn_eq_ok hmem]
      exact ih _ (fun c hc => hsub (List.mem_cons_of_mem _ hc)) (.inr hperm)
  obtain ⟨sorted, hsorted, hperm⟩ :=
    hloop f.partitionColumnIds [] (List.Subset.refl _) (.inl ⟨rfl, hcolumns⟩)
  obtain ⟨c', hc', hgathers⟩ :=
    SortOperator.materializeOutputTable_eq_ok h.wellFormed h.nonNull hperm hcount
  rw [← ht] at hc'
  obtain ⟨columnId, hcolumn⟩ := List.exists_mem_of_ne_nil _ hcolumns
  have hpos : 0 < t.getColumnCount := Nat.zero_lt_of_lt (hf columnId hcolumn).1
  have hmem : ∀ id ∈ sorted, id ∈ t.rowIds := fun id hid => hperm.mem_iff.mp hid
  refine ⟨c', ?_, hgathers.wellFormed_table h.wellFormed hpos hmem, hgathers.nonNull_table, ?_⟩
  · rw [sortPartition, hsorted]
    simp only [bind, Except.bind, pure, Except.pure, hc']
    rfl
  · rw [hgathers.rows hpos]
    have hrows : t.rows = c.rows := Table.rows_singleton _ _
    refine ((hperm.map _).trans (List.Perm.of_eq ?_)).trans h.rows
    rw [← hrows, h.wellFormed.rows_eq_map_storedRow h.nonNull]

omit [Zero R] in
/-- The sort of a partition fails if there are no rows or no columns to sort by. -/
lemma sortPartition_ne_ok (hf : f.Accepts table) {c : Chunk R}
    (h : f.partitionColumnIds = [] ∨ c.size = 0) (c' : Chunk R) :
    sortPartition f ⟨table.columnDefinitions, [c]⟩ ≠ .ok c' := by
  set t : Table R := ⟨table.columnDefinitions, [c]⟩ with ht
  have hft : f.Accepts t := hf
  have hcount : t.rowCount = c.size := by simp [ht, Table.rowCount]
  -- in both cases no rows are listed
  have hsorted : f.partitionColumnIds.foldlM (fun previouslySorted columnId => do
      checkColumn t columnId
      return SortOperator.sortByColumn t columnId .ascending previouslySorted) [] =
        Except.ok ([] : List RowId) := by
    rcases h with hnil | hzero
    · rw [hnil]
      rfl
    · have hrowIds : t.rowIds = [] :=
        List.length_eq_zero_iff.mp (t.length_rowIds.trans (hcount.trans hzero))
      have hone : ∀ columnId,
          SortOperator.sortByColumn t columnId .ascending [] = [] := by
        intro columnId
        have hperm := SortOperator.sortByColumn_perm t columnId .ascending []
        rw [SortOperator.positionsToSort, List.isEmpty_nil, if_pos rfl, hrowIds] at hperm
        exact hperm.eq_nil
      have hloop : ∀ columnIds : List ℕ, columnIds ⊆ f.partitionColumnIds →
          columnIds.foldlM (fun previouslySorted columnId => do
            checkColumn t columnId
            return SortOperator.sortByColumn t columnId .ascending previouslySorted) [] =
              Except.ok ([] : List RowId) := by
        intro columnIds
        induction columnIds with
        | nil => exact fun _ => rfl
        | cons columnId columnIds ih =>
          intro hsub
          rw [List.foldlM_cons, hft.checkColumn_eq_ok (hsub List.mem_cons_self)]
          simp only [bind, Except.bind, pure, Except.pure, hone]
          exact ih fun c hc => hsub (List.mem_cons_of_mem _ hc)
      exact hloop _ (List.Subset.refl _)
  rw [sortPartition, hsorted]
  rcases Nat.eq_zero_or_pos t.rowCount with hzero | hpos
  · simp only [bind, Except.bind, SortOperator.materializeOutputTable_eq_error hzero]
    exact fun h => by cases h
  · have hlen : (([] : List RowId).length == t.rowCount) = false := by
      simpa using hpos.ne
    simp only [bind, Except.bind, SortOperator.materializeOutputTable, hlen, assert_false]
    exact fun h => by cases h

variable (hashCombine : ℕ → Value R → ℕ) (sortWithinPartition : Bool)

/-- What has to hold of a table for its partitions to have its rows: no chunk with rows comes after
an empty chunk, and where partitions are sorted there are columns to sort by, and no empty
partitions. -/
structure Partitionable (f : HashPartitioningFunction) (table : Table R) : Prop where
  emptyChunksLast : EmptyChunksLast table
  sorted : sortWithinPartition = true → f.partitionColumnIds ≠ [] ∧
    ∀ i < f.partitionCount, rowIdsOf hashCombine f table i ≠ []

variable {hashCombine sortWithinPartition}

lemma partitionChunk_eq_of_subset (hpos : ∀ id ∈ positions, id ∈ table.rowIds) :
    partitionChunk f sortWithinPartition table positions =
      if sortWithinPartition then
        sortPartition f ⟨table.columnDefinitions, [materializePartition table positions]⟩
      else .ok (materializePartition table positions) := by
  have hany : (positions.any fun id => id ∉ table.rowIds) = false := by
    simpa using hpos
  rw [partitionChunk, hany]
  rfl

/-- The chunks of the partitions. -/
lemma partitionOperator_eq_ok (ht : table.WellFormed) (hf : f.Accepts table)
    (hp : 0 < f.partitionCount)
    (h : Partitionable hashCombine sortWithinPartition f table) :
    ∃ t, partitionOperator hashCombine f sortWithinPartition table = .ok t ∧
      t.columnDefinitions = table.columnDefinitions ∧ t.chunkCount = f.partitionCount ∧
      ∀ i < f.partitionCount, Holds table (rowIdsOf hashCombine f table i) (t.getChunk i) := by
  have hmem : ∀ i, ∀ id ∈ rowIdsOf hashCombine f table i, id ∈ table.rowIds :=
    fun i id hid => List.mem_of_mem_filter hid
  obtain ⟨chunks, hchunks, hall⟩ := exists_mapM_eq_ok
    (f := fun i => partitionChunk f sortWithinPartition table (rowIdsOf hashCombine f table i))
    (P := fun i c => Holds table (rowIdsOf hashCombine f table i) c)
    (List.range f.partitionCount) fun i hi => by
      have hholds := holds_materializePartition ht (hmem i)
      rw [partitionChunk_eq_of_subset (hmem i)]
      cases hflag : sortWithinPartition with
      | false => exact ⟨_, rfl, hholds⟩
      | true =>
        obtain ⟨hcolumns, hne⟩ := h.sorted hflag
        exact sortPartition_eq_ok hf hcolumns hholds (hne i (List.mem_range.mp hi))
  have hlen : chunks.length = f.partitionCount := by simpa using hall.length_eq.symm
  have hmap : ((List.range f.partitionCount).map (rowIdsOf hashCombine f table)).mapM
      (partitionChunk f sortWithinPartition table) = .ok chunks :=
    mapM_eq_ok_iff.mpr (List.forall₂_map_left_iff.mpr (mapM_eq_ok_iff.mp hchunks))
  refine ⟨⟨table.columnDefinitions, chunks⟩, ?_, rfl, hlen, fun i hi => ?_⟩
  · simp only [partitionOperator, partition_eq_ok_of_emptyChunksLast ht hf hp h.emptyChunksLast,
      bind, Except.bind, hmap]
    rfl
  · have hget := (List.forall₂_iff_get.mp hall).2 i (by simpa using hi) (hlen ▸ hi)
    simpa [Table.getChunk, hlen, hi] using hget

/-- The operator succeeds only if its result has the rows of the table. -/
lemma partitionable_of_eq_ok (ht : table.WellFormed) (hf : f.Accepts table)
    (hp : 0 < f.partitionCount) {t : Table R}
    (h : partitionOperator hashCombine f sortWithinPartition table = .ok t) :
    Partitionable hashCombine sortWithinPartition f table := by
  have hchunks : ∀ lists, partition hashCombine f table = .ok lists → ∀ positions ∈ lists,
      ∃ c, partitionChunk f sortWithinPartition table positions = .ok c := by
    intro lists hlists positions hmem
    simp only [partitionOperator, hlists, bind, Except.bind] at h
    split at h
    · cases h
    · next chunks hchunks =>
      obtain ⟨hlen, hget⟩ := List.forall₂_iff_get.mp (mapM_eq_ok_iff.mp hchunks)
      obtain ⟨k, hk, rfl⟩ := List.getElem_of_mem hmem
      exact ⟨chunks[k], hget k hk (hlen ▸ hk)⟩
  have hlast : EmptyChunksLast table := by
    by_contra hlast
    obtain ⟨lists, hlists, positions, hmem, id, hid, hnot⟩ :=
      exists_partition_not_mem_rowIds hashCombine ht hf hp hlast
    obtain ⟨c, hc⟩ := hchunks lists hlists positions hmem
    have hany : (positions.any fun id => id ∉ table.rowIds) = true :=
      List.any_eq_true.mpr ⟨id, hid, by simpa using hnot⟩
    rw [partitionChunk, hany] at hc
    cases hc
  refine ⟨hlast, ?_⟩
  rintro rfl
  have hmem : ∀ i, ∀ id ∈ rowIdsOf hashCombine f table i, id ∈ table.rowIds :=
    fun i id hid => List.mem_of_mem_filter hid
  have hsort : ∀ i < f.partitionCount, ∃ c, sortPartition f ⟨table.columnDefinitions,
      [materializePartition table (rowIdsOf hashCombine f table i)]⟩ = .ok c := by
    intro i hi
    obtain ⟨c, hc⟩ := hchunks _ (partition_eq_ok_of_emptyChunksLast ht hf hp hlast) _
      (List.mem_map_of_mem (List.mem_range.mpr hi))
    rw [partitionChunk_eq_of_subset (hmem i)] at hc
    exact ⟨c, hc⟩
  refine ⟨fun hnil => ?_, fun i hi hnil => ?_⟩
  · obtain ⟨c, hc⟩ := hsort 0 hp
    exact sortPartition_ne_ok hf (.inl hnil) c hc
  · obtain ⟨c, hc⟩ := hsort i hi
    have hholds := holds_materializePartition ht (hmem i)
    refine sortPartition_ne_ok hf (.inr ?_) c hc
    rw [hholds.size, hnil]
    rfl

/-- The operator returns the rows of the partitions, chunk by chunk, if and only if the table is
partitionable and has no NULLs. -/
lemma partitionOperator_eq_ok_iff (ht : table.WellFormed) (hf : f.Accepts table)
    (hp : 0 < f.partitionCount) :
    (∃ t, partitionOperator hashCombine f sortWithinPartition table = .ok t ∧
        t.columnDefinitions = table.columnDefinitions ∧ t.chunkCount = f.partitionCount ∧
        ∀ i < f.partitionCount, (t.getChunk i).rows.Perm
          ((rowIdsOf hashCombine f table i).map table.rowAt)) ↔
      Partitionable hashCombine sortWithinPartition f table ∧ table.NonNull := by
  have hmem : ∀ i, ∀ id ∈ rowIdsOf hashCombine f table i, id ∈ table.rowIds :=
    fun i id hid => List.mem_of_mem_filter hid
  constructor
  · rintro ⟨t, hrun, -, -, hrows⟩
    have hpartitionable := partitionable_of_eq_ok ht hf hp hrun
    refine ⟨hpartitionable, fun id hid => ?_⟩
    obtain ⟨t', hrun', -, -, hholds⟩ := partitionOperator_eq_ok ht hf hp hpartitionable
    obtain rfl : t = t' := Except.ok.inj (hrun.symm.trans hrun')
    -- the chunk of the partition of the row holds the stored values
    set i := rowHash hashCombine f table id % f.partitionCount with hi
    have hlt : i < f.partitionCount := Nat.mod_lt _ hp
    have hperm := (hholds i hlt).rows.symm.trans (hrows i hlt)
    refine (ht.map_storedRow_perm_iff (hmem i)).mp hperm id ?_
    exact List.mem_filter.mpr ⟨hid, by simp [hi]⟩
  · rintro ⟨hpartitionable, hnn⟩
    obtain ⟨t, hrun, hdefinitions, hcount, hholds⟩ :=
      partitionOperator_eq_ok ht hf hp hpartitionable
    refine ⟨t, hrun, hdefinitions, hcount, fun i hi => (hholds i hi).rows.trans ?_⟩
    exact (ht.map_storedRow_perm_iff (hmem i)).mpr fun id hid => hnn id (hmem i id hid)

end PartitionOperator

end Skyrise

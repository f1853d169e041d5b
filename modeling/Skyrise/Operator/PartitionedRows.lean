/-
The rows of partitions.

The position lists of a partitioning assign every row of a table to the partition of
its hash, if no chunk with rows comes after an empty chunk: the counter of positions
never leaves an empty chunk.  The sorted chunks of the partitions exist if no
partition is empty: the sort of an empty table as one chunk divides by its size.
-/
import Skyrise.Operator.Partition
import Skyrise.Operator.SortOrder
import Skyrise.Relational.Join

namespace Skyrise

variable {R : Type} [Zero R] {table : Table R}

/-! ### Position lists -/

namespace HashPartitioningFunction

/-- The values of the partition columns of a row. -/
def key (f : HashPartitioningFunction) (table : Table R) (id : RowId) : List (Value R) :=
  f.partitionColumnIds.map fun columnId => table.storedAt columnId id

/-- Position lists that together have each row once and nothing else, each row in the list that its
hash selects, and rows with equal keys in the same list. -/
structure AssignsRows (hashCombine : ℕ → Value R → ℕ) (f : HashPartitioningFunction)
    (table : Table R) (lists : List (List RowId)) : Prop where
  length : lists.length = f.partitionCount
  rows : lists.flatten.Perm table.rowIds
  selected : ∀ i positions, lists[i]? = some positions → ∀ id ∈ positions,
    rowHash hashCombine f table id % f.partitionCount = i
  together : ∀ a ∈ table.rowIds, ∀ b ∈ table.rowIds, f.key table a = f.key table b →
    ∀ positions ∈ lists, a ∈ positions ↔ b ∈ positions

variable {hashCombine : ℕ → Value R → ℕ} {f : HashPartitioningFunction}

/-- The hash of a row is one of its key. -/
lemma rowHash_eq_foldl_key (hashCombine : ℕ → Value R → ℕ) (f : HashPartitioningFunction)
    (table : Table R) (id : RowId) :
    rowHash hashCombine f table id = (f.key table id).foldl hashCombine 0 := by
  rw [key, List.foldl_map, rowHash]

lemma assignsRows_rowIdsOf (hp : 0 < f.partitionCount) :
    AssignsRows hashCombine f table
      ((List.range f.partitionCount).map (rowIdsOf hashCombine f table)) := by
  refine ⟨by simp, ?_, ?_, ?_⟩
  · rw [← List.flatMap_def]
    exact Relational.flatMap_filter_perm
      (f := fun id => rowHash hashCombine f table id % f.partitionCount) List.nodup_range
      fun id _ => List.mem_range.mpr (Nat.mod_lt _ hp)
  · intro i positions hpositions id hid
    rw [List.getElem?_map, Option.map_eq_some_iff] at hpositions
    obtain ⟨k, hk, rfl⟩ := hpositions
    obtain rfl : i = k := by
      simpa using (List.getElem?_eq_some_iff.mp hk).2
    simpa using (List.mem_filter.mp hid).2
  · intro a ha b hb hkey positions hmem
    obtain ⟨i, -, rfl⟩ := List.mem_map.mp hmem
    have hhash : rowHash hashCombine f table a = rowHash hashCombine f table b := by
      rw [rowHash_eq_foldl_key, rowHash_eq_foldl_key, hkey]
    simp [rowIdsOf, List.mem_filter, ha, hb, hhash]

/-- The position lists assign every row to one partition if and only if no chunk with rows comes
after an empty chunk. -/
theorem partition_assignsRows_iff (ht : table.WellFormed) (hf : f.Accepts table)
    (hp : 0 < f.partitionCount) :
    (∃ lists, partition hashCombine f table = .ok lists ∧
        AssignsRows hashCombine f table lists) ↔ EmptyChunksLast table := by
  constructor
  · rintro ⟨lists, hlists, hassigns⟩
    by_contra hlast
    obtain ⟨lists', hlists', positions, hmem, id, hid, hnot⟩ :=
      exists_partition_not_mem_rowIds hashCombine ht hf hp hlast
    obtain rfl : lists = lists' := Except.ok.inj (hlists.symm.trans hlists')
    exact hnot (hassigns.rows.mem_iff.mp (List.mem_flatten.mpr ⟨positions, hmem, hid⟩))
  · intro hlast
    exact ⟨_, partition_eq_ok_of_emptyChunksLast ht hf hp hlast, assignsRows_rowIdsOf hp⟩

theorem partition_assignsRows_twoChunks :
    (∃ lists, partition addInt ⟨[0], 2⟩ (Table.ofInts "key" [[1], [2, 3]]) = .ok lists ∧
      AssignsRows addInt ⟨[0], 2⟩ (Table.ofInts "key" [[1], [2, 3]]) lists) :=
  (partition_assignsRows_iff Table.wellFormed_ofInts
    (accepts_singleton (by simp [Table.getColumnCount, Table.ofInts]) rfl) (by decide)).mpr
    (noEmptyChunks_ofInts (by simp)).emptyChunksLast

/-- The row of the second chunk is assigned to a position in the empty first chunk. -/
theorem not_partition_assignsRows :
    ¬ ∃ lists, partition addInt ⟨[0], 1⟩ (Table.ofInts "key" [[], [1]]) = .ok lists ∧
      AssignsRows addInt ⟨[0], 1⟩ (Table.ofInts "key" [[], [1]]) lists := by
  rintro ⟨lists, hlists, hassigns⟩
  have hrun : partition addInt ⟨[0], 1⟩ (Table.ofInts "key" [[], [1]]) = .ok [[⟨0, 0⟩]] := by
    decide
  obtain rfl := Except.ok.inj (hlists.symm.trans hrun)
  have hmem := hassigns.rows.mem_iff.mp (List.mem_flatten.mpr ⟨_, List.mem_cons_self,
    List.mem_cons_self⟩)
  exact absurd hmem (by decide)

end HashPartitioningFunction

/-! ### Sorted partitions -/

namespace PartitionOperator

open HashPartitioningFunction

/-- Rows with values in a column that are in ascending order. -/
def Ascending [LinearOrder R] (columnId : ℕ) (rows : List (List (AllTypeVariant R))) : Prop :=
  rows.Pairwise fun a b =>
    ∃ v w, a[columnId]? = some (some v) ∧ b[columnId]? = some (some w) ∧ v ≤ w

variable [LinearOrder R] {hashCombine : ℕ → Value R → ℕ} {f : HashPartitioningFunction}
  {sortWithinPartition : Bool} {columnId p : ℕ} {ids : List RowId} {c c' t : Chunk R}

/-- The chunks of the result are those of the partitions. -/
lemma partitionChunk_of_eq_ok (ht : table.WellFormed) (hf : f.Accepts table)
    (hp : 0 < f.partitionCount) (hlast : EmptyChunksLast table) {t : Table R}
    (h : partitionOperator hashCombine f sortWithinPartition table = .ok t) {i : ℕ}
    (hi : i < f.partitionCount) :
    partitionChunk f sortWithinPartition table (rowIdsOf hashCombine f table i) =
      .ok (t.getChunk i) := by
  rw [partitionOperator, partition_eq_ok_of_emptyChunksLast ht hf hp hlast] at h
  obtain ⟨lists, hlists, hok⟩ := exists_of_bind_eq_ok h
  obtain rfl := Except.ok.inj hlists
  obtain ⟨chunks, hchunks, hresult⟩ := exists_of_bind_eq_ok hok
  obtain rfl := Except.ok.inj hresult
  obtain ⟨hlen, hget⟩ := List.forall₂_iff_get.mp (mapM_eq_ok_iff.mp hchunks)
  have hlen' : f.partitionCount = chunks.length := by simpa using hlen
  have hchunk := hget i (by simpa using hi) (hlen' ▸ hi)
  simpa [Table.getChunk, ← hlen', hi] using hchunk

/-- A partition that was sorted by its only partition column is in ascending order. -/
lemma ascending_sortPartition (hf : (⟨[columnId], p⟩ : HashPartitioningFunction).Accepts table)
    (h : Holds table ids c) (hne : ids ≠ [])
    (hsort : sortPartition ⟨[columnId], p⟩ ⟨table.columnDefinitions, [c]⟩ = .ok c') :
    Ascending columnId c'.rows := by
  set t : Table R := ⟨table.columnDefinitions, [c]⟩ with ht
  have hft : (⟨[columnId], p⟩ : HashPartitioningFunction).Accepts t := hf
  have hcol : columnId < t.getColumnCount := (hft columnId List.mem_cons_self).1
  have hcount : t.rowCount ≠ 0 := by
    have hsize : t.rowCount = ids.length := by
      rw [← h.size]
      simp [ht, Table.rowCount]
    rw [hsize]
    exact fun hzero => hne (List.length_eq_zero_iff.mp hzero)
  set sorted := SortOperator.sortByColumn t columnId .ascending [] with hsorted
  have hperm : sorted.Perm t.rowIds := SortOperator.sortByColumn_perm t columnId .ascending []
  have hmem : ∀ id ∈ sorted, id ∈ t.rowIds := fun id hid => hperm.mem_iff.mp hid
  obtain ⟨c'', hc'', hgathers⟩ :=
    SortOperator.materializeOutputTable_eq_ok h.wellFormed h.nonNull hperm hcount
  rw [← ht] at hc''
  -- the chunk that is returned gathers the sorted rows
  have hrun : sortPartition ⟨[columnId], p⟩ t = .ok c'' := by
    rw [sortPartition, List.foldlM_cons, hft.checkColumn_eq_ok List.mem_cons_self]
    simp only [bind, Except.bind, pure, Except.pure, List.foldlM_nil, ← hsorted, hc'']
    rfl
  obtain rfl : c' = c'' := Except.ok.inj (hsort.symm.trans hrun)
  rw [hgathers.rows (Nat.zero_lt_of_lt hcol), Ascending, List.pairwise_map]
  have hstored : ∀ id ∈ sorted, t.cellAt columnId id = some (t.storedAt columnId id) :=
    fun id hid => h.wellFormed.cellAt_eq_some_storedAt (hmem id hid) hcol
      (h.nonNull id (hmem id hid) _ hcol)
  have hrow : ∀ id, (t.storedRow id)[columnId]? = some (some (t.storedAt columnId id)) := by
    intro id
    simp [Table.storedRow, hcol]
  have hall : SortOperator.positionsToSort t [] = t.rowIds := rfl
  have horder : sorted.Pairwise _ :=
    SortOperator.pairwise_sortByColumn hall t.nodup_rowIds t.pairwise_rowIds
  refine horder.imp_of_mem fun {a b} ha hb hab => ⟨_, _, hrow a, hrow b, ?_⟩
  rw [hstored a ha, hstored b hb] at hab
  rcases hab with hlt | ⟨heq, -⟩
  · exact le_of_lt hlt
  · exact (Option.some.inj heq).le

end PartitionOperator

end Skyrise

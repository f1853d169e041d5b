/-
The entries of keys.

In every GROUP BY column the entries of two rows are equal if and only if the values are.
Where the entries are indexes of results, these are below the expected size of the result.
-/
import Skyrise.Operator.Aggregate.GroupKeys

namespace Skyrise

variable {R : Type}

/-- The entry of a key for the GROUP BY column with an index. -/
def AggregateKey.entryAt (k : ℕ) : AggregateKey → Option AggregateKeyEntry
  | empty => none
  | entry e => [e][k]?
  | entries e es => (e :: es)[k]?

lemma AggregateKey.entryAt_ofNumbers (numbers : List ℕ) (k : ℕ) :
    (AggregateKey.ofNumbers numbers).entryAt k = numbers[k]?.map .id := by
  match numbers with
  | [] => rfl
  | [n] => cases k <;> rfl
  | n :: m :: ns =>
    show (AggregateKeyEntry.id n :: (m :: ns).map .id)[k]? = _
    rw [← List.map_cons, List.getElem?_map]

variable [FloatingPoint R] {table : Table R} {groupByColumnIds : List ℕ}

/-- What is partitioned: the keys consist of the numbers of the values, or the numbers of a single
column are indexes, counted from the smallest number. -/
lemma partitionByGroupByKeys_cases (table : Table R) (groupByColumnIds : List ℕ) :
    (partitionByGroupByKeys table groupByColumnIds).useImmediateKeyShortcut = false ∧
        (partitionByGroupByKeys table groupByColumnIds).rows =
          keyedRows table (fun chunkId offset => .ofNumbers (groupByColumnIds.map fun c =>
            columnNumber table c ⟨chunkId, offset⟩)) ∨
      ∃ columnId minKey maxKey, groupByColumnIds = [columnId] ∧
        (partitionByGroupByKeys table groupByColumnIds).rows =
          keyedRows table (fun chunkId offset =>
            immediateKey minKey (columnNumber table columnId ⟨chunkId, offset⟩)) ∧
        (partitionByGroupByKeys table groupByColumnIds).expectedResultSize =
          maxKey - minKey + 2 ∧
        ∀ id, columnNumber table columnId id ≠ 0 →
          minKey ≤ columnNumber table columnId id ∧ columnNumber table columnId id ≤ maxKey := by
  have hnumbers : ∀ chunkId offset, (groupByColumnIds.map fun columnId => columnNumbers columnId
      (IdMap.start (table.columnDataType columnId)) table.chunks).map (fun column =>
        numberAt column.1 chunkId offset) =
      groupByColumnIds.map fun c => columnNumber table c ⟨chunkId, offset⟩ := by
    intro chunkId offset
    rw [List.map_map]
    rfl
  unfold partitionByGroupByKeys
  dsimp only
  simp only [hnumbers]
  split
  · next columnId numbers ids hcolumns =>
    rw [List.map_cons, List.map_nil, List.cons.injEq] at hcolumns
    have hcolumn : ∀ id : RowId, numberAt numbers id.chunkId id.chunkOffset =
        columnNumber table columnId id := fun id => by rw [columnNumber, hcolumns.1]
    split
    · next maxKey minKey hmax hmin =>
      split
      · refine .inr ⟨columnId, minKey, maxKey, rfl, ?_, rfl, fun id hne => ?_⟩
        · simp only [← hcolumn]
        · rw [← hcolumn] at hne ⊢
          have hmem : numberAt numbers id.chunkId id.chunkOffset ∈
              numbers.flatten.filter (· ≠ 0) :=
            List.mem_filter.mpr ⟨mem_flatten_of_numberAt hne, by simpa using hne⟩
          exact ⟨(List.min?_eq_some_iff.mp hmin).2 _ hmem, (List.max?_eq_some_iff.mp hmax).2 _ hmem⟩
      · exact .inl ⟨rfl, rfl⟩
    · exact .inl ⟨rfl, rfl⟩
  · exact .inl ⟨rfl, rfl⟩

omit [FloatingPoint R] in
/-- A row of the table with its key. -/
lemma mem_flatten_keyedRows {keyOf : ℕ → ℕ → AggregateKey} {row : AggregateKey × RowId} :
    row ∈ (keyedRows table keyOf).flatten ↔
      row.2 ∈ table.rowIds ∧ row.1 = keyOf row.2.chunkId row.2.chunkOffset := by
  rw [flatten_keyedRows, List.mem_map]
  constructor
  · rintro ⟨rowId, hmem, rfl⟩
    exact ⟨hmem, rfl⟩
  · rintro ⟨hmem, hkey⟩
    exact ⟨row.2, hmem, by rw [← hkey]⟩

end Skyrise

/-
The keys of the groups.

Every row of the input gets a key.  It has an entry for each GROUP BY column, a number
that rows have in common if and only if they have the value of the column in common,
with NULL as one more value.  Integers are numbers themselves, the bytes of a string
of fewer than five characters make up a number, and other values are numbered in the
order in which they occur.
-/
import Skyrise.Storage.Table

namespace Skyrise

variable {R : Type}

/-- An entry of a key, a number of 64 bits.  The most significant bit says that the number is not
that of a value, but the index of the result of the group; no number of a value is that large,
and the bit is a constructor here. -/
inductive AggregateKeyEntry where
  | id (number : ℕ)
  | cached (resultId : ℕ)
deriving DecidableEq, Repr

/-- The key of a row: an `EmptyAggregateKey` without GROUP BY columns, a single entry for one of
them, and an array or a vector for more. -/
inductive AggregateKey where
  | empty
  | entry (e : AggregateKeyEntry)
  | entries (e : AggregateKeyEntry) (es : List AggregateKeyEntry)
deriving DecidableEq, Repr

namespace AggregateKey

/-- The only or the first entry, in which the index of a result is stored. -/
def firstKeyEntry : AggregateKey → Option AggregateKeyEntry
  | empty => none
  | entry e => some e
  | entries e _ => some e

/-- The key after an assignment to its first entry. -/
def setFirstKeyEntry (first : AggregateKeyEntry) : AggregateKey → AggregateKey
  | empty => empty
  | entry _ => entry first
  | entries _ es => entries first es

/-- The key with the numbers of the values of a row. -/
def ofNumbers : List ℕ → AggregateKey
  | [] => empty
  | [n] => entry (.id n)
  | n :: ns => entries (.id n) (ns.map .id)

end AggregateKey

/-! ### The numbers of the values of a column -/

/-- The number of an integer.  Zero is left for NULL. -/
def intToUint (value : Int32) : ℕ := (value.toInt + 2 ^ 31).toNat

/-- The first number of a string that is looked up. -/
def kShortStringIdCounter : ℕ := 5000000000

/-- The number of a string of fewer than five characters. -/
def shortStringId : List UInt8 → Option ℕ
  | [] => some 1
  | [a] => some (2 + a.toNat)
  | [a, b] => some (258 + b.toNat * 2 ^ 8 + a.toNat)
  | [a, b, c] => some (65794 + c.toNat * 2 ^ 16 + b.toNat * 2 ^ 8 + a.toNat)
  | [a, b, c, d] =>
    some (16843010 + d.toNat * 2 ^ 24 + c.toNat * 2 ^ 16 + b.toNat * 2 ^ 8 + a.toNat)
  | _ => none

/-- The values that have been numbered so far, with their numbers, and the next number. -/
structure IdMap (R : Type) where
  ids : List (Value R × ℕ)
  idCounter : ℕ
deriving Repr

/-- The map to start with, for a column of a type. -/
def IdMap.start (t : DataType) : IdMap R :=
  ⟨[], if t = .string then kShortStringIdCounter else 1⟩

variable [FloatingPoint R]

/-- `try_emplace`, with the next number as the value to insert. -/
def IdMap.tryEmplace (m : IdMap R) (value : Value R) : ℕ × IdMap R :=
  match m.ids.lookup value with
  | some number => (number, m)
  | none => (m.idCounter, ⟨(value, m.idCounter) :: m.ids, m.idCounter + 1⟩)

/-- The number of a value that is not looked up. -/
def immediateId : Value R → Option ℕ
  | .int v => some (intToUint v + 1)
  | .string s => shortStringId s
  | _ => none

/-- The number of a value. -/
def partitionId (m : IdMap R) (value : Value R) : ℕ × IdMap R :=
  match immediateId value with
  | some number => (number, m)
  | none => m.tryEmplace value

/-- The number of a cell. -/
def cellId (m : IdMap R) : AllTypeVariant R → ℕ × IdMap R
  | none => (0, m)
  | some value => partitionId m value

/-- The numbers of the cells of a column in their order, and the map after them. -/
def columnIds (m : IdMap R) : List (AllTypeVariant R) → List ℕ × IdMap R
  | [] => ([], m)
  | cell :: cells =>
    let (number, m) := cellId m cell
    let (numbers, m) := columnIds m cells
    (number :: numbers, m)

/-! ### Partitioning -/

/-- The numbers of the cells of a column, chunk by chunk, and the map after them. -/
def columnNumbers (columnId : ℕ) (m : IdMap R) : List (Chunk R) → List (List ℕ) × IdMap R
  | [] => ([], m)
  | chunk :: chunks =>
    let (numbers, m) := columnIds m (chunk.getSegment columnId).cells
    let (rest, m) := columnNumbers columnId m chunks
    (numbers :: rest, m)

/-- The rows of the input chunk by chunk, each with its key, and what the partitioning leaves for
the aggregation. -/
structure Partitioning where
  rows : List (List (AggregateKey × RowId))
  expectedResultSize : ℕ
  useImmediateKeyShortcut : Bool
deriving Repr

/-- The rows of every chunk with keys. -/
def keyedRows (table : Table R) (keyOf : ℕ → ℕ → AggregateKey) :
    List (List (AggregateKey × RowId)) :=
  table.chunks.zipIdx.map fun (chunk, chunkId) =>
    (List.range chunk.size).map fun offset => (keyOf chunkId offset, ⟨chunkId, offset⟩)

/-- The number in a column at a position. -/
def numberAt (numbers : List (List ℕ)) (chunkId offset : ℕ) : ℕ := (numbers.getD chunkId []).getD offset 0

/-- The immediate key of a number, which is the index of a result.  NULL is the first one. -/
def immediateKey (minKey number : ℕ) : AggregateKey :=
  .entry (.cached (if number = 0 then 0 else number - minKey + 1))

/-- `PartitionByGroupByKeys`.  The keys of a single column of integers are indexes of results if
they lie close together. -/
def partitionByGroupByKeys (table : Table R) (groupByColumnIds : List ℕ) : Partitioning :=
  let columns := groupByColumnIds.map fun columnId =>
    columnNumbers columnId (IdMap.start (table.columnDataType columnId)) table.chunks
  -- no integer is looked up, so that the map of a column of integers is empty
  let expectedResultSize := (columns.map fun column => column.2.ids.length).foldl max 0
  let keys := keyedRows table fun chunkId offset =>
    .ofNumbers (columns.map fun column => numberAt column.1 chunkId offset)
  match groupByColumnIds, columns with
  | [columnId], [(numbers, _)] =>
    let nonNull := numbers.flatten.filter (· ≠ 0)
    match nonNull.max?, nonNull.min? with
    | some maxKey, some minKey =>
      if table.columnDataType columnId = .int ∧ (maxKey - minKey) * 10 < table.rowCount * 12 then
        ⟨keyedRows table fun chunkId offset => immediateKey minKey (numberAt numbers chunkId offset),
          maxKey - minKey + 2, true⟩
      else ⟨keys, expectedResultSize, false⟩
    | _, _ => ⟨keys, expectedResultSize, false⟩
  | _, _ => ⟨keys, expectedResultSize, false⟩

/-! ### Kinds of keys -/

/-- The kinds of keys: those without GROUP BY columns, those that are looked up, and those that are
indexes of results. -/
inductive KeyKind where
  | empty
  | hashed
  | cached
deriving DecidableEq

/-- The kind of a key. -/
def AggregateKey.kind (key : AggregateKey) : KeyKind :=
  match key.firstKeyEntry with
  | none => .empty
  | some (.id _) => .hashed
  | some (.cached _) => .cached

lemma AggregateKey.kind_ofNumbers (numbers : List ℕ) :
    (AggregateKey.ofNumbers numbers).kind = if numbers = [] then .empty else .hashed := by
  match numbers with
  | [] => rfl
  | [_] => rfl
  | _ :: _ :: _ => rfl

/-- The kind of the keys. -/
def Partitioning.kind (groupByColumnIds : List ℕ) (partitioning : Partitioning) : KeyKind :=
  if groupByColumnIds = [] then .empty
  else if partitioning.useImmediateKeyShortcut then .cached else .hashed

section

variable (table : Table R) (groupByColumnIds : List ℕ)

/-- **Partitioning.**  Every row gets a key, all of them of one kind. -/
lemma partitionByGroupByKeys_spec : ∃ keyOf : ℕ → ℕ → AggregateKey,
    (partitionByGroupByKeys table groupByColumnIds).rows = keyedRows table keyOf ∧
      (∀ chunkId offset, (keyOf chunkId offset).kind =
        (partitionByGroupByKeys table groupByColumnIds).kind groupByColumnIds) ∧
      (groupByColumnIds = [] →
        (partitionByGroupByKeys table groupByColumnIds).expectedResultSize = 0) := by
  unfold partitionByGroupByKeys
  dsimp only
  split
  · next columnId numbers ids hcolumns =>
    split
    · next maxKey minKey _ _ =>
      split
      · dsimp only
        exact ⟨_, rfl, fun _ _ => rfl, by simp⟩
      · dsimp only
        refine ⟨_, rfl, fun _ _ => ?_, by simp⟩
        rw [AggregateKey.kind_ofNumbers, hcolumns]
        rfl
    · dsimp only
      refine ⟨_, rfl, fun _ _ => ?_, by simp⟩
      rw [AggregateKey.kind_ofNumbers, hcolumns]
      rfl
  · dsimp only
    refine ⟨_, rfl, fun _ _ => ?_, ?_⟩
    · rw [AggregateKey.kind_ofNumbers, Partitioning.kind]
      simp
    · rintro rfl
      rfl

omit [FloatingPoint R] in
lemma mem_keyedRows {keyOf : ℕ → ℕ → AggregateKey} {rows : List (AggregateKey × RowId)}
    (h : rows ∈ keyedRows table keyOf) {row : AggregateKey × RowId} (hrow : row ∈ rows) :
    row.2 ∈ table.rowIds ∧ ∃ chunkId offset, row.1 = keyOf chunkId offset := by
  rw [keyedRows] at h
  obtain ⟨⟨chunk, chunkId⟩, hchunk, rfl⟩ := List.mem_map.mp h
  obtain ⟨offset, hoffset, rfl⟩ := List.mem_map.mp hrow
  refine ⟨?_, chunkId, offset, rfl⟩
  rw [Table.rowIds, List.mem_flatMap]
  exact ⟨_, hchunk, List.mem_map_of_mem hoffset⟩

variable {table groupByColumnIds}

/-- What is partitioned: rows of the table with keys of one kind. -/
lemma partitioned_rows : ∀ rows ∈ (partitionByGroupByKeys table groupByColumnIds).rows, ∀ row ∈ rows,
    row.1.kind = (partitionByGroupByKeys table groupByColumnIds).kind groupByColumnIds ∧
      row.2 ∈ table.rowIds := by
  obtain ⟨keyOf, hrows, hkind, -⟩ := partitionByGroupByKeys_spec table groupByColumnIds
  intro rows hmem row hrow
  rw [hrows] at hmem
  obtain ⟨hrowId, chunkId, offset, hkey⟩ := mem_keyedRows table hmem hrow
  rw [hkey]
  exact ⟨hkind chunkId offset, hrowId⟩

lemma Partitioning.kind_eq_empty_iff (groupByColumnIds : List ℕ) (partitioning : Partitioning) :
    groupByColumnIds = [] ↔ partitioning.kind groupByColumnIds = .empty := by
  rw [Partitioning.kind]
  split
  · next h => simp [h]
  · next h => split <;> simp [h]

lemma Partitioning.kind_eq_cached {partitioning : Partitioning}
    (h : partitioning.kind groupByColumnIds = .cached) :
    partitioning.useImmediateKeyShortcut = true := by
  rw [Partitioning.kind] at h
  split at h
  · cases h
  · split at h
    · assumption
    · cases h

end

end Skyrise

/-
The string aggregate.

The strings of a group are concatenated, in the order of the rows or in the order of
the sort definitions, if there are any.  The rows are sorted by the last definition
first, as in the sort operator, but by the stored values, of which the program takes
for granted that none is NULL.
-/
import Skyrise.Json.Text
import Skyrise.Operator.Sort

namespace Skyrise

namespace StringAgg

variable {R : Type}

/-- `kStringAggDefaultDelimiter`. -/
def kStringAggDefaultDelimiter : Bytes := ","

/-- The positions of a group, sorted by one definition: those of an earlier sort if there are any.
-/
def sortByDefinition [LinearOrder R] [Zero R] (inputTable : Table R) (resultPositions : List RowId)
    (previouslySorted : List RowId) (definition : SortColumnDefinition) : List RowId :=
  let positions := if previouslySorted.isEmpty then resultPositions else previouslySorted
  let rowIdValuePairs := positions.map fun id =>
    (id, inputTable.storedAt definition.columnId.toNat id)
  (rowIdValuePairs.mergeSort fun a b => SortOperator.inOrder definition.sortMode a.2 b.2).map
    Prod.fst

/-- The positions of a group in the order of the sort definitions. -/
def sortedPositions [LinearOrder R] [Zero R] (inputTable : Table R)
    (sortColumnDefinitions : List SortColumnDefinition) (resultPositions : List RowId) :
    List RowId :=
  sortColumnDefinitions.reverse.foldl (sortByDefinition inputTable resultPositions) []

/-- The concatenation of strings, with delimiters once there is something to delimit. -/
def concatenate (strings : List Bytes) : Bytes :=
  strings.foldl (fun concatenated s =>
    (if concatenated.isEmpty then concatenated else concatenated ++ kStringAggDefaultDelimiter) ++ s)
      []

/-- The string that a `ValueSegment<std::string>` holds. -/
def asString : Value R → Bytes
  | .string s => s
  | _ => []

/-- What `WriteAggregateValues` writes for a group, of which the positions and the strings were
accumulated, from the column with the given id. -/
def aggregateValue [LinearOrder R] [Zero R] (inputTable : Table R) (columnId : ℕ)
    (sortColumnDefinitions : Option (List SortColumnDefinition))
    (accumulator : List (RowId × Bytes)) : AllTypeVariant R :=
  if accumulator.isEmpty then none
  else
    match sortColumnDefinitions with
    | some definitions =>
      let positions := sortedPositions inputTable definitions (accumulator.map Prod.fst)
      some (.string (concatenate (positions.map fun id =>
        asString (inputTable.storedAt columnId id))))
    | none => some (.string (concatenate (accumulator.map Prod.snd)))

/-! ### Groups of two rows -/

variable [LinearOrder R] [Zero R] {inputTable : Table R} {a b : RowId}

lemma mergeSort_pair {α : Type*} (le : α → α → Bool) (x y : α) :
    [x, y].mergeSort le = if le x y then [x, y] else [y, x] := by
  simp [List.mergeSort, List.MergeSort.Internal.splitInTwo, List.merge]

/-- Two rows in the order of one definition. -/
lemma sortedPositions_pair (definition : SortColumnDefinition) :
    sortedPositions inputTable [definition] [a, b] =
      if SortOperator.inOrder definition.sortMode
          (inputTable.storedAt definition.columnId.toNat a)
          (inputTable.storedAt definition.columnId.toNat b) then [a, b] else [b, a] := by
  show sortByDefinition inputTable [a, b] [] definition = _
  rw [sortByDefinition, List.isEmpty_nil, if_pos rfl, List.map_cons, List.map_cons, List.map_nil,
    mergeSort_pair]
  split <;> rfl

end StringAgg

end Skyrise

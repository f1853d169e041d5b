/-
Aggregates by their definition.

An aggregate of a group is computed from the values of its column in the rows of the
group, of which NULLs are left out.  COUNT(*) counts the rows.  MIN, MAX and SUM of no
value are NULL.  What the operator accumulates row by row is this result.
-/
import Mathlib.Data.List.Dedup
import Skyrise.Operator.Aggregate.AggregateHash

namespace Skyrise

variable {R : Type} [FloatingPoint R]

/-- The values of a column in some rows, without NULLs. -/
def nonNullValues (table : Table R) (columnId : ℕ) (rows : List RowId) : List (Value R) :=
  rows.filterMap (table.cellAt columnId)

omit [FloatingPoint R] in
/-- An integer of either width. -/
def integerOf : Value R → ℤ
  | .int v => v.toInt
  | .long v => v.toInt
  | _ => 0

/-- The sum of numbers: a long for integers, which it is as long as it fits, and otherwise a double,
to which the numbers are added in the order of the rows. -/
def sumOf (dataType : DataType) (values : List (Value R)) : Value R :=
  match dataType with
  | .int | .long => .long (.ofInt (values.map integerOf).sum)
  | _ => .double ((values.map asDouble).foldl (· + ·) 0)

/-- COUNT, COUNT(DISTINCT), MIN, MAX and SUM of some rows. -/
def referenceAggregate (table : Table R) (aggregate : AggregateExpression) (rows : List RowId) :
    AllTypeVariant R :=
  match aggregate.columnId with
  | none => some (.long (.ofNat rows.length))
  | some columnId =>
    let values := nonNullValues table columnId rows
    match aggregate.aggregateFunction with
    | .count => some (.long (.ofNat values.length))
    | .countDistinct => some (.long (.ofNat values.dedup.length))
    | .min => values.min?
    | .max => values.max?
    | .sum => if values = [] then none else some (sumOf (table.columnDataType columnId) values)
    | _ => none

/-- The aggregate functions that have a reference. -/
def AggregateFunction.IsStandard (f : AggregateFunction) : Prop :=
  f = .count ∨ f = .countDistinct ∨ f = .min ∨ f = .max ∨ f = .sum

/-! ### Accumulating values -/

/-- What a value adds to an aggregate; the row that it is in matters only to strings. -/
def addToResult (f : AggregateFunction) (s : AggregateValue R) (v : Value R) : AggregateValue R :=
  match accumulate f v ⟨0, 0⟩ s.aggregateCount s.accumulator with
  | .ok accumulator => ⟨accumulator, s.aggregateCount + 1⟩
  | .error _ => s

section

variable {f : AggregateFunction} {s : AggregateValue R} {v : Value R} {vs : List (Value R)}

lemma accumulate_rowId (hf : f.IsStandard) (rowId rowId' : RowId) (n : ℕ) (a : Accumulator R) :
    accumulate f v rowId n a = accumulate f v rowId' n a := by
  rcases hf with rfl | rfl | rfl | rfl | rfl <;> rfl

lemma aggregateCount_addToResult (hf : f.IsStandard) :
    (addToResult f s v).aggregateCount = s.aggregateCount + 1 := by
  rcases hf with rfl | rfl | rfl | rfl | rfl <;> rfl

/-- Every value is counted. -/
lemma aggregateCount_foldl (hf : f.IsStandard) (vs : List (Value R)) (s : AggregateValue R) :
    (vs.foldl (addToResult f) s).aggregateCount = s.aggregateCount + vs.length := by
  induction vs generalizing s with
  | nil => rfl
  | cons v vs ih =>
    rw [List.foldl_cons, ih, aggregateCount_addToResult hf, List.length_cons]
    omega

/-- The least value so far. -/
lemma value_foldl_min (vs : List (Value R)) (hs : 0 < s.aggregateCount) :
    (vs.foldl (addToResult .min) s).accumulator.value = vs.foldl min s.accumulator.value := by
  induction vs generalizing s with
  | nil => rfl
  | cons v vs ih =>
    have hcount : 0 < (addToResult .min s v).aggregateCount := by
      rw [aggregateCount_addToResult (.inr (.inr (.inl rfl)))]
      omega
    have hvalue : (addToResult .min s v).accumulator.value = min s.accumulator.value v := by
      simp only [addToResult, accumulate]
      split
      · next h => exact (min_eq_right (h.resolve_left (by omega)).le).symm
      · next h => exact (min_eq_left (not_lt.mp fun hlt => h (.inr hlt))).symm
    rw [List.foldl_cons, List.foldl_cons, ih hcount, hvalue]

/-- The greatest value so far. -/
lemma value_foldl_max (vs : List (Value R)) (hs : 0 < s.aggregateCount) :
    (vs.foldl (addToResult .max) s).accumulator.value = vs.foldl max s.accumulator.value := by
  induction vs generalizing s with
  | nil => rfl
  | cons v vs ih =>
    have hcount : 0 < (addToResult .max s v).aggregateCount := by
      rw [aggregateCount_addToResult (.inr (.inr (.inr (.inl rfl))))]
      omega
    have hvalue : (addToResult .max s v).accumulator.value = max s.accumulator.value v := by
      simp only [addToResult, accumulate]
      split
      · next h => exact (max_eq_right (h.resolve_left (by omega)).le).symm
      · next h => exact (max_eq_left (not_lt.mp fun hlt => h (.inr hlt))).symm
    rw [List.foldl_cons, List.foldl_cons, ih hcount, hvalue]

lemma value_foldl_sum (vs : List (Value R)) (s : AggregateValue R) :
    (vs.foldl (addToResult .sum) s).accumulator.value = vs.foldl addValue s.accumulator.value := by
  induction vs generalizing s with
  | nil => rfl
  | cons v vs ih => exact ih _

lemma distinctValues_foldl (vs : List (Value R)) (s : AggregateValue R) :
    (vs.foldl (addToResult .countDistinct) s).accumulator.distinctValues =
      vs.foldl (fun distinct v => distinct.insert v) s.accumulator.distinctValues := by
  induction vs generalizing s with
  | nil => rfl
  | cons v vs ih => exact ih _

/-- The sum of integers. -/
lemma foldl_addValue_long (h : ∀ v ∈ vs, v.dataType = .int ∨ v.dataType = .long) (sum : Int64) :
    vs.foldl addValue (.long sum) = .long (sum + .ofInt (vs.map integerOf).sum) := by
  induction vs generalizing sum with
  | nil => simp
  | cons v vs ih =>
    rw [List.forall_mem_cons] at h
    have hv : addValue (.long sum) v = .long (sum + .ofInt (integerOf v)) := by
      cases v with
      | int v => simp [addValue, integerOf, Int32.toInt64]
      | long v => simp [addValue, integerOf]
      | float v => rcases h.1 with h | h <;> cases h
      | double v => rcases h.1 with h | h <;> cases h
      | string v => rcases h.1 with h | h <;> cases h
    rw [List.foldl_cons, hv, ih h.2, List.map_cons, List.sum_cons, Int64.ofInt_add, Int64.add_assoc]

/-- The sum of doubles. -/
lemma foldl_addValue_double (vs : List (Value R)) (sum : R) :
    vs.foldl addValue (.double sum) = .double ((vs.map asDouble).foldl (· + ·) sum) := by
  induction vs generalizing sum with
  | nil => rfl
  | cons v vs ih => exact ih _

omit [FloatingPoint R] in
/-- The distinct values. -/
lemma length_foldl_insert [DecidableEq R] (vs : List (Value R)) :
    (vs.foldl (fun distinct v => distinct.insert v) []).length = vs.dedup.length := by
  have hspec : ∀ distinct : List (Value R), distinct.Nodup →
      (vs.foldl (fun distinct v => distinct.insert v) distinct).Nodup ∧
      ∀ w, w ∈ vs.foldl (fun distinct v => distinct.insert v) distinct ↔ w ∈ distinct ∨ w ∈ vs := by
    induction vs with
    | nil => exact fun distinct hnodup => ⟨hnodup, fun w => by simp⟩
    | cons v vs ih =>
      intro distinct hnodup
      obtain ⟨hnodup', hmem⟩ := ih (distinct.insert v) (hnodup.insert)
      refine ⟨hnodup', fun w => ?_⟩
      rw [List.foldl_cons, hmem, List.mem_insert_iff, List.mem_cons]
      tauto
  obtain ⟨hnodup, hmem⟩ := hspec [] List.nodup_nil
  refine List.Perm.length_eq ((List.perm_ext_iff_of_nodup hnodup (List.nodup_dedup vs)).mpr
    fun w => ?_)
  rw [hmem, List.mem_dedup, or_iff_right List.not_mem_nil]

end

/-! ### Accumulating rows -/

section

variable {table : Table R} {aggregate : AggregateExpression} {columnId : ℕ} {rows : List RowId}

/-- A row adds its value, unless that is NULL. -/
lemma stepOf_eq (hf : aggregate.aggregateFunction.IsStandard)
    (hcolumn : aggregate.columnId = some columnId) (rowId : RowId) (s : AggregateValue R) :
    stepOf table aggregate rowId s = match table.cellAt columnId rowId with
      | none => s
      | some v => addToResult aggregate.aggregateFunction s v := by
  rw [stepOf, processRow, hcolumn]
  dsimp only
  cases table.cellAt columnId rowId with
  | none => rfl
  | some v =>
    simp only [processPosition, addToResult, accumulate_rowId hf rowId ⟨0, 0⟩]
    cases accumulate aggregate.aggregateFunction v ⟨0, 0⟩ s.aggregateCount s.accumulator <;> rfl

lemma aggregated_eq_foldl (hf : aggregate.aggregateFunction.IsStandard)
    (hcolumn : aggregate.columnId = some columnId) (rows : List RowId) (s : AggregateValue R) :
    aggregated (stepOf table aggregate) s rows =
      (nonNullValues table columnId rows).foldl (addToResult aggregate.aggregateFunction) s := by
  induction rows generalizing s with
  | nil => rfl
  | cons rowId rows ih =>
    rw [aggregated, List.foldl_cons, ← aggregated, ih, stepOf_eq hf hcolumn, nonNullValues,
      nonNullValues, List.filterMap_cons]
    cases table.cellAt columnId rowId <;> rfl

/-- COUNT(*) counts the rows. -/
lemma aggregateCount_aggregated_star (hcolumn : aggregate.columnId = none) (rows : List RowId)
    (s : AggregateValue R) : (aggregated (stepOf table aggregate) s rows).aggregateCount =
      s.aggregateCount + rows.length := by
  induction rows generalizing s with
  | nil => rfl
  | cons rowId rows ih =>
    have hstep : stepOf table aggregate rowId s =
        { s with aggregateCount := s.aggregateCount + 1 } := by
      rw [stepOf, processRow, hcolumn]
    rw [aggregated, List.foldl_cons, ← aggregated, ih, hstep, List.length_cons]
    dsimp only
    omega

omit [FloatingPoint R] in
lemma mem_nonNullValues_dataType (ht : table.WellFormed) (hcol : columnId < table.getColumnCount)
    (hrows : ∀ rowId ∈ rows, rowId ∈ table.rowIds) :
    ∀ v ∈ nonNullValues table columnId rows, v.dataType = table.columnDataType columnId := by
  intro v hv
  obtain ⟨rowId, hrow, hcell⟩ := List.mem_filterMap.mp hv
  exact ht.dataType_of_cellAt (hrows rowId hrow) hcol hcell

/-- The sum that is accumulated. -/
lemma foldl_addValue_eq_sumOf {dataType : DataType} {vs : List (Value R)}
    (hvs : ∀ v ∈ vs, v.dataType = dataType)
    (hnumber : dataType ≠ .string ∧ dataType ≠ .null) :
    vs.foldl addValue (aggregateDataType dataType .sum).defaultValue = sumOf dataType vs := by
  cases dataType with
  | null => exact absurd rfl hnumber.2
  | string => exact absurd rfl hnumber.1
  | int =>
    show vs.foldl addValue (.long 0) = _
    rw [foldl_addValue_long fun v hv => .inl (hvs v hv), sumOf, Int64.zero_add]
  | long =>
    show vs.foldl addValue (.long 0) = _
    rw [foldl_addValue_long fun v hv => .inr (hvs v hv), sumOf, Int64.zero_add]
  | float => exact foldl_addValue_double vs 0
  | double => exact foldl_addValue_double vs 0

/-- **What is written for a group** is the aggregate of its rows. -/
lemma writeAggregateValue_aggregated (ht : table.WellFormed) (ha : aggregate.Valid table)
    (hf : aggregate.aggregateFunction.IsStandard) (hrows : ∀ rowId ∈ rows, rowId ∈ table.rowIds) :
    writeAggregateValue table aggregate
        (aggregated (stepOf table aggregate) (startOf table aggregate) rows) =
      referenceAggregate table aggregate rows := by
  rw [referenceAggregate]
  cases hcolumn : aggregate.columnId with
  | none =>
    rw [writeAggregateValue, ha.star hcolumn, aggregateCount_aggregated_star hcolumn]
    show some (Value.long (Int64.ofNat (0 + rows.length))) = _
    rw [Nat.zero_add]
  | some columnId =>
    have hcol := ha.columnId_lt columnId hcolumn
    have htype := mem_nonNullValues_dataType ht hcol hrows
    have hstring := ha.arithmetic columnId hcolumn
    have hnull := ht.columnDataType_ne_null hcol
    rw [aggregated_eq_foldl hf hcolumn]
    dsimp only
    generalize nonNullValues table columnId rows = vs at htype
    have hcount := aggregateCount_foldl hf vs (startOf table aggregate)
    have hzero : (startOf table aggregate).aggregateCount = 0 := rfl
    rw [hzero, Nat.zero_add] at hcount
    rw [writeAggregateValue]
    rcases hf with hf | hf | hf | hf | hf
    · rw [hf] at hcount ⊢
      dsimp only
      rw [hcount]
    · rw [hf]
      dsimp only
      rw [distinctValues_foldl]
      exact congrArg (fun n => some (Value.long (Int64.ofNat n))) (length_foldl_insert vs)
    · rw [hf] at hcount ⊢
      dsimp only
      rw [hcount]
      cases vs with
      | nil => rfl
      | cons v vs =>
        rw [List.length_cons, if_pos (Nat.succ_pos _), List.foldl_cons,
          value_foldl_min vs (Nat.succ_pos _), List.min?_cons']
        rfl
    · rw [hf] at hcount ⊢
      dsimp only
      rw [hcount]
      cases vs with
      | nil => rfl
      | cons v vs =>
        rw [List.length_cons, if_pos (Nat.succ_pos _), List.foldl_cons,
          value_foldl_max vs (Nat.succ_pos _), List.max?_cons']
        rfl
    · rw [hf] at hcount ⊢
      dsimp only
      rw [hcount, value_foldl_sum]
      cases vs with
      | nil => rfl
      | cons v vs =>
        have hstart : (startOf table aggregate).accumulator.value =
            (aggregateDataType (table.columnDataType columnId) .sum).defaultValue := by
          rw [← hf]
          show (aggregate.dataType table).defaultValue = _
          rw [AggregateExpression.dataType, AggregateExpression.columnDataType, hcolumn]
        rw [List.length_cons, if_pos (Nat.succ_pos _), if_neg (List.cons_ne_nil v vs), hstart,
          foldl_addValue_eq_sumOf htype ⟨fun h => (hstring h).1 hf, hnull⟩]

end

end Skyrise

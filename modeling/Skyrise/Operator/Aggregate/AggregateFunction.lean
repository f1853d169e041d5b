/-
Aggregate functions.

A function accumulates the values of a group one after the other.  Each has an
accumulator of its own, and a count of the values that are not NULL.  What is written
for the group in the end is computed from both.
-/
import Skyrise.Expression.AbstractExpression
import Skyrise.Operator.Aggregate.StringAgg

namespace Skyrise

variable {R : Type}

/-- `kAggregateFunctionToString`. -/
def aggregateFunctionToString : AggregateFunction → String
  | .any => "ANY"
  | .avg => "AVG"
  | .count => "COUNT"
  | .countDistinct => "COUNT DISTINCT"
  | .max => "MAX"
  | .min => "MIN"
  | .standardDeviationSample => "STDDEV_SAMP"
  | .stringAgg => "STRING_AGG"
  | .sum => "SUM"

/-- An `AggregateExpression` of a column.  Without a column it is COUNT(*). -/
structure AggregateExpression where
  aggregateFunction : AggregateFunction
  columnId : Option ℕ
  columnName : String
  sortColumnDefinitions : Option (List SortColumnDefinition)
deriving DecidableEq, Repr

/-- `AsColumnName`. -/
def AggregateExpression.asColumnName (aggregate : AggregateExpression) : String :=
  match aggregate.aggregateFunction, aggregate.columnId with
  | .countDistinct, _ => "COUNT(DISTINCT " ++ aggregate.columnName ++ ")"
  | .count, none => "COUNT(*)"
  | f, _ => aggregateFunctionToString f ++ "(" ++ aggregate.columnName ++ ")"

/-- `StandardDeviationSampleData`. -/
structure StandardDeviationSampleData (R : Type) where
  count : R
  mean : R
  squaredDistanceFromMean : R
  result : R
deriving DecidableEq, Repr

/-- The accumulators of all functions, of which each uses its own. -/
structure Accumulator (R : Type) where
  value : Value R
  distinctValues : List (Value R)
  standardDeviation : StandardDeviationSampleData R
  strings : List (RowId × Bytes)
deriving DecidableEq, Repr

/-- What is aggregated for a group. -/
structure AggregateValue (R : Type) where
  accumulator : Accumulator R
  aggregateCount : ℕ
deriving DecidableEq, Repr

variable [FloatingPoint R]

/-- A number as a number of double precision. -/
def asDouble : Value R → R
  | .int v => FloatingPoint.ofInt v.toInt
  | .long v => FloatingPoint.ofInt v.toInt
  | .float v => v
  | .double v => v
  | .string _ => 0

/-- The sum of an accumulator, which is a long or a double, and a number. -/
def addValue (accumulator newValue : Value R) : Value R :=
  match accumulator, newValue with
  | .long sum, .int v => .long (sum + v.toInt64)
  | .long sum, .long v => .long (sum + v)
  | .double sum, v => .double (sum + asDouble v)
  | sum, _ => sum

/-- Welford's online algorithm. -/
def StandardDeviationSampleData.update (data : StandardDeviationSampleData R) (newValue : R) :
    StandardDeviationSampleData R :=
  let count := data.count + FloatingPoint.ofInt 1
  let delta := newValue - data.mean
  let mean := data.mean + delta / count
  let squaredDistanceFromMean := data.squaredDistanceFromMean + delta * (newValue - mean)
  ⟨count, mean, squaredDistanceFromMean,
    if FloatingPoint.ofInt 1 < count then
      FloatingPoint.sqrt (squaredDistanceFromMean / (count - FloatingPoint.ofInt 1))
    else data.result⟩

/-- The function of the `AggregateFunctionBuilder`, with the insertion of a distinct value. -/
def accumulate (aggregateFunction : AggregateFunction) (newValue : Value R) (rowId : RowId)
    (aggregateCount : ℕ) (accumulator : Accumulator R) : Except Exception (Accumulator R) :=
  match aggregateFunction with
  | .min => .ok <|
    if aggregateCount = 0 ∨ newValue < accumulator.value then { accumulator with value := newValue }
    else accumulator
  | .max => .ok <|
    if aggregateCount = 0 ∨ accumulator.value < newValue then { accumulator with value := newValue }
    else accumulator
  | .sum | .avg => .ok { accumulator with value := addValue accumulator.value newValue }
  | .standardDeviationSample => .ok { accumulator with
      standardDeviation := accumulator.standardDeviation.update (asDouble newValue) }
  | .count => .ok accumulator
  | .countDistinct => .ok { accumulator with
      distinctValues := accumulator.distinctValues.insert newValue }
  | .stringAgg =>
    match newValue with
    | .string s => .ok { accumulator with strings := accumulator.strings ++ [(rowId, s)] }
    | _ => .error (.assertionFailed "STRING_AGG requires string column data type.")
  | .any => .error (.assertionFailed "Invalid aggregate function.")

/-- What a cell adds to an aggregate.  A NULL adds nothing. -/
def processPosition (aggregateFunction : AggregateFunction) (value : AllTypeVariant R)
    (rowId : RowId) (s : AggregateValue R) : Except Exception (AggregateValue R) :=
  match value with
  | none => .ok s
  | some v => do
    let accumulator ← accumulate aggregateFunction v rowId s.aggregateCount s.accumulator
    return ⟨accumulator, s.aggregateCount + 1⟩

/-- What `WriteAggregateValues` writes for a group. -/
def writeAggregateValue (table : Table R) (aggregate : AggregateExpression) (s : AggregateValue R) :
    AllTypeVariant R :=
  match aggregate.aggregateFunction with
  | .count => some (.long (Int64.ofNat s.aggregateCount))
  | .countDistinct => some (.long (Int64.ofNat s.accumulator.distinctValues.length))
  | .min | .max | .sum | .any => if 0 < s.aggregateCount then some s.accumulator.value else none
  | .avg =>
    if 0 < s.aggregateCount then
      some (.double (asDouble s.accumulator.value / FloatingPoint.ofInt s.aggregateCount))
    else none
  | .standardDeviationSample =>
    if 1 < s.aggregateCount then some (.double s.accumulator.standardDeviation.result) else none
  | .stringAgg => StringAgg.aggregateValue table (aggregate.columnId.getD 0)
      aggregate.sortColumnDefinitions s.accumulator.strings

end Skyrise

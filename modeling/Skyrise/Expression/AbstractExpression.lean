/-
Expressions.

An expression is a node with its arguments.  The node says of which class the
expression is and holds the fields that the class adds; `AbstractExpression` has the
type, which several classes can share, and the arguments.
-/
import Skyrise.Operator.Sort
import Skyrise.Types

namespace Skyrise

/-! ### Enumerations -/

instance : MagicEnum DataType where
  values := [.null, .int, .long, .float, .double, .string]
  enumName
    | .null => "kNull"
    | .int => "kInt"
    | .long => "kLong"
    | .float => "kFloat"
    | .double => "kDouble"
    | .string => "kString"
  mem_values a := by cases a <;> simp
  enumName_injective a b h := by cases a <;> cases b <;> simp_all

/-- The types of expressions. -/
inductive ExpressionType where
  | aggregate
  | arithmetic
  | case
  | cast
  | extract
  | list
  | logical
  | pqpColumn
  | predicate
  | unaryMinus
  | value
deriving DecidableEq, Repr

instance : MagicEnum ExpressionType where
  values := [.aggregate, .arithmetic, .case, .cast, .extract, .list, .logical, .pqpColumn,
    .predicate, .unaryMinus, .value]
  enumName
    | .aggregate => "kAggregate"
    | .arithmetic => "kArithmetic"
    | .case => "kCase"
    | .cast => "kCast"
    | .extract => "kExtract"
    | .list => "kList"
    | .logical => "kLogical"
    | .pqpColumn => "kPqpColumn"
    | .predicate => "kPredicate"
    | .unaryMinus => "kUnaryMinus"
    | .value => "kValue"
  mem_values a := by cases a <;> simp
  enumName_injective a b h := by cases a <;> cases b <;> simp_all

/-- The aggregate functions. -/
inductive AggregateFunction where
  | any
  | avg
  | count
  | countDistinct
  | max
  | min
  | standardDeviationSample
  | stringAgg
  | sum
deriving DecidableEq, Repr

instance : MagicEnum AggregateFunction where
  values := [.any, .avg, .count, .countDistinct, .max, .min, .standardDeviationSample, .stringAgg,
    .sum]
  enumName
    | .any => "kAny"
    | .avg => "kAvg"
    | .count => "kCount"
    | .countDistinct => "kCountDistinct"
    | .max => "kMax"
    | .min => "kMin"
    | .standardDeviationSample => "kStandardDeviationSample"
    | .stringAgg => "kStringAgg"
    | .sum => "kSum"
  mem_values a := by cases a <;> simp
  enumName_injective a b h := by cases a <;> cases b <;> simp_all

/-- The arithmetic operators. -/
inductive ArithmeticOperator where
  | addition
  | subtraction
  | multiplication
  | division
  | modulo
deriving DecidableEq, Repr

instance : MagicEnum ArithmeticOperator where
  values := [.addition, .subtraction, .multiplication, .division, .modulo]
  enumName
    | .addition => "kAddition"
    | .subtraction => "kSubtraction"
    | .multiplication => "kMultiplication"
    | .division => "kDivision"
    | .modulo => "kModulo"
  mem_values a := by cases a <;> simp
  enumName_injective a b h := by cases a <;> cases b <;> simp_all

/-- The logical operators. -/
inductive LogicalOperator where
  | and
  | or
deriving DecidableEq, Repr

instance : MagicEnum LogicalOperator where
  values := [.and, .or]
  enumName
    | .and => "kAnd"
    | .or => "kOr"
  mem_values a := by cases a <;> simp
  enumName_injective a b h := by cases a <;> cases b <;> simp_all

/-- The components of dates and times. -/
inductive DatetimeComponent where
  | year
  | month
  | day
  | hour
  | minute
  | second
deriving DecidableEq, Repr

instance : MagicEnum DatetimeComponent where
  values := [.year, .month, .day, .hour, .minute, .second]
  enumName
    | .year => "kYear"
    | .month => "kMonth"
    | .day => "kDay"
    | .hour => "kHour"
    | .minute => "kMinute"
    | .second => "kSecond"
  mem_values a := by cases a <;> simp
  enumName_injective a b h := by cases a <;> cases b <;> simp_all

/-! ### Expressions -/

/-- The class of an expression, with the fields of the class. -/
inductive ExpressionNode (R : Type) where
  | aggregate (aggregateFunction : AggregateFunction)
  | stringAgg (sortColumnDefinitions : Option (List SortColumnDefinition))
  | arithmetic (arithmeticOperator : ArithmeticOperator)
  | case
  | cast (dataType : DataType)
  | extract (datetimeComponent : DatetimeComponent)
  | list
  | logical (logicalOperator : LogicalOperator)
  | pqpColumn (columnId : UInt32) (dataType : DataType) (isNullable : Bool) (columnName : Bytes)
  | binaryPredicate (condition : PredicateCondition)
  | between (condition : PredicateCondition)
  | inSet (condition : PredicateCondition)
  | isNull (condition : PredicateCondition)
  | unaryMinus
  | value (value : AllTypeVariant R)
deriving DecidableEq

/-- An expression. -/
inductive Expression (R : Type) where
  | node (n : ExpressionNode R) (arguments : List (Expression R))

variable {R : Type}

namespace ExpressionNode

/-- `GetExpressionType`. -/
def expressionType : ExpressionNode R → ExpressionType
  | aggregate _ | stringAgg _ => .aggregate
  | arithmetic _ => .arithmetic
  | case => .case
  | cast _ => .cast
  | extract _ => .extract
  | list => .list
  | logical _ => .logical
  | pqpColumn _ _ _ _ => .pqpColumn
  | binaryPredicate _ | between _ | inSet _ | isNull _ => .predicate
  | unaryMinus => .unaryMinus
  | value _ => .value

/-- The number of arguments of a class, if all of its expressions have the same number. -/
def argumentCount : ExpressionNode R → Option ℕ
  | list => none
  | pqpColumn _ _ _ _ | value _ => some 0
  | aggregate _ | stringAgg _ | cast _ | extract _ | isNull _ | unaryMinus => some 1
  | arithmetic _ | logical _ | binaryPredicate _ | inSet _ => some 2
  | case | between _ => some 3

end ExpressionNode

namespace Expression

/-- Induction on expressions: what holds of an expression if it holds of its arguments holds of all
expressions. -/
@[elab_as_elim, induction_eliminator]
lemma induction {P : Expression R → Prop}
    (node : ∀ (n : ExpressionNode R) (arguments : List (Expression R)),
      (∀ a ∈ arguments, P a) → P (.node n arguments)) (e : Expression R) : P e :=
  @Expression.rec R P (fun arguments => ∀ a ∈ arguments, P a) node
    (fun _ ha => absurd ha List.not_mem_nil)
    (fun _ _ hhead htail => List.forall_mem_cons.mpr ⟨hhead, htail⟩) e

/-- The class of the expression and its fields. -/
def root : Expression R → ExpressionNode R
  | node n _ => n

/-- `GetArguments`. -/
def arguments : Expression R → List (Expression R)
  | node _ arguments => arguments

mutual

/-- What an expression evaluates to, if `interpret` says what the classes make of their fields and
of what the arguments evaluate to. -/
def evaluate {β : Type} (interpret : ExpressionNode R → List β → β) : Expression R → β
  | node n arguments => interpret n (evaluateArguments interpret arguments)

/-- What the arguments evaluate to. -/
def evaluateArguments {β : Type} (interpret : ExpressionNode R → List β → β) :
    List (Expression R) → List β
  | [] => []
  | argument :: arguments => evaluate interpret argument :: evaluateArguments interpret arguments

end

lemma evaluateArguments_eq_map {β : Type} (interpret : ExpressionNode R → List β → β)
    (arguments : List (Expression R)) :
    evaluateArguments interpret arguments = arguments.map (evaluate interpret) := by
  induction arguments with
  | nil => rfl
  | cons argument arguments ih => rw [evaluateArguments, ih, List.map_cons]

lemma evaluate_node {β : Type} (interpret : ExpressionNode R → List β → β) (n : ExpressionNode R)
    (arguments : List (Expression R)) :
    evaluate interpret (node n arguments) =
      interpret n (arguments.map (evaluate interpret)) := by
  rw [evaluate, evaluateArguments_eq_map]

/-- The expressions are a free interpretation of their classes. -/
lemma evaluate_eq_self (e : Expression R) : e.evaluate node = e := by
  induction e with
  | node n arguments ih =>
    rw [evaluate_node]
    congr 1
    exact (List.map_congr_left ih).trans (List.map_id _)

end Expression

/-! ### Data types -/

/-- `IsFloatingPointDataType`. -/
def isFloatingPointDataType (t : DataType) : Bool := t = .float || t = .double

/-- `ExpressionCommonType`. -/
def expressionCommonType (lhs rhs : DataType) : Except Exception DataType := do
  assert (lhs ≠ .null || rhs ≠ .null) "Cannot deduce common type if both sides are NULL."
  assert ((lhs = .string) == (rhs = .string)) "Strings are only compatible with strings."
  -- NULL takes the type of the other side
  if lhs = .null then return rhs
  if rhs = .null then return lhs
  if lhs = .string then return .string
  if lhs = .double || rhs = .double then return .double
  if lhs = .long then return if isFloatingPointDataType rhs then .double else .long
  if rhs = .long then return if isFloatingPointDataType lhs then .double else .long
  if lhs = .float || rhs = .float then return .float
  return .int

/-- The `kAggregateDataType` of `AggregateTraits`. -/
def aggregateDataType (t : DataType) : AggregateFunction → DataType
  | .count | .countDistinct => .long
  | .min | .max | .any => t
  | .stringAgg => .string
  | .sum => match t with
    | .int | .long => .long
    | .float | .double => .double
    | _ => .null
  | .avg | .standardDeviationSample => match t with
    | .int | .long | .float | .double => .double
    | _ => .null

/-- `GetDataType` of an `AggregateExpression`. -/
def aggregateExpressionDataType (aggregateFunction : AggregateFunction)
    (argument : Except Exception DataType) : Except Exception DataType :=
  match aggregateFunction with
  | .count | .countDistinct => .ok .long
  | _ => do
    let t ← argument
    if t = .null then
      throw (.assertionFailed "Unsupported DataType cannot be resolved.")
    return aggregateDataType t aggregateFunction

/-- `DataTypeFromAllTypeVariant`. -/
def dataTypeFromAllTypeVariant (variant : AllTypeVariant R) : DataType :=
  match variant with
  | none => .null
  | some v => v.dataType

namespace ExpressionNode

/-- `GetDataType`, from the data types of the arguments.  An argument that there is not would be
read beyond the end of the vector. -/
def dataType : ExpressionNode R → List (Except Exception DataType) → Except Exception DataType
  | aggregate aggregateFunction, [argument] => aggregateExpressionDataType aggregateFunction argument
  | stringAgg _, [argument] => aggregateExpressionDataType .stringAgg argument
  | arithmetic _, [left, right] => do expressionCommonType (← left) (← right)
  | case, [_, thenType, otherwise] => do expressionCommonType (← thenType) (← otherwise)
  | cast dataType, _ => .ok dataType
  | extract _, _ => .ok .string
  | list, _ => .error (.assertionFailed
      "A ListExpression does not have a single type. Each of its elements might have a different type.")
  | logical _, _ => .ok .int
  | pqpColumn _ dataType _ _, _ => .ok dataType
  | binaryPredicate _, _ | between _, _ | inSet _, _ | isNull _, _ => .ok .int
  | unaryMinus, [argument] => argument
  | value v, _ => .ok (dataTypeFromAllTypeVariant v)
  | _, _ => .error .undefinedBehavior

end ExpressionNode

/-- `GetDataType`. -/
def Expression.getDataType (e : Expression R) : Except Exception DataType :=
  e.evaluate ExpressionNode.dataType

/-! ### Expressions that can be constructed -/

/-- What the constructors assert, and that literals of single precision are single-precision
numbers. -/
def ExpressionNode.Admits [FloatingPoint R] (arguments : List (Expression R)) :
    ExpressionNode R → Prop
  | binaryPredicate condition => condition.isBinary
  | between condition => condition.isBetween
  | inSet condition => condition.isIn
  | isNull condition => condition.isNullTest
  | unaryMinus => ∀ argument ∈ arguments, ∃ t, argument.getDataType = .ok t ∧ t ≠ .string
  | value (some (.float x)) => FloatingPoint.toSingle x = x
  | _ => True

/-- The expressions that can be constructed. -/
inductive Expression.Constructible [FloatingPoint R] : Expression R → Prop
  | node (n : ExpressionNode R) (arguments : List (Expression R))
      (hcount : ∀ count, n.argumentCount = some count → arguments.length = count)
      (hnode : n.Admits arguments) (harguments : ∀ a ∈ arguments, Constructible a) :
      Constructible (.node n arguments)

end Skyrise

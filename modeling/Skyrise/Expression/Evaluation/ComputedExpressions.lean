/-
Expressions that are no predicates.

Arithmetic, CASE, casts, EXTRACT and the unary minus make a result of the results of
their arguments.  Sums, differences, products, casts and the unary minus are computed
from the stored values also where a flag says NULL, and the flags are those of the
arguments.  Quotients and remainders read the views of their operands.
-/
import Skyrise.Expression.Evaluation.ExpressionEvaluator
import Skyrise.Expression.Evaluation.Functors

namespace Skyrise

variable {R : Type} [FloatingPoint R]

/-- The conversions of the libraries: the integral part of a floating-point number, and between
values and texts `boost::lexical_cast` and `boost::conversion::try_lexical_convert`. -/
structure Conversions (R : Type) where
  truncate : R → ℤ
  lexicalCast : Value R → List UInt8
  tryLexicalConvert : DataType → List UInt8 → Option (Value R)

variable (conversions : Conversions R)

/-- What has no value is undefined. -/
def orUndefined {α : Type} : Except ArithmeticFault α → Except Exception α
  | .ok a => .ok a
  | .error .divisionByZero => .error .divisionByZero
  | .error _ => .error .undefinedBehavior

/-! ### Arithmetic -/

/-- A sum, a difference or a product. -/
def sumOrProduct {α : Type} [Add α] [Sub α] [Mul α] (arithmeticOperator : ArithmeticOperator)
    (a b : α) : α :=
  match arithmeticOperator with
  | .addition => a + b
  | .subtraction => a - b
  | _ => a * b

/-- `std::plus`, `std::minus` and `std::multiplies` for two numbers of one type.  Signed integers
must not overflow. -/
def arithmeticFunctor (arithmeticOperator : ArithmeticOperator) :
    Value R → Value R → Except Exception (Value R)
  | .int a, .int b =>
    let z := sumOrProduct arithmeticOperator a.toInt b.toInt
    if -2 ^ 31 ≤ z ∧ z < 2 ^ 31 then .ok (.int (Int32.ofInt z)) else .error .undefinedBehavior
  | .long a, .long b =>
    let z := sumOrProduct arithmeticOperator a.toInt b.toInt
    if -2 ^ 63 ≤ z ∧ z < 2 ^ 63 then .ok (.long (Int64.ofInt z)) else .error .undefinedBehavior
  | .float a, .float b =>
    .ok (.float (FloatingPoint.toSingle (sumOrProduct arithmeticOperator a b)))
  | .double a, .double b => .ok (.double (sumOrProduct arithmeticOperator a b))
  | a, _ => .ok a

/-- `operator()` of a `StlArithmeticFunctorWrapper`. -/
def stlArithmeticFunctor (arithmeticOperator : ArithmeticOperator)
    (resultType leftType rightType : DataType) (a b : Value R) : Except Exception (Value R) :=
  if resultType = .null ∨ leftType = .null ∨ rightType = .null then .ok resultType.defaultValue
  else do
    let commonType := commonType leftType rightType
    let v ← arithmeticFunctor arithmeticOperator (a.castTo commonType) (b.castTo commonType)
    orUndefined (staticCast conversions.truncate resultType v)

/-- `Supports` of the arithmetic functors. -/
def supportsArithmetic (resultType leftType rightType : DataType) : Bool :=
  resultType ≠ .string && leftType ≠ .string && rightType ≠ .string

/-- `EvaluateBinaryWithDefaultNullLogic` with an arithmetic functor. -/
def evaluateArithmeticWithDefaultNullLogic (arithmeticOperator : ArithmeticOperator) (t : DataType)
    (l r : ExpressionResult R) : Except Exception (ExpressionResult R) :=
  if supportsArithmetic t l.dataType r.dataType then do
    let values ← (List.range (resultSize l.size r.size)).mapM fun i =>
      -- the index of a literal is always the first one
      let li := if l.isLiteral && !r.isLiteral then 0 else i
      let ri := if r.isLiteral && !l.isLiteral then 0 else i
      stlArithmeticFunctor conversions arithmeticOperator t l.dataType r.dataType
        (l.values.getD li l.dataType.defaultValue) (r.values.getD ri r.dataType.defaultValue)
    return ⟨t, values, evaluateDefaultNullLogic l.nulls r.nulls⟩
  else throw (.assertionFailed "BinaryOperation not supported on the requested DataTypes.")

/-- `EvaluateBinaryWithFunctorBasedNullLogic` with an arithmetic functor. -/
def evaluateArithmeticWithFunctorBasedNullLogic
    (functor : DataType → DataType → DataType → Value R → Bool → Value R → Bool →
      Except ArithmeticFault (Value R × Bool)) (t : DataType) (l r : ExpressionResult R) :
    Except Exception (ExpressionResult R) :=
  if supportsArithmetic t l.dataType r.dataType then do
    let cells ← (List.range (resultSize l.asView.size r.asView.size)).mapM fun i => do
      let leftValue ← l.asView.value i
      let leftNull ← l.asView.isNull i
      let rightValue ← r.asView.value i
      let rightNull ← r.asView.isNull i
      orUndefined (functor t l.dataType r.dataType leftValue leftNull rightValue rightNull)
    return ⟨t, cells.map Prod.fst, cells.map Prod.snd⟩
  else throw (.assertionFailed "BinaryOperation not supported on the requested DataTypes.")

/-- `EvaluateArithmeticExpression`. -/
def evaluateArithmeticExpression (arithmeticOperator : ArithmeticOperator) (t : DataType)
    (l r : ExpressionResult R) : Except Exception (ExpressionResult R) :=
  match arithmeticOperator with
  | .division =>
    evaluateArithmeticWithFunctorBasedNullLogic (divisionEvaluator conversions.truncate) t l r
  | .modulo =>
    evaluateArithmeticWithFunctorBasedNullLogic (moduloEvaluator conversions.truncate) t l r
  | arithmeticOperator =>
    evaluateArithmeticWithDefaultNullLogic conversions arithmeticOperator t l r

/-! ### CASE -/

/-- `ToValue`. -/
def toValue (t valueType : DataType) (v : Value R) : Except Exception (Value R) :=
  if valueType = .null then .ok t.defaultValue
  else orUndefined (staticCast conversions.truncate t v)

/-- `CaseEvaluator::Supports`. -/
def supportsCase (resultType thenType elseType : DataType) : Bool :=
  ((thenType = .string) == (elseType = .string)) && ((thenType = .string) == (resultType = .string))

/-- `EvaluateCaseExpression`. -/
def evaluateCaseExpression (t : DataType) (when thenResult elseResult : ExpressionResult R) :
    Except Exception (ExpressionResult R) :=
  if supportsCase t thenResult.dataType elseResult.dataType then do
    let resultSize := if when.size = 0 ∨ thenResult.size = 0 ∨ elseResult.size = 0 then 0
      else max when.size (max thenResult.size elseResult.size)
    let cells ← (List.range resultSize).mapM fun i => do
      let result := if (when.value i).toBool && !when.isNull i then thenResult else elseResult
      let v ← toValue conversions t result.dataType (result.value i)
      return (v, result.isNull i)
    return ⟨t, cells.map Prod.fst, cells.map Prod.snd⟩
  else throw (.assertionFailed "Illegal operands for CaseExpression.")

/-! ### Casts -/

/-- Casting a value. -/
def castValue (t argumentType : DataType) (v : Value R) : Except Exception (Value R) :=
  if t = .null ∨ argumentType = .null then .ok t.defaultValue
  else if t = .string then .ok (.string (conversions.lexicalCast v))
  else
    match v with
    -- an illegal conversion yields zero
    | .string s => .ok ((conversions.tryLexicalConvert t s).getD t.defaultValue)
    | v => orUndefined (staticCast conversions.truncate t v)

/-- `EvaluateCastExpression`. -/
def evaluateCastExpression (t : DataType) (argument : ExpressionResult R) :
    Except Exception (ExpressionResult R) := do
  let values ← (List.range argument.size).mapM fun i =>
    castValue conversions t argument.dataType (argument.value i)
  return ⟨t, values, argument.nulls⟩

/-! ### EXTRACT -/

/-- The offset and the length of a component in a date. -/
def datetimeRange : DatetimeComponent → Except Exception (ℕ × ℕ)
  | .year => .ok (0, 4)
  | .month => .ok (5, 2)
  | .day => .ok (8, 2)
  | .hour | .minute | .second =>
    .error (.assertionFailed "Hour, Minute, and Second not available in String Datetimes.")

/-- `substr`. -/
def substr (offset count : ℕ) : Value R → Except Exception (Value R)
  | .string s =>
    if s.length < offset then .error .outOfRange else .ok (.string ((s.drop offset).take count))
  | v => .ok v

/-- `EvaluateExtractExpression`, with `EvaluateExtractSubstr`: what is NULL stays empty. -/
def evaluateExtractExpression (datetimeComponent : DatetimeComponent)
    (result : ExpressionResult R) : Except Exception (ExpressionResult R) := do
  let (offset, count) ← datetimeRange datetimeComponent
  let values ← (List.range result.size).mapM fun i =>
    if i < result.asView.size then do
      let null ← result.asView.isNull i
      if null then return .string []
      else substr offset count (← result.asView.value i)
    else return .string []
  return ⟨.string, values, result.nulls⟩

/-! ### The unary minus -/

/-- `-`. -/
def negate : Value R → Except Exception (Value R)
  | .int a => if a = Int32.minValue then .error .undefinedBehavior else .ok (.int (-a))
  | .long a => if a = Int64.minValue then .error .undefinedBehavior else .ok (.long (-a))
  | .float a => .ok (.float (-a))
  | .double a => .ok (.double (-a))
  | .string s => .ok (.string s)

/-- `EvaluateUnaryMinusExpression`. -/
def evaluateUnaryMinusExpression (t : DataType) (argument : ExpressionResult R) :
    Except Exception (ExpressionResult R) :=
  if argument.dataType ≠ .string ∧ t = argument.dataType then do
    let values ← argument.values.mapM negate
    return ⟨t, values, argument.nulls⟩
  else throw (.assertionFailed
    "Cannot negate a strings; cannot negate an argument to a different type.")

/-! ### All of them -/

/-- What an expression that is no predicate makes of the results of its arguments. -/
def evaluateComputedExpression (node : ExpressionNode R) (t : DataType)
    (arguments : List (ExpressionResult R)) : Except Exception (ExpressionResult R) :=
  match node, arguments with
  | .arithmetic arithmeticOperator, [l, r] =>
    evaluateArithmeticExpression conversions arithmeticOperator t l r
  | .case, [when, thenResult, elseResult] =>
    evaluateCaseExpression conversions t when thenResult elseResult
  | .cast _, [argument] => evaluateCastExpression conversions t argument
  | .extract datetimeComponent, [result] => evaluateExtractExpression datetimeComponent result
  | .unaryMinus, [argument] => evaluateUnaryMinusExpression t argument
  | _, _ => .error .undefinedBehavior

end Skyrise

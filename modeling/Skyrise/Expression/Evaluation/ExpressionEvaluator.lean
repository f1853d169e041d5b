/-
Evaluating expressions on a chunk.

`EvaluateExpressionToResult` computes a value for every row, or one value for all
rows, with flags for NULL that are missing if there is no NULL and a single one if it
is the same for all rows.  `EvaluateExpressionToPositionList` computes the positions
of the rows that a predicate selects.

Evaluation has no effect but to store results for later requests, and a column, a
literal or a predicate is only requested with its own type, so here an expression is
evaluated where it is requested.  What arithmetic expressions, casts and the other
expressions that are no predicates evaluate to is a parameter.
-/
import Skyrise.Expression.AbstractExpression
import Skyrise.Storage.Table
import Skyrise.Utils.Assert
import Skyrise.Utils.SortedSets

namespace Skyrise

variable {R : Type}

/-! ### Results -/

/-- `ExpressionResult<T>`.  The value of the type `NullValue` is the default value. -/
structure ExpressionResult (R : Type) where
  /-- The type `T`. -/
  dataType : DataType
  /-- A value for each row, or one for all. -/
  values : List (Value R)
  /-- A flag for each value, one for all, or none if no value is NULL. -/
  nulls : List Bool := []
deriving DecidableEq, Repr

namespace ExpressionResult

/-- `Size`. -/
def size (r : ExpressionResult R) : ℕ := r.values.length

/-- `IsLiteral`. -/
def isLiteral (r : ExpressionResult R) : Bool := r.size == 1

/-- `IsNullable`. -/
def isNullable (r : ExpressionResult R) : Bool := !r.nulls.isEmpty

/-- `Value`. -/
def value [Zero R] (r : ExpressionResult R) (index : ℕ) : Value R :=
  r.values.getD (min index (r.size - 1)) r.dataType.defaultValue

/-- `IsNull`. -/
def isNull (r : ExpressionResult R) (index : ℕ) : Bool :=
  if r.nulls.isEmpty then false else r.nulls.getD (min index (r.nulls.length - 1)) false

end ExpressionResult

/-- The views that a result can have. -/
inductive ExpressionResultView (R : Type) where
  | literal (value : Value R) (null : Bool)
  | nonNullSeries (values : List (Value R))
  | nullableSeries (values : List (Value R)) (nulls : List Bool)

/-- `AsView`. -/
def ExpressionResult.asView [Zero R] (r : ExpressionResult R) : ExpressionResultView R :=
  if r.size = 1 then
    .literal (r.values.headD r.dataType.defaultValue) (r.isNullable && r.nulls.headD false)
  else if r.nulls.length = 1 && r.nulls.headD false then .literal r.dataType.defaultValue true
  else if !r.isNullable then .nonNullSeries r.values
  else .nullableSeries r.values r.nulls

namespace ExpressionResultView

/-- `Size`. -/
def size : ExpressionResultView R → ℕ
  | literal _ _ => 1
  | nonNullSeries values | nullableSeries values _ => values.length

/-- `IsNullable`. -/
def isNullable : ExpressionResultView R → Bool
  | literal _ null => null
  | nonNullSeries _ => false
  | nullableSeries _ _ => true

/-- `Value`. -/
def value : ExpressionResultView R → ℕ → Except Exception (Value R)
  | literal value _, _ => .ok value
  | nonNullSeries values, index | nullableSeries values _, index =>
    match values[index]? with
    | some value => .ok value
    | none => .error .undefinedBehavior

/-- `IsNull`, which does not check that there is a flag. -/
def isNull : ExpressionResultView R → ℕ → Except Exception Bool
  | literal _ null, _ => .ok null
  | nonNullSeries _, _ => .ok false
  | nullableSeries _ nulls, index =>
    match nulls[index]? with
    | some null => .ok null
    | none => .error .undefinedBehavior

variable {values : List (Value R)} {nulls : List Bool} {index : ℕ}

lemma value_nonNullSeries_of_lt (h : index < values.length) (default : Value R) :
    (nonNullSeries values).value index = .ok (values.getD index default) := by
  rw [value, List.getElem?_eq_getElem h, List.getD_eq_getElem?_getD, List.getElem?_eq_getElem h]
  rfl

lemma value_nullableSeries_of_lt (h : index < values.length) (default : Value R) :
    (nullableSeries values nulls).value index = .ok (values.getD index default) := by
  rw [value, List.getElem?_eq_getElem h, List.getD_eq_getElem?_getD, List.getElem?_eq_getElem h]
  rfl

lemma isNull_nullableSeries_of_lt (h : index < nulls.length) :
    (nullableSeries values nulls).isNull index = .ok (nulls.getD index false) := by
  rw [isNull, List.getElem?_eq_getElem h, List.getD_eq_getElem?_getD, List.getElem?_eq_getElem h]
  rfl

end ExpressionResultView

/-- `ResultSize`. -/
def resultSize (left right : ℕ) : ℕ := if left = 0 ∨ right = 0 then 0 else max left right

/-- `EvaluateDefaultNullLogic`. -/
def evaluateDefaultNullLogic (left right : List Bool) : List Bool :=
  if left.length = right.length then List.zipWith (· || ·) left right
  else if right.length < left.length then
    if right.headD false then [true] else left
  else if left.headD false then [true] else right

/-- The value that a condition evaluates to. -/
def Value.ofBool (b : Bool) : Value R := .int (if b then 1 else 0)

/-! ### Functors -/

/-- `std::common_type_t` of types that can be compared. -/
def commonType (left right : DataType) : DataType :=
  if left = .string then .string
  else if left = .double ∨ right = .double then .double
  else if left = .float ∨ right = .float then .float
  else if left = .long ∨ right = .long then .long
  else .int

/-- `static_cast` to a common type. -/
def Value.castTo [FloatingPoint R] (t : DataType) : Value R → Value R
  | .int v =>
    match t with
    | .long => .long (Int64.ofInt v.toInt)
    | .float => .float (FloatingPoint.toSingle (FloatingPoint.ofInt v.toInt))
    | .double => .double (FloatingPoint.ofInt v.toInt)
    | _ => .int v
  | .long v =>
    match t with
    | .float => .float (FloatingPoint.toSingle (FloatingPoint.ofInt v.toInt))
    | .double => .double (FloatingPoint.ofInt v.toInt)
    | _ => .long v
  | .float v =>
    match t with
    | .double => .double v
    | _ => .float v
  | .double v => .double v
  | .string s => .string s

/-- The comparisons that are left when larger and smaller are flipped. -/
inductive Comparison where
  | equals
  | notEquals
  | lessThan
  | lessThanEquals
deriving DecidableEq, Repr

namespace Comparison

variable [FloatingPoint R]

/-- `std::equal_to`, `std::not_equal_to`, `std::less` and `std::less_equal`. -/
def holds (left right : Value R) : Comparison → Bool
  | equals => left = right
  | notEquals => left ≠ right
  | lessThan => left < right
  | lessThanEquals => left ≤ right

/-- `Supports` of a `StlComparisonFunctorWrapper` with results of the type `int`. -/
def supports (left right : DataType) : Bool :=
  (left ≠ .string || right = .null || right = .string) &&
    (right ≠ .string || left = .null || left = .string)

/-- `operator()` of a `StlComparisonFunctorWrapper`. -/
def evaluate (c : Comparison) (leftType rightType : DataType) (left right : Value R) : Bool :=
  if leftType = .null ∨ rightType = .null then false
  else c.holds (left.castTo (commonType leftType rightType))
    (right.castTo (commonType leftType rightType))

end Comparison

/-- The condition after flipping, and whether the operands are flipped. -/
def comparisonOf : PredicateCondition → Option (Comparison × Bool)
  | .equals => some (.equals, false)
  | .notEquals => some (.notEquals, false)
  | .lessThan => some (.lessThan, false)
  | .lessThanEquals => some (.lessThanEquals, false)
  | .greaterThan => some (.lessThan, true)
  | .greaterThanEquals => some (.lessThanEquals, true)
  | _ => none

/-- `IsLowerInclusiveBetween`. -/
def isLowerInclusiveBetween (condition : PredicateCondition) : Bool :=
  condition = .betweenInclusive || condition = .betweenUpperExclusive

/-- `IsUpperInclusiveBetween`. -/
def isUpperInclusiveBetween (condition : PredicateCondition) : Bool :=
  condition = .betweenInclusive || condition = .betweenLowerExclusive

/-- The condition for the lower bound in `RewriteBetweenExpression`. -/
def lowerCondition (condition : PredicateCondition) : PredicateCondition :=
  if isLowerInclusiveBetween condition then .greaterThanEquals else .greaterThan

/-- The condition for the upper bound in `RewriteBetweenExpression`. -/
def upperCondition (condition : PredicateCondition) : PredicateCondition :=
  if isUpperInclusiveBetween condition then .lessThanEquals else .lessThan

/-- `ToBool`. -/
def Value.toBool [DecidableEq R] (v : Value R) : Bool := v ≠ .int 0

/-- `TernaryOrEvaluator` and `TernaryAndEvaluator`: the value and whether it is NULL. -/
def ternary (logicalOperator : LogicalOperator) (left leftNull right rightNull : Bool) :
    Bool × Bool :=
  let leftIsTrue := !leftNull && left
  let rightIsTrue := !rightNull && right
  match logicalOperator with
  | .or => (leftIsTrue || rightIsTrue, (leftNull || rightNull) && !(leftIsTrue || rightIsTrue))
  | .and => (leftIsTrue && rightIsTrue,
      leftNull && rightNull || left && rightNull || right && leftNull)

/-! ### Evaluation to a result -/

section

variable [FloatingPoint R]

/-- `EvaluateColumnExpression`, with `MaterializeSegmentIfNotYetMaterialized`: the flags of a column
that is declared nullable are read from the segment, which may not have any. -/
def evaluateColumnExpression (table : Table R) (chunk : Chunk R) (columnId : ℕ) (t : DataType) :
    Except Exception (ExpressionResult R) :=
  match chunk.segments[columnId]? with
  | none => .error .outOfRange
  | some segment => do
    assert (segment.dataType = t) "Cannot evaluate segment to different type."
    if table.columnIsNullable columnId then
      match segment.nullValues with
      | some nulls => return ⟨t, segment.values, nulls⟩
      | none => throw .undefinedBehavior
    else return ⟨t, segment.values, []⟩

/-- `EvaluateValueOrCorrelatedParameterExpression`. -/
def evaluateValueExpression (v : AllTypeVariant R) (t : DataType) :
    Except Exception (ExpressionResult R) :=
  match v with
  | none => .ok ⟨t, [t.defaultValue], [true]⟩
  | some v => do
    assert (v.dataType = t) "Cannot evaluate ValueExpression to requested type Result."
    return ⟨t, [v], []⟩

/-- `ResolveToExpressionResult`. -/
def resolveToExpressionResult (e : Expression R)
    (request : DataType → Except Exception (ExpressionResult R)) :
    Except Exception (ExpressionResult R) := do
  assert (e.root.expressionType ≠ .list) "Cannot resolve ListExpression to ExpressionResult."
  let t ← e.getDataType
  if t = .null then return ⟨.null, [DataType.null.defaultValue], [true]⟩
  else request t

/-- `EvaluateBinaryWithDefaultNullLogic`. -/
def evaluateBinaryWithDefaultNullLogic (c : Comparison)
    (left right : Except Exception (ExpressionResult R)) :
    Except Exception (ExpressionResult R) := do
  let l ← left
  let r ← right
  if Comparison.supports l.dataType r.dataType then
    let values := (List.range (resultSize l.size r.size)).map fun i =>
      -- the index of a literal is always the first one
      let li := if l.isLiteral && !r.isLiteral then 0 else i
      let ri := if r.isLiteral && !l.isLiteral then 0 else i
      Value.ofBool (c.evaluate l.dataType r.dataType (l.values.getD li l.dataType.defaultValue)
        (r.values.getD ri r.dataType.defaultValue))
    return ⟨.int, values, evaluateDefaultNullLogic l.nulls r.nulls⟩
  else throw (.assertionFailed "BinaryOperation not supported on the requested DataTypes.")

/-- `EvaluateBinaryPredicateExpression`, where the operands have been flipped if they are. -/
def evaluateBinaryPredicateExpression (condition : PredicateCondition)
    (left right : Except Exception (ExpressionResult R)) :
    Except Exception (ExpressionResult R) :=
  match comparisonOf condition with
  | some (c, flip) => evaluateBinaryWithDefaultNullLogic c (if flip then right else left)
      (if flip then left else right)
  | none => .error (.assertionFailed "Predicate kLike and kNotLike not supported yet.")

/-- `kIsLogicalOperand`. -/
def isLogicalOperand (t : DataType) : Bool := t = .int || t = .null

/-- `EvaluateLogicalExpression`. -/
def evaluateLogicalExpression (logicalOperator : LogicalOperator)
    (left right : Except Exception (ExpressionResult R)) :
    Except Exception (ExpressionResult R) := do
  let l ← left
  let r ← right
  if isLogicalOperand l.dataType && isLogicalOperand r.dataType then
    let cells ← (List.range (resultSize l.asView.size r.asView.size)).mapM fun i => do
      let leftValue ← l.asView.value i
      let leftNull ← l.asView.isNull i
      let rightValue ← r.asView.value i
      let rightNull ← r.asView.isNull i
      return ternary logicalOperator leftValue.toBool leftNull rightValue.toBool rightNull
    return ⟨.int, cells.map fun cell => .ofBool cell.1, cells.map Prod.snd⟩
  else throw (.assertionFailed "BinaryOperation not supported on the requested DataTypes.")

/-- `EvaluateIsNullExpression`. -/
def evaluateIsNullExpression (condition : PredicateCondition)
    (operand : Except Exception (ExpressionResult R)) :
    Except Exception (ExpressionResult R) := do
  let result ← operand
  let nulls ← (List.range result.asView.size).mapM result.asView.isNull
  return ⟨.int, nulls.map fun null => .ofBool (if condition = .isNull then null else !null), []⟩

/-- An element of the list of an `InExpression`, and what is requested of it. -/
abbrev InElement (R : Type) := Expression R × (DataType → Except Exception (ExpressionResult R))

/-- The value of a literal. -/
def literalOf (e : Expression R) : Option (Value R) :=
  match e.root with
  | .value v => v
  | _ => none

/-- Whether an element is a literal of a type. -/
def isValueOfType (t : DataType) (e : Expression R) : Bool :=
  match e.root with
  | .value (some v) => v.dataType = t
  | _ => false

/-- `RewriteInListExpression`, evaluated, for the elements that can be compared. -/
def evaluateRewrittenInExpression (negated : Bool) (value : Except Exception (ExpressionResult R)) :
    List (InElement R) → Except Exception (ExpressionResult R)
  | [] => .ok ⟨.int, [.int 0], []⟩
  | first :: rest =>
    let compare : InElement R → Except Exception (ExpressionResult R) := fun element =>
      evaluateBinaryPredicateExpression (if negated then .notEquals else .equals) value
        (resolveToExpressionResult element.1 element.2)
    rest.foldl (fun result element =>
      evaluateLogicalExpression (if negated then .and else .or) result (compare element))
      (compare first)

/-- `EvaluateInExpression` with a list. -/
def evaluateInExpression (negated : Bool) (value : Expression R)
    (request : DataType → Except Exception (ExpressionResult R))
    (elements : List (InElement R)) : Except Exception (ExpressionResult R) := do
  if elements.isEmpty then return ⟨.int, [.ofBool negated], []⟩
  let t ← value.getDataType
  if t = .null then return ⟨.int, [.int 0], [true]⟩
  let types ← elements.mapM fun element => element.1.getDataType
  let compatible := ((elements.zip types).filter fun element =>
    (element.2 = .string) == (t = .string)).map Prod.fst
  if compatible.isEmpty then return ⟨.int, [.ofBool negated], []⟩
  if elements.all fun element => isValueOfType t element.1 then
    let result ← resolveToExpressionResult value request
    let rightValues := compatible.filterMap fun element =>
      match element.1.root with
      | .value v => v
      | _ => none
    let cells ← (List.range result.asView.size).mapM fun i => do
      let null ← if result.asView.isNullable then result.asView.isNull i else .ok false
      let v ← result.asView.value i
      return (if null then negated else if v ∈ rightValues then !negated else negated, null)
    return ⟨.int, cells.map fun cell => .ofBool cell.1,
      if result.asView.isNullable then cells.map Prod.snd else []⟩
  else evaluateRewrittenInExpression negated (resolveToExpressionResult value request) compatible

variable (computed : Expression R → DataType → Except Exception (ExpressionResult R))
  (table : Table R) (chunkId : ℕ)

mutual

/-- `EvaluateExpressionToResult`; `computed` evaluates what is no predicate. -/
def evaluateExpressionToResult : Expression R → DataType → Except Exception (ExpressionResult R)
  | .node (.pqpColumn columnId _ _ _) _, t =>
    evaluateColumnExpression table (table.getChunk chunkId) columnId.toNat t
  | .node (.value v) _, t => evaluateValueExpression v t
  | .node (.logical logicalOperator) [left, right], t => do
    assert (t = .int) "LogicalExpression can only output bool."
    evaluateLogicalExpression logicalOperator
      (resolveToExpressionResult left (evaluateExpressionToResult left))
      (resolveToExpressionResult right (evaluateExpressionToResult right))
  | .node (.binaryPredicate condition) [left, right], t => do
    assert (t = .int) "Can only evaluate predicates to bool."
    evaluateBinaryPredicateExpression condition
      (resolveToExpressionResult left (evaluateExpressionToResult left))
      (resolveToExpressionResult right (evaluateExpressionToResult right))
  | .node (.between condition) [value, lower, upper], t => do
    assert (t = .int) "Can only evaluate predicates to bool."
    let request := resolveToExpressionResult value (evaluateExpressionToResult value)
    -- `RewriteBetweenExpression`
    evaluateLogicalExpression .and
      (evaluateBinaryPredicateExpression (lowerCondition condition) request
        (resolveToExpressionResult lower (evaluateExpressionToResult lower)))
      (evaluateBinaryPredicateExpression (upperCondition condition) request
        (resolveToExpressionResult upper (evaluateExpressionToResult upper)))
  | .node (.inSet condition) [value, .node .list elements], t => do
    assert (t = .int) "Can only evaluate predicates to bool."
    evaluateInExpression (condition = .notIn) value (evaluateExpressionToResult value)
      (requestElements elements)
  | .node (.inSet condition) [value, set], t => do
    assert (t = .int) "Can only evaluate predicates to bool."
    evaluateInExpression (condition = .notIn) value (evaluateExpressionToResult value)
      [(set, evaluateExpressionToResult set)]
  | .node (.isNull condition) [operand], t => do
    assert (t = .int) "Can only evaluate predicates to bool."
    evaluateIsNullExpression condition
      (resolveToExpressionResult operand (evaluateExpressionToResult operand))
  | e, t => computed e t

/-- What is requested of the elements of a list. -/
def requestElements : List (Expression R) → List (InElement R)
  | [] => []
  | e :: elements => (e, evaluateExpressionToResult e) :: requestElements elements

end

lemma requestElements_eq (elements : List (Expression R)) :
    requestElements computed table chunkId elements =
      elements.map fun e => (e, evaluateExpressionToResult computed table chunkId e) := by
  induction elements with
  | nil => rw [requestElements, List.map_nil]
  | cons e elements ih => rw [requestElements, ih, List.map_cons]

/-! ### Evaluation to a position list -/

/-- What is requested of an operand by the class of its type. -/
def resolve (e : Expression R) : Except Exception (ExpressionResult R) :=
  resolveToExpressionResult e (evaluateExpressionToResult computed table chunkId e)

/-- The positions of the rows with some offsets. -/
def positionsOf (p : ℕ → Bool) : List RowId :=
  ((List.range (table.getChunk chunkId).size).filter p).map (RowId.mk chunkId)

/-- The positions of the rows at which a comparison holds, where the operands have been flipped if
they are. -/
def compareToPositionList (c : Comparison) (left right : Except Exception (ExpressionResult R)) :
    Except Exception (List RowId) := do
  let l ← left
  let r ← right
  if Comparison.supports l.dataType r.dataType then
    return positionsOf table chunkId fun i => !(l.isNull i || r.isNull i) &&
      c.evaluate l.dataType r.dataType (l.value i) (r.value i)
  else throw (.assertionFailed "Argument types not compatible.")

/-- The positions of the rows at which a condition holds. -/
def comparisonToPositionList (condition : PredicateCondition)
    (left right : Except Exception (ExpressionResult R)) : Except Exception (List RowId) :=
  match comparisonOf condition with
  | some (c, flip) => compareToPositionList table chunkId c (if flip then right else left)
      (if flip then left else right)
  | none => .error (.assertionFailed "PredicateCondition should be handled in different function.")

/-- The positions of the rows at which a result is neither NULL nor zero. -/
def scanToPositionList (request : Except Exception (ExpressionResult R)) :
    Except Exception (List RowId) := do
  let result ← request
  let cells ← (List.range (table.getChunk chunkId).size).mapM fun i => do
    let value ← result.asView.value i
    let null ← if value.toBool then result.asView.isNull i else .ok false
    return value.toBool && !null
  return positionsOf table chunkId fun i => cells.getD i false

/-- The positions of the rows at which an operand is NULL, or is not. -/
def isNullToPositionList (condition : PredicateCondition)
    (operand : Except Exception (ExpressionResult R)) :
    Except Exception (List RowId) := do
  let result ← operand
  let nulls ← (List.range (table.getChunk chunkId).size).mapM result.asView.isNull
  return positionsOf table chunkId fun i =>
    if condition = .isNull then nulls.getD i false else !nulls.getD i false

/-- `EvaluateExpressionToPositionList`. -/
def evaluateExpressionToPositionList : Expression R → Except Exception (List RowId)
  | .node (.binaryPredicate condition) [left, right] =>
    if condition = .like ∨ condition = .notLike then
      scanToPositionList table chunkId (evaluateExpressionToResult computed table chunkId
        (.node (.binaryPredicate condition) [left, right]) .int)
    else comparisonToPositionList table chunkId condition (resolve computed table chunkId left)
      (resolve computed table chunkId right)
  | .node (.between condition) [value, lower, upper] => do
    -- the expression that `RewriteBetweenExpression` returns is a conjunction
    let left ← comparisonToPositionList table chunkId (lowerCondition condition)
      (resolve computed table chunkId value) (resolve computed table chunkId lower)
    let right ← comparisonToPositionList table chunkId (upperCondition condition)
      (resolve computed table chunkId value) (resolve computed table chunkId upper)
    return SortedSets.intersection left right
  | .node (.isNull condition) [operand] =>
    isNullToPositionList table chunkId condition (resolve computed table chunkId operand)
  | .node (.inSet condition) arguments =>
    scanToPositionList table chunkId (evaluateExpressionToResult computed table chunkId
      (.node (.inSet condition) arguments) .int)
  | .node (.logical logicalOperator) [left, right] => do
    let leftPositions ← evaluateExpressionToPositionList left
    let rightPositions ← evaluateExpressionToPositionList right
    match logicalOperator with
    | .and => return SortedSets.intersection leftPositions rightPositions
    | .or => return SortedSets.union leftPositions rightPositions
  | .node (.value v) _ =>
    match v with
    | some (.int b) => .ok (positionsOf table chunkId fun _ => b ≠ 0)
    | _ => .error (.assertionFailed "Cannot evaluate non-boolean literal to PositionList.")
  | _ => .error (.assertionFailed "Expression type cannot be evaluated to PositionList.")

end

end Skyrise

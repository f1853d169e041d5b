/-
Predicates for Arrow.

A predicate is translated to an expression of Arrow, with which a reader of Parquet
files filters the rows.  Arrow itself is a parameter: a function for each function of
it that the translation uses.
-/
import Skyrise.Expression.Evaluation.ExpressionEvaluator
import Skyrise.Json.Text

namespace Skyrise

variable {R : Type}

/-- The comparisons of Arrow. -/
inductive ArrowFunction where
  | equal
  | notEqual
  | less
  | lessEqual
  | greater
  | greaterEqual
deriving DecidableEq, Repr

/-- `arrow::compute::Expression`, as far as it is used. -/
inductive ArrowExpression (R : Type) where
  | fieldRef (name : Bytes)
  | literal (value : Value R)
  | compare (f : ArrowFunction) (left right : ArrowExpression R)
  | and (left right : ArrowExpression R)
  | or (left right : ArrowExpression R)
  | not (operand : ArrowExpression R)
  | isNull (operand : ArrowExpression R) (nanIsNull : Bool)

/-! ### The translation -/

/-- The function for a condition in `ConvertAbstractPredicateExpressionToArrowExpression`. -/
def arrowFunctionOf : PredicateCondition → Option ArrowFunction
  | .equals => some .equal
  | .notEquals => some .notEqual
  | .lessThan => some .less
  | .lessThanEquals => some .lessEqual
  | .greaterThan => some .greater
  | .greaterThanEquals => some .greaterEqual
  | _ => none

/-- The functions for the lower and for the upper bound. -/
def arrowBoundFunctionsOf : PredicateCondition → Option (ArrowFunction × ArrowFunction)
  | .betweenInclusive => some (.greaterEqual, .lessEqual)
  | .betweenLowerExclusive => some (.greater, .lessEqual)
  | .betweenUpperExclusive => some (.greaterEqual, .less)
  | .betweenExclusive => some (.greater, .less)
  | _ => none

/-- `Fail` for a condition that is not supported. -/
def unsupportedCondition : Exception := .assertionFailed
  "Unsupported predicate condition (cannot be one of kIn,kNotIn, kLike or kNotLike)."

/-- `CreateArrowExpression`. -/
def createArrowExpression : Expression R → Except Exception (ArrowExpression R)
  | .node (.pqpColumn _ _ _ columnName) _ => .ok (.fieldRef columnName)
  | .node (.value v) _ =>
    match v with
    | some v => .ok (.literal v)
    | none => .error (.assertionFailed "Unsupported DataType cannot be resolved.")
  | .node (.binaryPredicate condition) [leftOperand, rightOperand] =>
    match arrowFunctionOf condition with
    | some f => do
      let left ← createArrowExpression leftOperand
      let right ← createArrowExpression rightOperand
      return .compare f left right
    | none => .error unsupportedCondition
  | .node (.between condition) [value, lowerBound, upperBound] =>
    match arrowBoundFunctionsOf condition with
    | some (lowerFunction, upperFunction) => do
      let lower ← createArrowExpression lowerBound
      let upper ← createArrowExpression upperBound
      let v ← createArrowExpression value
      return .and (.compare lowerFunction v lower) (.compare upperFunction v upper)
    | none => .error unsupportedCondition
  | .node (.isNull condition) [argument] => do
    let operand ← createArrowExpression argument
    if condition = .isNull then return .isNull operand false
    else return .not (.isNull operand false)
  | .node (.logical logicalOperator) [leftOperand, rightOperand] => do
    let left ← createArrowExpression leftOperand
    let right ← createArrowExpression rightOperand
    match logicalOperator with
    | .or => return .or left right
    | .and => return .and left right
  | .node (.inSet _) _ => .error unsupportedCondition
  | _ => .error (.assertionFailed
      "Unsupported mapping from Skyrise expression to Arrow expression (needs to be either kPqpColumn, kValue, kPredicate or kLogical).")

/-! ### Arrow -/

/-- What Arrow computes for a row: a truth value or a cell, either of which can be NULL. -/
inductive ArrowDatum (R : Type) where
  | bool (b : Option Bool)
  | cell (v : AllTypeVariant R)

/-- The functions of Arrow. -/
structure ArrowCompute (R : Type) where
  compare : ArrowFunction → ArrowDatum R → ArrowDatum R → ArrowDatum R
  and : ArrowDatum R → ArrowDatum R → ArrowDatum R
  or : ArrowDatum R → ArrowDatum R → ArrowDatum R
  not : ArrowDatum R → ArrowDatum R
  isNull : Bool → ArrowDatum R → ArrowDatum R

/-- What an expression of Arrow is at a row, for which the cell of every field is given. -/
def ArrowExpression.evaluate (arrow : ArrowCompute R) (row : Bytes → AllTypeVariant R) :
    ArrowExpression R → ArrowDatum R
  | fieldRef name => .cell (row name)
  | literal value => .cell (some value)
  | compare f left right => arrow.compare f (left.evaluate arrow row) (right.evaluate arrow row)
  | and left right => arrow.and (left.evaluate arrow row) (right.evaluate arrow row)
  | or left right => arrow.or (left.evaluate arrow row) (right.evaluate arrow row)
  | not operand => arrow.not (operand.evaluate arrow row)
  | isNull operand nanIsNull => arrow.isNull nanIsNull (operand.evaluate arrow row)

/-- Kleene's conjunction. -/
def kleeneAnd : Option Bool → Option Bool → Option Bool
  | some false, _ => some false
  | _, some false => some false
  | some true, some true => some true
  | _, _ => none

/-- Kleene's disjunction. -/
def kleeneOr : Option Bool → Option Bool → Option Bool
  | some true, _ => some true
  | _, some true => some true
  | some false, some false => some false
  | _, _ => none

@[simp] lemma kleeneAnd_eq_some_true {a b : Option Bool} :
    kleeneAnd a b = some true ↔ a = some true ∧ b = some true := by
  rcases a with _ | _ | _ <;> rcases b with _ | _ | _ <;> simp [kleeneAnd]

@[simp] lemma kleeneOr_eq_some_true {a b : Option Bool} :
    kleeneOr a b = some true ↔ a = some true ∨ b = some true := by
  rcases a with _ | _ | _ <;> rcases b with _ | _ | _ <;> simp [kleeneOr]

section

variable [FloatingPoint R]

/-- Comparing two values. -/
def ArrowFunction.holds (left right : Value R) : ArrowFunction → Bool
  | equal => Comparison.equals.evaluate left.dataType right.dataType left right
  | notEqual => Comparison.notEquals.evaluate left.dataType right.dataType left right
  | less => Comparison.lessThan.evaluate left.dataType right.dataType left right
  | lessEqual => Comparison.lessThanEquals.evaluate left.dataType right.dataType left right
  | greater => Comparison.lessThan.evaluate right.dataType left.dataType right left
  | greaterEqual => Comparison.lessThanEquals.evaluate right.dataType left.dataType right left

/-- Comparing two cells gives NULL if one of them is NULL. -/
def ArrowFunction.compareCells (f : ArrowFunction) : AllTypeVariant R → AllTypeVariant R → Option Bool
  | some left, some right => some (f.holds left right)
  | _, _ => none

/-- What is documented of the functions of Arrow: comparisons give NULL if an operand is NULL and
compare values otherwise, conjunction and disjunction are Kleene's, and `is_null` is never NULL. -/
structure ArrowCompute.Documented (arrow : ArrowCompute R) : Prop where
  compare : ∀ (f : ArrowFunction) (left right : AllTypeVariant R),
    (∀ l r, left = some l → right = some r → (l.dataType = .string ↔ r.dataType = .string)) →
    arrow.compare f (.cell left) (.cell right) = .bool (f.compareCells left right)
  and : ∀ a b : Option Bool, arrow.and (.bool a) (.bool b) = .bool (kleeneAnd a b)
  or : ∀ a b : Option Bool, arrow.or (.bool a) (.bool b) = .bool (kleeneOr a b)
  not : ∀ a : Option Bool, arrow.not (.bool a) = .bool (a.map Bool.not)
  isNull : ∀ v : AllTypeVariant R, arrow.isNull false (.cell v) = .bool (some v.isNone)

end

/-! ### Predicates -/

/-- A column of the table, with its name and its type. -/
inductive IsColumn (table : Table R) : Expression R → DataType → Prop
  | mk (columnId : UInt32) (d : TableColumnDefinition) (isNullable : Bool)
      (hd : table.columnDefinitions[columnId.toNat]? = some d) :
      IsColumn table (.node (.pqpColumn columnId d.dataType isNullable (Bytes.ofString d.name)) [])
        d.dataType

/-- A column or a literal that is an integer or a string. -/
inductive IsOperand (table : Table R) : Expression R → DataType → Prop
  | column {e : Expression R} {t : DataType} (h : IsColumn table e t) : IsOperand table e t
  | literal (v : Value R) (hv : v.dataType = .int ∨ v.dataType = .long ∨ v.dataType = .string) :
      IsOperand table (.node (.value (some v)) []) v.dataType

/-- The predicates that are built with AND and OR from tests of columns for NULL and from comparisons
and BETWEEN with operands that are columns or literals. -/
inductive IsPredicate (table : Table R) : Expression R → Prop
  | isNull (condition : PredicateCondition) {operand : Expression R} {t : DataType}
      (hcondition : condition.isNullTest) (h : IsColumn table operand t) :
      IsPredicate table (.node (.isNull condition) [operand])
  | comparison {condition : PredicateCondition} {f : ArrowFunction} {left right : Expression R}
      {leftType rightType : DataType} (hcondition : arrowFunctionOf condition = some f)
      (hleft : IsOperand table left leftType) (hright : IsOperand table right rightType) :
      IsPredicate table (.node (.binaryPredicate condition) [left, right])
  | between {condition : PredicateCondition} {f : ArrowFunction × ArrowFunction}
      {value lower upper : Expression R} {t lowerType upperType : DataType}
      (hcondition : arrowBoundFunctionsOf condition = some f) (hvalue : IsOperand table value t)
      (hlower : IsOperand table lower lowerType) (hupper : IsOperand table upper upperType) :
      IsPredicate table (.node (.between condition) [value, lower, upper])
  | logical (logicalOperator : LogicalOperator) {left right : Expression R}
      (hleft : IsPredicate table left) (hright : IsPredicate table right) :
      IsPredicate table (.node (.logical logicalOperator) [left, right])

/-- Strings are compared with strings only. -/
def Comparable (left right : Expression R) : Prop :=
  left.getDataType = .ok .string ↔ right.getDataType = .ok .string

/-- A predicate that can be evaluated on a chunk: its comparisons have operands that can be compared,
and in every column that is declared nullable the chunk has flags for NULL. -/
def Evaluable (table : Table R) (chunk : Chunk R) : Expression R → Prop
  | .node (.pqpColumn columnId _ _ _) _ =>
    table.columnIsNullable columnId.toNat = true → (chunk.getSegment columnId.toNat).isNullable = true
  | .node (.binaryPredicate _) [left, right] =>
    Comparable left right ∧ Evaluable table chunk left ∧ Evaluable table chunk right
  | .node (.between _) [value, lower, upper] =>
    Comparable value lower ∧ Comparable value upper ∧ Evaluable table chunk value ∧
      Evaluable table chunk lower ∧ Evaluable table chunk upper
  | .node (.isNull _) [operand] => Evaluable table chunk operand
  | .node (.logical _) [left, right] => Evaluable table chunk left ∧ Evaluable table chunk right
  | _ => True

/-- The cell that a reader finds under a name in a row of a chunk. -/
def fieldOf (table : Table R) (chunk : Chunk R) (i : ℕ) (name : Bytes) : AllTypeVariant R :=
  match table.columnDefinitions.findIdx? fun d => decide (Bytes.ofString d.name = name) with
  | some columnId => (chunk.getSegment columnId).variantAt i
  | none => none

/-- The cell of an operand in a row of a chunk. -/
def cellOf (chunk : Chunk R) (i : ℕ) (e : Expression R) : AllTypeVariant R :=
  match e.root with
  | .pqpColumn columnId _ _ _ => (chunk.getSegment columnId.toNat).variantAt i
  | .value v => v
  | _ => none

/-! ### Operands -/

/-- A result that is the cells of the rows. -/
structure ExpressionResult.Represents [Zero R] (r : ExpressionResult R) (t : DataType) (n : ℕ)
    (cells : ℕ → AllTypeVariant R) : Prop where
  dataType : r.dataType = t
  isNull : ∀ i < n, r.isNull i = (cells i).isNone
  value : ∀ i < n, ∀ v, cells i = some v → r.value i = v

/-- A result with a value for each of so many rows, and with a flag for each or for none. -/
def ExpressionResult.IsSeries (r : ExpressionResult R) (n : ℕ) : Prop :=
  r.values.length = n ∧ (r.nulls = [] ∨ r.nulls.length = n)

section

variable [FloatingPoint R] {computed : Expression R → DataType → Except Exception (ExpressionResult R)}
  {table : Table R} {chunkId : ℕ} {e : Expression R} {t : DataType}

omit [FloatingPoint R] in
lemma IsColumn.getDataType_eq (h : IsColumn table e t) : e.getDataType = .ok t := by
  cases h
  rfl

omit [FloatingPoint R] in
lemma IsOperand.getDataType_eq (h : IsOperand table e t) : e.getDataType = .ok t := by
  cases h with
  | column h => exact h.getDataType_eq
  | literal v hv => rfl

lemma resolve_eq (h : e.getDataType = .ok t) (ht : t ≠ .null)
    (hlist : e.root.expressionType ≠ .list) :
    resolve computed table chunkId e = evaluateExpressionToResult computed table chunkId e t := by
  rw [resolve, resolveToExpressionResult, h]
  simp only [hlist, ne_eq, not_false_eq_true, decide_true, assert_true]
  show (if t = .null then _ else evaluateExpressionToResult computed table chunkId e t) = _
  rw [if_neg ht]

omit [FloatingPoint R] in
lemma isNull_of_lt {values : List (Value R)} {nulls : List Bool} {i : ℕ} (hi : i < nulls.length) :
    (⟨t, values, nulls⟩ : ExpressionResult R).isNull i = nulls.getD i false := by
  have hne : nulls ≠ [] := List.ne_nil_of_length_pos (Nat.zero_lt_of_lt hi)
  have hmin : min i (nulls.length - 1) = i := Nat.min_eq_left (by omega)
  rw [ExpressionResult.isNull, if_neg (by simpa using hne), hmin]

lemma value_of_lt {values : List (Value R)} {nulls : List Bool} {i : ℕ} (hi : i < values.length) :
    (⟨t, values, nulls⟩ : ExpressionResult R).value i = values[i] := by
  have hmin : min i (values.length - 1) = i := Nat.min_eq_left (by omega)
  rw [ExpressionResult.value, ExpressionResult.size, hmin, List.getD_eq_getElem?_getD,
    List.getElem?_eq_getElem hi, Option.getD_some]

/-- The values and the flags of a segment represent its cells. -/
lemma represents_of_nullValues {segment : ValueSegment R} {nulls : List Bool}
    (hwell : segment.WellFormed) (hnulls : segment.nullValues = some nulls) :
    (⟨t, segment.values, nulls⟩ : ExpressionResult R).Represents t segment.size
      segment.variantAt := by
  have hlength := hwell.nulls_length nulls hnulls
  have hisNull : ∀ i, segment.isNull i = nulls.getD i false := fun i => by
    rw [ValueSegment.isNull, hnulls]
  refine ⟨rfl, fun i hi => ?_, fun i hi v hv => ?_⟩
  · have hlt : i < segment.values.length := hi
    rw [isNull_of_lt (hlength ▸ hi), ValueSegment.variantAt, hisNull]
    cases nulls.getD i false with
    | true => rfl
    | false => simp [hlt]
  · have hlt : i < segment.values.length := hi
    rw [ValueSegment.variantAt] at hv
    split at hv
    · cases hv
    · rw [value_of_lt hlt]
      rw [List.getElem?_eq_getElem hlt] at hv
      exact Option.some.inj hv

/-- The values of a segment without NULL represent its cells. -/
lemma represents_of_isNull {segment : ValueSegment R} (h : ∀ i, segment.isNull i = false) :
    (⟨t, segment.values, []⟩ : ExpressionResult R).Represents t segment.size
      segment.variantAt := by
  have hcell : ∀ i, segment.variantAt i = segment.values[i]? := fun i => by
    rw [ValueSegment.variantAt, h i, if_neg Bool.false_ne_true]
  refine ⟨rfl, fun i hi => ?_, fun i hi v hv => ?_⟩
  · have hlt : i < segment.values.length := hi
    rw [hcell, List.getElem?_eq_getElem hlt]
    rfl
  · have hlt : i < segment.values.length := hi
    rw [hcell, List.getElem?_eq_getElem hlt] at hv
    rw [value_of_lt hlt]
    exact Option.some.inj hv

variable (computed) in
/-- A column is read, if it has the flags that its declaration promises. -/
lemma IsColumn.spec (hchunk : (table.getChunk chunkId).WellFormed table.columnDefinitions)
    (h : IsColumn table e t) :
    (Evaluable table (table.getChunk chunkId) e → ∃ r, resolve computed table chunkId e = .ok r ∧
      (r.Represents t (table.getChunk chunkId).size fun i => cellOf (table.getChunk chunkId) i e) ∧
        r.IsSeries (table.getChunk chunkId).size) ∧
    (∀ r, resolve computed table chunkId e = .ok r →
      Evaluable table (table.getChunk chunkId) e) := by
  obtain ⟨columnId, d, isNullable, hd⟩ := h
  obtain ⟨hlt, hget⟩ := List.getElem?_eq_some_iff.mp hd
  have hwell := hchunk.wellFormed_getSegment hlt
  have htype := hchunk.dataType_getSegment hlt
  have hsegment : (table.getChunk chunkId).segments[columnId.toNat]? =
      some ((table.getChunk chunkId).getSegment columnId.toNat) := by
    rw [Chunk.getSegment_of_lt (hchunk.length_segments ▸ hlt), List.getElem?_eq_getElem]
  have hdefinition : table.columnDefinition columnId.toNat = d := by
    rw [Table.columnDefinition, List.getD_eq_getElem?_getD, hd, Option.getD_some]
  rw [hget] at htype
  rw [resolve_eq (IsColumn.mk columnId d isNullable hd).getDataType_eq
    (htype ▸ hwell.dataType_ne_null) (by simp [Expression.root, ExpressionNode.expressionType])]
  rw [evaluateExpressionToResult, evaluateColumnExpression, hsegment]
  simp only [htype, decide_true, assert_true]
  rw [← hchunk.size_getSegment hlt]
  show (Evaluable table (table.getChunk chunkId) (.node (.pqpColumn columnId d.dataType isNullable
    (Bytes.ofString d.name)) []) → _) ∧ _
  rw [Evaluable, Table.columnIsNullable, hdefinition]
  cases hnullable : d.nullable with
  | true =>
    cases hnulls : ((table.getChunk chunkId).getSegment columnId.toNat).nullValues with
    | some nulls =>
      refine ⟨fun _ => ⟨_, rfl, represents_of_nullValues hwell hnulls, rfl,
        .inr (hwell.nulls_length nulls hnulls)⟩, fun _ _ _ => ?_⟩
      rw [ValueSegment.isNullable, hnulls]
      rfl
    | none =>
      refine ⟨fun heval => ?_, fun _ h => by cases h⟩
      rw [ValueSegment.isNullable, hnulls] at heval
      exact absurd (heval rfl) Bool.false_ne_true
  | false =>
    refine ⟨fun _ => ⟨_, rfl, represents_of_isNull ?_, rfl, .inl rfl⟩,
      fun _ _ h => absurd h Bool.false_ne_true⟩
    exact hchunk.not_null columnId.toNat d hd hnullable

variable (hchunk : (table.getChunk chunkId).WellFormed table.columnDefinitions)

include hchunk

variable (computed) in
/-- An operand is read, if it can be evaluated. -/
lemma IsOperand.spec (h : IsOperand table e t) :
    (Evaluable table (table.getChunk chunkId) e → ∃ r, resolve computed table chunkId e = .ok r ∧
      r.Represents t (table.getChunk chunkId).size fun i => cellOf (table.getChunk chunkId) i e) ∧
    (∀ r, resolve computed table chunkId e = .ok r →
      Evaluable table (table.getChunk chunkId) e) := by
  cases h with
  | column h =>
    refine ⟨fun heval => ?_, (h.spec computed hchunk).2⟩
    obtain ⟨r, hr, hrep, -⟩ := (h.spec computed hchunk).1 heval
    exact ⟨r, hr, hrep⟩
  | literal v hv =>
    refine ⟨fun _ => ⟨⟨v.dataType, [v], []⟩, ?_, rfl, fun i _ => rfl, fun i _ w hw => ?_⟩,
      fun _ _ => trivial⟩
    · have htype : Expression.getDataType (.node (.value (some v)) []) = .ok v.dataType := rfl
      rw [resolve_eq htype v.dataType_ne_null
        (by simp [Expression.root, ExpressionNode.expressionType])]
      rw [evaluateExpressionToResult, evaluateValueExpression]
      simp only [decide_true, assert_true]
      rfl
    · obtain rfl := Option.some.inj hw
      simp [ExpressionResult.value, ExpressionResult.size]

omit [FloatingPoint R] in
/-- The cells of an operand have its type. -/
lemma IsOperand.dataType_of_cellOf (h : IsOperand table e t) {i : ℕ} {v : Value R}
    (hv : cellOf (table.getChunk chunkId) i e = some v) : v.dataType = t := by
  cases h with
  | column h =>
    obtain ⟨columnId, d, isNullable, hd⟩ := h
    obtain ⟨hlt, hget⟩ := List.getElem?_eq_some_iff.mp hd
    rw [(hchunk.wellFormed_getSegment hlt).dataType_of_variantAt hv,
      hchunk.dataType_getSegment hlt, hget]
  | literal w hw => exact congrArg Value.dataType (Option.some.inj hv.symm)

/-! ### Comparisons -/

omit hchunk [FloatingPoint R] in
lemma positionsOf_congr {p q : ℕ → Bool} (h : ∀ i < (table.getChunk chunkId).size, p i = q i) :
    positionsOf table chunkId p = positionsOf table chunkId q := by
  rw [positionsOf, positionsOf]
  congr 1
  exact List.filter_congr fun i hi => h i (List.mem_range.mp hi)

omit hchunk in
lemma supports_iff {leftType rightType : DataType} (hl : leftType ≠ .null) (hr : rightType ≠ .null) :
    Comparison.supports leftType rightType = true ↔ (leftType = .string ↔ rightType = .string) := by
  cases leftType <;> cases rightType <;> simp_all [Comparison.supports]

omit hchunk in
lemma arrowFunctionOf_spec {condition : PredicateCondition} {f : ArrowFunction}
    (h : arrowFunctionOf condition = some f) :
    ∃ c flip, comparisonOf condition = some (c, flip) ∧ ∀ left right : Value R,
      f.holds left right = if flip then c.evaluate right.dataType left.dataType right left
        else c.evaluate left.dataType right.dataType left right := by
  cases condition <;> simp_all [arrowFunctionOf, comparisonOf] <;> subst h <;>
    exact fun _ _ => rfl

omit [FloatingPoint R] in
lemma IsOperand.ne_null (h : IsOperand table e t) : t ≠ .null := by
  cases h with
  | column h =>
    obtain ⟨columnId, d, isNullable, hd⟩ := h
    obtain ⟨hlt, hget⟩ := List.getElem?_eq_some_iff.mp hd
    have htype := hchunk.dataType_getSegment hlt
    rw [hget] at htype
    exact htype ▸ (hchunk.wellFormed_getSegment hlt).dataType_ne_null
  | literal v hv => exact v.dataType_ne_null

omit hchunk in
/-- Comparing results that represent cells compares the cells. -/
lemma compareToPositionList_eq_ok {c : Comparison} {left right : ExpressionResult R}
    {leftType rightType : DataType} {leftCells rightCells : ℕ → AllTypeVariant R}
    (hleft : left.Represents leftType (table.getChunk chunkId).size leftCells)
    (hright : right.Represents rightType (table.getChunk chunkId).size rightCells)
    (hsupports : Comparison.supports leftType rightType = true) :
    compareToPositionList table chunkId c (.ok left) (.ok right) =
      .ok (positionsOf table chunkId fun i =>
        match leftCells i, rightCells i with
        | some v, some w => c.evaluate leftType rightType v w
        | _, _ => false) := by
  show (if Comparison.supports left.dataType right.dataType then _ else _) = _
  rw [hleft.dataType, hright.dataType, if_pos hsupports]
  refine congrArg Except.ok (positionsOf_congr fun i hi => ?_)
  rw [hleft.isNull i hi, hright.isNull i hi]
  cases hv : leftCells i with
  | none => simp
  | some v =>
    cases hw : rightCells i with
    | none => simp
    | some w => rw [hleft.value i hi v hv, hright.value i hi w hw]; rfl

omit hchunk in
lemma of_compareToPositionList_eq_ok {c : Comparison}
    {left right : Except Exception (ExpressionResult R)} {positions : List RowId}
    (h : compareToPositionList table chunkId c left right = .ok positions) :
    ∃ l r, left = .ok l ∧ right = .ok r ∧ Comparison.supports l.dataType r.dataType = true := by
  obtain ⟨l, hl, h⟩ := exists_of_bind_eq_ok h
  obtain ⟨r, hr, h⟩ := exists_of_bind_eq_ok h
  refine ⟨l, r, hl, hr, ?_⟩
  by_contra hnot
  rw [if_neg hnot] at h
  cases h

variable (computed) in
/-- The positions at which a comparison of operands holds, which is an error if they cannot be
evaluated or compared. -/
lemma comparisonToPositionList_spec {condition : PredicateCondition} {f : ArrowFunction}
    {left right : Expression R} {leftType rightType : DataType}
    (hcondition : arrowFunctionOf condition = some f) (hleft : IsOperand table left leftType)
    (hright : IsOperand table right rightType) :
    (Comparable left right ∧ Evaluable table (table.getChunk chunkId) left ∧
        Evaluable table (table.getChunk chunkId) right →
      comparisonToPositionList table chunkId condition (resolve computed table chunkId left)
          (resolve computed table chunkId right) =
        .ok (positionsOf table chunkId fun i =>
          decide (f.compareCells (cellOf (table.getChunk chunkId) i left)
            (cellOf (table.getChunk chunkId) i right) = some true))) ∧
    (∀ positions, comparisonToPositionList table chunkId condition
        (resolve computed table chunkId left) (resolve computed table chunkId right) =
          .ok positions →
      Comparable left right ∧ Evaluable table (table.getChunk chunkId) left ∧
        Evaluable table (table.getChunk chunkId) right) := by
  obtain ⟨c, flip, hcomparison, hholds⟩ := arrowFunctionOf_spec (R := R) hcondition
  have hcomparable : Comparable left right ↔ Comparison.supports leftType rightType = true := by
    rw [supports_iff (hleft.ne_null hchunk) (hright.ne_null hchunk), Comparable,
      hleft.getDataType_eq, hright.getDataType_eq, Except.ok.injEq, Except.ok.injEq]
  have hsymm : Comparison.supports leftType rightType = Comparison.supports rightType leftType := by
    cases leftType <;> cases rightType <;> rfl
  rw [comparisonToPositionList, hcomparison]
  refine ⟨fun ⟨hc, hl, hr⟩ => ?_, fun positions hok => ?_⟩
  · obtain ⟨l, hl, hlrep⟩ := (hleft.spec computed hchunk).1 hl
    obtain ⟨r, hr, hrrep⟩ := (hright.spec computed hchunk).1 hr
    have hsupports := hcomparable.mp hc
    rw [hl, hr]
    cases flip with
    | false =>
      show compareToPositionList table chunkId c (.ok l) (.ok r) = _
      rw [compareToPositionList_eq_ok hlrep hrrep hsupports]
      refine congrArg Except.ok (positionsOf_congr fun i _ => ?_)
      cases hv : cellOf (table.getChunk chunkId) i left with
      | none => rfl
      | some v =>
        cases hw : cellOf (table.getChunk chunkId) i right with
        | none => rfl
        | some w =>
          have hf := hholds v w
          rw [hleft.dataType_of_cellOf hchunk hv, hright.dataType_of_cellOf hchunk hw] at hf
          simp [ArrowFunction.compareCells, hf]
    | true =>
      show compareToPositionList table chunkId c (.ok r) (.ok l) = _
      rw [compareToPositionList_eq_ok hrrep hlrep (hsymm ▸ hsupports)]
      refine congrArg Except.ok (positionsOf_congr fun i _ => ?_)
      cases hv : cellOf (table.getChunk chunkId) i left with
      | none => cases cellOf (table.getChunk chunkId) i right <;> rfl
      | some v =>
        cases hw : cellOf (table.getChunk chunkId) i right with
        | none => rfl
        | some w =>
          have hf := hholds v w
          rw [hleft.dataType_of_cellOf hchunk hv, hright.dataType_of_cellOf hchunk hw] at hf
          simp [ArrowFunction.compareCells, hf]
  · have hops : ∃ l r, resolve computed table chunkId left = .ok l ∧
        resolve computed table chunkId right = .ok r ∧
          Comparison.supports l.dataType r.dataType = true := by
      cases flip with
      | false => exact of_compareToPositionList_eq_ok hok
      | true =>
        obtain ⟨r, l, hr, hl, hsupports⟩ := of_compareToPositionList_eq_ok hok
        refine ⟨l, r, hl, hr, ?_⟩
        cases hlt : l.dataType <;> cases hrt : r.dataType <;> simp_all [Comparison.supports]
    obtain ⟨l, r, hl, hr, hsupports⟩ := hops
    have hel := (hleft.spec computed hchunk).2 l hl
    have her := (hright.spec computed hchunk).2 r hr
    obtain ⟨l', hl', hlrep⟩ := (hleft.spec computed hchunk).1 hel
    obtain ⟨r', hr', hrrep⟩ := (hright.spec computed hchunk).1 her
    obtain rfl := Except.ok.inj (hl.symm.trans hl')
    obtain rfl := Except.ok.inj (hr.symm.trans hr')
    rw [hlrep.dataType, hrrep.dataType] at hsupports
    exact ⟨hcomparable.mpr hsupports, hel, her⟩

/-! ### Selecting rows -/

omit hchunk in
/-- The view of a series has its flags. -/
lemma isNull_asView {r : ExpressionResult R} {n i : ℕ} (h : r.IsSeries n) (hi : i < n) :
    r.asView.isNull i = .ok (r.isNull i) := by
  obtain ⟨hvalues, hnulls⟩ := h
  rcases hnulls with hnil | hlength
  · rw [ExpressionResult.asView, ExpressionResult.isNullable, ExpressionResult.isNull, hnil]
    split <;> rfl
  · have hne : r.nulls ≠ [] := List.ne_nil_of_length_pos (by omega)
    have hempty : r.nulls.isEmpty = false := List.isEmpty_eq_false_iff.mpr hne
    have hflag : r.isNull i = r.nulls.getD i false := isNull_of_lt (by omega)
    rw [hflag, ExpressionResult.asView, ExpressionResult.isNullable, ExpressionResult.size, hempty]
    split
    · next hone =>
      obtain ⟨null, hnull⟩ := List.length_eq_one_iff.mp (hlength.trans (hvalues.symm.trans hone))
      rw [hnull, show i = 0 by omega]
      rfl
    · next hmany =>
      rw [if_neg (by simp; omega), if_neg (by simp)]
      exact ExpressionResultView.isNull_nullableSeries_of_lt (by omega)

omit [FloatingPoint R] hchunk in
/-- The positions are a part of those of all rows. -/
lemma positionsOf_eq_filter (p : ℕ → Bool) : positionsOf table chunkId p =
    ((List.range (table.getChunk chunkId).size).map (RowId.mk chunkId)).filter
      fun rowId => p rowId.chunkOffset := by
  rw [positionsOf, List.filter_map]
  rfl

omit [FloatingPoint R] hchunk in
lemma pairwise_lt_rows (n : ℕ) : ((List.range n).map (RowId.mk chunkId)).Pairwise (· < ·) :=
  List.pairwise_lt_range.map _ fun _ _ h => RowId.mk_lt_mk.mpr h

omit [FloatingPoint R] hchunk in
lemma intersection_positionsOf (p q : ℕ → Bool) :
    SortedSets.intersection (positionsOf table chunkId p) (positionsOf table chunkId q) =
      positionsOf table chunkId fun i => p i && q i := by
  rw [positionsOf_eq_filter, positionsOf_eq_filter, positionsOf_eq_filter,
    SortedSets.intersection_filter (pairwise_lt_rows _)]

omit [FloatingPoint R] hchunk in
lemma union_positionsOf (p q : ℕ → Bool) :
    SortedSets.union (positionsOf table chunkId p) (positionsOf table chunkId q) =
      positionsOf table chunkId fun i => p i || q i := by
  rw [positionsOf_eq_filter, positionsOf_eq_filter, positionsOf_eq_filter,
    SortedSets.union_filter (pairwise_lt_rows _)]

omit [FloatingPoint R] hchunk in
lemma mk_mem_positionsOf {p : ℕ → Bool} {i : ℕ} : RowId.mk chunkId i ∈ positionsOf table chunkId p ↔
    i < (table.getChunk chunkId).size ∧ p i = true := by
  simp [positionsOf]

variable (computed) in
/-- The rows at which a column is NULL, or is not. -/
lemma isNullToPositionList_spec (condition : PredicateCondition) (h : IsColumn table e t) :
    (Evaluable table (table.getChunk chunkId) e →
      isNullToPositionList table chunkId condition (resolve computed table chunkId e) =
        .ok (positionsOf table chunkId fun i =>
          if condition = .isNull then (cellOf (table.getChunk chunkId) i e).isNone
          else !(cellOf (table.getChunk chunkId) i e).isNone)) ∧
    (∀ positions, isNullToPositionList table chunkId condition
        (resolve computed table chunkId e) = .ok positions →
      Evaluable table (table.getChunk chunkId) e) := by
  refine ⟨fun heval => ?_, fun positions hok => ?_⟩
  · obtain ⟨r, hr, hrep, hseries⟩ := (h.spec computed hchunk).1 heval
    have hnulls : (List.range (table.getChunk chunkId).size).mapM r.asView.isNull =
        .ok ((List.range (table.getChunk chunkId).size).map r.isNull) :=
      mapM_eq_ok fun i hi => isNull_asView hseries (List.mem_range.mp hi)
    rw [hr, isNullToPositionList]
    show (List.range (table.getChunk chunkId).size).mapM r.asView.isNull >>= _ = _
    rw [hnulls]
    refine congrArg Except.ok (positionsOf_congr fun i hi => ?_)
    have hflag : ((List.range (table.getChunk chunkId).size).map r.isNull).getD i false =
        (cellOf (table.getChunk chunkId) i e).isNone := by
      rw [← hrep.isNull i hi]
      simp [hi]
    rw [hflag]
  · obtain ⟨r, hr, -⟩ := exists_of_bind_eq_ok hok
    exact (h.spec computed hchunk).2 r hr

omit [FloatingPoint R] hchunk in
/-- A reader finds the cell of a column under its name. -/
lemma fieldOf_eq {columnId : ℕ} {d : TableColumnDefinition} {chunk : Chunk R} {i : ℕ}
    (hnames : (table.columnDefinitions.map TableColumnDefinition.name).Nodup)
    (hd : table.columnDefinitions[columnId]? = some d) :
    fieldOf table chunk i (Bytes.ofString d.name) = (chunk.getSegment columnId).variantAt i := by
  obtain ⟨hlt, hget⟩ := List.getElem?_eq_some_iff.mp hd
  have hfind : (table.columnDefinitions.findIdx? fun d' =>
      decide (Bytes.ofString d'.name = Bytes.ofString d.name)) = some columnId := by
    refine List.findIdx?_eq_some_iff_getElem.mpr ⟨hlt, by simp [hget], fun j hj => ?_⟩
    have hne := List.pairwise_iff_getElem.mp hnames j columnId (by simp; omega) (by simpa using hlt) hj
    rw [List.getElem_map, List.getElem_map, hget] at hne
    simpa using hne
  rw [fieldOf, hfind]

omit [FloatingPoint R] hchunk in
/-- The Arrow expression of an operand is its cell. -/
lemma IsOperand.createArrowExpression_eq (arrow : ArrowCompute R)
    (hnames : (table.columnDefinitions.map TableColumnDefinition.name).Nodup)
    (h : IsOperand table e t) : ∃ a, createArrowExpression e = .ok a ∧ ∀ (chunk : Chunk R) (i : ℕ),
      a.evaluate arrow (fieldOf table chunk i) = .cell (cellOf chunk i e) := by
  cases h with
  | column h =>
    obtain ⟨columnId, d, isNullable, hd⟩ := h
    exact ⟨_, rfl, fun chunk i => congrArg ArrowDatum.cell (fieldOf_eq hnames hd)⟩
  | literal v hv => exact ⟨_, rfl, fun chunk i => rfl⟩

variable {arrow : ArrowCompute R} (harrow : arrow.Documented)
  (hnames : (table.columnDefinitions.map TableColumnDefinition.name).Nodup)

include harrow

/-- Comparing the cells of operands that can be compared. -/
lemma compare_cellOf {left right : Expression R} {leftType rightType : DataType} {i : ℕ}
    (f : ArrowFunction) (hleft : IsOperand table left leftType)
    (hright : IsOperand table right rightType) (hcomparable : Comparable left right) :
    arrow.compare f (.cell (cellOf (table.getChunk chunkId) i left))
        (.cell (cellOf (table.getChunk chunkId) i right)) =
      .bool (f.compareCells (cellOf (table.getChunk chunkId) i left)
        (cellOf (table.getChunk chunkId) i right)) := by
  refine harrow.compare f _ _ fun v w hv hw => ?_
  rw [hleft.dataType_of_cellOf hchunk hv, hright.dataType_of_cellOf hchunk hw]
  rwa [Comparable, hleft.getDataType_eq, hright.getDataType_eq, Except.ok.injEq,
    Except.ok.injEq] at hcomparable

omit harrow hchunk in
lemma arrowBoundFunctionsOf_spec {condition : PredicateCondition} {f : ArrowFunction × ArrowFunction}
    (h : arrowBoundFunctionsOf condition = some f) :
    arrowFunctionOf (lowerCondition condition) = some f.1 ∧
      arrowFunctionOf (upperCondition condition) = some f.2 := by
  cases condition <;> cases h <;> exact ⟨rfl, rfl⟩

include hnames

variable (computed) in
/-- A predicate and its translation select the same rows, if the predicate can be evaluated. -/
lemma IsPredicate.spec (h : IsPredicate table e) : ∃ a, createArrowExpression e = .ok a ∧
    (∀ positions, evaluateExpressionToPositionList computed table chunkId e = .ok positions →
      Evaluable table (table.getChunk chunkId) e) ∧
    (Evaluable table (table.getChunk chunkId) e → ∃ b : ℕ → Option Bool,
      (∀ i, a.evaluate arrow (fieldOf table (table.getChunk chunkId) i) = .bool (b i)) ∧
      evaluateExpressionToPositionList computed table chunkId e =
        .ok (positionsOf table chunkId fun i => decide (b i = some true))) := by
  induction h with
  | @isNull condition operand t hcondition h =>
    obtain ⟨a, ha, hcell⟩ := (IsOperand.column h).createArrowExpression_eq arrow hnames
    have hspec := isNullToPositionList_spec computed hchunk condition h
    refine ⟨if condition = .isNull then .isNull a false else .not (.isNull a false), ?_,
      fun positions hok => hspec.2 positions hok, fun heval => ?_⟩
    · rw [createArrowExpression, ha]
      show (if condition = .isNull then _ else _) = _
      split <;> rfl
    · refine ⟨fun i => some (if condition = .isNull
        then (cellOf (table.getChunk chunkId) i operand).isNone
        else !(cellOf (table.getChunk chunkId) i operand).isNone), fun i => ?_, ?_⟩
      · split
        · rw [ArrowExpression.evaluate, hcell, harrow.isNull]
        · rw [ArrowExpression.evaluate, ArrowExpression.evaluate, hcell, harrow.isNull, harrow.not]
          rfl
      · rw [evaluateExpressionToPositionList, hspec.1 heval]
        refine congrArg Except.ok (positionsOf_congr fun i _ => ?_)
        simp only [Option.some.injEq, Bool.decide_eq_true]
  | @comparison condition f left right leftType rightType hcondition hleft hright =>
    obtain ⟨a, ha, hcella⟩ := hleft.createArrowExpression_eq arrow hnames
    obtain ⟨b, hb, hcellb⟩ := hright.createArrowExpression_eq arrow hnames
    have hspec := comparisonToPositionList_spec computed hchunk hcondition hleft hright
    have hlike : ¬ (condition = .like ∨ condition = .notLike) := by
      rintro (rfl | rfl) <;> cases hcondition
    refine ⟨.compare f a b, ?_, fun positions hok => ?_, fun heval => ?_⟩
    · rw [createArrowExpression, hcondition, ha, hb]
      rfl
    · rw [evaluateExpressionToPositionList, if_neg hlike] at hok
      exact hspec.2 positions hok
    · refine ⟨fun i => f.compareCells (cellOf (table.getChunk chunkId) i left)
        (cellOf (table.getChunk chunkId) i right), fun i => ?_, ?_⟩
      · rw [ArrowExpression.evaluate, hcella, hcellb]
        exact compare_cellOf hchunk harrow f hleft hright heval.1
      · rw [evaluateExpressionToPositionList, if_neg hlike]
        exact hspec.1 heval
  | @between condition f value lower upper t lowerType upperType hcondition hvalue hlower hupper =>
    obtain ⟨a, ha, hcella⟩ := hvalue.createArrowExpression_eq arrow hnames
    obtain ⟨b, hb, hcellb⟩ := hlower.createArrowExpression_eq arrow hnames
    obtain ⟨c, hc, hcellc⟩ := hupper.createArrowExpression_eq arrow hnames
    obtain ⟨hlowerf, hupperf⟩ := arrowBoundFunctionsOf_spec hcondition
    have hspecl := comparisonToPositionList_spec computed hchunk hlowerf hvalue hlower
    have hspecu := comparisonToPositionList_spec computed hchunk hupperf hvalue hupper
    refine ⟨.and (.compare f.1 a b) (.compare f.2 a c), ?_, fun positions hok => ?_, fun heval => ?_⟩
    · rw [createArrowExpression, hcondition, ha, hb, hc]
      rfl
    · rw [evaluateExpressionToPositionList] at hok
      obtain ⟨leftPositions, hl, hok⟩ := exists_of_bind_eq_ok hok
      obtain ⟨rightPositions, hr, -⟩ := exists_of_bind_eq_ok hok
      obtain ⟨hcl, hev, hel⟩ := hspecl.2 leftPositions hl
      obtain ⟨hcu, -, heu⟩ := hspecu.2 rightPositions hr
      exact ⟨hcl, hcu, hev, hel, heu⟩
    · obtain ⟨hcl, hcu, hev, hel, heu⟩ := heval
      refine ⟨fun i => kleeneAnd (f.1.compareCells (cellOf (table.getChunk chunkId) i value)
        (cellOf (table.getChunk chunkId) i lower)) (f.2.compareCells
          (cellOf (table.getChunk chunkId) i value) (cellOf (table.getChunk chunkId) i upper)),
        fun i => ?_, ?_⟩
      · rw [ArrowExpression.evaluate, ArrowExpression.evaluate, ArrowExpression.evaluate, hcella,
          hcellb, hcellc, compare_cellOf hchunk harrow f.1 hvalue hlower hcl,
          compare_cellOf hchunk harrow f.2 hvalue hupper hcu, harrow.and]
      · rw [evaluateExpressionToPositionList, hspecl.1 ⟨hcl, hev, hel⟩, hspecu.1 ⟨hcu, hev, heu⟩]
        refine (congrArg Except.ok (intersection_positionsOf _ _)).trans ?_
        refine congrArg Except.ok (positionsOf_congr fun i _ => ?_)
        simp
  | @logical logicalOperator left right hleft hright ihleft ihright =>
    obtain ⟨a, ha, hoka, hselecta⟩ := ihleft
    obtain ⟨b, hb, hokb, hselectb⟩ := ihright
    refine ⟨match logicalOperator with | .or => .or a b | .and => .and a b, ?_,
      fun positions hok => ?_, fun heval => ?_⟩
    · rw [createArrowExpression, ha, hb]
      cases logicalOperator <;> rfl
    · rw [evaluateExpressionToPositionList] at hok
      obtain ⟨leftPositions, hl, hok⟩ := exists_of_bind_eq_ok hok
      obtain ⟨rightPositions, hr, -⟩ := exists_of_bind_eq_ok hok
      exact ⟨hoka leftPositions hl, hokb rightPositions hr⟩
    · obtain ⟨p, harrowp, hp⟩ := hselecta heval.1
      obtain ⟨q, harrowq, hq⟩ := hselectb heval.2
      rw [evaluateExpressionToPositionList, hp, hq]
      cases logicalOperator with
      | and =>
        refine ⟨fun i => kleeneAnd (p i) (q i), fun i => ?_, ?_⟩
        · rw [ArrowExpression.evaluate, harrowp, harrowq, harrow.and]
        · refine (congrArg Except.ok (intersection_positionsOf _ _)).trans ?_
          refine congrArg Except.ok (positionsOf_congr fun i _ => ?_)
          simp
      | or =>
        refine ⟨fun i => kleeneOr (p i) (q i), fun i => ?_, ?_⟩
        · rw [ArrowExpression.evaluate, harrowp, harrowq, harrow.or]
        · refine (congrArg Except.ok (union_positionsOf _ _)).trans ?_
          refine congrArg Except.ok (positionsOf_congr fun i _ => ?_)
          simp

end

/-- **The Arrow expression of a predicate is true at a row if and only if the row is selected,
exactly if the predicate can be evaluated**: its comparisons have operands that can be compared, and
every column of it that is declared nullable has flags for NULL. -/
theorem createArrowExpression_selects_iff {R : Type} [FloatingPoint R]
    (computed : Expression R → DataType → Except Exception (ExpressionResult R))
    (arrow : ArrowCompute R) (harrow : arrow.Documented) (table : Table R) (chunkId : ℕ)
    (hchunk : (table.getChunk chunkId).WellFormed table.columnDefinitions)
    (hnames : (table.columnDefinitions.map TableColumnDefinition.name).Nodup) (e : Expression R)
    (h : IsPredicate table e) :
    ∃ a, createArrowExpression e = .ok a ∧
      ((∃ positions, evaluateExpressionToPositionList computed table chunkId e = .ok positions ∧
          ∀ i < (table.getChunk chunkId).size, RowId.mk chunkId i ∈ positions ↔
            a.evaluate arrow (fieldOf table (table.getChunk chunkId) i) = .bool (some true)) ↔
        Evaluable table (table.getChunk chunkId) e) := by
  obtain ⟨a, ha, hok, hselect⟩ := IsPredicate.spec computed hchunk harrow hnames h
  refine ⟨a, ha, ?_, fun heval => ?_⟩
  · rintro ⟨positions, hpositions, -⟩
    exact hok positions hpositions
  · obtain ⟨b, hb, hpositions⟩ := hselect heval
    refine ⟨_, hpositions, fun i hi => ?_⟩
    rw [mk_mem_positionsOf, hb i, ArrowDatum.bool.injEq, decide_eq_true_iff]
    exact and_iff_right hi

/-! ### A nullable column -/

/-- Functions that do what is documented. -/
def documentedCompute : ArrowCompute ℚ where
  compare f
    | .cell left, .cell right => .bool (f.compareCells left right)
    | _, _ => .bool none
  and
    | .bool a, .bool b => .bool (kleeneAnd a b)
    | _, _ => .bool none
  or
    | .bool a, .bool b => .bool (kleeneOr a b)
    | _, _ => .bool none
  not
    | .bool a => .bool (a.map Bool.not)
    | .cell _ => .bool none
  isNull _
    | .bool a => .bool (some a.isNone)
    | .cell v => .bool (some v.isNone)

lemma documented_documentedCompute : documentedCompute.Documented where
  compare _ _ _ _ := rfl
  and _ _ := rfl
  or _ _ := rfl
  not _ := rfl
  isNull _ := rfl

/-- A column that is declared nullable, in a chunk that may have no flags for NULL. -/
def nullableColumn (nulls : Option (List Bool)) : Table ℚ :=
  ⟨[⟨"a", .int, true⟩], [⟨[⟨.int, [.int 1, .int 2], nulls⟩]⟩]⟩

/-- The rows in which the column is larger than one. -/
def largerThanOne : Expression ℚ :=
  .node (.binaryPredicate .greaterThan)
    [.node (.pqpColumn 0 .int true (Bytes.ofString "a")) [], .node (.value (some (.int 1))) []]

lemma wellFormed_nullableColumn {nulls : Option (List Bool)}
    (h : ∀ flags, nulls = some flags → flags.length = 2) :
    ((nullableColumn nulls).getChunk 0).WellFormed (nullableColumn nulls).columnDefinitions where
  dataTypes := rfl
  segments := List.forall_mem_singleton.mpr ⟨by simp, by simp [Value.dataType], h⟩
  sizes := List.forall_mem_singleton.mpr rfl
  not_null columnId d hd hnullable := by
    have hmem : d ∈ (nullableColumn nulls).columnDefinitions := List.mem_of_getElem? hd
    obtain rfl := List.mem_singleton.mp hmem
    cases hnullable

lemma isPredicate_largerThanOne (nulls : Option (List Bool)) :
    IsPredicate (nullableColumn nulls) largerThanOne :=
  .comparison rfl (.column (.mk 0 ⟨"a", .int, true⟩ true rfl)) (.literal (.int 1) (.inl rfl))

/-- With flags for NULL, the translation selects the rows that the evaluation selects. -/
theorem createArrowExpression_selects_largerThanOne :
    ∃ a, createArrowExpression largerThanOne = .ok a ∧ ∃ positions,
      evaluateExpressionToPositionList (fun _ _ => .error .undefinedBehavior)
          (nullableColumn (some [false, false])) 0 largerThanOne = .ok positions ∧
        ∀ i < 2, RowId.mk 0 i ∈ positions ↔
          a.evaluate documentedCompute (fieldOf (nullableColumn (some [false, false]))
            ((nullableColumn (some [false, false])).getChunk 0) i) = .bool (some true) := by
  obtain ⟨a, ha, hiff⟩ := createArrowExpression_selects_iff
    (fun _ _ => .error .undefinedBehavior) documentedCompute documented_documentedCompute
    (nullableColumn (some [false, false])) 0
    (wellFormed_nullableColumn fun flags h => by cases h; rfl) (by simp [nullableColumn])
    largerThanOne (isPredicate_largerThanOne _)
  exact ⟨a, ha, hiff.mpr ⟨iff_of_false (by decide) (by decide), fun _ => rfl, trivial⟩⟩

/-- **Without them the evaluation reads flags that there are not**, while the translation is true at
the second row. -/
theorem not_createArrowExpression_selects_largerThanOne :
    ((nullableColumn none).getChunk 0).WellFormed (nullableColumn none).columnDefinitions ∧
      IsPredicate (nullableColumn none) largerThanOne ∧
      evaluateExpressionToPositionList (fun _ _ => .error .undefinedBehavior)
        (nullableColumn none) 0 largerThanOne = .error .undefinedBehavior ∧
      ∃ a, createArrowExpression largerThanOne = .ok a ∧
        a.evaluate documentedCompute (fieldOf (nullableColumn none)
          ((nullableColumn none).getChunk 0) 1) = .bool (some true) := by
  refine ⟨wellFormed_nullableColumn fun flags h => (by cases h), isPredicate_largerThanOne none, rfl,
    _, rfl, ?_⟩
  have hcolumn : (nullableColumn none).columnDefinitions[0]? = some ⟨"a", .int, true⟩ := rfl
  have hcell : fieldOf (nullableColumn none) ((nullableColumn none).getChunk 0) 1
      (Bytes.ofString "a") = some (.int 2) :=
    fieldOf_eq (by simp [nullableColumn]) hcolumn
  rw [ArrowExpression.evaluate, ArrowExpression.evaluate, ArrowExpression.evaluate, hcell]
  refine congrArg (fun b => ArrowDatum.bool (some b)) ?_
  show decide ((Value.int 1 : Value ℚ) < Value.int 2) = true
  simp

end Skyrise

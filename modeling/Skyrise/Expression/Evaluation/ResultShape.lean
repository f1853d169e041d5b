/-
The shapes of results.

A result has one value or a value for each row, and no flag for NULL, one for all rows
or one for each row.  Whether an expression has a result depends on these shapes: a
view of a series reads a flag for every row, while the result of a comparison of a
series that has no flags with a single value that has one has this one flag only.
-/
import Skyrise.Storage.Formats.ParquetExpression

namespace Skyrise

variable {R : Type}

/-! ### Shapes -/

/-- How many NULL flags a result has: none, one for all rows, or one for each row. -/
inductive NullFlags where
  | none
  | single
  | full
deriving DecidableEq, Repr

namespace NullFlags

/-- The number of flags. -/
def count (n : ℕ) : NullFlags → ℕ
  | none => 0
  | single => 1
  | full => n

/-- The flags of what has one of two operands NULL. -/
def join : NullFlags → NullFlags → NullFlags
  | none, flags => flags
  | flags, none => flags
  | single, single => single
  | _, _ => full

end NullFlags

/-- The shape of the result of an expression on a chunk. -/
structure ResultShape where
  /-- Whether there is one value for all rows. -/
  isScalar : Bool
  /-- How many flags there are. -/
  flags : NullFlags
  /-- When there is a result. -/
  evaluable : Prop

namespace ResultShape

/-- Whether every flag that a view reads is there, for a number of rows. -/
def Viewable (n : ℕ) (s : ResultShape) : Prop := n ≤ 1 ∨ s.isScalar = true ∨ s.flags ≠ .single

/-- A comparison. -/
def comparison (comparable : Prop) (left right : ResultShape) : ResultShape where
  isScalar := left.isScalar && right.isScalar
  flags := left.flags.join right.flags
  evaluable := comparable ∧ left.evaluable ∧ right.evaluable

/-- A conjunction or disjunction, which views both operands. -/
def logical (n : ℕ) (left right : ResultShape) : ResultShape where
  isScalar := left.isScalar && right.isScalar
  flags := if left.isScalar && right.isScalar then .single else .full
  evaluable := left.evaluable ∧ right.evaluable ∧ left.Viewable n ∧ right.Viewable n

/-- A test for NULL, which views the operand. -/
def isNull (n : ℕ) (operand : ResultShape) : ResultShape where
  isScalar := operand.isScalar
  flags := .none
  evaluable := operand.evaluable ∧ operand.Viewable n

/-- Whether an expression is a string. -/
def isString (e : Expression R) : Bool := e.getDataType = .ok .string

/-- Whether an expression is a literal of the type of another one. -/
def isValueOf (value e : Expression R) : Bool :=
  match value.getDataType with
  | .ok t => isValueOfType t e
  | .error _ => false

/-- An `InExpression`: nothing is evaluated if no element can be compared, literals of the type of
the value are searched for its view, and otherwise there is a comparison for each element. -/
def inList (n : ℕ) (value : Expression R) (s : ResultShape)
    (elements : List (Expression R × ResultShape)) : ResultShape :=
  match elements.filter fun element => isString element.1 == isString value with
  | [] => ⟨true, .none, True⟩
  | first :: rest =>
    if elements.all fun element => isValueOf value element.1 then
      ⟨s.isScalar, if s.isScalar then .none else s.flags, s.evaluable ∧ s.Viewable n⟩
    else rest.foldl (fun shape element => logical n shape (comparison True s element.2))
      (comparison True s first.2)

end ResultShape

section

variable (computedShape : Expression R → ResultShape) (table : Table R) (chunk : Chunk R)

mutual

/-- The shape of the result of an expression on a chunk; `computedShape` is the shape of what is no
predicate. -/
def shapeOf : Expression R → ResultShape
  | .node (.pqpColumn columnId _ _ _) _ =>
    ⟨false, if table.columnIsNullable columnId.toNat then .full else .none,
      table.columnIsNullable columnId.toNat = true →
        (chunk.getSegment columnId.toNat).isNullable = true⟩
  | .node (.logical _) [left, right] =>
    .logical chunk.size (shapeOf left) (shapeOf right)
  | .node (.binaryPredicate _) [left, right] =>
    .comparison (Comparable left right) (shapeOf left) (shapeOf right)
  | .node (.between _) [value, lower, upper] =>
    .logical chunk.size
      (.comparison (Comparable value lower) (shapeOf value) (shapeOf lower))
      (.comparison (Comparable value upper) (shapeOf value) (shapeOf upper))
  | .node (.isNull _) [operand] => .isNull chunk.size (shapeOf operand)
  | .node (.inSet _) [value, .node .list elements] =>
    .inList chunk.size value (shapeOf value) (shapesOf elements)
  | .node (.inSet _) [value, set] =>
    .inList chunk.size value (shapeOf value) [(set, shapeOf set)]
  | .node (.value _) _ => ⟨true, .none, True⟩
  | e => computedShape e

/-- The shapes of the elements of a list. -/
def shapesOf : List (Expression R) → List (Expression R × ResultShape)
  | [] => []
  | e :: elements => (e, shapeOf e) :: shapesOf elements

end

end

/-! ### Results and their shapes -/

/-- A result has a shape, for a number of rows.  A single flag is not set, unless it is that of a
single row. -/
structure ExpressionResult.HasShape (r : ExpressionResult R) (n : ℕ) (s : ResultShape) : Prop where
  size : r.size = if s.isScalar then 1 else n
  count : r.nulls.length = 0 ∨ r.nulls.length = 1 ∨ r.nulls.length = n
  flags : 2 ≤ n → r.nulls.length = s.flags.count n
  scalar : s.isScalar = true → r.nulls.length ≤ 1
  head : s.isScalar = true ∨ n ≠ 1 → r.nulls.length = 1 → r.nulls.headD false = false

/-- A request meets a shape: there is a result exactly if the shape says so, and the result has the
shape. -/
def Meets (n : ℕ) (t : DataType) (s : ResultShape)
    (request : Except Exception (ExpressionResult R)) : Prop :=
  (s.evaluable → ∃ r, request = .ok r) ∧
    ∀ r, request = .ok r → s.evaluable ∧ r.dataType = t ∧ r.HasShape n s

section

variable [FloatingPoint R] {r left right : ExpressionResult R} {n i : ℕ}
  {s leftShape rightShape : ResultShape}

omit [FloatingPoint R] in
lemma ExpressionResult.HasShape.isNull_zero (h : r.HasShape n s) (hs : s.isScalar = true) :
    r.isNull 0 = false := by
  rw [ExpressionResult.isNull]
  split
  · rfl
  · next hempty =>
    have hpos : r.nulls.length ≠ 0 := by simpa using hempty
    have hle := h.scalar hs
    have hhead := h.head (.inl hs) (by omega)
    obtain ⟨null, hnull⟩ := List.length_eq_one_iff.mp (show r.nulls.length = 1 by omega)
    rw [hnull] at hhead ⊢
    exact hhead

omit [FloatingPoint R] in
lemma ExpressionResult.HasShape.length_nulls_le (h : r.HasShape n s) (hsize : r.size = 1) :
    r.nulls.length ≤ 1 := by
  by_cases hs : s.isScalar = true
  · exact h.scalar hs
  · have hn : n = 1 := by rw [← hsize, h.size, if_neg hs]
    rcases h.count with hcount | hcount | hcount <;> omega

/-- Every row can be read from the view of a result whose shape allows it. -/
lemma ExpressionResult.HasShape.view (h : r.HasShape n s) (hview : s.Viewable n) :
    r.asView.size = r.size ∧ ∀ i, i < r.size ∨ r.size = 1 →
      r.asView.value i = .ok (r.value i) ∧ r.asView.isNull i = .ok (r.isNull i) := by
  rw [ExpressionResult.asView]
  split
  · next hone =>
    obtain ⟨v, hv⟩ := List.length_eq_one_iff.mp hone
    refine ⟨hone.symm, fun i _ => ⟨?_, ?_⟩⟩
    · rw [ExpressionResult.value, hone, Nat.sub_self, Nat.min_zero, hv]
      rfl
    · have hle := h.length_nulls_le hone
      rw [ExpressionResult.isNullable, ExpressionResult.isNull]
      cases hnulls : r.nulls with
      | nil => rfl
      | cons null nulls =>
        rw [hnulls, List.length_cons] at hle
        have hzero : min i ((null :: nulls).length - 1) = 0 := by
          rw [List.length_cons]
          omega
        rw [hzero]
        rfl
  · next hmany =>
    have hseries : s.isScalar = false := by
      by_contra hs
      exact hmany (by rw [h.size, if_pos (by simpa using hs)])
    have hsize : r.size = n := by rw [h.size, hseries, if_neg Bool.false_ne_true]
    have hhead := h.head (.inr (hsize ▸ hmany))
    rw [if_neg (by simpa using hhead)]
    split
    · next hempty =>
      have hnil : r.nulls = [] := by simpa [ExpressionResult.isNullable] using hempty
      refine ⟨rfl, fun i hi => ?_⟩
      have hlt : i < r.values.length := hi.resolve_right hmany
      have hmin : min i (r.size - 1) = i := Nat.min_eq_left (Nat.le_sub_one_of_lt hlt)
      rw [ExpressionResult.value, hmin, ExpressionResult.isNull, hnil]
      exact ⟨ExpressionResultView.value_nonNullSeries_of_lt hlt _, rfl⟩
    · next hempty =>
      have hne : r.nulls ≠ [] := by simpa [ExpressionResult.isNullable] using hempty
      refine ⟨rfl, fun i hi => ?_⟩
      have hlt : i < r.values.length := hi.resolve_right hmany
      have hlength : r.nulls.length = n := by
        have hflags := h.flags (by have : r.values.length = n := hsize; omega)
        rcases hview with hle | hs | hflag
        · have : r.values.length = n := hsize
          omega
        · rw [hseries] at hs
          cases hs
        · cases hf : s.flags with
          | none =>
            rw [hf] at hflags
            exact absurd (List.length_eq_zero_iff.mp hflags) hne
          | single => exact absurd hf hflag
          | full => rw [hflags, hf]; rfl
      have hlt' : i < r.nulls.length := by rw [hlength, ← hsize]; exact hlt
      have hmin : min i (r.size - 1) = i := Nat.min_eq_left (Nat.le_sub_one_of_lt hlt)
      have hmin' : min i (r.nulls.length - 1) = i := Nat.min_eq_left (Nat.le_sub_one_of_lt hlt')
      rw [ExpressionResult.value, hmin, ExpressionResult.isNull, hmin',
        if_neg (by simpa using hne)]
      exact ⟨ExpressionResultView.value_nullableSeries_of_lt hlt _,
        ExpressionResultView.isNull_nullableSeries_of_lt hlt'⟩

/-- Otherwise the flag of the second row is read, which there is not. -/
lemma ExpressionResult.HasShape.not_viewable (h : r.HasShape n s) (hview : ¬ s.Viewable n) :
    2 ≤ n ∧ r.size = n ∧ r.asView.size = n ∧ r.asView.isNull 1 = .error .undefinedBehavior := by
  rw [ResultShape.Viewable, not_or, not_or, not_not] at hview
  obtain ⟨hn, hs, hflags⟩ := hview
  have htwo : 2 ≤ n := by omega
  have hsize : r.size = n := by rw [h.size, if_neg hs]
  have hcount := h.flags htwo
  rw [hflags] at hcount
  obtain ⟨null, hnull⟩ := List.length_eq_one_iff.mp hcount
  have hhead := h.head (.inr (by omega)) hcount
  refine ⟨htwo, hsize, ?_⟩
  rw [ExpressionResult.asView, if_neg (by omega), if_neg (by simpa using fun _ => hhead),
    ExpressionResult.isNullable, hnull]
  exact ⟨hsize, rfl⟩

lemma ExpressionResult.HasShape.size_asView (h : r.HasShape n s) : r.asView.size = r.size := by
  by_cases hview : s.Viewable n
  · exact (h.view hview).1
  · obtain ⟨-, hsize, hasView, -⟩ := h.not_viewable hview
    rw [hasView, hsize]

/-! ### Combining results -/

omit [FloatingPoint R] in
lemma resultSize_eq (hleft : left.HasShape n leftShape) (hright : right.HasShape n rightShape) :
    resultSize left.size right.size =
      if leftShape.isScalar && rightShape.isScalar then 1 else n := by
  rw [resultSize, hleft.size, hright.size]
  cases leftShape.isScalar <;> cases rightShape.isScalar <;>
    simp only [Bool.and_true, Bool.and_false, Bool.false_eq_true, if_true, if_false] <;>
    split <;> omega

omit [FloatingPoint R] in
lemma readable_of_lt_resultSize (hleft : left.HasShape n leftShape)
    (hright : right.HasShape n rightShape) (hi : i < resultSize left.size right.size) :
    (i < left.size ∨ left.size = 1) ∧ (i < right.size ∨ right.size = 1) := by
  rw [resultSize_eq hleft hright] at hi
  rw [hleft.size, hright.size]
  revert hi
  cases leftShape.isScalar <;> cases rightShape.isScalar <;> simp <;> omega

/-- What a conjunction or disjunction of two results is at a row. -/
def ternaryAt (logicalOperator : LogicalOperator) (left right : ExpressionResult R) (i : ℕ) :
    Bool × Bool :=
  ternary logicalOperator (left.value i).toBool (left.isNull i) (right.value i).toBool
    (right.isNull i)

/-- The result of a conjunction or disjunction of two results. -/
def logicalResult (logicalOperator : LogicalOperator) (left right : ExpressionResult R) :
    ExpressionResult R :=
  ⟨.int, (List.range (resultSize left.size right.size)).map fun i =>
      .ofBool (ternaryAt logicalOperator left right i).1,
    (List.range (resultSize left.size right.size)).map fun i =>
      (ternaryAt logicalOperator left right i).2⟩

lemma evaluateLogicalExpression_eq_ok {logicalOperator : LogicalOperator}
    (hleft : left.HasShape n leftShape) (hright : right.HasShape n rightShape)
    (hviewl : leftShape.Viewable n) (hviewr : rightShape.Viewable n)
    (htypel : left.dataType = .int) (htyper : right.dataType = .int) :
    evaluateLogicalExpression logicalOperator (.ok left) (.ok right) =
      .ok (logicalResult logicalOperator left right) := by
  have hcells : ((List.range (resultSize left.asView.size right.asView.size)).mapM fun i => do
      let leftValue ← left.asView.value i
      let leftNull ← left.asView.isNull i
      let rightValue ← right.asView.value i
      let rightNull ← right.asView.isNull i
      return ternary logicalOperator leftValue.toBool leftNull rightValue.toBool rightNull) =
      Except.ok ((List.range (resultSize left.size right.size)).map
        (ternaryAt logicalOperator left right)) := by
    rw [(hleft.view hviewl).1, (hright.view hviewr).1]
    refine mapM_eq_ok fun i hi => ?_
    obtain ⟨hl, hr⟩ := readable_of_lt_resultSize hleft hright (List.mem_range.mp hi)
    obtain ⟨hlv, hln⟩ := (hleft.view hviewl).2 i hl
    obtain ⟨hrv, hrn⟩ := (hright.view hviewr).2 i hr
    rw [hlv, hln, hrv, hrn]
    rfl
  show (if isLogicalOperand left.dataType && isLogicalOperand right.dataType then _ else _) = _
  rw [htypel, htyper,
    if_pos (show (isLogicalOperand DataType.int && isLogicalOperand DataType.int) = true from rfl)]
  refine (congrArg (· >>= _) hcells).trans ?_
  refine congrArg Except.ok ?_
  rw [logicalResult, List.map_map, List.map_map]
  rfl

lemma ternary_of_not_null (logicalOperator : LogicalOperator) (a b : Bool) :
    (ternary logicalOperator a false b false).2 = false := by
  cases logicalOperator <;> simp [ternary]

lemma hasShape_logicalResult {logicalOperator : LogicalOperator}
    (hleft : left.HasShape n leftShape) (hright : right.HasShape n rightShape) :
    (logicalResult logicalOperator left right).HasShape n (.logical n leftShape rightShape) := by
  have hsize := resultSize_eq hleft hright
  refine ⟨?_, ?_, fun _ => ?_, fun hs => ?_, fun hor hone => ?_⟩
  · simpa [logicalResult, ExpressionResult.size, ResultShape.logical] using hsize
  · simp only [logicalResult, List.length_map, List.length_range, hsize]
    split
    · exact .inr (.inl rfl)
    · exact .inr (.inr rfl)
  · simp only [logicalResult, List.length_map, List.length_range, hsize, ResultShape.logical]
    split <;> rfl
  · simp only [logicalResult, List.length_map, List.length_range, hsize]
    have hs' : (leftShape.isScalar && rightShape.isScalar) = true := hs
    rw [if_pos hs']
  · simp only [logicalResult, List.length_map, List.length_range] at hone ⊢
    have hs : leftShape.isScalar = true ∧ rightShape.isScalar = true := by
      rw [hsize] at hone
      rcases hor with hs | hn
      · simpa [ResultShape.logical] using hs
      · by_contra hnot
        rw [if_neg (by simpa using hnot)] at hone
        exact hn hone
    rw [hone]
    show (ternaryAt logicalOperator left right 0).2 = false
    rw [ternaryAt, hleft.isNull_zero hs.1, hright.isNull_zero hs.2]
    exact ternary_of_not_null _ _ _

variable {t leftType rightType : DataType}
  {request leftRequest rightRequest : Except Exception (ExpressionResult R)}

/-- A conjunction or disjunction has a result if its operands have and can be viewed. -/
lemma meets_logical {logicalOperator : LogicalOperator} (hl : Meets n .int leftShape leftRequest)
    (hr : Meets n .int rightShape rightRequest) :
    Meets n .int (.logical n leftShape rightShape)
      (evaluateLogicalExpression logicalOperator leftRequest rightRequest) := by
  constructor
  · rintro ⟨hel, her, hviewl, hviewr⟩
    obtain ⟨left, rfl⟩ := hl.1 hel
    obtain ⟨right, rfl⟩ := hr.1 her
    obtain ⟨-, htypel, hshapel⟩ := hl.2 left rfl
    obtain ⟨-, htyper, hshaper⟩ := hr.2 right rfl
    exact ⟨_, evaluateLogicalExpression_eq_ok hshapel hshaper hviewl hviewr htypel htyper⟩
  · intro r hok
    obtain ⟨left, rfl, hrest⟩ := exists_of_bind_eq_ok hok
    obtain ⟨right, rfl, hcells⟩ := exists_of_bind_eq_ok hrest
    obtain ⟨hel, htypel, hshapel⟩ := hl.2 left rfl
    obtain ⟨her, htyper, hshaper⟩ := hr.2 right rfl
    rw [htypel, htyper,
      if_pos (show (isLogicalOperand DataType.int && isLogicalOperand DataType.int) = true from rfl)]
      at hcells
    obtain ⟨cells, hcells, -⟩ := exists_of_bind_eq_ok hcells
    have hread : ∀ i < resultSize left.size right.size, (∃ null, left.asView.isNull i = .ok null) ∧
        ∃ null, right.asView.isNull i = .ok null := fun i hi => by
      rw [← hshapel.size_asView, ← hshaper.size_asView] at hi
      obtain ⟨cell, -, hcell⟩ := (mapM_eq_ok_iff.mp hcells).exists_of_mem (List.mem_range.mpr hi)
      obtain ⟨_, _, hcell⟩ := exists_of_bind_eq_ok hcell
      obtain ⟨leftNull, hleftNull, hcell⟩ := exists_of_bind_eq_ok hcell
      obtain ⟨_, _, hcell⟩ := exists_of_bind_eq_ok hcell
      obtain ⟨rightNull, hrightNull, _⟩ := exists_of_bind_eq_ok hcell
      exact ⟨⟨leftNull, hleftNull⟩, rightNull, hrightNull⟩
    have hone : ∀ s : ResultShape, ¬ s.Viewable n → s = leftShape ∨ s = rightShape →
        1 < resultSize left.size right.size := by
      intro s hnot hs
      rw [ResultShape.Viewable, not_or, not_or] at hnot
      rw [resultSize_eq hshapel hshaper, if_neg]
      · omega
      · rcases hs with rfl | rfl <;> simp [hnot.2.1]
    have hview : leftShape.Viewable n ∧ rightShape.Viewable n := by
      constructor
      · by_contra hnot
        obtain ⟨null, hnull⟩ := (hread 1 (hone _ hnot (.inl rfl))).1
        rw [(hshapel.not_viewable hnot).2.2.2] at hnull
        cases hnull
      · by_contra hnot
        obtain ⟨null, hnull⟩ := (hread 1 (hone _ hnot (.inr rfl))).2
        rw [(hshaper.not_viewable hnot).2.2.2] at hnull
        cases hnull
    rw [evaluateLogicalExpression_eq_ok hshapel hshaper hview.1 hview.2 htypel htyper] at hok
    obtain rfl := Except.ok.inj hok
    exact ⟨⟨hel, her, hview⟩, rfl, hasShape_logicalResult hshapel hshaper⟩

/-! ### Comparing results -/

/-- The result of a comparison of two results. -/
def comparisonResult (c : Comparison) (left right : ExpressionResult R) : ExpressionResult R :=
  ⟨.int, (List.range (resultSize left.size right.size)).map fun i =>
      .ofBool (c.evaluate left.dataType right.dataType (left.value i) (right.value i)),
    evaluateDefaultNullLogic left.nulls right.nulls⟩

omit [FloatingPoint R] in
/-- The operand is read at the row, or at its only value if there are more of the other. -/
lemma getD_eq_value [Zero R] {other : ExpressionResult R} (hr : i < r.size ∨ r.size = 1)
    (hother : other.size = 1 → r.size = 1 → i = 0) :
    r.values.getD (if r.isLiteral && !other.isLiteral then 0 else i) r.dataType.defaultValue =
      r.value i := by
  rw [ExpressionResult.value]
  congr 1
  rw [ExpressionResult.isLiteral, ExpressionResult.isLiteral]
  by_cases hone : r.size = 1
  · by_cases hone' : other.size = 1
    · simp [hone, hone', hother hone' hone]
    · simp [hone, hone']
  · have hlt := hr.resolve_right hone
    simp [hone]
    omega

lemma evaluateBinaryWithDefaultNullLogic_eq_ok {c : Comparison}
    (hleft : left.HasShape n leftShape) (hright : right.HasShape n rightShape)
    (hsupports : Comparison.supports left.dataType right.dataType = true) :
    evaluateBinaryWithDefaultNullLogic c (.ok left) (.ok right) =
      .ok (comparisonResult c left right) := by
  show (if Comparison.supports left.dataType right.dataType then _ else _) = _
  rw [if_pos hsupports]
  refine congrArg Except.ok ?_
  rw [comparisonResult]
  congr 1
  refine List.map_congr_left fun i hi => ?_
  have hlt := List.mem_range.mp hi
  obtain ⟨hl, hr⟩ := readable_of_lt_resultSize hleft hright hlt
  have hzero : left.size = 1 → right.size = 1 → i = 0 := fun hl hr => by
    rw [resultSize, hl, hr] at hlt
    simpa using hlt
  have hlv : left.values.getD (if left.isLiteral && !right.isLiteral then 0 else i)
      left.dataType.defaultValue = left.value i := getD_eq_value hl fun h h' => hzero h' h
  have hrv : right.values.getD (if right.isLiteral && !left.isLiteral then 0 else i)
      right.dataType.defaultValue = right.value i := getD_eq_value hr hzero
  dsimp only
  rw [hlv, hrv]

/-- The cases of the flags that one of two operands sets: there are as many of both, or the shorter
list is empty or a single flag, which decides for all rows if it is set. -/
lemma evaluateDefaultNullLogic_cases {l r : List Bool}
    (hl : l.length = 0 ∨ l.length = 1 ∨ l.length = n)
    (hr : r.length = 0 ∨ r.length = 1 ∨ r.length = n) :
    (l.length = r.length ∧ evaluateDefaultNullLogic l r = List.zipWith (· || ·) l r) ∨
    (r.length < l.length ∧ (r = [] ∨ r = [false]) ∧ evaluateDefaultNullLogic l r = l) ∨
    (l.length < r.length ∧ (l = [] ∨ l = [false]) ∧ evaluateDefaultNullLogic l r = r) ∨
    (r.length < l.length ∧ r = [true] ∨ l.length < r.length ∧ l = [true]) ∧
      evaluateDefaultNullLogic l r = [true] := by
  rw [evaluateDefaultNullLogic]
  rcases lt_trichotomy l.length r.length with hlt | heq | hgt
  · rw [if_neg hlt.ne, if_neg (by omega)]
    have hle : l.length ≤ 1 := by omega
    match l, hle with
    | [], _ => exact .inr (.inr (.inl ⟨hlt, .inl rfl, rfl⟩))
    | [false], _ => exact .inr (.inr (.inl ⟨hlt, .inr rfl, rfl⟩))
    | [true], _ => exact .inr (.inr (.inr ⟨.inr ⟨hlt, rfl⟩, rfl⟩))
  · exact .inl ⟨heq, if_pos heq⟩
  · rw [if_neg hgt.ne', if_pos hgt]
    have hle : r.length ≤ 1 := by omega
    match r, hle with
    | [], _ => exact .inr (.inl ⟨hgt, .inl rfl, rfl⟩)
    | [false], _ => exact .inr (.inl ⟨hgt, .inr rfl, rfl⟩)
    | [true], _ => exact .inr (.inr (.inr ⟨.inl ⟨hgt, rfl⟩, rfl⟩))

/-- A row of a comparison is NULL if one of the operands is. -/
lemma isNull_comparisonResult {c : Comparison} (hleft : left.HasShape n leftShape)
    (hright : right.HasShape n rightShape) (i : ℕ) :
    (comparisonResult c left right).isNull i = (left.isNull i || right.isNull i) := by
  rw [ExpressionResult.isNull, ExpressionResult.isNull, ExpressionResult.isNull, comparisonResult]
  dsimp only
  rcases evaluateDefaultNullLogic_cases hleft.count hright.count with ⟨heq, h⟩ | ⟨-, hr, h⟩ |
    ⟨-, hl, h⟩ | ⟨hor, h⟩
  · rw [h]
    by_cases hnil : left.nulls = []
    · have hnil' : right.nulls = [] := List.length_eq_zero_iff.mp (by rw [← heq, hnil]; rfl)
      rw [hnil, hnil']
      rfl
    · have hpos := List.length_pos_iff.mpr hnil
      have hnil' : right.nulls ≠ [] := List.length_pos_iff.mp (heq ▸ hpos)
      have hlt : min i (left.nulls.length - 1) < left.nulls.length := by omega
      rw [if_neg (by simp [List.isEmpty_iff, hnil, hnil']), if_neg (by simpa using hnil),
        if_neg (by simpa using hnil'), List.length_zipWith, ← heq, Nat.min_self]
      rw [List.getD_eq_getElem?_getD, List.getD_eq_getElem?_getD, List.getD_eq_getElem?_getD,
        List.getElem?_eq_getElem (by rw [List.length_zipWith]; omega), List.getElem?_eq_getElem hlt,
        List.getElem?_eq_getElem (heq ▸ hlt), List.getElem_zipWith]
      rfl
  · rw [h]
    rcases hr with hr | hr <;> simp [hr]
  · rw [h]
    rcases hl with hl | hl <;> simp [hl]
  · rw [h]
    rcases hor with ⟨-, hr⟩ | ⟨-, hl⟩
    · simp [hr]
    · simp [hl]

omit [FloatingPoint R] in
/-- There are as many flags as the longer list has, and a single one is not set. -/
lemma evaluateDefaultNullLogic_spec (hleft : left.HasShape n leftShape)
    (hright : right.HasShape n rightShape)
    (hor : leftShape.isScalar = true ∧ rightShape.isScalar = true ∨ n ≠ 1) :
    (evaluateDefaultNullLogic left.nulls right.nulls).length =
        max left.nulls.length right.nulls.length ∧
      ((evaluateDefaultNullLogic left.nulls right.nulls).length = 1 →
        (evaluateDefaultNullLogic left.nulls right.nulls).headD false = false) := by
  have hheadl := hleft.head (hor.imp_left And.left)
  have hheadr := hright.head (hor.imp_left And.right)
  rcases evaluateDefaultNullLogic_cases hleft.count hright.count with ⟨heq, h⟩ | ⟨hlt, -, h⟩ |
    ⟨hlt, -, h⟩ | ⟨⟨-, hr⟩ | ⟨-, hl⟩, -⟩
  · rw [h, List.length_zipWith, ← heq, Nat.min_self, Nat.max_self]
    refine ⟨rfl, fun hone => ?_⟩
    obtain ⟨a, ha⟩ := List.length_eq_one_iff.mp hone
    obtain ⟨b, hb⟩ := List.length_eq_one_iff.mp (heq ▸ hone)
    have hfalse := hheadl hone
    have hfalse' := hheadr (heq ▸ hone)
    rw [ha] at hfalse
    rw [hb] at hfalse'
    rw [ha, hb]
    simp_all
  · rw [h]
    exact ⟨(Nat.max_eq_left hlt.le).symm, hheadl⟩
  · rw [h]
    exact ⟨(Nat.max_eq_right hlt.le).symm, hheadr⟩
  · rw [hr] at hheadr
    cases hheadr rfl
  · rw [hl] at hheadl
    cases hheadl rfl

lemma NullFlags.count_join (hn : 2 ≤ n) (a b : NullFlags) :
    (a.join b).count n = max (a.count n) (b.count n) := by
  cases a <;> cases b <;> simp [NullFlags.join, NullFlags.count] <;> omega

lemma hasShape_comparisonResult {c : Comparison} {comparable : Prop}
    (hleft : left.HasShape n leftShape) (hright : right.HasShape n rightShape) :
    (comparisonResult c left right).HasShape n (.comparison comparable leftShape rightShape) := by
  have hsize : (comparisonResult c left right).size =
      if leftShape.isScalar && rightShape.isScalar then 1 else n := by
    rw [← resultSize_eq hleft hright]
    simp [comparisonResult, ExpressionResult.size]
  have hlc := hleft.count
  have hrc := hright.count
  refine ⟨hsize, ?_, fun hn => ?_, fun hs => ?_, fun hor hone => ?_⟩
  · show (evaluateDefaultNullLogic left.nulls right.nulls).length = 0 ∨
      (evaluateDefaultNullLogic left.nulls right.nulls).length = 1 ∨
        (evaluateDefaultNullLogic left.nulls right.nulls).length = n
    rcases evaluateDefaultNullLogic_cases hlc hrc with ⟨heq, h⟩ | ⟨-, -, h⟩ | ⟨-, -, h⟩ | ⟨-, h⟩
    · rw [h, List.length_zipWith, ← heq, Nat.min_self]
      exact hlc
    · rwa [h]
    · rwa [h]
    · rw [h]
      exact .inr (.inl rfl)
  · rw [ResultShape.comparison, NullFlags.count_join hn, ← hleft.flags hn, ← hright.flags hn]
    exact (evaluateDefaultNullLogic_spec hleft hright (.inr (by omega))).1
  · have hs' : leftShape.isScalar = true ∧ rightShape.isScalar = true := by
      simpa [ResultShape.comparison] using hs
    have hl := hleft.scalar hs'.1
    have hr := hright.scalar hs'.2
    show (evaluateDefaultNullLogic left.nulls right.nulls).length ≤ 1
    rw [(evaluateDefaultNullLogic_spec hleft hright (.inl hs')).1]
    omega
  · refine (evaluateDefaultNullLogic_spec hleft hright ?_).2 hone
    exact hor.imp_left fun hs => by simpa [ResultShape.comparison] using hs

/-- A comparison has a result if its operands have and can be compared. -/
lemma meets_evaluateBinaryWithDefaultNullLogic {c : Comparison} {comparable : Prop}
    (hl : Meets n leftType leftShape leftRequest) (hr : Meets n rightType rightShape rightRequest)
    (hcomparable : comparable ↔ Comparison.supports leftType rightType = true) :
    Meets n .int (.comparison comparable leftShape rightShape)
      (evaluateBinaryWithDefaultNullLogic c leftRequest rightRequest) := by
  constructor
  · rintro ⟨hcomp, hel, her⟩
    obtain ⟨left, rfl⟩ := hl.1 hel
    obtain ⟨right, rfl⟩ := hr.1 her
    obtain ⟨-, htypel, hshapel⟩ := hl.2 left rfl
    obtain ⟨-, htyper, hshaper⟩ := hr.2 right rfl
    refine ⟨_, evaluateBinaryWithDefaultNullLogic_eq_ok hshapel hshaper ?_⟩
    rw [htypel, htyper]
    exact hcomparable.mp hcomp
  · intro r hok
    obtain ⟨left, rfl, hrest⟩ := exists_of_bind_eq_ok hok
    obtain ⟨right, rfl, hrest'⟩ := exists_of_bind_eq_ok hrest
    obtain ⟨hel, htypel, hshapel⟩ := hl.2 left rfl
    obtain ⟨her, htyper, hshaper⟩ := hr.2 right rfl
    have hsupports : Comparison.supports left.dataType right.dataType = true := by
      by_contra hnot
      rw [if_neg hnot] at hrest'
      cases hrest'
    rw [evaluateBinaryWithDefaultNullLogic_eq_ok hshapel hshaper hsupports] at hok
    obtain rfl := Except.ok.inj hok
    rw [htypel, htyper] at hsupports
    exact ⟨⟨hcomparable.mpr hsupports, hel, her⟩, rfl, hasShape_comparisonResult hshapel hshaper⟩

omit [FloatingPoint R] in
lemma ResultShape.comparison_comm (comparable : Prop) (left right : ResultShape) :
    ResultShape.comparison comparable left right = .comparison comparable right left := by
  rw [ResultShape.comparison, ResultShape.comparison, Bool.and_comm, and_comm]
  congr 1
  · cases left.flags <;> cases right.flags <;> rfl
  · exact propext ⟨fun ⟨⟨hl, hr⟩, hc⟩ => ⟨hc, hr, hl⟩, fun ⟨hc, hr, hl⟩ => ⟨⟨hl, hr⟩, hc⟩⟩

lemma supports_comm (leftType rightType : DataType) :
    Comparison.supports leftType rightType = Comparison.supports rightType leftType := by
  cases leftType <;> cases rightType <;> rfl

/-- The same for a condition, for which the operands may be flipped. -/
lemma meets_comparison {condition : PredicateCondition} {c : Comparison} {flip : Bool}
    {comparable : Prop} (hcondition : comparisonOf condition = some (c, flip))
    (hl : Meets n leftType leftShape leftRequest) (hr : Meets n rightType rightShape rightRequest)
    (hcomparable : comparable ↔ Comparison.supports leftType rightType = true) :
    Meets n .int (.comparison comparable leftShape rightShape)
      (evaluateBinaryPredicateExpression condition leftRequest rightRequest) := by
  rw [evaluateBinaryPredicateExpression, hcondition]
  cases flip with
  | false => exact meets_evaluateBinaryWithDefaultNullLogic hl hr hcomparable
  | true =>
    rw [ResultShape.comparison_comm]
    exact meets_evaluateBinaryWithDefaultNullLogic hr hl
      (supports_comm leftType rightType ▸ hcomparable)

omit [FloatingPoint R] in
lemma exists_comparisonOf_lowerCondition (condition : PredicateCondition) :
    ∃ c, comparisonOf (lowerCondition condition) = some c := by
  rw [lowerCondition]
  split <;> exact ⟨_, rfl⟩

omit [FloatingPoint R] in
lemma exists_comparisonOf_upperCondition (condition : PredicateCondition) :
    ∃ c, comparisonOf (upperCondition condition) = some c := by
  rw [upperCondition]
  split <;> exact ⟨_, rfl⟩

end

end Skyrise

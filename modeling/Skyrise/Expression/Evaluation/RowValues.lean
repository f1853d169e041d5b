/-
Expressions at a row.

`valueAt` is what SQL says about an expression at a row: comparisons of NULLs are NULL,
the connectives are Kleene's, and an IN is a disjunction of comparisons.  Where there is
a result, this is what it has at the row.
-/
import Skyrise.Expression.Evaluation.InLists

namespace Skyrise

variable {R : Type}

section

variable [FloatingPoint R]

/-! ### Rows -/

/-- A comparison of two cells. -/
def comparedAt (c : Comparison) (leftType rightType : DataType) (left right : AllTypeVariant R) :
    Option Bool :=
  match left, right with
  | some l, some r => some (c.evaluate leftType rightType l r)
  | _, _ => none

/-- A condition on two cells. -/
def conditionAt (condition : PredicateCondition) (leftType rightType : DataType)
    (left right : AllTypeVariant R) : Option Bool :=
  match comparisonOf condition with
  | some (c, true) => comparedAt c rightType leftType right left
  | some (c, false) => comparedAt c leftType rightType left right
  | none => none

/-- The truth value of a cell. -/
def truthOf (v : AllTypeVariant R) : Option Bool := v.map Value.toBool

/-- Whether a cell is in a set: the elements that can be compared with the value are. -/
def setAt (negated : Bool) (value : Expression R) (v : AllTypeVariant R)
    (elements : List (Expression R × AllTypeVariant R)) : Option Bool :=
  (((elements.filter fun element =>
      ResultShape.isString element.1 == ResultShape.isString value).map fun element =>
    comparedAt .equals (typeOf value) (typeOf element.1) v element.2).foldl kleeneOr
      (some false)).map (xor negated)

section

variable (chunk : Chunk R) (computedAt : Expression R → AllTypeVariant R) (i : ℕ)

mutual

/-- What an expression is at a row of a chunk; `computedAt` is what the expressions are that are no
predicates. -/
def valueAt : Expression R → AllTypeVariant R
  | .node (.pqpColumn columnId _ _ _) _ => (chunk.getSegment columnId.toNat).variantAt i
  | .node (.logical logicalOperator) [left, right] =>
    (connective logicalOperator (truthOf (valueAt left)) (truthOf (valueAt right))).map .ofBool
  | .node (.binaryPredicate condition) [left, right] =>
    (conditionAt condition (typeOf left) (typeOf right) (valueAt left) (valueAt right)).map .ofBool
  | .node (.between condition) [value, lower, upper] =>
    (kleeneAnd
      (conditionAt (lowerCondition condition) (typeOf value) (typeOf lower) (valueAt value)
        (valueAt lower))
      (conditionAt (upperCondition condition) (typeOf value) (typeOf upper) (valueAt value)
        (valueAt upper))).map .ofBool
  | .node (.isNull condition) [operand] =>
    some (.ofBool (if condition = .isNull then (valueAt operand).isNone
      else !(valueAt operand).isNone))
  | .node (.inSet condition) [value, .node .list elements] =>
    (setAt (condition = .notIn) value (valueAt value) (valuesAt elements)).map .ofBool
  | .node (.inSet condition) [value, set] =>
    (setAt (condition = .notIn) value (valueAt value) [(set, valueAt set)]).map .ofBool
  | .node (.value v) _ => v
  | e => computedAt e

/-- What the elements of a list are at a row. -/
def valuesAt : List (Expression R) → List (Expression R × AllTypeVariant R)
  | [] => []
  | e :: elements => (e, valueAt e) :: valuesAt elements

end

lemma valuesAt_eq (elements : List (Expression R)) : valuesAt chunk computedAt i elements =
    elements.map fun e => (e, valueAt chunk computedAt i e) := by
  induction elements with
  | nil => rw [valuesAt, List.map_nil]
  | cons e elements ih => rw [valuesAt, ih, List.map_cons]

lemma valueAt_inSet (condition : PredicateCondition) (value set : Expression R) :
    valueAt chunk computedAt i (.node (.inSet condition) [value, set]) =
      (setAt (condition = .notIn) value (valueAt chunk computedAt i value)
        ((setElements set).map fun e => (e, valueAt chunk computedAt i e))).map .ofBool := by
  obtain ⟨node, arguments⟩ := set
  cases node <;> rw [valueAt] <;>
    first | rw [valuesAt_eq]; rfl | rfl | exact fun _ h => by cases h

end

/-! ### The rows of results -/

variable {r left right : ExpressionResult R} {n i : ℕ} {s leftShape rightShape : ResultShape}
  {leftType rightType t : DataType}
  {leftRequest rightRequest : Except Exception (ExpressionResult R)}

lemma cell_comparisonResult {c : Comparison} (hleft : left.HasShape n leftShape)
    (hright : right.HasShape n rightShape) (hi : i < n) :
    (comparisonResult c left right).cell i =
      (comparedAt c left.dataType right.dataType (left.cell i) (right.cell i)).map .ofBool := by
  have hvalue : (comparisonResult c left right).value i =
      .ofBool (c.evaluate left.dataType right.dataType (left.value i) (right.value i)) := by
    rw [comparisonResult, value_map_range (readable_resultSize hleft hright hi)]
    intro hone
    obtain ⟨hl, hr⟩ := size_eq_one_of_resultSize hone
    rw [value_of_size_eq_one hl i, value_of_size_eq_one hr i]
  rw [ExpressionResult.cell, ExpressionResult.cell, ExpressionResult.cell, hvalue,
    isNull_comparisonResult hleft hright]
  cases left.isNull i <;> cases right.isNull i <;> rfl

/-- The rows of a comparison that has a result. -/
lemma cell_of_comparison {condition : PredicateCondition} {c : Comparison × Bool}
    (hcondition : comparisonOf condition = some c) (hl : Meets n leftType leftShape leftRequest)
    (hr : Meets n rightType rightShape rightRequest)
    (hok : evaluateBinaryPredicateExpression condition leftRequest rightRequest = .ok r) :
    ∃ left right, leftRequest = .ok left ∧ rightRequest = .ok right ∧ ∀ i < n, r.cell i =
      (conditionAt condition leftType rightType (left.cell i) (right.cell i)).map .ofBool := by
  have hcompare : ∀ {t t' : DataType} {s s' : ResultShape}
      {request request' : Except Exception (ExpressionResult R)},
      Meets n t s request → Meets n t' s' request' →
      evaluateBinaryWithDefaultNullLogic c.1 request request' = .ok r →
      ∃ left right, request = .ok left ∧ request' = .ok right ∧ ∀ i < n, r.cell i =
        (comparedAt c.1 t t' (left.cell i) (right.cell i)).map .ofBool := by
    intro t t' s s' request request' h h' hok
    obtain ⟨hsupports, heval, heval'⟩ :=
      ((meets_evaluateBinaryWithDefaultNullLogic h h' Iff.rfl).2 r hok).1
    obtain ⟨left, rfl⟩ := h.1 heval
    obtain ⟨right, rfl⟩ := h'.1 heval'
    obtain ⟨-, htype, hshape⟩ := h.2 left rfl
    obtain ⟨-, htype', hshape'⟩ := h'.2 right rfl
    rw [← htype, ← htype'] at hsupports
    rw [evaluateBinaryWithDefaultNullLogic_eq_ok hshape hshape' hsupports] at hok
    obtain rfl := Except.ok.inj hok
    refine ⟨left, right, rfl, rfl, fun i hi => ?_⟩
    rw [cell_comparisonResult hshape hshape' hi, htype, htype']
  rw [evaluateBinaryPredicateExpression, hcondition] at hok
  simp only [conditionAt, hcondition]
  obtain ⟨c, flip⟩ := c
  cases flip with
  | false => exact hcompare hl hr hok
  | true =>
    obtain ⟨right, left, hright, hleft, hcell⟩ := hcompare hr hl hok
    exact ⟨left, right, hleft, hright, hcell⟩

lemma cell_logicalResult {logicalOperator : LogicalOperator} (hleft : left.HasShape n leftShape)
    (hright : right.HasShape n rightShape) (hi : i < n) :
    (logicalResult logicalOperator left right).cell i =
      (connective logicalOperator (truthOf (left.cell i)) (truthOf (right.cell i))).map
        .ofBool := by
  have hreadable := readable_resultSize hleft hright hi
  have hone : resultSize left.size right.size = 1 →
      ternaryAt logicalOperator left right i = ternaryAt logicalOperator left right 0 := by
    intro hone
    obtain ⟨hl, hr⟩ := size_eq_one_of_resultSize hone
    rw [ternaryAt, ternaryAt, value_of_size_eq_one hl i, value_of_size_eq_one hr i,
      hleft.isNull_of_size_eq_one hl i, hright.isNull_of_size_eq_one hr i]
  rw [ExpressionResult.cell, logicalResult, value_map_range hreadable fun h => by rw [hone h],
    isNull_map_range hreadable fun h => by rw [hone h], ternaryAt, ExpressionResult.cell,
    ExpressionResult.cell]
  cases logicalOperator <;> cases left.isNull i <;> cases right.isNull i <;>
    cases hl : (left.value i).toBool <;> cases hr : (right.value i).toBool <;>
    simp [truthOf, connective, kleeneAnd, kleeneOr, ternary, hl, hr]

lemma cell_isNullResult {condition : PredicateCondition} (h : r.HasShape n s) (hi : i < n) :
    (isNullResult condition r).cell i = some (.ofBool
      (if condition = .isNull then (r.cell i).isNone else !(r.cell i).isNone)) := by
  have hnull : (isNullResult condition r).isNull i = false := rfl
  rw [ExpressionResult.cell, hnull, if_neg Bool.false_ne_true, isNullResult,
    value_map_range (h.readable hi), ExpressionResult.cell]
  · cases r.isNull i <;> rfl
  · intro hone
    rw [h.isNull_of_size_eq_one hone i]

lemma truthOf_ofBool (b : Option Bool) :
    truthOf (b.map Value.ofBool : AllTypeVariant R) = b := by
  cases b with
  | none => rfl
  | some b => exact congrArg some (toBool_ofBool b)

/-- A negated condition is the negation. -/
lemma conditionAt_equals (negated : Bool) (hl : leftType ≠ .null) (hr : rightType ≠ .null)
    (v w : AllTypeVariant R) :
    conditionAt (if negated then .notEquals else .equals) leftType rightType v w =
      (comparedAt .equals leftType rightType v w).map (xor negated) := by
  cases negated with
  | false => cases v <;> cases w <;> simp [conditionAt, comparisonOf, comparedAt]
  | true =>
    cases v <;> cases w <;>
      simp [conditionAt, comparisonOf, comparedAt, evaluate_notEquals hl hr]

lemma cell_searchResult {negated : Bool} {rightValues : List (Value R)} (h : r.HasShape n s)
    (hview : s.Viewable n) (hi : i < n) : (searchResult negated rightValues r).cell i =
      ((r.cell i).map fun v => xor negated (decide (v ∈ rightValues))).map .ofBool := by
  have hreadable := h.readable hi
  have hnullable : r.asView.isNullable = false → r.isNull i = false := fun hfalse => by
    have hread := ((h.view hview).2 i hreadable).2
    rw [ExpressionResultView.isNull_of_isNullable hfalse] at hread
    exact (Except.ok.inj hread).symm
  have hvalue : (searchResult negated rightValues r).value i =
      .ofBool (if r.asView.isNullable && r.isNull i then negated
        else if r.value i ∈ rightValues then !negated else negated) := by
    rw [searchResult, value_map_range hreadable]
    intro hone
    rw [h.isNull_of_size_eq_one hone i, value_of_size_eq_one hone i]
  have hnull : (searchResult negated rightValues r).isNull i = r.isNull i := by
    rw [searchResult]
    cases hview' : r.asView.isNullable with
    | false => exact (hnullable hview').symm
    | true =>
      simp only [Bool.true_and, if_true]
      exact isNull_map_range hreadable fun hone => h.isNull_of_size_eq_one hone i
  rw [ExpressionResult.cell, ExpressionResult.cell, hvalue, hnull]
  cases hnull' : r.isNull i with
  | true => rfl
  | false => cases negated <;> simp

/-- The rows of the comparisons of a value with elements. -/
lemma cell_foldl {negated : Bool} {value : Except Exception (ExpressionResult R)}
    {v : ℕ → AllTypeVariant R} (w : Expression R → ℕ → AllTypeVariant R) (ht : t ≠ .null)
    (hvalue : Meets n t s value) (hv : ∀ r, value = .ok r → ∀ i < n, r.cell i = v i)
    {rest : List (InElement R)} {restShapes : List (Expression R × ResultShape)}
    (hrest : List.Forall₂ (ElementMeets n) rest restShapes)
    (hcompatible : ∀ element ∈ rest, element.1.getDataType = .ok .string ↔ t = .string)
    (hw : ∀ element ∈ rest, ∀ r, resolveToExpressionResult element.1 element.2 = .ok r →
      ∀ i < n, r.cell i = w element.1 i) :
    ∀ (accShape : ResultShape) (acc : Except Exception (ExpressionResult R))
      (f : ℕ → Option Bool), Meets n .int accShape acc →
      (∀ r, acc = .ok r → ∀ i < n, r.cell i = ((f i).map (xor negated)).map .ofBool) →
      ∀ r, rest.foldl (fun result element =>
          evaluateLogicalExpression (if negated then .and else .or) result
            (evaluateBinaryPredicateExpression (if negated then .notEquals else .equals) value
              (resolveToExpressionResult element.1 element.2))) acc = .ok r →
        ∀ i < n, r.cell i = (((rest.map fun element => comparedAt .equals t (typeOf element.1) (v i)
          (w element.1 i)).foldl kleeneOr (f i)).map (xor negated)).map .ofBool := by
  induction hrest with
  | nil => exact fun _ _ _ _ hcell r hr => hcell r hr
  | @cons element shape rest restShapes helement _ ih =>
    intro accShape acc f hacc hcell
    rw [List.forall_mem_cons] at hcompatible hw
    obtain ⟨-, tel, htype, hne, hmeets⟩ := helement
    have hsupports : True ↔ Comparison.supports t tel = true := by
      rw [true_iff, supports_iff ht hne, ← hcompatible.1, htype, Except.ok.injEq]
    have hcondition : comparisonOf (if negated then .notEquals else .equals) =
        some (if negated then .notEquals else .equals, false) := by
      cases negated <;> rfl
    have hcompare := meets_comparison hcondition hvalue hmeets hsupports
    refine ih hcompatible.2 hw.2 _ _ (fun i => kleeneOr (f i)
      (comparedAt .equals t (typeOf element.1) (v i) (w element.1 i)))
      (meets_logical hacc hcompare) fun r hr i hi => ?_
    obtain ⟨joined, compared, hjoined, hcompared, hshape, hshape', -, -, rfl⟩ :=
      operands_of_evaluateLogicalExpression_eq_ok hacc hcompare hr
    obtain ⟨left, right, hleft, hright, hrow⟩ :=
      cell_of_comparison hcondition hvalue hmeets hcompared
    rw [cell_logicalResult hshape hshape' hi, hcell joined hjoined i hi, hrow i hi,
      hv left hleft i hi, hw.1 right hright i hi, truthOf_ofBool, truthOf_ofBool,
      conditionAt_equals negated ht hne, connective_map_xor, typeOf_eq htype]

omit [FloatingPoint R] in
lemma typeOf_of_root {e : Expression R} {u : Value R} (h : e.root = .value (some u)) :
    typeOf e = u.dataType := by
  obtain ⟨node, arguments⟩ := e
  obtain rfl : node = .value (some u) := h
  exact typeOf_eq rfl

/-- The rows of a search of literals. -/
lemma cell_of_searched {negated : Bool} {value : Expression R}
    {valueRequest : DataType → Except Exception (ExpressionResult R)}
    {first : InElement R} {rest : List (InElement R)} {v : ℕ → AllTypeVariant R}
    (w : Expression R → AllTypeVariant R)
    (hvalue : Meets n t s (resolveToExpressionResult value valueRequest))
    (hv : ∀ r, resolveToExpressionResult value valueRequest = .ok r →
      ∀ i < n, r.cell i = v i ∧ ∀ u, v i = some u → u.dataType = t)
    (hall : ∀ element ∈ first :: rest, isValueOfType t element.1 = true)
    (hliteral : ∀ element ∈ first :: rest, ∀ u, element.1.root = .value (some u) →
      w element.1 = some u)
    (hok : (do
        let result ← resolveToExpressionResult value valueRequest
        let cells ← (List.range result.asView.size).mapM (searchView negated
          ((first :: rest).filterMap fun element : InElement R => literalOf element.1) result)
        return (⟨.int, cells.map fun cell : Bool × Bool => .ofBool cell.1,
          if result.asView.isNullable then cells.map Prod.snd else []⟩ : ExpressionResult R)) =
      .ok r) (hi : i < n) :
    r.cell i = ((((first :: rest).map fun element =>
        comparedAt .equals t (typeOf element.1) (v i) (w element.1)).foldl kleeneOr
          (some false)).map (xor negated)).map .ofBool := by
  set rightValues := (first :: rest).filterMap fun element : InElement R => literalOf element.1
    with hrightValues
  obtain ⟨⟨heval, hview⟩, -⟩ := (meets_searchView hvalue).2 r hok
  obtain ⟨left, hleft⟩ := hvalue.1 heval
  have hshape := (hvalue.2 left hleft).2.2
  rw [hleft, search_eq_ok negated rightValues hshape hview] at hok
  obtain rfl := Except.ok.inj hok
  rw [cell_searchResult hshape hview hi, (hv left hleft i hi).1]
  have hroot : ∀ element ∈ first :: rest, ∃ u : Value R,
      element.1.root = .value (some u) ∧ u.dataType = t ∧ typeOf element.1 = t ∧
        w element.1 = some u := by
    intro element helement
    have hvalueOf := hall element helement
    rw [isValueOfType] at hvalueOf
    split at hvalueOf
    · next u hu =>
      have hdataType : u.dataType = t := by simpa using hvalueOf
      exact ⟨u, hu, hdataType, hdataType ▸ typeOf_of_root hu,
        hliteral element helement u hu⟩
    · cases hvalueOf
  refine congrArg (Option.map Value.ofBool) ?_
  cases hvi : v i with
  | none =>
    have hnone : ∀ w : AllTypeVariant R, ∀ t', comparedAt .equals t t' none w = none :=
      fun _ _ => rfl
    rw [foldl_kleeneOr]
    simp [hnone]
  | some x =>
    have hx := (hv left hleft i hi).2 x hvi
    have hcompared : ∀ element ∈ first :: rest, ∀ u : Value R,
        element.1.root = .value (some u) →
        comparedAt .equals t (typeOf element.1) (some x) (w element.1) =
          some (decide (x = u)) := by
      intro element helement u hu
      obtain ⟨u', hu', hdataType, htypeOf, hw'⟩ := hroot element helement
      obtain rfl : u' = u := by simpa [hu] using hu'.symm
      rw [htypeOf, hw', ← hx]
      have h := equalsAt_self (hx.trans hdataType.symm)
      rwa [equalsAt, hdataType, ← hx] at h
    have htrue : some true ∈ some false :: (first :: rest).map (fun element =>
        comparedAt .equals t (typeOf element.1) (some x) (w element.1)) ↔
          x ∈ rightValues := by
      rw [hrightValues, List.mem_filterMap, List.mem_cons, List.mem_map]
      constructor
      · rintro (h | ⟨element, helement, hequals⟩)
        · cases h
        · obtain ⟨u, hu, -⟩ := hroot element helement
          rw [hcompared element helement u hu, Option.some.injEq, decide_eq_true_eq] at hequals
          exact ⟨element, helement, by rw [literalOf, hu, hequals]⟩
      · rintro ⟨element, helement, hx'⟩
        obtain ⟨u, hu, -⟩ := hroot element helement
        rw [literalOf, hu] at hx'
        refine .inr ⟨element, helement, ?_⟩
        rw [hcompared element helement u hu, decide_eq_true (Option.some.inj hx').symm]
    have hnone : none ∉ some false :: (first :: rest).map (fun element =>
        comparedAt .equals t (typeOf element.1) (some x) (w element.1)) := by
      rw [List.mem_cons, List.mem_map]
      rintro (h | ⟨element, helement, hequals⟩)
      · cases h
      · obtain ⟨u, hu, -⟩ := hroot element helement
        rw [hcompared element helement u hu] at hequals
        cases hequals
    rw [foldl_kleeneOr, if_neg hnone]
    by_cases h : x ∈ rightValues
    · rw [if_pos (htrue.mpr h), Option.map_some, decide_eq_true h, Option.map_some]
    · rw [if_neg fun h' => h (htrue.mp h'), Option.map_some, decide_eq_false h, Option.map_some]

/-- The rows of an IN that is rewritten to comparisons. -/
lemma cell_of_rewritten {negated : Bool} {valueResult : Except Exception (ExpressionResult R)}
    {first : InElement R} {rest : List (InElement R)} {shapes : List (Expression R × ResultShape)}
    {v : ℕ → AllTypeVariant R} (w : Expression R → ℕ → AllTypeVariant R) (ht : t ≠ .null)
    (hvalue : Meets n t s valueResult)
    (hv : ∀ r, valueResult = .ok r → ∀ i < n, r.cell i = v i)
    (hcompatible : List.Forall₂ (ElementMeets n) (first :: rest) shapes)
    (hstring : ∀ element ∈ first :: rest, element.1.getDataType = .ok .string ↔ t = .string)
    (hw : ∀ element ∈ first :: rest, ∀ r, resolveToExpressionResult element.1 element.2 = .ok r →
      ∀ i < n, r.cell i = w element.1 i)
    (hok : evaluateRewrittenInExpression negated valueResult (first :: rest) = .ok r) (hi : i < n) :
    r.cell i = ((((first :: rest).map fun element =>
        comparedAt .equals t (typeOf element.1) (v i) (w element.1 i)).foldl kleeneOr
          (some false)).map (xor negated)).map .ofBool := by
  obtain ⟨firstShape, restShapes, hfirst, hrest, -⟩ := List.forall₂_cons_left_iff.mp hcompatible
  rw [List.forall_mem_cons] at hstring hw
  obtain ⟨-, tel, htel, hne, hmeets⟩ := hfirst
  have hsupports : True ↔ Comparison.supports t tel = true := by
    rw [true_iff, supports_iff ht hne, ← hstring.1, htel, Except.ok.injEq]
  have hcondition : comparisonOf (if negated then .notEquals else .equals) =
      some (if negated then .notEquals else .equals, false) := by
    cases negated <;> rfl
  have hcompare := meets_comparison hcondition hvalue hmeets hsupports
  rw [List.map_cons, List.foldl_cons]
  have hfalse : ∀ b : Option Bool, kleeneOr (some false) b = b := by
    rintro (_ | _ | _) <;> rfl
  rw [hfalse]
  refine cell_foldl w ht hvalue hv hrest hstring.2 hw.2 _ _ (fun i =>
    comparedAt .equals t (typeOf first.1) (v i) (w first.1 i)) hcompare (fun r hr i hi => ?_)
    r hok i hi
  obtain ⟨left, right, hleft, hright, hrow⟩ := cell_of_comparison hcondition hvalue hmeets hr
  rw [hrow i hi, hv left hleft i hi, hw.1 right hright i hi,
    conditionAt_equals negated ht hne, typeOf_eq htel]

/-- The rows of an IN that has a result. -/
lemma cell_of_inList {negated : Bool} {value : Expression R}
    {valueRequest : DataType → Except Exception (ExpressionResult R)}
    {elements : List (InElement R)} {shapes : List (Expression R × ResultShape)}
    {v : ℕ → AllTypeVariant R}
    (w : Expression R → ℕ → AllTypeVariant R) (htype : value.getDataType = .ok t) (ht : t ≠ .null)
    (hvalue : Meets n t s (resolveToExpressionResult value valueRequest))
    (hv : ∀ r, resolveToExpressionResult value valueRequest = .ok r →
      ∀ i < n, r.cell i = v i ∧ ∀ u, v i = some u → u.dataType = t)
    (helements : List.Forall₂ (ElementMeets n) elements shapes)
    (hw : ∀ element ∈ elements, ∀ r, resolveToExpressionResult element.1 element.2 = .ok r →
      ∀ i < n, r.cell i = w element.1 i)
    (hliteral : ∀ element ∈ elements, ∀ u, element.1.root = .value (some u) →
      ∀ i, w element.1 i = some u)
    (hok : evaluateInExpression negated value valueRequest elements = .ok r) (hi : i < n) :
    r.cell i = (setAt negated value (v i) (elements.map fun element =>
      (element.1, w element.1 i))).map .ofBool := by
  have htypes : ∀ element ∈ elements, element.1.getDataType = .ok (typeOf element.1) := by
    intro element helement
    obtain ⟨shape, -, -, tel, htel, -⟩ := helements.exists_of_mem helement
    rw [typeOf_eq htel, htel]
  have hset : setAt negated value (v i) (elements.map fun element => (element.1, w element.1 i)) =
      (((compatibleElements value elements).map fun element =>
        comparedAt .equals t (typeOf element.1) (v i) (w element.1 i)).foldl kleeneOr
          (some false)).map (xor negated) := by
    rw [setAt, List.filter_map, List.map_map, typeOf_eq htype]
    rfl
  have hmem : ∀ element ∈ compatibleElements value elements, element ∈ elements :=
    fun element helement => List.mem_of_mem_filter helement
  have hcompatible := forall₂_compatibleElements value helements
  rw [evaluateInExpression_eq htype ht htypes] at hok
  rw [hset]
  cases hc : compatibleElements value elements with
  | nil =>
    rw [hc] at hok
    obtain rfl := Except.ok.inj hok
    have hnull : (⟨.int, [.ofBool negated], []⟩ : ExpressionResult R).isNull i = false := rfl
    rw [ExpressionResult.cell, hnull, cell_scalar]
    cases negated <;> rfl
  | cons first rest =>
    rw [hc] at hok hcompatible hmem
    rw [List.isEmpty_cons, if_neg Bool.false_ne_true] at hok
    split at hok
    · -- the list is searched
      next hall =>
      exact cell_of_searched (fun e => w e i) hvalue hv
        (fun element helement => List.all_eq_true.mp hall element (hmem element helement))
        (fun element helement u hu => hliteral element (hmem element helement) u hu i) hok hi
    · -- the list is rewritten
      refine cell_of_rewritten w ht hvalue (fun l hl i hi => (hv l hl i hi).1) hcompatible ?_
        (fun element helement => hw element (hmem element helement)) hok hi
      intro element helement
      rw [← hc, compatibleElements, List.mem_filter] at helement
      simpa [ResultShape.isString, htype] using helement.2

/-! ### The rows of expressions -/

variable {computed : Expression R → DataType → Except Exception (ExpressionResult R)}
  {computedShape : Expression R → ResultShape} {table : Table R} {chunkId : ℕ} {e : Expression R}
  {b : Bool}

variable (computed) in
/-- What an expression that is no predicate is at a row. -/
def computedAt (i : ℕ) (e : Expression R) : AllTypeVariant R :=
  match computed e (typeOf e) with
  | .ok r => r.cell i
  | .error _ => none

/-- The values of a result have its type. -/
def ValuesTyped (computed : Expression R → DataType → Except Exception (ExpressionResult R)) :
    Prop :=
  ∀ e t r, computed e t = .ok r → ∀ v ∈ r.values, v.dataType = t

lemma dataType_of_cell (h : r.HasShape n s) (hvalues : ∀ v ∈ r.values, v.dataType = t) (hi : i < n)
    {v : Value R} (hv : r.cell i = some v) : v.dataType = t := by
  rw [ExpressionResult.cell] at hv
  split at hv
  · cases hv
  · have hreadable := h.readable hi
    have hlt : min i (r.size - 1) < r.values.length := by
      rw [ExpressionResult.size] at hreadable ⊢
      omega
    rw [ExpressionResult.value, List.getD_eq_getElem?_getD, List.getElem?_eq_getElem hlt,
      Option.getD_some, Option.some.injEq] at hv
    exact hvalues v (hv ▸ List.getElem_mem hlt)

omit [FloatingPoint R] in
lemma dataType_of_map_ofBool {b : Option Bool} {v : Value R} (h : b.map .ofBool = some v) :
    v.dataType = .int := by
  cases b with
  | none => cases h
  | some b =>
    obtain rfl := Option.some.inj h
    rfl

lemma valueAt_of_root {chunk : Chunk R} {computedAt : Expression R → AllTypeVariant R}
    {v : AllTypeVariant R} (h : e.root = .value v) : valueAt chunk computedAt i e = v := by
  obtain ⟨node, arguments⟩ := e
  obtain rfl : node = .value v := h
  rw [valueAt]

lemma valueAt_computed {chunk : Chunk R} {computedAt : Expression R → AllTypeVariant R}
    (he : IsComputed e) : valueAt chunk computedAt i e = computedAt e := by
  obtain ⟨node, arguments⟩ := e
  cases node <;> simp only [IsComputed, Expression.root] at he <;> rw [valueAt] <;> simp

lemma evaluateExpressionToResult_computed (he : IsComputed e) :
    evaluateExpressionToResult computed table chunkId e t = computed e t := by
  obtain ⟨node, arguments⟩ := e
  cases node <;> simp only [IsComputed, Expression.root] at he <;>
    rw [evaluateExpressionToResult] <;> simp

lemma cell_of_represents {cells : ℕ → AllTypeVariant R} (h : r.Represents t n cells) (hi : i < n) :
    r.cell i = cells i := by
  rw [ExpressionResult.cell, h.isNull i hi]
  cases hcell : cells i with
  | none => rfl
  | some v => rw [Option.isNone_some, if_neg Bool.false_ne_true, h.value i hi v hcell]

/-- The result of an expression has its values in the rows, and they have its type. -/
lemma IsTyped.cell (hchunk : (table.getChunk chunkId).WellFormed table.columnDefinitions)
    (hcomputed : ValuesTyped computed)
    (h : IsTyped computed computedShape table (table.getChunk chunkId).size b e t) :
    ∀ r, resolve computed table chunkId e = .ok r → ∀ i < (table.getChunk chunkId).size,
      r.cell i = valueAt (table.getChunk chunkId) (computedAt computed i) i e ∧
        ∀ v, valueAt (table.getChunk chunkId) (computedAt computed i) i e = some v →
          v.dataType = t := by
  induction h with
  | @column e t h =>
    intro r hr i hi
    obtain ⟨r', hr', hrep, -⟩ :=
      (h.spec computed hchunk).1 ((h.spec computed hchunk).2 r hr)
    obtain rfl := Except.ok.inj (hr.symm.trans hr')
    have hvalue : valueAt (table.getChunk chunkId) (computedAt computed i) i e =
        cellOf (table.getChunk chunkId) i e := by
      cases h
      rw [valueAt]
      rfl
    rw [hvalue]
    exact ⟨cell_of_represents hrep hi,
      fun v hv => (IsOperand.column h).dataType_of_cellOf hchunk hv⟩
  | literal v =>
    intro r hr i hi
    obtain rfl := Except.ok.inj (hr.symm.trans (resolve_literal computed table chunkId (some v)))
    rw [valueAt]
    exact ⟨congrArg some (value_of_size_eq_one rfl i), fun w hw => by cases hw; rfl⟩
  | integer v =>
    intro r hr i hi
    obtain rfl :=
      Except.ok.inj (hr.symm.trans (resolve_literal computed table chunkId (some (.int v))))
    rw [valueAt]
    exact ⟨congrArg some (value_of_size_eq_one rfl i), fun w hw => by cases hw; rfl⟩
  | @computed e t he htype ht hmeets =>
    intro r hr i hi
    have hresolved : IsResolved computed computedShape table chunkId e t :=
      .of_isComputed he htype ht hmeets
    have hrun : computed e t = .ok r := by
      rw [resolve_eq hresolved.dataType ht hresolved.ne_list] at hr
      rwa [evaluateExpressionToResult_computed he] at hr
    rw [valueAt_computed he, computedAt, typeOf_eq htype, hrun]
    exact ⟨rfl, fun v => dataType_of_cell (hmeets.2 r hrun).2.2 (hcomputed e t r hrun) hi⟩
  | @comparison condition c left right _ _ leftType rightType hcondition hleft hright ihleft
      ihright =>
    intro r hr i hi
    have hl := hleft.isResolved hchunk
    have hr' := hright.isResolved hchunk
    have hresolved := (IsTyped.comparison hcondition hleft hright).isResolved hchunk
    rw [resolve_eq hresolved.dataType hresolved.ne_null hresolved.ne_list,
      evaluateExpressionToResult] at hr
    obtain ⟨l, r', hokl, hokr, hcell⟩ := cell_of_comparison hcondition hl.meets hr'.meets hr
    rw [valueAt, hcell i hi, (ihleft l hokl i hi).1, (ihright r' hokr i hi).1,
      typeOf_eq hl.dataType, typeOf_eq hr'.dataType]
    exact ⟨rfl, fun v => dataType_of_map_ofBool⟩
  | @between condition value lower upper _ _ _ _ _ _ hvalue hlower hupper ihvalue ihlower ihupper =>
    intro r hr i hi
    have hv := hvalue.isResolved hchunk
    have hl := hlower.isResolved hchunk
    have hu := hupper.isResolved hchunk
    have hresolved := (IsTyped.between condition hvalue hlower hupper).isResolved hchunk
    rw [resolve_eq hresolved.dataType hresolved.ne_null hresolved.ne_list,
      evaluateExpressionToResult] at hr
    obtain ⟨c, hc⟩ := exists_comparisonOf_lowerCondition condition
    obtain ⟨c', hc'⟩ := exists_comparisonOf_upperCondition condition
    obtain ⟨left, right, hleft, hright, hshapel, hshaper, -, -, rfl⟩ :=
      operands_of_evaluateLogicalExpression_eq_ok
        (meets_comparison hc hv.meets hl.meets (comparable_iff hv hl))
        (meets_comparison hc' hv.meets hu.meets (comparable_iff hv hu)) hr
    obtain ⟨v, l, hokv, hokl, hlower'⟩ := cell_of_comparison hc hv.meets hl.meets hleft
    obtain ⟨v', u, hokv', hoku, hupper'⟩ := cell_of_comparison hc' hv.meets hu.meets hright
    rw [valueAt, cell_logicalResult hshapel hshaper hi, hlower' i hi, hupper' i hi,
      (ihvalue v hokv i hi).1, (ihvalue v' hokv' i hi).1, (ihlower l hokl i hi).1,
      (ihupper u hoku i hi).1, truthOf_ofBool, truthOf_ofBool, typeOf_eq hv.dataType,
      typeOf_eq hl.dataType, typeOf_eq hu.dataType]
    exact ⟨rfl, fun v => dataType_of_map_ofBool⟩
  | @isNull condition operand _ _ hoperand ih =>
    intro r hr i hi
    have hmeets := (hoperand.isResolved hchunk).meets
    have hresolved := (IsTyped.isNull condition hoperand).isResolved hchunk
    rw [resolve_eq hresolved.dataType hresolved.ne_null hresolved.ne_list,
      evaluateExpressionToResult] at hr
    obtain ⟨⟨heval, hview⟩, -⟩ := (meets_isNull hmeets).2 r hr
    obtain ⟨operandResult, hok⟩ := hmeets.1 heval
    have hshape := (hmeets.2 operandResult hok).2.2
    replace hr : evaluateIsNullExpression condition (resolve computed table chunkId operand) =
        .ok r := hr
    rw [hok, evaluateIsNullExpression_eq_ok hshape hview] at hr
    obtain rfl := Except.ok.inj hr
    rw [valueAt, cell_isNullResult hshape hi, (ih operandResult hok i hi).1]
    refine ⟨rfl, fun v hv => ?_⟩
    obtain rfl := Option.some.inj hv
    rfl
  | @inSet condition value set _ _ flag type hvalue helements ihvalue ihelements =>
    intro r hr i hi
    have hv := hvalue.isResolved hchunk
    have hresolved := (IsTyped.inSet condition flag type hvalue helements).isResolved hchunk
    rw [resolve_eq hresolved.dataType hresolved.ne_null hresolved.ne_list,
      evaluateExpressionToResult_inSet] at hr
    have hcell := cell_of_inList
      (fun e i => valueAt (table.getChunk chunkId) (computedAt computed i) i e)
      (v := fun i => valueAt (table.getChunk chunkId) (computedAt computed i) i value)
      hv.dataType hv.ne_null hv.meets ihvalue
      (forall₂_elementMeets fun e he => (helements e he).isResolved hchunk) ?_ ?_ hr hi
    · rw [valueAt_inSet, hcell, List.map_map]
      exact ⟨rfl, fun v => dataType_of_map_ofBool⟩
    · intro element helement l hl i hi
      obtain ⟨e, he, rfl⟩ := List.mem_map.mp helement
      exact (ihelements e he l hl i hi).1
    · intro element helement u hu i
      exact valueAt_of_root hu
  | @logical logicalOperator left right hleft hright ihleft ihright =>
    intro r hr i hi
    have hl := hleft.isResolved hchunk
    have hr' := hright.isResolved hchunk
    have hresolved := (IsTyped.logical logicalOperator hleft hright).isResolved hchunk
    rw [resolve_eq hresolved.dataType hresolved.ne_null hresolved.ne_list,
      evaluateExpressionToResult] at hr
    obtain ⟨l, r', hokl, hokr, hshapel, hshaper, -, -, rfl⟩ :=
      operands_of_evaluateLogicalExpression_eq_ok hl.meets hr'.meets hr
    rw [valueAt, cell_logicalResult hshapel hshaper hi, (ihleft l hokl i hi).1,
      (ihright r' hokr i hi).1]
    exact ⟨rfl, fun v => dataType_of_map_ofBool⟩

/-! ### The rows that a predicate selects -/

/-- Whether a cell is true, so neither false nor NULL. -/
def isTrue (v : AllTypeVariant R) : Bool := truthOf v = some true

variable (computed computedShape table chunkId) in
/-- When there are the positions of a predicate: conjunctions and disjunctions, also those that
BETWEEN is rewritten to, do not look at the flags of their operands. -/
def PositionsEvaluable : Expression R → Prop
  | .node (.logical _) [left, right] => PositionsEvaluable left ∧ PositionsEvaluable right
  | .node (.between _) [value, lower, upper] =>
    let shape := shapeOf computedShape table (table.getChunk chunkId)
    (ResultShape.comparison (Comparable value lower) (shape value) (shape lower)).evaluable ∧
      (ResultShape.comparison (Comparable value upper) (shape value) (shape upper)).evaluable
  | e => (shapeOf computedShape table (table.getChunk chunkId) e).evaluable ∧
      PositionsReadable computed computedShape table chunkId e

lemma truePositions_eq {f : ℕ → AllTypeVariant R}
    (h : ∀ i < (table.getChunk chunkId).size, r.cell i = f i) :
    truePositions table chunkId r = positionsOf table chunkId fun i => isTrue (f i) := by
  refine positionsOf_congr fun i hi => ?_
  rw [← h i hi, ExpressionResult.cell]
  cases r.isNull i <;> simp [isTrue, truthOf]

lemma isTrue_ofBool (b : Option Bool) :
    isTrue (b.map Value.ofBool : AllTypeVariant R) = decide (b = some true) := by
  rw [isTrue, truthOf_ofBool]

/-- The positions of a comparison, and when there are some. -/
lemma comparisonToPositionList_eq_positionsOf {condition : PredicateCondition}
    {c : Comparison × Bool} (hcondition : comparisonOf condition = some c) {comparable : Prop}
    {v w : ℕ → AllTypeVariant R}
    (hl : Meets (table.getChunk chunkId).size leftType leftShape leftRequest)
    (hr : Meets (table.getChunk chunkId).size rightType rightShape rightRequest)
    (hcomparable : comparable ↔ Comparison.supports leftType rightType = true)
    (hv : ∀ l, leftRequest = .ok l → ∀ i < (table.getChunk chunkId).size, l.cell i = v i)
    (hw : ∀ r, rightRequest = .ok r → ∀ i < (table.getChunk chunkId).size, r.cell i = w i) :
    ((ResultShape.comparison comparable leftShape rightShape).evaluable →
      comparisonToPositionList table chunkId condition leftRequest rightRequest =
        .ok (positionsOf table chunkId fun i =>
          decide (conditionAt condition leftType rightType (v i) (w i) = some true))) ∧
    ∀ positions,
      comparisonToPositionList table chunkId condition leftRequest rightRequest = .ok positions →
        (ResultShape.comparison comparable leftShape rightShape).evaluable := by
  constructor
  · intro heval
    obtain ⟨r, hr'⟩ := (meets_comparison hcondition hl hr hcomparable).1 heval
    obtain ⟨left, right, hleft, hright, hcell⟩ := cell_of_comparison hcondition hl hr hr'
    rw [comparisonToPositionList_eq_ok hcondition hl hr hr', truePositions_eq hcell]
    refine congrArg Except.ok (positionsOf_congr fun i hi => ?_)
    rw [isTrue_ofBool, hv left hleft i hi, hw right hright i hi]
  · intro positions hpositions
    rw [comparisonToPositionList, hcondition] at hpositions
    obtain ⟨c, flip⟩ := c
    cases flip with
    | false =>
      obtain ⟨l, r, rfl, rfl, hsupports⟩ := of_compareToPositionList_eq_ok hpositions
      obtain ⟨hel, htypel, -⟩ := hl.2 l rfl
      obtain ⟨her, htyper, -⟩ := hr.2 r rfl
      exact ⟨hcomparable.mpr (htypel ▸ htyper ▸ hsupports), hel, her⟩
    | true =>
      obtain ⟨r, l, rfl, rfl, hsupports⟩ := of_compareToPositionList_eq_ok hpositions
      obtain ⟨hel, htypel, -⟩ := hl.2 l rfl
      obtain ⟨her, htyper, -⟩ := hr.2 r rfl
      rw [supports_comm, htypel, htyper] at hsupports
      exact ⟨hcomparable.mpr hsupports, hel, her⟩

/-- The positions of a predicate are those of the rows at which it is true, and there are positions
exactly if it can be evaluated to some. -/
lemma IsTyped.positions (hchunk : (table.getChunk chunkId).WellFormed table.columnDefinitions)
    (hcomputed : ValuesTyped computed)
    (h : IsTyped computed computedShape table (table.getChunk chunkId).size b e t) (hb : b = true) :
    (PositionsEvaluable computed computedShape table chunkId e →
      evaluateExpressionToPositionList computed table chunkId e =
        .ok (positionsOf table chunkId fun i =>
          isTrue (valueAt (table.getChunk chunkId) (computedAt computed i) i e))) ∧
    ∀ positions, evaluateExpressionToPositionList computed table chunkId e = .ok positions →
      PositionsEvaluable computed computedShape table chunkId e := by
  have hofResult : ∀ {e : Expression R} {r : ExpressionResult R},
      IsTyped computed computedShape table (table.getChunk chunkId).size true e .int →
      resolve computed table chunkId e = .ok r →
      (IsIn e → Scannable (table.getChunk chunkId).size
        (shapeOf computedShape table (table.getChunk chunkId) e) r) →
      evaluateExpressionToPositionList computed table chunkId e =
        .ok (positionsOf table chunkId fun i =>
          isTrue (valueAt (table.getChunk chunkId) (computedAt computed i) i e)) := by
    intro e r he hr hscan
    have hresolved := he.isResolved hchunk
    have hok := hr
    rw [resolve_eq hresolved.dataType hresolved.ne_null hresolved.ne_list] at hok
    rw [he.evaluateExpressionToPositionList_eq_ok hchunk rfl r hok hscan,
      truePositions_eq fun i hi => (he.cell hchunk hcomputed r hr i hi).1]
  induction h with
  | column _ => cases hb
  | literal _ => cases hb
  | computed _ _ _ _ => cases hb
  | integer v =>
    refine ⟨fun _ => ?_, fun _ _ => ?_⟩
    · exact hofResult (.integer v) (resolve_literal computed table chunkId (some (.int v)))
        fun h => h.elim
    · rw [PositionsEvaluable, shapeOf]
      · exact ⟨trivial, trivial⟩
      all_goals simp
  | @comparison condition c left right _ _ _ _ hcondition hleft hright _ _ =>
    have hl := hleft.isResolved hchunk
    have hr := hright.isResolved hchunk
    have hlike : ¬ (condition = .like ∨ condition = .notLike) := by
      rintro (rfl | rfl) <;> cases hcondition
    have hpositions := comparisonToPositionList_eq_positionsOf hcondition hl.meets hr.meets
      (comparable_iff hl hr) (fun l hokl i hi => (hleft.cell hchunk hcomputed l hokl i hi).1)
      fun r hokr i hi => (hright.cell hchunk hcomputed r hokr i hi).1
    rw [evaluateExpressionToPositionList, if_neg hlike, PositionsEvaluable, shapeOf]
    · refine ⟨fun h => ?_, fun positions h => ⟨hpositions.2 positions h, trivial⟩⟩
      rw [hpositions.1 h.1]
      refine congrArg Except.ok (positionsOf_congr fun i hi => ?_)
      rw [valueAt, isTrue_ofBool, typeOf_eq hl.dataType, typeOf_eq hr.dataType]
    all_goals simp
  | @between condition value lower upper _ _ _ _ _ _ hvalue hlower hupper _ _ _ =>
    have hv := hvalue.isResolved hchunk
    have hl := hlower.isResolved hchunk
    have hu := hupper.isResolved hchunk
    obtain ⟨c, hc⟩ := exists_comparisonOf_lowerCondition condition
    obtain ⟨c', hc'⟩ := exists_comparisonOf_upperCondition condition
    have hcell := fun r hok i hi => (hvalue.cell hchunk hcomputed r hok i hi).1
    have hlower' := comparisonToPositionList_eq_positionsOf hc hv.meets hl.meets
      (comparable_iff hv hl) hcell fun r hok i hi => (hlower.cell hchunk hcomputed r hok i hi).1
    have hupper' := comparisonToPositionList_eq_positionsOf hc' hv.meets hu.meets
      (comparable_iff hv hu) hcell fun r hok i hi => (hupper.cell hchunk hcomputed r hok i hi).1
    rw [evaluateExpressionToPositionList, PositionsEvaluable]
    constructor
    · rintro ⟨hlowerEval, hupperEval⟩
      rw [hlower'.1 hlowerEval, hupper'.1 hupperEval]
      refine congrArg Except.ok ?_
      rw [intersection_positionsOf]
      refine positionsOf_congr fun i hi => ?_
      rw [valueAt, isTrue_ofBool, typeOf_eq hv.dataType, typeOf_eq hl.dataType,
        typeOf_eq hu.dataType, ← Bool.decide_and]
      simp only [kleeneAnd_eq_some_true]
    · intro positions hpositions
      obtain ⟨lowerPositions, hlowerOk, hrest⟩ := exists_of_bind_eq_ok hpositions
      obtain ⟨upperPositions, hupperOk, -⟩ := exists_of_bind_eq_ok hrest
      exact ⟨hlower'.2 lowerPositions hlowerOk, hupper'.2 upperPositions hupperOk⟩
  | @isNull condition operand _ _ hoperand _ =>
    have hmeets := (hoperand.isResolved hchunk).meets
    have hresolved := (IsTyped.isNull condition hoperand).isResolved hchunk
    refine ⟨fun h => ?_, fun positions hpositions => ?_⟩
    · rw [PositionsEvaluable] at h
      · obtain ⟨r, hr⟩ := hresolved.meets.1 h.1
        exact hofResult (.isNull condition hoperand) hr fun h => h.elim
      all_goals simp
    · rw [evaluateExpressionToPositionList] at hpositions
      obtain ⟨operandResult, hok, hrest⟩ := exists_of_bind_eq_ok hpositions
      obtain ⟨nulls, hnulls, -⟩ := exists_of_bind_eq_ok hrest
      obtain ⟨heval, -, hshape⟩ := hmeets.2 operandResult hok
      have hview := viewable_of_mapM hshape (Nat.le_refl _) hnulls fun i y hy => ⟨y, hy⟩
      rw [PositionsEvaluable, shapeOf]
      · exact ⟨⟨heval, hview⟩, trivial⟩
      all_goals simp
  | @inSet condition value set _ _ flag type hvalue helements _ _ =>
    have hin := IsTyped.inSet condition flag type hvalue helements
    have hresolved := hin.isResolved hchunk
    have hresolve : resolve computed table chunkId (.node (.inSet condition) [value, set]) =
        evaluateExpressionToResult computed table chunkId
          (.node (.inSet condition) [value, set]) .int :=
      resolve_eq hresolved.dataType hresolved.ne_null hresolved.ne_list
    refine ⟨fun h => ?_, fun positions hpositions => ?_⟩
    · rw [PositionsEvaluable] at h
      · obtain ⟨r, hr⟩ := hresolved.meets.1 h.1
        exact hofResult hin hr fun _ =>
          (scannable_iff hchunk hvalue helements (hresolve.symm.trans hr)).mpr h.2
      all_goals simp
    · rw [evaluateExpressionToPositionList] at hpositions
      obtain ⟨r, hr, -⟩ := exists_of_bind_eq_ok hpositions
      obtain ⟨heval, -, hshape⟩ := hresolved.meets.2 r (hresolve.trans hr)
      rw [hr] at hpositions
      rw [PositionsEvaluable]
      · exact ⟨heval, (scannable_iff hchunk hvalue helements hr).mp
          (scannable_of_scanToPositionList_eq_ok hshape hpositions)⟩
      all_goals simp
  | @logical logicalOperator left right hleft hright ihleft ihright =>
    rw [evaluateExpressionToPositionList, PositionsEvaluable]
    constructor
    · rintro ⟨hleftEval, hrightEval⟩
      rw [(ihleft rfl).1 hleftEval, (ihright rfl).1 hrightEval]
      cases logicalOperator with
      | and =>
        refine congrArg Except.ok ?_
        rw [intersection_positionsOf]
        refine positionsOf_congr fun i hi => ?_
        rw [valueAt, isTrue_ofBool, isTrue, isTrue, ← Bool.decide_and]
        simp only [connective, kleeneAnd_eq_some_true]
      | or =>
        refine congrArg Except.ok ?_
        rw [union_positionsOf]
        refine positionsOf_congr fun i hi => ?_
        rw [valueAt, isTrue_ofBool, isTrue, isTrue, ← Bool.decide_or]
        simp only [connective, kleeneOr_eq_some_true]
    · intro positions hpositions
      obtain ⟨leftPositions, hleftOk, hrest⟩ := exists_of_bind_eq_ok hpositions
      obtain ⟨rightPositions, hrightOk, -⟩ := exists_of_bind_eq_ok hrest
      exact ⟨(ihleft rfl).2 leftPositions hleftOk, (ihright rfl).2 rightPositions hrightOk⟩

end

end Skyrise

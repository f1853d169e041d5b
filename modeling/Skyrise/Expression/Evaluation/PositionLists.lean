/-
Position lists and results.

A predicate is evaluated to a position list by intersecting and uniting the positions
of its parts, and to a result by combining the values and the NULL flags of its
parts.  Both agree where every flag that is read is there.
-/
import Skyrise.Expression.Evaluation.TypedExpression

namespace Skyrise

variable {R : Type}

section

variable [FloatingPoint R]
  {computed : Expression R → DataType → Except Exception (ExpressionResult R)}
  {computedShape : Expression R → ResultShape} {table : Table R} {chunkId : ℕ}
  {e : Expression R} {t : DataType} {b : Bool} {n : ℕ}

/-! ### Positions of results -/

/-- The positions of the rows at which a result is neither NULL nor zero. -/
def truePositions (table : Table R) (chunkId : ℕ) (r : ExpressionResult R) : List RowId :=
  positionsOf table chunkId fun i => !r.isNull i && (r.value i).toBool

variable {r left right : ExpressionResult R} {s leftShape rightShape : ResultShape}

omit [FloatingPoint R] in
lemma toBool_ofBool [DecidableEq R] (b : Bool) : (Value.ofBool b : Value R).toBool = b := by
  cases b <;> simp [Value.ofBool, Value.toBool]

omit [FloatingPoint R] in
lemma ExpressionResult.HasShape.readable (h : r.HasShape n s) {i : ℕ} (hi : i < n) :
    i < r.size ∨ r.size = 1 := by
  rw [h.size]
  split
  · exact .inr rfl
  · exact .inl hi

omit [FloatingPoint R] in
lemma value_map_range [Zero R] {m i : ℕ} {f : ℕ → Value R} {nulls : List Bool} (hi : i < m ∨ m = 1)
    (hf : m = 1 → f i = f 0) :
    (⟨t, (List.range m).map f, nulls⟩ : ExpressionResult R).value i = f i := by
  rw [ExpressionResult.value, ExpressionResult.size, List.length_map, List.length_range]
  by_cases hm : m = 1
  · rw [hf hm, hm, Nat.sub_self, Nat.min_zero]
    rfl
  · have hlt := hi.resolve_right hm
    rw [Nat.min_eq_left (by omega)]
    simp [hlt]

omit [FloatingPoint R] in
lemma isNull_map_range {m i : ℕ} {f : ℕ → Bool} {values : List (Value R)} (hi : i < m ∨ m = 1)
    (hf : m = 1 → f i = f 0) :
    (⟨t, values, (List.range m).map f⟩ : ExpressionResult R).isNull i = f i := by
  have hm : m ≠ 0 := by omega
  rw [ExpressionResult.isNull, if_neg (by simpa using hm), List.length_map, List.length_range]
  by_cases hm : m = 1
  · rw [hf hm, hm, Nat.sub_self, Nat.min_zero]
    rfl
  · have hlt := hi.resolve_right hm
    rw [Nat.min_eq_left (by omega)]
    simp [hlt]

/-- A result with one value is the same at every row. -/
lemma value_of_size_eq_one (h : r.size = 1) (i : ℕ) : r.value i = r.value 0 := by
  rw [ExpressionResult.value, ExpressionResult.value, h, Nat.sub_self, Nat.min_zero, Nat.min_zero]

omit [FloatingPoint R] in
lemma ExpressionResult.HasShape.isNull_of_size_eq_one (h : r.HasShape n s) (hsize : r.size = 1)
    (i : ℕ) : r.isNull i = r.isNull 0 := by
  have hle := h.length_nulls_le hsize
  rw [ExpressionResult.isNull, ExpressionResult.isNull, show r.nulls.length - 1 = 0 by omega,
    Nat.min_zero, Nat.min_zero]

omit [FloatingPoint R] in
lemma size_eq_one_of_resultSize (h : resultSize left.size right.size = 1) :
    left.size = 1 ∧ right.size = 1 := by
  rw [resultSize] at h
  split at h
  · cases h
  · omega

omit [FloatingPoint R] in
lemma readable_resultSize (hleft : left.HasShape n leftShape) (hright : right.HasShape n rightShape)
    {i : ℕ} (hi : i < n) :
    i < resultSize left.size right.size ∨ resultSize left.size right.size = 1 := by
  rw [resultSize]
  rcases hleft.readable hi with hl | hl <;> rcases hright.readable hi with hr | hr <;>
    split <;> omega

lemma value_comparisonResult {c : Comparison} (hleft : left.HasShape n leftShape)
    (hright : right.HasShape n rightShape) {i : ℕ} (hi : i < n) :
    ((comparisonResult c left right).value i).toBool =
      c.evaluate left.dataType right.dataType (left.value i) (right.value i) := by
  rw [comparisonResult, value_map_range (readable_resultSize hleft hright hi), toBool_ofBool]
  intro hone
  obtain ⟨hl, hr⟩ := size_eq_one_of_resultSize hone
  rw [value_of_size_eq_one hl i, value_of_size_eq_one hr i]

/-- A comparison of results selects a row if it holds there and neither of them is NULL. -/
lemma truePositions_comparisonResult {c : Comparison}
    (hleft : left.HasShape (table.getChunk chunkId).size leftShape)
    (hright : right.HasShape (table.getChunk chunkId).size rightShape) :
    truePositions table chunkId (comparisonResult c left right) =
      positionsOf table chunkId fun i => !(left.isNull i || right.isNull i) &&
        c.evaluate left.dataType right.dataType (left.value i) (right.value i) := by
  refine positionsOf_congr fun i hi => ?_
  rw [isNull_comparisonResult hleft hright, value_comparisonResult hleft hright hi]

/-- A conjunction selects the rows that both operands select, a disjunction those that one does. -/
lemma truePositions_logicalResult {logicalOperator : LogicalOperator}
    (hleft : left.HasShape (table.getChunk chunkId).size leftShape)
    (hright : right.HasShape (table.getChunk chunkId).size rightShape) :
    truePositions table chunkId (logicalResult logicalOperator left right) =
      match logicalOperator with
      | .and => SortedSets.intersection (truePositions table chunkId left)
          (truePositions table chunkId right)
      | .or => SortedSets.union (truePositions table chunkId left)
          (truePositions table chunkId right) := by
  have hrow : truePositions table chunkId (logicalResult logicalOperator left right) =
      positionsOf table chunkId fun i => !(ternaryAt logicalOperator left right i).2 &&
        (ternaryAt logicalOperator left right i).1 := by
    refine positionsOf_congr fun i hi => ?_
    have hreadable := readable_resultSize hleft hright hi
    have hone : resultSize left.size right.size = 1 →
        ternaryAt logicalOperator left right i = ternaryAt logicalOperator left right 0 := by
      intro hone
      obtain ⟨hl, hr⟩ := size_eq_one_of_resultSize hone
      rw [ternaryAt, ternaryAt, value_of_size_eq_one hl i, value_of_size_eq_one hr i,
        hleft.isNull_of_size_eq_one hl i, hright.isNull_of_size_eq_one hr i]
    rw [logicalResult, value_map_range hreadable fun h => by rw [hone h],
      isNull_map_range hreadable fun h => by rw [hone h], toBool_ofBool]
  rw [hrow]
  cases logicalOperator with
  | and =>
    rw [truePositions, truePositions, intersection_positionsOf]
    refine positionsOf_congr fun i _ => ?_
    rw [ternaryAt, ternary]
    cases left.isNull i <;> cases right.isNull i <;> cases (left.value i).toBool <;>
      cases (right.value i).toBool <;> rfl
  | or =>
    rw [truePositions, truePositions, union_positionsOf]
    refine positionsOf_congr fun i _ => ?_
    rw [ternaryAt, ternary]
    cases left.isNull i <;> cases right.isNull i <;> cases (left.value i).toBool <;>
      cases (right.value i).toBool <;> rfl

lemma truePositions_isNullResult {condition : PredicateCondition}
    (h : r.HasShape (table.getChunk chunkId).size s) :
    truePositions table chunkId (isNullResult condition r) = positionsOf table chunkId fun i =>
      if condition = .isNull then r.isNull i else !r.isNull i := by
  refine positionsOf_congr fun i hi => ?_
  rw [isNullResult, value_map_range (h.readable hi), toBool_ofBool]
  · rfl
  · intro hone
    rw [h.isNull_of_size_eq_one hone i]

lemma truePositions_literal (v : Value R) :
    truePositions table chunkId (⟨t, [v], []⟩ : ExpressionResult R) =
      positionsOf table chunkId fun _ => v.toBool := by
  refine positionsOf_congr fun i hi => ?_
  simp [ExpressionResult.isNull, ExpressionResult.value, ExpressionResult.size]

/-! ### Scanning results -/

/-- Without flags for all rows, the view of a result has the values and the first flag. -/
lemma ExpressionResult.HasShape.view_of_not_viewable (h : r.HasShape n s) (hview : ¬ s.Viewable n)
    {i : ℕ} (hi : i < n) : r.asView.value i = .ok (r.value i) ∧
      r.asView.isNull i = if i = 0 then .ok (r.isNull i) else .error .undefinedBehavior := by
  rw [ResultShape.Viewable, not_or, not_or, not_not] at hview
  obtain ⟨hn, hs, hflags⟩ := hview
  have hsize : r.values.length = n := by
    have := h.size
    rwa [if_neg hs] at this
  have hcount := h.flags (by omega)
  rw [hflags] at hcount
  obtain ⟨null, hnull⟩ := List.length_eq_one_iff.mp hcount
  have hhead := h.head (.inr (by omega)) hcount
  have hmin : min i (r.size - 1) = i := Nat.min_eq_left (by rw [ExpressionResult.size]; omega)
  rw [ExpressionResult.asView, if_neg (by rw [ExpressionResult.size]; omega),
    if_neg (by simpa using fun _ => hhead), ExpressionResult.isNullable, ExpressionResult.value,
    hmin, ExpressionResult.isNull, hnull]
  refine ⟨ExpressionResultView.value_nullableSeries_of_lt (hsize ▸ hi) _, ?_⟩
  rcases i with _ | i <;> rfl

/-- The rows of a result that can be scanned: every flag that is read is there. -/
def Scannable (n : ℕ) (s : ResultShape) (r : ExpressionResult R) : Prop :=
  s.Viewable n ∨ ∀ i, 1 ≤ i → i < n → (r.value i).toBool = false

/-- Reading a row in a scan. -/
def scanRow (r : ExpressionResult R) (i : ℕ) : Except Exception Bool := do
  let value ← r.asView.value i
  let null ← if value.toBool then r.asView.isNull i else .ok false
  return value.toBool && !null

lemma scanRow_of_false {i : ℕ} {v : Value R} (hv : r.asView.value i = .ok v)
    (hfalse : v.toBool = false) : scanRow r i = .ok false := by
  rw [scanRow, hv]
  show (if v.toBool = true then _ else _) = _
  rw [hfalse]
  rfl

lemma scanRow_of_true {i : ℕ} {v : Value R} (hv : r.asView.value i = .ok v)
    (htrue : v.toBool = true) : scanRow r i = (r.asView.isNull i).map Bool.not := by
  rw [scanRow, hv]
  show (if v.toBool = true then _ else _) = _
  rw [if_pos htrue, htrue]
  cases r.asView.isNull i <;> rfl

lemma scanToPositionList_eq_ok (h : r.HasShape (table.getChunk chunkId).size s)
    (hscan : Scannable (table.getChunk chunkId).size s r) :
    scanToPositionList table chunkId (.ok r) = .ok (truePositions table chunkId r) := by
  have hcells : (List.range (table.getChunk chunkId).size).mapM (scanRow r) =
      .ok ((List.range (table.getChunk chunkId).size).map fun i =>
        !r.isNull i && (r.value i).toBool) := by
    refine mapM_eq_ok fun i hi => ?_
    have hlt := List.mem_range.mp hi
    have hread : r.asView.value i = .ok (r.value i) ∧
        ((r.value i).toBool = true → r.asView.isNull i = .ok (r.isNull i)) := by
      by_cases hview : s.Viewable (table.getChunk chunkId).size
      · obtain ⟨hv, hn⟩ := (h.view hview).2 i (h.readable hlt)
        exact ⟨hv, fun _ => hn⟩
      · obtain ⟨hv, hn⟩ := h.view_of_not_viewable hview hlt
        refine ⟨hv, fun htrue => ?_⟩
        -- a row after the first one is not selected
        have hzero : i = 0 := by
          by_contra hpos
          rw [hscan.resolve_left hview i (by omega) hlt] at htrue
          cases htrue
        rw [hn, if_pos hzero]
    obtain ⟨hv, hn⟩ := hread
    cases htrue : (r.value i).toBool with
    | false => rw [scanRow_of_false hv htrue, Bool.and_false]
    | true =>
      rw [scanRow_of_true hv htrue, hn htrue, Bool.and_true]
      rfl
  show (List.range (table.getChunk chunkId).size).mapM (scanRow r) >>= _ = _
  rw [hcells]
  refine congrArg Except.ok (positionsOf_congr fun i hi => ?_)
  simp [hi]

lemma scannable_of_scanToPositionList_eq_ok (h : r.HasShape (table.getChunk chunkId).size s)
    {positions : List RowId} (hok : scanToPositionList table chunkId (.ok r) = .ok positions) :
    Scannable (table.getChunk chunkId).size s r := by
  by_cases hview : s.Viewable (table.getChunk chunkId).size
  · exact .inl hview
  · refine .inr fun i hpos hi => ?_
    obtain ⟨cells, hcells, -⟩ := exists_of_bind_eq_ok
      (show (List.range (table.getChunk chunkId).size).mapM (scanRow r) >>= _ = _ from hok)
    obtain ⟨cell, -, hcell⟩ := (mapM_eq_ok_iff.mp hcells).exists_of_mem (List.mem_range.mpr hi)
    obtain ⟨hv, hn⟩ := h.view_of_not_viewable hview hi
    by_contra htrue
    rw [scanRow_of_true hv (by simpa using htrue), hn, if_neg (by omega)] at hcell
    cases hcell

/-! ### Agreement -/

variable {leftRequest rightRequest : Except Exception (ExpressionResult R)}
  {leftType rightType : DataType}

/-- The positions of a comparison are those of its result. -/
lemma comparisonToPositionList_eq_ok {condition : PredicateCondition} {c : Comparison × Bool}
    (hcondition : comparisonOf condition = some c)
    (hl : Meets (table.getChunk chunkId).size leftType leftShape leftRequest)
    (hr : Meets (table.getChunk chunkId).size rightType rightShape rightRequest)
    (hok : evaluateBinaryPredicateExpression condition leftRequest rightRequest = .ok r) :
    comparisonToPositionList table chunkId condition leftRequest rightRequest =
      .ok (truePositions table chunkId r) := by
  have hcompare : ∀ {t t' : DataType} {s s' : ResultShape}
      {request request' : Except Exception (ExpressionResult R)},
      Meets (table.getChunk chunkId).size t s request →
      Meets (table.getChunk chunkId).size t' s' request' →
      evaluateBinaryWithDefaultNullLogic c.1 request request' = .ok r →
      compareToPositionList table chunkId c.1 request request' =
        .ok (truePositions table chunkId r) := by
    intro t t' s s' request request' h h' hok
    obtain ⟨hsupports, heval, heval'⟩ :=
      ((meets_evaluateBinaryWithDefaultNullLogic h h' Iff.rfl).2 r hok).1
    obtain ⟨left, rfl⟩ := h.1 heval
    obtain ⟨right, rfl⟩ := h'.1 heval'
    obtain ⟨-, htype, hshape⟩ := h.2 left rfl
    obtain ⟨-, htype', hshape'⟩ := h'.2 right rfl
    rw [← htype, ← htype'] at hsupports
    rw [evaluateBinaryWithDefaultNullLogic_eq_ok hshape hshape' hsupports] at hok
    obtain rfl := Except.ok.inj hok
    rw [truePositions_comparisonResult hshape hshape']
    show (if Comparison.supports left.dataType right.dataType then _ else _) = _
    rw [if_pos hsupports]
    rfl
  rw [evaluateBinaryPredicateExpression, hcondition] at hok
  rw [comparisonToPositionList, hcondition]
  obtain ⟨c, flip⟩ := c
  cases flip with
  | false => exact hcompare hl hr hok
  | true => exact hcompare hr hl hok

/-- The operands of a conjunction or disjunction that has a result. -/
lemma operands_of_evaluateLogicalExpression_eq_ok {logicalOperator : LogicalOperator}
    (hl : Meets n .int leftShape leftRequest) (hr : Meets n .int rightShape rightRequest)
    (hok : evaluateLogicalExpression logicalOperator leftRequest rightRequest = .ok r) :
    ∃ left right, leftRequest = .ok left ∧ rightRequest = .ok right ∧ left.HasShape n leftShape ∧
      right.HasShape n rightShape ∧ leftShape.Viewable n ∧ rightShape.Viewable n ∧
        r = logicalResult logicalOperator left right := by
  obtain ⟨hel, her, hviewl, hviewr⟩ := ((meets_logical hl hr).2 r hok).1
  obtain ⟨left, rfl⟩ := hl.1 hel
  obtain ⟨right, rfl⟩ := hr.1 her
  obtain ⟨-, htypel, hshapel⟩ := hl.2 left rfl
  obtain ⟨-, htyper, hshaper⟩ := hr.2 right rfl
  rw [evaluateLogicalExpression_eq_ok hshapel hshaper hviewl hviewr htypel htyper] at hok
  exact ⟨left, right, rfl, rfl, hshapel, hshaper, hviewl, hviewr, (Except.ok.inj hok).symm⟩

/-- Whether an expression is tested for being in a set. -/
def IsIn (e : Expression R) : Prop :=
  match e.root with
  | .inSet _ => True
  | _ => False

/-- The positions of a boolean expression are those of its result, which can be scanned if the
expression is tested for being in a set. -/
lemma IsTyped.evaluateExpressionToPositionList_eq_ok
    (hchunk : (table.getChunk chunkId).WellFormed table.columnDefinitions)
    (h : IsTyped computed computedShape table (table.getChunk chunkId).size b e t)
    (hb : b = true) :
    ∀ r, evaluateExpressionToResult computed table chunkId e .int = .ok r →
      (IsIn e → Scannable (table.getChunk chunkId).size
        (shapeOf computedShape table (table.getChunk chunkId) e) r) →
      evaluateExpressionToPositionList computed table chunkId e =
        .ok (truePositions table chunkId r) := by
  induction h with
  | column _ => cases hb
  | literal _ => cases hb
  | computed _ _ _ _ => cases hb
  | integer v =>
    intro r hok _
    rw [evaluateExpressionToResult] at hok
    obtain rfl := Except.ok.inj (hok.symm.trans (show _ = Except.ok ⟨.int, [.int v], []⟩ from rfl))
    rw [evaluateExpressionToPositionList, truePositions_literal]
    simp [Value.toBool]
  | @comparison condition c left right _ _ _ _ hcondition hleft hright _ _ =>
    intro r hok _
    have hlike : ¬ (condition = .like ∨ condition = .notLike) := by
      rintro (rfl | rfl) <;> cases hcondition
    rw [evaluateExpressionToResult] at hok
    rw [evaluateExpressionToPositionList, if_neg hlike]
    exact comparisonToPositionList_eq_ok hcondition (hleft.isResolved hchunk).meets
      (hright.isResolved hchunk).meets hok
  | @between condition value lower upper _ _ _ _ _ _ hvalue hlower hupper _ _ _ =>
    intro r hok _
    have hv := hvalue.isResolved hchunk
    have hl := hlower.isResolved hchunk
    have hu := hupper.isResolved hchunk
    obtain ⟨c, hc⟩ := exists_comparisonOf_lowerCondition condition
    obtain ⟨c', hc'⟩ := exists_comparisonOf_upperCondition condition
    rw [evaluateExpressionToResult] at hok
    obtain ⟨left, right, hleft, hright, hshapel, hshaper, -, -, rfl⟩ :=
      operands_of_evaluateLogicalExpression_eq_ok
        (meets_comparison hc hv.meets hl.meets (comparable_iff hv hl))
        (meets_comparison hc' hv.meets hu.meets (comparable_iff hv hu)) hok
    rw [evaluateExpressionToPositionList, truePositions_logicalResult hshapel hshaper,
      comparisonToPositionList_eq_ok hc hv.meets hl.meets hleft,
      comparisonToPositionList_eq_ok hc' hv.meets hu.meets hright]
    rfl
  | @isNull condition operand _ _ h _ =>
    intro r hok _
    have hmeets := (h.isResolved hchunk).meets
    rw [evaluateExpressionToResult] at hok
    obtain ⟨⟨heval, hview⟩, -⟩ := (meets_isNull hmeets).2 r hok
    obtain ⟨operandResult, hoperand⟩ := hmeets.1 heval
    obtain ⟨-, -, hshape⟩ := hmeets.2 operandResult hoperand
    replace hok : evaluateIsNullExpression condition (resolve computed table chunkId operand) =
        .ok r := hok
    rw [hoperand, evaluateIsNullExpression_eq_ok hshape hview] at hok
    obtain rfl := Except.ok.inj hok
    have hnulls : (List.range (table.getChunk chunkId).size).mapM operandResult.asView.isNull =
        .ok ((List.range (table.getChunk chunkId).size).map operandResult.isNull) :=
      mapM_eq_ok fun i hi => ((hshape.view hview).2 i (hshape.readable (List.mem_range.mp hi))).2
    rw [evaluateExpressionToPositionList, hoperand, truePositions_isNullResult hshape]
    show (List.range (table.getChunk chunkId).size).mapM operandResult.asView.isNull >>= _ = _
    rw [hnulls]
    refine congrArg Except.ok (positionsOf_congr fun i hi => ?_)
    simp [hi]
  | @inSet condition value set _ _ flag type hvalue helements _ _ =>
    intro r hok hscan
    have hresolved := (IsTyped.inSet condition flag type hvalue helements).isResolved hchunk
    have hresult := hok
    rw [← resolve_eq hresolved.dataType hresolved.ne_null hresolved.ne_list] at hresult
    rw [evaluateExpressionToPositionList, hok]
    exact scanToPositionList_eq_ok (hresolved.meets.2 r hresult).2.2 (hscan trivial)
  | @logical logicalOperator left right hleft hright ihleft ihright =>
    intro r hok _
    have hl := hleft.isResolved hchunk
    have hr := hright.isResolved hchunk
    rw [evaluateExpressionToResult] at hok
    obtain ⟨l, r, hokl, hokr, hshapel, hshaper, hviewl, hviewr, rfl⟩ :=
      operands_of_evaluateLogicalExpression_eq_ok hl.meets hr.meets hok
    have hpositions := ihleft rfl l
      (by rwa [← resolve_eq hl.dataType hl.ne_null hl.ne_list]) fun _ => .inl hviewl
    have hpositions' := ihright rfl r
      (by rwa [← resolve_eq hr.dataType hr.ne_null hr.ne_list]) fun _ => .inl hviewr
    rw [evaluateExpressionToPositionList, hpositions, hpositions',
      truePositions_logicalResult hshapel hshaper]
    cases logicalOperator <;> rfl

/-! ### Elements that are composed of literals -/

omit [FloatingPoint R] in
lemma viewable_logical (n : ℕ) (left right : ResultShape) :
    (ResultShape.logical n left right).Viewable n := by
  rw [ResultShape.Viewable, ResultShape.logical]
  cases left.isScalar && right.isScalar <;> simp

omit [FloatingPoint R] in
lemma viewable_foldl {shapes : List (Expression R × ResultShape)} {value : ResultShape} :
    ∀ shape : ResultShape, shape.Viewable n →
      (shapes.foldl (fun shape element =>
        ResultShape.logical n shape (.comparison True value element.2)) shape).Viewable n := by
  induction shapes with
  | nil => exact fun _ h => h
  | cons element shapes ih => exact fun shape _ => ih _ (viewable_logical n _ _)

/-- If an `InExpression` has a result whose flags cannot be read, the result is that of a single
comparison. -/
lemma evaluateInExpression_of_not_viewable (negated : Bool) {value : Expression R}
    (request : DataType → Except Exception (ExpressionResult R)) {elements : List (InElement R)}
    {shapes : List (Expression R × ResultShape)} (htype : value.getDataType = .ok t)
    (ht : t ≠ .null) (helements : List.Forall₂ (ElementMeets n) elements shapes)
    (heval : (ResultShape.inList n value s shapes).evaluable)
    (hview : ¬ (ResultShape.inList n value s shapes).Viewable n) :
    ∃ element, compatibleElements value elements = [element] ∧
      evaluateInExpression negated value request elements =
        evaluateBinaryPredicateExpression (if negated then .notEquals else .equals)
          (resolveToExpressionResult value request)
          (resolveToExpressionResult element.1 element.2) := by
  have htypes : ∀ element ∈ elements, element.1.getDataType = .ok (typeOf element.1) := by
    intro element helement
    obtain ⟨shape, -, -, tel, htel, -⟩ := helements.exists_of_mem helement
    rw [typeOf_eq htel, htel]
  rw [evaluateInExpression_eq htype ht htypes]
  have hcompatible := forall₂_compatibleElements value helements
  rw [ResultShape.inList] at heval hview
  rw [all_isValueOfType htype helements]
  cases hc : compatibleElements value elements with
  | nil =>
    rw [hc, List.forall₂_nil_left_iff] at hcompatible
    rw [hcompatible] at hview
    exact absurd (.inr (.inl rfl)) hview
  | cons first rest =>
    rw [hc] at hcompatible
    obtain ⟨firstShape, restShapes, -, hrest, hshapes⟩ :=
      List.forall₂_cons_left_iff.mp hcompatible
    rw [hshapes] at heval hview
    rw [List.isEmpty_cons, if_neg Bool.false_ne_true]
    dsimp only at heval hview
    split at hview
    · next hall =>
      rw [if_pos hall] at heval
      refine absurd ?_ hview
      rcases heval.2 with hn | hs | hflags
      · exact .inl hn
      · exact .inr (.inl hs)
      · refine .inr (.inr ?_)
        dsimp only
        split
        · exact fun h => by cases h
        · exact hflags
    · next hall =>
      rw [if_neg hall]
      cases hrest with
      | nil => exact ⟨first, rfl, rfl⟩
      | cons _ _ => exact absurd (viewable_foldl _ (viewable_logical n _ _)) hview

variable (computed computedShape table chunkId) in
/-- At no row after the first one, the value is selected by its comparison with an element. -/
def SelectsFirstOnly (condition : PredicateCondition) (value set : Expression R) : Prop :=
  ∀ element ∈ setElements set, ResultShape.isString element = ResultShape.isString value →
    ∀ left right, resolve computed table chunkId value = .ok left →
      resolve computed table chunkId element = .ok right →
      ∀ i, 1 ≤ i → i < (table.getChunk chunkId).size →
        (if condition = .notIn then Comparison.notEquals else .equals).evaluate left.dataType
          right.dataType (left.value i) (right.value i) = false

variable (computed computedShape table chunkId) in
/-- Whether the flags are there that are read when the positions of an expression are taken from its
result. -/
def PositionsReadable : Expression R → Prop
  | .node (.inSet condition) [value, set] =>
    (shapeOf computedShape table (table.getChunk chunkId)
        (.node (.inSet condition) [value, set])).Viewable (table.getChunk chunkId).size ∨
      SelectsFirstOnly computed table chunkId condition value set
  | _ => True

/-- The result of a comparison that has one. -/
lemma operands_of_evaluateBinaryPredicateExpression_eq_ok {condition : PredicateCondition}
    {c : Comparison} (hcondition : comparisonOf condition = some (c, false))
    (hl : Meets n leftType leftShape leftRequest) (hr : Meets n rightType rightShape rightRequest)
    (hok : evaluateBinaryPredicateExpression condition leftRequest rightRequest = .ok r) :
    ∃ left right, leftRequest = .ok left ∧ rightRequest = .ok right ∧ left.HasShape n leftShape ∧
      right.HasShape n rightShape ∧ r = comparisonResult c left right := by
  rw [evaluateBinaryPredicateExpression, hcondition] at hok
  obtain ⟨hsupports, hel, her⟩ :=
    ((meets_evaluateBinaryWithDefaultNullLogic hl hr Iff.rfl).2 r hok).1
  obtain ⟨left, rfl⟩ := hl.1 hel
  obtain ⟨right, rfl⟩ := hr.1 her
  obtain ⟨-, htypel, hshapel⟩ := hl.2 left rfl
  obtain ⟨-, htyper, hshaper⟩ := hr.2 right rfl
  rw [← htypel, ← htyper] at hsupports
  refine ⟨left, right, rfl, rfl, hshapel, hshaper, ?_⟩
  exact (Except.ok.inj ((evaluateBinaryWithDefaultNullLogic_eq_ok hshapel hshaper
    hsupports).symm.trans hok)).symm

/-- The result of an `InExpression` can be scanned if and only if its positions can be read. -/
lemma scannable_iff (hchunk : (table.getChunk chunkId).WellFormed table.columnDefinitions)
    {condition : PredicateCondition} {value set : Expression R} {flag : Expression R → Bool}
    {type : Expression R → DataType}
    (hvalue : IsTyped computed computedShape table (table.getChunk chunkId).size b value t)
    (helements : ∀ e ∈ setElements set,
      IsTyped computed computedShape table (table.getChunk chunkId).size (flag e) e (type e))
    (hok : evaluateExpressionToResult computed table chunkId
      (.node (.inSet condition) [value, set]) .int = .ok r) :
    Scannable (table.getChunk chunkId).size (shapeOf computedShape table (table.getChunk chunkId)
      (.node (.inSet condition) [value, set])) r ↔
      PositionsReadable computed computedShape table chunkId
        (.node (.inSet condition) [value, set]) := by
  rw [Scannable, PositionsReadable]
  refine or_congr_right' fun hview => ?_
  have hv := hvalue.isResolved hchunk
  have hresolved := (IsTyped.inSet condition flag type hvalue helements).isResolved hchunk
  have hresult := hok
  rw [← resolve_eq hresolved.dataType hresolved.ne_null hresolved.ne_list] at hresult
  have heval := (hresolved.meets.2 r hresult).1
  rw [shapeOf_inSet] at heval hview
  obtain ⟨element, hc, heq⟩ := evaluateInExpression_of_not_viewable (decide (condition = .notIn))
    (evaluateExpressionToResult computed table chunkId value) hv.dataType hv.ne_null
    (forall₂_elementMeets fun e he => (helements e he).isResolved hchunk) heval hview
  have hmem : element ∈ compatibleElements value ((setElements set).map fun e =>
      (e, evaluateExpressionToResult computed table chunkId e)) := by
    rw [hc]
    exact List.mem_singleton_self element
  obtain ⟨e, he, rfl⟩ := List.mem_map.mp (List.mem_of_mem_filter hmem)
  rw [evaluateExpressionToResult_inSet, heq] at hok
  have hcondition : comparisonOf (if decide (condition = .notIn) then .notEquals else .equals) =
      some (if condition = .notIn then Comparison.notEquals else .equals, false) := by
    by_cases h : condition = .notIn <;> simp [h, comparisonOf]
  obtain ⟨left, right, hl, hr, hshapel, hshaper, rfl⟩ :=
    operands_of_evaluateBinaryPredicateExpression_eq_ok hcondition hv.meets
      ((helements e he).isResolved hchunk).meets hok
  constructor
  · intro h element helement hstring left' right' hl' hr' i hpos hi
    have hmem' : (element, evaluateExpressionToResult computed table chunkId element) ∈
        compatibleElements value ((setElements set).map fun e =>
          (e, evaluateExpressionToResult computed table chunkId e)) :=
      List.mem_filter.mpr ⟨List.mem_map_of_mem helement, by simpa using hstring⟩
    rw [hc, List.mem_singleton, Prod.mk.injEq] at hmem'
    obtain rfl := hmem'.1
    obtain rfl := Except.ok.inj (hl.symm.trans hl')
    obtain rfl := Except.ok.inj (hr.symm.trans hr')
    rw [← value_comparisonResult hshapel hshaper hi]
    exact h i hpos hi
  · intro h i hpos hi
    rw [value_comparisonResult hshapel hshaper hi]
    exact h e he (by simpa [compatibleElements] using (List.mem_filter.mp hmem).2) left right hl hr i
      hpos hi

omit [FloatingPoint R] in
lemma pairwise_positionsOf (p : ℕ → Bool) : (positionsOf table chunkId p).Pairwise (· < ·) :=
  (List.pairwise_lt_range.filter p).map _ fun _ _ h => RowId.mk_lt_mk.mpr h

end

/-- **The positions of a boolean expression are, in ascending order, those of the rows at which its
result is neither NULL nor zero, exactly if every flag that is read is there**: the operands of AND
and OR and of tests for NULL, and the values that are searched in lists, are no series with a single
flag, and neither is the result of an IN from which positions are taken, unless no row after the
first one is selected. -/
theorem evaluateExpressionToPositionList_eq_iff {R : Type} [FloatingPoint R]
    (computed : Expression R → DataType → Except Exception (ExpressionResult R))
    (computedShape : Expression R → ResultShape) (table : Table R) (chunkId : ℕ)
    (hchunk : (table.getChunk chunkId).WellFormed table.columnDefinitions) (e : Expression R)
    (he : IsTyped computed computedShape table (table.getChunk chunkId).size true e .int) :
    (∃ r positions, evaluateExpressionToResult computed table chunkId e .int = .ok r ∧
        evaluateExpressionToPositionList computed table chunkId e = .ok positions ∧
        positions.Pairwise (· < ·) ∧
        ∀ rowId, rowId ∈ positions ↔ ∃ i < (table.getChunk chunkId).size,
          rowId = ⟨chunkId, i⟩ ∧ r.isNull i = false ∧ r.value i ≠ .int 0) ↔
      (shapeOf computedShape table (table.getChunk chunkId) e).evaluable ∧
        PositionsReadable computed computedShape table chunkId e := by
  have hresolved := he.isResolved hchunk
  have hmeets := hresolved.meets
  rw [resolve_eq hresolved.dataType hresolved.ne_null hresolved.ne_list] at hmeets
  constructor
  · rintro ⟨r, positions, hr, hpositions, -, -⟩
    obtain ⟨heval, -, hshape⟩ := hmeets.2 r hr
    refine ⟨heval, ?_⟩
    cases he with
    | inSet condition flag type hvalue helements =>
      rw [evaluateExpressionToPositionList, hr] at hpositions
      exact (scannable_iff hchunk hvalue helements hr).mp
        (scannable_of_scanToPositionList_eq_ok hshape hpositions)
    | integer _ => exact trivial
    | comparison _ _ _ => exact trivial
    | between _ _ _ _ => exact trivial
    | isNull _ _ => exact trivial
    | logical _ _ _ => exact trivial
  · rintro ⟨heval, hreadable⟩
    obtain ⟨r, hr⟩ := hmeets.1 heval
    refine ⟨r, truePositions table chunkId r, hr, ?_, pairwise_positionsOf _, fun rowId => ?_⟩
    · refine he.evaluateExpressionToPositionList_eq_ok hchunk rfl r hr fun hin => ?_
      cases he with
      | inSet condition flag type hvalue helements =>
        exact (scannable_iff hchunk hvalue helements hr).mpr hreadable
      | integer _ => exact hin.elim
      | comparison _ _ _ => exact hin.elim
      | between _ _ _ _ => exact hin.elim
      | isNull _ _ => exact hin.elim
      | logical _ _ _ => exact hin.elim
    · simp only [truePositions, positionsOf, List.mem_map, List.mem_filter, List.mem_range,
        Bool.and_eq_true, Bool.not_eq_true', Value.toBool, ne_eq, decide_eq_true_eq]
      constructor
      · rintro ⟨i, ⟨hi, hnull, hv⟩, rfl⟩
        exact ⟨i, hi, rfl, hnull, hv⟩
      · rintro ⟨i, hi, rfl, hnull, hv⟩
        exact ⟨i, ⟨hi, hnull, hv⟩, rfl⟩

/-! ### A comparison with a conjunction of literals -/

/-- A column of two rows that has no flags for NULL. -/
def oneTwo : Table ℚ := ⟨[⟨"a", .int, false⟩], [⟨[⟨.int, [.int 1, .int 2], none⟩]⟩]⟩

lemma wellFormed_oneTwo : (oneTwo.getChunk 0).WellFormed oneTwo.columnDefinitions where
  dataTypes := rfl
  segments := List.forall_mem_singleton.mpr
    ⟨by simp, by simp [Value.dataType], fun _ h => by cases h⟩
  sizes := List.forall_mem_singleton.mpr rfl
  not_null columnId d hd _ i := by
    obtain ⟨hlt, -⟩ := List.getElem?_eq_some_iff.mp hd
    obtain rfl : columnId = 0 := by simpa [oneTwo] using hlt
    rfl

/-- The column. -/
def columnA : Expression ℚ := .node (.pqpColumn 0 .int false (Bytes.ofString "a")) []

/-- A literal. -/
def literalOne : Expression ℚ := .node (.value (some (.int 1))) []

/-- Whether the column is at most an operand, and one. -/
def atMostAndOne (operand : Expression ℚ) : Expression ℚ :=
  .node (.logical .and) [.node (.binaryPredicate .lessThanEquals) [columnA, operand], literalOne]

/-- With a literal, the first row is selected. -/
theorem evaluateExpressionToPositionList_eq_atMostAndOne :
    ∃ r positions,
      evaluateExpressionToResult (fun _ _ => .error .undefinedBehavior) oneTwo 0
          (atMostAndOne literalOne) .int = .ok r ∧
        evaluateExpressionToPositionList (fun _ _ => .error .undefinedBehavior) oneTwo 0
            (atMostAndOne literalOne) = .ok positions ∧ positions.Pairwise (· < ·) ∧
          ∀ rowId, rowId ∈ positions ↔ ∃ i < 2,
            rowId = ⟨0, i⟩ ∧ r.isNull i = false ∧ r.value i ≠ .int 0 :=
  (evaluateExpressionToPositionList_eq_iff (fun _ _ => .error .undefinedBehavior)
    (fun _ => ⟨true, .none, True⟩) oneTwo 0 wellFormed_oneTwo (atMostAndOne literalOne)
    (.logical .and (.comparison rfl (.column (.mk 0 ⟨"a", .int, false⟩ false rfl)) (.integer 1))
      (.integer 1))).mpr
    ⟨⟨⟨iff_of_false (by decide) (by decide), fun h => (by cases h), trivial⟩, trivial,
      .inr (.inr (by decide)), .inr (.inl rfl)⟩, trivial⟩

/-- **With a conjunction of literals, the first row is selected, but the result of the comparison
has two values and a single flag**, and the conjunction reads the flag of the second row. -/
theorem not_evaluateExpressionToPositionList_eq_atMostAndOne :
    IsTyped (fun _ _ => .error .undefinedBehavior) (fun _ => ⟨true, .none, True⟩) oneTwo 2 true
        (atMostAndOne (.node (.logical .and) [literalOne, literalOne])) .int ∧
      evaluateExpressionToPositionList (fun _ _ => .error .undefinedBehavior) oneTwo 0
        (atMostAndOne (.node (.logical .and) [literalOne, literalOne])) = .ok [⟨0, 0⟩] ∧
      evaluateExpressionToResult (fun _ _ => .error .undefinedBehavior) oneTwo 0
        (.node (.binaryPredicate .lessThanEquals)
          [columnA, .node (.logical .and) [literalOne, literalOne]]) .int =
          .ok ⟨.int, [.int 1, .int 0], [false]⟩ ∧
      evaluateExpressionToResult (fun _ _ => .error .undefinedBehavior) oneTwo 0
        (atMostAndOne (.node (.logical .and) [literalOne, literalOne])) .int =
          .error .undefinedBehavior :=
  ⟨.logical .and (.comparison rfl (.column (.mk 0 ⟨"a", .int, false⟩ false rfl))
    (.logical .and (.integer 1) (.integer 1))) (.integer 1),
    by decide +kernel, by decide +kernel, by decide +kernel⟩

end Skyrise

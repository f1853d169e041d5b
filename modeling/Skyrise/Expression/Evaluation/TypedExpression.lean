/-
Expressions that have results.

An expression that has a type has a result of the shape that its parts determine.
-/
import Skyrise.Expression.Evaluation.ResultShape

namespace Skyrise

variable {R : Type}

section

variable [FloatingPoint R] {r : ExpressionResult R} {n i : ℕ} {s : ResultShape} {t : DataType}
  {request : Except Exception (ExpressionResult R)}

/-! ### Testing for NULL and searching lists -/

/-- The result of a test for NULL. -/
def isNullResult (condition : PredicateCondition) (operand : ExpressionResult R) :
    ExpressionResult R :=
  ⟨.int, (List.range operand.size).map fun i =>
    .ofBool (if condition = .isNull then operand.isNull i else !operand.isNull i), []⟩

lemma mapM_isNull_asView (h : r.HasShape n s) (hview : s.Viewable n) :
    (List.range r.asView.size).mapM r.asView.isNull = .ok ((List.range r.size).map r.isNull) := by
  rw [h.size_asView]
  exact mapM_eq_ok fun i hi => ((h.view hview).2 i (.inl (List.mem_range.mp hi))).2

lemma viewable_of_mapM (h : r.HasShape n s) {m : ℕ} (hm : n ≤ m) {β : Type}
    {f : ℕ → Except Exception β} {ys : List β} (hok : (List.range m).mapM f = .ok ys)
    (hf : ∀ i y, f i = .ok y → ∃ null, r.asView.isNull i = .ok null) : s.Viewable n := by
  by_contra hnot
  obtain ⟨htwo, -, -, herror⟩ := h.not_viewable hnot
  obtain ⟨y, -, hy⟩ :=
    (mapM_eq_ok_iff.mp hok).exists_of_mem (List.mem_range.mpr (show 1 < m by omega))
  obtain ⟨null, hnull⟩ := hf 1 y hy
  rw [herror] at hnull
  cases hnull

lemma evaluateIsNullExpression_eq_ok {condition : PredicateCondition} (h : r.HasShape n s)
    (hview : s.Viewable n) :
    evaluateIsNullExpression condition (.ok r) = .ok (isNullResult condition r) := by
  show (List.range r.asView.size).mapM r.asView.isNull >>= _ = _
  rw [mapM_isNull_asView h hview]
  refine congrArg Except.ok ?_
  rw [isNullResult, List.map_map]
  rfl

/-- A test for NULL has a result if its operand has and can be viewed. -/
lemma meets_isNull {condition : PredicateCondition} (h : Meets n t s request) :
    Meets n .int (.isNull n s) (evaluateIsNullExpression condition request) := by
  constructor
  · rintro ⟨heval, hview⟩
    obtain ⟨r, rfl⟩ := h.1 heval
    exact ⟨_, evaluateIsNullExpression_eq_ok (h.2 r rfl).2.2 hview⟩
  · intro r hok
    obtain ⟨operand, rfl, hrest⟩ := exists_of_bind_eq_ok hok
    obtain ⟨heval, -, hshape⟩ := h.2 operand rfl
    obtain ⟨nulls, hnulls, -⟩ := exists_of_bind_eq_ok hrest
    have hview : s.Viewable n := by
      by_contra hnot
      have hsize := (hshape.not_viewable hnot).2.2.1
      exact hnot (viewable_of_mapM hshape hsize.ge hnulls fun i y hy => ⟨y, hy⟩)
    rw [evaluateIsNullExpression_eq_ok hshape hview] at hok
    obtain rfl := Except.ok.inj hok
    refine ⟨⟨heval, hview⟩, rfl, ?_, .inl rfl, fun _ => rfl, fun _ => Nat.zero_le 1, fun _ hone => ?_⟩
    · refine Eq.trans ?_ hshape.size
      simp [isNullResult, ExpressionResult.size]
    · cases hone

omit [FloatingPoint R] in
lemma hasShape_literal (t : DataType) (v : Value R) (evaluable : Prop) :
    (⟨t, [v], []⟩ : ExpressionResult R).HasShape n ⟨true, .none, evaluable⟩ :=
  ⟨rfl, .inl rfl, fun _ => rfl, fun _ => Nat.zero_le 1, fun _ hone => by cases hone⟩

omit [FloatingPoint R] in
lemma meets_literal (t : DataType) (v : Value R) :
    Meets n t ⟨true, .none, True⟩ (.ok ⟨t, [v], []⟩) :=
  ⟨fun _ => ⟨_, rfl⟩, fun r hr => by cases hr; exact ⟨trivial, rfl, hasShape_literal t v True⟩⟩

/-- The result of searching a list of values, at the view of a result. -/
def searchResult (negated : Bool) (rightValues : List (Value R)) (r : ExpressionResult R) :
    ExpressionResult R :=
  ⟨.int, (List.range r.size).map fun i =>
      .ofBool (if r.asView.isNullable && r.isNull i then negated
        else if r.value i ∈ rightValues then !negated else negated),
    if r.asView.isNullable then
      (List.range r.size).map fun i => r.asView.isNullable && r.isNull i
    else []⟩

lemma isNullable_asView (h : r.HasShape n s) (hn : s.isScalar = true ∨ n ≠ 1) :
    r.asView.isNullable = (!s.isScalar && !r.nulls.isEmpty) := by
  have hhead := h.head hn
  rw [ExpressionResult.asView]
  split
  · next hone =>
    have hle := h.length_nulls_le hone
    have hs : s.isScalar = true := by
      rcases hn with hs | hn
      · exact hs
      · by_contra hs
        exact hn (by rw [← hone, h.size, if_neg hs])
    rw [hs]
    cases hnulls : r.nulls with
    | nil => simp [ExpressionResultView.isNullable, ExpressionResult.isNullable, hnulls]
    | cons null nulls =>
      rw [hnulls] at hhead hle
      have hnil : nulls = [] := by
        rw [List.length_cons] at hle
        exact List.length_eq_zero_iff.mp (by omega)
      rw [hnil] at hhead
      simpa [ExpressionResultView.isNullable, ExpressionResult.isNullable] using fun _ => hhead rfl
  · next hmany =>
    have hs : s.isScalar = false := by
      by_contra hs
      exact hmany (by rw [h.size, if_pos (by simpa using hs)])
    rw [if_neg (by simpa using hhead), hs]
    split
    · next hempty =>
      have hnil : r.nulls = [] := by simpa [ExpressionResult.isNullable] using hempty
      rw [hnil]
      rfl
    · next hempty =>
      have hne : r.nulls ≠ [] := by simpa [ExpressionResult.isNullable] using hempty
      have hfalse : r.nulls.isEmpty = false := List.isEmpty_eq_false_iff.mpr hne
      rw [hfalse]
      rfl

lemma hasShape_searchResult {negated : Bool} {rightValues : List (Value R)} {evaluable : Prop}
    (h : r.HasShape n s) (hview : s.Viewable n) :
    (searchResult negated rightValues r).HasShape n
      ⟨s.isScalar, if s.isScalar then .none else s.flags, evaluable⟩ := by
  have hlength : (searchResult negated rightValues r).nulls.length =
      if r.asView.isNullable then r.size else 0 := by
    rw [searchResult]
    split <;> simp
  refine ⟨?_, ?_, fun hn => ?_, fun hs => ?_, fun hor hone => ?_⟩
  · refine Eq.trans ?_ h.size
    simp [searchResult, ExpressionResult.size]
  · rw [hlength, h.size]
    split
    · split
      · exact .inr (.inl rfl)
      · exact .inr (.inr rfl)
    · exact .inl rfl
  · have hflags := h.flags hn
    rw [hlength, isNullable_asView h (.inr (by omega)), h.size]
    cases hs : s.isScalar with
    | true => rfl
    | false =>
      cases hf : s.flags with
      | none =>
        rw [hf] at hflags
        simp [List.length_eq_zero_iff.mp hflags, NullFlags.count]
      | single =>
        rcases hview with hle | hs' | hne
        · omega
        · rw [hs] at hs'
          cases hs'
        · exact absurd hf hne
      | full =>
        have hne : r.nulls ≠ [] :=
          List.ne_nil_of_length_pos (by rw [hflags, hf]; exact Nat.zero_lt_of_lt hn)
        have hempty : r.nulls.isEmpty = false := List.isEmpty_eq_false_iff.mpr hne
        rw [hempty]
        rfl
  · have hs' : s.isScalar = true := hs
    rw [hlength, h.size, if_pos hs']
    split <;> omega
  · have hor' : s.isScalar = true ∨ n ≠ 1 := hor
    rw [hlength, isNullable_asView h hor', h.size] at hone
    rcases hor' with hs | hn
    · rw [hs] at hone
      cases hone
    · cases hs : s.isScalar with
      | true =>
        rw [hs] at hone
        cases hone
      | false =>
        rw [hs] at hone
        split at hone
        · exact absurd hone hn
        · cases hone

/-- What is known of an element of a list and its shape. -/
def ElementMeets (n : ℕ) (element : InElement R) (shape : Expression R × ResultShape) : Prop :=
  element.1 = shape.1 ∧ ∃ t, element.1.getDataType = .ok t ∧ t ≠ .null ∧
    Meets n t shape.2 (resolveToExpressionResult element.1 element.2)

lemma meets_foldl {negated : Bool} {rest : List (InElement R)}
    {restShapes : List (Expression R × ResultShape)} {value : Except Exception (ExpressionResult R)}
    (ht : t ≠ .null) (hvalue : Meets n t s value)
    (hrest : List.Forall₂ (ElementMeets n) rest restShapes)
    (hcompatible : ∀ element ∈ rest, element.1.getDataType = .ok .string ↔ t = .string) :
    ∀ (accShape : ResultShape) (acc : Except Exception (ExpressionResult R)),
      Meets n .int accShape acc → Meets n .int
        (restShapes.foldl (fun shape element => .logical n shape (.comparison True s element.2))
          accShape)
        (rest.foldl (fun result element =>
          evaluateLogicalExpression (if negated then .and else .or) result
            (evaluateBinaryPredicateExpression (if negated then .notEquals else .equals) value
              (resolveToExpressionResult element.1 element.2))) acc) := by
  induction hrest with
  | nil => exact fun _ _ hacc => hacc
  | @cons element shape rest restShapes helement _ ih =>
    intro accShape acc hacc
    rw [List.forall_mem_cons] at hcompatible
    obtain ⟨-, tel, htype, hne, hmeets⟩ := helement
    have hsupports : True ↔ Comparison.supports t tel = true := by
      rw [true_iff, supports_iff ht hne, ← hcompatible.1, htype, Except.ok.injEq]
    have hcondition : comparisonOf (if negated then .notEquals else .equals) =
        some (if negated then .notEquals else .equals, false) := by
      cases negated <;> rfl
    exact ih hcompatible.2 _ _
      (meets_logical hacc (meets_comparison hcondition hvalue hmeets hsupports))

/-- The type of an expression that has one. -/
def typeOf (e : Expression R) : DataType :=
  match e.getDataType with
  | .ok t => t
  | .error _ => .null

omit [FloatingPoint R] in
lemma typeOf_eq {e : Expression R} (h : e.getDataType = .ok t) : typeOf e = t := by
  rw [typeOf, h]

/-- The elements that can be compared with a value. -/
def compatibleElements (value : Expression R) (elements : List (InElement R)) :
    List (InElement R) :=
  elements.filter fun element => ResultShape.isString element.1 == ResultShape.isString value

omit [FloatingPoint R] in
lemma filter_zip_types {value : Expression R} (htype : value.getDataType = .ok t)
    {elements : List (InElement R)}
    (helements : ∀ element ∈ elements, element.1.getDataType = .ok (typeOf element.1)) :
    ((elements.zip (elements.map fun element => typeOf element.1)).filter fun element =>
      (element.2 = .string) == (t = .string)).map Prod.fst = compatibleElements value elements := by
  have hvalue : ResultShape.isString value = decide (t = .string) := by
    rw [ResultShape.isString, htype]
    simp
  rw [compatibleElements]
  induction elements with
  | nil => rfl
  | cons element elements ih =>
    rw [List.forall_mem_cons] at helements
    have helement : ResultShape.isString element.1 = decide (typeOf element.1 = .string) := by
      rw [ResultShape.isString, helements.1]
      simp
    rw [List.map_cons, List.zip_cons_cons, List.filter_cons, List.filter_cons, ← ih helements.2,
      helement, hvalue]
    dsimp only
    split <;> rfl

/-- What an `InExpression` evaluates to, by the elements that can be compared. -/
lemma evaluateInExpression_eq {negated : Bool} {value : Expression R}
    {request : DataType → Except Exception (ExpressionResult R)} {elements : List (InElement R)}
    (htype : value.getDataType = .ok t) (ht : t ≠ .null)
    (helements : ∀ element ∈ elements, element.1.getDataType = .ok (typeOf element.1)) :
    evaluateInExpression negated value request elements =
      if (compatibleElements value elements).isEmpty then .ok ⟨.int, [.ofBool negated], []⟩
      else if elements.all fun element => isValueOfType t element.1 then do
        let result ← resolveToExpressionResult value request
        let rightValues := (compatibleElements value elements).filterMap fun element =>
          literalOf element.1
        let cells ← (List.range result.asView.size).mapM fun i => do
          let null ← if result.asView.isNullable then result.asView.isNull i else .ok false
          let v ← result.asView.value i
          return (if null then negated else if v ∈ rightValues then !negated else negated, null)
        return ⟨.int, cells.map fun cell => .ofBool cell.1,
          if result.asView.isNullable then cells.map Prod.snd else []⟩
      else evaluateRewrittenInExpression negated (resolveToExpressionResult value request)
        (compatibleElements value elements) := by
  have htypes : elements.mapM (fun element => element.1.getDataType) =
      .ok (elements.map fun element => typeOf element.1) := mapM_eq_ok helements
  have hcompatible := filter_zip_types htype helements
  cases elements with
  | nil => rfl
  | cons element elements =>
    rw [evaluateInExpression, htype, htypes]
    show (if t = .null then _ else _) = _
    rw [if_neg ht]
    show (if (List.map Prod.fst _).isEmpty then _ else _) = _
    rw [hcompatible]
    rfl

/-- Searching a list of values at the view of a result. -/
def searchView (negated : Bool) (rightValues : List (Value R)) (r : ExpressionResult R) (i : ℕ) :
    Except Exception (Bool × Bool) := do
  let null ← if r.asView.isNullable then r.asView.isNull i else .ok false
  let v ← r.asView.value i
  return (if null then negated else if v ∈ rightValues then !negated else negated, null)

lemma mapM_searchView (negated : Bool) (rightValues : List (Value R)) (h : r.HasShape n s)
    (hview : s.Viewable n) : (List.range r.asView.size).mapM (searchView negated rightValues r) =
      .ok ((List.range r.size).map fun i =>
        (if r.asView.isNullable && r.isNull i then negated
          else if r.value i ∈ rightValues then !negated else negated,
          r.asView.isNullable && r.isNull i)) := by
  rw [h.size_asView]
  refine mapM_eq_ok fun i hi => ?_
  obtain ⟨hv, hn⟩ := (h.view hview).2 i (.inl (List.mem_range.mp hi))
  rw [searchView, hv, hn]
  cases r.asView.isNullable <;> rfl

lemma exists_isNull_of_searchView {negated : Bool} {rightValues : List (Value R)}
    (h : r.HasShape n s) (hview : ¬ s.Viewable n) {y : Bool × Bool}
    (hok : searchView negated rightValues r i = .ok y) : ∃ null, r.asView.isNull i = .ok null := by
  have hnullable : r.asView.isNullable = true := by
    have hnot := hview
    rw [ResultShape.Viewable, not_or, not_or, not_not] at hnot
    have hlength := h.flags (by omega)
    rw [hnot.2.2] at hlength
    have hempty : r.nulls.isEmpty = false :=
      List.isEmpty_eq_false_iff.mpr (List.ne_nil_of_length_pos (by rw [hlength]; exact Nat.one_pos))
    rw [isNullable_asView h (.inr (by omega)), hempty]
    simpa using hnot.2.1
  rw [searchView, hnullable] at hok
  obtain ⟨null, hnull, -⟩ := exists_of_bind_eq_ok hok
  exact ⟨null, hnull⟩

/-- Searching a list of values for a result that can be viewed. -/
lemma search_eq_ok (negated : Bool) (rightValues : List (Value R)) (h : r.HasShape n s)
    (hview : s.Viewable n) : (do
      let result ← Except.ok (ε := Exception) r
      let cells ← (List.range result.asView.size).mapM (searchView negated rightValues result)
      return (⟨.int, cells.map fun cell : Bool × Bool => .ofBool cell.1,
        if result.asView.isNullable then cells.map Prod.snd else []⟩ : ExpressionResult R)) =
      .ok (searchResult negated rightValues r) := by
  show (List.range r.asView.size).mapM (searchView negated rightValues r) >>= _ = _
  rw [mapM_searchView negated rightValues h hview]
  refine congrArg Except.ok ?_
  rw [searchResult, List.map_map, List.map_map]
  rfl

/-- Searching a list of values has a result if the value has and can be viewed. -/
lemma meets_searchView {negated : Bool} {rightValues : List (Value R)} (h : Meets n t s request) :
    Meets n .int ⟨s.isScalar, if s.isScalar then .none else s.flags, s.evaluable ∧ s.Viewable n⟩ (do
      let result ← request
      let cells ← (List.range result.asView.size).mapM (searchView negated rightValues result)
      return (⟨.int, cells.map fun cell : Bool × Bool => .ofBool cell.1,
        if result.asView.isNullable then cells.map Prod.snd else []⟩ : ExpressionResult R)) := by
  constructor
  · rintro ⟨heval, hview⟩
    obtain ⟨r, rfl⟩ := h.1 heval
    exact ⟨_, search_eq_ok negated rightValues (h.2 r rfl).2.2 hview⟩
  · intro r hok
    obtain ⟨operand, rfl, hrest⟩ := exists_of_bind_eq_ok hok
    obtain ⟨heval, -, hshape⟩ := h.2 operand rfl
    obtain ⟨cells, hcells, -⟩ := exists_of_bind_eq_ok hrest
    have hview : s.Viewable n := by
      by_contra hnot
      have hsize := (hshape.not_viewable hnot).2.2.1
      exact hnot (viewable_of_mapM hshape hsize.ge hcells fun i y hy =>
        exists_isNull_of_searchView hshape hnot hy)
    rw [search_eq_ok negated rightValues hshape hview] at hok
    obtain rfl := Except.ok.inj hok
    exact ⟨⟨heval, hview⟩, rfl, hasShape_searchResult hshape hview⟩

lemma forall₂_compatibleElements (value : Expression R) {elements : List (InElement R)}
    {shapes : List (Expression R × ResultShape)}
    (helements : List.Forall₂ (ElementMeets n) elements shapes) :
    List.Forall₂ (ElementMeets n) (compatibleElements value elements)
      (shapes.filter fun element => ResultShape.isString element.1 == ResultShape.isString value) :=
  List.rel_filter (fun {a b} h => by
    show (_ = true) ↔ (_ = true)
    rw [h.1]) helements

lemma all_isValueOfType {value : Expression R} (htype : value.getDataType = .ok t)
    {elements : List (InElement R)} {shapes : List (Expression R × ResultShape)}
    (helements : List.Forall₂ (ElementMeets n) elements shapes) :
    (elements.all fun element => isValueOfType t element.1) =
      shapes.all fun element => ResultShape.isValueOf value element.1 := by
  have hvalueOf : ∀ e : Expression R, ResultShape.isValueOf value e = isValueOfType t e := by
    intro e
    rw [ResultShape.isValueOf, htype]
  simp only [hvalueOf]
  induction helements with
  | nil => rfl
  | cons helement _ ih => rw [List.all_cons, List.all_cons, helement.1, ih]

/-- An `InExpression` has a result if its value and its elements have, as far as they are viewed. -/
lemma meets_inList {negated : Bool} {value : Expression R}
    {valueRequest : DataType → Except Exception (ExpressionResult R)} {elements : List (InElement R)}
    {shapes : List (Expression R × ResultShape)} (htype : value.getDataType = .ok t)
    (ht : t ≠ .null) (hvalue : Meets n t s (resolveToExpressionResult value valueRequest))
    (helements : List.Forall₂ (ElementMeets n) elements shapes) :
    Meets n .int (.inList n value s shapes)
      (evaluateInExpression negated value valueRequest elements) := by
  have htypes : ∀ element ∈ elements, element.1.getDataType = .ok (typeOf element.1) := by
    intro element helement
    obtain ⟨shape, -, -, tel, htel, -⟩ := helements.exists_of_mem helement
    rw [typeOf_eq htel, htel]
  rw [evaluateInExpression_eq htype ht htypes, ResultShape.inList]
  have hcompatible := forall₂_compatibleElements value helements
  rw [all_isValueOfType htype helements]
  cases hc : compatibleElements value elements with
  | nil =>
    rw [hc, List.forall₂_nil_left_iff] at hcompatible
    rw [hcompatible]
    exact meets_literal .int _
  | cons first rest =>
    rw [hc] at hcompatible
    obtain ⟨firstShape, restShapes, hfirst, hrest, hshapes⟩ :=
      List.forall₂_cons_left_iff.mp hcompatible
    rw [hshapes, List.isEmpty_cons, if_neg Bool.false_ne_true]
    dsimp only
    split
    · exact meets_searchView hvalue
    · have hstring : ∀ element ∈ first :: rest,
          element.1.getDataType = .ok .string ↔ t = .string := fun element helement => by
        rw [← hc, compatibleElements, List.mem_filter] at helement
        simpa [ResultShape.isString, htype] using helement.2
      rw [List.forall_mem_cons] at hstring
      obtain ⟨-, tel, htel, hne, hmeets⟩ := hfirst
      have hsupports : True ↔ Comparison.supports t tel = true := by
        rw [true_iff, supports_iff ht hne, ← hstring.1, htel, Except.ok.injEq]
      have hcondition : comparisonOf (if negated then .notEquals else .equals) =
          some (if negated then .notEquals else .equals, false) := by
        cases negated <;> rfl
      exact meets_foldl ht hvalue hrest hstring.2 _ _
        (meets_comparison hcondition hvalue hmeets hsupports)

end

/-! ### Boolean expressions -/

/-- The elements of the set of an `InExpression`, which is a list or a single expression. -/
def setElements : Expression R → List (Expression R)
  | .node .list elements => elements
  | set => [set]

/-- The expressions that are neither predicates nor columns, literals or lists. -/
def IsComputed (e : Expression R) : Prop :=
  match e.root with
  | .arithmetic _ | .case | .cast _ | .extract _ | .unaryMinus => True
  | _ => False

section

variable [FloatingPoint R]
  (computed : Expression R → DataType → Except Exception (ExpressionResult R))
  (computedShape : Expression R → ResultShape) (table : Table R) (n : ℕ)

/-- The expressions that are built with comparisons, BETWEEN, IN, tests for NULL, AND and OR from
columns, literals and expressions that are no predicates, with their types.  The operands of AND and
OR are boolean: they are predicates or integers. -/
inductive IsTyped : Bool → Expression R → DataType → Prop
  | column {e : Expression R} {t : DataType} (h : IsColumn table e t) : IsTyped false e t
  | literal (v : Value R) : IsTyped false (.node (.value (some v)) []) v.dataType
  | integer (v : Int32) : IsTyped true (.node (.value (some (.int v))) []) .int
  | computed {e : Expression R} {t : DataType} (he : IsComputed e) (htype : e.getDataType = .ok t)
      (ht : t ≠ .null) (h : Meets n t (computedShape e) (computed e t)) : IsTyped false e t
  | comparison {condition : PredicateCondition} {c : Comparison × Bool} {left right : Expression R}
      {b b' : Bool} {leftType rightType : DataType} (hcondition : comparisonOf condition = some c)
      (hleft : IsTyped b left leftType) (hright : IsTyped b' right rightType) :
      IsTyped true (.node (.binaryPredicate condition) [left, right]) .int
  | between (condition : PredicateCondition) {value lower upper : Expression R} {b b' b'' : Bool}
      {t lowerType upperType : DataType} (hvalue : IsTyped b value t)
      (hlower : IsTyped b' lower lowerType) (hupper : IsTyped b'' upper upperType) :
      IsTyped true (.node (.between condition) [value, lower, upper]) .int
  | isNull (condition : PredicateCondition) {operand : Expression R} {b : Bool} {t : DataType}
      (h : IsTyped b operand t) : IsTyped true (.node (.isNull condition) [operand]) .int
  | inSet (condition : PredicateCondition) {value set : Expression R} {b : Bool} {t : DataType}
      (flag : Expression R → Bool) (type : Expression R → DataType) (hvalue : IsTyped b value t)
      (helements : ∀ e ∈ setElements set, IsTyped (flag e) e (type e)) :
      IsTyped true (.node (.inSet condition) [value, set]) .int
  | logical (logicalOperator : LogicalOperator) {left right : Expression R}
      (hleft : IsTyped true left .int) (hright : IsTyped true right .int) :
      IsTyped true (.node (.logical logicalOperator) [left, right]) .int

end

section

variable [FloatingPoint R]
  {computed : Expression R → DataType → Except Exception (ExpressionResult R)}
  {computedShape : Expression R → ResultShape} {table : Table R} {chunkId : ℕ}
  {e : Expression R} {t : DataType} {b : Bool} {n : ℕ}

variable (computed computedShape) in
/-- A column has a result if it has the flags that its declaration promises. -/
lemma meets_column (hchunk : (table.getChunk chunkId).WellFormed table.columnDefinitions)
    (h : IsColumn table e t) : t ≠ .null ∧ Meets (table.getChunk chunkId).size t
      (shapeOf computedShape table (table.getChunk chunkId) e)
      (resolve computed table chunkId e) := by
  obtain ⟨columnId, d, isNullable, hd⟩ := h
  obtain ⟨hlt, hget⟩ := List.getElem?_eq_some_iff.mp hd
  have hwell := hchunk.wellFormed_getSegment hlt
  have htype := hchunk.dataType_getSegment hlt
  have hsize := hchunk.size_getSegment hlt
  have hsegment : (table.getChunk chunkId).segments[columnId.toNat]? =
      some ((table.getChunk chunkId).getSegment columnId.toNat) := by
    rw [Chunk.getSegment_of_lt (hchunk.length_segments ▸ hlt), List.getElem?_eq_getElem]
  rw [hget] at htype
  have ht : d.dataType ≠ .null := htype ▸ hwell.dataType_ne_null
  refine ⟨ht, ?_⟩
  rw [resolve_eq (IsColumn.mk columnId d isNullable hd).getDataType_eq ht
    (by simp [Expression.root, ExpressionNode.expressionType])]
  rw [evaluateExpressionToResult, evaluateColumnExpression, hsegment, shapeOf]
  simp only [htype, decide_true, assert_true]
  generalize hseg : (table.getChunk chunkId).getSegment columnId.toNat = segment at *
  have hvalues : segment.values.length = (table.getChunk chunkId).size := hsize
  cases hnullable : table.columnIsNullable columnId.toNat with
  | false =>
    refine ⟨fun _ => ⟨_, rfl⟩, fun r hr => ?_⟩
    obtain rfl := Except.ok.inj hr
    exact ⟨fun h => absurd h Bool.false_ne_true, rfl, hvalues, .inl rfl, fun _ => rfl,
      fun _ => Nat.zero_le 1, fun _ hone => by cases hone⟩
  | true =>
    cases hnulls : segment.nullValues with
    | none =>
      refine ⟨fun heval => ?_, fun r hr => by cases hr⟩
      have h := heval rfl
      rw [ValueSegment.isNullable, hnulls] at h
      cases h
    | some nulls =>
      have hlength : nulls.length = (table.getChunk chunkId).size :=
        (hwell.nulls_length nulls hnulls).trans hsize
      refine ⟨fun _ => ⟨_, rfl⟩, fun r hr => ?_⟩
      obtain rfl := Except.ok.inj hr
      refine ⟨fun _ => ?_, rfl, hvalues, .inr (.inr hlength), fun _ => hlength, fun h => ?_,
        fun hor hone => ?_⟩
      · rw [ValueSegment.isNullable, hnulls]
        rfl
      · cases h
      · rcases hor with h | hne
        · cases h
        · exact absurd (hlength.symm.trans hone) hne

variable (hchunk : (table.getChunk chunkId).WellFormed table.columnDefinitions)

/-- What is known of an expression that has a type. -/
structure IsResolved (computed : Expression R → DataType → Except Exception (ExpressionResult R))
    (computedShape : Expression R → ResultShape) (table : Table R) (chunkId : ℕ) (e : Expression R)
    (t : DataType) : Prop where
  dataType : e.getDataType = .ok t
  ne_null : t ≠ .null
  ne_list : e.root.expressionType ≠ .list
  meets : Meets (table.getChunk chunkId).size t
    (shapeOf computedShape table (table.getChunk chunkId) e) (resolve computed table chunkId e)

lemma IsResolved.of_request (htype : e.getDataType = .ok t) (ht : t ≠ .null)
    (hlist : e.root.expressionType ≠ .list)
    (h : Meets (table.getChunk chunkId).size t
      (shapeOf computedShape table (table.getChunk chunkId) e)
      (evaluateExpressionToResult computed table chunkId e t)) :
    IsResolved computed computedShape table chunkId e t :=
  ⟨htype, ht, hlist, by rwa [resolve_eq htype ht hlist]⟩

lemma IsResolved.of_isComputed (he : IsComputed e) (htype : e.getDataType = .ok t) (ht : t ≠ .null)
    (h : Meets (table.getChunk chunkId).size t (computedShape e) (computed e t)) :
    IsResolved computed computedShape table chunkId e t := by
  obtain ⟨node, arguments⟩ := e
  refine .of_request htype ht ?_ ?_
  · cases node <;> simp_all [IsComputed, Expression.root, ExpressionNode.expressionType]
  · cases node <;> simp only [IsComputed, Expression.root] at he <;>
      rw [evaluateExpressionToResult, shapeOf] <;> first | exact h | simp

omit [FloatingPoint R] in
lemma shapesOf_eq {chunk : Chunk R} (elements : List (Expression R)) :
    shapesOf computedShape table chunk elements =
      elements.map fun e => (e, shapeOf computedShape table chunk e) := by
  induction elements with
  | nil => rw [shapesOf, List.map_nil]
  | cons e elements ih => rw [shapesOf, ih, List.map_cons]

lemma evaluateExpressionToResult_inSet (condition : PredicateCondition) (value set : Expression R) :
    evaluateExpressionToResult computed table chunkId (.node (.inSet condition) [value, set]) .int =
      evaluateInExpression (condition = .notIn) value
        (evaluateExpressionToResult computed table chunkId value) ((setElements set).map fun e =>
          (e, evaluateExpressionToResult computed table chunkId e)) := by
  obtain ⟨node, arguments⟩ := set
  cases node <;> rw [evaluateExpressionToResult] <;>
    first | rw [requestElements_eq]; rfl | rfl | exact fun _ h => by cases h

omit [FloatingPoint R] in
lemma shapeOf_inSet {chunk : Chunk R} (condition : PredicateCondition) (value set : Expression R) :
    shapeOf computedShape table chunk (.node (.inSet condition) [value, set]) =
      .inList chunk.size value (shapeOf computedShape table chunk value)
        ((setElements set).map fun e => (e, shapeOf computedShape table chunk e)) := by
  obtain ⟨node, arguments⟩ := set
  cases node <;> rw [shapeOf] <;>
    first | rw [shapesOf_eq]; rfl | rfl | exact fun _ h => by cases h

lemma forall₂_elementMeets {elements : List (Expression R)} {type : Expression R → DataType}
    (h : ∀ e ∈ elements, IsResolved computed computedShape table chunkId e (type e)) :
    List.Forall₂ (ElementMeets (table.getChunk chunkId).size)
      (elements.map fun e => (e, evaluateExpressionToResult computed table chunkId e))
      (elements.map fun e => (e, shapeOf computedShape table (table.getChunk chunkId) e)) := by
  rw [List.forall₂_map_left_iff, List.forall₂_map_right_iff, List.forall₂_same]
  exact fun e he => ⟨rfl, type e, (h e he).dataType, (h e he).ne_null, (h e he).meets⟩

lemma comparable_iff {left right : Expression R} {leftType rightType : DataType}
    (hleft : IsResolved computed computedShape table chunkId left leftType)
    (hright : IsResolved computed computedShape table chunkId right rightType) :
    Comparable left right ↔ Comparison.supports leftType rightType = true := by
  rw [supports_iff hleft.ne_null hright.ne_null, Comparable, hleft.dataType, hright.dataType,
    Except.ok.injEq, Except.ok.injEq]

include hchunk in
/-- The request of an expression that has a type meets its shape. -/
lemma IsTyped.isResolved
    (h : IsTyped computed computedShape table (table.getChunk chunkId).size b e t) :
    IsResolved computed computedShape table chunkId e t := by
  induction h with
  | column h =>
    obtain ⟨ht, hmeets⟩ := meets_column computed computedShape hchunk h
    refine ⟨h.getDataType_eq, ht, ?_, hmeets⟩
    cases h
    simp [Expression.root, ExpressionNode.expressionType]
  | literal v =>
    refine .of_request rfl v.dataType_ne_null
      (by simp [Expression.root, ExpressionNode.expressionType]) ?_
    rw [evaluateExpressionToResult, evaluateValueExpression, shapeOf]
    simp only [decide_true, assert_true]
    exact meets_literal v.dataType v
  | integer v =>
    refine .of_request rfl (by decide)
      (by simp [Expression.root, ExpressionNode.expressionType]) ?_
    rw [evaluateExpressionToResult, shapeOf]
    exact meets_literal .int (.int v)
  | computed he htype ht h => exact .of_isComputed he htype ht h
  | @comparison condition c left right _ _ _ _ hcondition _ _ ihleft ihright =>
    refine .of_request rfl (by decide)
      (by simp [Expression.root, ExpressionNode.expressionType]) ?_
    rw [evaluateExpressionToResult, shapeOf]
    exact meets_comparison hcondition ihleft.meets ihright.meets (comparable_iff ihleft ihright)
  | @between condition value lower upper _ _ _ _ _ _ _ _ _ ihvalue ihlower ihupper =>
    refine .of_request rfl (by decide)
      (by simp [Expression.root, ExpressionNode.expressionType]) ?_
    rw [evaluateExpressionToResult, shapeOf]
    obtain ⟨c, hc⟩ := exists_comparisonOf_lowerCondition condition
    obtain ⟨c', hc'⟩ := exists_comparisonOf_upperCondition condition
    exact meets_logical
      (meets_comparison hc ihvalue.meets ihlower.meets (comparable_iff ihvalue ihlower))
      (meets_comparison hc' ihvalue.meets ihupper.meets (comparable_iff ihvalue ihupper))
  | @isNull condition operand _ _ _ ih =>
    refine .of_request rfl (by decide)
      (by simp [Expression.root, ExpressionNode.expressionType]) ?_
    rw [evaluateExpressionToResult, shapeOf]
    exact meets_isNull ih.meets
  | @inSet condition value set _ _ flag type _ _ ihvalue ihelements =>
    refine .of_request rfl (by decide)
      (by simp [Expression.root, ExpressionNode.expressionType]) ?_
    rw [evaluateExpressionToResult_inSet, shapeOf_inSet]
    exact meets_inList ihvalue.dataType ihvalue.ne_null ihvalue.meets
      (forall₂_elementMeets ihelements)
  | @logical logicalOperator left right _ _ ihleft ihright =>
    refine .of_request rfl (by decide)
      (by simp [Expression.root, ExpressionNode.expressionType]) ?_
    rw [evaluateExpressionToResult, shapeOf]
    exact meets_logical ihleft.meets ihright.meets

end

end Skyrise

/-
Evaluation does not depend on the chunk.

All expressions are evaluated row by row: what is computed for a row depends on the
cells of that row only.
-/
import Skyrise.Expression.Evaluation.RowLocality

namespace Skyrise

variable {R : Type} [FloatingPoint R] {n₁ i₁ n₂ i₂ : ℕ} {r₁ r₂ l₁ l₂ : ExpressionResult R}
  {t : DataType}

/-! ### Arithmetic -/

omit [FloatingPoint R] in
/-- A functor that returns NULL where an operand is NULL does not depend on what is stored there. -/
lemma insensitive_of_strict
    {f : Value R → Bool → Value R → Bool → Except Exception (Value R × Bool)}
    (h : ∀ v a w b x, f v a w b = .ok x → (a || b) = true → x.2 = true) :
    Insensitive Prod.fst Prod.snd f := by
  intro v v' a w w' b x x' hv hw hx hx'
  by_cases hnull : (a || b) = true
  · have htrue := h v a w b x hx hnull
    exact ⟨htrue.trans (h v' a w' b x' hx' hnull).symm,
      fun hfalse => absurd (htrue.symm.trans hfalse) Bool.false_ne_true.symm⟩
  · simp only [Bool.or_eq_true, not_or, Bool.not_eq_true] at hnull
    rw [hv hnull.1, hw hnull.2] at hx
    obtain rfl := Except.ok.inj (hx.symm.trans hx')
    exact ⟨rfl, fun _ => rfl⟩

omit [FloatingPoint R] in
lemma orUndefined_eq_ok {α : Type} {x : Except ArithmeticFault α} {a : α}
    (h : orUndefined x = .ok a) : x = .ok a := by
  rcases x with (_ | _ | _) | x <;> cases h
  rfl

lemma divisionEvaluator_null {truncate : R → ℤ} {leftType rightType : DataType} {v w : Value R}
    {a b : Bool} {x : Value R × Bool}
    (h : divisionEvaluator truncate t leftType rightType v a w b = .ok x)
    (hnull : (a || b) = true) : x.2 = true := by
  rw [divisionEvaluator] at h
  split at h
  · cases h
    exact hnull
  · split at h
    · cases h
      rfl
    · obtain ⟨dividend, -, h⟩ := exists_of_bind_eq_ok h
      obtain ⟨divisor, -, h⟩ := exists_of_bind_eq_ok h
      obtain ⟨quotient, -, h⟩ := exists_of_bind_eq_ok h
      cases h
      exact hnull

lemma moduloEvaluator_null {truncate : R → ℤ} {leftType rightType : DataType} {v w : Value R}
    {a b : Bool} {x : Value R × Bool}
    (h : moduloEvaluator truncate t leftType rightType v a w b = .ok x) (hnull : (a || b) = true) :
    x.2 = true := by
  rw [moduloEvaluator, if_pos hnull] at h
  cases h
  rfl

section

variable (hi₁ : i₁ < n₁) (hi₂ : i₂ < n₂) (conversions : Conversions R)

include hi₁ hi₂ in
lemma agree_functorBased
    {functor : DataType → DataType → DataType → Value R → Bool → Value R → Bool →
      Except ArithmeticFault (Value R × Bool)}
    (hfunctor : ∀ t leftType rightType v a w b x,
      functor t leftType rightType v a w b = .ok x → (a || b) = true → x.2 = true)
    (hl : SameAt n₁ i₁ n₂ i₂ l₁ l₂) (hr : SameAt n₁ i₁ n₂ i₂ r₁ r₂) :
    Agree n₁ i₁ n₂ i₂ (evaluateArithmeticWithFunctorBasedNullLogic functor t l₁ r₁)
      (evaluateArithmeticWithFunctorBasedNullLogic functor t l₂ r₂) := by
  intro x₁ x₂ h₁ h₂
  rw [evaluateArithmeticWithFunctorBasedNullLogic] at h₁ h₂
  split at h₁
  · split at h₂
    · obtain ⟨cells₁, hcells₁, h₁⟩ := exists_of_bind_eq_ok h₁
      obtain ⟨cells₂, hcells₂, h₂⟩ := exists_of_bind_eq_ok h₂
      cases h₁
      cases h₂
      rw [hl.dataType, hr.dataType] at hcells₁
      have : Inhabited (Value R × Bool) := ⟨(.int 0, false)⟩
      exact sameAt_views hi₁ hi₂ (insensitive_of_strict fun v a w b x hx =>
        hfunctor t l₂.dataType r₂.dataType v a w b x (orUndefined_eq_ok hx)) hl hr hcells₁ hcells₂
    · cases h₂
  · cases h₁

include hi₁ hi₂ in
lemma agree_defaultLogic (arithmeticOperator : ArithmeticOperator)
    (hl : SameAt n₁ i₁ n₂ i₂ l₁ l₂) (hr : SameAt n₁ i₁ n₂ i₂ r₁ r₂) : Agree n₁ i₁ n₂ i₂
      (evaluateArithmeticWithDefaultNullLogic conversions arithmeticOperator t l₁ r₁)
      (evaluateArithmeticWithDefaultNullLogic conversions arithmeticOperator t l₂ r₂) := by
  intro x₁ x₂ h₁ h₂
  rw [evaluateArithmeticWithDefaultNullLogic] at h₁ h₂
  split at h₁
  · split at h₂
    · obtain ⟨values₁, hvalues₁, h₁⟩ := exists_of_bind_eq_ok h₁
      obtain ⟨values₂, hvalues₂, h₂⟩ := exists_of_bind_eq_ok h₂
      cases h₁
      cases h₂
      refine sameAt_default hi₁ hi₂ (f := stlArithmeticFunctor conversions arithmeticOperator t
        l₂.dataType r₂.dataType) hl hr ?_ hvalues₂
      rw [← hl.dataType, ← hr.dataType]
      exact hvalues₁
    · cases h₂
  · cases h₁

include hi₁ hi₂ in
lemma agree_arithmetic (arithmeticOperator : ArithmeticOperator)
    (hl : SameAt n₁ i₁ n₂ i₂ l₁ l₂) (hr : SameAt n₁ i₁ n₂ i₂ r₁ r₂) : Agree n₁ i₁ n₂ i₂
      (evaluateArithmeticExpression conversions arithmeticOperator t l₁ r₁)
      (evaluateArithmeticExpression conversions arithmeticOperator t l₂ r₂) := by
  cases arithmeticOperator with
  | division =>
    exact agree_functorBased hi₁ hi₂ (fun _ _ _ _ _ _ _ _ h => divisionEvaluator_null h) hl hr
  | modulo =>
    exact agree_functorBased hi₁ hi₂ (fun _ _ _ _ _ _ _ _ h => moduloEvaluator_null h) hl hr
  | addition => exact agree_defaultLogic hi₁ hi₂ conversions .addition hl hr
  | subtraction => exact agree_defaultLogic hi₁ hi₂ conversions .subtraction hl hr
  | multiplication => exact agree_defaultLogic hi₁ hi₂ conversions .multiplication hl hr

/-! ### CASE -/

variable {w₁ w₂ : ExpressionResult R}

/-- What a CASE computes for a row. -/
lemma evaluateCaseExpression_spec {n i : ℕ} {w l r x : ExpressionResult R} (hi : i < n)
    (hw : Rowed n w) (hl : Rowed n l) (hr : Rowed n r)
    (h : evaluateCaseExpression conversions t w l r = .ok x) : Rowed n x ∧ x.dataType = t ∧
      let result := if (w.value i).toBool && !w.isNull i then l else r
      toValue conversions t result.dataType (result.value i) = .ok (x.value i) ∧
        x.isNull i = result.isNull i := by
  rw [evaluateCaseExpression] at h
  split at h
  · obtain ⟨cells, hcells, h⟩ := exists_of_bind_eq_ok h
    cases h
    set m := if w.size = 0 ∨ l.size = 0 ∨ r.size = 0 then 0
      else max w.size (max l.size r.size) with hmdef
    have hm : m = 1 ∨ m = n := by
      rcases hw.size with hw | hw <;> rcases hl.size with hl | hl <;>
        rcases hr.size with hr | hr <;> rw [hmdef, hw, hl, hr] <;> split <;> omega
    have hone : m = 1 → w.size = 1 ∧ l.size = 1 ∧ r.size = 1 := by
      intro hone
      rw [hmdef] at hone
      split at hone <;> omega
    obtain ⟨hlength, hget⟩ := getD_of_mapM_range hcells (t.defaultValue, false)
    have hat := hget _ (readIndex_lt hm hi)
    obtain ⟨hrowed, hvalue, hnull⟩ := rowed_cells (t := t) Prod.fst Prod.snd (hlength ▸ hm) hi
      (t.defaultValue, false)
    rw [hlength] at hvalue hnull
    refine ⟨hrowed, rfl, ?_⟩
    obtain ⟨v, hv, hcell⟩ := exists_of_bind_eq_ok hat
    obtain ⟨hwv, hwn⟩ := hw.read_readIndex hm (fun h => (hone h).1) hi
    obtain ⟨hlv, hln⟩ := hl.read_readIndex hm (fun h => (hone h).2.1) hi
    obtain ⟨hrv, hrn⟩ := hr.read_readIndex hm (fun h => (hone h).2.2) hi
    have hcell' := (Except.ok.inj hcell).symm
    rw [hcell'] at hvalue hnull
    rw [hvalue, hnull]
    rw [hwv, hwn] at hv ⊢
    split at hv
    · next htrue =>
      rw [if_pos htrue]
      rw [hlv] at hv
      exact ⟨hv, hln⟩
    · next hfalse =>
      rw [if_neg hfalse]
      rw [hrv] at hv
      exact ⟨hv, hrn⟩
  · cases h

include hi₁ hi₂ in
lemma agree_case (hw : SameAt n₁ i₁ n₂ i₂ w₁ w₂) (hl : SameAt n₁ i₁ n₂ i₂ l₁ l₂)
    (hr : SameAt n₁ i₁ n₂ i₂ r₁ r₂) :
    Agree n₁ i₁ n₂ i₂ (evaluateCaseExpression conversions t w₁ l₁ r₁)
      (evaluateCaseExpression conversions t w₂ l₂ r₂) := by
  intro x₁ x₂ h₁ h₂
  obtain ⟨hrowed₁, htype₁, hvalue₁, hnull₁⟩ :=
    evaluateCaseExpression_spec conversions hi₁ hw.left hl.left hr.left h₁
  obtain ⟨hrowed₂, htype₂, hvalue₂, hnull₂⟩ :=
    evaluateCaseExpression_spec conversions hi₂ hw.right hl.right hr.right h₂
  obtain ⟨hwnull, hwvalue⟩ := cell_eq_iff.mp hw.cell
  have hwhen : ((w₁.value i₁).toBool && !w₁.isNull i₁) =
      ((w₂.value i₂).toBool && !w₂.isNull i₂) := by
    rw [hwnull]
    cases hnull : w₂.isNull i₂ with
    | true => rw [Bool.not_true, Bool.and_false, Bool.and_false]
    | false => rw [hwvalue (hwnull.trans hnull)]
  rw [hwhen] at hvalue₁ hnull₁
  refine ⟨hrowed₁, hrowed₂, htype₁.trans htype₂.symm, cell_eq_iff.mpr ?_⟩
  -- the branch is the same in both evaluations
  have hbranch : ∀ {y₁ y₂ : ExpressionResult R}, SameAt n₁ i₁ n₂ i₂ y₁ y₂ →
      toValue conversions t y₁.dataType (y₁.value i₁) = .ok (x₁.value i₁) →
      x₁.isNull i₁ = y₁.isNull i₁ →
      toValue conversions t y₂.dataType (y₂.value i₂) = .ok (x₂.value i₂) →
      x₂.isNull i₂ = y₂.isNull i₂ →
      x₁.isNull i₁ = x₂.isNull i₂ ∧ (x₁.isNull i₁ = false → x₁.value i₁ = x₂.value i₂) := by
    intro y₁ y₂ hy hv₁ hn₁ hv₂ hn₂
    obtain ⟨hnull, hvalue⟩ := cell_eq_iff.mp hy.cell
    refine ⟨by rw [hn₁, hn₂, hnull], fun hfalse => ?_⟩
    rw [hvalue (hn₁ ▸ hfalse), hy.dataType, hv₂] at hv₁
    exact (Except.ok.inj hv₁).symm
  cases hb : ((w₂.value i₂).toBool && !w₂.isNull i₂) with
  | true =>
    rw [hb] at hvalue₁ hnull₁ hvalue₂ hnull₂
    exact hbranch hl hvalue₁ hnull₁ hvalue₂ hnull₂
  | false =>
    rw [hb] at hvalue₁ hnull₁ hvalue₂ hnull₂
    exact hbranch hr hvalue₁ hnull₁ hvalue₂ hnull₂

/-! ### Values that keep their flags -/

/-- A result with the flags of another one. -/
lemma Rowed.forward {n i : ℕ} {r : ExpressionResult R} (h : Rowed n r)
    {values : List (Value R)} (hlength : values.length = r.size) :
    Rowed n ⟨t, values, r.nulls⟩ ∧
      (⟨t, values, r.nulls⟩ : ExpressionResult R).value i =
        values.getD (readIndex r.size i) t.defaultValue := by
  have hsize : (⟨t, values, r.nulls⟩ : ExpressionResult R).size = r.size := hlength
  refine ⟨⟨hsize ▸ h.size, h.nulls, fun hone => h.scalar (hsize ▸ hone)⟩, ?_⟩
  rw [ExpressionResult.value, hsize]
  rfl

lemma sameAt_forward {f : Value R → Except Exception (Value R)} (h : SameAt n₁ i₁ n₂ i₂ r₁ r₂)
    {values₁ values₂ : List (Value R)} (hlength₁ : values₁.length = r₁.size)
    (hlength₂ : values₂.length = r₂.size)
    (h₁ : r₁.isNull i₁ = false →
      f (r₁.value i₁) = .ok (values₁.getD (readIndex r₁.size i₁) t.defaultValue))
    (h₂ : r₂.isNull i₂ = false →
      f (r₂.value i₂) = .ok (values₂.getD (readIndex r₂.size i₂) t.defaultValue)) :
    SameAt n₁ i₁ n₂ i₂ ⟨t, values₁, r₁.nulls⟩ ⟨t, values₂, r₂.nulls⟩ := by
  obtain ⟨hrowed₁, hvalue₁⟩ := h.left.forward (t := t) (i := i₁) hlength₁
  obtain ⟨hrowed₂, hvalue₂⟩ := h.right.forward (t := t) (i := i₂) hlength₂
  obtain ⟨hnull, hvalue⟩ := cell_eq_iff.mp h.cell
  refine ⟨hrowed₁, hrowed₂, rfl, cell_eq_iff.mpr ⟨hnull, fun hfalse => ?_⟩⟩
  have hf₁ := h₁ hfalse
  rw [hvalue hfalse, h₂ (hnull ▸ hfalse)] at hf₁
  rw [hvalue₁, hvalue₂]
  exact (Except.ok.inj hf₁).symm

include hi₁ hi₂ in
lemma agree_cast (h : SameAt n₁ i₁ n₂ i₂ r₁ r₂) :
    Agree n₁ i₁ n₂ i₂ (evaluateCastExpression conversions t r₁)
      (evaluateCastExpression conversions t r₂) := by
  intro x₁ x₂ h₁ h₂
  obtain ⟨values₁, hvalues₁, h₁⟩ := exists_of_bind_eq_ok h₁
  obtain ⟨values₂, hvalues₂, h₂⟩ := exists_of_bind_eq_ok h₂
  cases h₁
  cases h₂
  rw [h.dataType] at hvalues₁
  obtain ⟨hlength₁, hget₁⟩ := getD_of_mapM_range hvalues₁ t.defaultValue
  obtain ⟨hlength₂, hget₂⟩ := getD_of_mapM_range hvalues₂ t.defaultValue
  have hat₁ := hget₁ _ (readIndex_lt h.left.size hi₁)
  have hat₂ := hget₂ _ (readIndex_lt h.right.size hi₂)
  rw [(h.left.read_readIndex h.left.size id hi₁).1] at hat₁
  rw [(h.right.read_readIndex h.right.size id hi₂).1] at hat₂
  exact sameAt_forward h hlength₁ hlength₂ (fun _ => hat₁) fun _ => hat₂

include hi₁ hi₂ in
lemma agree_unaryMinus (h : SameAt n₁ i₁ n₂ i₂ r₁ r₂) :
    Agree n₁ i₁ n₂ i₂ (evaluateUnaryMinusExpression t r₁) (evaluateUnaryMinusExpression t r₂) := by
  have hat : ∀ {n i : ℕ} {r : ExpressionResult R} {values : List (Value R)}, Rowed n r → i < n →
      r.values.mapM negate = .ok values → values.length = r.size ∧
        negate (r.value i) = .ok (values.getD (readIndex r.size i) t.defaultValue) := by
    intro n i r values hr hi hvalues
    rw [mapM_eq_ok_iff] at hvalues
    have hlength : r.values.length = values.length := hvalues.length_eq
    have hlt : readIndex r.size i < r.values.length := readIndex_lt hr.size hi
    have hget := hvalues.get hlt (hlength ▸ hlt)
    refine ⟨hlength.symm, ?_⟩
    rw [ExpressionResult.value, List.getD_eq_getElem?_getD, List.getD_eq_getElem?_getD,
      List.getElem?_eq_getElem (show readIndex r.size i < values.length from hlength ▸ hlt)]
    show negate ((r.values[readIndex r.size i]?).getD _) = _
    rw [List.getElem?_eq_getElem hlt]
    exact hget
  intro x₁ x₂ h₁ h₂
  rw [evaluateUnaryMinusExpression] at h₁ h₂
  split at h₁
  · split at h₂
    · obtain ⟨values₁, hvalues₁, h₁⟩ := exists_of_bind_eq_ok h₁
      obtain ⟨values₂, hvalues₂, h₂⟩ := exists_of_bind_eq_ok h₂
      cases h₁
      cases h₂
      obtain ⟨hlength₁, hat₁⟩ := hat h.left hi₁ hvalues₁
      obtain ⟨hlength₂, hat₂⟩ := hat h.right hi₂ hvalues₂
      exact sameAt_forward h hlength₁ hlength₂ (fun _ => hat₁) fun _ => hat₂
    · cases h₂
  · cases h₁

/-- If a view has fewer rows than the result, all rows are NULL. -/
lemma isNull_of_size_asView {r : ExpressionResult R} {k i : ℕ} (hk : k < r.size)
    (hview : r.asView.size ≤ k) : r.isNull i = true := by
  rw [ExpressionResult.asView] at hview
  split at hview
  · rw [ExpressionResultView.size] at hview
    omega
  · split at hview
    · next htrue =>
      obtain ⟨flag, hflag⟩ := List.length_eq_one_iff.mp (show r.nulls.length = 1 by simp_all)
      simp_all [ExpressionResult.isNull]
    · split at hview <;> exact absurd hk (Nat.not_lt.mpr hview)

include hi₁ hi₂ in
lemma agree_extract (datetimeComponent : DatetimeComponent) (h : SameAt n₁ i₁ n₂ i₂ r₁ r₂) :
    Agree n₁ i₁ n₂ i₂ (evaluateExtractExpression datetimeComponent r₁)
      (evaluateExtractExpression datetimeComponent r₂) := by
  intro x₁ x₂ h₁ h₂
  rw [evaluateExtractExpression] at h₁ h₂
  obtain ⟨⟨offset, count⟩, hrange, h₁⟩ := exists_of_bind_eq_ok h₁
  obtain ⟨range, hrange', h₂⟩ := exists_of_bind_eq_ok h₂
  obtain rfl := Except.ok.inj (hrange.symm.trans hrange')
  obtain ⟨values₁, hvalues₁, h₁⟩ := exists_of_bind_eq_ok h₁
  obtain ⟨values₂, hvalues₂, h₂⟩ := exists_of_bind_eq_ok h₂
  cases h₁
  cases h₂
  have hat : ∀ {n i : ℕ} {r : ExpressionResult R} {v : Value R}, Rowed n r → i < n →
      r.isNull i = false → (if readIndex r.size i < r.asView.size then do
        let null ← r.asView.isNull (readIndex r.size i)
        if null then return .string []
        else substr offset count (← r.asView.value (readIndex r.size i))
      else return .string []) = Except.ok v → substr offset count (r.value i) = .ok v := by
    intro n i r v hr hi hfalse hv
    split at hv
    · next hlt =>
      obtain ⟨null, hnull, hv⟩ := exists_of_bind_eq_ok hv
      obtain ⟨u, hu⟩ := exists_value hlt
      have hindex : readIndex r.size i = i ∨ r.asView.size = 1 := by
        refine (readIndex_eq hr.size hi).imp_right fun hone => ?_
        rw [ExpressionResult.asView, if_pos hone]
        rfl
      obtain ⟨rfl, hvalue⟩ := hr.reads hi hindex hu hnull
      rw [hfalse, if_neg Bool.false_ne_true, hu] at hv
      rw [← hvalue hfalse]
      exact hv
    · next hge =>
      rw [isNull_of_size_asView (readIndex_lt hr.size hi) (Nat.not_lt.mp hge)] at hfalse
      cases hfalse
  obtain ⟨hlength₁, hget₁⟩ := getD_of_mapM_range hvalues₁ DataType.string.defaultValue
  obtain ⟨hlength₂, hget₂⟩ := getD_of_mapM_range hvalues₂ DataType.string.defaultValue
  exact sameAt_forward (f := substr offset count) h hlength₁ hlength₂
    (fun hfalse => hat h.left hi₁ hfalse (hget₁ _ (readIndex_lt h.left.size hi₁)))
    fun hfalse => hat h.right hi₂ hfalse (hget₂ _ (readIndex_lt h.right.size hi₂))

include hi₁ hi₂ in
/-- What is no predicate makes results that have the same cell of results that have. -/
lemma agree_computed (node : ExpressionNode R) {arguments₁ arguments₂ : List (ExpressionResult R)}
    (h : List.Forall₂ (SameAt n₁ i₁ n₂ i₂) arguments₁ arguments₂) :
    Agree n₁ i₁ n₂ i₂ (evaluateComputedExpression conversions node t arguments₁)
      (evaluateComputedExpression conversions node t arguments₂) := by
  intro x₁ x₂ h₁ h₂
  unfold evaluateComputedExpression at h₁
  split at h₁
  · rcases h with _ | ⟨hl, _ | ⟨hr, _ | _⟩⟩
    exact agree_arithmetic hi₁ hi₂ conversions _ hl hr x₁ x₂ h₁ h₂
  · rcases h with _ | ⟨hw, _ | ⟨hl, _ | ⟨hr, _ | _⟩⟩⟩
    exact agree_case hi₁ hi₂ conversions hw hl hr x₁ x₂ h₁ h₂
  · rcases h with _ | ⟨h, _ | _⟩
    exact agree_cast hi₁ hi₂ conversions h x₁ x₂ h₁ h₂
  · rcases h with _ | ⟨h, _ | _⟩
    exact agree_extract hi₁ hi₂ _ h x₁ x₂ h₁ h₂
  · rcases h with _ | ⟨h, _ | _⟩
    exact agree_unaryMinus hi₁ hi₂ h x₁ x₂ h₁ h₂
  · cases h₁

/-! ### All expressions -/

omit [FloatingPoint R] in
lemma agree_value [FloatingPoint R] (v : AllTypeVariant R) :
    Agree n₁ i₁ n₂ i₂ (evaluateValueExpression v t) (evaluateValueExpression v t) := by
  cases v with
  | none => exact .pure (sameAt_scalar rfl le_rfl)
  | some v =>
    intro x₁ x₂ h₁ h₂
    obtain ⟨-, -, h₁⟩ := exists_of_bind_eq_ok h₁
    obtain ⟨-, -, h₂⟩ := exists_of_bind_eq_ok h₂
    cases h₁
    cases h₂
    exact sameAt_scalar rfl (Nat.zero_le 1)

/-- Two evaluations that make the same requests and have the same cell in a row of each, wherever
both return. -/
abbrev RelatedRequests (n₁ i₁ n₂ i₂ : ℕ) : Requests R → Requests R → Prop :=
  Calls.Related (SameAt n₁ i₁ n₂ i₂)

section

-- what the operands request in the two evaluations
variable {body₁ body₂ leftBody₁ leftBody₂ rightBody₁ rightBody₂ : DataType → Requests R}
  {left right : Expression R}

lemma related_error {x : Exception} : RelatedRequests (R := R) n₁ i₁ n₂ i₂ (.done (.error x))
    (.done (.error x)) :=
  .done (Agree.of_error rfl)

lemma related_resolveRequests (e : Expression R)
    (h : ∀ t, RelatedRequests n₁ i₁ n₂ i₂ (body₁ t) (body₂ t))
    {next₁ next₂ : ExpressionResult R → Requests R}
    (hnext : ∀ r₁ r₂, SameAt n₁ i₁ n₂ i₂ r₁ r₂ →
      RelatedRequests n₁ i₁ n₂ i₂ (next₁ r₁) (next₂ r₂)) :
    RelatedRequests n₁ i₁ n₂ i₂ (resolveRequests e body₁ next₁)
      (resolveRequests e body₂ next₂) := by
  rw [resolveRequests, resolveRequests]
  split
  · exact related_error
  · split
    · next t _ =>
      split
      · exact hnext _ _ (sameAt_scalar rfl le_rfl)
      · exact .call e t (h t) hnext
    · exact related_error

lemma related_resolveBoth (hl : ∀ t, RelatedRequests n₁ i₁ n₂ i₂ (leftBody₁ t) (leftBody₂ t))
    (hr : ∀ t, RelatedRequests n₁ i₁ n₂ i₂ (rightBody₁ t) (rightBody₂ t))
    {next₁ next₂ : ExpressionResult R → ExpressionResult R → Except Exception (ExpressionResult R)}
    (hnext : ∀ {l₁ l₂ r₁ r₂}, SameAt n₁ i₁ n₂ i₂ l₁ l₂ → SameAt n₁ i₁ n₂ i₂ r₁ r₂ →
      Agree n₁ i₁ n₂ i₂ (next₁ l₁ r₁) (next₂ l₂ r₂)) :
    RelatedRequests n₁ i₁ n₂ i₂ (resolveBoth left right leftBody₁ rightBody₁ next₁)
      (resolveBoth left right leftBody₂ rightBody₂ next₂) :=
  related_resolveRequests left hl fun _ _ hleft =>
    related_resolveRequests right hr fun _ _ hright => .done (hnext hleft hright)

include hi₁ hi₂ in
lemma related_binaryRequests (condition : PredicateCondition)
    (hl : ∀ t, RelatedRequests n₁ i₁ n₂ i₂ (leftBody₁ t) (leftBody₂ t))
    (hr : ∀ t, RelatedRequests n₁ i₁ n₂ i₂ (rightBody₁ t) (rightBody₂ t)) (t : DataType) :
    RelatedRequests n₁ i₁ n₂ i₂ (binaryRequests condition left right leftBody₁ rightBody₁ t)
      (binaryRequests condition left right leftBody₂ rightBody₂ t) := by
  rw [binaryRequests, binaryRequests]
  split
  · split
    · next c _ =>
      exact related_resolveBoth hl hr fun h h' => agree_compare hi₁ hi₂ c h h'
    · next c _ =>
      exact related_resolveBoth hr hl fun h h' => agree_compare hi₁ hi₂ c h h'
    · exact related_error
  · exact related_error

include hi₁ hi₂ in
lemma related_logicalRequests (logicalOperator : LogicalOperator)
    (hl : ∀ t, RelatedRequests n₁ i₁ n₂ i₂ (leftBody₁ t) (leftBody₂ t))
    (hr : ∀ t, RelatedRequests n₁ i₁ n₂ i₂ (rightBody₁ t) (rightBody₂ t)) (t : DataType) :
    RelatedRequests n₁ i₁ n₂ i₂ (logicalRequests logicalOperator left right leftBody₁ rightBody₁ t)
      (logicalRequests logicalOperator left right leftBody₂ rightBody₂ t) := by
  rw [logicalRequests, logicalRequests]
  split
  · exact related_resolveBoth hl hr fun h h' =>
      agree_logical hi₁ hi₂ logicalOperator h h'
  · exact related_error

include hi₁ hi₂ in
lemma related_betweenRequests (condition : PredicateCondition) {value lower upper : Expression R}
    {upperBody₁ upperBody₂ : DataType → Requests R}
    (hv : ∀ t, RelatedRequests n₁ i₁ n₂ i₂ (body₁ t) (body₂ t))
    (hl : ∀ t, RelatedRequests n₁ i₁ n₂ i₂ (leftBody₁ t) (leftBody₂ t))
    (hu : ∀ t, RelatedRequests n₁ i₁ n₂ i₂ (upperBody₁ t) (upperBody₂ t)) :
    RelatedRequests n₁ i₁ n₂ i₂
      (betweenRequests condition value lower upper body₁ leftBody₁ upperBody₁ t)
      (betweenRequests condition value lower upper body₂ leftBody₂ upperBody₂ t) := by
  rw [betweenRequests, betweenRequests]
  split
  · exact .call _ _ (related_logicalRequests hi₁ hi₂ .and
      (related_binaryRequests hi₁ hi₂ _ hv hl) (related_binaryRequests hi₁ hi₂ _ hv hu) .int)
      fun _ _ h => .done (Agree.pure h)
  · exact related_error

/-- Two elements of a list with the same expression, whose requests are related. -/
structure RelatedElements (n₁ i₁ n₂ i₂ : ℕ) (element₁ element₂ : RequestElement R) : Prop where
  expression : element₁.1 = element₂.1
  body : ∀ t, RelatedRequests n₁ i₁ n₂ i₂ (element₁.2 t) (element₂.2 t)

include hi₁ hi₂ in
/-- A list is rewritten to the same expression in both evaluations. -/
lemma related_rewriteInListExpression (negated : Bool) (value : Expression R)
    (hv : ∀ t, RelatedRequests n₁ i₁ n₂ i₂ (body₁ t) (body₂ t)) {first₁ first₂ : RequestElement R}
    (hfirst : RelatedElements n₁ i₁ n₂ i₂ first₁ first₂) {rest₁ rest₂ : List (RequestElement R)}
    (hrest : List.Forall₂ (RelatedElements n₁ i₁ n₂ i₂) rest₁ rest₂) :
    RelatedElements n₁ i₁ n₂ i₂ (rewriteInListExpression negated value body₁ first₁ rest₁)
      (rewriteInListExpression negated value body₂ first₂ rest₂) := by
  have hcompare : ∀ {element₁ element₂ : RequestElement R},
      RelatedElements n₁ i₁ n₂ i₂ element₁ element₂ →
      RelatedElements n₁ i₁ n₂ i₂ (compareElement negated value body₁ element₁)
        (compareElement negated value body₂ element₂) := by
    rintro ⟨e, _⟩ ⟨_, _⟩ ⟨rfl, hbody⟩
    exact ⟨rfl, related_binaryRequests hi₁ hi₂ _ hv hbody⟩
  rw [rewriteInListExpression, rewriteInListExpression]
  have hstart := hcompare hfirst
  -- the start of the fold is generalised to any two elements that are related
  generalize compareElement negated value body₁ first₁ = start₁ at hstart ⊢
  generalize compareElement negated value body₂ first₂ = start₂ at hstart ⊢
  induction hrest generalizing start₁ start₂ with
  | nil => exact hstart
  | cons helement _ ih =>
    rw [List.foldl_cons, List.foldl_cons]
    refine ih _ _ ?_
    have helement := hcompare helement
    obtain ⟨e, _⟩ := start₁
    obtain ⟨_, _⟩ := start₂
    obtain ⟨rfl, hstart⟩ := hstart
    rw [extendRewritten, extendRewritten, helement.expression]
    exact ⟨rfl, related_logicalRequests hi₁ hi₂ _ hstart helement.body⟩

include hi₁ hi₂ in
lemma related_inRequests (negated : Bool) (value : Expression R)
    {request₁ request₂ : Expression R → DataType → Requests R}
    (hv : ∀ t, RelatedRequests n₁ i₁ n₂ i₂ (body₁ t) (body₂ t)) {elements : List (Expression R)}
    (h : ∀ e ∈ elements, ∀ t, RelatedRequests n₁ i₁ n₂ i₂ (request₁ e t) (request₂ e t)) :
    RelatedRequests n₁ i₁ n₂ i₂
      (inRequests negated value body₁ (elements.map fun e => (e, request₁ e)) t)
      (inRequests negated value body₂ (elements.map fun e => (e, request₂ e)) t) := by
  have hmapM : ∀ request : Expression R → DataType → Requests R,
      ((elements.map fun e => (e, request e)).mapM
        fun element : RequestElement R => element.1.getDataType) =
        elements.mapM Expression.getDataType := by
    intro request
    rw [List.mapM_map]
    rfl
  have hall : ∀ (request : Expression R → DataType → Requests R) (valueType : DataType),
      ((elements.map fun e => (e, request e)).all fun element : RequestElement R =>
        isValueOfType valueType element.1) =
        elements.all fun e => isValueOfType valueType e := by
    intro request valueType
    rw [List.all_map]
    rfl
  rw [inRequests, inRequests, List.isEmpty_map, List.isEmpty_map, hmapM, hmapM]
  split
  case isFalse => exact related_error
  case isTrue =>
    split
    · exact .done (Agree.pure (sameAt_scalar rfl (Nat.zero_le 1)))
    cases value.getDataType with
    | error x => exact related_error
    | ok valueType =>
      dsimp only
      split
      · exact .done (Agree.pure (sameAt_scalar rfl le_rfl))
      cases elements.mapM Expression.getDataType with
      | error x => exact related_error
      | ok types =>
        have hcompatible := fun request : Expression R → DataType → Requests R =>
          filter_zip_map (fun e => ((e, request e) : RequestElement R))
            (fun t => (t = .string) == (valueType = .string)) elements types
        dsimp only
        rw [hcompatible, hcompatible, hall, hall]
        have hmem : ∀ e ∈ ((elements.zip types).filter fun element =>
            (element.2 = .string) == (valueType = .string)).map Prod.fst, e ∈ elements := by
          intro e he
          obtain ⟨pair, hpair, rfl⟩ := List.mem_map.mp he
          exact (List.of_mem_zip (List.mem_of_mem_filter hpair)).1
        generalize (List.map Prod.fst (List.filter _ (elements.zip types)) :
          List (Expression R)) = compatible at hmem ⊢
        have hrelated : ∀ e ∈ compatible,
            RelatedElements n₁ i₁ n₂ i₂ (e, request₁ e) (e, request₂ e) :=
          fun e he => ⟨rfl, h e (hmem e he)⟩
        cases compatible with
        | nil => exact .done (Agree.pure (sameAt_scalar rfl (Nat.zero_le 1)))
        | cons first rest =>
          rw [List.forall_mem_cons] at hrelated
          rw [List.map_cons, List.map_cons]
          dsimp only
          split
          · rw [← List.map_cons (f := fun e => (e, request₁ e)),
              ← List.map_cons (f := fun e => (e, request₂ e)), List.filterMap_map,
              List.filterMap_map]
            exact related_resolveRequests value hv fun _ _ hsame =>
              .done (agree_search hi₁ hi₂ negated _ hsame)
          · have hrest : List.Forall₂ (RelatedElements n₁ i₁ n₂ i₂)
                (rest.map fun e => (e, request₁ e)) (rest.map fun e => (e, request₂ e)) := by
              rw [List.forall₂_map_left_iff, List.forall₂_map_right_iff, List.forall₂_same]
              exact hrelated.2
            have hrewritten :=
              related_rewriteInListExpression hi₁ hi₂ negated value hv hrelated.1 hrest
            rw [hrewritten.expression]
            exact .call _ _ (hrewritten.body .int) fun _ _ hsame => .done (Agree.pure hsame)

include hi₁ hi₂ in
lemma related_unaryRequests (node : ExpressionNode R) (argument : Expression R)
    (h : ∀ t, RelatedRequests n₁ i₁ n₂ i₂ (body₁ t) (body₂ t)) :
    RelatedRequests n₁ i₁ n₂ i₂
      (resolveRequests argument body₁ fun r =>
        .done (evaluateComputedExpression conversions node t [r]))
      (resolveRequests argument body₂ fun r =>
        .done (evaluateComputedExpression conversions node t [r])) :=
  related_resolveRequests argument h fun _ _ hsame =>
    .done (agree_computed hi₁ hi₂ conversions node (.cons hsame .nil))

end

variable {table₁ table₂ : Table R} {chunk₁ chunk₂ : ℕ}

include hi₁ hi₂ in
/-- **Two evaluations of an expression make the same requests, and what is requested has the same
cell in two rows wherever both return, if the evaluations of all columns have.** -/
theorem related_requests
    (hcolumns : ∀ columnId t, Agree n₁ i₁ n₂ i₂
      (evaluateColumnExpression table₁ (table₁.getChunk chunk₁) columnId t)
      (evaluateColumnExpression table₂ (table₂.getChunk chunk₂) columnId t))
    (e : Expression R) : (∀ t, RelatedRequests n₁ i₁ n₂ i₂
      (requests (evaluateComputedExpression conversions) table₁ chunk₁ e t)
      (requests (evaluateComputedExpression conversions) table₂ chunk₂ e t)) ∧
        ∀ a ∈ e.arguments, ∀ t, RelatedRequests n₁ i₁ n₂ i₂
          (requests (evaluateComputedExpression conversions) table₁ chunk₁ a t)
          (requests (evaluateComputedExpression conversions) table₂ chunk₂ a t) := by
  induction e with
  | node node arguments ihboth =>
    have ih := fun a ha => (ihboth a ha).1
    refine ⟨fun t => ?_, ih⟩
    unfold requests
    split
    · exact .done (hcolumns _ _)
    · exact .done (agree_value _)
    · next logicalOperator left right heq =>
      cases heq
      rw [List.forall_mem_cons, List.forall_mem_singleton] at ih
      exact related_logicalRequests hi₁ hi₂ logicalOperator ih.1 ih.2 _
    · next condition left right heq =>
      cases heq
      rw [List.forall_mem_cons, List.forall_mem_singleton] at ih
      exact related_binaryRequests hi₁ hi₂ condition ih.1 ih.2 _
    · next condition value lower upper heq =>
      cases heq
      rw [List.forall_mem_cons, List.forall_mem_cons, List.forall_mem_singleton] at ih
      exact related_betweenRequests hi₁ hi₂ condition ih.1 ih.2.1 ih.2.2
    · next condition value elements heq =>
      cases heq
      rw [List.forall_mem_cons, List.forall_mem_singleton] at ihboth
      rw [listRequests_eq, listRequests_eq]
      exact related_inRequests hi₁ hi₂ _ value ihboth.1.1 ihboth.2.2
    · next condition value set _ heq =>
      cases heq
      rw [List.forall_mem_cons, List.forall_mem_singleton] at ih
      exact related_inRequests hi₁ hi₂ _ value ih.1 (List.forall_mem_singleton.mpr ih.2)
    · next t _ _ condition operand heq =>
      cases heq
      rw [List.forall_mem_singleton] at ih
      split
      · exact related_resolveRequests operand ih fun _ _ hsame =>
          .done (agree_isNull hi₁ hi₂ condition hsame)
      · exact related_error
    · next when thenExpression otherwise heq =>
      cases heq
      rw [List.forall_mem_cons, List.forall_mem_cons, List.forall_mem_singleton] at ih
      exact .call when .int (ih.1 .int) fun _ _ hwhen =>
        related_resolveBoth ih.2.1 ih.2.2 fun hl hr =>
          agree_computed hi₁ hi₂ conversions .case (.cons hwhen (.cons hl (.cons hr .nil)))
    · next t _ _ datetimeComponent argument heq =>
      cases heq
      rw [List.forall_mem_singleton] at ih
      split
      · exact .call argument .string (ih .string) fun _ _ hsame =>
          .done (agree_computed hi₁ hi₂ conversions (.extract datetimeComponent) (.cons hsame .nil))
      · exact related_error
    · next argument heq =>
      cases heq
      rw [List.forall_mem_singleton] at ih
      exact related_unaryRequests hi₁ hi₂ conversions _ argument ih
    · next argument heq =>
      cases heq
      rw [List.forall_mem_singleton] at ih
      exact related_unaryRequests hi₁ hi₂ conversions _ argument ih
    · next left right heq =>
      cases heq
      rw [List.forall_mem_cons, List.forall_mem_singleton] at ih
      exact related_resolveBoth ih.1 ih.2 fun hl hr =>
        agree_computed hi₁ hi₂ conversions _ (.cons hl (.cons hr .nil))
    · exact related_error
    · exact related_error

end

end Skyrise

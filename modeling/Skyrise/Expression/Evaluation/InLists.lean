/-
Lists of literals.

An IN is searched in its list of literals or, if these are not all of the type of the
value, rewritten to a disjunction of comparisons.  A literal NULL makes a comparison
NULL at every row, which is a result with a single flag that is set.
-/
import Skyrise.Expression.Evaluation.PositionLists

namespace Skyrise

variable {R : Type}

/-! ### Kleene's connectives -/

/-- A conjunction or disjunction. -/
def connective : LogicalOperator → Option Bool → Option Bool → Option Bool
  | .and => kleeneAnd
  | .or => kleeneOr

/-- A negated disjunction is the conjunction of the negations. -/
lemma connective_map_xor (negated : Bool) (a b : Option Bool) :
    connective (if negated then .and else .or) (a.map (xor negated)) (b.map (xor negated)) =
      (kleeneOr a b).map (xor negated) := by
  cases negated <;> rcases a with _ | _ | _ <;> rcases b with _ | _ | _ <;> rfl

/-- A disjunction is true if something is, and otherwise NULL if something is. -/
lemma foldl_kleeneOr (a : Option Bool) (l : List (Option Bool)) :
    l.foldl kleeneOr a =
      if some true ∈ a :: l then some true else if none ∈ a :: l then none else some false := by
  induction l generalizing a with
  | nil => rcases a with _ | _ | _ <;> rfl
  | cons b l ih =>
    rw [List.foldl_cons, ih]
    simp only [List.mem_cons]
    rcases a with _ | _ | _ <;> rcases b with _ | _ | _ <;> simp [kleeneOr]

/-! ### Results whose flags can be read -/

section

variable [Zero R] {r : ExpressionResult R} {n i : ℕ}

omit [Zero R] in
lemma ExpressionResultView.isNull_of_isNullable {view : ExpressionResultView R}
    (h : view.isNullable = false) : view.isNull i = .ok false := by
  cases view with
  | literal v null => exact congrArg Except.ok h
  | nonNullSeries values => rfl
  | nullableSeries values nulls => cases h

/-- What a result is at a row. -/
def ExpressionResult.cell (r : ExpressionResult R) (i : ℕ) : AllTypeVariant R :=
  if r.isNull i then none else some (r.value i)

/-- A result with a value for all rows or for each of them, and with a flag for each value, none if
no row is NULL, or one that is set if all rows are. -/
structure Regular (n : ℕ) (r : ExpressionResult R) : Prop where
  size : r.size = 1 ∨ r.size = n
  nulls : r.nulls = [] ∨ r.nulls = [true] ∨ r.nulls.length = r.size

/-- Every row that a view has can be read from it; what it has for a NULL is not known. -/
lemma Regular.exists_reads (h : Regular n r) : (r.asView.size = 1 ∨ r.asView.size = n) ∧
    ∃ w : ℕ → Value R,
      (∀ i, i < r.asView.size ∨ r.asView.size = 1 →
        r.asView.value i = .ok (w i) ∧ r.asView.isNull i = .ok (r.isNull i) ∧
          (r.isNull i = false → w i = r.value i)) ∧
      (r.asView.size = 1 → ∀ i, w i = w 0 ∧ r.isNull i = r.isNull 0) := by
  rw [ExpressionResult.asView]
  split
  · next hone =>
    obtain ⟨v, hv⟩ := List.length_eq_one_iff.mp hone
    have hnull : ∀ i, r.isNull i = (r.isNullable && r.nulls.headD false) := by
      intro i
      rw [ExpressionResult.isNull, ExpressionResult.isNullable]
      have hle : r.nulls.length ≤ 1 := by
        rcases h.nulls with hnil | htrue | hlength
        · simp [hnil]
        · simp [htrue]
        · omega
      cases hnulls : r.nulls with
      | nil => rfl
      | cons null nulls =>
        rw [hnulls, List.length_cons] at hle
        rw [show min i ((null :: nulls).length - 1) = 0 by rw [List.length_cons]; omega]
        rfl
    refine ⟨.inl rfl, fun _ => r.values.headD r.dataType.defaultValue,
      fun i _ => ⟨rfl, congrArg Except.ok (hnull i).symm, fun _ => ?_⟩,
      fun _ i => ⟨rfl, (hnull i).trans (hnull 0).symm⟩⟩
    rw [ExpressionResult.value, hone, Nat.sub_self, Nat.min_zero, hv]
    rfl
  · next hmany =>
    have hn : r.values.length = n := h.size.resolve_left hmany
    split
    · next htrue =>
      obtain ⟨null, hnull⟩ := List.length_eq_one_iff.mp (show r.nulls.length = 1 by simp_all)
      have hset : ∀ i, r.isNull i = true := by
        intro i
        simp_all [ExpressionResult.isNull]
      exact ⟨.inl rfl, fun _ => r.dataType.defaultValue,
        fun i _ => ⟨rfl, congrArg Except.ok (hset i).symm,
          fun hfalse => absurd ((hset i).symm.trans hfalse) Bool.false_ne_true.symm⟩,
        fun _ i => ⟨rfl, (hset i).trans (hset 0).symm⟩⟩
    · next hfalse =>
      have hvalue : ∀ i < r.values.length,
          r.values.getD i r.dataType.defaultValue = r.value i := by
        intro i hi
        rw [ExpressionResult.value,
          Nat.min_eq_left (show i ≤ r.size - 1 by rw [ExpressionResult.size]; omega)]
      split
      · next hempty =>
        have hnil : r.nulls = [] := by simpa [ExpressionResult.isNullable] using hempty
        refine ⟨.inr hn, r.value, fun i hi => ?_, fun hone => absurd hone hmany⟩
        have hlt : i < r.values.length := hi.resolve_right hmany
        rw [ExpressionResult.isNull, hnil,
          ExpressionResultView.value_nonNullSeries_of_lt hlt r.dataType.defaultValue, hvalue i hlt]
        exact ⟨rfl, rfl, fun _ => rfl⟩
      · next hempty =>
        have hne : r.nulls ≠ [] := by simpa [ExpressionResult.isNullable] using hempty
        have hlength : r.nulls.length = r.values.length := by
          rcases h.nulls with hnil | htrue | hlength
          · exact absurd hnil hne
          · simp [htrue] at hfalse
          · exact hlength
        refine ⟨.inr hn, r.value, fun i hi => ?_, fun hone => absurd hone hmany⟩
        have hlt : i < r.values.length := hi.resolve_right hmany
        rw [ExpressionResultView.value_nullableSeries_of_lt hlt r.dataType.defaultValue,
          hvalue i hlt, ExpressionResultView.isNull_nullableSeries_of_lt (hlength ▸ hlt),
          ExpressionResult.isNull, if_neg (by simpa using hne), Nat.min_eq_left (by omega)]
        exact ⟨rfl, rfl, fun _ => rfl⟩

lemma lt_of_lt_resultSize {left right : ℕ} (hi : i < resultSize left right)
    (hl : left = 1 ∨ left = n) (hr : right = 1 ∨ right = n) :
    (i < left ∨ left = 1) ∧ (i < right ∨ right = 1) := by
  rw [resultSize] at hi
  split at hi <;> omega

lemma resultSize_eq_or {left right : ℕ} (hl : left = 1 ∨ left = n) (hr : right = 1 ∨ right = n) :
    resultSize left right = 1 ∨ resultSize left right = n := by
  rw [resultSize]
  split <;> omega

lemma readable_of_lt {m : ℕ} (hm : m = 1 ∨ m = n) (hi : i < n) : i < m ∨ m = 1 := by omega

end

section

variable [FloatingPoint R] {r left right : ExpressionResult R} {n i : ℕ} {f g : ℕ → Option Bool}

/-- A result is boolean, and a truth value or NULL at every row. -/
structure YieldsTruth (n : ℕ) (r : ExpressionResult R) (f : ℕ → Option Bool) : Prop where
  dataType : r.dataType = .int
  regular : Regular n r
  cell : ∀ i < n, r.cell i = (f i).map Value.ofBool

/-- The result that has a cell for each of some rows. -/
lemma yields_map_range {m : ℕ} {c : ℕ → Bool × Bool} (hm : m = 1 ∨ m = n)
    (hc : m = 1 → ∀ i, c i = c 0)
    (hf : ∀ i < n, f i = if (c i).2 then none else some (c i).1) :
    YieldsTruth n (⟨.int, (List.range m).map fun i => .ofBool (c i).1,
      (List.range m).map fun i => (c i).2⟩ : ExpressionResult R) f := by
  refine ⟨rfl, ⟨?_, .inr (.inr ?_)⟩, fun i hi => ?_⟩
  · simpa [ExpressionResult.size] using hm
  · simp [ExpressionResult.size]
  · have hi' := readable_of_lt hm hi
    rw [ExpressionResult.cell, isNull_map_range hi' fun h => by rw [hc h i],
      value_map_range hi' fun h => by rw [hc h i], hf i hi]
    cases (c i).2 <;> rfl

lemma toBool_of_cell {v : Value R} {b : Option Bool} (hv : some v = b.map Value.ofBool) :
    some v.toBool = b := by
  cases b with
  | none => cases hv
  | some b =>
    obtain rfl := Option.some.inj hv
    rw [toBool_ofBool]

/-- Conjunctions and disjunctions are Kleene's, whatever the values of what is NULL. -/
lemma yields_logical (logicalOperator : LogicalOperator) (hl : YieldsTruth n left f)
    (hr : YieldsTruth n right g) : ∃ r,
      evaluateLogicalExpression logicalOperator (.ok left) (.ok right) = .ok r ∧
        YieldsTruth n r fun i => connective logicalOperator (f i) (g i) := by
  obtain ⟨hsizel, v, hv, hvone⟩ := hl.regular.exists_reads
  obtain ⟨hsizer, w, hw, hwone⟩ := hr.regular.exists_reads
  set m := resultSize left.asView.size right.asView.size with hm
  let c : ℕ → Bool × Bool := fun i =>
    ternary logicalOperator (v i).toBool (left.isNull i) (w i).toBool (right.isNull i)
  have hcells : ((List.range m).mapM fun i => do
      let leftValue ← left.asView.value i
      let leftNull ← left.asView.isNull i
      let rightValue ← right.asView.value i
      let rightNull ← right.asView.isNull i
      return ternary logicalOperator leftValue.toBool leftNull rightValue.toBool rightNull) =
      Except.ok ((List.range m).map c) := by
    refine mapM_eq_ok fun i hi => ?_
    obtain ⟨hil, hir⟩ := lt_of_lt_resultSize (List.mem_range.mp hi) hsizel hsizer
    obtain ⟨hlv, hln, -⟩ := hv i hil
    obtain ⟨hrv, hrn, -⟩ := hw i hir
    rw [hlv, hln, hrv, hrn]
    rfl
  refine ⟨⟨.int, (List.range m).map fun i => .ofBool (c i).1, (List.range m).map fun i => (c i).2⟩,
    ?_, yields_map_range (resultSize_eq_or hsizel hsizer) (fun hone i => ?_) fun i hi => ?_⟩
  · show (if isLogicalOperand left.dataType && isLogicalOperand right.dataType then _ else _) = _
    rw [hl.dataType, hr.dataType,
      if_pos (show (isLogicalOperand DataType.int && isLogicalOperand DataType.int) = true from
        rfl)]
    refine (congrArg (· >>= _) hcells).trans ?_
    refine congrArg Except.ok ?_
    rw [List.map_map, List.map_map]
    rfl
  · obtain ⟨hl', hr'⟩ : left.asView.size = 1 ∧ right.asView.size = 1 := by
      rw [hm, resultSize] at hone
      split at hone <;> omega
    show ternary _ _ _ _ _ = ternary _ _ _ _ _
    rw [(hvone hl' i).1, (hvone hl' i).2, (hwone hr' i).1, (hwone hr' i).2]
  · have hcl := hl.cell i hi
    have hcr := hr.cell i hi
    obtain ⟨-, -, hlv⟩ := hv i (readable_of_lt hsizel hi)
    obtain ⟨-, -, hrv⟩ := hw i (readable_of_lt hsizer hi)
    rw [ExpressionResult.cell] at hcl hcr
    show _ = if (ternary _ _ _ _ _).2 then none else some (ternary _ _ _ _ _).1
    cases hln : left.isNull i with
    | true =>
      rw [hln, if_pos rfl, eq_comm, Option.map_eq_none_iff] at hcl
      rw [hcl]
      cases hrn : right.isNull i with
      | true =>
        rw [hrn, if_pos rfl, eq_comm, Option.map_eq_none_iff] at hcr
        rw [hcr]
        cases logicalOperator <;> rfl
      | false =>
        rw [hrn, if_neg Bool.false_ne_true, ← hrv hrn] at hcr
        rw [← toBool_of_cell hcr]
        cases logicalOperator <;> cases (v i).toBool <;> cases (w i).toBool <;> rfl
    | false =>
      rw [hln, if_neg Bool.false_ne_true, ← hlv hln] at hcl
      rw [← toBool_of_cell hcl]
      cases hrn : right.isNull i with
      | true =>
        rw [hrn, if_pos rfl, eq_comm, Option.map_eq_none_iff] at hcr
        rw [hcr]
        cases logicalOperator <;> cases (v i).toBool <;> cases (w i).toBool <;> rfl
      | false =>
        rw [hrn, if_neg Bool.false_ne_true, ← hrv hrn] at hcr
        rw [← toBool_of_cell hcr]
        cases logicalOperator <;> cases (v i).toBool <;> cases (w i).toBool <;> rfl

/-! ### Comparing with a literal -/

/-- A literal. -/
def literal (v : AllTypeVariant R) : Expression R := .node (.value v) []

/-- Whether a value of a type equals a literal. -/
def equalsAt (t : DataType) (v w : AllTypeVariant R) : Option Bool :=
  match v, w with
  | some v, some w => some (Comparison.equals.evaluate t w.dataType v w)
  | _, _ => none

@[simp] lemma equalsAt_none (t : DataType) (v : AllTypeVariant R) : equalsAt t v none = none := by
  cases v <;> rfl

/-- The result of a literal. -/
def literalResult (v : AllTypeVariant R) : ExpressionResult R :=
  match v with
  | none => ⟨.null, [DataType.null.defaultValue], [true]⟩
  | some v => ⟨v.dataType, [v], []⟩

/-- What a result of a type is that is computed for some rows, as far as its flags can be read. -/
structure IsOperandOf (n : ℕ) (t : DataType) (r : ExpressionResult R) : Prop where
  dataType : r.dataType = t
  regular : Regular n r
  values : t ≠ .null → ∀ v ∈ r.values, v.dataType = t

lemma IsOperandOf.dataType_of_cell {t : DataType} (h : IsOperandOf n t r) (ht : t ≠ .null)
    (hi : i < n) {v : Value R} (hv : r.cell i = some v) : v.dataType = t := by
  rw [ExpressionResult.cell] at hv
  split at hv
  · cases hv
  · have hsize := h.regular.size
    have hlt : min i (r.size - 1) < r.values.length := by
      rw [ExpressionResult.size] at hsize ⊢
      omega
    rw [ExpressionResult.value, List.getD_eq_getElem?_getD, List.getElem?_eq_getElem hlt,
      Option.getD_some, Option.some.injEq] at hv
    exact h.values ht v (hv ▸ List.getElem_mem hlt)

lemma nulls_of_literal {nulls : List Bool} {size : ℕ}
    (h : nulls = [] ∨ nulls = [true] ∨ nulls.length = size) (w : AllTypeVariant R) :
    evaluateDefaultNullLogic nulls (literalResult w).nulls =
      if w.isNone then [true] else nulls := by
  cases w with
  | none =>
    rw [evaluateDefaultNullLogic, literalResult]
    rcases nulls with - | ⟨null, - | ⟨null', nulls⟩⟩
    · rfl
    · cases null <;> rfl
    · simp
  | some w =>
    rw [evaluateDefaultNullLogic, literalResult]
    cases nulls with
    | nil => rfl
    | cons null nulls => simp

lemma evaluate_notEquals {t t' : DataType} (ht : t ≠ .null) (ht' : t' ≠ .null) (v w : Value R) :
    Comparison.notEquals.evaluate t t' v w = !Comparison.equals.evaluate t t' v w := by
  rw [Comparison.evaluate, Comparison.evaluate, if_neg (by simp [ht, ht']),
    if_neg (by simp [ht, ht'])]
  simp [Comparison.holds]

/-- A comparison of a value with a literal. -/
lemma yields_compare (negated : Bool) {t : DataType} (ht : t ≠ .null) (h : IsOperandOf n t left)
    (w : AllTypeVariant R)
    (hw : Comparison.supports t (dataTypeFromAllTypeVariant w) = true) : ∃ r,
      evaluateBinaryPredicateExpression (if negated then .notEquals else .equals) (.ok left)
          (.ok (literalResult w)) = .ok r ∧
        YieldsTruth n r fun i => (equalsAt t (left.cell i) w).map (xor negated) := by
  set c : Comparison := if negated then .notEquals else .equals with hc
  have htype : (literalResult w).dataType = dataTypeFromAllTypeVariant w := by cases w <;> rfl
  have hone : (literalResult w).size = 1 := by cases w <;> rfl
  have hsize : resultSize left.size (literalResult w).size = left.size := by
    rw [hone, resultSize]
    split <;> omega
  have hrun : evaluateBinaryPredicateExpression (if negated then .notEquals else .equals) (.ok left)
      (.ok (literalResult w)) = .ok ⟨.int, (List.range left.size).map fun i =>
        .ofBool (c.evaluate t (dataTypeFromAllTypeVariant w) (left.value i)
          ((literalResult w).value i)),
        if w.isNone then [true] else left.nulls⟩ := by
    have hcondition : comparisonOf (if negated then .notEquals else .equals) = some (c, false) := by
      cases negated <;> rfl
    rw [evaluateBinaryPredicateExpression, hcondition]
    show (if Comparison.supports left.dataType (literalResult w).dataType then _ else _) = _
    rw [h.dataType, htype, if_pos hw]
    refine congrArg Except.ok ?_
    rw [hsize, nulls_of_literal h.regular.nulls]
    congr 1
    refine List.map_congr_left fun i hi => ?_
    have hlt := List.mem_range.mp hi
    have hzero : left.size = 1 → (literalResult w).size = 1 → i = 0 := fun hl _ => by omega
    have hlv := getD_eq_value (r := left) (.inl hlt) fun h h' => hzero h' h
    have hrv := getD_eq_value (r := literalResult w) (.inr hone) hzero
    rw [h.dataType] at hlv
    rw [htype] at hrv
    dsimp only
    rw [hlv, hrv]
  refine ⟨_, hrun, rfl, ⟨?_, ?_⟩, fun i hi => ?_⟩
  · simpa [ExpressionResult.size] using h.regular.size
  · cases w with
    | none => exact .inr (.inl rfl)
    | some w => simpa [ExpressionResult.size] using h.regular.nulls
  · cases w with
    | none =>
      rw [equalsAt_none]
      simp [ExpressionResult.cell, ExpressionResult.isNull]
    | some w =>
      have hnull : ∀ values : List (Value R),
          (⟨.int, values, left.nulls⟩ : ExpressionResult R).isNull i = left.isNull i := fun _ => rfl
      have hvalue : (literalResult (some w)).value i = w := value_of_size_eq_one rfl i
      rw [ExpressionResult.cell, ExpressionResult.cell]
      simp only [Option.isNone_some, Bool.false_eq_true, if_false]
      rw [hnull, value_map_range (readable_of_lt h.regular.size hi) fun hone => by
        rw [value_of_size_eq_one hone i, value_of_size_eq_one rfl i]]
      cases left.isNull i with
      | true => rfl
      | false =>
        rw [if_neg Bool.false_ne_true, if_neg Bool.false_ne_true, equalsAt, hvalue, hc]
        cases negated with
        | false => simp [dataTypeFromAllTypeVariant]
        | true => simp [dataTypeFromAllTypeVariant, evaluate_notEquals ht w.dataType_ne_null]

lemma castTo_self {v : Value R} : v.castTo (commonType v.dataType v.dataType) = v := by
  cases v <;> rfl

/-- Values of one type are compared as they are. -/
lemma equalsAt_self {v w : Value R} (h : v.dataType = w.dataType) :
    equalsAt v.dataType (some v) (some w) = some (decide (v = w)) := by
  rw [equalsAt, Comparison.evaluate, if_neg (by simp [v.dataType_ne_null, w.dataType_ne_null])]
  have hv : v.castTo (commonType v.dataType w.dataType) = v := h ▸ castTo_self
  have hw : w.castTo (commonType v.dataType w.dataType) = w := by
    rw [h]
    exact castTo_self
  rw [hv, hw, Comparison.holds]

/-! ### Rewriting and searching a list -/

variable {computed : Expression R → DataType → Except Exception (ExpressionResult R)}
  {table : Table R} {chunkId : ℕ} {t : DataType}

variable (computed table chunkId) in
lemma resolve_literal (w : AllTypeVariant R) :
    resolve computed table chunkId (literal w) = .ok (literalResult w) := by
  cases w with
  | none => rfl
  | some w =>
    rw [resolve_eq (t := w.dataType) rfl w.dataType_ne_null (by simp [literal, Expression.root,
      ExpressionNode.expressionType]), literal, evaluateExpressionToResult, evaluateValueExpression]
    simp only [decide_true, assert_true]
    rfl

variable (computed table chunkId) in
/-- A literal as an element of a list. -/
def literalElement (w : AllTypeVariant R) : InElement R :=
  (literal w, evaluateExpressionToResult computed table chunkId (literal w))

variable (computed table chunkId) in
/-- The disjunction of the comparisons of a value with literals. -/
lemma yields_foldl (negated : Bool) (ht : t ≠ .null) (h : IsOperandOf n t left)
    {literals : List (AllTypeVariant R)}
    (hsupports : ∀ w ∈ literals, Comparison.supports t (dataTypeFromAllTypeVariant w) = true) :
    ∀ (acc : ExpressionResult R) (f : ℕ → Option Bool),
      YieldsTruth n acc (fun i => (f i).map (xor negated)) → ∃ r,
        (literals.map (literalElement computed table chunkId)).foldl (fun result element =>
          evaluateLogicalExpression (if negated then .and else .or) result
            (evaluateBinaryPredicateExpression (if negated then .notEquals else .equals) (.ok left)
              (resolveToExpressionResult element.1 element.2))) (.ok acc) = .ok r ∧
          YieldsTruth n r fun i =>
            ((literals.map (equalsAt t (left.cell i))).foldl kleeneOr (f i)).map (xor negated) := by
  induction literals with
  | nil => exact fun acc f hacc => ⟨acc, rfl, hacc⟩
  | cons w literals ih =>
    intro acc f hacc
    rw [List.forall_mem_cons] at hsupports
    obtain ⟨compared, hcompare, hyields⟩ := yields_compare negated ht h w hsupports.1
    obtain ⟨joined, hjoin, hjoined⟩ :=
      yields_logical (if negated then .and else .or) hacc hyields
    simp only [connective_map_xor] at hjoined
    obtain ⟨r, hrun, hr⟩ := ih hsupports.2 joined _ hjoined
    refine ⟨r, ?_, hr⟩
    have hresolve : resolveToExpressionResult (literalElement computed table chunkId w).1
        (literalElement computed table chunkId w).2 = .ok (literalResult w) :=
      resolve_literal computed table chunkId w
    rw [List.map_cons, List.foldl_cons, hresolve, hcompare, hjoin]
    exact hrun

/-- Searching a list of values for the view of a result. -/
lemma yields_searchView (negated : Bool) (h : Regular n left) (rightValues : List (Value R)) : ∃ r,
    (do
      let cells ← (List.range left.asView.size).mapM (searchView negated rightValues left)
      return (⟨.int, cells.map fun cell : Bool × Bool => .ofBool cell.1,
        if left.asView.isNullable then cells.map Prod.snd else []⟩ : ExpressionResult R)) =
        Except.ok r ∧
      YieldsTruth n r fun i =>
        (left.cell i).map fun v => xor negated (decide (v ∈ rightValues)) := by
  obtain ⟨hsize, w, hw, hone⟩ := h.exists_reads
  let c : ℕ → Bool × Bool := fun i =>
    (if left.isNull i then negated else if w i ∈ rightValues then !negated else negated,
      left.isNull i)
  have hnullable : ∀ i, i < left.asView.size ∨ left.asView.size = 1 →
      left.asView.isNullable = false → left.isNull i = false := by
    intro i hi hfalse
    have hread := (hw i hi).2.1
    rw [ExpressionResultView.isNull_of_isNullable hfalse] at hread
    exact (Except.ok.inj hread).symm
  have hcells : (List.range left.asView.size).mapM (searchView negated rightValues left) =
      .ok ((List.range left.asView.size).map c) := by
    refine mapM_eq_ok fun i hi => ?_
    obtain ⟨hv, hn, -⟩ := hw i (.inl (List.mem_range.mp hi))
    rw [searchView, hv, hn]
    cases hview : left.asView.isNullable with
    | true => rfl
    | false =>
      have hfalse := hnullable i (.inl (List.mem_range.mp hi)) hview
      simp [c, hfalse]
      rfl
  have hrow : ∀ i < n, (left.cell i).map (fun v => xor negated (decide (v ∈ rightValues))) =
      if (c i).2 then none else some (c i).1 := by
    intro i hi
    obtain ⟨-, -, hv⟩ := hw i (readable_of_lt hsize hi)
    rw [ExpressionResult.cell]
    cases hnull : left.isNull i with
    | true => simp [c, hnull]
    | false => cases negated <;> simp [c, hnull, hv hnull]
  have hconstant : left.asView.size = 1 → ∀ i, c i = c 0 := fun h i => by
    simp only [c, (hone h i).1, (hone h i).2]
  refine ⟨_, by rw [hcells]; rfl, ?_⟩
  rw [List.map_map, List.map_map]
  cases hview : left.asView.isNullable with
  | true => exact yields_map_range hsize hconstant hrow
  | false =>
    refine ⟨rfl, ⟨?_, .inl rfl⟩, fun i hi => ?_⟩
    · simpa [ExpressionResult.size] using hsize
    · have hi' := readable_of_lt hsize hi
      have hnull : (c i).2 = false := hnullable i hi' hview
      rw [hrow i hi, hnull, if_neg Bool.false_ne_true, ExpressionResult.cell,
        value_map_range hi' fun h => congrArg (fun cell => Value.ofBool (Prod.fst cell))
          (hconstant h i)]
      rfl

/-! ### The three-valued logic of IN -/

/-- Whether a literal can be compared with a value of a type. -/
def isComparable (t : DataType) (w : AllTypeVariant R) : Bool :=
  (dataTypeFromAllTypeVariant w = .string) == (t = .string)

/-- What SQL says about a value and a list of literals. -/
def sqlInList (negated : Bool) (t : DataType) (literals : List (AllTypeVariant R))
    (v : AllTypeVariant R) : Option Bool :=
  if v.isNone then none
  else if ∃ w ∈ literals, isComparable t w = true ∧ equalsAt t v w = some true then some !negated
  else if none ∈ literals then none
  else some negated

/-- The same where a list in which there is neither a NULL nor anything that can be compared is like
an empty one. -/
def inListAt (negated : Bool) (t : DataType) (literals : List (AllTypeVariant R))
    (v : AllTypeVariant R) : Option Bool :=
  if t ≠ .null ∧ ∀ w ∈ literals, w ≠ none ∧ isComparable t w = false then some negated
  else sqlInList negated t literals v

lemma compatibleElements_literals {value : Expression R} (htype : value.getDataType = .ok t)
    (literals : List (AllTypeVariant R)) :
    compatibleElements value (literals.map (literalElement computed table chunkId)) =
      (literals.filter (isComparable t)).map (literalElement computed table chunkId) := by
  rw [compatibleElements, List.filter_map]
  congr 1
  refine List.filter_congr fun w _ => ?_
  have hliteral : (literal w).getDataType = .ok (dataTypeFromAllTypeVariant w) := rfl
  simp [isComparable, literalElement, ResultShape.isString, htype, hliteral]

/-- The comparisons with the literals that can be compared are SQL's. -/
lemma foldl_kleeneOr_eq {literals : List (AllTypeVariant R)} {first : AllTypeVariant R}
    {rest : List (AllTypeVariant R)} (hc : literals.filter (isComparable t) = first :: rest)
    (hstring : t = .string → none ∉ literals) (negated : Bool) (v : AllTypeVariant R) :
    ((rest.map (equalsAt t v)).foldl kleeneOr (equalsAt t v first)).map (xor negated) =
      sqlInList negated t literals v := by
  rw [foldl_kleeneOr, ← List.map_cons, ← hc, sqlInList]
  have htrue : some true ∈ (literals.filter (isComparable t)).map (equalsAt t v) ↔
      ∃ w ∈ literals, isComparable t w = true ∧ equalsAt t v w = some true := by
    simp [and_assoc]
  cases v with
  | none =>
    have hnone : ∀ w : AllTypeVariant R, equalsAt t none w = none := fun _ => rfl
    rw [hc]
    simp [hnone]
  | some v =>
    have hnull : none ∈ (literals.filter (isComparable t)).map (equalsAt t (some v)) ↔
        none ∈ literals := by
      rw [List.mem_map]
      constructor
      · rintro ⟨w, hw, hequals⟩
        cases w with
        | none => exact List.mem_of_mem_filter hw
        | some w => cases hequals
      · intro hmem
        refine ⟨none, List.mem_filter.mpr ⟨hmem, ?_⟩, rfl⟩
        have ht : t ≠ .string := fun h => hstring h hmem
        simp [isComparable, dataTypeFromAllTypeVariant, ht]
    simp only [htrue, hnull, Option.isNone_some, Bool.false_eq_true, if_false]
    split_ifs <;> cases negated <;> rfl

omit [FloatingPoint R] in
lemma supports_of_isComparable (ht : t ≠ .null) {w : AllTypeVariant R}
    (hw : isComparable t w = true) :
    Comparison.supports t (dataTypeFromAllTypeVariant w) = true := by
  rw [isComparable, beq_iff_eq, decide_eq_decide] at hw
  revert hw ht
  cases t <;> cases dataTypeFromAllTypeVariant w <;> simp [Comparison.supports]

lemma cell_scalar {b : Bool} {nulls : List Bool} (i : ℕ) :
    (⟨.int, [.ofBool b], nulls⟩ : ExpressionResult R).value i = .ofBool b :=
  value_of_size_eq_one rfl i

omit [FloatingPoint R] in
/-- The literals of a list that is searched. -/
lemma searched_literals {literals : List (AllTypeVariant R)}
    (hall : ∀ w ∈ literals, isValueOfType t (literal w) = true) :
    ∀ w ∈ literals, ∃ v : Value R, w = some v ∧ v.dataType = t := by
  intro w hw
  have h := hall w hw
  cases w with
  | none => cases h
  | some v => exact ⟨v, rfl, by simpa [isValueOfType, literal, Expression.root] using h⟩

/-- Searching the values is SQL's search if all of them are of the type. -/
lemma search_eq {literals : List (AllTypeVariant R)} {v : AllTypeVariant R}
    (hall : ∀ w ∈ literals, ∃ u : Value R, w = some u ∧ u.dataType = t)
    (hv : ∀ u, v = some u → u.dataType = t) (negated : Bool) :
    v.map (fun u => xor negated (decide (u ∈ literals.filterMap id))) =
      sqlInList negated t literals v := by
  rw [sqlInList]
  cases v with
  | none => rfl
  | some v =>
    have htype := hv v rfl
    have hnone : none ∉ literals := fun hmem => by
      obtain ⟨u, hu, -⟩ := hall none hmem
      cases hu
    have hmem : (∃ w ∈ literals, isComparable t w = true ∧ equalsAt t (some v) w = some true) ↔
        v ∈ literals.filterMap id := by
      rw [List.mem_filterMap]
      constructor
      · rintro ⟨w, hw, -, hequals⟩
        obtain ⟨u, rfl, hu⟩ := hall w hw
        rw [← htype, equalsAt_self (htype.trans hu.symm), Option.some.injEq,
          decide_eq_true_eq] at hequals
        exact ⟨some u, hw, congrArg some hequals.symm⟩
      · rintro ⟨w, hw, hsome⟩
        obtain rfl : w = some v := hsome
        refine ⟨some v, hw, ?_, ?_⟩
        · simp [isComparable, dataTypeFromAllTypeVariant, htype]
        · rw [← htype, equalsAt_self rfl, decide_eq_true rfl]
    simp only [hmem, hnone, Option.isNone_some, Bool.false_eq_true, if_false, Option.map_some]
    by_cases h : v ∈ literals.filterMap id
    · rw [if_pos h, decide_eq_true h, Bool.xor_true]
    · rw [if_neg h, decide_eq_false h, Bool.xor_false]

end

section

variable [FloatingPoint R]
  {computed : Expression R → DataType → Except Exception (ExpressionResult R)} {table : Table R}
  {chunkId : ℕ} {value : Expression R} {t : DataType} {left : ExpressionResult R}
  {literals rest : List (AllTypeVariant R)} {first : AllTypeVariant R}

/-- A list of literals of the type of the value is searched. -/
lemma exists_searched (negated : Bool) (hoperand : IsOperandOf (table.getChunk chunkId).size t left)
    (ht : t ≠ .null) (hleft : resolve computed table chunkId value = .ok left)
    (hvalues : ∀ w ∈ literals, ∃ v : Value R, w = some v ∧ v.dataType = t)
    (hc : literals.filter (isComparable t) = first :: rest) : ∃ r, (do
      let result ← resolveToExpressionResult value
        (evaluateExpressionToResult computed table chunkId value)
      let cells ← (List.range result.asView.size).mapM (searchView negated
        ((literalElement computed table chunkId first ::
          rest.map (literalElement computed table chunkId)).filterMap fun element : InElement R =>
            literalOf element.1) result)
      return (⟨.int, cells.map fun cell : Bool × Bool => .ofBool cell.1,
        if result.asView.isNullable then cells.map Prod.snd else []⟩ : ExpressionResult R)) = .ok r ∧
      ∀ i < (table.getChunk chunkId).size,
        r.cell i = (sqlInList negated t literals (left.cell i)).map .ofBool := by
  have hright : ((literalElement computed table chunkId first :: rest.map
      (literalElement computed table chunkId)).filterMap fun element => literalOf element.1) =
        literals.filterMap id := by
    have hfilter : literals.filter (isComparable t) = literals := by
      refine List.filter_eq_self.mpr fun w hw => ?_
      obtain ⟨v, rfl, hv⟩ := hvalues w hw
      simp [isComparable, dataTypeFromAllTypeVariant, hv]
    rw [← List.map_cons, ← hc, hfilter, List.filterMap_map]
    rfl
  obtain ⟨r, hrun, hr⟩ := yields_searchView negated hoperand.regular (literals.filterMap id)
  refine ⟨r, ?_, fun i hi => ?_⟩
  · rw [resolve] at hleft
    rw [hleft, hright]
    exact hrun
  · rw [hr.cell i hi, search_eq hvalues fun v hv => hoperand.dataType_of_cell ht hi hv]

/-- A list of other literals is rewritten to comparisons with those that can be compared. -/
lemma exists_rewritten (negated : Bool)
    (hoperand : IsOperandOf (table.getChunk chunkId).size t left) (ht : t ≠ .null)
    (hleft : resolve computed table chunkId value = .ok left)
    (hstring : t = .string → none ∉ literals)
    (hc : literals.filter (isComparable t) = first :: rest) : ∃ r,
      evaluateRewrittenInExpression negated (resolveToExpressionResult value
        (evaluateExpressionToResult computed table chunkId value))
          (literalElement computed table chunkId first ::
            rest.map (literalElement computed table chunkId)) = .ok r ∧
      ∀ i < (table.getChunk chunkId).size,
        r.cell i = (sqlInList negated t literals (left.cell i)).map .ofBool := by
  have hsupports : ∀ w ∈ first :: rest,
      Comparison.supports t (dataTypeFromAllTypeVariant w) = true := by
    intro w hw
    exact supports_of_isComparable ht (List.mem_filter.mp (hc ▸ hw)).2
  rw [List.forall_mem_cons] at hsupports
  obtain ⟨compared, hcompare, hcompared⟩ := yields_compare negated ht hoperand first hsupports.1
  obtain ⟨r, hrun, hr⟩ := yields_foldl computed table chunkId negated ht hoperand
    hsupports.2 compared _ hcompared
  refine ⟨r, ?_, fun i hi => ?_⟩
  · have hresolve : resolveToExpressionResult (literalElement computed table chunkId first).1
        (literalElement computed table chunkId first).2 = .ok (literalResult first) :=
      resolve_literal computed table chunkId first
    rw [resolve] at hleft
    rw [evaluateRewrittenInExpression, hleft]
    dsimp only
    rw [hresolve, hcompare]
    exact hrun
  · rw [hr.cell i hi, foldl_kleeneOr_eq hc hstring]

end

/-- **IN and NOT IN with a list of literals follow SQL's three-valued logic, and a list in which
there is neither a NULL nor anything that can be compared is like an empty one**, unless a string is
searched in a list with a NULL. -/
theorem evaluateExpressionToResult_inList {R : Type} [FloatingPoint R]
    (computed : Expression R → DataType → Except Exception (ExpressionResult R)) (table : Table R)
    (chunkId : ℕ) (condition : PredicateCondition) (value set : Expression R) (t : DataType)
    (htype : value.getDataType = .ok t) (left : ExpressionResult R)
    (hleft : resolve computed table chunkId value = .ok left)
    (hoperand : IsOperandOf (table.getChunk chunkId).size t left)
    (literals : List (AllTypeVariant R)) (hset : setElements set = literals.map literal)
    (hne : literals ≠ []) (hstring : t = .string → none ∉ literals) :
    ∃ r, evaluateExpressionToResult computed table chunkId
        (.node (.inSet condition) [value, set]) .int = .ok r ∧
      ∀ i < (table.getChunk chunkId).size, r.cell i =
        (inListAt (condition = .notIn) t literals (left.cell i)).map Value.ofBool := by
  have helements : (setElements set).map (fun e =>
      (e, evaluateExpressionToResult computed table chunkId e)) =
        literals.map (literalElement computed table chunkId) := by
    rw [hset, List.map_map]
    rfl
  rw [evaluateExpressionToResult_inSet, helements]
  generalize decide (condition = .notIn) = negated
  by_cases ht : t = .null
  · -- a NULL is not searched
    subst ht
    have hnull : left.isNull = fun _ => true := by
      rw [resolve, resolveToExpressionResult, htype] at hleft
      obtain ⟨-, -, hrest⟩ := exists_of_bind_eq_ok hleft
      obtain rfl := Except.ok.inj hrest
      funext i
      simp [ExpressionResult.isNull]
    refine ⟨⟨.int, [.int 0], [true]⟩, ?_, fun i _ => ?_⟩
    · obtain ⟨first, rest, rfl⟩ := List.exists_cons_of_ne_nil hne
      rw [evaluateInExpression, htype]
      rfl
    · have hcell : left.cell i = none := by rw [ExpressionResult.cell, hnull, if_pos rfl]
      rw [hcell]
      simp [ExpressionResult.cell, ExpressionResult.isNull, inListAt, sqlInList]
  · have htypes : ∀ element ∈ literals.map (literalElement computed table chunkId),
        element.1.getDataType = .ok (typeOf element.1) := by
      simp only [List.mem_map]
      rintro _ ⟨w, -, rfl⟩
      rfl
    rw [evaluateInExpression_eq htype ht htypes, compatibleElements_literals htype]
    cases hc : literals.filter (isComparable t) with
    | nil =>
      refine ⟨⟨.int, [.ofBool negated], []⟩, rfl, fun i _ => ?_⟩
      have hnone : t ≠ .null ∧ ∀ w ∈ literals, w ≠ none ∧ isComparable t w = false := by
        refine ⟨ht, fun w hw => ?_⟩
        have hfalse : isComparable t w = false := by
          simpa using List.filter_eq_nil_iff.mp hc w hw
        refine ⟨?_, hfalse⟩
        rintro rfl
        refine hstring ?_ hw
        simpa [isComparable, dataTypeFromAllTypeVariant] using hfalse
      rw [ExpressionResult.cell, cell_scalar, inListAt, if_pos hnone]
      rfl
    | cons first rest =>
      have hfirst : first ∈ literals ∧ isComparable t first = true :=
        List.mem_filter.mp (hc ▸ List.mem_cons_self)
      have hinList : ∀ v, inListAt negated t literals v = sqlInList negated t literals v := by
        intro v
        rw [inListAt, if_neg]
        rintro ⟨-, hall⟩
        exact Bool.false_ne_true ((hall first hfirst.1).2.symm.trans hfirst.2)
      simp only [hinList]
      rw [List.map_cons, List.isEmpty_cons, if_neg Bool.false_ne_true]
      split
      · -- the list is searched
        next hall =>
        refine exists_searched negated hoperand ht hleft ?_ hc
        refine searched_literals fun w hw => ?_
        exact List.all_eq_true.mp hall _ (List.mem_map_of_mem hw)
      · -- the list is rewritten
        exact exists_rewritten negated hoperand ht hleft hstring hc

/-- An integer column that is searched for literals. -/
def columnIn (literals : List (AllTypeVariant ℚ)) : Expression ℚ :=
  .node (.inSet .in)
    [.node (.pqpColumn 0 .int true (Bytes.ofString "a")) [], .node .list (literals.map literal)]

/-- The first row is found in a list with a string and a NULL, and the second one is NULL. -/
theorem evaluateExpressionToResult_inList_mixed :
    ∃ r, evaluateExpressionToResult (fun _ _ => .error .undefinedBehavior)
        (nullableColumn (some [false, true])) 0
        (columnIn [some (.string [120]), some (.int 1), none]) .int = .ok r ∧
      ∀ i < 2, r.cell i = (inListAt false .int [some (.string [120]), some (.int 1), none]
        ((⟨.int, [.int 1, .int 2], [false, true]⟩ : ExpressionResult ℚ).cell i)).map
          Value.ofBool :=
  evaluateExpressionToResult_inList (fun _ _ => .error .undefinedBehavior)
    (nullableColumn (some [false, true])) 0 .in
    (.node (.pqpColumn 0 .int true (Bytes.ofString "a")) [])
    (.node .list
      (([some (.string [120]), some (.int 1), none] : List (AllTypeVariant ℚ)).map literal))
    .int rfl ⟨.int, [.int 1, .int 2], [false, true]⟩ rfl
    ⟨rfl, ⟨.inr rfl, .inr (.inr rfl)⟩, fun _ => by decide⟩ _ rfl (by decide)
    fun h => by cases h

/-- **If no literal can be compared, a row is false although its value is NULL.** -/
theorem not_sqlInList_incomparable :
    resolve (fun _ _ => .error .undefinedBehavior) (nullableColumn (some [true, false])) 0
        (.node (.pqpColumn 0 .int true (Bytes.ofString "a")) []) =
          .ok ⟨.int, [.int 1, .int 2], [true, false]⟩ ∧
      evaluateExpressionToResult (fun _ _ => .error .undefinedBehavior)
        (nullableColumn (some [true, false])) 0 (columnIn [some (.string [120])]) .int =
          .ok ⟨.int, [.int 0], []⟩ ∧
      (⟨.int, [.int 0], []⟩ : ExpressionResult ℚ).cell 0 = some (.int 0) ∧
      sqlInList false .int [some (.string [120])]
        ((⟨.int, [.int 1, .int 2], [true, false]⟩ : ExpressionResult ℚ).cell 0) = none := by
  refine ⟨?_, ?_, ?_, ?_⟩ <;> decide +kernel

-- A NULL is dropped from the list that a string is searched in.
example : evaluateExpressionToResult (fun _ _ => .error .undefinedBehavior) oneTwo 0
    (.node (.inSet .in)
      [literal (some (.string [98])), .node .list ([some (.string [97]), none].map literal)]) .int =
        .ok ⟨.int, [.int 0], []⟩ := by
  decide +kernel

end Skyrise

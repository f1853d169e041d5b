/-
Evaluation at one row.

Two evaluations of an expression, on chunks of different tables and sizes, are compared
at one row of each.  If both chunks have the same cells in these rows, and both
evaluations return, then the results have the same cell there.  The values that are
stored where a flag says NULL may differ, and so may the shapes of the results.
-/
import Skyrise.Expression.Evaluation.ComputedExpressions
import Skyrise.Expression.Evaluation.InLists
import Skyrise.Expression.Evaluation.ResultCache

namespace Skyrise

variable {R : Type}

section

variable [FloatingPoint R] {r left right : ExpressionResult R} {n i j : ℕ}

/-! ### The rows of one result -/

/-- A result for a number of rows: one value or one for each row, and no flag, one or one for each
row, where a single value has at most one flag. -/
structure Rowed (n : ℕ) (r : ExpressionResult R) : Prop where
  size : r.size = 1 ∨ r.size = n
  nulls : r.nulls.length = 0 ∨ r.nulls.length = 1 ∨ r.nulls.length = n
  scalar : r.size = 1 → r.nulls.length ≤ 1

/-- The index from which a row is read if there are so many values. -/
def readIndex (size i : ℕ) : ℕ := min i (size - 1)

lemma readIndex_lt {m : ℕ} (hm : m = 1 ∨ m = n) (hi : i < n) : readIndex m i < m := by
  rw [readIndex]
  omega

lemma readIndex_eq {m : ℕ} (hm : m = 1 ∨ m = n) (hi : i < n) : readIndex m i = i ∨ m = 1 := by
  rw [readIndex]
  omega

/-- What is read from a view for a row: whether it is NULL, and otherwise its value. -/
lemma Rowed.reads (h : Rowed n r) (hi : i < n) (hj : j = i ∨ r.asView.size = 1) {v : Value R}
    {null : Bool} (hv : r.asView.value j = .ok v) (hnull : r.asView.isNull j = .ok null) :
    null = r.isNull i ∧ (null = false → v = r.value i) := by
  rw [ExpressionResult.asView] at hv hnull hj
  split at hv
  · next hone =>
    rw [if_pos hone] at hnull
    obtain ⟨u, hu⟩ := List.length_eq_one_iff.mp hone
    have hle := h.scalar hone
    obtain rfl := Except.ok.inj hv
    obtain rfl := Except.ok.inj hnull
    refine ⟨?_, fun _ => ?_⟩
    · rw [ExpressionResult.isNull, ExpressionResult.isNullable]
      cases hnulls : r.nulls with
      | nil => rfl
      | cons flag flags =>
        rw [hnulls, List.length_cons] at hle
        rw [show min i ((flag :: flags).length - 1) = 0 by rw [List.length_cons]; omega]
        rfl
    · rw [ExpressionResult.value, hone, Nat.sub_self, Nat.min_zero, hu]
      rfl
  · next hmany =>
    rw [if_neg hmany] at hnull hj
    have hn : r.values.length = n := h.size.resolve_left hmany
    have hsize : r.size = r.values.length := rfl
    split at hv
    · next htrue =>
      rw [if_pos htrue] at hnull
      obtain rfl := Except.ok.inj hnull
      obtain ⟨flag, hflag⟩ := List.length_eq_one_iff.mp (show r.nulls.length = 1 by simp_all)
      have hset : r.isNull i = true := by simp_all [ExpressionResult.isNull]
      exact ⟨hset.symm, fun h => by cases h⟩
    · next hfalse =>
      rw [if_neg hfalse] at hnull hj
      have hvalue : r.values[i]? = some (r.value i) := by
        rw [ExpressionResult.value, List.getD_eq_getElem?_getD,
          Nat.min_eq_left (show i ≤ r.size - 1 by omega),
          List.getElem?_eq_getElem (show i < r.values.length by omega)]
        rfl
      split at hv
      · next hempty =>
        rw [if_pos hempty] at hnull hj
        obtain rfl : j = i := hj.resolve_right (by rw [ExpressionResultView.size]; omega)
        obtain rfl := Except.ok.inj hnull
        rw [ExpressionResultView.value, hvalue] at hv
        have hnil : r.nulls = [] := by simpa [ExpressionResult.isNullable] using hempty
        refine ⟨?_, fun _ => (Except.ok.inj hv).symm⟩
        rw [ExpressionResult.isNull, hnil]
        rfl
      · next hempty =>
        rw [if_neg hempty] at hnull hj
        obtain rfl : j = i := hj.resolve_right (by rw [ExpressionResultView.size]; omega)
        rw [ExpressionResultView.value, hvalue] at hv
        have hne : r.nulls ≠ [] := by simpa [ExpressionResult.isNullable] using hempty
        refine ⟨?_, fun _ => (Except.ok.inj hv).symm⟩
        rw [ExpressionResultView.isNull] at hnull
        split at hnull
        · next flag hflag =>
          obtain rfl := Except.ok.inj hnull
          obtain ⟨hlt, -⟩ := List.getElem?_eq_some_iff.mp hflag
          rw [ExpressionResult.isNull, if_neg (by simpa using hne), List.getD_eq_getElem?_getD,
            Nat.min_eq_left (show j ≤ r.nulls.length - 1 by omega), hflag]
          rfl
        · cases hnull

lemma Rowed.size_asView (h : Rowed n r) : r.asView.size = 1 ∨ r.asView.size = n := by
  rw [ExpressionResult.asView]
  split
  · exact .inl rfl
  · next hmany =>
    have hn : r.values.length = n := h.size.resolve_left hmany
    split
    · exact .inl rfl
    · split
      · exact .inr hn
      · exact .inr hn

omit [FloatingPoint R] in
lemma isNull_nil {values : List (Value R)} {t : DataType} :
    (⟨t, values, []⟩ : ExpressionResult R).isNull i = false := rfl

omit [FloatingPoint R] in
lemma isNull_singleton {values : List (Value R)} {t : DataType} {flag : Bool} :
    (⟨t, values, [flag]⟩ : ExpressionResult R).isNull i = flag := by
  rw [ExpressionResult.isNull, List.length_singleton, Nat.sub_self, Nat.min_zero]
  rfl

omit [FloatingPoint R] in
lemma isNull_zipWith {lvalues rvalues values : List (Value R)} {lt rt t : DataType}
    {l r : List Bool} (h : l.length = r.length) (hi : i < l.length ∨ l.length ≤ 1) :
    (⟨t, values, List.zipWith (· || ·) l r⟩ : ExpressionResult R).isNull i =
      ((⟨lt, lvalues, l⟩ : ExpressionResult R).isNull i ||
        (⟨rt, rvalues, r⟩ : ExpressionResult R).isNull i) := by
  match l, r with
  | [], [] => rfl
  | [a], [b] => rw [List.zipWith_cons_cons, List.zipWith_nil_left, isNull_singleton,
      isNull_singleton, isNull_singleton]
  | a :: b :: l, c :: d :: r =>
    have hlt := hi.resolve_right (by simp)
    have hlt' : i < (c :: d :: r).length := h ▸ hlt
    simp only [ExpressionResult.isNull, List.length_zipWith, ← h, Nat.min_self]
    rw [Nat.min_eq_left (Nat.le_sub_one_of_lt hlt), List.getD_eq_getElem?_getD,
      List.getElem?_zipWith, List.getElem?_eq_getElem hlt, List.getElem?_eq_getElem hlt']
    simp [List.getElem?_eq_getElem hlt, List.getElem?_eq_getElem hlt']

omit [FloatingPoint R] in
/-- With the default logic a row is NULL if one of the operands is. -/
lemma isNull_evaluateDefaultNullLogic {values : List (Value R)} {t : DataType}
    (hl : left.nulls.length = 0 ∨ left.nulls.length = 1 ∨ left.nulls.length = n)
    (hr : right.nulls.length = 0 ∨ right.nulls.length = 1 ∨ right.nulls.length = n) (hi : i < n) :
    (⟨t, values, evaluateDefaultNullLogic left.nulls right.nulls⟩ : ExpressionResult R).isNull i =
      (left.isNull i || right.isNull i) := by
  obtain ⟨leftType, leftValues, l⟩ := left
  obtain ⟨rightType, rightValues, r⟩ := right
  simp only at hl hr ⊢
  rw [evaluateDefaultNullLogic]
  split_ifs with hlength hlt hhead hhead
  · exact isNull_zipWith hlength (by omega)
  · rcases r with - | ⟨flag, - | ⟨flag', r⟩⟩
    · cases hhead
    · obtain rfl : flag = true := hhead
      rw [isNull_singleton, isNull_singleton, Bool.or_true]
    · simp at hr hlt
      omega
  · rcases r with - | ⟨flag, - | ⟨flag', r⟩⟩
    · rw [isNull_nil, Bool.or_false]
      rfl
    · obtain rfl : flag = false := by simpa using hhead
      rw [isNull_singleton, Bool.or_false]
      rfl
    · simp at hr hlt
      omega
  · rcases l with - | ⟨flag, - | ⟨flag', l⟩⟩
    · cases hhead
    · obtain rfl : flag = true := hhead
      rw [isNull_singleton, isNull_singleton, Bool.true_or]
    · simp at hl hlt hlength
      omega
  · rcases l with - | ⟨flag, - | ⟨flag', l⟩⟩
    · rw [isNull_nil, Bool.false_or]
      rfl
    · obtain rfl : flag = false := by simpa using hhead
      rw [isNull_singleton, Bool.false_or]
      rfl
    · simp at hl hlt hlength
      omega

lemma length_evaluateDefaultNullLogic {l r : List Bool}
    (hl : l.length = 0 ∨ l.length = 1 ∨ l.length = n)
    (hr : r.length = 0 ∨ r.length = 1 ∨ r.length = n) :
    ((evaluateDefaultNullLogic l r).length = 0 ∨ (evaluateDefaultNullLogic l r).length = 1 ∨
      (evaluateDefaultNullLogic l r).length = n) ∧
      (l.length ≤ 1 → r.length ≤ 1 → (evaluateDefaultNullLogic l r).length ≤ 1) := by
  rw [evaluateDefaultNullLogic]
  split_ifs
  · rw [List.length_zipWith]
    omega
  · rw [List.length_singleton]
    omega
  · omega
  · rw [List.length_singleton]
    omega
  · omega

omit [FloatingPoint R] in
/-- Whatever is computed for each of so many rows is read for a row from its index. -/
lemma getD_of_mapM_range {β : Type} {m : ℕ} {f : ℕ → Except Exception β} {ys : List β}
    (h : (List.range m).mapM f = .ok ys) (d : β) :
    ys.length = m ∧ ∀ k < m, f k = .ok (ys.getD k d) := by
  rw [mapM_eq_ok_iff] at h
  have hlength : ys.length = m := by rw [← h.length_eq, List.length_range]
  refine ⟨hlength, fun k hk => ?_⟩
  have hget := h.get (i := k) (by simpa using hk) (by omega)
  rw [List.get_eq_getElem, List.get_eq_getElem, List.getElem_range] at hget
  rw [hget, List.getD_eq_getElem?_getD, List.getElem?_eq_getElem (by omega)]
  rfl

/-- A result with a value and a flag for each of so many rows. -/
lemma rowed_cells {β : Type} {t : DataType} {cells : List β} (g : β → Value R) (h : β → Bool)
    (hm : cells.length = 1 ∨ cells.length = n) (hi : i < n) (d : β) :
    Rowed n (⟨t, cells.map g, cells.map h⟩ : ExpressionResult R) ∧
      (⟨t, cells.map g, cells.map h⟩ : ExpressionResult R).value i =
        g (cells.getD (readIndex cells.length i) d) ∧
      (⟨t, cells.map g, cells.map h⟩ : ExpressionResult R).isNull i =
        h (cells.getD (readIndex cells.length i) d) := by
  have hlt := readIndex_lt hm hi
  have hne : cells.map h ≠ [] := by
    rw [ne_eq, List.map_eq_nil_iff]
    rintro rfl
    exact absurd hlt (Nat.not_lt_zero _)
  refine ⟨⟨?_, ?_, fun hone => ?_⟩, ?_, ?_⟩
  · rwa [ExpressionResult.size, List.length_map]
  · rw [List.length_map]
    exact .inr hm
  · rw [ExpressionResult.size, List.length_map] at hone
    rw [List.length_map]
    exact hone.le
  · rw [ExpressionResult.value, ExpressionResult.size, List.length_map,
      List.getD_eq_getElem?_getD, List.getD_eq_getElem?_getD, List.getElem?_map]
    show ((cells[readIndex cells.length i]?).map g).getD _ = _
    rw [List.getElem?_eq_getElem hlt]
    rfl
  · rw [ExpressionResult.isNull, if_neg (by simpa using hne), List.length_map,
      List.getD_eq_getElem?_getD, List.getD_eq_getElem?_getD, List.getElem?_map]
    show ((cells[readIndex cells.length i]?).map h).getD _ = _
    rw [List.getElem?_eq_getElem hlt]
    rfl

/-- Reading at the index of a row is reading the row, if no series is cut. -/
lemma Rowed.read_readIndex (h : Rowed n r) {m : ℕ} (hm : m = 1 ∨ m = n) (hone : m = 1 → r.size = 1)
    (hi : i < n) : r.value (readIndex m i) = r.value i ∧ r.isNull (readIndex m i) = r.isNull i := by
  rcases readIndex_eq hm hi with heq | heq
  · rw [heq]
    exact ⟨rfl, rfl⟩
  · have hsize := hone heq
    have hle := h.scalar hsize
    refine ⟨?_, ?_⟩
    · rw [ExpressionResult.value, ExpressionResult.value, hsize, Nat.sub_self, Nat.min_zero,
        Nat.min_zero]
    · rw [ExpressionResult.isNull, ExpressionResult.isNull, show r.nulls.length - 1 = 0 by omega,
        Nat.min_zero, Nat.min_zero]

lemma Rowed.value_eq_getD (h : Rowed n r) {m k : ℕ} (hm : m = 1 ∨ m = n) (hone : m = 1 → r.size = 1)
    (hi : i < n) (hk : k = readIndex m i ∧ (r.size = 1 → m = 1) ∨ k = 0 ∧ r.size = 1) :
    r.values.getD k r.dataType.defaultValue = r.value i := by
  rw [ExpressionResult.value]
  congr 1
  have hsize := h.size
  rcases hk with ⟨rfl, hk⟩ | ⟨rfl, hk⟩
  · rw [readIndex]
    omega
  · omega

/-! ### What is computed from two results -/

omit [FloatingPoint R] in
lemma eq_one_of_resultSize {a b : ℕ} (h : resultSize a b = 1) : a = 1 ∧ b = 1 := by
  rw [resultSize] at h
  split at h <;> omega

/-- Values are computed for all rows also where a flag says NULL. -/
lemma default_spec {f : Value R → Value R → Except Exception (Value R)} {t : DataType}
    (hl : Rowed n left) (hr : Rowed n right) (hi : i < n) {values : List (Value R)}
    (h : (List.range (resultSize left.size right.size)).mapM (fun k =>
      f (left.values.getD (if left.isLiteral && !right.isLiteral then 0 else k)
          left.dataType.defaultValue)
        (right.values.getD (if right.isLiteral && !left.isLiteral then 0 else k)
          right.dataType.defaultValue)) = .ok values) :
    Rowed n ⟨t, values, evaluateDefaultNullLogic left.nulls right.nulls⟩ ∧
      f (left.value i) (right.value i) = .ok
        ((⟨t, values, evaluateDefaultNullLogic left.nulls right.nulls⟩ :
          ExpressionResult R).value i) ∧
      (⟨t, values, evaluateDefaultNullLogic left.nulls right.nulls⟩ :
          ExpressionResult R).isNull i = (left.isNull i || right.isNull i) := by
  obtain ⟨hlength, hf⟩ := getD_of_mapM_range h t.defaultValue
  have hm := resultSize_eq_or hl.size hr.size
  have hone : resultSize left.size right.size = 1 → left.size = 1 ∧ right.size = 1 :=
    eq_one_of_resultSize
  obtain ⟨hnulls, hscalar⟩ := length_evaluateDefaultNullLogic hl.nulls hr.nulls
  refine ⟨⟨?_, hnulls, fun h => ?_⟩, ?_, isNull_evaluateDefaultNullLogic hl.nulls hr.nulls hi⟩
  · rw [ExpressionResult.size, hlength]
    exact hm
  · rw [ExpressionResult.size, hlength] at h
    exact hscalar (hl.scalar (hone h).1) (hr.scalar (hone h).2)
  · have hat := hf _ (readIndex_lt hm hi)
    rw [hl.value_eq_getD hm (fun h => (hone h).1) hi,
      hr.value_eq_getD hm (fun h => (hone h).2) hi] at hat
    · rw [hat, ← hlength]
      rfl
    · by_cases hright : right.size = 1 <;> by_cases hleft : left.size = 1 <;>
        simp [ExpressionResult.isLiteral, hright, hleft, resultSize]
    · by_cases hright : right.size = 1 <;> by_cases hleft : left.size = 1 <;>
        simp [ExpressionResult.isLiteral, hright, hleft, resultSize]

omit [FloatingPoint R] in
lemma exists_value {view : ExpressionResultView R} {k : ℕ} (hk : k < view.size) :
    ∃ v, view.value k = .ok v := by
  cases view with
  | literal v null => exact ⟨v, rfl⟩
  | nonNullSeries values | nullableSeries values nulls =>
    rw [ExpressionResultView.value, List.getElem?_eq_getElem hk]
    exact ⟨_, rfl⟩

/-- Whatever is computed from the views of two results is computed for a row from its flags, and
from its values where it is not NULL. -/
lemma views_spec {β : Type} {f : Value R → Bool → Value R → Bool → Except Exception β}
    (hl : Rowed n left) (hr : Rowed n right) (hi : i < n) {cells : List β}
    (h : (List.range (resultSize left.asView.size right.asView.size)).mapM (fun k => do
      let leftValue ← left.asView.value k
      let leftNull ← left.asView.isNull k
      let rightValue ← right.asView.value k
      let rightNull ← right.asView.isNull k
      f leftValue leftNull rightValue rightNull) = .ok cells) (d : β) :
    (cells.length = 1 ∨ cells.length = n) ∧ ∃ v w, (left.isNull i = false → v = left.value i) ∧
      (right.isNull i = false → w = right.value i) ∧
      f v (left.isNull i) w (right.isNull i) = .ok (cells.getD (readIndex cells.length i) d) := by
  obtain ⟨hlength, hf⟩ := getD_of_mapM_range h d
  have hm := resultSize_eq_or hl.size_asView hr.size_asView
  have hone : resultSize left.asView.size right.asView.size = 1 →
      left.asView.size = 1 ∧ right.asView.size = 1 := eq_one_of_resultSize
  rw [hlength]
  refine ⟨hm, ?_⟩
  have hat := hf _ (readIndex_lt hm hi)
  obtain ⟨v, hv, hat⟩ := exists_of_bind_eq_ok hat
  obtain ⟨a, ha, hat⟩ := exists_of_bind_eq_ok hat
  obtain ⟨w, hw, hat⟩ := exists_of_bind_eq_ok hat
  obtain ⟨b, hb, hat⟩ := exists_of_bind_eq_ok hat
  obtain ⟨rfl, hv'⟩ :=
    hl.reads hi ((readIndex_eq hm hi).imp_right fun h => (hone h).1) hv ha
  obtain ⟨rfl, hw'⟩ :=
    hr.reads hi ((readIndex_eq hm hi).imp_right fun h => (hone h).2) hw hb
  exact ⟨v, w, hv', hw', hat⟩

end

/-! ### Two evaluations -/

section

variable [FloatingPoint R] {n₁ i₁ n₂ i₂ : ℕ}

/-- Two results for different numbers of rows are of one type and have the same cell in a row of
each. -/
structure SameAt (n₁ i₁ n₂ i₂ : ℕ) (r₁ r₂ : ExpressionResult R) : Prop where
  left : Rowed n₁ r₁
  right : Rowed n₂ r₂
  dataType : r₁.dataType = r₂.dataType
  cell : r₁.cell i₁ = r₂.cell i₂

/-- If two requests both return, then results that have the same cell. -/
def Agree (n₁ i₁ n₂ i₂ : ℕ) (request₁ request₂ : Except Exception (ExpressionResult R)) : Prop :=
  ∀ r₁ r₂, request₁ = .ok r₁ → request₂ = .ok r₂ → SameAt n₁ i₁ n₂ i₂ r₁ r₂

/-- A functor of two values that does not depend on the value of what is NULL. -/
def Insensitive {β : Type} (value : β → Value R) (null : β → Bool)
    (f : Value R → Bool → Value R → Bool → Except Exception β) : Prop :=
  ∀ v v' a w w' b x x', (a = false → v = v') → (b = false → w = w') → f v a w b = .ok x →
    f v' a w' b = .ok x' → null x = null x' ∧ (null x = false → value x = value x')

variable {r₁ r₂ l₁ l₂ : ExpressionResult R}

lemma cell_eq_iff {i j : ℕ} : r₁.cell i = r₂.cell j ↔
    r₁.isNull i = r₂.isNull j ∧ (r₁.isNull i = false → r₁.value i = r₂.value j) := by
  rw [ExpressionResult.cell, ExpressionResult.cell]
  cases r₁.isNull i <;> cases r₂.isNull j <;> simp

lemma Agree.of_error {request₁ request₂ : Except Exception (ExpressionResult R)} {e : Exception}
    (h : request₁ = .error e) : Agree n₁ i₁ n₂ i₂ request₁ request₂ :=
  fun _ _ h₁ => by rw [h] at h₁; cases h₁

lemma Agree.pure (h : SameAt n₁ i₁ n₂ i₂ r₁ r₂) : Agree n₁ i₁ n₂ i₂ (.ok r₁) (.ok r₂) :=
  fun _ _ h₁ h₂ => Except.ok.inj h₁ ▸ Except.ok.inj h₂ ▸ h

/-- A result that does not depend on the chunk. -/
lemma sameAt_scalar {r : ExpressionResult R} (hsize : r.size = 1) (hnulls : r.nulls.length ≤ 1) :
    SameAt n₁ i₁ n₂ i₂ r r := by
  have hrowed : ∀ n, Rowed n r := fun n => ⟨.inl hsize, by omega, fun _ => hnulls⟩
  refine ⟨hrowed n₁, hrowed n₂, rfl, cell_eq_iff.mpr ⟨?_, fun _ => ?_⟩⟩
  · rw [ExpressionResult.isNull, ExpressionResult.isNull, show r.nulls.length - 1 = 0 by omega,
      Nat.min_zero, Nat.min_zero]
  · rw [ExpressionResult.value, ExpressionResult.value, hsize, Nat.sub_self, Nat.min_zero,
      Nat.min_zero]

variable (hi₁ : i₁ < n₁) (hi₂ : i₂ < n₂)

include hi₁ hi₂ in
/-- With the default logic the values are those of a function of the operands. -/
lemma sameAt_default {f : Value R → Value R → Except Exception (Value R)} {t : DataType}
    (hl : SameAt n₁ i₁ n₂ i₂ l₁ l₂) (hr : SameAt n₁ i₁ n₂ i₂ r₁ r₂)
    {values₁ values₂ : List (Value R)}
    (h₁ : (List.range (resultSize l₁.size r₁.size)).mapM (fun k =>
      f (l₁.values.getD (if l₁.isLiteral && !r₁.isLiteral then 0 else k) l₁.dataType.defaultValue)
        (r₁.values.getD (if r₁.isLiteral && !l₁.isLiteral then 0 else k)
          r₁.dataType.defaultValue)) = .ok values₁)
    (h₂ : (List.range (resultSize l₂.size r₂.size)).mapM (fun k =>
      f (l₂.values.getD (if l₂.isLiteral && !r₂.isLiteral then 0 else k) l₂.dataType.defaultValue)
        (r₂.values.getD (if r₂.isLiteral && !l₂.isLiteral then 0 else k)
          r₂.dataType.defaultValue)) = .ok values₂) :
    SameAt n₁ i₁ n₂ i₂ ⟨t, values₁, evaluateDefaultNullLogic l₁.nulls r₁.nulls⟩
      ⟨t, values₂, evaluateDefaultNullLogic l₂.nulls r₂.nulls⟩ := by
  obtain ⟨hrowed₁, hvalue₁, hnull₁⟩ := default_spec (t := t) hl.left hr.left hi₁ h₁
  obtain ⟨hrowed₂, hvalue₂, hnull₂⟩ := default_spec (t := t) hl.right hr.right hi₂ h₂
  obtain ⟨hlnull, hlvalue⟩ := cell_eq_iff.mp hl.cell
  obtain ⟨hrnull, hrvalue⟩ := cell_eq_iff.mp hr.cell
  refine ⟨hrowed₁, hrowed₂, rfl, cell_eq_iff.mpr ⟨?_, fun hfalse => ?_⟩⟩
  · rw [hnull₁, hnull₂, hlnull, hrnull]
  · rw [hnull₁, Bool.or_eq_false_iff] at hfalse
    rw [hlvalue hfalse.1, hrvalue hfalse.2, hvalue₂] at hvalue₁
    exact (Except.ok.inj hvalue₁).symm

include hi₁ hi₂ in
/-- A functor reads the views of the operands. -/
lemma sameAt_views {β : Type} [Inhabited β] {value : β → Value R} {null : β → Bool}
    {f : Value R → Bool → Value R → Bool → Except Exception β} (hf : Insensitive value null f)
    {t : DataType} (hl : SameAt n₁ i₁ n₂ i₂ l₁ l₂) (hr : SameAt n₁ i₁ n₂ i₂ r₁ r₂)
    {cells₁ cells₂ : List β}
    (h₁ : (List.range (resultSize l₁.asView.size r₁.asView.size)).mapM (fun k => do
      let leftValue ← l₁.asView.value k
      let leftNull ← l₁.asView.isNull k
      let rightValue ← r₁.asView.value k
      let rightNull ← r₁.asView.isNull k
      f leftValue leftNull rightValue rightNull) = .ok cells₁)
    (h₂ : (List.range (resultSize l₂.asView.size r₂.asView.size)).mapM (fun k => do
      let leftValue ← l₂.asView.value k
      let leftNull ← l₂.asView.isNull k
      let rightValue ← r₂.asView.value k
      let rightNull ← r₂.asView.isNull k
      f leftValue leftNull rightValue rightNull) = .ok cells₂) :
    SameAt n₁ i₁ n₂ i₂ ⟨t, cells₁.map value, cells₁.map null⟩
      ⟨t, cells₂.map value, cells₂.map null⟩ := by
  obtain ⟨hm₁, v₁, w₁, hv₁, hw₁, hat₁⟩ := views_spec hl.left hr.left hi₁ h₁ default
  obtain ⟨hm₂, v₂, w₂, hv₂, hw₂, hat₂⟩ := views_spec hl.right hr.right hi₂ h₂ default
  obtain ⟨hrowed₁, hvalue₁, hnull₁⟩ := rowed_cells (t := t) value null hm₁ hi₁ default
  obtain ⟨hrowed₂, hvalue₂, hnull₂⟩ := rowed_cells (t := t) value null hm₂ hi₂ default
  obtain ⟨hlnull, hlvalue⟩ := cell_eq_iff.mp hl.cell
  obtain ⟨hrnull, hrvalue⟩ := cell_eq_iff.mp hr.cell
  rw [← hlnull, ← hrnull] at hat₂
  rw [← hlnull] at hv₂
  rw [← hrnull] at hw₂
  have hsame := hf _ _ _ _ _ _ _ _ (fun h => ((hv₁ h).trans (hlvalue h)).trans (hv₂ h).symm)
    (fun h => ((hw₁ h).trans (hrvalue h)).trans (hw₂ h).symm) hat₁ hat₂
  refine ⟨hrowed₁, hrowed₂, rfl, cell_eq_iff.mpr ?_⟩
  rw [hnull₁, hnull₂, hvalue₁, hvalue₂]
  exact hsame

/-! ### Predicates -/

include hi₁ hi₂ in
lemma agree_compare (c : Comparison) (hl : SameAt n₁ i₁ n₂ i₂ l₁ l₂)
    (hr : SameAt n₁ i₁ n₂ i₂ r₁ r₂) :
    Agree n₁ i₁ n₂ i₂ (evaluateBinaryWithDefaultNullLogic c (.ok l₁) (.ok r₁))
      (evaluateBinaryWithDefaultNullLogic c (.ok l₂) (.ok r₂)) := by
  intro x₁ x₂ h₁ h₂
  dsimp only [evaluateBinaryWithDefaultNullLogic, bind, Except.bind] at h₁ h₂
  split at h₁
  · split at h₂
    · cases h₁
      cases h₂
      rw [hl.dataType, hr.dataType]
      exact sameAt_default hi₁ hi₂ (f := fun a b =>
        .ok (.ofBool (c.evaluate l₂.dataType r₂.dataType a b))) hl hr
        (mapM_eq_ok fun _ _ => by rw [hl.dataType, hr.dataType]) (mapM_eq_ok fun _ _ => rfl)
    · cases h₂
  · cases h₁

omit [FloatingPoint R] in
/-- A conjunction or disjunction does not depend on what is stored where an operand is NULL. -/
lemma insensitive_ternary [FloatingPoint R] (logicalOperator : LogicalOperator) :
    Insensitive (fun cell : Bool × Bool => .ofBool cell.1) Prod.snd
      fun (v : Value R) a (w : Value R) b =>
        .ok (ternary logicalOperator v.toBool a w.toBool b) := by
  intro v v' a w w' b x x' hv hw hx hx'
  obtain rfl := Except.ok.inj hx
  obtain rfl := Except.ok.inj hx'
  cases a with
  | false =>
    obtain rfl := hv rfl
    cases b with
    | false =>
      obtain rfl := hw rfl
      exact ⟨rfl, fun _ => rfl⟩
    | true =>
      cases logicalOperator <;> cases v.toBool <;> cases w.toBool <;> cases w'.toBool <;>
        exact ⟨rfl, fun _ => rfl⟩
  | true =>
    cases b with
    | false =>
      obtain rfl := hw rfl
      cases logicalOperator <;> cases v.toBool <;> cases v'.toBool <;> cases w.toBool <;>
        exact ⟨rfl, fun _ => rfl⟩
    | true =>
      refine ⟨?_, fun h => ?_⟩
      · cases logicalOperator <;> simp [ternary]
      · cases logicalOperator <;> simp [ternary] at h

include hi₁ hi₂ in
lemma agree_logical (logicalOperator : LogicalOperator) (hl : SameAt n₁ i₁ n₂ i₂ l₁ l₂)
    (hr : SameAt n₁ i₁ n₂ i₂ r₁ r₂) :
    Agree n₁ i₁ n₂ i₂ (evaluateLogicalExpression logicalOperator (.ok l₁) (.ok r₁))
      (evaluateLogicalExpression logicalOperator (.ok l₂) (.ok r₂)) := by
  intro x₁ x₂ h₁ h₂
  rw [evaluateLogicalExpression] at h₁ h₂
  change (if _ then _ else _) = _ at h₁ h₂
  split at h₁
  · split at h₂
    · obtain ⟨cells₁, hcells₁, h₁⟩ := exists_of_bind_eq_ok h₁
      obtain ⟨cells₂, hcells₂, h₂⟩ := exists_of_bind_eq_ok h₂
      cases h₁
      cases h₂
      exact sameAt_views hi₁ hi₂ (insensitive_ternary logicalOperator) hl hr hcells₁ hcells₂
    · cases h₂
  · cases h₁

/-- The flag that is read from a view, for a row. -/
lemma Rowed.isNull_asView {r : ExpressionResult R} {n i : ℕ} (h : Rowed n r) (hi : i < n)
    {null : Bool} (hnull : r.asView.isNull (readIndex r.asView.size i) = .ok null) :
    null = r.isNull i := by
  obtain ⟨v, hv⟩ := exists_value (readIndex_lt h.size_asView hi)
  exact (h.reads hi (readIndex_eq h.size_asView hi) hv hnull).1

include hi₁ hi₂ in
lemma agree_isNull (condition : PredicateCondition) (hsame : SameAt n₁ i₁ n₂ i₂ r₁ r₂) :
    Agree n₁ i₁ n₂ i₂ (evaluateIsNullExpression condition (.ok r₁))
      (evaluateIsNullExpression condition (.ok r₂)) := by
  have hspec : ∀ {n i : ℕ} {r : ExpressionResult R} {nulls : List Bool}, Rowed n r → i < n →
      (List.range r.asView.size).mapM r.asView.isNull = .ok nulls →
      Rowed n (⟨.int, nulls.map fun null =>
        .ofBool (if condition = .isNull then null else !null), []⟩ : ExpressionResult R) ∧
      (⟨.int, nulls.map fun null =>
        .ofBool (if condition = .isNull then null else !null), []⟩ : ExpressionResult R).value i =
        .ofBool (if condition = .isNull then r.isNull i else !r.isNull i) := by
    intro n i r nulls hr hi hnulls
    obtain ⟨hlength, hget⟩ := getD_of_mapM_range hnulls false
    have hm : nulls.length = 1 ∨ nulls.length = n := hlength ▸ hr.size_asView
    obtain ⟨hrowed, hvalue, -⟩ := rowed_cells (t := .int)
      (fun null => .ofBool (if condition = .isNull then null else !null) : Bool → Value R)
      (fun _ => false) hm hi false
    refine ⟨⟨hrowed.size, .inl rfl, fun _ => Nat.zero_le 1⟩, hvalue.trans ?_⟩
    rw [hlength, hr.isNull_asView hi (hget _ (readIndex_lt hr.size_asView hi))]
  intro x₁ x₂ h₁ h₂
  obtain ⟨nulls₁, hnulls₁, h₁⟩ := exists_of_bind_eq_ok h₁
  obtain ⟨nulls₂, hnulls₂, h₂⟩ := exists_of_bind_eq_ok h₂
  obtain ⟨hrowed₁, hvalue₁⟩ := hspec hsame.left hi₁ hnulls₁
  obtain ⟨hrowed₂, hvalue₂⟩ := hspec hsame.right hi₂ hnulls₂
  cases h₁
  cases h₂
  refine ⟨hrowed₁, hrowed₂, rfl, cell_eq_iff.mpr ⟨rfl, fun _ => ?_⟩⟩
  rw [hvalue₁, hvalue₂, (cell_eq_iff.mp hsame.cell).1]

/-! ### Lists -/

/-- A value is searched in a list at every row that is not NULL. -/
lemma Rowed.search {r : ExpressionResult R} {n i : ℕ} (h : Rowed n r) (hi : i < n)
    {negated : Bool} {rightValues : List (Value R)} {cells : List (Bool × Bool)}
    (hcells : (List.range r.asView.size).mapM (searchView negated rightValues r) = .ok cells) :
    ∃ x : ExpressionResult R, x = ⟨.int, cells.map fun cell => .ofBool cell.1,
        if r.asView.isNullable then cells.map Prod.snd else []⟩ ∧ Rowed n x ∧
      x.isNull i = r.isNull i ∧ (r.isNull i = false → x.value i =
        .ofBool (if r.value i ∈ rightValues then !negated else negated)) := by
  obtain ⟨hlength, hget⟩ := getD_of_mapM_range hcells (false, false)
  have hm : cells.length = 1 ∨ cells.length = n := hlength ▸ h.size_asView
  obtain ⟨hrowed, hvalue, hnull⟩ := rowed_cells (t := .int)
    (fun cell => .ofBool cell.1 : Bool × Bool → Value R) Prod.snd hm hi (false, false)
  have hat := hget _ (readIndex_lt h.size_asView hi)
  rw [hlength] at hvalue hnull
  rw [searchView] at hat
  obtain ⟨null, hflag, hfalse, hat⟩ : ∃ null,
      r.asView.isNull (readIndex r.asView.size i) = .ok null ∧
        (r.asView.isNullable = false → null = false) ∧ (do
          let v ← r.asView.value (readIndex r.asView.size i)
          return (if null then negated else if v ∈ rightValues then !negated else negated, null)) =
            Except.ok (ε := Exception) (cells.getD (readIndex r.asView.size i) (false, false)) := by
    split at hat
    · next hnullable =>
      obtain ⟨null, hnull, hat⟩ := exists_of_bind_eq_ok hat
      exact ⟨null, hnull, fun h => absurd (hnullable.symm.trans h) Bool.false_ne_true.symm, hat⟩
    · next hnullable =>
      exact ⟨false, ExpressionResultView.isNull_of_isNullable (by simpa using hnullable),
        fun _ => rfl, hat⟩
  obtain ⟨v, hv, hat⟩ := exists_of_bind_eq_ok hat
  obtain ⟨rfl, hv'⟩ := h.reads hi (readIndex_eq h.size_asView hi) hv hflag
  have hcell := (Except.ok.inj hat).symm
  rw [hcell] at hvalue hnull
  refine ⟨_, rfl, ?_⟩
  cases hnullable : r.asView.isNullable with
  | true =>
    rw [if_pos rfl]
    refine ⟨hrowed, hnull, fun hfalse => hvalue.trans ?_⟩
    rw [hfalse, hv' hfalse, if_neg Bool.false_ne_true]
  | false =>
    have hfalse := hfalse hnullable
    rw [if_neg Bool.false_ne_true]
    refine ⟨⟨hrowed.size, .inl rfl, fun _ => Nat.zero_le 1⟩, hfalse.symm, fun _ => hvalue.trans ?_⟩
    rw [hfalse, hv' hfalse, if_neg Bool.false_ne_true]

include hi₁ hi₂ in
lemma agree_search (negated : Bool) (rightValues : List (Value R))
    (hsame : SameAt n₁ i₁ n₂ i₂ r₁ r₂) : Agree n₁ i₁ n₂ i₂ (searchValues negated rightValues r₁)
      (searchValues negated rightValues r₂) := by
  intro x₁ x₂ h₁ h₂
  obtain ⟨cells₁, hcells₁, h₁⟩ := exists_of_bind_eq_ok h₁
  obtain ⟨cells₂, hcells₂, h₂⟩ := exists_of_bind_eq_ok h₂
  obtain ⟨y₁, hy₁, hrowed₁, hnull₁, hvalue₁⟩ := hsame.left.search hi₁ hcells₁
  obtain ⟨y₂, hy₂, hrowed₂, hnull₂, hvalue₂⟩ := hsame.right.search hi₂ hcells₂
  obtain rfl : y₁ = x₁ := hy₁.trans (Except.ok.inj h₁)
  obtain rfl : y₂ = x₂ := hy₂.trans (Except.ok.inj h₂)
  obtain ⟨hnull, hvalue⟩ := cell_eq_iff.mp hsame.cell
  refine ⟨hrowed₁, hrowed₂, by rw [hy₁, hy₂], cell_eq_iff.mpr ⟨?_, fun hfalse => ?_⟩⟩
  · rw [hnull₁, hnull₂, hnull]
  · rw [hnull₁] at hfalse
    rw [hvalue₁ hfalse, hvalue₂ (hnull ▸ hfalse), hvalue hfalse]

end

end Skyrise

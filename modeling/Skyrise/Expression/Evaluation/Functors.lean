/-
The functors for division and modulo.

Both compute one value from two operands, and whether it is NULL.  A division
converts its operands to the type of the result and divides in that type, a modulo
of integers is computed in the common type of the operands.  The divisor is compared
with zero as an operand, in front of the conversion.
-/
import Skyrise.Storage.AllTypeVariant

namespace Skyrise

variable {R : Type}

/-- What keeps an arithmetic operation from having a value. -/
inductive ArithmeticFault where
  /-- An integer is divided by zero. -/
  | divisionByZero
  /-- The quotient is not in the range of the integer type that it is computed in. -/
  | quotientOverflow
  /-- A floating-point number is cast to an integer type that does not hold its integral part. -/
  | castOverflow
deriving DecidableEq, Repr

/-- `value == 0`. -/
def Value.isZero [Zero R] [DecidableEq R] : Value R → Bool
  | .int v => v = 0
  | .long v => v = 0
  | .float v => v = 0
  | .double v => v = 0
  | .string _ => false

section

variable [FloatingPoint R]

-- the integral part of a floating-point number
variable (truncate : R → ℤ)

/-- `static_cast<int32_t>` and `static_cast<int64_t>` of a floating-point number. -/
def truncateTo (t : DataType) (v : R) : Except ArithmeticFault (Value R) :=
  let z := truncate v
  match t with
  | .long => if -2 ^ 63 ≤ z ∧ z < 2 ^ 63 then .ok (.long (Int64.ofInt z)) else .error .castOverflow
  | _ => if -2 ^ 31 ≤ z ∧ z < 2 ^ 31 then .ok (.int (Int32.ofInt z)) else .error .castOverflow

/-- `static_cast` of a number to the type of a number. -/
def staticCast (t : DataType) : Value R → Except ArithmeticFault (Value R)
  | .int v =>
    match t with
    | .long => .ok (.long v.toInt64)
    | .float => .ok (.float (FloatingPoint.toSingle (FloatingPoint.ofInt v.toInt)))
    | .double => .ok (.double (FloatingPoint.ofInt v.toInt))
    | _ => .ok (.int v)
  | .long v =>
    match t with
    | .long => .ok (.long v)
    | .float => .ok (.float (FloatingPoint.toSingle (FloatingPoint.ofInt v.toInt)))
    | .double => .ok (.double (FloatingPoint.ofInt v.toInt))
    | _ => .ok (.int v.toInt32)
  | .float v =>
    match t with
    | .float => .ok (.float v)
    | .double => .ok (.double v)
    | t => truncateTo truncate t v
  | .double v =>
    match t with
    | .float => .ok (.float (FloatingPoint.toSingle v))
    | .double => .ok (.double v)
    | t => truncateTo truncate t v
  | .string s => .ok (.string s)

/-- `/` of two numbers of one type. -/
def divide : Value R → Value R → Except ArithmeticFault (Value R)
  | .int a, .int b =>
    if b = 0 then .error .divisionByZero
    else if a = Int32.minValue ∧ b = -1 then .error .quotientOverflow
    else .ok (.int (a / b))
  | .long a, .long b =>
    if b = 0 then .error .divisionByZero
    else if a = Int64.minValue ∧ b = -1 then .error .quotientOverflow
    else .ok (.long (a / b))
  | .float a, .float b => .ok (.float (FloatingPoint.toSingle (a / b)))
  | .double a, .double b => .ok (.double (a / b))
  | a, _ => .ok a

/-- `%` of two integers of one type. -/
def remainder : Value R → Value R → Except ArithmeticFault (Value R)
  | .int a, .int b =>
    if b = 0 then .error .divisionByZero
    else if a = Int32.minValue ∧ b = -1 then .error .quotientOverflow
    else .ok (.int (a % b))
  | .long a, .long b =>
    if b = 0 then .error .divisionByZero
    else if a = Int64.minValue ∧ b = -1 then .error .quotientOverflow
    else .ok (.long (a % b))
  | a, _ => .ok a

/-- `std::is_integral_v`. -/
def isIntegral (t : DataType) : Bool := t = .int || t = .long

/-- An argument of `std::fmod`. -/
def Value.toReal : Value R → R
  | .int v => FloatingPoint.ofInt v.toInt
  | .long v => FloatingPoint.ofInt v.toInt
  | .float v => v
  | .double v => v
  | .string _ => 0

/-- `std::fmod`, which is computed in double precision unless both arguments are of single
precision. -/
def fmod (leftType rightType : DataType) (a b : Value R) : Value R :=
  let r := FloatingPoint.fmod a.toReal b.toReal
  if leftType = .float ∧ rightType = .float then .float r else .double r

/-- `DivisionEvaluator`: the value, which stays as it was initialised if none is assigned, and
whether it is NULL. -/
def divisionEvaluator (resultType leftType rightType : DataType) (a : Value R) (aNull : Bool)
    (b : Value R) (bNull : Bool) : Except ArithmeticFault (Value R × Bool) := do
  let resultNull := aNull || bNull
  if leftType = .null ∨ rightType = .null then
    return (resultType.defaultValue, resultNull)
  else if b.isZero then
    return (resultType.defaultValue, true)
  else
    let dividend ← staticCast truncate resultType a
    let divisor ← staticCast truncate resultType b
    let quotient ← divide dividend divisor
    return (quotient, resultNull)

/-- `ModuloEvaluator`. -/
def moduloEvaluator (resultType leftType rightType : DataType) (a : Value R) (aNull : Bool)
    (b : Value R) (bNull : Bool) : Except ArithmeticFault (Value R × Bool) := do
  if aNull || bNull then
    return (resultType.defaultValue, true)
  else if leftType = .null ∨ rightType = .null then
    return (resultType.defaultValue, false)
  else if b.isZero then
    return (resultType.defaultValue, true)
  else if isIntegral leftType && isIntegral rightType then
    -- `%` converts the operands to their common type
    let commonType := if leftType = .long ∨ rightType = .long then DataType.long else .int
    let dividend ← staticCast truncate commonType a
    let divisor ← staticCast truncate commonType b
    let r ← remainder dividend divisor
    return (← staticCast truncate resultType r, false)
  else return (← staticCast truncate resultType (fmod leftType rightType a b), false)

end

/-! ### Values and NULLs -/

section

variable [FloatingPoint R] {truncate : R → ℤ} {t resultType leftType rightType : DataType}
  {a b x y : Value R} {aNull bNull : Bool}

/-- The types of numbers. -/
def DataType.IsNumber (t : DataType) : Prop := t ≠ .null ∧ t ≠ .string

/-- An operand: a number of its type, or a NULL without a type. -/
structure IsNumericOperand (t : DataType) (v : Value R) (null : Bool) : Prop where
  ne_string : t ≠ .string
  dataType : t ≠ .null → v.dataType = t
  null : t = .null → null = true

/-- An operation that ends with a value of the type of the result, which is NULL or not. -/
def Yields (outcome : Except ArithmeticFault (Value R × Bool)) (t : DataType) (null : Bool) :
    Prop :=
  ∃ v, outcome = .ok (v, null) ∧ v.dataType = t

/-- Whether the quotient of two numbers of one type is a number of the type. -/
def HasQuotient : Value R → Value R → Prop
  | .int a, .int b => b ≠ 0 ∧ ¬ (a = Int32.minValue ∧ b = -1)
  | .long a, .long b => b ≠ 0 ∧ ¬ (a = Int64.minValue ∧ b = -1)
  | _, _ => True

variable (truncate) in
/-- Whether the operands of a division can be converted to the type of the result and have a
quotient in it. -/
def CanDivide (resultType : DataType) (a b : Value R) : Prop :=
  ∃ x y, staticCast truncate resultType a = .ok x ∧ staticCast truncate resultType b = .ok y ∧
    HasQuotient x y

variable (truncate) in
/-- Whether the operands of a modulo, if they are integers, have a quotient in their common type,
and otherwise the type of the result holds the integral part of the remainder. -/
def CanReduce (resultType leftType rightType : DataType) (a b : Value R) : Prop :=
  if isIntegral leftType && isIntegral rightType then
    ¬ (a = .int Int32.minValue ∧ b = .int (-1)) ∧
      ¬ (a = .long Int64.minValue ∧ (b = .int (-1) ∨ b = .long (-1)))
  else ∃ v, staticCast truncate resultType (fmod leftType rightType a b) = .ok v

omit [FloatingPoint R] in
lemma dataType_truncateTo {v : R} (ht : isIntegral t) (h : truncateTo truncate t v = .ok y) :
    y.dataType = t := by
  cases t <;> simp [isIntegral] at ht <;> simp only [truncateTo] at h <;> split at h <;>
    cases h <;> rfl

lemma dataType_staticCast (ht : t.IsNumber) (hx : x.dataType.IsNumber)
    (h : staticCast truncate t x = .ok y) : y.dataType = t := by
  obtain ⟨hnull, hstring⟩ := ht
  cases x with
  | int v => cases t <;> simp_all [staticCast] <;> rw [← h] <;> rfl
  | long v => cases t <;> simp_all [staticCast] <;> rw [← h] <;> rfl
  | float v =>
    cases t with
    | null => exact absurd rfl hnull
    | string => exact absurd rfl hstring
    | int => exact dataType_truncateTo rfl h
    | long => exact dataType_truncateTo rfl h
    | float => exact Except.ok.inj h ▸ rfl
    | double => exact Except.ok.inj h ▸ rfl
  | double v =>
    cases t with
    | null => exact absurd rfl hnull
    | string => exact absurd rfl hstring
    | int => exact dataType_truncateTo rfl h
    | long => exact dataType_truncateTo rfl h
    | float => exact Except.ok.inj h ▸ rfl
    | double => exact Except.ok.inj h ▸ rfl
  | string s => exact absurd rfl hx.2

omit [FloatingPoint R] in
/-- An operation with two checks has a value if both are passed. -/
lemma exists_checked {p q : Prop} [Decidable p] [Decidable q] {v : Value R}
    {e e' : ArithmeticFault} (hv : v.dataType = t) :
    (∃ w, (if p then .error e else if q then .error e' else .ok v) = Except.ok w ∧
      w.dataType = t) ↔ ¬ p ∧ ¬ q := by
  constructor
  · rintro ⟨w, hw, -⟩
    split_ifs at hw with hp hq
    exact ⟨hp, hq⟩
  · rintro ⟨hp, hq⟩
    exact ⟨v, by rw [if_neg hp, if_neg hq], hv⟩

/-- The quotient of two numbers of one type is one of that type. -/
lemma divide_yields (hxy : x.dataType = y.dataType) (hx : x.dataType ≠ .string) :
    (∃ v, divide x y = .ok v ∧ v.dataType = x.dataType) ↔ HasQuotient x y := by
  cases x <;> cases y <;> simp only [Value.dataType, reduceCtorEq] at hxy
  case int.int a b => exact exists_checked rfl
  case long.long a b => exact exists_checked rfl
  case float.float a b => exact iff_of_true ⟨_, rfl, rfl⟩ trivial
  case double.double a b => exact iff_of_true ⟨_, rfl, rfl⟩ trivial
  case string.string a b => exact absurd rfl hx

omit [FloatingPoint R] in
/-- The remainder of two integers of one type is one of that type. -/
lemma remainder_yields (hxy : x.dataType = y.dataType) (hx : isIntegral x.dataType) :
    (∃ v, remainder x y = .ok v ∧ v.dataType = x.dataType) ↔ HasQuotient x y := by
  cases x <;> cases y <;> simp only [Value.dataType, reduceCtorEq] at hxy
  case int.int a b => exact exists_checked rfl
  case long.long a b => exact exists_checked rfl
  all_goals cases hx

omit [FloatingPoint R] in
lemma dataType_remainder {r : Value R} (hxy : x.dataType = y.dataType) (hx : isIntegral x.dataType)
    (h : remainder x y = .ok r) : r.dataType = x.dataType := by
  cases x <;> cases y <;> simp only [Value.dataType, reduceCtorEq] at hxy
  case int.int a b =>
    rw [remainder] at h
    split_ifs at h
    cases h
    rfl
  case long.long a b =>
    rw [remainder] at h
    split_ifs at h
    cases h
    rfl
  all_goals cases hx

lemma toInt64_ne_minValue (a : Int32) : a.toInt64 ≠ Int64.minValue := by
  intro h
  have hint := congrArg Int64.toInt h
  rw [Int32.toInt_toInt64] at hint
  have hle := a.minValue_le_toInt
  simp at hint hle
  omega

lemma toInt64_eq_neg_one {b : Int32} : b.toInt64 = -1 ↔ b = -1 := by
  rw [← Int64.toInt_inj, ← Int32.toInt_inj, Int32.toInt_toInt64]
  simp

lemma toInt64_eq_zero {b : Int32} : b.toInt64 = 0 ↔ b = 0 := by
  rw [← Int64.toInt_inj, ← Int32.toInt_inj, Int32.toInt_toInt64]
  simp

variable (truncate) in
/-- Integers converted to their common type are of that type, and have a quotient unless the divisor
is zero or the quotient overflows. -/
lemma exists_commonCast (hleft : isIntegral a.dataType) (hright : isIntegral b.dataType)
    (hzero : b.isZero = false) : ∃ x y,
      staticCast truncate (if a.dataType = .long ∨ b.dataType = .long then .long else .int) a =
          .ok x ∧
        staticCast truncate (if a.dataType = .long ∨ b.dataType = .long then .long else .int) b =
          .ok y ∧
        x.dataType = y.dataType ∧ isIntegral x.dataType ∧
        (HasQuotient x y ↔ ¬ (a = .int Int32.minValue ∧ b = .int (-1)) ∧
          ¬ (a = .long Int64.minValue ∧ (b = .int (-1) ∨ b = .long (-1)))) := by
  cases a <;> cases b <;> simp only [isIntegral, Value.dataType, reduceCtorEq] at hleft hright <;>
    try contradiction
  all_goals simp only [Value.isZero, decide_eq_false_iff_not] at hzero
  case int.int a b => exact ⟨.int a, .int b, rfl, rfl, rfl, rfl, by simp [HasQuotient, hzero]⟩
  case int.long a b =>
    refine ⟨.long a.toInt64, .long b, rfl, rfl, rfl, rfl, ?_⟩
    simp [HasQuotient, hzero, toInt64_ne_minValue]
  case long.int a b =>
    refine ⟨.long a, .long b.toInt64, rfl, rfl, rfl, rfl, ?_⟩
    simp [HasQuotient, hzero, toInt64_eq_zero, toInt64_eq_neg_one]
  case long.long a b => exact ⟨.long a, .long b, rfl, rfl, rfl, rfl, by simp [HasQuotient, hzero]⟩

variable (truncate) in
/-- An integer can be cast to the type of any number. -/
lemma exists_staticCast (ht : t.IsNumber) (hx : isIntegral x.dataType) :
    ∃ y, staticCast truncate t x = .ok y ∧ y.dataType = t := by
  have hnumber : x.dataType.IsNumber := by
    constructor <;> intro h <;> rw [h] at hx <;> cases hx
  have hok : ∃ y, staticCast truncate t x = .ok y := by
    cases x <;> cases t <;> first | exact ⟨_, rfl⟩ | cases hx
  obtain ⟨y, hy⟩ := hok
  exact ⟨y, hy, dataType_staticCast ht hnumber hy⟩

/-- A modulo has a value, NULL if an operand is NULL or the divisor is zero, if and only if it is
NULL or the operands can be reduced. -/
lemma moduloEvaluator_yields (ha : IsNumericOperand leftType a aNull)
    (hb : IsNumericOperand rightType b bNull) (ht : resultType.IsNumber) :
    Yields (moduloEvaluator truncate resultType leftType rightType a aNull b bNull) resultType
        (aNull || bNull || b.isZero) ↔
      (aNull || bNull || b.isZero) = true ∨
        CanReduce truncate resultType leftType rightType a b := by
  have hdefault : (resultType.defaultValue : Value R).dataType = resultType :=
    DataType.dataType_defaultValue ht.1
  rw [moduloEvaluator]
  cases hflags : aNull || bNull with
  | true =>
    rw [Bool.true_or, if_pos rfl]
    exact iff_of_true ⟨_, rfl, hdefault⟩ (.inl rfl)
  | false =>
    -- operands that are not NULL have a type
    obtain ⟨haNull, hbNull⟩ := Bool.or_eq_false_iff.mp hflags
    have hleft : leftType ≠ .null := fun h => by rw [ha.null h] at haNull; cases haNull
    have hright : rightType ≠ .null := fun h => by rw [hb.null h] at hbNull; cases hbNull
    rw [if_neg Bool.false_ne_true, if_neg (not_or.mpr ⟨hleft, hright⟩), Bool.false_or]
    cases hzero : b.isZero with
    | true =>
      rw [if_pos rfl]
      exact iff_of_true ⟨_, rfl, hdefault⟩ (.inl rfl)
    | false =>
      rw [if_neg Bool.false_ne_true, or_iff_right Bool.false_ne_true, CanReduce]
      have htypea := ha.dataType hleft
      have htypeb := hb.dataType hright
      cases hintegral : isIntegral leftType && isIntegral rightType with
      | true =>
        obtain ⟨hl, hr⟩ := Bool.and_eq_true_iff.mp hintegral
        rw [if_pos rfl, if_pos rfl]
        obtain ⟨x, y, hx, hy, hxy, hint, hiff⟩ :=
          exists_commonCast truncate (htypea ▸ hl) (htypeb ▸ hr) hzero
        rw [htypea, htypeb] at hx hy
        rw [← hiff, ← remainder_yields hxy hint]
        simp only [hx, hy, bind, Except.bind, pure, Except.pure]
        constructor
        · rintro ⟨v, hv, -⟩
          cases hr : remainder x y with
          | error e => rw [hr] at hv; cases hv
          | ok r => exact ⟨r, rfl, dataType_remainder hxy hint hr⟩
        · rintro ⟨r, hr, htyper⟩
          obtain ⟨v, hv, htypev⟩ := exists_staticCast truncate ht (htyper ▸ hint)
          exact ⟨v, by rw [hr]; simp only [hv], htypev⟩
      | false =>
        rw [if_neg Bool.false_ne_true, if_neg Bool.false_ne_true]
        have hnumber : (fmod leftType rightType a b : Value R).dataType.IsNumber := by
          rw [fmod]
          split <;> constructor <;> exact fun h => nomatch h
        constructor
        · rintro ⟨v, hv, -⟩
          cases hcast : staticCast truncate resultType (fmod leftType rightType a b) with
          | error e => simp [hcast, bind, Except.bind] at hv
          | ok w => exact ⟨w, rfl⟩
        · rintro ⟨v, hv⟩
          exact ⟨v, by rw [hv]; rfl, dataType_staticCast ht hnumber hv⟩

/-- A division has a value, NULL if an operand is NULL or the divisor is zero, if and only if the
divisor is zero or the converted operands have a quotient. -/
lemma divisionEvaluator_yields (ha : IsNumericOperand leftType a aNull)
    (hb : IsNumericOperand rightType b bNull) (ht : resultType.IsNumber) :
    Yields (divisionEvaluator truncate resultType leftType rightType a aNull b bNull) resultType
        (aNull || bNull || b.isZero) ↔
      leftType = .null ∨ rightType = .null ∨ b.isZero ∨ CanDivide truncate resultType a b := by
  have hdefault : (resultType.defaultValue : Value R).dataType = resultType :=
    DataType.dataType_defaultValue ht.1
  rw [divisionEvaluator]
  by_cases hnull : leftType = .null ∨ rightType = .null
  · have hflags : (aNull || bNull) = true := by
      rcases hnull with h | h
      · rw [ha.null h, Bool.true_or]
      · rw [hb.null h, Bool.or_true]
    rw [if_pos hnull, hflags, Bool.true_or]
    exact iff_of_true ⟨_, rfl, hdefault⟩ (or_assoc.mp (.inl hnull))
  · rw [if_neg hnull, ← or_assoc, or_iff_right hnull]
    obtain ⟨hleft, hright⟩ := not_or.mp hnull
    cases hzero : b.isZero with
    | true =>
      rw [Bool.or_true]
      exact iff_of_true ⟨_, rfl, hdefault⟩ (.inl rfl)
    | false =>
      rw [Bool.or_false, or_iff_right Bool.false_ne_true, CanDivide]
      have hnumber : ∀ {t : DataType} {v : Value R} {null : Bool}, IsNumericOperand t v null →
          t ≠ .null → v.dataType.IsNumber := fun h hne => by
        rw [h.dataType hne]
        exact ⟨hne, h.ne_string⟩
      cases hx : staticCast truncate resultType a with
      | error e =>
        exact iff_of_false (by rintro ⟨v, hv, -⟩; cases hv) (by rintro ⟨x, y, h, -⟩; cases h)
      | ok x =>
        cases hy : staticCast truncate resultType b with
        | error e =>
          exact iff_of_false (by rintro ⟨v, hv, -⟩; cases hv) (by rintro ⟨x, y, -, h, -⟩; cases h)
        | ok y =>
          have htypex := dataType_staticCast ht (hnumber ha hleft) hx
          have htypey := dataType_staticCast ht (hnumber hb hright) hy
          have hquotient := divide_yields (htypex.trans htypey.symm) (htypex ▸ ht.2)
          constructor
          · rintro ⟨v, hv, htype⟩
            refine ⟨x, y, rfl, rfl, hquotient.mp ⟨v, ?_, htype.trans htypex.symm⟩⟩
            cases hdivide : divide x y with
            | error e => simp [bind, Except.bind, hdivide] at hv
            | ok q => simpa [bind, Except.bind, pure, Except.pure, hdivide] using hv
          · rintro ⟨x', y', hx', hy', h⟩
            obtain rfl := Except.ok.inj hx'
            obtain rfl := Except.ok.inj hy'
            obtain ⟨v, hv, htype⟩ := hquotient.mpr h
            refine ⟨v, ?_, htype.trans htypex⟩
            simp [bind, Except.bind, pure, Except.pure, hv]

/-- The functors end with a value, and with NULL if an operand is NULL or the divisor is zero,
exactly if no conversion and no integer operation is out of range: the divisor of a division, converted to
the type of the result, is not zero, and the smallest integer is not divided by -1. -/
theorem functors_yield_iff {R : Type} [FloatingPoint R] (truncate : R → ℤ)
    (resultType leftType rightType : DataType) (a : Value R) (aNull : Bool) (b : Value R)
    (bNull : Bool) (ha : IsNumericOperand leftType a aNull)
    (hb : IsNumericOperand rightType b bNull) (ht : resultType.IsNumber) :
    (Yields (divisionEvaluator truncate resultType leftType rightType a aNull b bNull) resultType
        (aNull || bNull || b.isZero) ↔
      leftType = .null ∨ rightType = .null ∨ b.isZero ∨ CanDivide truncate resultType a b) ∧
    (Yields (moduloEvaluator truncate resultType leftType rightType a aNull b bNull) resultType
        (aNull || bNull || b.isZero) ↔
      (aNull || bNull || b.isZero) = true ∨
        CanReduce truncate resultType leftType rightType a b) :=
  ⟨divisionEvaluator_yields ha hb ht, moduloEvaluator_yields ha hb ht⟩

theorem functors_yield_seven :
    Yields (divisionEvaluator (fun q : ℚ => ⌊q⌋) .int .int .int (.int 7) false (.int 2) false) .int
        false ∧
      Yields (moduloEvaluator (fun q : ℚ => ⌊q⌋) .int .int .int (.int 7) false (.int 2) false) .int
        false :=
  have h := functors_yield_iff (fun q : ℚ => ⌊q⌋) .int .int .int (.int 7) false (.int 2) false
    ⟨by decide, fun _ => rfl, fun h => nomatch h⟩ ⟨by decide, fun _ => rfl, fun h => nomatch h⟩
    ⟨by decide, by decide⟩
  ⟨h.1.mpr (.inr (.inr (.inr ⟨_, _, rfl, rfl, by decide, by decide⟩))),
    h.2.mpr (.inr ⟨by decide, by decide⟩)⟩

/-- The divisor 2 ^ 32 is not zero, but it is as an `int32_t`, in which the row count of a limit is
requested; and the quotient of the smallest integer and -1 overflows, also for its remainder. -/
theorem not_functors_yield :
    ¬ Yields (divisionEvaluator (fun q : ℚ => ⌊q⌋) .int .int .long (.int 5) false
        (.long 4294967296) false) .int false ∧
      divisionEvaluator (fun q : ℚ => ⌊q⌋) .int .int .long (.int 5) false (.long 4294967296)
        false = .error .divisionByZero ∧
      divisionEvaluator (fun q : ℚ => ⌊q⌋) .int .int .int (.int (-2147483648)) false (.int (-1))
        false = .error .quotientOverflow ∧
      moduloEvaluator (fun q : ℚ => ⌊q⌋) .int .int .int (.int (-2147483648)) false (.int (-1))
        false = .error .quotientOverflow := by
  have herror : divisionEvaluator (fun q : ℚ => ⌊q⌋) .int .int .long (.int 5) false
      (.long 4294967296) false = .error .divisionByZero := by decide
  refine ⟨?_, herror, by decide, by decide⟩
  rintro ⟨v, hv, -⟩
  rw [herror] at hv
  cases hv

end

end Skyrise

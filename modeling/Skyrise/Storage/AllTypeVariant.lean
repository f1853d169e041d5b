/-
The values that tables hold.

A column has one of the five data types `int`, `long`, `float`, `double` and
`string`; a cell of it is a value of that type or NULL.  Integers are the
fixed-width integers of the program.  A string is the sequence of its bytes, as
`std::string` is.  The floating-point numbers are a parameter `R`: single- and
double-precision numbers both are elements of `R`, the operations round as the
program's do, and of the order only that it is linear is used, so `R` has no
not-a-number.
-/
import Mathlib.Data.List.Lex
import Mathlib.Data.Sum.Order
import Mathlib.Algebra.Order.Ring.Rat
import Mathlib.Data.Rat.Floor

namespace Skyrise

/-- The data type of a column, of a value or of an expression. -/
inductive DataType where
  | null
  | int
  | long
  | float
  | double
  | string
deriving DecidableEq, Repr

/-- What the program uses of `float` and `double`.  `ofInt` converts an integer, `toSingle` rounds
to single precision, `fmod` and `sqrt` are the library functions of these names. -/
class FloatingPoint (R : Type) extends LinearOrder R, Zero R, Add R, Sub R, Mul R, Div R, Neg R where
  ofInt : ℤ → R
  toSingle : R → R
  fmod : R → R → R
  sqrt : R → R

/-- Rational numbers without rounding, an instance on which the definitions can be run.  The square
root is only the integer part of the true one. -/
instance : FloatingPoint ℚ where
  ofInt z := z
  toSingle q := q
  fmod a b := a - b * (if 0 ≤ a / b then (⌊a / b⌋ : ℤ) else (⌈a / b⌉ : ℤ))
  sqrt q := (Nat.sqrt ⌊q⌋.toNat : ℕ)

/-- A value other than NULL. -/
inductive Value (R : Type) where
  | int (v : Int32)
  | long (v : Int64)
  | float (v : R)
  | double (v : R)
  | string (v : List UInt8)
deriving DecidableEq, Repr

instance {R : Type} [FloatingPoint R] : LawfulBEq (Value R) := inferInstance

/-- A cell: a value, or NULL as `none`. -/
abbrev AllTypeVariant (R : Type) : Type := Option (Value R)

/-- Whether a cell is NULL. -/
def variantIsNull {R : Type} (variant : AllTypeVariant R) : Bool := variant.isNone

@[simp] lemma variantIsNull_none {R : Type} : variantIsNull (none : AllTypeVariant R) = true := rfl

@[simp] lemma variantIsNull_some {R : Type} (v : Value R) : variantIsNull (some v) = false := rfl

namespace Value

variable {R : Type}

/-- The data type of a value. -/
def dataType : Value R → DataType
  | int _ => .int
  | long _ => .long
  | float _ => .float
  | double _ => .double
  | string _ => .string

lemma dataType_ne_null (v : Value R) : v.dataType ≠ .null := by cases v <;> simp [dataType]

/-- The values as a sum, which orders the values of one type as the program does. -/
def toSum : Value R → ℤ ⊕ₗ ℤ ⊕ₗ R ⊕ₗ R ⊕ₗ List ℕ
  | int v => Sum.inlₗ v.toInt
  | long v => Sum.inrₗ (Sum.inlₗ v.toInt)
  | float v => Sum.inrₗ (Sum.inrₗ (Sum.inlₗ v))
  | double v => Sum.inrₗ (Sum.inrₗ (Sum.inrₗ (Sum.inlₗ v)))
  | string v => Sum.inrₗ (Sum.inrₗ (Sum.inrₗ (Sum.inrₗ (v.map UInt8.toNat))))

lemma toSum_injective : Function.Injective (toSum (R := R)) := by
  intro a b h
  have hbyte : Function.Injective UInt8.toNat := fun _ _ => UInt8.toNat_inj.mp
  cases a <;> cases b <;> simp_all [toSum, Int32.toInt_inj, Int64.toInt_inj]
  exact List.map_injective_iff.mpr hbyte h

/-- Values of one type in the order of the type; strings are compared byte by byte.  Values of
different types are never compared by the program. -/
instance [LinearOrder R] : LinearOrder (Value R) := LinearOrder.lift' toSum toSum_injective

lemma lt_iff [LinearOrder R] {a b : Value R} : a < b ↔ a.toSum < b.toSum := Iff.rfl

@[simp] lemma int_lt_int [LinearOrder R] {a b : Int32} :
    (int a : Value R) < int b ↔ a.toInt < b.toInt := by
  simp [lt_iff, toSum]

@[simp] lemma int_le_int [LinearOrder R] {a b : Int32} :
    (int a : Value R) ≤ int b ↔ a.toInt ≤ b.toInt := by
  rw [← not_lt, int_lt_int, not_lt]

@[simp] lemma long_lt_long [LinearOrder R] {a b : Int64} :
    (long a : Value R) < long b ↔ a.toInt < b.toInt := by
  simp [lt_iff, toSum]

end Value

/-- The value `T{}` of the type `T` that the data type stands for. -/
def DataType.defaultValue {R : Type} [Zero R] : DataType → Value R
  | .null => .int 0
  | .int => .int 0
  | .long => .long 0
  | .float => .float 0
  | .double => .double 0
  | .string => .string []

@[simp] lemma DataType.dataType_defaultValue {R : Type} [Zero R] {t : DataType} (ht : t ≠ .null) :
    (t.defaultValue : Value R).dataType = t := by
  cases t <;> simp_all [defaultValue, Value.dataType]

end Skyrise

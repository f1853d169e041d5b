/-
The conditions of predicates, which expressions and joins share.
-/
import Skyrise.Json.Text

namespace Skyrise

/-- The comparison of a predicate. -/
inductive PredicateCondition where
  | equals
  | notEquals
  | lessThan
  | lessThanEquals
  | greaterThan
  | greaterThanEquals
  | betweenInclusive
  | betweenLowerExclusive
  | betweenUpperExclusive
  | betweenExclusive
  | «in»
  | notIn
  | like
  | notLike
  | isNull
  | isNotNull
deriving DecidableEq, Repr

instance : MagicEnum PredicateCondition where
  values := [.equals, .notEquals, .lessThan, .lessThanEquals, .greaterThan, .greaterThanEquals,
    .betweenInclusive, .betweenLowerExclusive, .betweenUpperExclusive, .betweenExclusive, .in,
    .notIn, .like, .notLike, .isNull, .isNotNull]
  enumName
    | .equals => "kEquals"
    | .notEquals => "kNotEquals"
    | .lessThan => "kLessThan"
    | .lessThanEquals => "kLessThanEquals"
    | .greaterThan => "kGreaterThan"
    | .greaterThanEquals => "kGreaterThanEquals"
    | .betweenInclusive => "kBetweenInclusive"
    | .betweenLowerExclusive => "kBetweenLowerExclusive"
    | .betweenUpperExclusive => "kBetweenUpperExclusive"
    | .betweenExclusive => "kBetweenExclusive"
    | .in => "kIn"
    | .notIn => "kNotIn"
    | .like => "kLike"
    | .notLike => "kNotLike"
    | .isNull => "kIsNull"
    | .isNotNull => "kIsNotNull"
  mem_values a := by cases a <;> simp
  enumName_injective a b h := by cases a <;> cases b <;> simp_all

namespace PredicateCondition

/-- The conditions of a `BinaryPredicateExpression`. -/
def isBinary : PredicateCondition → Bool
  | .equals | .notEquals | .lessThan | .lessThanEquals | .greaterThan | .greaterThanEquals
  | .like | .notLike => true
  | _ => false

/-- `IsBetweenPredicateCondition`. -/
def isBetween : PredicateCondition → Bool
  | .betweenInclusive | .betweenLowerExclusive | .betweenUpperExclusive | .betweenExclusive => true
  | _ => false

/-- The conditions of an `InExpression`. -/
def isIn : PredicateCondition → Bool
  | .in | .notIn => true
  | _ => false

/-- The conditions of an `IsNullExpression`. -/
def isNullTest : PredicateCondition → Bool
  | .isNull | .isNotNull => true
  | _ => false

end PredicateCondition

end Skyrise

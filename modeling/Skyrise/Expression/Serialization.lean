/-
Serialization of expressions.

Every expression is written as its type, its arguments and the fields of its class,
and read back by a constructor that is chosen by the type.  The writer for the type
of aggregates is that of `AggregateExpression`.
-/
import Skyrise.Compiler.ObjectReference
import Skyrise.Expression.AbstractExpression

namespace Skyrise

variable {R : Type}

open JsonValue MagicEnum

/-! ### Writing -/

/-- `SerializeValueExpression`. -/
def serializeValueExpression (result : JsonValue R) (v : AllTypeVariant R) : JsonValue R :=
  let result := result.withString "value_type" (enumName (dataTypeFromAllTypeVariant v) : Bytes)
  match v with
  | some (.string s) => result.withString "value" s
  | some (.float x) => result.withDouble "value" x
  | some (.double x) => result.withDouble "value" x
  | some (.int n) => result.withInteger "value" n.toInt
  | some (.long n) => result.withInteger "value" n.toInt
  | none => result  -- "value_type" alone is sufficient in this case

/-- The fields of a class, by the type of the expression. -/
def ExpressionNode.serialize (result : JsonValue R) : ExpressionNode R → JsonValue R
  | value v => serializeValueExpression result v
  | binaryPredicate condition | between condition | inSet condition | isNull condition =>
    result.withString "predicate_condition" (enumName condition : Bytes)
  | arithmetic arithmeticOperator =>
    result.withString "arithmetic_operator" (enumName arithmeticOperator : Bytes)
  | case | list | unaryMinus => result
  | cast dataType => result.withString "data_type" (enumName dataType : Bytes)
  | extract datetimeComponent =>
    result.withString "datetime_component" (enumName datetimeComponent : Bytes)
  | logical logicalOperator =>
    result.withString "logical_operator" (enumName logicalOperator : Bytes)
  | pqpColumn columnId dataType isNullable columnName =>
    (((result.withInteger "column_id" columnId.toNat).withString "data_type"
      (enumName dataType : Bytes)).withInteger "is_nullable" (if isNullable then 1 else 0)).withString
        "column_name" columnName
  | aggregate aggregateFunction =>
    result.withString "aggregate_function" (enumName aggregateFunction : Bytes)
  -- a `StringAggAggregateExpression` is an `AggregateExpression` with the function `kStringAgg`
  | stringAgg _ => result.withString "aggregate_function" (enumName AggregateFunction.stringAgg : Bytes)

mutual

/-- `SerializeExpression`. -/
def serializeExpression : Expression R → JsonValue R
  | .node n arguments =>
    n.serialize ((JsonValue.empty.withString "type" (enumName n.expressionType : Bytes)).withArray
      "arguments" (serializeArguments arguments))

/-- `SerializeArguments`. -/
def serializeArguments : List (Expression R) → List (JsonValue R)
  | [] => []
  | argument :: arguments => serializeExpression argument :: serializeArguments arguments

end

lemma serializeArguments_eq_map (arguments : List (Expression R)) :
    serializeArguments arguments = arguments.map serializeExpression := by
  induction arguments with
  | nil => rfl
  | cons argument arguments ih => rw [serializeArguments, ih, List.map_cons]

/-! ### Reading -/

section Read

variable [FloatingPoint R]

/-- `ConstructAggregateExpression`. -/
def constructAggregateExpression (json : JsonValue R) (arguments : List (Expression R)) :
    Except Exception (Expression R) := do
  assert (json.keyExists "aggregate_function" && arguments.length == 1)
    "Expected to find key 'aggregate_function'."
  let aggregateFunction ← enumValue (json.getString "aggregate_function")
  return .node (.aggregate aggregateFunction) arguments

/-- `ConstructArithmeticExpression`. -/
def constructArithmeticExpression (json : JsonValue R) (arguments : List (Expression R)) :
    Except Exception (Expression R) := do
  let expressionOperator ← enumValue (json.getString "arithmetic_operator")
  assert (arguments.length == 2) "Expected 2 arguments for ArithmeticExpression."
  return .node (.arithmetic expressionOperator) arguments

/-- `ConstructCaseExpression`. -/
def constructCaseExpression (arguments : List (Expression R)) : Except Exception (Expression R) := do
  assert (arguments.length == 3) "Expected 3 argument for CaseExpression."
  return .node .case arguments

/-- `ConstructCastExpression`. -/
def constructCastExpression (json : JsonValue R) (arguments : List (Expression R)) :
    Except Exception (Expression R) := do
  assert (arguments.length == 1) "Expected 1 argument for CastExpression."
  let dataType ← enumValue (json.getString "data_type")
  return .node (.cast dataType) arguments

/-- `ConstructExtractExpression`. -/
def constructExtractExpression (json : JsonValue R) (arguments : List (Expression R)) :
    Except Exception (Expression R) := do
  let component ← enumValue (json.getString "datetime_component")
  assert (arguments.length == 1) "Expected 1 argument for ExtractExpression."
  return .node (.extract component) arguments

/-- `ConstructListExpression`. -/
def constructListExpression (arguments : List (Expression R)) : Except Exception (Expression R) :=
  return .node .list arguments

/-- `ConstructLogicalExpression`. -/
def constructLogicalExpression (json : JsonValue R) (arguments : List (Expression R)) :
    Except Exception (Expression R) := do
  let logicalOperator ← enumValue (json.getString "logical_operator")
  assert (arguments.length == 2) "Expected 2 arguments for LogicalExpression."
  return .node (.logical logicalOperator) arguments

/-- `ConstructPqpColumnExpression`. -/
def constructPqpColumnExpression (json : JsonValue R) (arguments : List (Expression R)) :
    Except Exception (Expression R) := do
  assert arguments.isEmpty "Expected 0 arguments for PqpColumnExpression."
  let dataType ← enumValue (json.getString "data_type")
  return .node (.pqpColumn (.ofInt (json.getInteger "column_id")) dataType
    (json.getInteger "is_nullable" == 1) (json.getString "column_name")) arguments

/-- `ConstructPredicateExpression`. -/
def constructPredicateExpression (json : JsonValue R) (arguments : List (Expression R)) :
    Except Exception (Expression R) := do
  let condition : PredicateCondition ← enumValue (json.getString "predicate_condition")
  if condition.isBinary then
    assert (arguments.length == 2) "Expected 2 arguments for BinaryPredicateExpression."
    return .node (.binaryPredicate condition) arguments
  else if condition.isBetween then
    assert (arguments.length == 3) "Expected 3 arguments for BetweenExpression."
    return .node (.between condition) arguments
  else if condition.isIn then
    assert (arguments.length == 2) "Expected 2 arguments for InExpression."
    return .node (.inSet condition) arguments
  else
    assert (arguments.length == 1) "Expected 1 argument for IsNullExpression."
    return .node (.isNull condition) arguments

/-- `ConstructUnaryMinusExpression`. -/
def constructUnaryMinusExpression (arguments : List (Expression R)) :
    Except Exception (Expression R) :=
  match arguments with
  | [argument] => do
    let t ← argument.getDataType
    assert (t ≠ .string) "Cannot negate strings."
    return .node .unaryMinus [argument]
  | _ => .error (.assertionFailed "Expected 1 argument for UnaryMinusExpression.")

/-- `ConstructValueExpression`. -/
def constructValueExpression (json : JsonValue R) : Except Exception (Expression R) := do
  let type : DataType ← enumValue (json.getString "value_type")
  return .node (.value <| match type with
    | .string => some (.string (json.getString "value"))
    | .float => some (.float (FloatingPoint.toSingle (json.getDouble "value")))
    | .double => some (.double (json.getDouble "value"))
    | .int => some (.int (.ofInt (json.getInteger "value")))
    | .long => some (.long (.ofInt (json.getInteger "value")))
    | .null => none) []

/-- An expression of a type with arguments that have been read. -/
def constructExpression (json : JsonValue R) (arguments : List (Expression R)) :
    ExpressionType → Except Exception (Expression R)
  | .aggregate => constructAggregateExpression json arguments
  | .arithmetic => constructArithmeticExpression json arguments
  | .case => constructCaseExpression arguments
  | .cast => constructCastExpression json arguments
  | .extract => constructExtractExpression json arguments
  | .logical => constructLogicalExpression json arguments
  | .list => constructListExpression arguments
  | .pqpColumn => constructPqpColumnExpression json arguments
  | .predicate => constructPredicateExpression json arguments
  | .unaryMinus => constructUnaryMinusExpression arguments
  | .value => constructValueExpression json

/-- `DeserializeExpression`. -/
def deserializeExpression (json : JsonValue R) : Except Exception (Expression R) :=
  match (enumCast (json.getString "type") : Option ExpressionType), json.keyExists "type" with
  | some type, true => do
    let arguments ← (json.getArray "arguments").attach.mapM fun argument =>
      deserializeExpression argument.1
    constructExpression json arguments type
  | _, _ => .error (.assertionFailed "Expected to find valid value for key 'type'.")
termination_by sizeOf json
decreasing_by exact sizeOf_lt_of_mem_getArray argument.2

end Read

/-! ### The round trip -/

/-- The class of which an expression is read back. -/
def ExpressionNode.decoded : ExpressionNode R → ExpressionNode R
  | stringAgg _ => aggregate .stringAgg
  | n => n

/-- The expression that is read back. -/
def Expression.decoded (e : Expression R) : Expression R :=
  e.evaluate fun n arguments => .node n.decoded arguments

lemma Expression.decoded_node (n : ExpressionNode R) (arguments : List (Expression R)) :
    (Expression.node n arguments).decoded = .node n.decoded (arguments.map Expression.decoded) :=
  Expression.evaluate_node _ n arguments

lemma ExpressionNode.dataType_decoded (n : ExpressionNode R)
    (arguments : List (Except Exception DataType)) :
    n.decoded.dataType arguments = n.dataType arguments := by
  cases n with
  | stringAgg sort => match arguments with
    | [] | [_] | _ :: _ :: _ => rfl
  | _ => rfl

lemma Expression.getDataType_decoded (e : Expression R) : e.decoded.getDataType = e.getDataType := by
  induction e with
  | node n arguments ih =>
    rw [Expression.decoded_node, getDataType, getDataType, evaluate_node, evaluate_node,
      ExpressionNode.dataType_decoded, List.map_map]
    congr 1
    exact List.map_congr_left ih

/-- The fields of a class do not replace the type and the arguments. -/
lemma ExpressionNode.find_serialize (n : ExpressionNode R) {result : JsonValue R} {key : Bytes}
    (hkey : key = "type" ∨ key = "arguments") : (n.serialize result).find key = result.find key := by
  rcases hkey with rfl | rfl
  · cases n with
    | value v =>
      rcases v with - | v
      · simp [serialize, serializeValueExpression]
      · cases v <;> simp [serialize, serializeValueExpression]
    | _ => simp [serialize]
  · cases n with
    | value v =>
      rcases v with - | v
      · simp [serialize, serializeValueExpression]
      · cases v <;> simp [serialize, serializeValueExpression]
    | _ => simp [serialize]

variable [FloatingPoint R]

lemma ofInt_toNat (n : UInt32) : UInt32.ofInt (n.toNat : ℤ) = n := by
  have hlt := n.toNat_lt
  have hmod : ((n.toNat : ℤ) % 2 ^ 32).toNat = n.toNat := by omega
  rw [UInt32.ofInt, hmod, UInt32.ofNat_toNat]

section Construct

variable {n : ExpressionNode R} {arguments : List (Expression R)} {result : JsonValue R}

omit [FloatingPoint R] in
/-- A predicate is constructed by its condition. -/
lemma constructPredicateExpression_eq_ok {condition : PredicateCondition} {count : ℕ}
    (hlen : arguments.length = count)
    (hn : n = .binaryPredicate condition ∧ condition.isBinary ∧ count = 2 ∨
      n = .between condition ∧ condition.isBetween ∧ count = 3 ∨
      n = .inSet condition ∧ condition.isIn ∧ count = 2 ∨
      n = .isNull condition ∧ condition.isNullTest ∧ count = 1) :
    constructPredicateExpression (result.withString "predicate_condition"
      (enumName condition : Bytes)) arguments = .ok (.node n arguments) := by
  subst hlen
  rw [constructPredicateExpression]
  rcases hn with ⟨rfl, hcondition, hlen⟩ | ⟨rfl, hcondition, hlen⟩ | ⟨rfl, hcondition, hlen⟩ |
      ⟨rfl, hcondition, hlen⟩ <;> cases condition <;>
    simp [PredicateCondition.isBinary, PredicateCondition.isBetween, PredicateCondition.isIn,
      PredicateCondition.isNullTest] at hcondition <;>
    simp [getString, getObject, asString, hlen, bind, Except.bind, pure, Except.pure,
      PredicateCondition.isBinary, PredicateCondition.isBetween, PredicateCondition.isIn]

lemma constructValueExpression_eq_ok {v : AllTypeVariant R} (hnode : (ExpressionNode.value v).Admits []) :
    constructValueExpression (serializeValueExpression result v) = .ok (.node (.value v) []) := by
  rcases v with - | v
  · simp [constructValueExpression, serializeValueExpression, dataTypeFromAllTypeVariant, getString,
      getObject, asString, bind, Except.bind, pure, Except.pure]
  · cases v with
    | float x =>
      have hsingle : FloatingPoint.toSingle x = x := hnode
      simp [constructValueExpression, serializeValueExpression, dataTypeFromAllTypeVariant,
        Value.dataType, getString, getDouble, getObject, asString, asDouble, hsingle, bind,
        Except.bind, pure, Except.pure]
    | _ =>
      simp [constructValueExpression, serializeValueExpression, dataTypeFromAllTypeVariant,
        Value.dataType, getString, getDouble, getInteger, getObject, asString, asDouble, asInteger,
        bind, Except.bind, pure, Except.pure]

/-- What is constructed from the fields of a class. -/
lemma constructExpression_serialize
    (hcount : ∀ count, n.argumentCount = some count → arguments.length = count)
    (hnode : n.Admits arguments) :
    constructExpression (n.serialize result) arguments n.expressionType =
      .ok (.node n.decoded arguments) := by
  cases n with
  | binaryPredicate condition =>
    exact constructPredicateExpression_eq_ok (hcount 2 rfl) (.inl ⟨rfl, hnode, rfl⟩)
  | between condition =>
    exact constructPredicateExpression_eq_ok (hcount 3 rfl) (.inr (.inl ⟨rfl, hnode, rfl⟩))
  | inSet condition =>
    exact constructPredicateExpression_eq_ok (hcount 2 rfl) (.inr (.inr (.inl ⟨rfl, hnode, rfl⟩)))
  | isNull condition =>
    exact constructPredicateExpression_eq_ok (hcount 1 rfl) (.inr (.inr (.inr ⟨rfl, hnode, rfl⟩)))
  | unaryMinus =>
    obtain ⟨argument, rfl⟩ := List.length_eq_one_iff.mp (hcount 1 rfl)
    obtain ⟨t, ht, hne⟩ := hnode argument List.mem_cons_self
    simp [constructExpression, ExpressionNode.expressionType, constructUnaryMinusExpression,
      ExpressionNode.decoded, ht, hne, bind, Except.bind, pure, Except.pure]
  | value v =>
    obtain rfl := List.length_eq_zero_iff.mp (hcount 0 rfl)
    exact constructValueExpression_eq_ok hnode
  | pqpColumn columnId dataType isNullable columnName =>
    obtain rfl := List.length_eq_zero_iff.mp (hcount 0 rfl)
    cases isNullable <;>
      simp [constructExpression, ExpressionNode.expressionType, constructPqpColumnExpression,
        ExpressionNode.serialize, ExpressionNode.decoded, getString, getInteger, getObject, asString,
        asInteger, bind, Except.bind, pure, Except.pure, ofInt_toNat]
  | list => rfl
  | _ =>
    have hlen := hcount _ rfl
    simp [constructExpression, ExpressionNode.expressionType, constructAggregateExpression,
      constructArithmeticExpression, constructCaseExpression, constructCastExpression,
      constructExtractExpression, constructLogicalExpression,
      ExpressionNode.serialize, ExpressionNode.decoded, keyExists, getString, getObject, asString,
      hlen, bind, Except.bind, pure, Except.pure]

end Construct

/-- The arguments of an expression that can be constructed are still admitted when they have been
read back. -/
lemma ExpressionNode.Admits.map_decoded {n : ExpressionNode R} {arguments : List (Expression R)}
    (h : n.Admits arguments) : n.Admits (arguments.map Expression.decoded) := by
  cases n with
  | unaryMinus =>
    intro a ha
    obtain ⟨argument, hargument, rfl⟩ := List.mem_map.mp ha
    rw [Expression.getDataType_decoded]
    exact h argument hargument
  | value v =>
    rcases v with - | v
    · trivial
    · cases v <;> exact h
  | _ => exact h

/-- What is read back of an expression. -/
lemma deserializeExpression_serializeExpression {e : Expression R} (he : e.Constructible) :
    deserializeExpression (serializeExpression e) = .ok e.decoded := by
  induction he with
  | node n arguments hcount hnode _ ih =>
    rw [Expression.decoded_node, deserializeExpression]
    have htype : (serializeExpression (Expression.node n arguments)).find "type" =
        some (.string (enumName n.expressionType : Bytes)) := by
      rw [serializeExpression, n.find_serialize (.inl rfl)]
      simp
    have harguments : (serializeExpression (Expression.node n arguments)).getArray "arguments" =
        arguments.map serializeExpression := by
      rw [serializeExpression, getArray, getObject, n.find_serialize (.inr rfl),
        serializeArguments_eq_map]
      simp [asArray]
    have hread : ((serializeExpression (Expression.node n arguments)).getArray
        "arguments").attach.mapM (fun argument => deserializeExpression argument.1) =
          Except.ok (arguments.map Expression.decoded) := by
      rw [List.mapM_subtype fun _ _ => rfl, List.unattach_attach, harguments]
      exact mapM_eq_ok_iff.mpr (List.forall₂_map_left_iff.mpr (List.forall₂_map_right_iff.mpr
        (List.forall₂_same.mpr ih)))
    rw [getString, getObject, htype, keyExists, htype]
    simp only [Option.getD_some, asString, enumCast_enumName, Option.isSome_some, hread, bind,
      Except.bind]
    rw [serializeExpression]
    exact constructExpression_serialize (by simpa using hcount) hnode.map_decoded

/-- An expression without any `StringAggAggregateExpression` in it. -/
inductive Expression.NoStringAgg : Expression R → Prop
  | node (n : ExpressionNode R) (arguments : List (Expression R)) (hn : ∀ sort, n ≠ .stringAgg sort)
      (harguments : ∀ a ∈ arguments, NoStringAgg a) : NoStringAgg (.node n arguments)

omit [FloatingPoint R] in
lemma ExpressionNode.decoded_eq_self_iff {n : ExpressionNode R} :
    n.decoded = n ↔ ∀ sort, n ≠ .stringAgg sort := by
  cases n <;> simp [decoded]

omit [FloatingPoint R] in
lemma Expression.decoded_eq_self_iff {e : Expression R} : e.decoded = e ↔ e.NoStringAgg := by
  induction e with
  | node n arguments ih =>
    rw [decoded_node, Expression.node.injEq, ExpressionNode.decoded_eq_self_iff]
    constructor
    · rintro ⟨hn, harguments⟩
      refine .node n arguments hn fun a ha => (ih a ha).mp ?_
      exact List.map_eq_map_iff.mp (harguments.trans (List.map_id _).symm) a ha
    · intro h
      cases h with
      | node _ _ hn harguments =>
        refine ⟨hn, (List.map_congr_left fun a ha => ?_).trans (List.map_id _)⟩
        exact (ih a ha).mpr (harguments a ha)

/-- **Meaning is preserved**: the expression that is read back is of the same class and evaluates to
the same, whatever its classes make of their fields and arguments, if and only if there is no
`StringAggAggregateExpression` in it. -/
theorem deserializeExpression_same_iff {e : Expression R} (he : e.Constructible) :
    (∃ e', deserializeExpression (serializeExpression e) = .ok e' ∧ e'.root = e.root ∧
      ∀ (β : Type) (interpret : ExpressionNode R → List β → β),
        e'.evaluate interpret = e.evaluate interpret) ↔ e.NoStringAgg := by
  rw [← Expression.decoded_eq_self_iff]
  constructor
  · rintro ⟨e', hread, -, heval⟩
    rw [deserializeExpression_serializeExpression he] at hread
    obtain rfl := Except.ok.inj hread
    have hself := heval (Expression R) .node
    rwa [Expression.evaluate_eq_self, Expression.evaluate_eq_self] at hself
  · intro h
    refine ⟨e, ?_, rfl, fun _ _ => rfl⟩
    rw [deserializeExpression_serializeExpression he, h]

/-- A column of strings. -/
def nameColumn : Expression ℚ := .node (.pqpColumn 0 .string false "name") []

lemma constructible_nameColumn : nameColumn.Constructible :=
  .node (.pqpColumn 0 .string false "name") [] (fun _ h => Option.some.inj h) trivial
    fun _ ha => absurd ha List.not_mem_nil

/-- The number of names is read back. -/
theorem deserializeExpression_same_count :
    ∃ e', deserializeExpression (serializeExpression
        (.node (.aggregate .count) [nameColumn])) = .ok e' ∧
      e'.root = (Expression.node (.aggregate .count) [nameColumn]).root ∧
      ∀ (β : Type) (interpret : ExpressionNode ℚ → List β → β), e'.evaluate interpret =
        (Expression.node (.aggregate .count) [nameColumn]).evaluate interpret := by
  refine (deserializeExpression_same_iff (.node (.aggregate .count) [nameColumn]
    (fun _ h => Option.some.inj h) trivial fun a ha => ?_)).mpr
      (.node (.aggregate .count) [nameColumn] (fun _ h => nomatch h) fun a ha => ?_)
  · rw [List.mem_singleton.mp ha]
    exact constructible_nameColumn
  · rw [List.mem_singleton.mp ha]
    exact .node (.pqpColumn 0 .string false "name") [] (fun _ h => nomatch h)
      fun _ ha => absurd ha List.not_mem_nil

/-- The names in descending order, in one string. -/
def namesDescending : Expression ℚ := .node (.stringAgg (some [⟨0, .descending⟩])) [nameColumn]

/-- The order of the names is not read back. -/
theorem not_deserializeExpression_same : namesDescending.Constructible ∧
    ¬ ∃ e', deserializeExpression (serializeExpression namesDescending) = .ok e' ∧
      e'.root = namesDescending.root ∧
      ∀ (β : Type) (interpret : ExpressionNode ℚ → List β → β),
        e'.evaluate interpret = namesDescending.evaluate interpret := by
  have hconstructible : namesDescending.Constructible := by
    refine .node (.stringAgg _) [nameColumn] (fun _ h => Option.some.inj h) trivial fun a ha => ?_
    rw [List.mem_singleton.mp ha]
    exact constructible_nameColumn
  refine ⟨hconstructible, ?_⟩
  rintro ⟨e', hread, hroot, -⟩
  rw [deserializeExpression_serializeExpression hconstructible] at hread
  obtain rfl := Except.ok.inj hread
  rw [namesDescending, Expression.decoded_node] at hroot
  cases hroot

end Skyrise

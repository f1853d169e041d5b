/-
The cache of the evaluator.

`EvaluateExpressionToResult` looks an expression up in a cache before it evaluates the
expression, and stores the result.  The cache knows the expression alone, and casts
what it finds to the type that is requested.  Here every request is a call under the
expression and the type, with and without the cache.
-/
import Skyrise.Expression.Equality
import Skyrise.Expression.Evaluation.ExpressionEvaluator
import Skyrise.Utils.Memo

namespace Skyrise

variable {R : Type}

/-! ### Equal expressions -/

namespace Expression

section

variable [DecidableEq R]

mutual

/-- `operator==`, with which the cache compares expressions. -/
def equals : Expression R → Expression R → Bool
  | .node n arguments, .node n' arguments' =>
    n.expressionType = n'.expressionType && n.shallowEquals (fun x y => decide (x = y)) n' &&
      equalsAll arguments arguments'

/-- `ExpressionsEqual`. -/
def equalsAll : List (Expression R) → List (Expression R) → Bool
  | [], [] => true
  | e :: es, e' :: es' => equals e e' && equalsAll es es'
  | _, _ => false

end

lemma shallowEquals_refl (n : ExpressionNode R) :
    n.shallowEquals (fun x y => decide (x = y)) n = true := by
  cases n with
  | value v =>
    rcases v with _ | v
    · rfl
    · cases v <;> simp [ExpressionNode.shallowEquals, dataTypeFromAllTypeVariant, Value.dataType,
        variantEquals]
  | _ => simp [ExpressionNode.shallowEquals, ExpressionNode.aggregateFunction?,
      ExpressionNode.predicateCondition?]

lemma equals_refl (e : Expression R) : equals e e = true := by
  induction e with
  | node n arguments ih =>
    rw [equals, shallowEquals_refl, decide_eq_true rfl, Bool.true_and, Bool.true_and]
    induction arguments with
    | nil => rw [equalsAll]
    | cons a arguments ihs =>
      rw [List.forall_mem_cons] at ih
      rw [equalsAll, ih.1, ihs ih.2, Bool.true_and]

lemma equal_of_equals {e e' : Expression R} (h : equals e e' = true) :
    Equal (fun x y => decide (x = y)) e e' := by
  induction e generalizing e' with
  | node n arguments ih =>
    obtain ⟨n', arguments'⟩ := e'
    rw [equals, Bool.and_eq_true, Bool.and_eq_true, decide_eq_true_iff] at h
    obtain ⟨⟨htype, hshallow⟩, harguments⟩ := h
    refine .fields htype hshallow ?_
    clear htype hshallow
    induction arguments generalizing arguments' with
    | nil =>
      cases arguments' with
      | nil => exact .nil
      | cons a' arguments' => simp [equalsAll] at harguments
    | cons a arguments ihs =>
      cases arguments' with
      | nil => simp [equalsAll] at harguments
      | cons a' arguments' =>
        rw [List.forall_mem_cons] at ih
        rw [equalsAll, Bool.and_eq_true] at harguments
        exact .cons (ih.1 harguments.1) (ihs ih.2 arguments' harguments.2)

/-- **The comparison of the cache is the equality of expressions.** -/
theorem equals_iff {e e' : Expression R} :
    equals e e' = true ↔ Equal (fun x y => decide (x = y)) e e' := by
  refine ⟨equal_of_equals, fun h => ?_⟩
  induction e generalizing e' with
  | node n arguments ih =>
    cases h with
    | same => exact equals_refl _
    | @fields _ n' _ arguments' htype hshallow harguments =>
      rw [equals, decide_eq_true htype, hshallow, Bool.true_and, Bool.true_and]
      clear htype hshallow
      induction harguments with
      | nil => rw [equalsAll]
      | cons ha _ ihs =>
        rw [List.forall_mem_cons] at ih
        rw [equalsAll, ih.1 ha, ihs ih.2, Bool.true_and]

end

/-- The expressions without aggregates that can be constructed. -/
inductive Cacheable [FloatingPoint R] : Expression R → Prop
  | node {n : ExpressionNode R} {arguments : List (Expression R)} (hnode : n.Admits arguments)
      (haggregate : n.expressionType ≠ .aggregate)
      (harguments : ∀ a ∈ arguments, Cacheable a) : Cacheable (.node n arguments)

/-- Equal expressions without aggregates are the same. -/
lemma Cacheable.eq_of_equals [FloatingPoint R] {e e' : Expression R} (h : Cacheable e)
    (h' : Cacheable e') (heq : equals e e' = true) : e = e' := by
  induction e generalizing e' with
  | node n arguments ih =>
    obtain ⟨n', arguments'⟩ := e'
    obtain ⟨hnode, haggregate, harguments⟩ := h
    obtain ⟨hnode', -, harguments'⟩ := h'
    rw [equals, Bool.and_eq_true, Bool.and_eq_true] at heq
    obtain ⟨⟨-, hshallow⟩, hall⟩ := heq
    have hagrees : n.AgreesBeyondEquality n' := by
      rcases ExpressionNode.shallowEquals_cases hshallow with rfl | ⟨f, hn, -⟩ |
        ⟨condition, hn, hn'⟩ | ⟨v, w, rfl, rfl, hvw⟩
      · exact ExpressionNode.AgreesBeyondEquality.refl n
      · cases n <;> simp_all [ExpressionNode.aggregateFunction?, ExpressionNode.expressionType]
      · rw [ExpressionNode.eq_of_predicateCondition hn hn' hnode hnode']
        exact ExpressionNode.AgreesBeyondEquality.refl n'
      · rcases v with _ | v
        · cases hvw
        · rcases w with _ | w
          · cases v <;> cases hvw
          · cases v <;> cases w <;> simp_all [variantEquals, ExpressionNode.AgreesBeyondEquality]
    obtain rfl := ExpressionNode.eq_of_agrees hshallow hagrees hnode hnode'
    congr 1
    clear hshallow hagrees hnode hnode' haggregate
    induction arguments generalizing arguments' with
    | nil =>
      cases arguments' with
      | nil => rfl
      | cons a' arguments' => simp [equalsAll] at hall
    | cons a arguments ihs =>
      cases arguments' with
      | nil => simp [equalsAll] at hall
      | cons a' arguments' =>
        rw [List.forall_mem_cons] at ih harguments harguments'
        rw [equalsAll, Bool.and_eq_true] at hall
        rw [ih.1 harguments.1 harguments'.1 hall.1,
          ihs ih.2 arguments' harguments.2 harguments'.2 hall.2]

end Expression

/-! ### Requests -/

/-- The requests of an evaluation: expressions with the types that are requested. -/
abbrev Requests (R : Type) := Calls (Expression R) DataType Exception (ExpressionResult R)

section

variable [FloatingPoint R]

/-- `ResolveToExpressionResult`. -/
def resolveRequests (e : Expression R) (body : DataType → Requests R)
    (next : ExpressionResult R → Requests R) : Requests R :=
  if e.root.expressionType = .list then
    .done (.error (.assertionFailed "Cannot resolve ListExpression to ExpressionResult."))
  else
    match e.getDataType with
    | .ok t =>
      if t = .null then next ⟨.null, [DataType.null.defaultValue], [true]⟩
      else .call e t (body t) next
    | .error x => .done (.error x)

/-- `ResolveToExpressionResults`. -/
def resolveBoth (left right : Expression R) (leftBody rightBody : DataType → Requests R)
    (next : ExpressionResult R → ExpressionResult R → Except Exception (ExpressionResult R)) :
    Requests R :=
  resolveRequests left leftBody fun l => resolveRequests right rightBody fun r => .done (next l r)

/-- `EvaluateBinaryPredicateExpression`, which flips the operands of larger and larger or equal. -/
def binaryRequests (condition : PredicateCondition) (left right : Expression R)
    (leftBody rightBody : DataType → Requests R) (t : DataType) : Requests R :=
  if t = .int then
    match comparisonOf condition with
    | some (c, false) => resolveBoth left right leftBody rightBody fun l r =>
        evaluateBinaryWithDefaultNullLogic c (.ok l) (.ok r)
    | some (c, true) => resolveBoth right left rightBody leftBody fun r l =>
        evaluateBinaryWithDefaultNullLogic c (.ok r) (.ok l)
    | none => .done (.error (.assertionFailed "Predicate kLike and kNotLike not supported yet."))
  else .done (.error (.assertionFailed "Can only evaluate predicates to bool."))

/-- `EvaluateLogicalExpression`. -/
def logicalRequests (logicalOperator : LogicalOperator) (left right : Expression R)
    (leftBody rightBody : DataType → Requests R) (t : DataType) : Requests R :=
  if t = .int then
    resolveBoth left right leftBody rightBody fun l r =>
      evaluateLogicalExpression logicalOperator (.ok l) (.ok r)
  else .done (.error (.assertionFailed "LogicalExpression can only output bool."))

/-- A comparison that `RewriteBetweenExpression` and `RewriteInListExpression` build. -/
def comparisonExpression (condition : PredicateCondition) (left right : Expression R) :
    Expression R :=
  .node (.binaryPredicate condition) [left, right]

/-- A conjunction or disjunction that they build. -/
def logicalExpression (logicalOperator : LogicalOperator) (left right : Expression R) :
    Expression R :=
  .node (.logical logicalOperator) [left, right]

/-- A BETWEEN is rewritten to a conjunction, which is requested. -/
def betweenRequests (condition : PredicateCondition) (value lower upper : Expression R)
    (valueBody lowerBody upperBody : DataType → Requests R) (t : DataType) : Requests R :=
  if t = .int then
    let left := comparisonExpression (lowerCondition condition) value lower
    let right := comparisonExpression (upperCondition condition) value upper
    .call (logicalExpression .and left right) .int
      (logicalRequests .and left right
        (binaryRequests (lowerCondition condition) value lower valueBody lowerBody)
        (binaryRequests (upperCondition condition) value upper valueBody upperBody) .int)
      fun r => .done (.ok r)
  else .done (.error (.assertionFailed "Can only evaluate predicates to bool."))

/-- An element of a list with what it requests. -/
abbrev RequestElement (R : Type) := Expression R × (DataType → Requests R)

/-- The comparison with an element in `RewriteInListExpression`, with what it requests. -/
def compareElement (negated : Bool) (value : Expression R) (valueBody : DataType → Requests R)
    (element : RequestElement R) : RequestElement R :=
  let condition := if negated then PredicateCondition.notEquals else .equals
  (comparisonExpression condition value element.1,
    binaryRequests condition value element.1 valueBody element.2)

/-- The conjunction or disjunction with a comparison in `RewriteInListExpression`. -/
def extendRewritten (negated : Bool) (rewritten comparison : RequestElement R) : RequestElement R :=
  let logicalOperator := if negated then LogicalOperator.and else .or
  (logicalExpression logicalOperator rewritten.1 comparison.1,
    logicalRequests logicalOperator rewritten.1 comparison.1 rewritten.2 comparison.2)

/-- `RewriteInListExpression`, with what the expression requests. -/
def rewriteInListExpression (negated : Bool) (value : Expression R)
    (valueBody : DataType → Requests R) (first : RequestElement R)
    (rest : List (RequestElement R)) : RequestElement R :=
  rest.foldl (fun rewritten element =>
    extendRewritten negated rewritten (compareElement negated value valueBody element))
    (compareElement negated value valueBody first)

/-- Searching the values of a list at the view of a result. -/
def searchValues (negated : Bool) (rightValues : List (Value R)) (result : ExpressionResult R) :
    Except Exception (ExpressionResult R) := do
  let cells ← (List.range result.asView.size).mapM fun i => do
    let null ← if result.asView.isNullable then result.asView.isNull i else .ok false
    let v ← result.asView.value i
    return (if null then negated else if v ∈ rightValues then !negated else negated, null)
  return ⟨.int, cells.map fun cell => .ofBool cell.1,
    if result.asView.isNullable then cells.map Prod.snd else []⟩

/-- `EvaluateInExpression` with a list. -/
def inRequests (negated : Bool) (value : Expression R) (valueBody : DataType → Requests R)
    (elements : List (RequestElement R)) (t : DataType) : Requests R :=
  if t = .int then
    if elements.isEmpty then .done (.ok ⟨.int, [.ofBool negated], []⟩)
    else
      match value.getDataType with
      | .error x => .done (.error x)
      | .ok valueType =>
        if valueType = .null then .done (.ok ⟨.int, [.int 0], [true]⟩)
        else
          match elements.mapM fun element => element.1.getDataType with
          | .error x => .done (.error x)
          | .ok types =>
            match ((elements.zip types).filter fun element =>
              (element.2 = .string) == (valueType = .string)).map Prod.fst with
            | [] => .done (.ok ⟨.int, [.ofBool negated], []⟩)
            | first :: rest =>
              if elements.all fun element => isValueOfType valueType element.1 then
                -- only the value is requested
                resolveRequests value valueBody fun r => .done (searchValues negated
                  ((first :: rest).filterMap fun element => literalOf element.1) r)
              else
                let rewritten := rewriteInListExpression negated value valueBody first rest
                .call rewritten.1 .int (rewritten.2 .int) fun r => .done (.ok r)
  else .done (.error (.assertionFailed "Can only evaluate predicates to bool."))

variable (combine : ExpressionNode R → DataType → List (ExpressionResult R) →
  Except Exception (ExpressionResult R)) (table : Table R) (chunkId : ℕ)

mutual

/-- What `EvaluateExpressionToResult` requests of the parts of an expression that is not found in
the cache; `combine` is what arithmetic expressions, CASE, casts, EXTRACT and the unary minus make
of the results of their arguments. -/
def requests : Expression R → DataType → Requests R
  | .node (.pqpColumn columnId _ _ _) _, t =>
    .done (evaluateColumnExpression table (table.getChunk chunkId) columnId.toNat t)
  | .node (.value v) _, t => .done (evaluateValueExpression v t)
  | .node (.logical logicalOperator) [left, right], t =>
    logicalRequests logicalOperator left right (requests left) (requests right) t
  | .node (.binaryPredicate condition) [left, right], t =>
    binaryRequests condition left right (requests left) (requests right) t
  | .node (.between condition) [value, lower, upper], t =>
    betweenRequests condition value lower upper (requests value) (requests lower) (requests upper) t
  | .node (.inSet condition) [value, .node .list elements], t =>
    inRequests (condition = .notIn) value (requests value) (listRequests elements) t
  | .node (.inSet condition) [value, set], t =>
    inRequests (condition = .notIn) value (requests value) [(set, requests set)] t
  | .node (.isNull condition) [operand], t =>
    if t = .int then
      resolveRequests operand (requests operand) fun r =>
        .done (evaluateIsNullExpression condition (.ok r))
    else .done (.error (.assertionFailed "Can only evaluate predicates to bool."))
  | .node .case [when, thenExpression, otherwise], t =>
    -- the condition is requested as a boolean whatever its type is
    .call when .int (requests when .int) fun condition =>
      resolveBoth thenExpression otherwise (requests thenExpression) (requests otherwise)
        fun thenResult otherwiseResult => combine .case t [condition, thenResult, otherwiseResult]
  | .node (.extract datetimeComponent) [fromOperand], t =>
    if t = .string then
      .call fromOperand .string (requests fromOperand .string) fun r =>
        .done (combine (.extract datetimeComponent) t [r])
    else .done (.error (.assertionFailed "Only Strings (YYYY-MM-DD) supported for Dates."))
  | .node (.cast dataType) [argument], t =>
    resolveRequests argument (requests argument) fun r => .done (combine (.cast dataType) t [r])
  | .node .unaryMinus [argument], t =>
    resolveRequests argument (requests argument) fun r => .done (combine .unaryMinus t [r])
  | .node (.arithmetic arithmeticOperator) [left, right], t =>
    resolveBoth left right (requests left) (requests right) fun l r =>
      combine (.arithmetic arithmeticOperator) t [l, r]
  | .node .list _, _ => .done (.error (.assertionFailed
      "Cannot evaluate a ListExpression. Lists should only appear as the right operand of an InExpression."))
  | _, _ => .done (.error (.assertionFailed
      "ExpressionEvaluator does not support Aggregates. Use the Aggregate Operator to compute them."))

/-- What is requested of the elements of a list. -/
def listRequests : List (Expression R) → List (RequestElement R)
  | [] => []
  | e :: elements => (e, requests e) :: listRequests elements

end

/-- `EvaluateExpressionToResult` of one evaluator, for one expression after the other. -/
def evaluations : Expression R × DataType → List (Expression R × DataType) → Requests R
  | (e, t), [] => .call e t (requests combine table chunkId e t) fun r => .done (.ok r)
  | (e, t), next :: rest =>
    .call e t (requests combine table chunkId e t) fun _ => evaluations next rest

end

/-! ### What is requested is smaller -/

mutual

/-- A weight that is larger than those of the parts of an expression, and of the expressions that
it is rewritten to. -/
def Expression.weight : Expression R → ℕ
  | .node (.between _) arguments => 4 + 2 * weights arguments
  | .node (.inSet _) arguments => (4 + weights arguments) * (4 + weights arguments)
  | .node _ arguments => 1 + weights arguments

/-- The sum of the weights. -/
def weights : List (Expression R) → ℕ
  | [] => 0
  | e :: es => e.weight + weights es

end

lemma Expression.weight_pos (e : Expression R) : 0 < e.weight := by
  obtain ⟨n, arguments⟩ := e
  cases n <;> simp [Expression.weight]

lemma weight_le_weights {e : Expression R} {es : List (Expression R)} (h : e ∈ es) :
    e.weight ≤ weights es := by
  induction es with
  | nil => cases h
  | cons a es ih =>
    rw [weights]
    rcases List.mem_cons.mp h with rfl | h
    · omega
    · have := ih h
      omega

lemma weight_lt_of_mem {n : ExpressionNode R} {arguments : List (Expression R)} {e : Expression R}
    (h : e ∈ arguments) : e.weight < (Expression.node n arguments).weight := by
  have hle := weight_le_weights h
  cases n <;> simp only [Expression.weight] <;> nlinarith

lemma weights_le_of_sublist {es es' : List (Expression R)} (h : es.Sublist es') :
    weights es ≤ weights es' := by
  induction h with
  | slnil => rfl
  | cons a _ ih =>
    rw [weights]
    omega
  | cons_cons a _ ih =>
    rw [weights, weights]
    omega

section

variable [FloatingPoint R] {combine : ExpressionNode R → DataType → List (ExpressionResult R) →
  Except Exception (ExpressionResult R)} {table : Table R} {chunkId n : ℕ}
  {e left right : Expression R} {leftBody rightBody : DataType → Requests R}

/-- An expression whose requests are requests of smaller expressions, for what these request. -/
structure IsRequestable (combine : ExpressionNode R → DataType → List (ExpressionResult R) →
    Except Exception (ExpressionResult R)) (table : Table R) (chunkId : ℕ) (e : Expression R) :
    Prop where
  cacheable : e.Cacheable
  coherent : ∀ t, Calls.Coherent (requests combine table chunkId) Expression.Cacheable
    Expression.weight e.weight (requests combine table chunkId e t)

lemma coherent_resolveRequests (he : IsRequestable combine table chunkId e) (hlt : e.weight < n)
    {next : ExpressionResult R → Requests R}
    (hnext : ∀ r, Calls.Coherent (requests combine table chunkId) Expression.Cacheable
      Expression.weight n (next r)) :
    Calls.Coherent (requests combine table chunkId) Expression.Cacheable Expression.weight n
      (resolveRequests e (requests combine table chunkId e) next) := by
  rw [resolveRequests]
  split
  · exact .done n _
  · split
    · split
      · exact hnext _
      · exact .call he.cacheable hlt (he.coherent _) hnext
    · exact .done n _

lemma coherent_resolveBoth (hl : IsRequestable combine table chunkId left)
    (hr : IsRequestable combine table chunkId right) (hltl : left.weight < n)
    (hltr : right.weight < n)
    {next : ExpressionResult R → ExpressionResult R → Except Exception (ExpressionResult R)} :
    Calls.Coherent (requests combine table chunkId) Expression.Cacheable Expression.weight n
      (resolveBoth left right (requests combine table chunkId left)
        (requests combine table chunkId right) next) :=
  coherent_resolveRequests hl hltl fun _ => coherent_resolveRequests hr hltr fun _ => .done n _

lemma coherent_binaryRequests {condition : PredicateCondition} {t : DataType}
    (hl : IsRequestable combine table chunkId left) (hr : IsRequestable combine table chunkId right)
    (hltl : left.weight < n) (hltr : right.weight < n) :
    Calls.Coherent (requests combine table chunkId) Expression.Cacheable Expression.weight n
      (binaryRequests condition left right (requests combine table chunkId left)
        (requests combine table chunkId right) t) := by
  rw [binaryRequests]
  split
  · split
    · exact coherent_resolveBoth hl hr hltl hltr
    · exact coherent_resolveBoth hr hl hltr hltl
    · exact .done n _
  · exact .done n _

lemma coherent_logicalRequests {logicalOperator : LogicalOperator} {t : DataType}
    (hl : IsRequestable combine table chunkId left) (hr : IsRequestable combine table chunkId right)
    (hltl : left.weight < n) (hltr : right.weight < n) :
    Calls.Coherent (requests combine table chunkId) Expression.Cacheable Expression.weight n
      (logicalRequests logicalOperator left right (requests combine table chunkId left)
        (requests combine table chunkId right) t) := by
  rw [logicalRequests]
  split
  · exact coherent_resolveBoth hl hr hltl hltr
  · exact .done n _

lemma requests_comparisonExpression (condition : PredicateCondition) (left right : Expression R) :
    requests combine table chunkId (comparisonExpression condition left right) =
      binaryRequests condition left right (requests combine table chunkId left)
        (requests combine table chunkId right) := by
  funext t
  rw [comparisonExpression, requests]

lemma requests_logicalExpression (logicalOperator : LogicalOperator) (left right : Expression R) :
    requests combine table chunkId (logicalExpression logicalOperator left right) =
      logicalRequests logicalOperator left right (requests combine table chunkId left)
        (requests combine table chunkId right) := by
  funext t
  rw [logicalExpression, requests]

omit [FloatingPoint R] in
lemma weight_comparisonExpression (condition : PredicateCondition) (left right : Expression R) :
    (comparisonExpression condition left right).weight = 1 + (left.weight + right.weight) := by
  simp [comparisonExpression, Expression.weight, weights]

omit [FloatingPoint R] in
lemma weight_logicalExpression (logicalOperator : LogicalOperator) (left right : Expression R) :
    (logicalExpression logicalOperator left right).weight = 1 + (left.weight + right.weight) := by
  simp [logicalExpression, Expression.weight, weights]

lemma cacheable_comparisonExpression {condition : PredicateCondition}
    (hcondition : condition.isBinary = true) (hl : left.Cacheable) (hr : right.Cacheable) :
    (comparisonExpression condition left right).Cacheable :=
  .node hcondition (by simp [ExpressionNode.expressionType])
    (List.forall_mem_cons.mpr ⟨hl, List.forall_mem_singleton.mpr hr⟩)

lemma cacheable_logicalExpression {logicalOperator : LogicalOperator} (hl : left.Cacheable)
    (hr : right.Cacheable) : (logicalExpression logicalOperator left right).Cacheable :=
  .node trivial (by simp [ExpressionNode.expressionType])
    (List.forall_mem_cons.mpr ⟨hl, List.forall_mem_singleton.mpr hr⟩)

lemma isRequestable_comparisonExpression {condition : PredicateCondition}
    (hcondition : condition.isBinary = true) (hl : IsRequestable combine table chunkId left)
    (hr : IsRequestable combine table chunkId right) :
    IsRequestable combine table chunkId (comparisonExpression condition left right) := by
  refine ⟨cacheable_comparisonExpression hcondition hl.cacheable hr.cacheable, fun t => ?_⟩
  rw [requests_comparisonExpression]
  exact coherent_binaryRequests hl hr (by rw [weight_comparisonExpression]; omega)
    (by rw [weight_comparisonExpression]; omega)

lemma isRequestable_logicalExpression (logicalOperator : LogicalOperator)
    (hl : IsRequestable combine table chunkId left)
    (hr : IsRequestable combine table chunkId right) :
    IsRequestable combine table chunkId (logicalExpression logicalOperator left right) := by
  refine ⟨cacheable_logicalExpression hl.cacheable hr.cacheable, fun t => ?_⟩
  rw [requests_logicalExpression]
  exact coherent_logicalRequests hl hr (by rw [weight_logicalExpression]; omega)
    (by rw [weight_logicalExpression]; omega)

/-- A BETWEEN is rewritten to comparisons. -/
lemma isBinary_betweenConditions (condition : PredicateCondition) :
    (lowerCondition condition).isBinary = true ∧ (upperCondition condition).isBinary = true := by
  rw [lowerCondition, upperCondition]
  constructor <;> split <;> rfl

lemma coherent_betweenRequests {condition : PredicateCondition} {value lower upper : Expression R}
    {t : DataType} (hv : IsRequestable combine table chunkId value)
    (hl : IsRequestable combine table chunkId lower) (hu : IsRequestable combine table chunkId upper)
    (hn : 4 + 2 * (value.weight + lower.weight + upper.weight) ≤ n) :
    Calls.Coherent (requests combine table chunkId) Expression.Cacheable Expression.weight n
      (betweenRequests condition value lower upper (requests combine table chunkId value)
        (requests combine table chunkId lower) (requests combine table chunkId upper) t) := by
  obtain ⟨hlower, hupper⟩ := isBinary_betweenConditions condition
  have hrewritten := isRequestable_logicalExpression .and
    (isRequestable_comparisonExpression hlower hv hl)
    (isRequestable_comparisonExpression hupper hv hu)
  have hweight : (logicalExpression .and
      (comparisonExpression (lowerCondition condition) value lower)
      (comparisonExpression (upperCondition condition) value upper)).weight < n := by
    rw [weight_logicalExpression, weight_comparisonExpression, weight_comparisonExpression]
    omega
  rw [betweenRequests]
  split
  · dsimp only
    rw [← requests_comparisonExpression, ← requests_comparisonExpression,
      ← requests_logicalExpression]
    exact .call hrewritten.cacheable hweight (hrewritten.coherent _) fun _ => .done n _
  · exact .done n _

/-- An element of a list that requests what its expression requests. -/
def IsElement (combine : ExpressionNode R → DataType → List (ExpressionResult R) →
    Except Exception (ExpressionResult R)) (table : Table R) (chunkId : ℕ)
    (element : RequestElement R) : Prop :=
  IsRequestable combine table chunkId element.1 ∧ element.2 = requests combine table chunkId element.1

lemma isElement_compareElement (negated : Bool) {value : Expression R}
    {element : RequestElement R} (hv : IsRequestable combine table chunkId value)
    (h : IsElement combine table chunkId element) : IsElement combine table chunkId
      (compareElement negated value (requests combine table chunkId value) element) := by
  obtain ⟨he, hbody⟩ := h
  refine ⟨isRequestable_comparisonExpression (by cases negated <;> rfl) hv he, ?_⟩
  rw [compareElement, hbody]
  exact (requests_comparisonExpression _ _ _).symm

lemma isElement_extendRewritten (negated : Bool) {rewritten comparison : RequestElement R}
    (h : IsElement combine table chunkId rewritten)
    (h' : IsElement combine table chunkId comparison) :
    IsElement combine table chunkId (extendRewritten negated rewritten comparison) := by
  refine ⟨isRequestable_logicalExpression _ h.1 h'.1, ?_⟩
  rw [extendRewritten, h.2, h'.2]
  exact (requests_logicalExpression _ _ _).symm

/-- The rewritten expression requests what its parts request, and is no larger than a product. -/
lemma rewriteInListExpression_spec (negated : Bool) {value : Expression R}
    {first : RequestElement R} {rest : List (RequestElement R)}
    (hv : IsRequestable combine table chunkId value)
    (hfirst : IsElement combine table chunkId first)
    (hrest : ∀ element ∈ rest, IsElement combine table chunkId element) :
    IsElement combine table chunkId
        (rewriteInListExpression negated value (requests combine table chunkId value) first rest) ∧
      (rewriteInListExpression negated value (requests combine table chunkId value) first
        rest).1.weight + 1 ≤ (3 + value.weight) * weights ((first :: rest).map Prod.fst) := by
  have hfold : ∀ (rest : List (RequestElement R)) (rewritten : RequestElement R) (total : ℕ),
      (∀ element ∈ rest, IsElement combine table chunkId element) →
      IsElement combine table chunkId rewritten →
      rewritten.1.weight + 1 ≤ (3 + value.weight) * total →
      IsElement combine table chunkId (rest.foldl (fun rewritten element => extendRewritten negated
        rewritten (compareElement negated value (requests combine table chunkId value) element))
          rewritten) ∧
      (rest.foldl (fun rewritten element => extendRewritten negated rewritten
        (compareElement negated value (requests combine table chunkId value) element))
          rewritten).1.weight + 1 ≤
        (3 + value.weight) * (total + weights (rest.map Prod.fst)) := by
    intro rest
    induction rest with
    | nil => exact fun rewritten total _ h hle => ⟨h, by simpa [weights] using hle⟩
    | cons element rest ih =>
      intro rewritten total hrest hrewritten hle
      rw [List.forall_mem_cons] at hrest
      have hpos := Expression.weight_pos element.1
      obtain ⟨hspec, hweight⟩ := ih _ (total + element.1.weight) hrest.2
        (isElement_extendRewritten negated hrewritten
          (isElement_compareElement negated hv hrest.1)) (by
          rw [extendRewritten, compareElement, weight_logicalExpression,
            weight_comparisonExpression]
          nlinarith)
      refine ⟨hspec, hweight.trans (le_of_eq ?_)⟩
      rw [List.map_cons, weights, Nat.add_assoc]
  have hpos := Expression.weight_pos first.1
  refine hfold rest _ first.1.weight hrest (isElement_compareElement negated hv hfirst) ?_
  rw [compareElement, weight_comparisonExpression]
  nlinarith

lemma coherent_inRequests {negated : Bool} {value : Expression R}
    {elements : List (RequestElement R)} {t : DataType}
    (hv : IsRequestable combine table chunkId value)
    (helements : ∀ element ∈ elements, IsElement combine table chunkId element)
    (hn : (4 + (value.weight + weights (elements.map Prod.fst))) *
      (4 + (value.weight + weights (elements.map Prod.fst))) ≤ n) :
    Calls.Coherent (requests combine table chunkId) Expression.Cacheable Expression.weight n
      (inRequests negated value (requests combine table chunkId value) elements t) := by
  rw [inRequests]
  split
  case isFalse => exact .done n _
  case isTrue =>
    split
    · exact .done n _
    · split
      · exact .done n _
      · split
        · exact .done n _
        · split
          · exact .done n _
          · next valueType _ _ _ types htypes =>
            split
            · exact .done n _
            · next first rest hcompatible =>
              have hsub : (first :: rest).Sublist elements := by
                rw [← hcompatible]
                refine (List.filter_sublist.map Prod.fst).trans ?_
                rw [List.map_fst_zip (mapM_eq_ok_iff.mp htypes).length_eq.le]
              split
              · refine coherent_resolveRequests hv ?_ fun _ => .done n _
                nlinarith
              · obtain ⟨⟨hr, hbody⟩, hweight⟩ := rewriteInListExpression_spec negated hv
                  (helements first (hsub.subset List.mem_cons_self))
                  (fun element h => helements element (hsub.subset (List.mem_cons_of_mem _ h)))
                have hle := weights_le_of_sublist (hsub.map Prod.fst)
                dsimp only
                rw [hbody]
                refine .call hr.cacheable ?_ (hr.coherent _) fun _ => .done n _
                nlinarith

lemma listRequests_eq (elements : List (Expression R)) :
    listRequests combine table chunkId elements =
      elements.map fun e => (e, requests combine table chunkId e) := by
  induction elements with
  | nil => rw [listRequests, List.map_nil]
  | cons e elements ih => rw [listRequests, ih, List.map_cons]

variable (combine table chunkId) in
/-- What an expression without aggregates requests are smaller expressions, and so it is for its
arguments. -/
lemma isRequestable_of_cacheable (h : e.Cacheable) : IsRequestable combine table chunkId e ∧
    ∀ a ∈ e.arguments, IsRequestable combine table chunkId a := by
  induction h with
  | @node node arguments hnode haggregate harguments ihboth =>
    have ih : ∀ a ∈ arguments, IsRequestable combine table chunkId a := fun a ha => (ihboth a ha).1
    refine ⟨⟨.node hnode haggregate harguments, fun t => ?_⟩, ih⟩
    have hlt : ∀ a ∈ arguments, a.weight < (Expression.node node arguments).weight :=
      fun a ha => weight_lt_of_mem ha
    unfold requests
    split
    · exact .done _ _
    · exact .done _ _
    · next logicalOperator left right heq =>
      cases heq
      simp only [List.forall_mem_cons] at ih hlt
      exact coherent_logicalRequests ih.1 ih.2.1 hlt.1 hlt.2.1
    · next condition left right heq =>
      cases heq
      simp only [List.forall_mem_cons] at ih hlt
      exact coherent_binaryRequests ih.1 ih.2.1 hlt.1 hlt.2.1
    · next condition value lower upper heq =>
      cases heq
      simp only [List.forall_mem_cons] at ih
      refine coherent_betweenRequests ih.1 ih.2.1 ih.2.2.1 ?_
      simp [Expression.weight, weights]
      omega
    · next condition value elements heq =>
      cases heq
      simp only [List.forall_mem_cons] at ih ihboth
      -- the elements of the list are requested, not the list
      have helements : ∀ a ∈ elements, IsRequestable combine table chunkId a := ihboth.2.1.2
      rw [listRequests_eq]
      refine coherent_inRequests ih.1 ?_ ?_
      · intro element helement
        obtain ⟨a, ha, rfl⟩ := List.mem_map.mp helement
        exact ⟨helements a ha, rfl⟩
      · have hmap : (elements.map fun a => (a, requests combine table chunkId a)).map Prod.fst =
            elements := by
          rw [List.map_map]
          exact List.map_id elements
        rw [hmap, Expression.weight, weights, weights, weights, Expression.weight]
        · exact Nat.mul_le_mul (by omega) (by omega)
        · exact fun _ h => by cases h
        · exact fun _ h => by cases h
    · next condition value set _ heq =>
      cases heq
      simp only [List.forall_mem_cons] at ih
      refine coherent_inRequests ih.1 ?_ ?_
      · intro element helement
        rw [List.mem_singleton.mp helement]
        exact ⟨ih.2.1, rfl⟩
      · simp [Expression.weight, weights]
    · next condition operand heq =>
      cases heq
      simp only [List.forall_mem_cons] at ih hlt
      split
      · exact coherent_resolveRequests ih.1 hlt.1 fun _ => .done _ _
      · exact .done _ _
    · next when thenExpression otherwise heq =>
      cases heq
      simp only [List.forall_mem_cons] at ih hlt
      exact .call ih.1.cacheable hlt.1 (ih.1.coherent _) fun _ =>
        coherent_resolveBoth ih.2.1 ih.2.2.1 hlt.2.1 hlt.2.2.1
    · next datetimeComponent fromOperand heq =>
      cases heq
      simp only [List.forall_mem_cons] at ih hlt
      split
      · exact .call ih.1.cacheable hlt.1 (ih.1.coherent _) fun _ => .done _ _
      · exact .done _ _
    · next dataType argument heq =>
      cases heq
      simp only [List.forall_mem_cons] at ih hlt
      exact coherent_resolveRequests ih.1 hlt.1 fun _ => .done _ _
    · next argument heq =>
      cases heq
      simp only [List.forall_mem_cons] at ih hlt
      exact coherent_resolveRequests ih.1 hlt.1 fun _ => .done _ _
    · next arithmeticOperator left right heq =>
      cases heq
      simp only [List.forall_mem_cons] at ih hlt
      exact coherent_resolveBoth ih.1 ih.2.1 hlt.1 hlt.2.1
    · exact .done _ _
    · exact .done _ _

/-! ### The evaluation without the cache -/

lemma run_resolveRequests (e : Expression R) (body : DataType → Requests R)
    (next : ExpressionResult R → Requests R) : (resolveRequests e body next).run =
      resolveToExpressionResult e (fun t => (body t).run) >>= fun r => (next r).run := by
  rw [resolveRequests, resolveToExpressionResult]
  split
  · next hlist =>
    simp only [hlist, ne_eq, not_true_eq_false, decide_false]
    rfl
  · next hlist =>
    simp only [hlist, ne_eq, not_false_eq_true, decide_true, assert_true]
    cases e.getDataType with
    | error x => rfl
    | ok t =>
      dsimp only
      show Calls.run (if t = .null then _ else _) = (if t = .null then _ else (body t).run) >>= _
      split
      · rfl
      · rw [Calls.run]
        cases (body t).run <;> rfl

lemma run_resolveBoth (left right : Expression R) (leftBody rightBody : DataType → Requests R)
    (next : ExpressionResult R → ExpressionResult R → Except Exception (ExpressionResult R)) :
    (resolveBoth left right leftBody rightBody next).run = (do
      let l ← resolveToExpressionResult left fun t => (leftBody t).run
      let r ← resolveToExpressionResult right fun t => (rightBody t).run
      next l r) := by
  rw [resolveBoth, run_resolveRequests]
  congr 1
  funext l
  rw [run_resolveRequests]
  rfl

lemma run_binaryRequests (condition : PredicateCondition) (left right : Expression R)
    (leftBody rightBody : DataType → Requests R) :
    (binaryRequests condition left right leftBody rightBody .int).run =
      evaluateBinaryPredicateExpression condition
        (resolveToExpressionResult left fun t => (leftBody t).run)
        (resolveToExpressionResult right fun t => (rightBody t).run) := by
  rw [binaryRequests, if_pos rfl, evaluateBinaryPredicateExpression]
  rcases comparisonOf condition with _ | ⟨c, _ | _⟩
  · rfl
  · exact run_resolveBoth left right leftBody rightBody _
  · exact run_resolveBoth right left rightBody leftBody _

lemma run_logicalRequests (logicalOperator : LogicalOperator) (left right : Expression R)
    (leftBody rightBody : DataType → Requests R) :
    (logicalRequests logicalOperator left right leftBody rightBody .int).run =
      evaluateLogicalExpression logicalOperator
        (resolveToExpressionResult left fun t => (leftBody t).run)
        (resolveToExpressionResult right fun t => (rightBody t).run) := by
  rw [logicalRequests, if_pos rfl, run_resolveBoth]
  rfl

omit [FloatingPoint R] in
lemma run_call_done (key : Expression R) (t : DataType) (body : Requests R) :
    (Calls.call key t body fun r => .done (.ok r)).run = body.run := by
  rw [Calls.run]
  cases body.run <;> rfl

lemma run_betweenRequests (condition : PredicateCondition) (value lower upper : Expression R)
    (valueBody lowerBody upperBody : DataType → Requests R) :
    (betweenRequests condition value lower upper valueBody lowerBody upperBody .int).run =
      evaluateLogicalExpression .and
        (evaluateBinaryPredicateExpression (lowerCondition condition)
          (resolveToExpressionResult value fun t => (valueBody t).run)
          (resolveToExpressionResult lower fun t => (lowerBody t).run))
        (evaluateBinaryPredicateExpression (upperCondition condition)
          (resolveToExpressionResult value fun t => (valueBody t).run)
          (resolveToExpressionResult upper fun t => (upperBody t).run)) := by
  rw [betweenRequests, if_pos rfl, ← run_binaryRequests, ← run_binaryRequests]
  dsimp only
  rw [run_call_done, run_logicalRequests]
  rfl

/-- The rewritten expression is evaluated to what `evaluateRewrittenInExpression` says. -/
lemma run_rewriteInListExpression (negated : Bool) (value : Expression R)
    (valueBody : DataType → Requests R) (first : RequestElement R)
    (rest : List (RequestElement R)) :
    ((rewriteInListExpression negated value valueBody first rest).2 .int).run =
      evaluateRewrittenInExpression negated
        (resolveToExpressionResult value fun t => (valueBody t).run)
        ((first :: rest).map fun element => (element.1, fun t => (element.2 t).run)) := by
  have hfold : ∀ (rest : List (RequestElement R)) (rewritten : RequestElement R)
      (result : Except Exception (ExpressionResult R)),
      resolveToExpressionResult rewritten.1 (fun t => (rewritten.2 t).run) = result →
      rewritten.1.getDataType = .ok .int → rewritten.1.root.expressionType ≠ .list →
      ((rest.foldl (fun rewritten element => extendRewritten negated rewritten
          (compareElement negated value valueBody element)) rewritten).2 .int).run =
        (rest.map fun element => (element.1, fun t => (element.2 t).run)).foldl
          (fun result element => evaluateLogicalExpression (if negated then .and else .or) result
            (evaluateBinaryPredicateExpression (if negated then .notEquals else .equals)
              (resolveToExpressionResult value fun t => (valueBody t).run)
              (resolveToExpressionResult element.1 element.2))) result := by
    intro rest
    induction rest with
    | nil =>
      intro rewritten result hresult htype hlist
      have hrun : resolveToExpressionResult rewritten.1 (fun t => (rewritten.2 t).run) =
          (rewritten.2 .int).run := by
        rw [resolveToExpressionResult, htype]
        simp only [hlist, ne_eq, not_false_eq_true, decide_true, assert_true]
        rfl
      exact hrun.symm.trans hresult
    | cons element rest ih =>
      intro rewritten result hresult _ _
      rw [List.foldl_cons, List.map_cons, List.foldl_cons]
      refine ih _ _ ?_ (by cases negated <;> rfl)
        (by simp [extendRewritten, logicalExpression, Expression.root,
          ExpressionNode.expressionType])
      rw [← hresult, ← run_binaryRequests]
      exact run_logicalRequests _ _ _ _ _
  refine hfold rest _ _ ?_ rfl
    (by simp [compareElement, comparisonExpression, Expression.root, ExpressionNode.expressionType])
  exact run_binaryRequests _ _ _ _ _

omit [FloatingPoint R] in
lemma filter_zip_map {α β : Type} (f : α → β) (p : DataType → Bool) (elements : List α)
    (types : List DataType) :
    (((elements.map f).zip types).filter fun element => p element.2).map Prod.fst =
      (((elements.zip types).filter fun element => p element.2).map Prod.fst).map f := by
  induction elements generalizing types with
  | nil => rfl
  | cons element elements ih =>
    cases types with
    | nil => rfl
    | cons t types =>
      rw [List.map_cons, List.zip_cons_cons, List.zip_cons_cons, List.filter_cons, List.filter_cons]
      dsimp only
      split
      · rw [List.map_cons, List.map_cons, List.map_cons, ih]
      · exact ih types

lemma run_inRequests (negated : Bool) (value : Expression R) (valueBody : DataType → Requests R)
    (elements : List (RequestElement R)) :
    (inRequests negated value valueBody elements .int).run =
      evaluateInExpression negated value (fun t => (valueBody t).run)
        (elements.map fun element => (element.1, fun t => (element.2 t).run)) := by
  rw [inRequests, if_pos rfl, evaluateInExpression, List.isEmpty_map]
  split
  · rfl
  · cases htype : value.getDataType with
    | error x => rfl
    | ok valueType =>
      dsimp only
      show _ = (if valueType = .null then _ else _)
      split
      · rfl
      · next hnull =>
        have hmapM : ((elements.map fun element => (element.1, fun t => (element.2 t).run)).mapM
            fun element : InElement R => element.1.getDataType) =
            elements.mapM fun element => element.1.getDataType := by
          rw [List.mapM_map]
          rfl
        rw [hmapM]
        cases htypes : elements.mapM fun element => element.1.getDataType with
        | error x => rfl
        | ok types =>
          have hcompatible := filter_zip_map (fun element : RequestElement R =>
            ((element.1, fun t => (element.2 t).run) : InElement R))
            (fun t => (t = .string) == (valueType = .string)) elements types
          show _ = (if (List.map Prod.fst _).isEmpty then _ else _)
          rw [hcompatible]
          dsimp only
          generalize (List.map Prod.fst (List.filter _ (elements.zip types)) :
            List (RequestElement R)) = compatible
          cases compatible with
          | nil => rfl
          | cons first rest =>
            dsimp only
            show _ = (if (List.map _ elements).all _ = true then _ else _)
            rw [List.all_map]
            show _ = (if (elements.all fun element => isValueOfType valueType element.1) = true
              then _ else _)
            split
            · have hvalues : ((first :: rest).map fun element : RequestElement R =>
                  ((element.1, fun t => (element.2 t).run) : InElement R)).filterMap
                    (fun element => literalOf element.1) =
                  (first :: rest).filterMap fun element => literalOf element.1 := by
                rw [List.filterMap_map]
                rfl
              rw [run_resolveRequests, ← hvalues]
              rfl
            · rw [run_call_done, run_rewriteInListExpression]

variable (combine table chunkId) in
/-- Without the cache, an expression is evaluated as `evaluateExpressionToResult` says for the
results of what is no predicate, and so are its arguments. -/
lemma run_requests_and_arguments (h : e.Cacheable) : (∀ t, (requests combine table chunkId e t).run =
    evaluateExpressionToResult (fun e t => (requests combine table chunkId e t).run) table chunkId e
      t) ∧ ∀ a ∈ e.arguments, ∀ t, (requests combine table chunkId a t).run =
        evaluateExpressionToResult (fun e t => (requests combine table chunkId e t).run) table
          chunkId a t := by
  induction h with
  | @node node arguments _ _ _ ihboth =>
    have ih : ∀ a ∈ arguments, (fun t => (requests combine table chunkId a t).run) =
        evaluateExpressionToResult (fun e t => (requests combine table chunkId e t).run) table
          chunkId a := fun a ha => funext (ihboth a ha).1
    refine ⟨fun t => ?_, fun a ha => (ihboth a ha).1⟩
    unfold evaluateExpressionToResult
    split
    · next heq =>
      cases heq
      rw [requests, Calls.run]
    · next heq =>
      cases heq
      rw [requests, Calls.run]
    · next t _ _ logicalOperator left right heq =>
      cases heq
      simp only [List.forall_mem_cons] at ih
      rw [requests]
      by_cases ht : t = .int
      · rw [ht, run_logicalRequests, ih.1, ih.2.1]
        rfl
      · rw [logicalRequests, if_neg ht, decide_eq_false ht]
        rfl
    · next t _ _ condition left right heq =>
      cases heq
      simp only [List.forall_mem_cons] at ih
      rw [requests]
      by_cases ht : t = .int
      · rw [ht, run_binaryRequests, ih.1, ih.2.1]
        rfl
      · rw [binaryRequests, if_neg ht, decide_eq_false ht]
        rfl
    · next t _ _ condition value lower upper heq =>
      cases heq
      simp only [List.forall_mem_cons] at ih
      rw [requests]
      by_cases ht : t = .int
      · rw [ht, run_betweenRequests, ih.1, ih.2.1, ih.2.2.1]
        rfl
      · rw [betweenRequests, if_neg ht, decide_eq_false ht]
        rfl
    · next t _ _ condition value elements heq =>
      cases heq
      simp only [List.forall_mem_cons] at ih ihboth
      have helements : ∀ a ∈ elements, (fun t => (requests combine table chunkId a t).run) =
          evaluateExpressionToResult (fun e t => (requests combine table chunkId e t).run) table
            chunkId a := fun a ha => funext (ihboth.2.1.2 a ha)
      rw [requests]
      by_cases ht : t = .int
      · rw [ht, run_inRequests, ih.1, listRequests_eq, requestElements_eq, List.map_map]
        refine congrArg (evaluateInExpression _ _ _) (List.map_congr_left fun a ha => ?_)
        exact congrArg (Prod.mk a) (helements a ha)
      · rw [inRequests, if_neg ht, decide_eq_false ht]
        rfl
    · next t _ _ condition value set hset heq =>
      cases heq
      simp only [List.forall_mem_cons] at ih
      rw [requests]
      · by_cases ht : t = .int
        · rw [ht, run_inRequests, ih.1, List.map_singleton, ih.2.1]
          rfl
        · rw [inRequests, if_neg ht, decide_eq_false ht]
          rfl
      · exact hset
    · next t _ _ condition operand heq =>
      cases heq
      simp only [List.forall_mem_cons] at ih
      rw [requests]
      by_cases ht : t = .int
      · rw [if_pos ht, run_resolveRequests, ih.1, decide_eq_true ht]
        cases resolveToExpressionResult operand _ <;> rfl
      · rw [if_neg ht, decide_eq_false ht]
        rfl
    · rfl

variable (combine table chunkId) in
/-- **Without the cache, the requests are evaluated as `evaluateExpressionToResult` says.** -/
theorem run_requests (h : e.Cacheable) (t : DataType) : (requests combine table chunkId e t).run =
    evaluateExpressionToResult (fun e t => (requests combine table chunkId e t).run) table chunkId e
      t :=
  (run_requests_and_arguments combine table chunkId h).1 t

lemma coherent_evaluations {first : Expression R × DataType} {rest : List (Expression R × DataType)}
    (hfirst : first.1.Cacheable) (hrest : ∀ request ∈ rest, request.1.Cacheable) {n : ℕ}
    (hn : weights ((first :: rest).map Prod.fst) < n) :
    Calls.Coherent (requests combine table chunkId) Expression.Cacheable Expression.weight n
      (evaluations combine table chunkId first rest) := by
  induction rest generalizing first with
  | nil =>
    rw [List.map_cons, weights] at hn
    exact .call hfirst (by omega)
      ((isRequestable_of_cacheable combine table chunkId hfirst).1.coherent _) fun _ => .done n _
  | cons next rest ih =>
    rw [List.map_cons, weights] at hn
    rw [List.forall_mem_cons] at hrest
    exact .call hfirst (by omega)
      ((isRequestable_of_cacheable combine table chunkId hfirst).1.coherent _) fun _ =>
        ih hrest.1 hrest.2 (by omega)

end

/-- Evaluated without a cache, no expression is requested with another type than that of the first
result of an equal expression. -/
def RequestsOneType [DecidableEq R] (p : Requests R) : Prop :=
  p.runChecked Expression.equals [] ≠ none

/-- **An evaluator only returns cached results to requests for their type, and evaluates expressions
as without the cache, if and only if equal expressions are requested with one type.** -/
theorem runCached_evaluations_iff {R : Type} [FloatingPoint R]
    (combine : ExpressionNode R → DataType → List (ExpressionResult R) →
      Except Exception (ExpressionResult R)) (table : Table R) (chunkId : ℕ)
    (first : Expression R × DataType) (rest : List (Expression R × DataType))
    (h : ∀ request ∈ first :: rest, request.1.Cacheable) :
    (∃ cache, (evaluations combine table chunkId first rest).runCached Expression.equals [] =
        some ((evaluations combine table chunkId first rest).run, cache)) ↔
      RequestsOneType (evaluations combine table chunkId first rest) := by
  rw [List.forall_mem_cons] at h
  exact (coherent_evaluations h.1 h.2 (Nat.lt_succ_self _)).runCached_iff
    (fun _ _ hk hk' heq => hk.eq_of_equals hk' heq) Expression.equals_refl

/-! ### A condition that is no boolean -/

/-- A column of long integers. -/
def longColumn : Table ℚ := ⟨[⟨"a", .long, false⟩], [⟨[⟨.long, [.long 1, .long 2], none⟩]⟩]⟩

/-- Whether the column is one and an operand is true. -/
def isOneAnd (operand : Expression ℚ) : Expression ℚ :=
  .node (.logical .and) [.node (.binaryPredicate .equals)
    [.node (.pqpColumn 0 .long false (Bytes.ofString "a")) [], .node (.value (some (.long 1))) []],
    operand]

/-- The column as the condition of a CASE. -/
def caseOfColumn : Expression ℚ :=
  .node .case [.node (.pqpColumn 0 .long false (Bytes.ofString "a")) [],
    .node (.value (some (.int 1))) [], .node (.value (some (.int 0))) []]

lemma cacheable_isOneAnd {operand : Expression ℚ} (h : operand.Cacheable) :
    (isOneAnd operand).Cacheable := by
  refine .node trivial (by decide) (List.forall_mem_cons.mpr
    ⟨.node rfl (by decide) (List.forall_mem_cons.mpr ⟨.node trivial (by decide) (by simp),
      List.forall_mem_singleton.mpr (.node trivial (by decide) (by simp))⟩),
      List.forall_mem_singleton.mpr h⟩)

lemma cacheable_caseOfColumn : caseOfColumn.Cacheable := by
  rw [caseOfColumn]
  refine .node trivial (by decide) (List.forall_mem_cons.mpr ⟨.node trivial (by decide) (by simp),
    List.forall_mem_cons.mpr ⟨.node trivial (by decide) (by simp),
      List.forall_mem_singleton.mpr (.node trivial (by decide) (by simp))⟩⟩)

/-- A true literal. -/
def trueLiteral : Expression ℚ := .node (.value (some (.int 1))) []

lemma cacheable_trueLiteral : trueLiteral.Cacheable := .node trivial (by decide) (by simp)

/-- The column is requested twice with its type. -/
theorem runCached_evaluations_isOneAnd : ∃ cache,
    (evaluations (fun _ _ _ => .error .undefinedBehavior) longColumn 0
      (isOneAnd (isOneAnd trueLiteral), .int) []).runCached Expression.equals [] =
      some ((evaluations (fun _ _ _ => .error .undefinedBehavior) longColumn 0
        (isOneAnd (isOneAnd trueLiteral), .int) []).run, cache) :=
  (runCached_evaluations_iff (fun _ _ _ => .error .undefinedBehavior) longColumn 0
    (isOneAnd (isOneAnd trueLiteral), .int) []
    (List.forall_mem_singleton.mpr
      (cacheable_isOneAnd (cacheable_isOneAnd cacheable_trueLiteral)))).mpr (by
    rw [RequestsOneType, ← Option.isSome_iff_ne_none]
    decide +kernel)

/-- **The result of the column is returned to the CASE, which requests a boolean**; without the
cache the CASE fails. -/
theorem not_runCached_evaluations_isOneAnd :
    (isOneAnd caseOfColumn).Cacheable ∧
      (evaluations (fun _ _ _ => .error .undefinedBehavior) longColumn 0
        (isOneAnd caseOfColumn, .int) []).runCached Expression.equals [] = none ∧
      (evaluations (fun _ _ _ => .error .undefinedBehavior) longColumn 0
        (isOneAnd caseOfColumn, .int) []).run =
          .error (.assertionFailed "Cannot evaluate segment to different type.") := by
  refine ⟨cacheable_isOneAnd cacheable_caseOfColumn, ?_, by decide +kernel⟩
  rw [← Option.isNone_iff_eq_none]
  decide +kernel

end Skyrise

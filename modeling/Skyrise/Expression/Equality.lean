/-
Equality of expressions.

Two expressions are equal if they are the same object, or if they have the same type,
the comparison of their class finds their fields equal and their arguments are equal.
The comparison of floating-point numbers is a parameter, as numbers that compare
equal need not be the same.

Equal expressions have equal hashes and are equal in both directions.  They evaluate
to the same unless they differ in what no comparison looks at, the sort definitions
of a string aggregate, or in numbers that compare equal.
-/
import Skyrise.Compiler.PqpHash
import Skyrise.Operator.Aggregate.StringAgg

namespace Skyrise

variable {R S : Type}

/-! ### The comparison -/

/-- `==` of two variants that are not both NULL, where `eq` compares floating-point numbers. -/
def variantEquals (eq : R → R → Bool) : AllTypeVariant R → AllTypeVariant R → Bool
  | some (.int v), some (.int w) => v = w
  | some (.long v), some (.long w) => v = w
  | some (.float v), some (.float w) => eq v w
  | some (.double v), some (.double w) => eq v w
  | some (.string v), some (.string w) => v = w
  | _, _ => false

namespace ExpressionNode

/-- The function of an aggregate; the string aggregate inherits the field. -/
def aggregateFunction? : ExpressionNode R → Option AggregateFunction
  | aggregate aggregateFunction => some aggregateFunction
  | stringAgg _ => some .stringAgg
  | _ => none

/-- The condition of a predicate, which all predicates inherit. -/
def predicateCondition? : ExpressionNode R → Option PredicateCondition
  | binaryPredicate condition | between condition | inSet condition | isNull condition =>
    some condition
  | _ => none

/-- `ShallowEquals`, by the class of the expression.  Another class than the comparison expects is
unequal; the types rule it out. -/
def shallowEquals (eq : R → R → Bool) : ExpressionNode R → ExpressionNode R → Bool
  | aggregate aggregateFunction, n => n.aggregateFunction? = some aggregateFunction
  | stringAgg _, n => n.aggregateFunction? = some .stringAgg
  | arithmetic arithmeticOperator, arithmetic arithmeticOperator' =>
    arithmeticOperator = arithmeticOperator'
  | case, case => true
  | cast dataType, cast dataType' => dataType = dataType'
  | extract datetimeComponent, extract datetimeComponent' =>
    datetimeComponent = datetimeComponent'
  | list, list => true
  | logical logicalOperator, logical logicalOperator' => logicalOperator = logicalOperator'
  | pqpColumn columnId dataType isNullable columnName,
    pqpColumn columnId' dataType' isNullable' columnName' =>
    columnId = columnId' && dataType = dataType' && isNullable = isNullable' &&
      columnName = columnName'
  | binaryPredicate condition, n | between condition, n | inSet condition, n
  | isNull condition, n => n.predicateCondition? = some condition
  | unaryMinus, unaryMinus => true
  | value v, value w =>
    if dataTypeFromAllTypeVariant v = .null && dataTypeFromAllTypeVariant w = .null then true
    else variantEquals eq v w
  | _, _ => false

/-- Two nodes agree on what no comparison looks at: the sort definitions of string aggregates, and
which of several numbers that compare equal a literal is. -/
def AgreesBeyondEquality : ExpressionNode R → ExpressionNode R → Prop
  | stringAgg definitions, stringAgg definitions' => definitions = definitions'
  | stringAgg _, aggregate _ | aggregate _, stringAgg _ => False
  | value (some (.float x)), value (some (.float y)) => x = y
  | value (some (.double x)), value (some (.double y)) => x = y
  | _, _ => True

end ExpressionNode

namespace Expression

/-- `operator==` of `AbstractExpression`, where `eq` compares floating-point numbers. -/
inductive Equal (eq : R → R → Bool) : Expression R → Expression R → Prop
  /-- The expressions are the same object. -/
  | same (e : Expression R) : Equal eq e e
  /-- The types, the fields that are compared and the arguments are equal. -/
  | fields {n n' : ExpressionNode R} {arguments arguments' : List (Expression R)}
      (htype : n.expressionType = n'.expressionType) (hshallow : n.shallowEquals eq n' = true)
      (harguments : List.Forall₂ (Equal eq) arguments arguments') :
      Equal eq (.node n arguments) (.node n' arguments')

/-- At all corresponding places, the nodes of two expressions agree on what no comparison looks
at. -/
inductive AgreesBeyondEquality : Expression R → Expression R → Prop
  | node {n n' : ExpressionNode R} {arguments arguments' : List (Expression R)}
      (hnode : n.AgreesBeyondEquality n')
      (harguments : List.Forall₂ AgreesBeyondEquality arguments arguments') :
      AgreesBeyondEquality (.node n arguments) (.node n' arguments')

/-- What the caches and the reuse of plans take for granted of equal expressions: they are equal in
both directions, have the same hash and evaluate to the same, whatever the classes make of their
fields and arguments. -/
structure Sound (eq : R → R → Bool) (H : Hasher R S) (e e' : Expression R) : Prop where
  symm : Equal eq e' e
  hash : e.hash H = e'.hash H
  evaluate : ∀ (β : Type) (interpret : ExpressionNode R → List β → β),
    e.evaluate interpret = e'.evaluate interpret

end Expression

/-! ### Shallow comparisons -/

namespace ExpressionNode

variable {eq : R → R → Bool} {n n' : ExpressionNode R}

lemma variantEquals_symm (heq : ∀ x y, eq x y = true → eq y x = true) {v w : AllTypeVariant R}
    (h : variantEquals eq v w = true) : variantEquals eq w v = true := by
  rcases v with _ | v <;> rcases w with _ | w
  · exact h
  · cases w <;> cases h
  · cases v <;> cases h
  · cases v <;> cases w <;> simp_all [variantEquals]

/-- Nodes that are shallowly equal are the same, aggregates with one function, predicates with one
condition or literals of values that compare equal. -/
lemma shallowEquals_cases (h : n.shallowEquals eq n' = true) : n = n' ∨
    (∃ f, n.aggregateFunction? = some f ∧ n'.aggregateFunction? = some f) ∨
    (∃ condition, n.predicateCondition? = some condition ∧
      n'.predicateCondition? = some condition) ∨
    ∃ v w, n = value v ∧ n' = value w ∧ variantEquals eq v w = true := by
  cases n with
  | aggregate f => exact .inr (.inl ⟨f, rfl, of_decide_eq_true h⟩)
  | stringAgg definitions => exact .inr (.inl ⟨.stringAgg, rfl, of_decide_eq_true h⟩)
  | binaryPredicate c | between c | inSet c | isNull c =>
    exact .inr (.inr (.inl ⟨c, rfl, of_decide_eq_true h⟩))
  | value v =>
    cases n' with
    | value w =>
      rw [shallowEquals] at h
      split at h
      · next hnull =>
        cases v <;> cases w <;> simp_all [dataTypeFromAllTypeVariant, Value.dataType_ne_null]
      · exact .inr (.inr (.inr ⟨v, w, rfl, rfl, h⟩))
    | _ => cases h
  | _ => cases n' <;> simp_all [shallowEquals]

lemma shallowEquals_of_aggregateFunction {f : AggregateFunction}
    (h : n.aggregateFunction? = some f) (h' : n'.aggregateFunction? = some f) :
    n.shallowEquals eq n' = true := by
  cases n <;> simp_all [shallowEquals, aggregateFunction?]

lemma shallowEquals_of_predicateCondition {condition : PredicateCondition}
    (h : n.predicateCondition? = some condition) (h' : n'.predicateCondition? = some condition) :
    n.shallowEquals eq n' = true := by
  cases n <;> simp_all [shallowEquals, predicateCondition?]

lemma shallowEquals_symm (heq : ∀ x y, eq x y = true → eq y x = true)
    (h : n.shallowEquals eq n' = true) : n'.shallowEquals eq n = true := by
  rcases shallowEquals_cases h with rfl | ⟨f, hn, hn'⟩ | ⟨condition, hn, hn'⟩ | ⟨v, w, rfl, rfl, hvw⟩
  · exact h
  · exact shallowEquals_of_aggregateFunction hn' hn
  · exact shallowEquals_of_predicateCondition hn' hn
  · rw [shallowEquals]
    split
    · rfl
    · exact variantEquals_symm heq hvw

/-- What a hash function of variants has to respect, that numbers which compare equal have equal
hashes. -/
def RespectsNumbers (H : Hasher R S) (eq : R → R → Bool) : Prop :=
  ∀ x y, eq x y = true → H.variant (some (.float x)) = H.variant (some (.float y)) ∧
    H.variant (some (.double x)) = H.variant (some (.double y))

lemma shallowHash_eq {H : Hasher R S} (hH : RespectsNumbers H eq)
    (h : n.shallowEquals eq n' = true) : n.shallowHash H = n'.shallowHash H := by
  rcases shallowEquals_cases h with rfl | ⟨f, hn, hn'⟩ | ⟨condition, hn, hn'⟩ | ⟨v, w, rfl, rfl, hvw⟩
  · rfl
  · have hhash : ∀ n : ExpressionNode R, n.aggregateFunction? = some f →
        n.shallowHash H = H.enum f := by
      intro n hn
      cases n <;> simp_all [aggregateFunction?, shallowHash]
    rw [hhash n hn, hhash n' hn']
  · have hhash : ∀ n : ExpressionNode R, n.predicateCondition? = some condition →
        n.shallowHash H = H.enum condition := by
      intro n hn
      cases n <;> simp_all [predicateCondition?, shallowHash]
    rw [hhash n hn, hhash n' hn']
  · rcases v with _ | v <;> rcases w with _ | w
    · rfl
    · cases w <;> cases hvw
    · cases v <;> cases hvw
    · cases v <;> cases w <;> simp_all [variantEquals, shallowHash]
      · exact (hH _ _ hvw).1
      · exact (hH _ _ hvw).2

lemma AgreesBeyondEquality.refl (n : ExpressionNode R) : n.AgreesBeyondEquality n := by
  rcases n with _ | _ | _ | _ | _ | _ | _ | _ | _ | _ | _ | _ | _ | _ | v
  case value =>
    rcases v with _ | v
    · trivial
    · cases v <;> first | rfl | trivial
  all_goals first | rfl | trivial

/-- The classes of predicates have no condition in common. -/
lemma conditions_disjoint (c : PredicateCondition) :
    (c.isBinary = true → c.isBetween = false ∧ c.isIn = false ∧ c.isNullTest = false) ∧
      (c.isBetween = true → c.isIn = false ∧ c.isNullTest = false) ∧
      (c.isIn = true → c.isNullTest = false) := by
  cases c <;> decide

/-- A predicate that can be constructed is determined by its condition. -/
lemma eq_of_predicateCondition [FloatingPoint R] {arguments arguments' : List (Expression R)}
    {condition : PredicateCondition} (h : n.predicateCondition? = some condition)
    (h' : n'.predicateCondition? = some condition) (ha : n.Admits arguments)
    (ha' : n'.Admits arguments') : n = n' := by
  obtain ⟨hbinary, hbetween, hin⟩ := conditions_disjoint condition
  cases n <;> cases n' <;> simp_all [predicateCondition?, Admits]

/-- Nodes that are shallowly equal and agree on the rest are the same. -/
lemma eq_of_agrees [FloatingPoint R] {arguments arguments' : List (Expression R)}
    (h : n.shallowEquals eq n' = true) (hagrees : n.AgreesBeyondEquality n')
    (ha : n.Admits arguments) (ha' : n'.Admits arguments') : n = n' := by
  rcases shallowEquals_cases h with rfl | ⟨f, hn, hn'⟩ | ⟨condition, hn, hn'⟩ | ⟨v, w, rfl, rfl, hvw⟩
  · rfl
  · cases n <;> cases n' <;> simp_all [aggregateFunction?, AgreesBeyondEquality]
  · exact eq_of_predicateCondition hn hn' ha ha'
  · rcases v with _ | v <;> rcases w with _ | w
    · rfl
    · cases w <;> cases hvw
    · cases v <;> cases hvw
    · cases v <;> cases w <;> simp_all [variantEquals, AgreesBeyondEquality]

end ExpressionNode

/-! ### Deep comparisons -/

namespace Expression

variable {eq : R → R → Bool} {H : Hasher R S} {e e' : Expression R}

lemma Equal.symm (heq : ∀ x y, eq x y = true → eq y x = true) (h : Equal eq e e') :
    Equal eq e' e := by
  induction e generalizing e' with
  | node n arguments ih =>
    cases h with
    | same => exact .same _
    | @fields _ n' _ arguments' htype hshallow harguments =>
      refine .fields htype.symm (ExpressionNode.shallowEquals_symm heq hshallow) ?_
      induction harguments with
      | nil => exact .nil
      | @cons a a' arguments arguments' ha _ ihs =>
        rw [List.forall_mem_cons] at ih
        exact .cons (ih.1 ha) (ihs ih.2)

/-- The types and the shallow hashes of equal expressions are equal. -/
lemma Equal.shallowHash_eq (hH : ExpressionNode.RespectsNumbers H eq) (h : Equal eq e e') :
    e.root.expressionType = e'.root.expressionType ∧
      e.root.shallowHash H = e'.root.shallowHash H := by
  cases h with
  | same => exact ⟨rfl, rfl⟩
  | fields htype hshallow => exact ⟨htype, ExpressionNode.shallowHash_eq hH hshallow⟩

lemma Equal.hash_eq (hH : ExpressionNode.RespectsNumbers H eq) (h : Equal eq e e') :
    e.hash H = e'.hash H := by
  obtain ⟨htype, hshallow⟩ := h.shallowHash_eq hH
  cases h with
  | same => rfl
  | @fields n n' arguments arguments' _ _ harguments =>
    rw [hash, hash, htype, hshallow]
    congr 1
    generalize H.enum (node n' arguments').root.expressionType = seed
    clear htype hshallow
    show List.foldl _ seed arguments = List.foldl _ seed arguments'
    induction harguments generalizing seed with
    | nil => rfl
    | @cons a a' _ _ ha _ ih =>
      obtain ⟨htype, hshallow⟩ := ha.shallowHash_eq hH
      rw [List.foldl_cons, List.foldl_cons, htype, hshallow]
      exact ih _

lemma AgreesBeyondEquality.refl (e : Expression R) : AgreesBeyondEquality e e := by
  induction e with
  | node n arguments ih =>
    exact .node (ExpressionNode.AgreesBeyondEquality.refl n) (List.forall₂_same.mpr ih)

/-- Equal expressions that agree on the rest are the same. -/
lemma Equal.eq_of_agrees [FloatingPoint R] (h : Equal eq e e') (hagrees : AgreesBeyondEquality e e')
    (hc : e.Constructible) (hc' : e'.Constructible) : e = e' := by
  induction e generalizing e' with
  | node n arguments ih =>
    cases h with
    | same => rfl
    | @fields _ n' _ arguments' htype hshallow harguments =>
      cases hagrees with
      | node hnode hagrees =>
      cases hc with
      | node _ _ hcount hadmits hc =>
      cases hc' with
      | node _ _ hcount' hadmits' hc' =>
      obtain rfl := ExpressionNode.eq_of_agrees hshallow hnode hadmits hadmits'
      congr 1
      clear htype hshallow hnode hadmits hadmits' hcount hcount'
      induction harguments with
      | nil => rfl
      | @cons a a' arguments arguments' ha _ ihs =>
        rw [List.forall_mem_cons] at ih hc hc'
        rw [List.forall₂_cons] at hagrees
        rw [ih.1 ha hagrees.1 hc.1 hc'.1, ihs ih.2 hagrees.2 hc.2 hc'.2]

/-- **Equality is sound exactly for expressions that agree on what no comparison looks at.** Numbers
are compared symmetrically, and those that compare equal have equal hashes. -/
theorem sound_iff {R S : Type} [FloatingPoint R] (eq : R → R → Bool) (H : Hasher R S)
    (heq : ∀ x y, eq x y = true → eq y x = true) (hH : ExpressionNode.RespectsNumbers H eq)
    (e e' : Expression R) (hc : e.Constructible) (hc' : e'.Constructible) (h : Equal eq e e') :
    Sound eq H e e' ↔ AgreesBeyondEquality e e' := by
  constructor
  · intro hsound
    have hsame := hsound.evaluate (Expression R) node
    rw [evaluate_eq_self, evaluate_eq_self] at hsame
    exact hsame ▸ AgreesBeyondEquality.refl e
  · intro hagrees
    refine ⟨h.symm heq, h.hash_eq hH, fun β interpret => ?_⟩
    rw [h.eq_of_agrees hagrees hc hc']

/-- A string aggregate of the first column in the order of a column. -/
def stringAggBy (columnId : UInt32) : Expression ℚ :=
  .node (.stringAgg (some [⟨columnId, .ascending⟩]))
    [.node (.pqpColumn 0 .string false "name") []]

/-- Some hash functions. -/
def sampleHasher : Hasher ℚ ℕ where
  combine seed hash := 31 * seed + hash
  number n := n
  text s := s.length
  variant v := if variantIsNull v then 0 else 1
  pointer address := address

lemma stringAggBy_constructible (columnId : UInt32) : (stringAggBy columnId).Constructible := by
  refine .node _ _ (fun _ h => Option.some.inj h) trivial (List.forall_mem_singleton.mpr ?_)
  exact .node _ _ (fun _ h => Option.some.inj h) trivial fun _ h => absurd h List.not_mem_nil

lemma stringAggBy_equal (eq : ℚ → ℚ → Bool) (columnId columnId' : UInt32) :
    Equal eq (stringAggBy columnId) (stringAggBy columnId') :=
  .fields rfl rfl (.cons (.same _) .nil)

/-- Two string aggregates with one order are equal, and this is sound. -/
theorem sound_stringAggBy :
    Sound (fun x y => decide (x = y)) sampleHasher (stringAggBy 1) (stringAggBy 1) :=
  (sound_iff _ sampleHasher (fun _ _ h => by simpa using eq_comm.mp (of_decide_eq_true h))
    (fun _ _ h => by rw [of_decide_eq_true h]; exact ⟨rfl, rfl⟩) _ _ (stringAggBy_constructible 1)
    (stringAggBy_constructible 1) (stringAggBy_equal _ 1 1)).mpr (AgreesBeyondEquality.refl _)

/-- Two names with their ranks, which are in the other order. -/
def names : Table ℚ :=
  ⟨[⟨"name", .string, false⟩, ⟨"rank", .int, false⟩],
    [⟨[.ofValues .string [.string [97], .string [98]], .ofValues .int [.int 2, .int 1]]⟩]⟩

/-- What the aggregate operator makes of a string aggregate for the group of all rows, and nothing
of other expressions. -/
def aggregateNames : ExpressionNode ℚ → List (AllTypeVariant ℚ) → AllTypeVariant ℚ
  | .stringAgg definitions, _ =>
    StringAgg.aggregateValue names 0 definitions [(⟨0, 0⟩, [97]), (⟨0, 1⟩, [98])]
  | _, _ => none

/-- **Equal string aggregates with different orders aggregate to different strings.** -/
theorem not_sound_stringAggBy :
    Equal (fun x y => decide (x = y)) (stringAggBy 0) (stringAggBy 1) ∧
      (stringAggBy 0).evaluate aggregateNames = some (.string "a,b") ∧
      (stringAggBy 1).evaluate aggregateNames = some (.string "b,a") ∧
      ¬ Sound (fun x y => decide (x = y)) sampleHasher (stringAggBy 0) (stringAggBy 1) := by
  have hvalue : ∀ columnId, (stringAggBy columnId).evaluate aggregateNames =
      some (.string (StringAgg.concatenate ((StringAgg.sortedPositions names
        [⟨columnId, .ascending⟩] [⟨0, 0⟩, ⟨0, 1⟩]).map fun id =>
          StringAgg.asString (names.storedAt 0 id)))) := fun _ => rfl
  have h₀ : (stringAggBy 0).evaluate aggregateNames = some (.string "a,b") := by
    rw [hvalue, StringAgg.sortedPositions_pair, if_pos (by decide +kernel)]
    decide +kernel
  have h₁ : (stringAggBy 1).evaluate aggregateNames = some (.string "b,a") := by
    rw [hvalue, StringAgg.sortedPositions_pair, if_neg (by decide +kernel)]
    decide +kernel
  refine ⟨stringAggBy_equal _ 0 1, h₀, h₁, fun hsound => ?_⟩
  have hsame := hsound.evaluate _ aggregateNames
  rw [h₀, h₁] at hsame
  exact absurd hsame (by decide +kernel)

end Expression

end Skyrise

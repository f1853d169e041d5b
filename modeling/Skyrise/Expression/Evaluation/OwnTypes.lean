/-
Expressions that are requested with their own types.

Where the conditions of CASE are integers and the operands of EXTRACT strings, every
expression is requested with its own type, and the cache is never asked for another.
-/
import Skyrise.Expression.Evaluation.ResultCache
import Skyrise.Expression.Evaluation.TypedExpression

namespace Skyrise

variable {R : Type}

/-- The type with which the first argument of an expression is requested whatever its own is. -/
def ExpressionNode.forcedType : ExpressionNode R → Option DataType
  | .case => some .int
  | .extract _ => some .string
  | _ => none

/-- The expressions in which a type that is requested whatever the own type is, is the own type. -/
inductive Expression.OwnTyped : Expression R → Prop
  | node {n : ExpressionNode R} {arguments : List (Expression R)}
      (hforced : ∀ t ∈ n.forcedType, ∀ a ∈ arguments.head?, a.getDataType = .ok t)
      (harguments : ∀ a ∈ arguments, OwnTyped a) : OwnTyped (.node n arguments)

section

variable [FloatingPoint R] {combine : ExpressionNode R → DataType → List (ExpressionResult R) →
  Except Exception (ExpressionResult R)} {table : Table R} {chunkId : ℕ}
  {left right value element : RequestElement R} {t : DataType}

/-- Requests that ask for every expression with its own type. -/
abbrev OwnRequests (p : Requests R) : Prop := p.OfKind typeOf Expression.Cacheable

/-- An expression that only requests what it requests with the own types. -/
structure RequestsOwnTypes (element : RequestElement R) : Prop where
  cacheable : element.1.Cacheable
  ownRequests : ∀ t, OwnRequests (element.2 t)

/-- A call with the own type. -/
lemma RequestsOwnTypes.call (h : RequestsOwnTypes element) (ht : element.1.getDataType = .ok t)
    {next : ExpressionResult R → Requests R} (hnext : ∀ r, OwnRequests (next r)) :
    OwnRequests (.call element.1 t (element.2 t) next) := by
  rw [← typeOf_eq ht]
  exact .call h.cacheable (h.ownRequests _) hnext

lemma ownRequests_resolveRequests (h : RequestsOwnTypes element)
    {next : ExpressionResult R → Requests R} (hnext : ∀ r, OwnRequests (next r)) :
    OwnRequests (resolveRequests element.1 element.2 next) := by
  rw [resolveRequests]
  split
  · exact .done _
  · split
    · next ht =>
      split
      · exact hnext _
      · exact h.call ht hnext
    · exact .done _

lemma ownRequests_resolveBoth (hl : RequestsOwnTypes left) (hr : RequestsOwnTypes right)
    {next : ExpressionResult R → ExpressionResult R → Except Exception (ExpressionResult R)} :
    OwnRequests (resolveBoth left.1 right.1 left.2 right.2 next) :=
  ownRequests_resolveRequests hl fun _ => ownRequests_resolveRequests hr fun _ => .done _

lemma requestsOwnTypes_comparison {condition : PredicateCondition}
    (hcondition : condition.isBinary = true) (hl : RequestsOwnTypes left)
    (hr : RequestsOwnTypes right) :
    RequestsOwnTypes (comparisonExpression condition left.1 right.1,
      binaryRequests condition left.1 right.1 left.2 right.2) := by
  refine ⟨cacheable_comparisonExpression hcondition hl.cacheable hr.cacheable, fun t => ?_⟩
  dsimp only
  rw [binaryRequests]
  split
  · split
    · exact ownRequests_resolveBoth hl hr
    · exact ownRequests_resolveBoth hr hl
    · exact .done _
  · exact .done _

lemma requestsOwnTypes_logical (logicalOperator : LogicalOperator) (hl : RequestsOwnTypes left)
    (hr : RequestsOwnTypes right) :
    RequestsOwnTypes (logicalExpression logicalOperator left.1 right.1,
      logicalRequests logicalOperator left.1 right.1 left.2 right.2) := by
  refine ⟨cacheable_logicalExpression hl.cacheable hr.cacheable, fun t => ?_⟩
  dsimp only
  rw [logicalRequests]
  split
  · exact ownRequests_resolveBoth hl hr
  · exact .done _

omit [FloatingPoint R] in
lemma getDataType_comparisonExpression (condition : PredicateCondition) (l r : Expression R) :
    (comparisonExpression condition l r).getDataType = .ok .int := by
  rw [comparisonExpression, Expression.getDataType, Expression.evaluate_node]
  rfl

omit [FloatingPoint R] in
lemma getDataType_logicalExpression (logicalOperator : LogicalOperator) (l r : Expression R) :
    (logicalExpression logicalOperator l r).getDataType = .ok .int := by
  rw [logicalExpression, Expression.getDataType, Expression.evaluate_node]
  rfl

lemma ownRequests_betweenRequests {condition : PredicateCondition}
    {lower upper : RequestElement R} (hv : RequestsOwnTypes value)
    (hl : RequestsOwnTypes lower) (hu : RequestsOwnTypes upper) :
    OwnRequests (betweenRequests condition value.1 lower.1 upper.1 value.2 lower.2 upper.2 t) := by
  obtain ⟨hlower, hupper⟩ := isBinary_betweenConditions condition
  have hrewritten := requestsOwnTypes_logical .and (requestsOwnTypes_comparison hlower hv hl)
    (requestsOwnTypes_comparison hupper hv hu)
  rw [betweenRequests]
  split
  · exact hrewritten.call (getDataType_logicalExpression _ _ _) fun _ => .done _
  · exact .done _

/-- The rewritten expression requests its parts with their types. -/
lemma requestsOwnTypes_rewriteInListExpression (negated : Bool) {first : RequestElement R}
    {rest : List (RequestElement R)} (hv : RequestsOwnTypes value)
    (hfirst : RequestsOwnTypes first) (hrest : ∀ element ∈ rest, RequestsOwnTypes element) :
    RequestsOwnTypes (rewriteInListExpression negated value.1 value.2 first rest) ∧
      (rewriteInListExpression negated value.1 value.2 first rest).1.getDataType = .ok .int := by
  have hcompare : ∀ {element : RequestElement R}, RequestsOwnTypes element →
      RequestsOwnTypes (compareElement negated value.1 value.2 element) :=
    fun helement => requestsOwnTypes_comparison (by cases negated <;> rfl) hv helement
  rw [rewriteInListExpression]
  induction rest using List.reverseRecOn with
  | nil => exact ⟨hcompare hfirst, getDataType_comparisonExpression _ _ _⟩
  | append_singleton rest element ih =>
    rw [List.foldl_append]
    have hlast := hrest element (by simp)
    have hrewritten := (ih fun a ha => hrest a (by simp [ha])).1
    exact ⟨requestsOwnTypes_logical _ hrewritten (hcompare hlast),
      getDataType_logicalExpression _ _ _⟩

lemma ownRequests_inRequests {negated : Bool} {elements : List (RequestElement R)}
    (hv : RequestsOwnTypes value) (helements : ∀ element ∈ elements, RequestsOwnTypes element) :
    OwnRequests (inRequests negated value.1 value.2 elements t) := by
  rw [inRequests]
  split
  case isFalse => exact .done _
  case isTrue =>
    split
    · exact .done _
    · split
      · exact .done _
      · split
        · exact .done _
        · split
          · exact .done _
          · next valueType _ _ _ types htypes =>
            split
            · exact .done _
            · next first rest hcompatible =>
              have hsub : ∀ element ∈ first :: rest, RequestsOwnTypes element := by
                intro element helement
                rw [← hcompatible] at helement
                obtain ⟨pair, hpair, rfl⟩ := List.mem_map.mp helement
                exact helements _ (List.of_mem_zip (List.mem_of_mem_filter hpair)).1
              rw [List.forall_mem_cons] at hsub
              split
              · exact ownRequests_resolveRequests hv fun _ => .done _
              · obtain ⟨hrewritten, htype⟩ :=
                  requestsOwnTypes_rewriteInListExpression negated hv hsub.1 hsub.2
                exact hrewritten.call htype fun _ => .done _

variable (combine table chunkId) in
/-- Where the types that are requested whatever the own types are, are the own types, every
expression is requested with its own type, and so it is for the arguments. -/
lemma requestsOwnTypes_of_ownTyped {e : Expression R} (h : e.Cacheable) (htyped : e.OwnTyped) :
    RequestsOwnTypes (e, requests combine table chunkId e) ∧
      ∀ a ∈ e.arguments, RequestsOwnTypes (a, requests combine table chunkId a) := by
  induction h with
  | @node node arguments hnode haggregate harguments ihboth =>
    obtain ⟨hforced, htyped⟩ := htyped
    have ih : ∀ a ∈ arguments, RequestsOwnTypes (a, requests combine table chunkId a) :=
      fun a ha => (ihboth a ha (htyped a ha)).1
    refine ⟨⟨.node hnode haggregate harguments, fun t => ?_⟩, ih⟩
    dsimp only
    unfold requests
    split
    · exact .done _
    · exact .done _
    · next logicalOperator left right heq =>
      cases heq
      simp only [List.forall_mem_cons] at ih
      exact (requestsOwnTypes_logical logicalOperator ih.1 ih.2.1).ownRequests _
    · next condition left right heq =>
      cases heq
      simp only [List.forall_mem_cons] at ih
      exact (requestsOwnTypes_comparison hnode ih.1 ih.2.1).ownRequests _
    · next condition value lower upper heq =>
      cases heq
      simp only [List.forall_mem_cons] at ih
      exact ownRequests_betweenRequests ih.1 ih.2.1 ih.2.2.1
    · next condition value elements heq =>
      cases heq
      simp only [List.forall_mem_cons] at ih ihboth htyped
      -- the elements of the list are requested, not the list
      have helements := (ihboth.2.1 htyped.2.1).2
      rw [listRequests_eq]
      refine ownRequests_inRequests ih.1 fun element helement => ?_
      obtain ⟨a, ha, rfl⟩ := List.mem_map.mp helement
      exact helements a ha
    · next condition value set _ heq =>
      cases heq
      simp only [List.forall_mem_cons] at ih
      exact ownRequests_inRequests ih.1 (List.forall_mem_singleton.mpr ih.2.1)
    · next condition operand heq =>
      cases heq
      simp only [List.forall_mem_cons] at ih
      split
      · exact ownRequests_resolveRequests ih.1 fun _ => .done _
      · exact .done _
    · next when thenExpression otherwise heq =>
      cases heq
      simp only [List.forall_mem_cons] at ih
      exact ih.1.call (hforced .int rfl _ rfl) fun _ => ownRequests_resolveBoth ih.2.1 ih.2.2.1
    · next datetimeComponent fromOperand heq =>
      cases heq
      simp only [List.forall_mem_cons] at ih
      split
      · exact ih.1.call (hforced .string rfl _ rfl) fun _ => .done _
      · exact .done _
    · next dataType argument heq =>
      cases heq
      simp only [List.forall_mem_cons] at ih
      exact ownRequests_resolveRequests ih.1 fun _ => .done _
    · next argument heq =>
      cases heq
      simp only [List.forall_mem_cons] at ih
      exact ownRequests_resolveRequests ih.1 fun _ => .done _
    · next arithmeticOperator left right heq =>
      cases heq
      simp only [List.forall_mem_cons] at ih
      exact ownRequests_resolveBoth ih.1 ih.2.1
    · exact .done _
    · exact .done _

/-- A request for an expression with its own type, in which every expression is requested so. -/
structure IsOwnRequest (request : Expression R × DataType) : Prop where
  cacheable : request.1.Cacheable
  ownTyped : request.1.OwnTyped
  getDataType_eq : request.1.getDataType = .ok request.2

lemma ownRequests_evaluations {first : Expression R × DataType}
    {rest : List (Expression R × DataType)} (hfirst : IsOwnRequest first)
    (hrest : ∀ request ∈ rest, IsOwnRequest request) :
    OwnRequests (evaluations combine table chunkId first rest) := by
  induction rest generalizing first with
  | nil =>
    exact (requestsOwnTypes_of_ownTyped combine table chunkId hfirst.cacheable
      hfirst.ownTyped).1.call hfirst.getDataType_eq fun r => .done (.ok r)
  | cons next rest ih =>
    rw [List.forall_mem_cons] at hrest
    exact (requestsOwnTypes_of_ownTyped combine table chunkId hfirst.cacheable
      hfirst.ownTyped).1.call hfirst.getDataType_eq fun _ => ih hrest.1 hrest.2

variable (combine table chunkId) in
/-- **If the conditions of CASE are integers and the operands of EXTRACT strings, and expressions
are evaluated to their own types, then equal expressions are requested with one type.** -/
theorem requestsOneType_of_ownTyped (first : Expression R × DataType)
    (rest : List (Expression R × DataType))
    (h : ∀ request ∈ first :: rest, IsOwnRequest request) :
    RequestsOneType (evaluations combine table chunkId first rest) := by
  rw [List.forall_mem_cons] at h
  obtain ⟨_, _, hchecked, -⟩ := (ownRequests_evaluations h.1 h.2).exists_runChecked
    (fun _ _ hk hk' heq => hk.eq_of_equals hk' heq) [] (by simp)
  rw [RequestsOneType, hchecked]
  exact Option.some_ne_none _

end

end Skyrise

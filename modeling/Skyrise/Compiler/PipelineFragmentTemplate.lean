/-
Templates of pipeline fragments.

A template has a copy of a plan whose export has a placeholder for its target, and whose imports
have no objects.  For a fragment the template is copied, and the target and the objects of the
imports are set in the copy, by the identities of the imports.  Proxies that are shared are copied
once, and nothing that there was is changed.  A target with a tag is refused, and so are imports
that share an identity.
-/
import Skyrise.Compiler.OperatorProxy.AbstractOperatorProxy
import Skyrise.Compiler.PipelineFragmentDefinition
import Skyrise.Utils.SharedCopy

namespace Skyrise

open SharedCopy

variable {R A : Type}

/-! ### Expressions -/

/-- `DeepCopy`, by the class of an expression. -/
def ExpressionNode.deepCopy : ExpressionNode R → ExpressionNode R
  -- string aggregates do not override the copy of aggregates
  | stringAgg _ => aggregate .stringAgg
  | n => n

/-- `DeepCopy` of an expression. -/
def Expression.deepCopy (e : Expression R) : Expression R :=
  e.evaluate fun n arguments => .node n.deepCopy arguments

lemma Expression.deepCopy_node (n : ExpressionNode R) (arguments : List (Expression R)) :
    (Expression.node n arguments).deepCopy = .node n.deepCopy (arguments.map Expression.deepCopy) :=
  Expression.evaluate_node _ n arguments

@[simp] lemma Expression.deepCopy_deepCopy (e : Expression R) : e.deepCopy.deepCopy = e.deepCopy := by
  induction e with
  | node n arguments ih =>
    have hnode : n.deepCopy.deepCopy = n.deepCopy := by cases n <;> rfl
    rw [deepCopy_node, deepCopy_node, hnode, List.map_map]
    exact congrArg _ (List.map_congr_left ih)

/-! ### Operator proxies -/

/-- The modes of exchanges. -/
inductive ExchangeMode where
  | fullMerge
  | partialMerge
deriving DecidableEq, Repr

/-- `ExchangeOperatorProxy`. -/
structure ExchangeOperatorProxy where
  mode : ExchangeMode := .fullMerge
  outputObjectsCount : ℕ := 1

namespace ExchangeOperatorProxy

/-- `SetToPartialMerge`. -/
def setToPartialMerge (outputObjectsCount : ℕ) : Except Exception ExchangeOperatorProxy := do
  assert (outputObjectsCount > 1)
    "A partial merge should have a higher number of output partitions."
  return ⟨.partialMerge, outputObjectsCount⟩

/-- `OnDeepCopy`. -/
def deepCopy (p : ExchangeOperatorProxy) : Except Exception ExchangeOperatorProxy :=
  match p.mode with
  | .fullMerge => .ok {}
  | .partialMerge => setToPartialMerge p.outputObjectsCount

end ExchangeOperatorProxy

namespace ProxyAttributes

/-- `OnDeepCopy`. -/
def deepCopy : ProxyAttributes R A → Except Exception (ProxyAttributes R A)
  | aggregate p => .ok (aggregate { p with aggregates := p.aggregates.map Expression.deepCopy })
  | «alias» p => «alias» <$> AliasOperatorProxy.make p.columnIds p.aliases
  | «export» p =>
    «export» <$> ExportOperatorProxy.make p.targetObject p.exportFormat p.consolidateRowGroups
  | filter p => .ok (filter ⟨p.predicate.deepCopy⟩)
  | «import» p => do
    let copy : ImportOperatorProxy R A ← ImportOperatorProxy.make p.objectReferences p.columnIds
    assert (p.outputObjectsCount ≥ 1)
      "ImportOperatorProxy must specify at least one output object."
    return «import» { copy with
      outputObjectsCount := p.outputObjectsCount, importOptions := p.importOptions }
  | join p => .ok (join p)
  | limit p => .ok (limit ⟨p.rowCount.deepCopy⟩)
  | partition p => .ok (partition p)
  | projection p => .ok (projection ⟨p.expressions.map Expression.deepCopy⟩)
  | sort p => sort <$> SortOperatorProxy.make p.sortDefinitions
  | union p => .ok (union p)

/-- What constructors and setters assert. -/
def Made : ProxyAttributes R A → Prop
  | «alias» p => p.columnIds.length = p.aliases.length
  | «export» p => p.targetObject.etag = []
  | «import» p => p.columnIds ≠ [] ∧ 1 ≤ p.outputObjectsCount
  | sort p => p.sortDefinitions ≠ []
  | _ => True

/-- The copy of attributes that can be made. -/
def copied : ProxyAttributes R A → ProxyAttributes R A
  | aggregate p => aggregate { p with aggregates := p.aggregates.map Expression.deepCopy }
  | filter p => filter ⟨p.predicate.deepCopy⟩
  | limit p => limit ⟨p.rowCount.deepCopy⟩
  | projection p => projection ⟨p.expressions.map Expression.deepCopy⟩
  | attributes => attributes

lemma deepCopy_eq {attributes : ProxyAttributes R A} (h : attributes.Made) :
    attributes.deepCopy = .ok attributes.copied := by
  cases attributes with
  | «alias» p =>
    have hlength : p.columnIds.length = p.aliases.length := h
    simp [deepCopy, copied, AliasOperatorProxy.make, hlength, bind, Except.bind, pure, Except.pure,
      Functor.map, Except.map]
  | «export» p =>
    have hetag : p.targetObject.etag = [] := h
    simp [deepCopy, copied, ExportOperatorProxy.make, hetag, bind, Except.bind, pure, Except.pure,
      Functor.map, Except.map]
  | «import» p =>
    obtain ⟨hcolumnIds, hcount⟩ : p.columnIds ≠ [] ∧ 1 ≤ p.outputObjectsCount := h
    simp [deepCopy, copied, ImportOperatorProxy.make, hcolumnIds, hcount, bind, Except.bind, pure,
      Except.pure]
  | sort p =>
    have hdefinitions : p.sortDefinitions ≠ [] := h
    simp [deepCopy, copied, SortOperatorProxy.make, hdefinitions, bind, Except.bind, pure,
      Except.pure, Functor.map, Except.map]
  | _ => rfl

@[simp] lemma copied_copied (attributes : ProxyAttributes R A) :
    attributes.copied.copied = attributes.copied := by
  have hmap : ∀ expressions : List (Expression R),
      (expressions.map Expression.deepCopy).map Expression.deepCopy =
        expressions.map Expression.deepCopy := by
    intro expressions
    rw [List.map_map]
    exact List.map_congr_left fun e _ => e.deepCopy_deepCopy
  cases attributes <;> simp only [copied, hmap, Expression.deepCopy_deepCopy]

lemma made_copied {attributes : ProxyAttributes R A} : attributes.copied.Made ↔ attributes.Made := by
  cases attributes <;> rfl

@[simp] lemma operatorType_copied (attributes : ProxyAttributes R A) :
    attributes.copied.operatorType = attributes.operatorType := by
  cases attributes <;> rfl

end ProxyAttributes

/-- The class of a proxy of a plan: an exchange has no operator. -/
inductive PlanAttributes (R A : Type) where
  | operator (attributes : ProxyAttributes R A)
  | exchange (p : ExchangeOperatorProxy)

namespace PlanAttributes

/-- `Type`. -/
def operatorType : PlanAttributes R A → OperatorType
  | operator attributes => attributes.operatorType
  | exchange _ => .exchange

/-- `OnDeepCopy`. -/
def deepCopy : PlanAttributes R A → Except Exception (PlanAttributes R A)
  | operator attributes => operator <$> attributes.deepCopy
  | exchange p => exchange <$> p.deepCopy

/-- What constructors and setters assert, and that a full merge has one output. -/
def Made : PlanAttributes R A → Prop
  | operator attributes => attributes.Made
  | exchange p => match p.mode with
    | .fullMerge => p.outputObjectsCount = 1
    | .partialMerge => 1 < p.outputObjectsCount

/-- The copy of attributes that can be made. -/
def copied : PlanAttributes R A → PlanAttributes R A
  | operator attributes => operator attributes.copied
  | exchange p => exchange p

lemma deepCopy_eq {attributes : PlanAttributes R A} (h : attributes.Made) :
    attributes.deepCopy = .ok attributes.copied := by
  cases attributes with
  | operator attributes =>
    rw [deepCopy, ProxyAttributes.deepCopy_eq h]
    rfl
  | exchange p =>
    obtain ⟨mode, outputObjectsCount⟩ := p
    cases mode with
    | fullMerge =>
      obtain rfl : outputObjectsCount = 1 := h
      rfl
    | partialMerge =>
      have hcount : 1 < outputObjectsCount := h
      simp [deepCopy, copied, ExchangeOperatorProxy.deepCopy,
        ExchangeOperatorProxy.setToPartialMerge, hcount, bind, Except.bind, pure, Except.pure,
        Functor.map, Except.map]

@[simp] lemma copied_copied (attributes : PlanAttributes R A) :
    attributes.copied.copied = attributes.copied := by
  cases attributes with
  | operator attributes => exact congrArg operator attributes.copied_copied
  | exchange p => rfl

lemma made_copied {attributes : PlanAttributes R A} : attributes.copied.Made ↔ attributes.Made := by
  cases attributes with
  | operator attributes => exact ProxyAttributes.made_copied
  | exchange p => rfl

@[simp] lemma operatorType_copied (attributes : PlanAttributes R A) :
    attributes.copied.operatorType = attributes.operatorType := by
  cases attributes with
  | operator attributes => exact attributes.operatorType_copied
  | exchange p => rfl

end PlanAttributes

/-- `RequiresRightInput`. -/
def OperatorType.requiresRightInput : OperatorType → Bool
  | .hashJoin | .sortMergeJoin | .union => true
  | _ => false

/-- A proxy of a plan, without its inputs. -/
structure PlanProxy (R A : Type) where
  identity : Bytes
  comment : Bytes := []
  attributes : PlanAttributes R A

namespace PlanProxy

/-- What a copy of a proxy has: the attributes, the identity and the comment, and those of the
copied inputs that the class takes. -/
def deepCopy (p : PlanProxy R A) (copiedLeftInput copiedRightInput : Option ℕ) :
    Except Exception (Node (PlanProxy R A)) := do
  let attributes ← p.attributes.deepCopy
  assert (p.identity ≠ []) "Expected non-empty identity string."
  return {
    value := { p with attributes }
    left := if p.attributes.operatorType = .import then none else copiedLeftInput
    right := if p.attributes.operatorType.requiresRightInput then copiedRightInput else none }

/-- The copy of a proxy that can be made. -/
def copied (p : PlanProxy R A) : PlanProxy R A := { p with attributes := p.attributes.copied }

@[simp] lemma copied_copied (p : PlanProxy R A) : p.copied.copied = p.copied := by
  rw [copied, copied, PlanAttributes.copied_copied]

/-- `SetTargetObject`. -/
def setTargetObject (targetObject : ObjectReference) (exportFormat : FileFormat) (p : PlanProxy R A) :
    Except Exception (PlanProxy R A) :=
  match p.attributes with
  | .operator (.export e) => do
    assert targetObject.etag.isEmpty "Target ObjectReference should not specify an ETag attribute."
    return { p with attributes := .operator (.export { e with targetObject, exportFormat }) }
  -- the proxy is cast without a check
  | _ => .error .undefinedBehavior

end PlanProxy

/-- The proxies that there are, by their addresses. -/
abbrev ProxyHeap (R A : Type) := List (Node (PlanProxy R A))

/-- A proxy of a plan as `SetInput` and the constructors leave it. -/
structure WellFormedProxy (node : Node (PlanProxy R A)) : Prop where
  made : node.value.attributes.Made
  identity_ne : node.value.identity ≠ []
  /-- Exactly the imports have no input. -/
  left : node.left = none ↔ node.value.attributes.operatorType = .import
  right : node.right.isSome → node.value.attributes.operatorType.requiresRightInput

/-- A plan with one export, which is the root. -/
structure IsPlan (heap : ProxyHeap R A) (root : ℕ) : Prop where
  acyclic : Acyclic heap root
  node : ∀ x, Reaches heap root x → ∃ node, heap[x]? = some node ∧ WellFormedProxy node
  root : ∃ node p, heap[root]? = some node ∧ node.value.attributes = .operator (.export p)

/-! ### The template -/

/-- `DeepCopy` of a plan. -/
def deepCopy (heap : ProxyHeap R A) (root : ℕ) : Except Exception (ℕ × ProxyHeap R A) :=
  copyGraph PlanProxy.deepCopy .undefinedBehavior heap root

/-- Whether there is no proxy with a left input at an address. -/
def isLeaf (heap : ProxyHeap R A) (x : ℕ) : Bool := heap[x]?.all fun node => node.left.isNone

/-- `PqpFindLeaves`. -/
def pqpFindLeaves (heap : ProxyHeap R A) (pqp : ℕ) : Except Exception (List ℕ) :=
  match visit heap (fun node => node.left.isSome) [] [pqp] with
  | none => .error .undefinedBehavior
  | some found => do
    let leaves := found.filter (isLeaf heap)
    assert (leaves ≠ []) "Did expect to find at least one leaf operator proxy!"
    return leaves

namespace PipelineFragmentTemplate

/-- `kTargetObjectPlaceholder`. -/
def kTargetObjectPlaceholder : ObjectReference :=
  { bucketName := "Placeholder", identifier := "Placeholder" }

/-- What the constructor does with a leaf. -/
def clearImport (p : PlanProxy R A) : Except Exception (PlanProxy R A) :=
  match p.attributes with
  | .operator (.import i) =>
    .ok { p with attributes := .operator (.import { i with objectReferences := [] }) }
  | _ => .error (.assertionFailed
      "Expected import proxy as a leaf node in the fragment template.")

/-- The constructor: the root of the templated plan. -/
def new (heap : ProxyHeap R A) (pipelinePlan : ℕ) : Except Exception (ℕ × ProxyHeap R A) := do
  assert (heap[pipelinePlan]?.any fun node => node.value.attributes.operatorType = .export)
    "Expected export proxy as the root of the fragment template."
  let (mutableTemplate, heap) ← deepCopy heap pipelinePlan
  let heap ← updateNode .undefinedBehavior
    (PlanProxy.setTargetObject kTargetObjectPlaceholder .orc) heap mutableTemplate
  let leafProxies ← pqpFindLeaves heap mutableTemplate
  let heap ← leafProxies.foldlM (updateNode .undefinedBehavior clearImport) heap
  return (mutableTemplate, heap)

/-- What a fragment does with a leaf. -/
def configureImport (fragmentDefinition : PipelineFragmentDefinition) (p : PlanProxy R A) :
    Except Exception (PlanProxy R A) :=
  match p.attributes with
  | .operator (.import i) =>
    match fragmentDefinition.identityToObjects.find p.identity with
    | some objectReferences =>
      .ok { p with
        attributes := .operator (.import { i with objectReferences, outputObjectsCount := 1 }) }
    | none => .error (.assertionFailed "Did not find ObjectReference for given import proxy.")
  -- the proxy is cast without a check
  | _ => .error .undefinedBehavior

/-- `GenerateFragmentPlan`. -/
def generateFragmentPlan (heap : ProxyHeap R A) (template : ℕ)
    (fragmentDefinition : PipelineFragmentDefinition) : Except Exception (ℕ × ProxyHeap R A) := do
  let (fragmentInstance, heap) ← deepCopy heap template
  let heap ← updateNode .undefinedBehavior
    (PlanProxy.setTargetObject fragmentDefinition.targetObject fragmentDefinition.targetFormat) heap
    fragmentInstance
  let leafProxies ← pqpFindLeaves heap fragmentInstance
  assert (leafProxies.length = fragmentDefinition.identityToObjects.entries.length)
    "Number of import identities is not equal to the number of import proxy leaves in the fragment template."
  let heap ← leafProxies.foldlM
    (updateNode .undefinedBehavior (configureImport fragmentDefinition)) heap
  return (fragmentInstance, heap)

end PipelineFragmentTemplate

/-! ### Copies of plans -/

variable {heap heap' : ProxyHeap R A} {root root' : ℕ} {node : Node (PlanProxy R A)}

/-- A well-formed proxy is copied, with the copies of its inputs. -/
lemma PlanProxy.deepCopy_eq (h : WellFormedProxy node) {left right : Option ℕ}
    (hleft : left.isSome = node.left.isSome) (hright : right.isSome = node.right.isSome) :
    node.value.deepCopy left right = .ok ⟨node.value.copied, left, right⟩ := by
  have hleft' : (if node.value.attributes.operatorType = .import then none else left) = left := by
    by_cases himport : node.value.attributes.operatorType = .import
    · rw [h.left.mpr himport] at hleft
      have hnone : left = none := by simpa using hleft
      rw [if_pos himport, hnone]
    · rw [if_neg himport]
  have hright' : (if node.value.attributes.operatorType.requiresRightInput then right else none) =
      right := by
    by_cases hrequires : node.value.attributes.operatorType.requiresRightInput
    · rw [if_pos hrequires]
    · have hnone : right = none := by
        rw [← Option.not_isSome_iff_eq_none, hright]
        exact fun hsome => hrequires (h.right hsome)
      rw [if_neg hrequires, hnone]
  rw [deepCopy, PlanAttributes.deepCopy_eq h.made]
  simp only [bind, Except.bind, h.identity_ne, ne_eq, not_false_eq_true, decide_true, assert_true,
    hleft', hright']
  rfl

/-- A plan is copied. -/
lemma deepCopy_isImage (h : IsPlan heap root) :
    ∃ root' heap' f, deepCopy heap root = .ok (root', heap') ∧ Extends heap heap' ∧
      IsImage heap heap' root root' f fun _ => PlanProxy.copied := by
  have hnode : ∀ x, Reaches heap root x → ∃ node, heap[x]? = some node ∧
      ∀ left right, left.isSome = node.left.isSome → right.isSome = node.right.isSome →
        node.value.deepCopy left right = .ok ⟨node.value.copied, left, right⟩ := by
    intro x hx
    obtain ⟨node, hnode, hwell⟩ := h.node x hx
    exact ⟨node, hnode, fun left right => PlanProxy.deepCopy_eq hwell⟩
  obtain ⟨root', heap', f, hcopy, hcopyOf⟩ :=
    @copyGraph_spec _ _ PlanProxy.deepCopy Exception.undefinedBehavior heap root h.acyclic (by
      intro x hx
      obtain ⟨node, hget, hok⟩ := hnode x hx
      exact ⟨node, hget, fun left right hleft hright => ⟨_, hok left right hleft hright⟩⟩)
  exact ⟨root', heap', f, hcopy, hcopyOf.extends, hcopyOf.isImage hnode⟩

/-- A proxy without a left input has no right one. -/
lemma WellFormedProxy.right_eq_none (h : WellFormedProxy node) (hleft : node.left = none) :
    node.right = none := by
  by_contra hne
  have hrequires := h.right (Option.isSome_iff_ne_none.mpr hne)
  rw [h.left.mp hleft] at hrequires
  cases hrequires

/-- The leaves that are found are those that the root reaches, each once. -/
lemma pqpFindLeaves_spec (hacyclic : Acyclic heap root)
    (hnode : ∀ x, Reaches heap root x → ∃ node, heap[x]? = some node ∧
      (node.left = none → node.inputs = [])) :
    ∃ leaves, pqpFindLeaves heap root = .ok leaves ∧ leaves.Nodup ∧
      ∀ x, x ∈ leaves ↔ Reaches heap root x ∧ ∃ node, heap[x]? = some node ∧ node.left = none := by
  obtain ⟨found, hfound, hnodup, hmem⟩ := @visit_root _ heap (fun node => node.left.isSome) root (by
    intro x hx
    obtain ⟨node, hget, hinputs⟩ := hnode x hx
    exact ⟨node, hget, fun hleft => hinputs (by simpa using hleft)⟩)
  have hleaf : ∀ x, x ∈ found.filter (isLeaf heap) ↔
      Reaches heap root x ∧ ∃ node, heap[x]? = some node ∧ node.left = none := by
    intro x
    rw [List.mem_filter, hmem]
    refine and_congr_right fun hx => ?_
    obtain ⟨node, hget, -⟩ := hnode x hx
    rw [isLeaf, hget]
    simp
  have hne : found.filter (isLeaf heap) ≠ [] := by
    obtain ⟨x, hx, hinputs⟩ := exists_reaches_not_isInput hacyclic
    obtain ⟨node, hget, -⟩ := hnode x hx
    have hleft : node.left = none := by
      cases hleft : node.left with
      | none => rfl
      | some i => exact absurd ⟨node, hget, by simp [Node.inputs, hleft]⟩ (hinputs i)
    exact List.ne_nil_of_mem ((hleaf x).mpr ⟨hx, node, hget, hleft⟩)
  refine ⟨found.filter (isLeaf heap), ?_, hnodup.filter _, hleaf⟩
  rw [pqpFindLeaves, hfound]
  simp only [ne_eq, hne, not_false_eq_true, decide_true, assert_true]
  rfl

/-! ### Configured copies -/

/-- A proxy with a target if it is the export at the root, and with other attributes if it is an
import. -/
def PlanProxy.configured (targetObject : ObjectReference) (exportFormat : FileFormat)
    (onImport : Bytes → ImportOperatorProxy R A → ImportOperatorProxy R A) (isRoot : Bool)
    (p : PlanProxy R A) : PlanProxy R A :=
  match p.attributes with
  | .operator (.export e) =>
    if isRoot then
      { p with attributes := .operator (.export { e with targetObject, exportFormat }) }
    else p
  | .operator (.import i) => { p with attributes := .operator (.import (onImport p.identity i)) }
  | _ => p

section Configure

variable {targetObject : ObjectReference} {exportFormat : FileFormat}
  {onImport : Bytes → ImportOperatorProxy R A → ImportOperatorProxy R A}
  {update : PlanProxy R A → Except Exception (PlanProxy R A)}

lemma exists_import_of_operatorType_eq {attributes : PlanAttributes R A}
    (h : attributes.operatorType = .import) : ∃ i, attributes = .operator (.import i) := by
  cases attributes with
  | operator attributes =>
    cases attributes with
    | «import» i => exact ⟨i, rfl⟩
    | join p => cases hp : p.implementation <;> simp [PlanAttributes.operatorType,
        ProxyAttributes.operatorType, hp, JoinImplementation.operatorType] at h
    | _ => cases h
  | exchange p => cases h

/-- The target of the copied root is set. -/
lemma setTargetObject_spec (h : IsPlan heap root) (hetag : targetObject.etag = [])
    (onImport : Bytes → ImportOperatorProxy R A → ImportOperatorProxy R A) :
    ∃ root' heap₁ heap₂ f, deepCopy heap root = .ok (root', heap₁) ∧
      updateNode .undefinedBehavior (PlanProxy.setTargetObject targetObject exportFormat) heap₁
        root' = .ok heap₂ ∧ Extends heap heap₂ ∧
      IsImage heap heap₂ root root' f fun x p =>
        if x = root then p.copied.configured targetObject exportFormat onImport true
        else p.copied := by
  obtain ⟨root', heap₁, f, hcopy, hextends, himage⟩ := deepCopy_isImage h
  obtain ⟨node, e, hroot, he⟩ := h.root
  have hroot' := himage.node root node .refl hroot
  rw [himage.map_root] at hroot'
  have hset : PlanProxy.setTargetObject targetObject exportFormat node.value.copied =
      .ok (node.value.copied.configured targetObject exportFormat onImport true) := by
    rw [PlanProxy.setTargetObject, PlanProxy.configured, PlanProxy.copied, he]
    simp only [PlanAttributes.copied, ProxyAttributes.copied, hetag]
    rfl
  obtain ⟨m, hm⟩ : ∃ m : ℕ → PlanProxy R A → PlanProxy R A, ∀ y p, m y p =
      if y = root' then p.configured targetObject exportFormat onImport true else p :=
    ⟨_, fun _ _ => rfl⟩
  have hget : ∀ y, (heap₁.set root' (Node.mapValue
      (fun p => p.configured targetObject exportFormat onImport true)
      ⟨node.value.copied, node.left.map f, node.right.map f⟩))[y]? =
        heap₁[y]?.map (Node.mapValue (m y)) := by
    intro y
    rw [getElem?_set_mapValue hroot' y, funext (hm y)]
  refine ⟨root', heap₁, _, f, hcopy, updateNode_eq _ hroot' hset, hextends.update hget ?_,
    (himage.update List.length_set hget).congr ?_⟩
  · intro y hy p
    have hle := himage.length_le .refl
    rw [himage.map_root] at hle
    rw [hm, if_neg (Nat.ne_of_lt (hy.trans_le hle))]
  · intro x node' hx _
    have hroot_iff : f x = root' ↔ x = root := by
      rw [← himage.map_root]
      exact ⟨fun heq => himage.bijOn.injOn hx .refl heq, congrArg f⟩
    rw [hm]
    simp only [hroot_iff]

/-- The leaves of an image of a plan are the images of its leaves. -/
lemma pqpFindLeaves_image {f : ℕ → ℕ} {g : ℕ → PlanProxy R A → PlanProxy R A} (h : IsPlan heap root)
    (hextends : Extends heap heap') (himage : IsImage heap heap' root root' f g) :
    ∃ leaves, pqpFindLeaves heap' root' = .ok leaves ∧ leaves.Nodup ∧
      ∀ y, y ∈ leaves ↔ ∃ x node, Reaches heap root x ∧ heap[x]? = some node ∧ node.left = none ∧
        f x = y := by
  have hacyclic := himage.acyclic hextends.length_le h.acyclic
  obtain ⟨leaves, hleaves, hnodup, hmem⟩ := pqpFindLeaves_spec hacyclic (by
    intro y hy
    obtain ⟨x, hx, rfl⟩ := himage.reaches_iff.mp hy
    obtain ⟨node, hget, hwell⟩ := h.node x hx
    refine ⟨_, himage.node x node hx hget, fun hleft => ?_⟩
    have hleft : node.left = none := Option.map_eq_none_iff.mp hleft
    rw [Node.inputs, hleft, hwell.right_eq_none hleft]
    rfl)
  refine ⟨leaves, hleaves, hnodup, fun y => ?_⟩
  rw [hmem]
  constructor
  · rintro ⟨hy, node', hget', hleft⟩
    obtain ⟨x, hx, rfl⟩ := himage.reaches_iff.mp hy
    obtain ⟨node, hget, -⟩ := h.node x hx
    obtain rfl := Option.some.inj ((himage.node x node hx hget).symm.trans hget')
    exact ⟨x, node, hx, hget, Option.map_eq_none_iff.mp hleft, rfl⟩
  · rintro ⟨x, node, hx, hget, hleft, rfl⟩
    exact ⟨himage.reaches_iff.mpr ⟨x, hx, rfl⟩, _, himage.node x node hx hget,
      Option.map_eq_none_iff.mpr hleft⟩

/-- The root of a plan is not a leaf. -/
lemma IsPlan.ne_root (h : IsPlan heap root) {x : ℕ} (hget : heap[x]? = some node)
    (hwell : WellFormedProxy node) (hleft : node.left = none) : x ≠ root := by
  rintro rfl
  obtain ⟨node', e, hroot, he⟩ := h.root
  obtain rfl := Option.some.inj (hget.symm.trans hroot)
  have htype := hwell.left.mp hleft
  rw [he] at htype
  cases htype

/-- Only exports and imports are configured. -/
lemma PlanProxy.configured_false {p : PlanProxy R A} (h : p.attributes.operatorType ≠ .import) :
    p.configured targetObject exportFormat onImport false = p := by
  rw [configured]
  split
  · rfl
  · next i hi =>
    rw [hi] at h
    exact absurd rfl h
  · rfl

/-- The leaves of a copy whose target has been set are updated. -/
lemma updateLeaves_spec {f : ℕ → ℕ} (h : IsPlan heap root) (hextends : Extends heap heap')
    (himage : IsImage heap heap' root root' f fun x p =>
      if x = root then p.copied.configured targetObject exportFormat onImport true else p.copied)
    {leaves : List ℕ} (hnodup : leaves.Nodup)
    (hmem : ∀ y, y ∈ leaves ↔ ∃ x node, Reaches heap root x ∧ heap[x]? = some node ∧
      node.left = none ∧ f x = y)
    (hupdate : ∀ x node, Reaches heap root x → heap[x]? = some node → node.left = none →
      update node.value.copied =
        .ok (node.value.copied.configured targetObject exportFormat onImport false)) :
    ∃ heap₃, leaves.foldlM (updateNode .undefinedBehavior update) heap' = .ok heap₃ ∧
      Extends heap heap₃ ∧
      IsImage heap heap₃ root root' f fun x p =>
        p.copied.configured targetObject exportFormat onImport (x = root) := by
  have hok : ∀ y ∈ leaves, ∃ node, heap'[y]? = some node ∧ update node.value =
      .ok (node.value.configured targetObject exportFormat onImport false) := by
    intro y hy
    obtain ⟨x, node, hx, hget, hleft, rfl⟩ := (hmem y).mp hy
    obtain ⟨node₂, hget₂, hwell⟩ := h.node x hx
    obtain rfl := Option.some.inj (hget.symm.trans hget₂)
    refine ⟨_, himage.node x node hx hget, ?_⟩
    rw [if_neg (h.ne_root hget hwell hleft)]
    exact hupdate x node hx hget hleft
  obtain ⟨heap₃, hfold, hlength, hget₃⟩ := foldlM_updateNode .undefinedBehavior hnodup hok
  refine ⟨heap₃, hfold, hextends.update hget₃ ?_, (himage.update hlength hget₃).congr ?_⟩
  · intro y hy p
    refine if_neg fun hleaf => ?_
    obtain ⟨x, -, hx, -, -, rfl⟩ := (hmem y).mp hleaf
    exact absurd hy (Nat.not_lt_of_le (himage.length_le hx))
  · intro x node hx hget
    obtain ⟨node₂, hget₂, hwell⟩ := h.node x hx
    obtain rfl := Option.some.inj (hget.symm.trans hget₂)
    have hleaf_iff : f x ∈ leaves ↔ node.left = none := by
      rw [hmem]
      constructor
      · rintro ⟨x', node', hx', hget', hleft, heq⟩
        obtain rfl := himage.bijOn.injOn hx' hx heq
        obtain rfl := Option.some.inj (hget.symm.trans hget')
        exact hleft
      · exact fun hleft => ⟨x, node, hx, hget, hleft, rfl⟩
    by_cases hleft : node.left = none
    · have hne := h.ne_root hget hwell hleft
      rw [if_pos (hleaf_iff.mpr hleft), if_neg hne, decide_eq_false hne]
    · rw [if_neg (mt hleaf_iff.mp hleft)]
      by_cases hxroot : x = root
      · rw [if_pos hxroot, decide_eq_true hxroot]
      · rw [if_neg hxroot, decide_eq_false hxroot, PlanProxy.configured_false]
        rw [PlanProxy.copied, PlanAttributes.operatorType_copied]
        exact mt hwell.left.mpr hleft

/-- **A plan is copied and configured**: the target of the root is set, and then its leaves are
updated. -/
lemma configure_spec (h : IsPlan heap root) (hetag : targetObject.etag = [])
    (hupdate : ∀ x node, Reaches heap root x → heap[x]? = some node → node.left = none →
      update node.value.copied =
        .ok (node.value.copied.configured targetObject exportFormat onImport false)) :
    ∃ root' heap₁ heap₂ leaves heap₃ f, deepCopy heap root = .ok (root', heap₁) ∧
      updateNode .undefinedBehavior (PlanProxy.setTargetObject targetObject exportFormat) heap₁
        root' = .ok heap₂ ∧
      pqpFindLeaves heap₂ root' = .ok leaves ∧ leaves.Nodup ∧
      (∀ y, y ∈ leaves ↔ ∃ x node, Reaches heap root x ∧ heap[x]? = some node ∧ node.left = none ∧
        f x = y) ∧
      leaves.foldlM (updateNode .undefinedBehavior update) heap₂ = .ok heap₃ ∧
      Extends heap heap₃ ∧
      IsImage heap heap₃ root root' f fun x p =>
        p.copied.configured targetObject exportFormat onImport (x = root) := by
  obtain ⟨root', heap₁, heap₂, f, hcopy, htarget, hextends, himage⟩ :=
    setTargetObject_spec h hetag onImport
  obtain ⟨leaves, hleaves, hnodup, hmem⟩ := pqpFindLeaves_image h hextends himage
  obtain ⟨heap₃, hfold, hextends₃, himage₃⟩ :=
    updateLeaves_spec h hextends himage hnodup hmem hupdate
  exact ⟨root', heap₁, heap₂, leaves, heap₃, f, hcopy, htarget, hleaves, hnodup, hmem, hfold,
    hextends₃, himage₃⟩

namespace PlanProxy

lemma identity_configured {isRoot : Bool} (p : PlanProxy R A) :
    (p.configured targetObject exportFormat onImport isRoot).identity = p.identity := by
  rw [configured]
  split
  · split <;> rfl
  · rfl
  · rfl

lemma operatorType_configured {isRoot : Bool} (p : PlanProxy R A) :
    (p.configured targetObject exportFormat onImport isRoot).attributes.operatorType =
      p.attributes.operatorType := by
  rw [configured]
  split
  · next e he =>
    rw [he]
    split
    · rfl
    · rw [he]
  · next i hi =>
    rw [hi]
    rfl
  · rfl

lemma made_configured {isRoot : Bool} {p : PlanProxy R A} (h : p.attributes.Made)
    (hetag : targetObject.etag = [])
    (honImport : ∀ identity i, (ProxyAttributes.import i).Made →
      (ProxyAttributes.import (onImport identity i)).Made) :
    (p.configured targetObject exportFormat onImport isRoot).attributes.Made := by
  rw [configured]
  split
  · next e he =>
    split
    · exact hetag
    · exact h
  · next i hi =>
    rw [hi] at h
    exact honImport p.identity i h
  · exact h

/-- What has been configured is not changed by a copy. -/
lemma copied_configured {isRoot : Bool} {p : PlanProxy R A} (h : p.copied = p) :
    (p.configured targetObject exportFormat onImport isRoot).copied =
      p.configured targetObject exportFormat onImport isRoot := by
  rw [configured]
  split
  · split
    · rfl
    · exact h
  · rfl
  · exact h

end PlanProxy

/-- An image of a plan in which the target of the root is set and the imports are other ones. -/
lemma IsPlan.image {f : ℕ → ℕ} (h : IsPlan heap root) (hextends : Extends heap heap')
    (himage : IsImage heap heap' root root' f fun x p =>
      p.copied.configured targetObject exportFormat onImport (x = root))
    (hetag : targetObject.etag = [])
    (honImport : ∀ identity i, (ProxyAttributes.import i).Made →
      (ProxyAttributes.import (onImport identity i)).Made) : IsPlan heap' root' where
  acyclic := himage.acyclic hextends.length_le h.acyclic
  node y hy := by
    obtain ⟨x, hx, rfl⟩ := himage.reaches_iff.mp hy
    obtain ⟨node, hget, hwell⟩ := h.node x hx
    refine ⟨_, himage.node x node hx hget, ?_, ?_, ?_, ?_⟩
    · exact PlanProxy.made_configured (PlanAttributes.made_copied.mpr hwell.made) hetag honImport
    · rw [PlanProxy.identity_configured]
      exact hwell.identity_ne
    · rw [PlanProxy.operatorType_configured, PlanProxy.copied, PlanAttributes.operatorType_copied,
        ← hwell.left, Option.map_eq_none_iff]
    · rw [PlanProxy.operatorType_configured, PlanProxy.copied, PlanAttributes.operatorType_copied,
        Option.isSome_map]
      exact hwell.right
  root := by
    obtain ⟨node, e, hget, he⟩ := h.root
    have hget' := himage.node root node .refl hget
    rw [himage.map_root] at hget'
    refine ⟨_, { e with targetObject, exportFormat }, hget', ?_⟩
    simp [PlanProxy.configured, PlanProxy.copied, he, PlanAttributes.copied,
      ProxyAttributes.copied]

end Configure

namespace PipelineFragmentTemplate

/-- A templated plan: a plan whose proxies have no more than their copies. -/
structure IsTemplate (heap : ProxyHeap R A) (template : ℕ) : Prop extends IsPlan heap template where
  copied : ∀ x node, Reaches heap template x → heap[x]? = some node →
    node.value.copied = node.value

/-- A proxy of a template: the export has the placeholder for its target, and the imports have no
objects. -/
def templated (isRoot : Bool) (p : PlanProxy R A) : PlanProxy R A :=
  p.copied.configured kTargetObjectPlaceholder .orc (fun _ i => { i with objectReferences := [] })
    isRoot

/-- A proxy of a fragment: the export has the target of the definition, and the imports have the
objects of their identities, and one output object. -/
def configured (fragmentDefinition : PipelineFragmentDefinition) (isRoot : Bool)
    (p : PlanProxy R A) : PlanProxy R A :=
  p.configured fragmentDefinition.targetObject fragmentDefinition.targetFormat
    (fun identity i => { i with
      objectReferences := (fragmentDefinition.identityToObjects.find identity).getD []
      outputObjectsCount := 1 })
    isRoot

lemma IsTemplate.allocated {template : ℕ} (h : IsTemplate heap template) (x : ℕ)
    (hx : Reaches heap template x) : ∃ node, heap[x]? = some node := by
  obtain ⟨node, hget, -⟩ := h.node x hx
  exact ⟨node, hget⟩

/-- A template stays one as long as its proxies are not changed. -/
lemma IsTemplate.extends {template : ℕ} (h : IsTemplate heap template)
    (hextends : Extends heap heap') : IsTemplate heap' template where
  acyclic := hextends.acyclic h.allocated h.acyclic
  node x hx := by
    obtain ⟨node, hget, hwell⟩ := h.node x ((hextends.reaches_iff h.allocated).mp hx)
    exact ⟨node, hextends x node hget, hwell⟩
  root := by
    obtain ⟨node, p, hget, hp⟩ := h.root
    exact ⟨node, p, hextends _ node hget, hp⟩
  copied x node hx hget := by
    have hx := (hextends.reaches_iff h.allocated).mp hx
    obtain ⟨node', hget'⟩ := h.allocated x hx
    obtain rfl := Option.some.inj (hget.symm.trans (hextends x node' hget'))
    exact h.copied x node hx hget'

/-- An import of a plan. -/
lemma WellFormedProxy.exists_import {node : Node (PlanProxy R A)} (h : WellFormedProxy node)
    (hleft : node.left = none) : ∃ i, node.value.attributes = .operator (.import i) :=
  exists_import_of_operatorType_eq (h.left.mp hleft)

/-- **A template** is constructed from every plan: it is the plan without the target and the objects
of the imports. -/
theorem new_spec {plan : ℕ} (h : IsPlan heap plan) :
    ∃ template heap' f, new heap plan = .ok (template, heap') ∧ Extends heap heap' ∧
      IsTemplate heap' template ∧
      IsImage heap heap' plan template f fun x p => templated (x = plan) p := by
  have hupdate : ∀ x node, Reaches heap plan x → heap[x]? = some node → node.left = none →
      clearImport node.value.copied = .ok (node.value.copied.configured kTargetObjectPlaceholder .orc
        (fun _ i => { i with objectReferences := [] }) false) := by
    intro x node hx hget hleft
    obtain ⟨node', hget', hwell⟩ := h.node x hx
    obtain rfl := Option.some.inj (hget.symm.trans hget')
    obtain ⟨i, hi⟩ := WellFormedProxy.exists_import hwell hleft
    simp [clearImport, PlanProxy.configured, PlanProxy.copied, hi, PlanAttributes.copied,
      ProxyAttributes.copied]
  obtain ⟨template, heap₁, heap₂, leaves, heap₃, f, hcopy, htarget, hleaves, -, -, hfold, hextends,
    himage⟩ := @configure_spec _ _ _ _ kTargetObjectPlaceholder .orc _
      _ h rfl hupdate
  have hplan := h.image hextends himage rfl fun identity i hi => hi
  refine ⟨template, heap₃, f, ?_, hextends, ⟨hplan, ?_⟩, himage⟩
  · obtain ⟨node, p, hget, hp⟩ := h.root
    have htype : (heap[plan]?.any fun node =>
        node.value.attributes.operatorType = .export) = true := by
      rw [hget, Option.any_some, hp]
      rfl
    rw [new, htype]
    simp only [bind, Except.bind, assert_true, hcopy, htarget, hleaves, hfold]
    rfl
  · intro y node hy hget
    obtain ⟨x, hx, rfl⟩ := himage.reaches_iff.mp hy
    obtain ⟨node', hget', -⟩ := h.node x hx
    obtain rfl := Option.some.inj ((himage.node x node' hx hget').symm.trans hget)
    exact PlanProxy.copied_configured node'.value.copied_copied

/-- A leaf with an identity. -/
def HasLeaf (heap : ProxyHeap R A) (template : ℕ) (identity : Bytes) (x : ℕ) : Prop :=
  Reaches heap template x ∧ ∃ node, heap[x]? = some node ∧ node.left = none ∧
    node.value.identity = identity

/-- A definition whose identities are exactly those of the import leaves. -/
def IdentitiesMatch (heap : ProxyHeap R A) (template : ℕ)
    (fragmentDefinition : PipelineFragmentDefinition) : Prop :=
  ∀ identity, identity ∈ fragmentDefinition.identityToObjects.entries.map Prod.fst ↔
    ∃ x, HasLeaf heap template identity x

/-- No two import leaves have the same identity. -/
def IdentitiesUnique (heap : ProxyHeap R A) (template : ℕ) : Prop :=
  ∀ identity x x', HasLeaf heap template identity x → HasLeaf heap template identity x' → x = x'

lemma find_isSome_iff {m : IdentityMap} {identity : Bytes} :
    (m.find identity).isSome ↔ identity ∈ m.entries.map Prod.fst := by
  rw [IdentityMap.find, Option.isSome_map, List.find?_isSome, List.mem_map]
  simp only [decide_eq_true_eq]

/-- A fragment is generated from a template: the plan is a copy of the templated one, at new
addresses and with every proxy once, in which only the export and the imports are configured;
what there was is as it was. -/
def Generates (heap : ProxyHeap R A) (template : ℕ)
    (fragmentDefinition : PipelineFragmentDefinition) : Prop :=
  ∃ fragmentInstance heap' f,
    generateFragmentPlan heap template fragmentDefinition = .ok (fragmentInstance, heap') ∧
    Extends heap heap' ∧
    IsImage heap heap' template fragmentInstance f fun x p =>
      configured fragmentDefinition (x = template) p

/-- There are as many leaves as identities if and only if the identities are unique. -/
lemma length_leaves_eq_iff {template : ℕ} {fragmentDefinition : PipelineFragmentDefinition}
    (hmatch : IdentitiesMatch heap template fragmentDefinition) {leaves : List ℕ} {f : ℕ → ℕ}
    (hnodup : leaves.Nodup) (hinj : Set.InjOn f {x | Reaches heap template x})
    (hmem : ∀ y, y ∈ leaves ↔ ∃ x node, Reaches heap template x ∧ heap[x]? = some node ∧
      node.left = none ∧ f x = y) (identityOf : ℕ → Bytes)
    (hidentity : ∀ x node, Reaches heap template x → heap[x]? = some node →
      identityOf (f x) = node.value.identity) :
    leaves.length = fragmentDefinition.identityToObjects.entries.length ↔
      IdentitiesUnique heap template := by
  have hleaf : ∀ {identity x}, HasLeaf heap template identity x →
      f x ∈ leaves ∧ identityOf (f x) = identity := by
    rintro identity x ⟨hx, node, hget, hleft, rfl⟩
    exact ⟨(hmem _).mpr ⟨x, node, hx, hget, hleft, rfl⟩, hidentity x node hx hget⟩
  have hleaves : ∀ {y}, y ∈ leaves → ∃ x, HasLeaf heap template (identityOf y) x ∧ f x = y := by
    intro y hy
    obtain ⟨x, node, hx, hget, hleft, rfl⟩ := (hmem y).mp hy
    exact ⟨x, ⟨hx, node, hget, hleft, (hidentity x node hx hget).symm⟩, rfl⟩
  have hidentities : ∀ identity, identity ∈ leaves.map identityOf ↔
      identity ∈ fragmentDefinition.identityToObjects.entries.map Prod.fst := by
    intro identity
    rw [hmatch, List.mem_map]
    constructor
    · rintro ⟨y, hy, rfl⟩
      obtain ⟨x, hx, -⟩ := hleaves hy
      exact ⟨x, hx⟩
    · rintro ⟨x, hx⟩
      exact ⟨f x, hleaf hx⟩
  have hkeys := fragmentDefinition.identityToObjects.nodup
  constructor
  · intro hlength identity x x' hx hx'
    -- the identities of the definition are among as many identities of leaves
    have hperm : (fragmentDefinition.identityToObjects.entries.map Prod.fst).Perm
        (leaves.map identityOf) := by
      refine (List.subperm_of_subset hkeys fun identity => (hidentities identity).mpr)
        |>.perm_of_length_le ?_
      rw [List.length_map, List.length_map, hlength]
    have hmap := hperm.nodup_iff.mp hkeys
    refine hinj hx.1 hx'.1 (List.inj_on_of_nodup_map hmap (hleaf hx).1 (hleaf hx').1 ?_)
    rw [(hleaf hx).2, (hleaf hx').2]
  · intro hunique
    have hmap : (leaves.map identityOf).Nodup := by
      refine hnodup.map_on ?_
      intro y hy y' hy' heq
      obtain ⟨x, hx, rfl⟩ := hleaves hy
      obtain ⟨x', hx', rfl⟩ := hleaves hy'
      rw [← heq] at hx'
      rw [hunique _ x x' hx hx']
    have hperm := (List.perm_ext_iff_of_nodup hmap hkeys).mpr hidentities
    simpa using hperm.length_eq

/-- **A fragment** of a template is generated, for a definition with the identities of the imports
and a target without a tag, if and only if the imports have different identities. -/
theorem generates_iff {template : ℕ} (h : IsTemplate heap template)
    {fragmentDefinition : PipelineFragmentDefinition}
    (hmatch : IdentitiesMatch heap template fragmentDefinition)
    (hetag : fragmentDefinition.targetObject.etag = []) :
    Generates heap template fragmentDefinition ↔ IdentitiesUnique heap template := by
  have hupdate : ∀ x node, Reaches heap template x → heap[x]? = some node → node.left = none →
      configureImport fragmentDefinition node.value.copied = .ok (node.value.copied.configured
        fragmentDefinition.targetObject fragmentDefinition.targetFormat
        (fun identity i => { i with
          objectReferences := (fragmentDefinition.identityToObjects.find identity).getD []
          outputObjectsCount := 1 }) false) := by
    intro x node hx hget hleft
    obtain ⟨node', hget', hwell⟩ := h.node x hx
    obtain rfl := Option.some.inj (hget.symm.trans hget')
    obtain ⟨i, hi⟩ := WellFormedProxy.exists_import hwell hleft
    obtain ⟨objectReferences, hfind⟩ := Option.isSome_iff_exists.mp
      (find_isSome_iff.mpr ((hmatch _).mpr ⟨x, hx, node, hget, hleft, rfl⟩))
    simp [configureImport, PlanProxy.configured, PlanProxy.copied, hi, PlanAttributes.copied,
      ProxyAttributes.copied, hfind]
  obtain ⟨fragmentInstance, heap₁, heap₂, leaves, heap₃, f, hcopy, htarget, hleaves, hnodup, hmem,
    hfold, hextends, himage⟩ := configure_spec h.toIsPlan hetag hupdate
  have hidentity : ∀ x node, Reaches heap template x → heap[x]? = some node →
      (heap₃[f x]?.elim [] fun node => node.value.identity) = node.value.identity := by
    intro x node hx hget
    rw [himage.node x node hx hget, Option.elim_some, PlanProxy.identity_configured]
    rfl
  have hlength := length_leaves_eq_iff hmatch hnodup himage.bijOn.injOn hmem
    (fun y => heap₃[y]?.elim [] fun node => node.value.identity) hidentity
  constructor
  · rintro ⟨fragmentInstance', heap', f', hgenerate, -⟩
    rw [← hlength]
    by_contra hne
    rw [generateFragmentPlan] at hgenerate
    simp only [bind, Except.bind, hcopy, htarget, hleaves, hne, decide_false, assert_false]
      at hgenerate
    cases hgenerate
  · intro hunique
    refine ⟨fragmentInstance, heap₃, f, ?_, hextends, himage.congr ?_⟩
    · rw [generateFragmentPlan]
      simp only [bind, Except.bind, hcopy, htarget, hleaves, hlength.mpr hunique, decide_true,
        assert_true, hfold]
      rfl
    · intro x node hx hget
      rw [h.copied x node hx hget]
      rfl

/-- A leaf of an image is the image of a leaf. -/
lemma hasLeaf_image {f : ℕ → ℕ} {g : ℕ → PlanProxy R A → PlanProxy R A}
    (h : IsImage heap heap' root root' f g) (hg : ∀ x p, (g x p).identity = p.identity)
    {identity : Bytes} {y : ℕ} :
    HasLeaf heap' root' identity y ↔ ∃ x, HasLeaf heap root identity x ∧ f x = y := by
  constructor
  · rintro ⟨hy, node', hget', hleft, rfl⟩
    obtain ⟨x, hx, rfl⟩ := h.reaches_iff.mp hy
    obtain ⟨node, hget⟩ := h.allocated x hx
    obtain rfl := Option.some.inj ((h.node x node hx hget).symm.trans hget')
    exact ⟨x, ⟨hx, node, hget, Option.map_eq_none_iff.mp hleft, (hg x node.value).symm⟩, rfl⟩
  · rintro ⟨x, ⟨hx, node, hget, hleft, rfl⟩, rfl⟩
    exact ⟨h.reaches_iff.mpr ⟨x, hx, rfl⟩, _, h.node x node hx hget,
      Option.map_eq_none_iff.mpr hleft, hg x node.value⟩

/-- A leaf stays one as long as no proxy is changed. -/
lemma hasLeaf_extends {template : ℕ} (h : IsTemplate heap template) (hextends : Extends heap heap')
    {identity : Bytes} {x : ℕ} :
    HasLeaf heap' template identity x ↔ HasLeaf heap template identity x := by
  rw [HasLeaf, HasLeaf, hextends.reaches_iff h.allocated]
  refine and_congr_right fun hx => ?_
  obtain ⟨node, hget⟩ := h.allocated x hx
  rw [hget, hextends x node hget]

/-- The template of a plan has leaves with the identities of the plan, whatever was made since it was
constructed. -/
lemma new_identities {plan : ℕ} (h : IsPlan heap plan) :
    ∃ template heap₁, new heap plan = .ok (template, heap₁) ∧ Extends heap heap₁ ∧
      ∀ heap₂, Extends heap₁ heap₂ → IsTemplate heap₂ template ∧
        (IdentitiesUnique heap₂ template ↔ IdentitiesUnique heap plan) ∧
        ∀ fragmentDefinition, IdentitiesMatch heap₂ template fragmentDefinition ↔
          IdentitiesMatch heap plan fragmentDefinition := by
  obtain ⟨template, heap₁, f, hnew, hextends, htemplate, himage⟩ := new_spec h
  refine ⟨template, heap₁, hnew, hextends, ?_⟩
  intro heap₂ hextends₂
  have hleaf : ∀ {identity y}, HasLeaf heap₂ template identity y ↔
      ∃ x, HasLeaf heap plan identity x ∧ f x = y := by
    intro identity y
    rw [hasLeaf_extends htemplate hextends₂, hasLeaf_image himage]
    intro x p
    rw [templated, PlanProxy.identity_configured]
    rfl
  refine ⟨htemplate.extends hextends₂, ⟨?_, ?_⟩, ?_⟩
  · intro hunique identity x x' hx hx'
    apply himage.bijOn.injOn hx.1 hx'.1
    exact hunique identity _ _ (hleaf.mpr ⟨x, hx, rfl⟩) (hleaf.mpr ⟨x', hx', rfl⟩)
  · intro hunique identity y y' hy hy'
    obtain ⟨x, hx, rfl⟩ := hleaf.mp hy
    obtain ⟨x', hx', rfl⟩ := hleaf.mp hy'
    rw [hunique identity x x' hx hx']
  · intro fragmentDefinition
    refine forall_congr' fun identity => iff_congr Iff.rfl ⟨?_, ?_⟩
    · rintro ⟨y, hy⟩
      obtain ⟨x, hx, -⟩ := hleaf.mp hy
      exact ⟨x, hx⟩
    · rintro ⟨x, hx⟩
      exact ⟨f x, hleaf.mpr ⟨x, hx, rfl⟩⟩

/-- **Fragments** are generated from the template of every plan whose imports have different
identities, whatever was made since then, for every definition with these identities and a target
without a tag. -/
theorem new_generates {plan : ℕ} (h : IsPlan heap plan) (hunique : IdentitiesUnique heap plan) :
    ∃ template heap₁, new heap plan = .ok (template, heap₁) ∧ Extends heap heap₁ ∧
      ∀ heap₂, Extends heap₁ heap₂ → ∀ fragmentDefinition,
        IdentitiesMatch heap plan fragmentDefinition → fragmentDefinition.targetObject.etag = [] →
          Generates heap₂ template fragmentDefinition := by
  obtain ⟨template, heap₁, hnew, hextends, hlater⟩ := new_identities h
  refine ⟨template, heap₁, hnew, hextends, ?_⟩
  intro heap₂ hextends₂ fragmentDefinition hmatch hetag
  obtain ⟨htemplate, hunique_iff, hmatch_iff⟩ := hlater heap₂ hextends₂
  exact (generates_iff htemplate ((hmatch_iff _).mpr hmatch) hetag).mpr (hunique_iff.mpr hunique)

/-- A target with a tag is refused. -/
lemma not_generates_of_etag {template : ℕ} (h : IsTemplate heap template)
    {fragmentDefinition : PipelineFragmentDefinition}
    (hetag : fragmentDefinition.targetObject.etag ≠ []) :
    ¬ Generates heap template fragmentDefinition := by
  rintro ⟨fragmentInstance, heap', f, hgenerate, -⟩
  obtain ⟨template', heap₁, f, hcopy, -, himage⟩ := deepCopy_isImage h.toIsPlan
  obtain ⟨node, e, hroot, he⟩ := h.root
  have hroot' := himage.node template node .refl hroot
  rw [himage.map_root] at hroot'
  have hempty : fragmentDefinition.targetObject.etag.isEmpty = false := by simpa using hetag
  have hset : PlanProxy.setTargetObject fragmentDefinition.targetObject
      fragmentDefinition.targetFormat node.value.copied = .error (.assertionFailed
        "Target ObjectReference should not specify an ETag attribute.") := by
    rw [PlanProxy.setTargetObject, PlanProxy.copied, he, hempty]
    rfl
  rw [generateFragmentPlan, hcopy] at hgenerate
  simp only [bind, Except.bind, updateNode, hroot', hset] at hgenerate
  cases hgenerate

/-! ### Plans of imports -/

/-- Well-formed proxies that have been made after their inputs are a plan under an export. -/
lemma isPlan_of_madeInOrder (horder : MadeInOrder heap) (hnodes : ∀ node ∈ heap, WellFormedProxy node)
    (hroot : ∃ node p, heap[root]? = some node ∧ node.value.attributes = .operator (.export p)) :
    IsPlan heap root where
  acyclic := horder.acyclic root
  node x hx := by
    obtain ⟨node, p, hget, hp⟩ := hroot
    have hlt := (List.getElem?_eq_some_iff.mp hget).1
    have hle := horder.le_of_reaches hx
    have hx := List.getElem?_eq_getElem (hle.trans_lt hlt)
    exact ⟨_, hx, hnodes _ (List.getElem_mem _)⟩
  root := hroot

/-- An import of the first column. -/
def importProxy : Node (PlanProxy ℚ Unit) where
  value := {
    identity := "import"
    attributes := .operator (.import { objectReferences := [], columnIds := [0] }) }

/-- An export. -/
def exportProxy (input : ℕ) : Node (PlanProxy ℚ Unit) where
  value := {
    identity := "export"
    attributes := .operator (.export ⟨kTargetObjectPlaceholder, .csv, false⟩) }
  left := some input

/-- An import that is exported. -/
def oneImport : ProxyHeap ℚ Unit := [importProxy, exportProxy 0]

/-- The union of two imports with one identity. -/
def twoImports : ProxyHeap ℚ Unit :=
  [importProxy, importProxy,
    { value := { identity := "union", attributes := .operator (.union ⟨.all⟩) }
      left := some 0
      right := some 1 },
    exportProxy 2]

/-- A definition with one object for the imports. -/
def oneObject (etag : Bytes) : PipelineFragmentDefinition where
  identityToObjects :=
    ⟨[("import", [{ bucketName := "bucket", identifier := "input" }])], List.nodup_singleton _⟩
  targetObject := { bucketName := "bucket", identifier := "output", etag }
  targetFormat := .orc

lemma wellFormedProxy_importProxy : WellFormedProxy importProxy where
  made := ⟨by decide, by decide⟩
  identity_ne := by decide
  left := ⟨fun _ => rfl, fun _ => rfl⟩
  right h := by cases h

lemma wellFormedProxy_exportProxy (input : ℕ) : WellFormedProxy (exportProxy input) where
  made := rfl
  identity_ne := by
    show Bytes.ofString "export" ≠ []
    decide
  left := ⟨fun h => (by cases h), fun h => (by cases h)⟩
  right h := by cases h

lemma isPlan_oneImport : IsPlan oneImport 1 := by
  refine isPlan_of_madeInOrder (by unfold MadeInOrder; decide) ?_ ⟨_, _, rfl, rfl⟩
  simp only [oneImport, List.forall_mem_cons, List.not_mem_nil, false_imp_iff, implies_true,
    and_true]
  exact ⟨wellFormedProxy_importProxy, wellFormedProxy_exportProxy 0⟩

lemma hasLeaf_oneImport {identity : Bytes} {x : ℕ} :
    HasLeaf oneImport 1 identity x ↔ identity = "import" ∧ x = 0 := by
  constructor
  · rintro ⟨-, node, hget, hleft, rfl⟩
    match x, hget with
    | 0, hget =>
      obtain rfl := Option.some.inj hget
      exact ⟨rfl, rfl⟩
    | 1, hget =>
      obtain rfl := Option.some.inj hget
      cases hleft
  · rintro ⟨rfl, rfl⟩
    exact ⟨.single ⟨_, rfl, by decide⟩, _, rfl, rfl, rfl⟩

lemma isPlan_twoImports : IsPlan twoImports 3 := by
  refine isPlan_of_madeInOrder (by unfold MadeInOrder; decide) ?_ ⟨_, _, rfl, rfl⟩
  simp only [twoImports, List.forall_mem_cons, List.not_mem_nil, false_imp_iff, implies_true,
    and_true]
  refine ⟨wellFormedProxy_importProxy, wellFormedProxy_importProxy, ?_,
    wellFormedProxy_exportProxy 2⟩
  exact ⟨trivial, by show Bytes.ofString "union" ≠ []; decide,
    ⟨fun h => (by cases h), fun h => (by cases h)⟩, fun _ => rfl⟩

lemma hasLeaf_twoImports {identity : Bytes} {x : ℕ} :
    HasLeaf twoImports 3 identity x ↔ identity = "import" ∧ (x = 0 ∨ x = 1) := by
  constructor
  · rintro ⟨-, node, hget, hleft, rfl⟩
    match x, hget with
    | 0, hget =>
      obtain rfl := Option.some.inj hget
      exact ⟨rfl, .inl rfl⟩
    | 1, hget =>
      obtain rfl := Option.some.inj hget
      exact ⟨rfl, .inr rfl⟩
    | 2, hget =>
      obtain rfl := Option.some.inj hget
      cases hleft
    | 3, hget =>
      obtain rfl := Option.some.inj hget
      cases hleft
  · have hunion : Reaches twoImports 3 2 := .single ⟨_, rfl, by decide⟩
    rintro ⟨rfl, rfl | rfl⟩
    · exact ⟨hunion.tail ⟨_, rfl, by decide⟩, _, rfl, rfl, rfl⟩
    · exact ⟨hunion.tail ⟨_, rfl, by decide⟩, _, rfl, rfl, rfl⟩

lemma identitiesMatch_oneObject {plan : ℕ} {heap : ProxyHeap ℚ Unit} {etag : Bytes}
    (h : ∀ identity, (∃ x, HasLeaf heap plan identity x) ↔ identity = "import") :
    IdentitiesMatch heap plan (oneObject etag) := by
  intro identity
  rw [h]
  exact List.mem_singleton

lemma identitiesMatch_oneImport (etag : Bytes) : IdentitiesMatch oneImport 1 (oneObject etag) :=
  identitiesMatch_oneObject fun identity => by simp [hasLeaf_oneImport]

/-- An import is exported to an object. -/
theorem new_generates_oneImport :
    ∃ template heap₁, new oneImport 1 = .ok (template, heap₁) ∧
      Generates heap₁ template (oneObject []) := by
  have hunique : IdentitiesUnique oneImport 1 := by
    intro identity x x' hx hx'
    rw [(hasLeaf_oneImport.mp hx).2, (hasLeaf_oneImport.mp hx').2]
  obtain ⟨template, heap₁, hnew, -, hgenerates⟩ := new_generates isPlan_oneImport hunique
  exact ⟨template, heap₁, hnew, hgenerates heap₁ (.refl heap₁) _ (identitiesMatch_oneImport []) rfl⟩

/-- From the template of a plan fragments are generated for all definitions with the identities of the
imports. -/
def GeneratesAll (heap : ProxyHeap R A) (plan : ℕ) : Prop :=
  ∀ template heap₁, new heap plan = .ok (template, heap₁) → ∀ fragmentDefinition,
    IdentitiesMatch heap plan fragmentDefinition → Generates heap₁ template fragmentDefinition

/-- The target of a definition has a tag; two imports have one identity. -/
theorem not_generatesAll :
    (IsPlan oneImport 1 ∧ ¬ GeneratesAll oneImport 1) ∧
      IsPlan twoImports 3 ∧ ¬ GeneratesAll twoImports 3 := by
  refine ⟨⟨isPlan_oneImport, fun h => ?_⟩, isPlan_twoImports, fun h => ?_⟩
  · obtain ⟨template, heap₁, hnew, -, hlater⟩ := new_identities isPlan_oneImport
    obtain ⟨htemplate, -, -⟩ := hlater heap₁ (.refl heap₁)
    refine not_generates_of_etag htemplate ?_
      (h template heap₁ hnew (oneObject "tag") (identitiesMatch_oneImport "tag"))
    show Bytes.ofString "tag" ≠ []
    decide
  · obtain ⟨template, heap₁, hnew, -, hlater⟩ := new_identities isPlan_twoImports
    obtain ⟨htemplate, hunique_iff, hmatch_iff⟩ := hlater heap₁ (.refl heap₁)
    have hmatch : IdentitiesMatch twoImports 3 (oneObject []) :=
      identitiesMatch_oneObject fun identity => by simp [hasLeaf_twoImports]
    have hgenerates := h template heap₁ hnew (oneObject []) hmatch
    have hunique := hunique_iff.mp
      ((generates_iff htemplate ((hmatch_iff _).mpr hmatch) rfl).mp hgenerates)
    exact absurd (hunique "import" 0 1 (hasLeaf_twoImports.mpr ⟨rfl, .inl rfl⟩)
      (hasLeaf_twoImports.mpr ⟨rfl, .inr rfl⟩)) (by decide)

end PipelineFragmentTemplate

end Skyrise

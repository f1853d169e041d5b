/-
Hashes of plans.

The hash of a plan combines the types and the shallow hashes of its proxies, each of
which is visited once, in the order of a breadth-first search.  The hash functions
of the library are parameters; enumerators and truth values are hashed as numbers,
and shared pointers by their addresses.
-/
import Skyrise.Compiler.PqpSerialization

namespace Skyrise

open MagicEnum

/-- The hash functions of the library, with hashes in `S`. -/
structure Hasher (R S : Type) where
  /-- `boost::hash_combine`, of a seed with the hash of a value. -/
  combine : S → S → S
  /-- `boost::hash_value` of an unsigned number. -/
  number : ℕ → S
  /-- `boost::hash_value` of a string. -/
  text : Bytes → S
  /-- `boost::hash_value` of an `AllTypeVariant`. -/
  variant : AllTypeVariant R → S
  /-- `boost::hash_value` of a shared pointer, by its address. -/
  pointer : ℕ → S

variable {R A S : Type}

namespace Hasher

variable (H : Hasher R S)

/-- The hash of an enumerator. -/
def enum {α : Type} [DecidableEq α] [MagicEnum α] (a : α) : S := H.number (values.idxOf a)

/-- The hash of a truth value. -/
def bool (b : Bool) : S := H.number (if b then 1 else 0)

/-- The hash of a column id. -/
def columnId (columnId : UInt32) : S := H.number columnId.toNat

/-- Combines a seed with hashes one after the other. -/
def combineAll (hash : S) (hashes : List S) : S := hashes.foldl H.combine hash

end Hasher

/-! ### Expressions -/

section Hash

variable (H : Hasher R S)

/-- `ShallowHash`, by the class of an expression. -/
def ExpressionNode.shallowHash : ExpressionNode R → S
  | aggregate aggregateFunction => H.enum aggregateFunction
  | stringAgg _ => H.enum AggregateFunction.stringAgg
  | arithmetic arithmeticOperator => H.enum arithmeticOperator
  | case | list | unaryMinus => H.number 0
  | cast dataType => H.enum dataType
  | extract datetimeComponent => H.enum datetimeComponent
  | logical logicalOperator => H.enum logicalOperator
  | pqpColumn columnId _ _ _ => H.columnId columnId
  | binaryPredicate condition | between condition | inSet condition | isNull condition =>
    H.enum condition
  | value v => H.variant v

/-- `Hash` of an expression: the arguments are hashed without theirs. -/
def Expression.hash (e : Expression R) : S :=
  let hash := e.arguments.foldl (fun hash argument =>
    H.combine (H.combine hash (H.enum argument.root.expressionType)) (argument.root.shallowHash H))
      (H.enum e.root.expressionType)
  H.combine hash (e.root.shallowHash H)

/-! ### Operator proxies -/

/-- `SortColumnDefinition::Hash`. -/
def SortColumnDefinition.hash (definition : SortColumnDefinition) : S :=
  H.combine (H.columnId definition.columnId) (H.enum definition.sortMode)

/-- `JoinOperatorPredicate::Hash`. -/
def JoinOperatorPredicate.hash (predicate : JoinOperatorPredicate) : S :=
  H.combineAll (H.enum predicate.predicateCondition)
    [H.number predicate.columnIdLeft, H.number predicate.columnIdRight]

namespace ProxyAttributes

/-- `ShallowHash` of an import up to the output objects, where the options, if there are any, have an
address. -/
def importSeed (address : ℕ) (p : ImportOperatorProxy R A) : S :=
  let hash := H.combineAll (H.number 0) (p.objectReferences.flatMap fun r =>
    [H.text r.bucketName, H.text r.identifier, H.text r.etag])
  let hash := H.combineAll hash (p.columnIds.map H.columnId)
  if p.importOptions.isSome then H.combine hash (H.pointer address) else hash

/-- `ShallowHash` of an import. -/
def importHash (address : ℕ) (p : ImportOperatorProxy R A) : S :=
  H.combine (importSeed H address p) (H.number p.outputObjectsCount)

/-- `ShallowHash` of a join, whose primary predicate is read without a check. -/
def joinHash (p : JoinOperatorProxy) : Except Exception S :=
  match p.primaryPredicate with
  | some predicate => .ok <| H.combineAll (H.enum p.mode)
      (H.enum p.implementation.operatorType :: predicate.hash H ::
        p.secondaryPredicates.map (·.hash H))
  | none => .error .undefinedBehavior

/-- `ShallowHash`, where the address is that of the import options. -/
def shallowHash (address : ℕ) : ProxyAttributes R A → Except Exception S
  | aggregate p => .ok <| H.combine (H.combineAll (H.combineAll (H.number 0)
      (p.groupbyColumnIds.map H.columnId)) (p.aggregates.map (·.hash H)))
      (H.bool p.isPipelineBreaker)
  | «alias» p => .ok <| H.combineAll (H.combineAll (H.number 0) (p.columnIds.map H.columnId))
      (p.aliases.map H.text)
  | «export» p => .ok <| H.combineAll (H.text p.targetObject.bucketName)
      [H.text p.targetObject.identifier, H.enum p.exportFormat, H.bool p.consolidateRowGroups]
  | filter p => .ok (p.predicate.hash H)
  | «import» p => .ok (importHash H address p)
  | join p => joinHash H p
  | limit p => .ok (p.rowCount.hash H)
  | partition p => .ok <| H.combine (H.combineAll (H.number p.partitioningFunction.partitionCount)
      (p.partitioningFunction.partitionColumnIds.map H.number)) (H.bool p.sortWithinPartition)
  | projection p => .ok <| H.combineAll (H.number 0) (p.expressions.map (·.hash H))
  | sort p => .ok <| H.combineAll (H.number 0) (p.sortDefinitions.map (·.hash H))
  | union p => .ok (H.enum p.mode)

end ProxyAttributes

end Hash

/-! ### Visits -/

namespace Plan

/-- The inputs, the left one first. -/
def inputs (plan : Plan R A) : List (Plan R A) := plan.leftInput.toList ++ plan.rightInput.toList

lemma sum_size_inputs (plan : Plan R A) : (plan.inputs.map size).sum < plan.size := by
  cases plan <;> simp [inputs, leftInput, rightInput, size]

lemma mem_subplans_of_mem_inputs {plan i : Plan R A} (h : i ∈ plan.inputs) : i ∈ plan.subplans := by
  rcases List.mem_append.mp h with h | h
  · exact leftInput_mem_subplans (Option.mem_toList.mp h)
  · exact rightInput_mem_subplans (Option.mem_toList.mp h)

/-- What holds of a plan and of the inputs of every plan of which it holds, holds of all
subplans. -/
lemma forall_mem_subplans {plan : Plan R A} {P : Plan R A → Prop} (hplan : P plan)
    (hinputs : ∀ q, P q → ∀ i ∈ q.inputs, P i) : ∀ q ∈ plan.subplans, P q := by
  induction plan with
  | source proxy => exact List.forall_mem_singleton.mpr hplan
  | unary proxy l ih =>
    exact List.forall_mem_cons.mpr ⟨hplan, ih (hinputs _ hplan l (by simp [inputs, leftInput]))⟩
  | binary proxy l r ihl ihr =>
    refine List.forall_mem_cons.mpr ⟨hplan, List.forall_mem_append.mpr ⟨?_, ?_⟩⟩
    · exact ihl (hinputs _ hplan l (by simp [inputs, leftInput]))
    · exact ihr (hinputs _ hplan r (by simp [inputs, rightInput]))

/-- `VisitPqp`: the proxies of a queue and those below them that were not visited yet, each once, in
the order of a breadth-first search. -/
def visitPqp (visited : List (Plan R A)) : List (Plan R A) → List (Plan R A)
  | [] => []
  | plan :: queue =>
    if plan.identity ∈ visited.map identity then visitPqp visited queue
    else plan :: visitPqp (plan :: visited) (queue ++ plan.inputs)
termination_by queue => (queue.map size).sum
decreasing_by
  · have hpos : 0 < plan.size := by cases plan <;> exact Nat.succ_pos _
    simpa using hpos
  · have hlt := plan.sum_size_inputs
    simp only [List.map_append, List.sum_append, List.map_cons, List.sum_cons]
    omega

/-- The proxies of a plan, as they are visited. -/
def nodes (plan : Plan R A) : List (Plan R A) := visitPqp [] [plan]

/-- What a visit does with the hash. -/
def hashNode (H : Hasher R S) (address : Bytes → ℕ) (hash : S) (node : Plan R A) :
    Except Exception S := do
  let shallowHash ← node.proxy.attributes.shallowHash H (address node.identity)
  return H.combineAll hash [H.enum node.proxy.attributes.operatorType, shallowHash]

/-- `Hash`, where the import options of the proxies have addresses. -/
def hash (H : Hasher R S) (address : Bytes → ℕ) (plan : Plan R A) : Except Exception S :=
  plan.nodes.foldlM (hashNode H address) (H.number 0)

/-- Every proxy of a queue is visited, or was visited before, and so are the inputs of every proxy
that is visited; what is visited is in the queue or below it. -/
lemma visitPqp_spec (visited queue : List (Plan R A)) :
    (∀ q ∈ queue, q.identity ∈ visited.map identity ∨
      q.identity ∈ (visitPqp visited queue).map identity) ∧
    (∀ r ∈ visitPqp visited queue, ∀ i ∈ r.inputs, i.identity ∈ visited.map identity ∨
      i.identity ∈ (visitPqp visited queue).map identity) ∧
    ∀ r ∈ visitPqp visited queue, ∃ q ∈ queue, r ∈ q.subplans := by
  induction visited, queue using visitPqp.induct with
  | case1 visited => simp [visitPqp]
  | case2 visited plan queue hmem ih =>
    replace hmem : plan.identity ∈ visited.map identity := by simpa using hmem
    rw [visitPqp, if_pos hmem]
    obtain ⟨hqueue, hinputs, hbelow⟩ := ih
    refine ⟨List.forall_mem_cons.mpr ⟨.inl hmem, hqueue⟩, hinputs, fun r hr => ?_⟩
    obtain ⟨q, hq, hrq⟩ := hbelow r hr
    exact ⟨q, List.mem_cons_of_mem _ hq, hrq⟩
  | case3 visited plan queue hnot ih =>
    replace hnot : plan.identity ∉ visited.map identity := by simpa using hnot
    rw [visitPqp, if_neg hnot]
    obtain ⟨hqueue, hinputs, hbelow⟩ := ih
    rw [List.forall_mem_append] at hqueue
    -- a proxy that is visited after the plan is visited now, or it is the plan
    have hmove : ∀ q : Plan R A, q.identity ∈ (plan :: visited).map identity ∨
        q.identity ∈ (visitPqp (plan :: visited) (queue ++ plan.inputs)).map identity →
        q.identity ∈ visited.map identity ∨ q.identity ∈
          (plan :: visitPqp (plan :: visited) (queue ++ plan.inputs)).map identity := by
      intro q h
      rw [List.map_cons, List.mem_cons] at h ⊢
      tauto
    refine ⟨List.forall_mem_cons.mpr ⟨.inr (by simp), fun q hq => hmove q (hqueue.1 q hq)⟩,
      List.forall_mem_cons.mpr ⟨fun i hi => hmove i (hqueue.2 i hi), fun r hr i hi =>
        hmove i (hinputs r hr i hi)⟩, List.forall_mem_cons.mpr ⟨?_, fun r hr => ?_⟩⟩
    · exact ⟨plan, List.mem_cons_self, plan.mem_subplans_self⟩
    · obtain ⟨q, hq, hrq⟩ := hbelow r hr
      rcases List.mem_append.mp hq with hq | hq
      · exact ⟨q, List.mem_cons_of_mem _ hq, hrq⟩
      · exact ⟨plan, List.mem_cons_self, subplans_subset (mem_subplans_of_mem_inputs hq) r hrq⟩

/-- Exactly the subplans are visited. -/
lemma mem_nodes_iff {plan q : Plan R A}
    (hinj : ∀ q ∈ plan.subplans, ∀ q' ∈ plan.subplans, q.identity = q'.identity → q = q') :
    q ∈ plan.nodes ↔ q ∈ plan.subplans := by
  obtain ⟨hqueue, hinputs, hbelow⟩ := visitPqp_spec [] [plan]
  have hsub : ∀ r ∈ plan.nodes, r ∈ plan.subplans := by
    intro r hr
    obtain ⟨q, hq, hrq⟩ := hbelow r hr
    rwa [List.mem_singleton.mp hq] at hrq
  have hmem : ∀ r ∈ plan.subplans, r.identity ∈ plan.nodes.map identity → r ∈ plan.nodes := by
    intro r hr h
    obtain ⟨r', hr', hidentity⟩ := List.mem_map.mp h
    rwa [← hinj r' (hsub r' hr') r hr hidentity]
  have hall : ∀ r ∈ plan.subplans, r ∈ plan.subplans ∧ r ∈ plan.nodes := by
    refine forall_mem_subplans ⟨plan.mem_subplans_self, ?_⟩ fun r ⟨hr, hr'⟩ i hi => ?_
    · refine hmem plan plan.mem_subplans_self ?_
      exact (hqueue plan List.mem_cons_self).resolve_left (by simp)
    · have hi' := subplans_subset hr i (mem_subplans_of_mem_inputs hi)
      exact ⟨hi', hmem i hi' ((hinputs r hr' i hi).resolve_left (by simp))⟩
  exact ⟨hsub q, fun hq => (hall q hq).2⟩

/-! ### Plans of the same shape -/

variable {g : OperatorProxy R A → OperatorProxy R A}

@[simp] lemma inputs_map (plan : Plan R A) : (plan.map g).inputs = plan.inputs.map (map g) := by
  cases plan <;> rfl

/-- The other proxies have identities that are equal where those of the plan are. -/
def SameSharing (g : OperatorProxy R A → OperatorProxy R A) (plan : Plan R A) : Prop :=
  ∀ q ∈ plan.subplans, ∀ q' ∈ plan.subplans,
    (g q.proxy).identity = (g q'.proxy).identity ↔ q.identity = q'.identity

lemma visitPqp_map {plan : Plan R A} (hg : SameSharing g plan) (visited queue : List (Plan R A))
    (hvisited : ∀ q ∈ visited, q ∈ plan.subplans) (hqueue : ∀ q ∈ queue, q ∈ plan.subplans) :
    visitPqp (visited.map (map g)) (queue.map (map g)) = (visitPqp visited queue).map (map g) := by
  induction visited, queue using visitPqp.induct with
  | case1 visited => simp [visitPqp]
  | case2 visited q queue hmem ih =>
    replace hmem : q.identity ∈ visited.map identity := by simpa using hmem
    rw [List.forall_mem_cons] at hqueue
    have hmem' : (q.map g).identity ∈ (visited.map (map g)).map identity := by
      obtain ⟨q', hq', hidentity⟩ := List.mem_map.mp hmem
      rw [List.map_map]
      refine List.mem_map.mpr ⟨q', hq', ?_⟩
      simpa using (hg q' (hvisited q' hq') q hqueue.1).mpr hidentity
    rw [List.map_cons, visitPqp, if_pos hmem', visitPqp, if_pos hmem]
    exact ih hvisited hqueue.2
  | case3 visited q queue hnot ih =>
    replace hnot : q.identity ∉ visited.map identity := by simpa using hnot
    rw [List.forall_mem_cons] at hqueue
    have hnot' : (q.map g).identity ∉ (visited.map (map g)).map identity := by
      rw [List.map_map]
      intro hmem
      obtain ⟨q', hq', hidentity⟩ := List.mem_map.mp hmem
      refine hnot (List.mem_map.mpr ⟨q', hq', ?_⟩)
      exact (hg q' (hvisited q' hq') q hqueue.1).mp (by simpa using hidentity)
    rw [List.map_cons, visitPqp, if_neg hnot', visitPqp, if_neg hnot, List.map_cons, inputs_map,
      ← List.map_cons, ← List.map_append]
    refine congrArg _ (ih (List.forall_mem_cons.mpr ⟨hqueue.1, hvisited⟩)
      (List.forall_mem_append.mpr ⟨hqueue.2, fun i hi => ?_⟩))
    exact subplans_subset hqueue.1 i (mem_subplans_of_mem_inputs hi)

lemma nodes_map {plan : Plan R A} (hg : SameSharing g plan) :
    (plan.map g).nodes = plan.nodes.map (map g) :=
  visitPqp_map hg [] [plan] (fun _ h => nomatch h)
    (List.forall_mem_singleton.mpr plan.mem_subplans_self)

lemma mem_subplans_of_mem_nodes {plan q : Plan R A} (h : q ∈ plan.nodes) : q ∈ plan.subplans := by
  obtain ⟨r, hr, hqr⟩ := (visitPqp_spec [] [plan]).2.2 q h
  rwa [List.mem_singleton.mp hr] at hqr

/-! ### Hashes -/

section HashMap

variable {H : Hasher R S} {address address' : Bytes → ℕ} {plan : Plan R A}

lemma hashNode_eq_ok (hash : S) {shallowHash : S} {q : Plan R A}
    (h : q.proxy.attributes.shallowHash H (address q.identity) = .ok shallowHash) :
    hashNode H address hash q =
      .ok (H.combineAll hash [H.enum q.proxy.attributes.operatorType, shallowHash]) := by
  rw [hashNode, h]
  rfl

/-- If a plan has a hash, then its proxies have shallow hashes. -/
lemma exists_shallowHash_of_hash
    (hinj : ∀ q ∈ plan.subplans, ∀ q' ∈ plan.subplans, q.identity = q'.identity → q = q')
    {hash : S} (h : plan.hash H address = .ok hash) {q : Plan R A} (hq : q ∈ plan.subplans) :
    ∃ shallowHash, q.proxy.attributes.shallowHash H (address q.identity) = .ok shallowHash := by
  obtain ⟨seed, seed', hstep⟩ := exists_of_foldlM_eq_ok h ((mem_nodes_iff hinj).mpr hq)
  cases hshallow : q.proxy.attributes.shallowHash H (address q.identity) with
  | error exception =>
    rw [hashNode, hshallow] at hstep
    cases hstep
  | ok shallowHash => exact ⟨shallowHash, rfl⟩

/-- Plans of the same shape and sharing, whose proxies have the same types and shallow hashes, have
the same hash. -/
lemma exists_hash_map (hg : SameSharing g plan) (h : ∀ q ∈ plan.subplans,
    (g q.proxy).attributes.operatorType = q.proxy.attributes.operatorType ∧ ∃ shallowHash,
      q.proxy.attributes.shallowHash H (address q.identity) = .ok shallowHash ∧
      (g q.proxy).attributes.shallowHash H (address' (g q.proxy).identity) = .ok shallowHash) :
    ∃ hash, plan.hash H address = .ok hash ∧ (plan.map g).hash H address' = .ok hash := by
  rw [hash, hash, nodes_map hg]
  have hnodes := fun q hq => h q (mem_subplans_of_mem_nodes hq)
  generalize plan.nodes = nodes at hnodes
  generalize H.number 0 = seed
  induction nodes generalizing seed with
  | nil => exact ⟨seed, rfl, rfl⟩
  | cons q nodes ih =>
    rw [List.forall_mem_cons] at hnodes
    obtain ⟨⟨htype, shallowHash, hshallow, hshallow'⟩, htail⟩ := hnodes
    have hnode' := hashNode_eq_ok seed (q := q.map g)
      (by rw [proxy_map, identity_map]; exact hshallow')
    rw [proxy_map, htype] at hnode'
    rw [List.map_cons, List.foldlM_cons, List.foldlM_cons, hashNode_eq_ok _ hshallow, hnode']
    exact ih htail _

end HashMap

end Plan

end Skyrise

/-
What a hash tells about a pipeline.

Hash functions that are injective determine what is hashed: of an expression its root
and its arguments, but not theirs; of a plan the sequence of its proxies in the order
of a breadth-first search, but not which input of a proxy is which; and of a pipeline
the plan and the predecessors.  If no proxy of a plan is shared, then the sequence
determines the shape.
-/
import Mathlib.Logic.Encodable.Basic
import Mathlib.Logic.Equiv.List
import Skyrise.Compiler.ResultCacheHash

namespace Skyrise

open MagicEnum

variable {R A S : Type}

/-! ### Injective hash functions -/

namespace Hasher

/-- Hash functions that are injective, and that tell combined hashes, numbers, strings and addresses
apart. -/
structure Injective (H : Hasher R S) : Prop where
  combine : ∀ {a b a' b'}, H.combine a b = H.combine a' b' → a = a' ∧ b = b'
  number : Function.Injective H.number
  text : Function.Injective H.text
  variant : Function.Injective H.variant
  combine_ne_number : ∀ a b n, H.combine a b ≠ H.number n
  number_ne_text : ∀ n t, H.number n ≠ H.text t
  pointer_ne_number : ∀ p n, H.pointer p ≠ H.number n
  pointer_ne_text : ∀ p t, H.pointer p ≠ H.text t

variable {H : Hasher R S}

lemma combineAll_append (hash : S) (hashes hashes' : List S) :
    H.combineAll hash (hashes ++ hashes') = H.combineAll (H.combineAll hash hashes) hashes' :=
  List.foldl_append

lemma combine_combineAll (hash value : S) (hashes : List S) :
    H.combine (H.combineAll hash hashes) value = H.combineAll hash (hashes ++ [value]) := by
  rw [combineAll_append]
  rfl

/-- A combined hash is a number only if nothing was combined. -/
lemma Injective.combineAll_ne_number (hH : H.Injective) {hash : S} {hashes : List S}
    (hne : hashes ≠ []) (n : ℕ) : H.combineAll hash hashes ≠ H.number n := by
  rw [← List.dropLast_append_getLast hne, ← combine_combineAll]
  exact hH.combine_ne_number _ _ _

/-- Of what was combined with a number, the number and the hashes are determined. -/
lemma Injective.combineAll_inj (hH : H.Injective) {n n' : ℕ} {hashes hashes' : List S}
    (h : H.combineAll (H.number n) hashes = H.combineAll (H.number n') hashes') :
    n = n' ∧ hashes = hashes' := by
  induction hashes using List.reverseRecOn generalizing hashes' with
  | nil =>
    by_cases hnil : hashes' = []
    · subst hnil
      exact ⟨hH.number h, rfl⟩
    · exact absurd h.symm (hH.combineAll_ne_number hnil n)
  | append_singleton hashes value ih =>
    rcases hashes'.eq_nil_or_concat with rfl | ⟨hashes', value', rfl⟩
    · exact absurd h (hH.combineAll_ne_number (by simp) n')
    · rw [List.concat_eq_append, ← combine_combineAll, ← combine_combineAll] at h
      obtain ⟨hinit, rfl⟩ := hH.combine h
      obtain ⟨rfl, rfl⟩ := ih hinit
      exact ⟨rfl, List.concat_eq_append.symm⟩

/-- Enumerators have different hashes. -/
lemma Injective.enum (hH : H.Injective) {α : Type} [DecidableEq α] [MagicEnum α] :
    Function.Injective (H.enum (α := α)) := by
  intro a b h
  exact (List.idxOf_inj (mem_values a)).mp (hH.number h)

lemma Injective.columnId (hH : H.Injective) : Function.Injective H.columnId := by
  intro a b h
  exact UInt32.toNat_inj.mp (hH.number h)

lemma Injective.bool (hH : H.Injective) : Function.Injective H.bool := by
  intro a b h
  have := hH.number h
  cases a <;> cases b <;> simp_all

end Hasher

/-- Pairs in a row are determined by the row. -/
lemma map_eq_of_flatMap_eq {α β γ : Type} {f g : α → γ} {f' g' : β → γ} {l : List α} {l' : List β}
    (h : (l.flatMap fun a => [f a, g a]) = l'.flatMap fun b => [f' b, g' b]) :
    (l.map fun a => (f a, g a)) = l'.map fun b => (f' b, g' b) := by
  induction l generalizing l' with
  | nil => cases l' <;> simp at h ⊢
  | cons a l ih =>
    cases l' with
    | nil => simp at h
    | cons b l' =>
      simp only [List.flatMap_cons, List.cons_append, List.nil_append, List.cons.injEq] at h
      rw [List.map_cons, List.map_cons, h.1, h.2.1, ih h.2.2]

/-! ### Expressions -/

/-- The class of an expression, as far as it is hashed. -/
def ExpressionNode.hashed : ExpressionNode R → ExpressionNode R
  | stringAgg _ => aggregate .stringAgg
  | pqpColumn columnId _ _ _ => pqpColumn columnId .int false []
  | binaryPredicate condition | between condition | inSet condition | isNull condition =>
    binaryPredicate condition
  | n => n

/-- An expression, as far as it is hashed: the arguments lose theirs. -/
def Expression.hashed (e : Expression R) : Expression R :=
  .node e.root.hashed (e.arguments.map fun argument => .node argument.root.hashed [])

section Injective

variable {H : Hasher R S} (hH : H.Injective)
include hH

lemma ExpressionNode.hashed_eq {n n' : ExpressionNode R} (htype : n.expressionType = n'.expressionType)
    (h : n.shallowHash H = n'.shallowHash H) : n.hashed = n'.hashed := by
  have henum {α : Type} [DecidableEq α] [MagicEnum α] {a b : α} (h : H.enum a = H.enum b) :
    a = b := hH.enum h
  cases n <;> cases n' <;> simp only [expressionType, reduceCtorEq] at htype <;>
    simp only [shallowHash] at h <;> simp only [hashed]
  all_goals first
    | rw [henum h]
    | rw [hH.columnId h]
    | rw [hH.variant h]

lemma Expression.hashed_eq {e e' : Expression R} (h : e.hash H = e'.hash H) :
    e.hashed = e'.hashed := by
  have hhash (e : Expression R) : e.hash H = H.combineAll (H.enum e.root.expressionType)
      ((e.arguments.flatMap fun a => [H.enum a.root.expressionType, a.root.shallowHash H]) ++
        [e.root.shallowHash H]) := by
    rw [← Hasher.combine_combineAll, hash, Hasher.combineAll, List.foldl_flatMap]
    rfl
  rw [hhash, hhash] at h
  obtain ⟨htype, hlist⟩ := hH.combineAll_inj h
  obtain ⟨harguments, hroot⟩ := List.append_inj' hlist rfl
  have hroots := ExpressionNode.hashed_eq hH (hH.enum (congrArg H.number htype))
    (List.singleton_inj.mp hroot)
  replace harguments := map_eq_of_flatMap_eq harguments
  rw [hashed, hashed, hroots]
  refine congrArg _ ?_
  generalize e.arguments = arguments at harguments
  generalize e'.arguments = arguments' at harguments
  induction arguments generalizing arguments' with
  | nil => cases arguments' <;> simp at harguments ⊢
  | cons a arguments ih =>
    cases arguments' with
    | nil => simp at harguments
    | cons a' arguments' =>
      simp only [List.map_cons, List.cons.injEq, Prod.mk.injEq] at harguments
      rw [List.map_cons, List.map_cons, ih _ harguments.2,
        ExpressionNode.hashed_eq hH (hH.enum harguments.1.1) harguments.1.2]

/-- Lists of expressions with the same hashes. -/
lemma Expression.map_hashed_eq {es es' : List (Expression R)}
    (h : es.map (·.hash H) = es'.map (·.hash H)) : es.map hashed = es'.map hashed := by
  rw [← List.forall₂_eq_eq_eq, List.forall₂_map_left_iff, List.forall₂_map_right_iff] at h ⊢
  exact h.imp fun _ _ => hashed_eq hH

end Injective

/-! ### Operator proxies -/

namespace ProxyAttributes

/-- Attributes, as far as they are hashed: of the options of an import, this is whether there are
any. -/
def hashed : ProxyAttributes R A → ProxyAttributes R A
  | aggregate p => aggregate { p with aggregates := p.aggregates.map Expression.hashed }
  | «export» p => «export» { p with
      targetObject := ⟨p.targetObject.bucketName, p.targetObject.identifier, [], none⟩ }
  | filter p => filter { p with predicate := p.predicate.hashed }
  | «import» p => «import» { p with
      objectReferences := p.objectReferences.map fun r => { r with partitions := none }
      importOptions := p.importOptions.map fun _ => .csv { readBufferSize := 0 } }
  | limit p => limit { p with rowCount := p.rowCount.hashed }
  | projection p => projection { p with expressions := p.expressions.map Expression.hashed }
  | attributes => attributes

/-- The number of inputs of a type of operators. -/
def inputCount : ProxyAttributes R A → ℕ
  | «import» _ => 0
  | join _ | union _ => 2
  | _ => 1

lemma inputCount_hashed (attributes : ProxyAttributes R A) :
    attributes.hashed.inputCount = attributes.inputCount := by
  cases attributes <;> rfl

/-- Rows of numbers that are followed by other hashes. -/
lemma map_append_inj {α : Type} {f : α → S} (hf : Function.Injective f) {l l' : List α}
    {hashes hashes' : List S} (hne : ∀ a, f a ∉ hashes) (hne' : ∀ a, f a ∉ hashes')
    (h : l.map f ++ hashes = l'.map f ++ hashes') : l = l' ∧ hashes = hashes' := by
  induction l generalizing l' with
  | nil =>
    cases l' with
    | nil => exact ⟨rfl, h⟩
    | cons a' l' => exact absurd (by rw [show hashes = _ from h]; simp) (hne a')
  | cons a l ih =>
    cases l' with
    | nil => exact absurd (by rw [← show _ = hashes' from h]; simp) (hne' a)
    | cons a' l' =>
      obtain ⟨hhead, htail⟩ := List.cons.inj h
      obtain ⟨rfl, hrest⟩ := ih htail
      exact ⟨by rw [hf hhead], hrest⟩

/-- The names and tags of references in a row determine the references. -/
lemma objectReferences_inj {objectReferences objectReferences' : List ObjectReference}
    (h : (objectReferences.flatMap fun r => [r.bucketName, r.identifier, r.etag]) =
      objectReferences'.flatMap fun r => [r.bucketName, r.identifier, r.etag]) :
    (objectReferences.map fun r => { r with partitions := none }) =
      objectReferences'.map fun r => { r with partitions := none } := by
  induction objectReferences generalizing objectReferences' with
  | nil => cases objectReferences' <;> simp at h ⊢
  | cons r objectReferences ih =>
    cases objectReferences' with
    | nil => simp at h
    | cons r' objectReferences' =>
      simp only [List.flatMap_cons, List.cons_append, List.nil_append, List.cons.injEq] at h
      obtain ⟨hbucket, hidentifier, hetag, hrest⟩ := h
      rw [List.map_cons, List.map_cons, ih hrest, hbucket, hidentifier, hetag]

/-- The hash of an import as one row. -/
lemma importHash_eq (H : Hasher R S) (address : ℕ) (p : ImportOperatorProxy R A) :
    importHash H address p = H.combineAll (H.number 0)
      (((p.objectReferences.flatMap fun r => [r.bucketName, r.identifier, r.etag]).map H.text ++
        (p.columnIds.map H.columnId ++ (p.importOptions.map fun _ => H.pointer address).toList)) ++
          [H.number p.outputObjectsCount]) := by
  rw [← Hasher.combine_combineAll, Hasher.combineAll_append, Hasher.combineAll_append,
    List.map_flatMap, importHash, importSeed]
  cases p.importOptions <;> rfl

section Injective

variable {H : Hasher R S} (hH : H.Injective) {address address' : ℕ}
include hH

/-- The references, columns and options of an import are determined by their hashes. -/
lemma importHash_inj {p p' : ImportOperatorProxy R A}
    (h : importHash H address p = importHash H address' p') :
    («import» p).hashed = («import» p').hashed := by
  rw [importHash_eq, importHash_eq] at h
  obtain ⟨hinit, hcount⟩ := List.append_inj' (hH.combineAll_inj h).2 rfl
  have hnotText : ∀ (p : ImportOperatorProxy R A) (address : ℕ) (t : Bytes), H.text t ∉
      p.columnIds.map H.columnId ++ (p.importOptions.map fun _ => H.pointer address).toList := by
    intro p address t hmem
    rcases List.mem_append.mp hmem with hmem | hmem
    · obtain ⟨columnId, -, hcolumnId⟩ := List.mem_map.mp hmem
      exact hH.number_ne_text _ _ hcolumnId
    · cases hoptions : p.importOptions <;> simp [hoptions] at hmem
      exact hH.pointer_ne_text _ _ hmem.symm
  have hnotColumnId : ∀ (p : ImportOperatorProxy R A) (address : ℕ) (columnId : UInt32),
      H.columnId columnId ∉ (p.importOptions.map fun _ => H.pointer address).toList := by
    intro p address columnId hmem
    cases hoptions : p.importOptions <;> simp [hoptions] at hmem
    exact hH.pointer_ne_number _ _ hmem.symm
  -- the strings come first, then the columns, and the address last
  obtain ⟨hreferences, hrest⟩ := map_append_inj hH.text (hnotText p address) (hnotText p' address')
    hinit
  obtain ⟨hcolumns, hoptions⟩ := map_append_inj hH.columnId (hnotColumnId p address)
    (hnotColumnId p' address') hrest
  have hpresent : p.importOptions.isSome = p'.importOptions.isSome := by
    cases hp : p.importOptions <;> cases hp' : p'.importOptions <;> simp [hp, hp'] at hoptions ⊢
  have hmap : ∀ {o o' : Option (ImportOptions R A)}, o.isSome = o'.isSome →
      o.map (fun _ => ImportOptions.csv { readBufferSize := 0 }) =
        o'.map fun _ => (ImportOptions.csv { readBufferSize := 0 } : ImportOptions R A) := by
    rintro (_ | _) (_ | _) h <;> first | rfl | cases h
  rw [hashed, hashed, objectReferences_inj hreferences, hcolumns, hmap hpresent,
    hH.number (List.singleton_inj.mp hcount)]

omit hH in
/-- The hash of a join that has one. -/
lemma joinHash_eq_ok {p : JoinOperatorProxy} {w : S} (h : joinHash H p = .ok w) :
    ∃ predicate, p.primaryPredicate = some predicate ∧ w = H.combineAll (H.enum p.mode)
      (H.enum p.implementation.operatorType :: predicate.hash H ::
        p.secondaryPredicates.map (·.hash H)) := by
  rw [joinHash] at h
  cases hp : p.primaryPredicate with
  | none => simp [hp] at h
  | some predicate =>
    rw [hp] at h
    exact ⟨predicate, rfl, (Except.ok.inj h).symm⟩

lemma joinOperatorPredicate_inj : Function.Injective (JoinOperatorPredicate.hash H) := by
  rintro ⟨left, right, condition⟩ ⟨left', right', condition'⟩ h
  obtain ⟨hcondition, hcolumns⟩ := hH.combineAll_inj h
  simp only [List.cons.injEq] at hcolumns
  exact JoinOperatorPredicate.mk.injEq .. ▸ ⟨hH.number hcolumns.1, hH.number hcolumns.2.1,
    hH.enum (congrArg H.number hcondition)⟩

lemma sortColumnDefinition_inj : Function.Injective (SortColumnDefinition.hash H) := by
  rintro ⟨columnId, sortMode⟩ ⟨columnId', sortMode'⟩ h
  obtain ⟨hcolumnId, hsortMode⟩ := hH.combine h
  exact SortColumnDefinition.mk.injEq .. ▸ ⟨hH.columnId hcolumnId, hH.enum hsortMode⟩

lemma expression_hash_ne_number (e : Expression R) (n : ℕ) : e.hash H ≠ H.number n :=
  hH.combine_ne_number _ _ _

/-- Attributes of the same type with the same hash are equal, as far as they are hashed. -/
lemma hashed_eq {attributes attributes' : ProxyAttributes R A} {w : S}
    (htype : attributes.operatorType = attributes'.operatorType)
    (h : attributes.shallowHash H address = .ok w)
    (h' : attributes'.shallowHash H address' = .ok w) : attributes.hashed = attributes'.hashed := by
  have heq := h.trans h'.symm
  cases attributes <;> cases attributes' <;> simp only [operatorType, reduceCtorEq] at htype
  case aggregate.aggregate p p' =>
    obtain ⟨hinit, hbreaker⟩ := hH.combine (Except.ok.inj heq)
    rw [← Hasher.combineAll_append, ← Hasher.combineAll_append] at hinit
    have hnot : ∀ (es : List (Expression R)) (columnId : UInt32),
        H.columnId columnId ∉ es.map (·.hash H) := by
      intro es columnId hmem
      obtain ⟨e, -, he⟩ := List.mem_map.mp hmem
      exact expression_hash_ne_number hH e _ he
    obtain ⟨hcolumns, haggregates⟩ :=
      map_append_inj hH.columnId (hnot _) (hnot _) (hH.combineAll_inj hinit).2
    rw [hashed, hashed, hcolumns, Expression.map_hashed_eq hH haggregates, hH.bool hbreaker]
  case «alias».«alias» p p' =>
    obtain ⟨columnIds, aliases⟩ := p
    obtain ⟨columnIds', aliases'⟩ := p'
    replace heq := Except.ok.inj heq
    rw [← Hasher.combineAll_append, ← Hasher.combineAll_append] at heq
    have hnot : ∀ (texts : List Bytes) (columnId : UInt32),
        H.columnId columnId ∉ texts.map H.text := by
      intro texts columnId hmem
      obtain ⟨t, -, ht⟩ := List.mem_map.mp hmem
      exact hH.number_ne_text _ _ ht.symm
    obtain ⟨hcolumns, haliases⟩ :=
      map_append_inj hH.columnId (hnot _) (hnot _) (hH.combineAll_inj heq).2
    obtain rfl : columnIds = columnIds' := hcolumns
    obtain rfl : aliases = aliases' := List.map_injective_iff.mpr hH.text haliases
    rfl
  case «export».«export» p p' =>
    obtain ⟨hinit, hconsolidate⟩ := hH.combine (Except.ok.inj heq)
    obtain ⟨hinit, hformat⟩ := hH.combine hinit
    obtain ⟨hbucket, hidentifier⟩ := hH.combine hinit
    rw [hashed, hashed, hH.text hbucket, hH.text hidentifier, hH.enum hformat, hH.bool hconsolidate]
  case filter.filter p p' => rw [hashed, hashed, Expression.hashed_eq hH (Except.ok.inj heq)]
  case «import».«import» p p' => exact importHash_inj hH (Except.ok.inj heq)
  case join.join p p' =>
    obtain ⟨predicate, hp, hw⟩ := joinHash_eq_ok h
    obtain ⟨predicate', hp', hw'⟩ := joinHash_eq_ok h'
    obtain ⟨hmode, hrest⟩ := hH.combineAll_inj (hw.symm.trans hw')
    obtain ⟨-, hrest⟩ := List.cons.inj hrest
    obtain ⟨hprimary, hsecondary⟩ := List.cons.inj hrest
    obtain ⟨mode, primary, secondary, implementation⟩ := p
    obtain ⟨mode', primary', secondary', implementation'⟩ := p'
    obtain rfl : mode = mode' := hH.enum (congrArg H.number hmode)
    obtain rfl : secondary = secondary' :=
      List.map_injective_iff.mpr (joinOperatorPredicate_inj hH) hsecondary
    obtain rfl : primary = primary' := by
      rw [show primary = _ from hp, show primary' = _ from hp', joinOperatorPredicate_inj hH hprimary]
    cases implementation <;> cases implementation' <;> first | rfl | cases htype
  case limit.limit p p' => rw [hashed, hashed, Expression.hashed_eq hH (Except.ok.inj heq)]
  case partition.partition p p' =>
    obtain ⟨⟨columnIds, count⟩, sort⟩ := p
    obtain ⟨⟨columnIds', count'⟩, sort'⟩ := p'
    obtain ⟨hinit, hsort⟩ := hH.combine (Except.ok.inj heq)
    obtain ⟨rfl, hcolumns⟩ : count = count' ∧ _ := hH.combineAll_inj hinit
    obtain rfl : columnIds = columnIds' := List.map_injective_iff.mpr hH.number hcolumns
    obtain rfl : sort = sort' := hH.bool hsort
    rfl
  case projection.projection p p' =>
    rw [hashed, hashed, Expression.map_hashed_eq hH (hH.combineAll_inj (Except.ok.inj heq)).2]
  case sort.sort p p' =>
    obtain ⟨definitions⟩ := p
    obtain ⟨definitions'⟩ := p'
    obtain rfl : definitions = definitions' :=
      List.map_injective_iff.mpr (sortColumnDefinition_inj hH)
        (hH.combineAll_inj (Except.ok.inj heq)).2
    rfl
  case union.union p p' =>
    obtain ⟨mode⟩ := p
    obtain ⟨mode'⟩ := p'
    obtain rfl : mode = mode' := hH.enum (Except.ok.inj heq)
    rfl
  -- the type of a join is not that of another class
  all_goals
    rename_i p p'
    first
      | (cases hi : p.implementation <;> rw [hi] at htype <;> cases htype)
      | (cases hi : p'.implementation <;> rw [hi] at htype <;> cases htype)

end Injective

end ProxyAttributes

/-! ### Plans -/

namespace Plan

variable {H : Hasher R S} {address address' : Bytes → ℕ} {plan plan' : Plan R A}

/-- A plan, as far as its proxies are hashed, without identities and comments. -/
def hashed (plan : Plan R A) : Plan R A :=
  plan.map fun proxy => { identity := [], attributes := proxy.attributes.hashed }

/-- No proxy is an input of two proxies, and every proxy has the inputs of its type. -/
structure IsTree (plan : Plan R A) : Prop where
  nodup : (plan.subplans.map identity).Nodup
  inputCount : ∀ q ∈ plan.subplans, q.inputs.length = q.proxy.attributes.inputCount

/-- Plans that are visited alike, as far as they are hashed, and that are equal, as far as they are
hashed, if they are trees. -/
def SameHashed (plan plan' : Plan R A) : Prop :=
  plan.nodes.map (·.proxy.attributes.hashed) = plan'.nodes.map (·.proxy.attributes.hashed) ∧
    (plan.IsTree → plan'.IsTree → plan.hashed = plan'.hashed)

/-- What the hash of a plan combines: the types and the shallow hashes of its proxies. -/
def Rows (H : Hasher R S) (address : Bytes → ℕ) (nodes : List (Plan R A))
    (rows : List (OperatorType × S)) : Prop :=
  List.Forall₂ (fun q row => q.proxy.attributes.operatorType = row.1 ∧
    q.proxy.attributes.shallowHash H (address q.identity) = .ok row.2) nodes rows

lemma exists_rows_of_hash_eq_ok {hash : S} (h : plan.hash H address = .ok hash) :
    ∃ rows, Rows H address plan.nodes rows ∧
      hash = H.combineAll (H.number 0) (rows.flatMap fun row => [H.enum row.1, row.2]) := by
  rw [Plan.hash] at h
  generalize plan.nodes = nodes at h
  generalize H.number 0 = seed at h
  induction nodes generalizing seed with
  | nil => exact ⟨[], .nil, (Except.ok.inj h).symm⟩
  | cons q nodes ih =>
    rw [List.foldlM_cons] at h
    obtain ⟨hash', hnode, hrest⟩ := exists_of_bind_eq_ok h
    obtain ⟨w, hw, hhash'⟩ := exists_of_bind_eq_ok hnode
    obtain ⟨rows, hrows, rfl⟩ := ih _ hrest
    obtain rfl := Except.ok.inj hhash'
    exact ⟨(q.proxy.attributes.operatorType, w) :: rows, .cons ⟨rfl, hw⟩ hrows, rfl⟩

lemma nodes_ne_nil (plan : Plan R A) : plan.nodes ≠ [] := by
  rw [nodes, visitPqp, if_neg (by simp)]
  exact List.cons_ne_nil _ _

/-- The same rows are of the same proxies, as far as they are hashed. -/
lemma Rows.map_hashed_eq (hH : H.Injective) {nodes nodes' : List (Plan R A)}
    {rows : List (OperatorType × S)} (h : Rows H address nodes rows)
    (h' : Rows H address' nodes' rows) :
    nodes.map (·.proxy.attributes.hashed) = nodes'.map (·.proxy.attributes.hashed) := by
  rw [Rows] at h h'
  induction h generalizing nodes' with
  | nil => rw [List.forall₂_nil_right_iff.mp h']
  | cons hnode _ ih =>
    obtain ⟨q', nodes'', hnode', hnodes', rfl⟩ := List.forall₂_cons_right_iff.mp h'
    rw [List.map_cons, List.map_cons, ih hnodes', ProxyAttributes.hashed_eq hH
      (hnode.1.trans hnode'.1.symm) hnode.2 hnode'.2]

/-! ### Trees -/

lemma subplans_eq_cons (plan : Plan R A) : plan.subplans = plan :: plan.inputs.flatMap subplans := by
  cases plan <;> simp [subplans, inputs, leftInput, rightInput]

/-- A plan is equal to another, as far as they are hashed, if their proxies and their inputs are. -/
lemma hashed_eq_of_inputs (hproxy : plan.proxy.attributes.hashed = plan'.proxy.attributes.hashed)
    (hinputs : plan.inputs.map hashed = plan'.inputs.map hashed) : plan.hashed = plan'.hashed := by
  cases plan <;> cases plan' <;>
    simp_all [hashed, Plan.map, inputs, leftInput, rightInput, Plan.proxy]

/-- What is left to visit after a proxy was visited. -/
lemma perm_flatMap_subplans (plan : Plan R A) (queue : List (Plan R A)) :
    ((plan :: queue).flatMap subplans).Perm (plan :: (queue ++ plan.inputs).flatMap subplans) := by
  rw [List.flatMap_cons, subplans_eq_cons, List.flatMap_append, List.cons_append]
  exact List.perm_append_comm.cons _

/-- If all identities are different, then a proxy was not visited before, and all identities are
different after it was visited. -/
lemma nodup_visited {plan : Plan R A} {visited queue : List (Plan R A)}
    (h : (visited.map identity ++ ((plan :: queue).flatMap subplans).map identity).Nodup) :
    plan.identity ∉ visited.map identity ∧ ((plan :: visited).map identity ++
      ((queue ++ plan.inputs).flatMap subplans).map identity).Nodup := by
  have hperm := ((perm_flatMap_subplans plan queue).map identity).append_left (visited.map identity)
  rw [hperm.nodup_iff, List.map_cons, List.perm_middle.nodup_iff] at h
  refine ⟨fun hmem => (List.nodup_cons.mp h).1 (List.mem_append_left _ hmem), ?_⟩
  rwa [List.map_cons, List.cons_append]

/-- Trees that are visited alike, as far as they are hashed, are equal as far as they are hashed:
the type of a proxy tells how many of the next proxies are its inputs. -/
lemma map_hashed_eq_of_visitPqp (visited queue : List (Plan R A)) {visited' queue' : List (Plan R A)}
    (hqueue : (visited.map identity ++ (queue.flatMap subplans).map identity).Nodup)
    (hqueue' : (visited'.map identity ++ (queue'.flatMap subplans).map identity).Nodup)
    (hcount : ∀ q ∈ queue.flatMap subplans, q.inputs.length = q.proxy.attributes.inputCount)
    (hcount' : ∀ q ∈ queue'.flatMap subplans, q.inputs.length = q.proxy.attributes.inputCount)
    (hlength : queue.length = queue'.length)
    (h : (visitPqp visited queue).map (·.proxy.attributes.hashed) =
      (visitPqp visited' queue').map (·.proxy.attributes.hashed)) :
    queue.map hashed = queue'.map hashed := by
  induction visited, queue using visitPqp.induct generalizing visited' queue' with
  | case1 visited =>
    rw [List.length_eq_zero_iff.mp hlength.symm]
  | case2 visited plan queue hmem ih =>
    exact absurd (by simpa using hmem) (nodup_visited hqueue).1
  | case3 visited plan queue hnot ih =>
    obtain ⟨plan', queue', rfl⟩ := List.exists_of_length_succ queue' (hlength.symm.trans rfl)
    obtain ⟨hfresh, hnext⟩ := nodup_visited hqueue
    obtain ⟨hfresh', hnext'⟩ := nodup_visited hqueue'
    have hmem : ∀ {plan q : Plan R A} {queue}, q ∈ (queue ++ plan.inputs).flatMap subplans →
        q ∈ (plan :: queue).flatMap subplans := fun hq =>
      (perm_flatMap_subplans _ _).mem_iff.mpr (List.mem_cons_of_mem _ hq)
    rw [visitPqp, if_neg hfresh, visitPqp, if_neg hfresh', List.map_cons, List.map_cons] at h
    obtain ⟨hproxy, hrest⟩ := List.cons.inj h
    -- the proxies have equally many inputs
    have hinputs : plan.inputs.length = plan'.inputs.length := by
      rw [hcount plan (List.mem_flatMap_of_mem List.mem_cons_self plan.mem_subplans_self),
        hcount' plan' (List.mem_flatMap_of_mem List.mem_cons_self plan'.mem_subplans_self),
        ← ProxyAttributes.inputCount_hashed, hproxy, ProxyAttributes.inputCount_hashed]
    have hqueues : queue.length = queue'.length := Nat.succ.inj hlength
    have hall := ih hnext hnext' (fun q hq => hcount q (hmem hq)) (fun q hq => hcount' q (hmem hq))
      (by rw [List.length_append, List.length_append, hqueues, hinputs]) hrest
    rw [List.map_append, List.map_append] at hall
    obtain ⟨htail, hbelow⟩ := List.append_inj hall (by rw [List.length_map, List.length_map, hqueues])
    rw [List.map_cons, List.map_cons, htail, hashed_eq_of_inputs hproxy hbelow]

/-- Plans that are visited alike, as far as they are hashed, are hashed alike. -/
lemma sameHashed_of_map_hashed_eq
    (h : plan.nodes.map (·.proxy.attributes.hashed) = plan'.nodes.map (·.proxy.attributes.hashed)) :
    plan.SameHashed plan' := by
  refine ⟨h, fun htree htree' => ?_⟩
  have hsingle : ∀ p : Plan R A, [p].flatMap subplans = p.subplans := fun p =>
    List.flatMap_singleton subplans p
  have hnodup : ∀ {p : Plan R A}, p.IsTree →
      (([] : List (Plan R A)).map identity ++ ([p].flatMap subplans).map identity).Nodup := by
    intro p hp
    rw [hsingle]
    exact hp.nodup
  refine List.singleton_inj.mp (map_hashed_eq_of_visitPqp [] [plan] (hnodup htree) (hnodup htree')
    ?_ ?_ rfl h)
  · rw [hsingle]
    exact htree.inputCount
  · rw [hsingle]
    exact htree'.inputCount

end Plan

/-! ### Pipelines -/

namespace TemplatedPipeline

mutual

/-- The pipeline that a skipped pipeline stands for, if it has a single predecessor. -/
def unskipped (skip : Bool) : TemplatedPipeline R A → TemplatedPipeline R A
  | node templatedPlan isSynthetic predecessors =>
    match isSynthetic && skip, allUnskipped skip predecessors with
    | true, [predecessor] => predecessor
    | _, predecessors => node templatedPlan isSynthetic predecessors

/-- The pipelines that the predecessors stand for. -/
def allUnskipped (skip : Bool) : List (TemplatedPipeline R A) → List (TemplatedPipeline R A)
  | [] => []
  | predecessor :: predecessors => unskipped skip predecessor :: allUnskipped skip predecessors

end

lemma allUnskipped_eq_map {skip : Bool} (predecessors : List (TemplatedPipeline R A)) :
    allUnskipped skip predecessors = predecessors.map (unskipped skip) := by
  induction predecessors with
  | nil => rfl
  | cons predecessor predecessors ih => rw [allUnskipped, ih, List.map_cons]

/-- Every pipeline that is skipped has a single predecessor. -/
inductive SkippedAlone (skip : Bool) : TemplatedPipeline R A → Prop
  | node (templatedPlan : Plan R A) (isSynthetic : Bool)
      (predecessors : List (TemplatedPipeline R A))
      (hskipped : (isSynthetic && skip) = true → predecessors.length = 1)
      (hpredecessors : ∀ p ∈ predecessors, SkippedAlone skip p) :
      SkippedAlone skip (.node templatedPlan isSynthetic predecessors)

section Hash

variable [LinearOrder S] {H : Hasher R S} {address address' : Bytes → ℕ} {skip : Bool}

/-- A pipeline has the hash of the pipeline that it stands for. -/
lemma resultCacheHash_unskipped (H : Hasher R S) (address : Bytes → ℕ) {p : TemplatedPipeline R A}
    (hp : p.SkippedAlone skip) :
    (p.unskipped skip).resultCacheHash H address false = p.resultCacheHash H address skip := by
  induction hp with
  | node templatedPlan isSynthetic predecessors hskipped _ ih =>
    rw [unskipped, allUnskipped_eq_map, resultCacheHash_node]
    cases hskip : isSynthetic && skip with
    | true =>
      obtain ⟨predecessor, rfl⟩ := List.length_eq_one_iff.mp (hskipped hskip)
      rw [List.map_singleton]
      simp only
      rw [ih predecessor List.mem_cons_self, List.mapM_cons, List.mapM_nil]
      cases predecessor.resultCacheHash H address skip with
      | error exception => rfl
      | ok hash =>
        show _ = combineHashes H true _ ([hash].mergeSort _)
        rw [List.mergeSort_singleton]
        rfl
    | false =>
      simp only
      rw [resultCacheHash_node, Bool.and_false, List.mapM_map]
      exact congrArg (Except.bind · _) (mapM_congr_of_mem ih)

/-- What the hash of a pipeline that is not skipped combines. -/
lemma exists_rows_of_resultCacheHash_eq_ok {templatedPlan : Plan R A} {isSynthetic : Bool}
    {predecessors : List (TemplatedPipeline R A)} {hash : S}
    (h : (node templatedPlan isSynthetic predecessors).resultCacheHash H address false = .ok hash) :
    ∃ rows hashes, Plan.Rows H address templatedPlan.nodes rows ∧
      List.Forall₂ (fun p hash => p.resultCacheHash H address false = .ok hash) predecessors hashes ∧
      hash = H.combineAll (H.number 0) ((rows.flatMap fun row => [H.enum row.1, row.2]) ++
        hashes.mergeSort (· ≤ ·)) := by
  rw [resultCacheHash_node, Bool.and_false] at h
  obtain ⟨hashes, hhashes, hcombine⟩ := exists_of_bind_eq_ok h
  obtain ⟨value, hvalue, hhash⟩ := exists_of_bind_eq_ok hcombine
  obtain ⟨rows, hrows, rfl⟩ := Plan.exists_rows_of_hash_eq_ok hvalue
  refine ⟨rows, hashes, hrows, mapM_eq_ok_iff.mp hhashes, ?_⟩
  rw [Hasher.combineAll_append]
  exact (Except.ok.inj hhash).symm

/-- The hash of a pipeline is not that of a number. -/
lemma resultCacheHash_ne_number (hH : H.Injective) {p : TemplatedPipeline R A} {hash : S}
    (h : p.resultCacheHash H address false = .ok hash) (n : ℕ) : hash ≠ H.number n := by
  obtain ⟨templatedPlan, isSynthetic, predecessors⟩ := p
  obtain ⟨rows, hashes, hrows, -, rfl⟩ := exists_rows_of_resultCacheHash_eq_ok h
  refine hH.combineAll_ne_number (fun hnil => ?_) n
  obtain ⟨hempty, -⟩ := List.append_eq_nil_iff.mp hnil
  obtain rfl : rows = [] := by
    cases rows with
    | nil => rfl
    | cons row rows => simp at hempty
  exact templatedPlan.nodes_ne_nil (List.forall₂_nil_right_iff.mp hrows)

omit [LinearOrder S] in
/-- The rows of the proxies end where the hashes of the predecessors begin. -/
lemma rows_append_inj (hH : H.Injective) {rows rows' : List (OperatorType × S)} {hashes hashes' : List S}
    (hne : ∀ hash ∈ hashes, ∀ n, hash ≠ H.number n) (hne' : ∀ hash ∈ hashes', ∀ n, hash ≠ H.number n)
    (h : (rows.flatMap fun row => [H.enum row.1, row.2]) ++ hashes =
      (rows'.flatMap fun row => [H.enum row.1, row.2]) ++ hashes') :
    rows = rows' ∧ hashes = hashes' := by
  induction rows generalizing rows' with
  | nil =>
    cases rows' with
    | nil => exact ⟨rfl, h⟩
    | cons row' rows' =>
      obtain rfl : hashes = _ := h
      exact absurd rfl (hne _ List.mem_cons_self _)
  | cons row rows ih =>
    cases rows' with
    | nil =>
      obtain rfl : hashes' = _ := h.symm
      exact absurd rfl (hne' _ List.mem_cons_self _)
    | cons row' rows' =>
      simp only [List.flatMap_cons, List.cons_append, List.nil_append, List.cons.injEq] at h
      obtain ⟨rfl, rfl⟩ := ih h.2.2
      exact ⟨by rw [Prod.ext (hH.enum h.1) h.2.1], rfl⟩

/-- Pipelines of which none is skipped and that have the same hash correspond to each other, as far
as they are hashed. -/
lemma corresponds_of_resultCacheHash_eq (hH : H.Injective) {p : TemplatedPipeline R A} :
    ∀ {p' : TemplatedPipeline R A} {hash : S}, p.resultCacheHash H address false = .ok hash →
      p'.resultCacheHash H address' false = .ok hash →
      p.Corresponds (fun plan _ plan' _ => plan.SameHashed plan') p' := by
  induction p with
  | node templatedPlan isSynthetic predecessors ih =>
    rintro ⟨templatedPlan', isSynthetic', predecessors'⟩ hash h h'
    obtain ⟨rows, hashes, hrows, hhashes, rfl⟩ := exists_rows_of_resultCacheHash_eq_ok h
    obtain ⟨rows', hashes', hrows', hhashes', heq⟩ := exists_rows_of_resultCacheHash_eq_ok h'
    have hne : ∀ {address : Bytes → ℕ} {ps : List (TemplatedPipeline R A)} {hashes : List S},
        List.Forall₂ (fun p hash => p.resultCacheHash H address false = .ok hash) ps hashes →
        ∀ hash ∈ hashes.mergeSort (· ≤ ·), ∀ n, hash ≠ H.number n := by
      intro address ps hashes hall hash hmem
      have hall' : ∀ hash ∈ hashes, ∀ n, hash ≠ H.number n :=
        hall.forall_mem_right fun p _ hash hp => resultCacheHash_ne_number hH hp
      exact hall' hash ((List.mergeSort_perm _ _).mem_iff.mp hmem)
    obtain ⟨rfl, hsorted⟩ := rows_append_inj hH (hne hhashes) (hne hhashes') (hH.combineAll_inj heq).2
    refine ⟨Plan.sameHashed_of_map_hashed_eq (hrows.map_hashed_eq hH hrows'), ?_⟩
    -- the predecessors are matched by their hashes
    have hperm : hashes.Perm hashes' := by
      refine (List.mergeSort_perm hashes (· ≤ ·)).symm.trans ?_
      rw [hsorted]
      exact List.mergeSort_perm hashes' (· ≤ ·)
    obtain ⟨related, hrelated, hpermuted⟩ := List.perm_comp_forall₂ hperm hhashes'.flip
    refine ⟨related, (allCorrespond_iff _).mpr ?_, hpermuted⟩
    exact hhashes.comp hrelated fun q hq hash q' hhash hhash' => ih q hq hhash hhash'

end Hash

end TemplatedPipeline

/-- A value as integers. -/
def Value.encoded : Value ℚ → List ℤ
  | int v => [0, v.toInt]
  | long v => [1, v.toInt]
  | float v => [2, v.num, v.den]
  | double v => [3, v.num, v.den]
  | string v => 4 :: v.map fun byte => (byte.toNat : ℤ)

lemma Value.encoded_injective : Function.Injective Value.encoded := by
  have hbyte : Function.Injective fun byte : UInt8 => (byte.toNat : ℤ) := fun a b h =>
    UInt8.toNat_inj.mp (Int.ofNat_inj.mp h)
  intro v v' h
  cases v <;> cases v' <;> simp [encoded] at h
  case int.int v v' => rw [Int32.toInt_inj.mp h]
  case long.long v v' => rw [Int64.toInt_inj.mp h]
  case float.float v v' => rw [Rat.ext h.1 h.2]
  case double.double v v' => rw [Rat.ext h.1 h.2]
  case string.string v v' => rw [List.map_injective_iff.mpr hbyte h]

namespace Hasher

/-- Hash functions that encode what is hashed. -/
def encoding : Hasher ℚ ℕ where
  combine a b := 5 * Nat.pair a b
  number n := 5 * n + 1
  text t := 5 * Encodable.encode (t.map UInt8.toNat) + 2
  variant v := 5 * Encodable.encode (v.map Value.encoded) + 3
  pointer p := 5 * p + 4

lemma injective_encoding : encoding.Injective where
  combine h := Nat.pair_eq_pair.mp (Nat.eq_of_mul_eq_mul_left (by omega) h)
  number n n' (h : 5 * n + 1 = 5 * n' + 1) := by omega
  text t t' h := by
    have hcode : Encodable.encode (t.map UInt8.toNat) = Encodable.encode (t'.map UInt8.toNat) := by
      simp only [encoding] at h
      omega
    exact List.map_injective_iff.mpr (fun _ _ => UInt8.toNat_inj.mp) (Encodable.encode_injective hcode)
  variant v v' h := by
    have hcode : Encodable.encode (v.map Value.encoded) = Encodable.encode (v'.map Value.encoded) := by
      simp only [encoding] at h
      omega
    exact Option.map_injective Value.encoded_injective (Encodable.encode_injective hcode)
  combine_ne_number a b n (h : 5 * Nat.pair a b = 5 * n + 1) := by omega
  number_ne_text n t (h : 5 * n + 1 = 5 * _ + 2) := by omega
  pointer_ne_number p n (h : 5 * p + 4 = 5 * n + 1) := by omega
  pointer_ne_text p t (h : 5 * p + 4 = 5 * _ + 2) := by omega

end Hasher

/-- The same plan up to identities and comments. -/
def Plan.SameStructure (plan plan' : Plan R A) : Prop :=
  ∃ g : OperatorProxy R A → OperatorProxy R A, Plan.SameSharing g plan ∧
    (∀ q ∈ plan.subplans, (g q.proxy).attributes = q.proxy.attributes) ∧ plan' = plan.map g

/-- A filter for rows whose first column, to which a number is added, is positive. -/
def filterSum (number : Int32) : Plan ℚ Unit :=
  .unary { identity := "filter", attributes := .filter ⟨.node (.binaryPredicate .greaterThan)
    [.node (.arithmetic .addition) [.node (.pqpColumn 0 .int false []) [],
      .node (.value (some (.int number))) []],
    .node (.value (some (.int 0))) []]⟩ } (.source (importProxy none))

/-- A join, of which an input is an input of the other, too. -/
def sharedJoin (left right : OperatorProxy ℚ Unit) : Plan ℚ Unit :=
  .binary { identity := "upper", attributes := .join ⟨.inner, some ⟨0, 0, .equals⟩, [], .hashJoin⟩ }
    (.binary { identity := "lower",
               attributes := .join ⟨.inner, some ⟨0, 0, .equals⟩, [], .hashJoin⟩ }
      (.source left) (.source right))
    (.source (importProxy none))

/-- An import of another object. -/
def otherImportProxy : OperatorProxy ℚ Unit where
  identity := "other"
  attributes := .import {
    objectReferences := [{ bucketName := "bucket", identifier := "other.parquet" }]
    columnIds := [0] }

lemma hash_filterSum (H : Hasher ℚ S) (address : Bytes → ℕ) (number : Int32) :
    (filterSum number).hash H address = (filterSum 0).hash H address := by
  have hnodes : ∀ number : Int32,
      (filterSum number).nodes = [filterSum number, .source (importProxy none)] := by
    intro number
    simp [Plan.nodes, filterSum, Plan.visitPqp, Plan.identity, Plan.inputs, Plan.leftInput,
      Plan.rightInput, Plan.proxy, importProxy]
  rw [Plan.hash, Plan.hash, hnodes, hnodes]
  rfl

lemma nodes_sharedJoin : (sharedJoin (importProxy none) otherImportProxy).nodes.map
      (fun q => (q.proxy, q.identity)) =
    (sharedJoin otherImportProxy (importProxy none)).nodes.map fun q => (q.proxy, q.identity) := by
  simp [Plan.nodes, sharedJoin, Plan.visitPqp, Plan.identity, Plan.inputs, Plan.leftInput,
    Plan.rightInput, Plan.proxy, importProxy, otherImportProxy]

/-- Plans whose nodes have the same proxies have the same hash. -/
lemma Plan.hash_eq_of_nodes {plan plan' : Plan R A} (H : Hasher R S) (address : Bytes → ℕ)
    (h : plan.nodes.map (fun q => (q.proxy, q.identity)) =
      plan'.nodes.map fun q => (q.proxy, q.identity)) :
    plan.hash H address = plan'.hash H address := by
  have hfold : ∀ plan : Plan R A, plan.hash H address =
      (plan.nodes.map fun q => (q.proxy, q.identity)).foldlM (fun hash node => do
        let shallowHash ← node.1.attributes.shallowHash H (address node.2)
        return H.combineAll hash [H.enum node.1.attributes.operatorType, shallowHash])
        (H.number 0) := fun plan => by
    rw [List.foldlM_map]
    rfl
  rw [hfold, hfold, h]

/-- The hash of a pipeline without predecessors is that of its plan. -/
lemma TemplatedPipeline.exists_resultCacheHash [LinearOrder S] (H : Hasher R S)
    (address : Bytes → ℕ) {plan plan' : Plan R A} (hfree : plan.InstanceFree)
    (h : plan.hash H address = plan'.hash H address) :
    ∃ hash, (node plan false []).resultCacheHash H address false = .ok hash ∧
      (node plan' false []).resultCacheHash H address false = .ok hash := by
  obtain ⟨hash, hhash, -⟩ := hfree.exists_hash plan.builtAgain_self H address address
  refine ⟨hash, ?_, ?_⟩
  · rw [resultCacheHash_node, hhash]
    simp [combineHashes, Except.bind, Hasher.combineAll, bind, pure, Except.pure]
  · rw [resultCacheHash_node, ← h, hhash]
    simp [combineHashes, Except.bind, Hasher.combineAll, bind, pure, Except.pure]

end Skyrise

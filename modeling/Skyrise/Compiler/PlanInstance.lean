/-
Plans in other instances.

A plan that is built again has the same proxies under other identities, and a plan
that is read back from its text has proxies of which something may be lost.  In
either case the options of its imports are other objects, with other addresses.  Two
instances have the same hash, whatever the hash functions and the addresses are, if
and only if no import has options and nothing is lost that is hashed; hash functions
that add numbers tell the instances apart otherwise.
-/
import Skyrise.Compiler.PqpHash

namespace Skyrise

open MagicEnum

variable {R A S : Type}

/-! ### Hash functions that add -/

/-- The hash functions that add the numbers and addresses of some functions. -/
def Hasher.sum (number pointer : ℕ → ℕ) : Hasher R ℕ where
  combine := (· + ·)
  number := number
  text _ := 0
  variant _ := 0
  pointer := pointer

@[simp] lemma Hasher.combine_sum {number pointer : ℕ → ℕ} {a b : ℕ} :
    (Hasher.sum number pointer : Hasher R ℕ).combine a b = a + b := rfl

@[simp] lemma Hasher.pointer_sum {number pointer : ℕ → ℕ} {address : ℕ} :
    (Hasher.sum number pointer : Hasher R ℕ).pointer address = pointer address := rfl

@[simp] lemma Hasher.combineAll_sum {number pointer : ℕ → ℕ} {hash : ℕ} {hashes : List ℕ} :
    (Hasher.sum number pointer : Hasher R ℕ).combineAll hash hashes = hash + hashes.sum := by
  induction hashes generalizing hash with
  | nil => rfl
  | cons value hashes ih =>
    rw [combineAll, List.foldl_cons]
    refine ih.trans ?_
    rw [List.sum_cons, ← Nat.add_assoc]
    rfl

namespace Plan

/-- Of two plans of the same shape and sharing, the one whose shallow hashes are at least those of
the other, and larger somewhere, has the larger sum. -/
lemma exists_hash_sum_lt {number pointer : ℕ → ℕ} {address address' : Bytes → ℕ} {plan : Plan R A}
    {g : OperatorProxy R A → OperatorProxy R A} {P : Plan R A → Prop} (hg : SameSharing g plan)
    (hinj : ∀ q ∈ plan.subplans, ∀ q' ∈ plan.subplans, q.identity = q'.identity → q = q')
    (h : ∀ q ∈ plan.subplans,
      (g q.proxy).attributes.operatorType = q.proxy.attributes.operatorType ∧ ∃ w w',
        q.proxy.attributes.shallowHash (.sum number pointer) (address q.identity) = .ok w ∧
        (g q.proxy).attributes.shallowHash (.sum number pointer)
          (address' (g q.proxy).identity) = .ok w' ∧ w ≤ w' ∧ (P q → w < w'))
    (hP : ∃ q ∈ plan.subplans, P q) :
    ∃ hash hash', plan.hash (.sum number pointer) address = .ok hash ∧
      (plan.map g).hash (.sum number pointer) address' = .ok hash' ∧ hash < hash' := by
  obtain ⟨q, hq, hPq⟩ := hP
  have hmem : ∃ q ∈ plan.nodes, P q := ⟨q, (mem_nodes_iff hinj).mpr hq, hPq⟩
  rw [hash, hash, nodes_map hg]
  have hnodes := fun q hq => h q (mem_subplans_of_mem_nodes hq)
  generalize plan.nodes = nodes at hnodes hmem
  -- the sums differ as soon as a larger value was added
  suffices hle : ∀ seed seed' : ℕ, seed ≤ seed' → ∃ hash hash',
      nodes.foldlM (hashNode (.sum number pointer) address) seed = .ok hash ∧
      (nodes.map (map g)).foldlM (hashNode (.sum number pointer) address') seed' = .ok hash' ∧
      hash ≤ hash' ∧ ((seed < seed' ∨ ∃ q ∈ nodes, P q) → hash < hash') by
    obtain ⟨hash, hash', hhash, hhash', -, hlt⟩ := hle _ _ le_rfl
    exact ⟨hash, hash', hhash, hhash', hlt (.inr hmem)⟩
  clear hmem
  induction nodes with
  | nil => exact fun seed seed' hle => ⟨seed, seed', rfl, rfl, hle, fun h => h.elim id (by simp)⟩
  | cons q nodes ih =>
    intro seed seed' hle
    rw [List.forall_mem_cons] at hnodes
    obtain ⟨⟨htype, w, w', hw, hw', hww', hP⟩, htail⟩ := hnodes
    have hnode := hashNode_eq_ok seed hw
    have hnode' := hashNode_eq_ok seed' (q := q.map g)
      (by rw [proxy_map, identity_map]; exact hw')
    rw [proxy_map, htype] at hnode'
    rw [Hasher.combineAll_sum, List.sum_cons, List.sum_singleton] at hnode hnode'
    generalize Hasher.enum (.sum number pointer : Hasher R ℕ) q.proxy.attributes.operatorType = t
      at hnode hnode'
    obtain ⟨hash, hash', hhash, hhash', hle', hlt⟩ :=
      ih htail (seed + (t + w)) (seed' + (t + w')) (by omega)
    rw [List.map_cons, List.foldlM_cons, List.foldlM_cons, hnode, hnode']
    refine ⟨hash, hash', hhash, hhash', hle', fun h => hlt ?_⟩
    rcases h with h | ⟨q', hq', hPq'⟩
    · exact .inl (by omega)
    · rcases List.mem_cons.mp hq' with rfl | hq'
      · have := hP hPq'
        exact .inl (by omega)
      · exact .inr ⟨q', hq', hPq'⟩

end Plan

/-! ### Shallow hashes -/

/-- The type and the hash of an expression do not depend on what is lost of it. -/
lemma ExpressionNode.shallowHash_decoded (H : Hasher R S) (n : ExpressionNode R) :
    n.decoded.shallowHash H = n.shallowHash H := by
  cases n <;> rfl

lemma ExpressionNode.expressionType_decoded (n : ExpressionNode R) :
    n.decoded.expressionType = n.expressionType := by
  cases n <;> rfl

lemma Expression.root_decoded (e : Expression R) : e.decoded.root = e.root.decoded := by
  obtain ⟨n, arguments⟩ := e
  rw [decoded_node]
  rfl

lemma Expression.hash_decoded (H : Hasher R S) (e : Expression R) : e.decoded.hash H = e.hash H := by
  have hfold : ∀ (arguments : List (Expression R)) (seed : S),
      (arguments.map decoded).foldl (fun hash argument =>
        H.combine (H.combine hash (H.enum argument.root.expressionType))
          (argument.root.shallowHash H)) seed =
      arguments.foldl (fun hash argument =>
        H.combine (H.combine hash (H.enum argument.root.expressionType))
          (argument.root.shallowHash H)) seed := by
    intro arguments
    induction arguments with
    | nil => exact fun _ => rfl
    | cons argument arguments ih =>
      intro seed
      rw [List.map_cons, List.foldl_cons, List.foldl_cons, ih, root_decoded,
        ExpressionNode.shallowHash_decoded, ExpressionNode.expressionType_decoded]
  obtain ⟨n, arguments⟩ := e
  rw [decoded_node, hash, hash, Expression.arguments, hfold, Expression.root,
    ExpressionNode.shallowHash_decoded, ExpressionNode.expressionType_decoded]
  rfl

/-- Expressions have no addresses. -/
lemma Expression.hash_sum_zero {pointer : ℕ → ℕ} (e : Expression R) :
    e.hash (.sum (fun _ => 0) pointer) = 0 := by
  have hnode : ∀ n : ExpressionNode R, n.shallowHash (.sum (fun _ => 0) pointer) = 0 := by
    intro n
    cases n <;> rfl
  have hfold : ∀ arguments : List (Expression R), arguments.foldl (fun hash argument =>
      (Hasher.sum (fun _ => 0) pointer : Hasher R ℕ).combine
        ((Hasher.sum (fun _ => 0) pointer : Hasher R ℕ).combine hash
          (Hasher.enum (.sum (fun _ => 0) pointer : Hasher R ℕ) argument.root.expressionType))
        (argument.root.shallowHash (.sum (fun _ => 0) pointer))) 0 = 0 := by
    intro arguments
    induction arguments with
    | nil => rfl
    | cons argument arguments ih => rwa [List.foldl_cons, hnode]
  rw [hash, hnode]
  exact hfold e.arguments

namespace ProxyAttributes

/-- A join has a primary predicate. -/
def Hashable : ProxyAttributes R A → Prop
  | join p => p.primaryPredicate ≠ none
  | _ => True

/-- An import with options. -/
def HasImportOptions : ProxyAttributes R A → Prop
  | «import» p => p.importOptions.isSome
  | _ => False

variable {attributes attributes' : ProxyAttributes R A} {H : Hasher R S} {address address' : ℕ}

lemma hashable_iff (H : Hasher R S) (address : ℕ) : attributes.Hashable ↔
    ∃ shallowHash, attributes.shallowHash H address = .ok shallowHash := by
  cases attributes with
  | join p =>
    cases h : p.primaryPredicate <;> simp [Hashable, shallowHash, joinHash, h]
  | _ => simp [Hashable, shallowHash]

/-- Only the hash of an import with options depends on the address. -/
lemma shallowHash_eq_of_not_hasImportOptions (h : ¬ attributes.HasImportOptions) :
    attributes.shallowHash H address = attributes.shallowHash H address' := by
  cases attributes with
  | «import» p =>
    have hnone : p.importOptions.isSome = false := by simpa [HasImportOptions] using h
    simp [shallowHash, importHash, importSeed, hnone]
  | _ => rfl

/-- The hash functions that only add addresses. -/
lemma shallowHash_sum_pointer (address : ℕ) (h : attributes.Hashable) :
    ∃ w, attributes.shallowHash (.sum (fun _ => 0) id) address = .ok w ∧
      (attributes.HasImportOptions → w = address) ∧ (¬ attributes.HasImportOptions → w = 0) := by
  have hcolumnId : (Hasher.sum (fun _ => 0) id : Hasher R ℕ).columnId = fun _ => 0 := rfl
  have hnumber : (Hasher.sum (fun _ => 0) id : Hasher R ℕ).number = fun _ => 0 := rfl
  have htext : (Hasher.sum (fun _ => 0) id : Hasher R ℕ).text = fun _ => 0 := rfl
  have hbool : (Hasher.sum (fun _ => 0) id : Hasher R ℕ).bool = fun _ => 0 := rfl
  cases attributes with
  | join p =>
    obtain ⟨predicate, hp⟩ := Option.ne_none_iff_exists'.mp h
    refine ⟨_, by rw [shallowHash, joinHash, hp], fun h => h.elim, fun _ => ?_⟩
    simp [JoinOperatorPredicate.hash, Hasher.enum, hnumber]
  | «import» p =>
    have hreferences : (p.objectReferences.flatMap fun _ => [0, 0, 0]).sum = 0 := by
      induction p.objectReferences with
      | nil => rfl
      | cons r objectReferences ih => simpa using ih
    refine ⟨_, rfl, fun h => ?_, fun h => ?_⟩
    · have hsome : p.importOptions.isSome := h
      simp [importHash, importSeed, hsome, hcolumnId, hnumber, htext, Hasher.combine_sum, Hasher.pointer_sum,
        hreferences]
    · have hnone : p.importOptions.isSome = false := by simpa [HasImportOptions] using h
      simp [importHash, importSeed, hnone, hcolumnId, hnumber, htext, Hasher.combine_sum, hreferences]
  | _ =>
    refine ⟨_, rfl, fun h => h.elim, fun _ => ?_⟩
    simp [Expression.hash_sum_zero, SortColumnDefinition.hash, Hasher.enum, Hasher.combine_sum,
      hcolumnId, hnumber, htext, hbool]

/-- The number that is lost if it is an unusual one: the output objects of an import, or the
partitions of a partitioning. -/
def objectCount : ProxyAttributes R A → Option ℕ
  | «import» p => some p.outputObjectsCount
  | partition p => some p.partitioningFunction.partitionCount
  | _ => none

section Decoded

variable [FloatingPoint R] {createArrowExpression : Expression R → Except Exception A}

/-- What of an import is hashed and read back. -/
lemma importHash_decoded (H : Hasher R S) (address : ℕ) {p p' : ImportOperatorProxy R A}
    (h : p.decoded createArrowExpression = .ok p') :
    p'.importOptions.isSome = p.importOptions.isSome ∧ p'.outputObjectsCount = 2 ^ 64 - 1 ∧
      importHash H address p' = importHash H address { p with outputObjectsCount := 2 ^ 64 - 1 } := by
  have hreferences : (p.objectReferences.map fun r => { r with partitions := none }).flatMap
      (fun r => [H.text r.bucketName, H.text r.identifier, H.text r.etag]) =
        p.objectReferences.flatMap fun r =>
          [H.text r.bucketName, H.text r.identifier, H.text r.etag] := List.flatMap_map _ _ _
  obtain ⟨objectReferences, columnIds, importOptions, outputObjectsCount⟩ := p
  rcases importOptions with - | options
  · cases h
    exact ⟨rfl, rfl, by simp only [importHash, importSeed, hreferences]⟩
  · cases hcreate : ImportOptions.fromJson createArrowExpression options.toJson with
    | error exception =>
      simp [ImportOperatorProxy.decoded, hcreate, bind, Except.bind] at h
    | ok options' =>
      simp [ImportOperatorProxy.decoded, hcreate, bind, Except.bind, pure, Except.pure] at h
      subst h
      exact ⟨rfl, rfl, by simp only [importHash, importSeed, hreferences]; rfl⟩

/-- Reading attributes back keeps the type, and whether an import has options. -/
lemma decoded_spec (h : attributes.decoded createArrowExpression = .ok attributes') :
    attributes'.operatorType = attributes.operatorType ∧
      (attributes'.HasImportOptions ↔ attributes.HasImportOptions) ∧
      (attributes'.Hashable ↔ attributes.Hashable) ∧
      (attributes.objectCount = none → attributes'.objectCount = none) := by
  cases attributes with
  | aggregate p =>
    cases hp : p.decoded with
    | error exception => simp [decoded, hp, Functor.map, Except.map] at h
    | ok p' =>
      simp [decoded, hp, Functor.map, Except.map] at h
      subst h
      exact ⟨rfl, Iff.rfl, Iff.rfl, fun _ => rfl⟩
  | «import» p =>
    cases hp : p.decoded createArrowExpression with
    | error exception => simp [decoded, hp, Functor.map, Except.map] at h
    | ok p' =>
      simp [decoded, hp, Functor.map, Except.map] at h
      subst h
      have hsome := (importHash_decoded (.sum id id) 0 hp).1
      exact ⟨rfl, by rw [HasImportOptions, HasImportOptions, hsome], Iff.rfl, fun h => by cases h⟩
  | join p =>
    cases h
    exact ⟨rfl, Iff.rfl, Iff.rfl, fun _ => rfl⟩
  | partition p =>
    cases h
    exact ⟨by simp only [operatorType], iff_of_false id id, iff_of_true trivial trivial,
      fun h => by cases h⟩
  | _ =>
    cases h
    exact ⟨rfl, iff_of_false id id, iff_of_true trivial trivial, fun _ => rfl⟩

/-- What is hashed of attributes that are read back is the same, up to the number that may be
lost. -/
lemma shallowHash_decoded (h : attributes.decoded createArrowExpression = .ok attributes')
    (hcount : attributes'.objectCount = attributes.objectCount) :
    attributes'.shallowHash H address = attributes.shallowHash H address := by
  cases attributes with
  | aggregate p =>
    by_cases hall : p.aggregates.all fun e => e.root.expressionType = .aggregate
    · simp [decoded, AggregateOperatorProxy.decoded, hall, bind, Except.bind, pure, Except.pure,
        Functor.map, Except.map] at h
      subst h
      simp only [shallowHash, List.map_map, Function.comp_def, Expression.hash_decoded]
    · simp [decoded, AggregateOperatorProxy.decoded, hall, bind, Except.bind, Functor.map,
        Except.map] at h
  | filter p =>
    cases h
    exact congrArg Except.ok (p.predicate.hash_decoded H)
  | «import» p =>
    cases hp : p.decoded createArrowExpression with
    | error exception => simp [decoded, hp, Functor.map, Except.map] at h
    | ok p' =>
      simp [decoded, hp, Functor.map, Except.map] at h
      subst h
      obtain ⟨-, hdefault, hhash⟩ := importHash_decoded H address hp
      have hself : p.outputObjectsCount = 2 ^ 64 - 1 := by
        rw [← hdefault]
        exact (Option.some.inj hcount).symm
      refine congrArg Except.ok (hhash.trans ?_)
      rw [← hself]
  | limit p =>
    cases h
    exact congrArg Except.ok (p.rowCount.hash_decoded H)
  | partition p =>
    obtain rfl := Except.ok.inj h
    obtain ⟨count, hdecoded⟩ := p.exists_decoded_eq
    rw [hdecoded] at hcount ⊢
    obtain rfl : count = _ := Option.some.inj hcount
    rfl
  | projection p =>
    cases h
    simp only [shallowHash, List.map_map, Function.comp_def, Expression.hash_decoded]
  | _ =>
    cases h
    rfl

/-- The hash functions that only add numbers. -/
lemma exists_shallowHash_sum_number (number : ℕ → ℕ) (address : ℕ)
    (h : attributes.decoded createArrowExpression = .ok attributes') (hhashable : attributes.Hashable) :
    ∃ rest, attributes.shallowHash (.sum number fun _ => 0) address =
        .ok (rest + (attributes.objectCount.map number).getD 0) ∧
      attributes'.shallowHash (.sum number fun _ => 0) address =
        .ok (rest + (attributes'.objectCount.map number).getD 0) := by
  cases hcount : attributes.objectCount with
  | none =>
    obtain ⟨w, hw⟩ := (hashable_iff (.sum number fun _ => 0) address).mp hhashable
    have hcount' := (decoded_spec h).2.2.2 hcount
    refine ⟨w, hw, ?_⟩
    rw [hcount', shallowHash_decoded h (hcount'.trans hcount.symm)]
    exact hw
  | some count =>
    cases attributes with
    | «import» p =>
      obtain rfl := Option.some.inj hcount
      cases hp : p.decoded createArrowExpression with
      | error exception => simp [decoded, hp, Functor.map, Except.map] at h
      | ok p' =>
        simp [decoded, hp, Functor.map, Except.map] at h
        subst h
        obtain ⟨-, hdefault, hhash⟩ := importHash_decoded (.sum number fun _ => 0) address hp
        refine ⟨importSeed (.sum number fun _ => 0) address p, rfl, congrArg Except.ok ?_⟩
        rw [hhash, objectCount, hdefault]
        rfl
    | partition p =>
      obtain rfl := Option.some.inj hcount
      obtain rfl := Except.ok.inj h
      obtain ⟨rest, hrest⟩ : ∃ rest, ∀ count, (partition (A := A) (R := R)
          { p with partitioningFunction :=
            ⟨p.partitioningFunction.partitionColumnIds, count⟩ }).shallowHash
              (.sum number fun _ => 0) address = .ok (rest + number count) := by
        refine ⟨(p.partitioningFunction.partitionColumnIds.map number).sum +
          number (if p.sortWithinPartition then 1 else 0), fun count => congrArg Except.ok ?_⟩
        rw [Hasher.combineAll_sum, Hasher.combine_sum]
        show number count + _ + _ = _
        rw [Nat.add_comm _ (number count), ← Nat.add_assoc]
        rfl
      obtain ⟨count, hdecoded⟩ := p.exists_decoded_eq
      rw [hdecoded]
      exact ⟨rest, hrest p.partitioningFunction.partitionCount, hrest count⟩
    | _ => cases hcount

/-- The hash of what is read back does not depend on the instance: an import has neither options nor
a limit for the output objects, a join has a primary predicate, the partition count survives being
narrowed, and aggregates are of the type of aggregates. -/
def HashTransferable : ProxyAttributes R A → Prop
  | aggregate p => ∀ e ∈ p.aggregates, e.root.expressionType = .aggregate
  | «import» p => p.importOptions = none ∧ p.outputObjectsCount = 2 ^ 64 - 1
  | join p => p.primaryPredicate ≠ none
  | partition p => p.Transferable
  | _ => True

/-- Attributes are hashed alike before and after a transfer if they are hashed, no address is
hashed, they are read back and no number is lost. -/
lemma hashTransferable_iff (createArrowExpression : Expression R → Except Exception A)
    (hconstructible : attributes.Constructible) :
    attributes.HashTransferable ↔ attributes.Hashable ∧ ¬ attributes.HasImportOptions ∧
      ∃ attributes', attributes.decoded createArrowExpression = .ok attributes' ∧
        attributes'.objectCount = attributes.objectCount := by
  cases attributes with
  | aggregate p =>
    have hall : (∀ e ∈ p.aggregates, e.root.expressionType = .aggregate) ↔
        p.aggregates.all fun e => e.root.expressionType = .aggregate := by
      simp [List.all_eq_true]
    by_cases h : p.aggregates.all fun e => e.root.expressionType = .aggregate
    · refine iff_of_true (hall.mpr h) ⟨trivial, id,
        aggregate { p with aggregates := p.aggregates.map Expression.decoded }, ?_, rfl⟩
      simp [decoded, AggregateOperatorProxy.decoded, h, bind, Except.bind, pure, Except.pure,
        Functor.map, Except.map]
    · refine iff_of_false (fun hnot => h (hall.mp hnot)) ?_
      rintro ⟨-, -, attributes', hread, -⟩
      simp [decoded, AggregateOperatorProxy.decoded, h, bind, Except.bind, Functor.map,
        Except.map] at hread
  | «import» p =>
    rcases hoptions : p.importOptions with - | options
    · have hread : p.decoded createArrowExpression = .ok
          { objectReferences := p.objectReferences.map fun r => { r with partitions := none }
            columnIds := p.columnIds } := by
        rw [ImportOperatorProxy.decoded, hoptions]
        rfl
      simp [HashTransferable, Hashable, HasImportOptions, hoptions, decoded, hread, objectCount,
        Functor.map, Except.map, eq_comm]
    · simp [HashTransferable, HasImportOptions, hoptions]
  | join p => simp [HashTransferable, Hashable, HasImportOptions, decoded, objectCount]
  | partition p =>
    rw [show HashTransferable (partition p : ProxyAttributes R A) ↔ p.Transferable from Iff.rfl,
      ← PartitionOperatorProxy.decoded_eq_self_iff hconstructible]
    obtain ⟨count, hdecoded⟩ := p.exists_decoded_eq
    obtain ⟨⟨partitionColumnIds, partitionCount⟩, sortWithinPartition⟩ := p
    simp [Hashable, HasImportOptions, decoded, objectCount, hdecoded]
  | _ => simp [HashTransferable, Hashable, HasImportOptions, decoded, objectCount]

/-- The number that is read back of an import or a partitioning. -/
lemma objectCount_decoded (hconstructible : attributes.Constructible)
    (h : attributes.decoded createArrowExpression = .ok attributes') {count : ℕ}
    (hcount : attributes.objectCount = some count) : attributes'.objectCount = some (2 ^ 64 - 1) ∨
      count < 2 ^ 64 ∧
        attributes'.objectCount = some ((count : ℤ).bmod (2 ^ 32) % 2 ^ 64).toNat := by
  cases attributes with
  | «import» p =>
    cases hp : p.decoded createArrowExpression with
    | error exception => simp [decoded, hp, Functor.map, Except.map] at h
    | ok p' =>
      simp [decoded, hp, Functor.map, Except.map] at h
      subst h
      have hdefault := (importHash_decoded (.sum id id) 0 hp).2.1
      exact .inl (congrArg some hdefault)
  | partition p =>
    obtain rfl := Option.some.inj hcount
    obtain rfl := Except.ok.inj h
    exact .inr ⟨hconstructible.partitionCount_lt, by rw [objectCount, PartitionOperatorProxy.decoded]⟩
  | _ => cases hcount

end Decoded

end ProxyAttributes

/-! ### Plans that are built again -/

namespace Plan

/-- The plan with other identities. -/
def rename (identities : Bytes → Bytes) (plan : Plan R A) : Plan R A :=
  plan.map fun proxy => { proxy with identity := identities proxy.identity }

/-- What is built from the same arguments: the plan under other identities, which are different
where those of the plan are. -/
def BuiltAgain (plan plan' : Plan R A) : Prop :=
  ∃ identities : Bytes → Bytes,
    Set.InjOn identities {identity | ∃ q ∈ plan.subplans, q.identity = identity} ∧
    plan' = plan.rename identities

/-- No import has options, and every join has a primary predicate. -/
def InstanceFree (plan : Plan R A) : Prop :=
  ∀ q ∈ plan.subplans, q.proxy.attributes.Hashable ∧ ¬ q.proxy.attributes.HasImportOptions

lemma rename_id (plan : Plan R A) : plan.rename id = plan := by
  rw [rename]
  induction plan with
  | source proxy => rfl
  | unary proxy l ih => exact congrArg (unary proxy) ih
  | binary proxy l r ihl ihr => exact congrArg₂ (binary proxy) ihl ihr

lemma builtAgain_self (plan : Plan R A) : plan.BuiltAgain plan :=
  ⟨id, Set.injOn_id _, plan.rename_id.symm⟩

lemma sameSharing_rename {plan : Plan R A} {identities : Bytes → Bytes}
    (h : Set.InjOn identities {identity | ∃ q ∈ plan.subplans, q.identity = identity}) :
    SameSharing (fun proxy => { proxy with identity := identities proxy.identity }) plan :=
  fun q hq q' hq' => ⟨fun heq => h ⟨q, hq, rfl⟩ ⟨q', hq', rfl⟩ heq,
    fun heq => congrArg identities heq⟩

/-- A plan without import options has the same hash when it is built again. -/
lemma InstanceFree.exists_hash {plan plan' : Plan R A} (h : plan.InstanceFree)
    (hbuilt : plan.BuiltAgain plan') (H : Hasher R S) (address address' : Bytes → ℕ) :
    ∃ hash, plan.hash H address = .ok hash ∧ plan'.hash H address' = .ok hash := by
  obtain ⟨identities, hinj, rfl⟩ := hbuilt
  refine exists_hash_map (sameSharing_rename hinj) fun q hq => ⟨rfl, ?_⟩
  obtain ⟨shallowHash, hshallow⟩ :=
    (ProxyAttributes.hashable_iff H (address q.identity)).mp (h q hq).1
  refine ⟨shallowHash, hshallow, ?_⟩
  rw [← hshallow]
  exact ProxyAttributes.shallowHash_eq_of_not_hasImportOptions (h q hq).2

/-- If the proxies of a plan are hashed, then the addresses of import options change the sum. -/
lemma exists_hash_sum_pointer_lt {plan : Plan R A} {g : OperatorProxy R A → OperatorProxy R A}
    (hg : SameSharing g plan)
    (hinj : ∀ q ∈ plan.subplans, ∀ q' ∈ plan.subplans, q.identity = q'.identity → q = q')
    (hspec : ∀ q ∈ plan.subplans, q.proxy.attributes.Hashable ∧
      (g q.proxy).attributes.operatorType = q.proxy.attributes.operatorType ∧
      ((g q.proxy).attributes.HasImportOptions ↔ q.proxy.attributes.HasImportOptions) ∧
      (g q.proxy).attributes.Hashable)
    (hoptions : ∃ q ∈ plan.subplans, q.proxy.attributes.HasImportOptions) :
    ∃ hash hash', plan.hash (.sum (fun _ => 0) id) (fun _ => 0) = .ok hash ∧
      (plan.map g).hash (.sum (fun _ => 0) id) (fun _ => 1) = .ok hash' ∧ hash < hash' := by
  refine exists_hash_sum_lt hg hinj (fun q hq => ?_) hoptions
  obtain ⟨hhashable, htype, hiff, hhashable'⟩ := hspec q hq
  obtain ⟨w, hw, hwith, hwithout⟩ :=
    ProxyAttributes.shallowHash_sum_pointer 0 hhashable
  obtain ⟨w', hw', hwith', -⟩ := ProxyAttributes.shallowHash_sum_pointer 1 hhashable'
  refine ⟨htype, w, w', hw, hw', ?_, fun h => ?_⟩
  · by_cases h : q.proxy.attributes.HasImportOptions
    · rw [hwith h]
      exact Nat.zero_le _
    · rw [hwithout h]
      exact Nat.zero_le _
  · rw [hwith h, hwith' (hiff.mpr h)]
    exact Nat.zero_lt_one

/-- A plan has the same hash whenever it is built if and only if it has no import options. -/
lemma hash_builtAgain_iff {plan : Plan R A}
    (hinj : ∀ q ∈ plan.subplans, ∀ q' ∈ plan.subplans, q.identity = q'.identity → q = q') :
    (∀ plan', plan.BuiltAgain plan' → ∀ (S : Type) (H : Hasher R S) (address address' : Bytes → ℕ),
      ∃ hash, plan.hash H address = .ok hash ∧ plan'.hash H address' = .ok hash) ↔
        plan.InstanceFree := by
  constructor
  · intro h
    have hhashable : ∀ q ∈ plan.subplans, q.proxy.attributes.Hashable := by
      intro q hq
      obtain ⟨hash, hhash, -⟩ := h plan plan.builtAgain_self ℕ (.sum (fun _ => 0) id)
        (fun _ => 0) fun _ => 0
      exact (ProxyAttributes.hashable_iff _ _).mpr (exists_shallowHash_of_hash hinj hhash hq)
    refine fun q hq => ⟨hhashable q hq, fun hoptions => ?_⟩
    obtain ⟨hash, hash', hhash, hhash', hlt⟩ := exists_hash_sum_pointer_lt
      (sameSharing_rename (Set.injOn_id _)) hinj
      (fun q hq => ⟨hhashable q hq, rfl, Iff.rfl, hhashable q hq⟩) ⟨q, hq, hoptions⟩
    obtain ⟨same, hsame, hsame'⟩ := h (plan.rename id) ⟨id, Set.injOn_id _, rfl⟩ ℕ
      (.sum (fun _ => 0) id) (fun _ => 0) fun _ => 1
    rw [hhash] at hsame
    rw [rename, hhash'] at hsame'
    have := Except.ok.inj hsame
    have := Except.ok.inj hsame'
    omega
  · exact fun h plan' hbuilt S H address address' => h.exists_hash hbuilt H address address'

/-! ### Plans that are read back -/

section ReadBack

variable [FloatingPoint R] {createArrowExpression : Expression R → Except Exception A}

/-- The proxies that are read back are shared like those of the plan. -/
lemma sameSharing_decoded {plan : Plan R A} :
    SameSharing (OperatorProxy.decoded createArrowExpression) plan := fun q _ q' _ => by
  rw [OperatorProxy.identity_decoded, OperatorProxy.identity_decoded]
  rfl

/-- What is said about the proxies that are read back. -/
lemma attributes_decoded {proxy : OperatorProxy R A} {attributes : ProxyAttributes R A}
    (h : proxy.attributes.decoded createArrowExpression = .ok attributes) :
    (proxy.decoded createArrowExpression).attributes = attributes := by
  rw [OperatorProxy.decoded, h]

/-- If a number is lost of a plan, then hash functions that count some numbers see it. -/
lemma exists_hash_sum_number_lt {plan : Plan R A} (hplan : plan.WellFormed) {number : ℕ → ℕ}
    (hread : ∀ q ∈ plan.subplans, q.proxy.attributes.Hashable ∧ ∃ attributes,
      q.proxy.attributes.decoded createArrowExpression = .ok attributes)
    (hmax : ∀ n, number n ≤ number (2 ^ 64 - 1))
    (hnarrow : ∀ n < 2 ^ 64, number n ≤ number ((n : ℤ).bmod (2 ^ 32) % 2 ^ 64).toNat)
    (hlost : ∃ q ∈ plan.subplans, ∃ count count',
      q.proxy.attributes.objectCount = some count ∧
      (q.proxy.decoded createArrowExpression).attributes.objectCount = some count' ∧
      number count < number count') :
    ∃ hash hash', plan.hash (.sum number fun _ => 0) (fun _ => 0) = .ok hash ∧
      (plan.map (OperatorProxy.decoded createArrowExpression)).hash (.sum number fun _ => 0)
        (fun _ => 0) = .ok hash' ∧ hash < hash' := by
  refine exists_hash_sum_lt sameSharing_decoded hplan.eq_of_identity_eq (fun q hq => ?_) hlost
  obtain ⟨hhashable, attributes, hattr⟩ := hread q hq
  rw [attributes_decoded hattr]
  obtain ⟨rest, hw, hw'⟩ :=
    ProxyAttributes.exists_shallowHash_sum_number number 0 hattr hhashable
  refine ⟨(ProxyAttributes.decoded_spec hattr).1, _, _, hw, hw', ?_, ?_⟩
  · cases hcount : q.proxy.attributes.objectCount with
    | none => simp [(ProxyAttributes.decoded_spec hattr).2.2.2 hcount]
    | some count =>
      have hle : number count ≤ ((attributes.objectCount.map number).getD 0) := by
        rcases ProxyAttributes.objectCount_decoded (hplan.constructible q hq) hattr hcount with
          h | ⟨hlt, h⟩ <;> rw [h]
        · exact hmax count
        · exact hnarrow count hlt
      exact Nat.add_le_add_left hle rest
  · rintro ⟨count, count', hcount, hcount', hlt⟩
    rw [hcount, hcount']
    exact Nat.add_lt_add_left hlt rest

omit [FloatingPoint R] in
/-- Numbers that were narrowed survive being narrowed. -/
lemma narrowed_lt_or_le (n : ℕ) : ((n : ℤ).bmod (2 ^ 32) % 2 ^ 64).toNat < 2 ^ 31 ∨
    2 ^ 64 - 2 ^ 31 ≤ ((n : ℤ).bmod (2 ^ 32) % 2 ^ 64).toNat := by
  rw [Int.bmod_def]
  omega

/-- If no hash functions tell a plan from what is read back of it, then no number is lost. -/
lemma objectCount_eq_of_hash_eq {plan : Plan R A} (hplan : plan.WellFormed)
    (hread : ∀ q ∈ plan.subplans, q.proxy.attributes.Hashable ∧ ∃ attributes,
      q.proxy.attributes.decoded createArrowExpression = .ok attributes)
    (hcontra : ∀ number : ℕ → ℕ,
      ¬ ∃ hash hash', plan.hash (.sum number fun _ => 0) (fun _ => 0) = .ok hash ∧
        (plan.map (OperatorProxy.decoded createArrowExpression)).hash (.sum number fun _ => 0)
          (fun _ => 0) = .ok hash' ∧ hash < hash')
    {q : Plan R A} (hq : q ∈ plan.subplans) {attributes : ProxyAttributes R A}
    (hattr : q.proxy.attributes.decoded createArrowExpression = .ok attributes) :
    attributes.objectCount = q.proxy.attributes.objectCount := by
  cases hcount : q.proxy.attributes.objectCount with
  | none => exact (ProxyAttributes.decoded_spec hattr).2.2.2 hcount
  | some count =>
    by_contra hne
    have hlost : ∀ {number : ℕ → ℕ} {count'}, attributes.objectCount = some count' →
        number count < number count' → ∃ q ∈ plan.subplans, ∃ count count',
          q.proxy.attributes.objectCount = some count ∧
          (q.proxy.decoded createArrowExpression).attributes.objectCount = some count' ∧
          number count < number count' := fun hcount' hlt =>
      ⟨q, hq, count, _, hcount, by rw [attributes_decoded hattr]; exact hcount', hlt⟩
    rcases ProxyAttributes.objectCount_decoded (hplan.constructible q hq) hattr hcount with
      hcount' | ⟨hlt, hcount'⟩
    · -- the default is counted
      have hne' : count ≠ 2 ^ 64 - 1 := fun h => hne (by rw [hcount', h])
      refine hcontra (fun n => if n = 2 ^ 64 - 1 then 1 else 0)
        (exists_hash_sum_number_lt hplan hread (fun n => ?_) (fun n hn => ?_) (hlost hcount' ?_))
      · simp only [if_true]
        split <;> omega
      · split
        · next h =>
          rw [(PartitionOperatorProxy.toNat_bmod_emod_eq_self_iff hn).mpr (by omega), if_pos h]
        · exact Nat.zero_le _
      · rw [if_neg hne', if_pos rfl]
        exact Nat.zero_lt_one
    · -- the numbers that survive being narrowed are counted
      have hne' : ¬ (count < 2 ^ 31 ∨ 2 ^ 64 - 2 ^ 31 ≤ count) := fun h => hne <| by
        rw [hcount', (PartitionOperatorProxy.toNat_bmod_emod_eq_self_iff hlt).mpr h]
      refine hcontra (fun n => if n < 2 ^ 31 ∨ 2 ^ 64 - 2 ^ 31 ≤ n then 1 else 0)
        (exists_hash_sum_number_lt hplan hread (fun n => ?_) (fun n hn => ?_) (hlost hcount' ?_))
      · rw [if_pos (show 2 ^ 64 - 1 < 2 ^ 31 ∨ 2 ^ 64 - 2 ^ 31 ≤ 2 ^ 64 - 1 by omega)]
        split <;> omega
      · rw [if_pos (narrowed_lt_or_le n)]
        split <;> omega
      · rw [if_neg hne', if_pos (narrowed_lt_or_le count)]
        exact Nat.zero_lt_one

/-- A plan that is read back has the same hash if and only if all of its attributes are transferred
as far as they are hashed. -/
lemma hash_deserializePqp_iff {plan : Plan R A} (hplan : plan.WellFormed) :
    (∃ graph plan', deserializePqp createArrowExpression (serializePqp plan) = .ok graph ∧
      graph.IsPlan plan' ∧ ∀ (S : Type) (H : Hasher R S) (address address' : Bytes → ℕ),
        ∃ hash, plan.hash H address = .ok hash ∧ plan'.hash H address' = .ok hash) ↔
          ∀ q ∈ plan.subplans, q.proxy.attributes.HashTransferable := by
  constructor
  · rintro ⟨graph, plan', hdeserialize, hplan', hsame⟩
    obtain rfl := (isPlan_iff hplan hdeserialize).mp hplan'
    have hread : ∀ q ∈ plan.subplans, q.proxy.attributes.Hashable ∧ ∃ attributes,
        q.proxy.attributes.decoded createArrowExpression = .ok attributes := by
      intro q hq
      obtain ⟨hash, hhash, -⟩ := hsame ℕ (.sum (fun _ => 0) id) (fun _ => 0) fun _ => 0
      obtain ⟨attributes, hattr, -⟩ := findProxy_of_deserializePqp hplan hdeserialize hq
      exact ⟨(ProxyAttributes.hashable_iff _ _).mpr
        (exists_shallowHash_of_hash hplan.eq_of_identity_eq hhash hq), attributes, hattr⟩
    have hcontra : ∀ (number pointer : ℕ → ℕ) (address address' : Bytes → ℕ),
        ¬ ∃ hash hash', plan.hash (.sum number pointer) address = .ok hash ∧
          (plan.map (OperatorProxy.decoded createArrowExpression)).hash (.sum number pointer)
            address' = .ok hash' ∧ hash < hash' := by
      rintro number pointer address address' ⟨hash, hash', hhash, hhash', hlt⟩
      obtain ⟨same, h, h'⟩ := hsame ℕ (.sum number pointer) address address'
      rw [hhash] at h
      rw [hhash'] at h'
      have := Except.ok.inj h
      have := Except.ok.inj h'
      omega
    intro q hq
    obtain ⟨hhashable, attributes, hattr⟩ := hread q hq
    rw [ProxyAttributes.hashTransferable_iff createArrowExpression
      (hplan.constructible q hq)]
    refine ⟨hhashable, fun hoptions => ?_, attributes, hattr,
      objectCount_eq_of_hash_eq hplan hread (fun number => hcontra number _ _ _) hq hattr⟩
    · refine hcontra _ _ _ _ (exists_hash_sum_pointer_lt sameSharing_decoded
        hplan.eq_of_identity_eq (fun q hq => ?_) ⟨q, hq, hoptions⟩)
      obtain ⟨hhashable, attributes, hattr⟩ := hread q hq
      obtain ⟨htype, hiff, hhashable', -⟩ := ProxyAttributes.decoded_spec hattr
      rw [attributes_decoded hattr]
      exact ⟨hhashable, htype, hiff, hhashable'.mpr hhashable⟩
  · intro h
    have hiff := fun q hq => (ProxyAttributes.hashTransferable_iff
      createArrowExpression (hplan.constructible q hq)).mp (h q hq)
    obtain ⟨graph, hdeserialize, -⟩ := exists_deserializePqp_eq_ok hplan fun q hq => by
      obtain ⟨-, -, attributes, hattr, -⟩ := hiff q hq
      exact ⟨attributes, hattr⟩
    refine ⟨graph, _, hdeserialize, (isPlan_iff hplan hdeserialize).mpr rfl, ?_⟩
    intro S H address address'
    refine exists_hash_map sameSharing_decoded fun q hq => ?_
    obtain ⟨hhashable, hoptions, attributes, hattr, hcount⟩ := hiff q hq
    obtain ⟨shallowHash, hshallow⟩ :=
      (ProxyAttributes.hashable_iff H (address q.identity)).mp hhashable
    rw [attributes_decoded hattr]
    refine ⟨(ProxyAttributes.decoded_spec hattr).1, shallowHash, hshallow, ?_⟩
    rw [ProxyAttributes.shallowHash_decoded hattr hcount, ← hshallow]
    exact ProxyAttributes.shallowHash_eq_of_not_hasImportOptions hoptions

end ReadBack

end Plan

end Skyrise

/-
Operator proxies and plans.

An operator proxy has an identity, a comment and the attributes of its class; a plan
is a proxy with the plans of its inputs.  The object of a proxy names its type, its
identity and the identities of its inputs, next to the attributes.
-/
import Skyrise.Compiler.OperatorProxy.OperatorProxies

namespace Skyrise

open JsonValue MagicEnum Bytes

/-- The class of an operator proxy, with its attributes. -/
inductive ProxyAttributes (R A : Type) where
  | aggregate (p : AggregateOperatorProxy R)
  | alias (p : AliasOperatorProxy)
  | export (p : ExportOperatorProxy)
  | filter (p : FilterOperatorProxy R)
  | import (p : ImportOperatorProxy R A)
  | join (p : JoinOperatorProxy)
  | limit (p : LimitOperatorProxy R)
  | partition (p : PartitionOperatorProxy)
  | projection (p : ProjectionOperatorProxy R)
  | sort (p : SortOperatorProxy)
  | union (p : UnionOperatorProxy)

variable {R A : Type}

namespace ProxyAttributes

/-- `Type`. -/
def operatorType : ProxyAttributes R A → OperatorType
  | aggregate _ => .aggregate
  | «alias» _ => .alias
  | «export» _ => .export
  | filter _ => .filter
  | «import» _ => .import
  | join p => p.implementation.operatorType
  | limit _ => .limit
  | partition _ => .partition
  | projection _ => .projection
  | sort _ => .sort
  | union _ => .union

/-- The object of a proxy with the attributes of its class. -/
def toJson (base : JsonValue R) : ProxyAttributes R A → JsonValue R
  | aggregate p => p.toJson base
  | «alias» p => p.toJson base
  | «export» p => p.toJson base
  | filter p => p.toJson base
  | «import» p => p.toJson base
  | join p => p.toJson base
  | limit p => p.toJson base
  | partition p => p.toJson base
  | projection p => p.toJson base
  | sort p => p.toJson base
  | union p => p.toJson base

/-- The attributes of the class that a type of operators names. -/
def fromJson [FloatingPoint R] (createArrowExpression : Expression R → Except Exception A)
    (json : JsonValue R) : OperatorType → Except Exception (ProxyAttributes R A)
  | .aggregate => aggregate <$> AggregateOperatorProxy.fromJson json
  | .alias => «alias» <$> AliasOperatorProxy.fromJson json
  | .export => «export» <$> ExportOperatorProxy.fromJson json
  | .filter => filter <$> FilterOperatorProxy.fromJson json
  | .import => «import» <$> ImportOperatorProxy.fromJson createArrowExpression json
  | .hashJoin => join <$> JoinOperatorProxy.fromJson json
  | .limit => limit <$> LimitOperatorProxy.fromJson json
  | .partition => partition <$> PartitionOperatorProxy.fromJson json
  | .projection => projection <$> ProjectionOperatorProxy.fromJson json
  | .sort => sort <$> SortOperatorProxy.fromJson json
  | .sortMergeJoin => join <$> JoinOperatorProxy.fromJson json
  | .union => union <$> UnionOperatorProxy.fromJson json
  | .exchange => .error (.assertionFailed "Unknown operator type.")

/-- The attributes that determine the execution: those of an import have determining options. -/
def determining : ProxyAttributes R A → ProxyAttributes R A
  | «import» p => «import» p.determining
  | attributes => attributes

/-- What the constructors of the classes assert, and that expressions can be constructed. -/
def Constructible [FloatingPoint R] : ProxyAttributes R A → Prop
  | aggregate p => p.Constructible
  | «alias» p => p.Constructible
  | «export» p => p.Constructible
  | filter p => p.predicate.Constructible
  | «import» p => p.Constructible
  | join p => p.Constructible
  | limit p => p.rowCount.Constructible
  | partition p => p.Constructible
  | projection p => ∀ e ∈ p.expressions, e.Constructible
  | sort p => p.sortDefinitions ≠ []
  | union _ => True

/-- The attributes of which nothing is lost: object references without partitions, imports without
a limit for the output objects and with transferable options, expressions without string
aggregates, aggregates of the type of aggregates, and partition counts that survive being narrowed
to 32 bits. -/
def Transferable (createArrowExpression : Expression R → Except Exception A) :
    ProxyAttributes R A → Prop
  | aggregate p => p.Transferable
  | «export» p => p.Transferable
  | filter p => p.predicate.NoStringAgg
  | «import» p => p.Transferable createArrowExpression
  | limit p => p.rowCount.NoStringAgg
  | partition p => p.Transferable
  | projection p => ∀ e ∈ p.expressions, e.NoStringAgg
  | «alias» _ | join _ | sort _ | union _ => True

/-- The keys of the members that every proxy has. -/
def baseKeys : List Bytes :=
  ["operator_type", "operator_identity", "left_input_operator_identity",
    "right_input_operator_identity", "comment"]

/-- No class replaces a member that every proxy has. -/
lemma find_toJson (attributes : ProxyAttributes R A) {base : JsonValue R} {key : Bytes}
    (hkey : key ∈ baseKeys) : (attributes.toJson base).find key = base.find key := by
  simp only [baseKeys, List.mem_cons, List.not_mem_nil, or_false] at hkey
  rcases hkey with rfl | rfl | rfl | rfl | rfl <;> cases attributes <;>
    simp [toJson, AggregateOperatorProxy.toJson, AliasOperatorProxy.toJson,
      ExportOperatorProxy.toJson, FilterOperatorProxy.toJson, ImportOperatorProxy.toJson,
      JoinOperatorProxy.toJson, LimitOperatorProxy.toJson, PartitionOperatorProxy.toJson,
      ProjectionOperatorProxy.toJson, SortOperatorProxy.toJson, UnionOperatorProxy.toJson]

/-- The attributes that are read back. -/
def decoded [FloatingPoint R] (createArrowExpression : Expression R → Except Exception A) :
    ProxyAttributes R A → Except Exception (ProxyAttributes R A)
  | aggregate p => aggregate <$> p.decoded
  | «alias» p => .ok («alias» p)
  | «export» p => .ok («export» p.decoded)
  | filter p => .ok (filter ⟨p.predicate.decoded⟩)
  | «import» p => «import» <$> p.decoded createArrowExpression
  | join p => .ok (join p)
  | limit p => .ok (limit ⟨p.rowCount.decoded⟩)
  | partition p => .ok (partition p.decoded)
  | projection p => .ok (projection ⟨p.expressions.map Expression.decoded⟩)
  | sort p => .ok (sort p)
  | union p => .ok (union p)

variable [FloatingPoint R] {createArrowExpression : Expression R → Except Exception A}
  {attributes : ProxyAttributes R A}

/-- What is read of the object of a proxy. -/
lemma fromJson_toJson {base : JsonValue R} (hconstructible : attributes.Constructible)
    (htype : base.find "operator_type" = some (.string (enumName attributes.operatorType : Bytes)))
    (hbase : ∀ key, (base.find key).isSome → key ∈ baseKeys) :
    fromJson createArrowExpression (attributes.toJson base) attributes.operatorType =
      attributes.decoded createArrowExpression := by
  have hnone : ∀ key, key ∉ baseKeys → base.find key = none := fun key hkey => by
    by_contra hne
    exact hkey (hbase key (Option.isSome_iff_ne_none.mpr hne))
  cases attributes with
  | aggregate p => exact congrArg (aggregate <$> ·) (AggregateOperatorProxy.fromJson_toJson hconstructible)
  | «alias» p => exact congrArg («alias» <$> ·) (AliasOperatorProxy.fromJson_toJson hconstructible)
  | «export» p => exact congrArg («export» <$> ·) (ExportOperatorProxy.fromJson_toJson hconstructible)
  | filter p => exact congrArg (filter <$> ·) (FilterOperatorProxy.fromJson_toJson hconstructible)
  | «import» p =>
    exact congrArg («import» <$> ·) (ImportOperatorProxy.fromJson_toJson hconstructible
      (hnone _ (by simp [baseKeys])))
  | join p =>
    have hread : JoinOperatorProxy.fromJson (p.toJson base) = .ok p :=
      JoinOperatorProxy.fromJson_toJson hconstructible htype (hnone _ (by simp [baseKeys]))
        (hnone _ (by simp [baseKeys]))
    -- either implementation is read by the same function
    obtain ⟨mode, primaryPredicate, secondaryPredicates, implementation⟩ := p
    cases implementation <;> exact congrArg (join <$> ·) hread
  | limit p => exact congrArg (limit <$> ·) (LimitOperatorProxy.fromJson_toJson hconstructible)
  | partition p => exact congrArg (partition <$> ·) (PartitionOperatorProxy.fromJson_toJson hconstructible)
  | projection p => exact congrArg (projection <$> ·) (ProjectionOperatorProxy.fromJson_toJson hconstructible)
  | sort p => exact congrArg (sort <$> ·) (SortOperatorProxy.fromJson_toJson hconstructible)
  | union p => exact congrArg (union <$> ·) UnionOperatorProxy.fromJson_toJson

/-- The attributes of a proxy are read back if and only if they are transferable. -/
lemma decoded_determining_iff (hconstructible : attributes.Constructible) :
    (∃ attributes', attributes.decoded createArrowExpression = .ok attributes' ∧
      attributes'.determining = attributes.determining) ↔
        attributes.Transferable createArrowExpression := by
  cases attributes with
  | aggregate p =>
    refine Iff.trans ?_ AggregateOperatorProxy.decoded_eq_ok_self_iff
    cases h : p.decoded with
    | error exception => simp [decoded, h]
    | ok p' => simp [decoded, h, determining]
  | «export» p =>
    refine Iff.trans ?_ ExportOperatorProxy.decoded_eq_self_iff
    simp [decoded, determining]
  | filter p =>
    refine Iff.trans ?_ (Expression.decoded_eq_self_iff (e := p.predicate))
    obtain ⟨predicate⟩ := p
    simp [decoded, determining]
  | «import» p =>
    refine Iff.trans ?_ (ImportOperatorProxy.decoded_determining_iff hconstructible)
    cases h : p.decoded createArrowExpression with
    | error exception => simp [decoded, h]
    | ok p' => simp [decoded, h, determining]
  | limit p =>
    refine Iff.trans ?_ (Expression.decoded_eq_self_iff (e := p.rowCount))
    obtain ⟨rowCount⟩ := p
    simp [decoded, determining]
  | partition p =>
    refine Iff.trans ?_ (PartitionOperatorProxy.decoded_eq_self_iff hconstructible)
    simp [decoded, determining]
  | projection p =>
    refine Iff.trans ?_ map_decoded_eq_self_iff
    obtain ⟨expressions⟩ := p
    simp [decoded, determining]
  | «alias» p => simp [decoded, determining, Transferable]
  | join p => simp [decoded, determining, Transferable]
  | sort p => simp [decoded, determining, Transferable]
  | union p => simp [decoded, determining, Transferable]

omit [FloatingPoint R] in
@[simp] lemma operatorType_determining (attributes : ProxyAttributes R A) :
    attributes.determining.operatorType = attributes.operatorType := by
  cases attributes <;> rfl

end ProxyAttributes

/-- An operator proxy without its inputs. -/
structure OperatorProxy (R A : Type) where
  /-- The identity. -/
  identity : Bytes
  /-- The comment, which says nothing about the execution. -/
  comment : Bytes := []
  /-- The class and its attributes. -/
  attributes : ProxyAttributes R A

/-- A plan. -/
inductive Plan (R A : Type) where
  | source (proxy : OperatorProxy R A)
  | unary (proxy : OperatorProxy R A) (leftInput : Plan R A)
  | binary (proxy : OperatorProxy R A) (leftInput rightInput : Plan R A)

namespace Plan

/-- The proxy at the root. -/
def proxy : Plan R A → OperatorProxy R A
  | source proxy | unary proxy _ | binary proxy _ _ => proxy

/-- `Identity`. -/
def identity (plan : Plan R A) : Bytes := plan.proxy.identity

/-- `LeftInput`. -/
def leftInput : Plan R A → Option (Plan R A)
  | source _ => none
  | unary _ l | binary _ l _ => some l

/-- `RightInput`. -/
def rightInput : Plan R A → Option (Plan R A)
  | source _ | unary _ _ => none
  | binary _ _ r => some r

/-- The plans of all proxies that the root reads from, and the plan itself. -/
def subplans : Plan R A → List (Plan R A)
  | source proxy => [source proxy]
  | unary proxy l => unary proxy l :: l.subplans
  | binary proxy l r => binary proxy l r :: (l.subplans ++ r.subplans)

/-- The number of nodes of the unfolded plan. -/
def size : Plan R A → ℕ
  | source _ => 1
  | unary _ l => l.size + 1
  | binary _ l r => l.size + r.size + 1

lemma mem_subplans_self (plan : Plan R A) : plan ∈ plan.subplans := by
  cases plan <;> exact List.mem_cons_self

lemma subplans_subset {plan q : Plan R A} (hq : q ∈ plan.subplans) :
    ∀ s ∈ q.subplans, s ∈ plan.subplans := by
  induction plan with
  | source proxy =>
    obtain rfl := List.mem_singleton.mp hq
    exact fun _ hs => hs
  | unary proxy l ih =>
    rcases List.mem_cons.mp hq with rfl | hq
    · exact fun _ hs => hs
    · exact fun s hs => List.mem_cons_of_mem _ (ih hq s hs)
  | binary proxy l r ihl ihr =>
    rcases List.mem_cons.mp hq with rfl | hq
    · exact fun _ hs => hs
    · intro s hs
      refine List.mem_cons_of_mem _ (List.mem_append.mpr ?_)
      exact (List.mem_append.mp hq).imp (fun hq => ihl hq s hs) fun hq => ihr hq s hs

lemma leftInput_mem_subplans {plan l : Plan R A} (h : plan.leftInput = some l) :
    l ∈ plan.subplans := by
  cases plan with
  | source proxy => cases h
  | unary proxy l' =>
    cases h
    exact List.mem_cons_of_mem _ l.mem_subplans_self
  | binary proxy l' r =>
    cases h
    exact List.mem_cons_of_mem _ (List.mem_append_left _ l.mem_subplans_self)

lemma rightInput_mem_subplans {plan r : Plan R A} (h : plan.rightInput = some r) :
    r ∈ plan.subplans := by
  cases plan with
  | source proxy => cases h
  | unary proxy l => cases h
  | binary proxy l r' =>
    cases h
    exact List.mem_cons_of_mem _ (List.mem_append_right _ r.mem_subplans_self)

/-- The plan with other proxies. -/
def map (g : OperatorProxy R A → OperatorProxy R A) : Plan R A → Plan R A
  | source proxy => source (g proxy)
  | unary proxy l => unary (g proxy) (l.map g)
  | binary proxy l r => binary (g proxy) (l.map g) (r.map g)

variable {g : OperatorProxy R A → OperatorProxy R A}

@[simp] lemma proxy_map (plan : Plan R A) : (plan.map g).proxy = g plan.proxy := by
  cases plan <;> rfl

@[simp] lemma identity_map (plan : Plan R A) : (plan.map g).identity = (g plan.proxy).identity := by
  rw [identity, proxy_map]

@[simp] lemma leftInput_map (plan : Plan R A) : (plan.map g).leftInput = plan.leftInput.map (map g) := by
  cases plan <;> rfl

@[simp] lemma rightInput_map (plan : Plan R A) :
    (plan.map g).rightInput = plan.rightInput.map (map g) := by
  cases plan <;> rfl

lemma subplans_map (plan : Plan R A) : (plan.map g).subplans = plan.subplans.map (map g) := by
  induction plan with
  | source proxy => rfl
  | unary proxy l ih => rw [map, subplans, ih, subplans, List.map_cons, map]
  | binary proxy l r ihl ihr =>
    rw [map, subplans, ihl, ihr, subplans, List.map_cons, List.map_append, map]

/-- `AbstractOperatorProxy::ToJson`: the members that every proxy has. -/
def abstractToJson (plan : Plan R A) : JsonValue R :=
  ((((JsonValue.empty.withString "operator_type"
    (enumName plan.proxy.attributes.operatorType : Bytes)).withString
    "operator_identity" plan.identity).withOptional "left_input_operator_identity"
    (plan.leftInput.map fun l => .string l.identity)).withOptional "right_input_operator_identity"
    (plan.rightInput.map fun r => .string r.identity)).withOptional "comment"
    (if plan.proxy.comment = [] then none else some (.string plan.proxy.comment))

/-- `ToJson`: the object of the proxy at the root. -/
def toJson (plan : Plan R A) : JsonValue R := plan.proxy.attributes.toJson plan.abstractToJson

lemma mem_baseKeys_of_find_abstractToJson (plan : Plan R A) (key : Bytes)
    (h : (plan.abstractToJson.find key).isSome) : key ∈ ProxyAttributes.baseKeys := by
  by_contra hkey
  simp only [ProxyAttributes.baseKeys, List.mem_cons, List.not_mem_nil, or_false, not_or,
    eq_comm (a := key)] at hkey
  simp [abstractToJson, hkey] at h

/-- A plan of proxies that can be constructed.  Proxies with the same identity are the same proxy,
which has the same inputs wherever it is read from. -/
structure WellFormed [FloatingPoint R] (plan : Plan R A) : Prop where
  eq_of_identity_eq : ∀ q ∈ plan.subplans, ∀ q' ∈ plan.subplans, q.identity = q'.identity → q = q'
  identity_ne : ∀ q ∈ plan.subplans, q.identity ≠ []
  constructible : ∀ q ∈ plan.subplans, q.proxy.attributes.Constructible

end Plan

end Skyrise

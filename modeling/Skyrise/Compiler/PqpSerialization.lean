/-
Serialization of physical query plans.

`SerializePqp` visits the proxies of a plan and writes the object of each as the
member with its identity, unless there is one already.  `DeserializePqp` constructs a
proxy from every member and binds its inputs by their identities.  A member is
written before those of the inputs, so that a proxy that is visited again is done
unless the visit comes from below it, which a plan excludes.
-/
import Skyrise.Compiler.OperatorProxy.AbstractOperatorProxy

namespace Skyrise

open JsonValue MagicEnum Bytes

variable {R A : Type}

/-! ### Writing -/

/-- `SerializeOperatorProxiesRecursively`. -/
def serializeOperatorProxiesRecursively : Plan R A → JsonValue R → JsonValue R
  | .source proxy, json =>
    if json.keyExists proxy.identity then json
    else json.withObject proxy.identity (Plan.source proxy).toJson
  | .unary proxy l, json =>
    if json.keyExists proxy.identity then json
    else serializeOperatorProxiesRecursively l
      (json.withObject proxy.identity (Plan.unary proxy l).toJson)
  | .binary proxy l r, json =>
    if json.keyExists proxy.identity then json
    else serializeOperatorProxiesRecursively r (serializeOperatorProxiesRecursively l
      (json.withObject proxy.identity (Plan.binary proxy l r).toJson))

/-- `SerializePqp`. -/
def serializePqp (plan : Plan R A) : JsonValue R :=
  (JsonValue.empty.withString "root_operator_identity" plan.identity).withObject "operators"
    (serializeOperatorProxiesRecursively plan JsonValue.empty)

/-! ### Reading -/

/-- A proxy whose inputs are given by their identities, which are empty if there is no input. -/
structure UnboundProxy (R A : Type) where
  proxy : OperatorProxy R A
  leftInputIdentity : Bytes
  rightInputIdentity : Bytes

/-- A proxy whose inputs are proxies of a map. -/
structure BoundProxy (R A : Type) where
  proxy : OperatorProxy R A
  leftInput : Option Bytes
  rightInput : Option Bytes

/-- The proxies of a plan, by their identities, and the identity of the root. -/
structure ProxyGraph (R A : Type) where
  proxies : List (Bytes × BoundProxy R A)
  root : Bytes

/-- `find` in a map from identities to proxies. -/
def findProxy {β : Type} (proxies : List (Bytes × β)) (identity : Bytes) : Option β :=
  (proxies.find? fun entry => entry.1 = identity).map Prod.snd

/-- Every value of a map is transformed, or the first exception is thrown. -/
def mapProxies {β γ : Type} (f : β → Except Exception γ) (proxies : List (Bytes × β)) :
    Except Exception (List (Bytes × γ)) :=
  proxies.mapM fun entry => do return (entry.1, ← f entry.2)

lemma mapProxies_eq_ok_iff {β γ : Type} {f : β → Except Exception γ} {proxies : List (Bytes × β)}
    {proxies' : List (Bytes × γ)} : mapProxies f proxies = .ok proxies' ↔
      List.Forall₂ (fun entry entry' => entry'.1 = entry.1 ∧ f entry.2 = .ok entry'.2) proxies
        proxies' := by
  rw [mapProxies, mapM_eq_ok_iff]
  have hiff : ∀ (entry : Bytes × β) (entry' : Bytes × γ),
      (do return (entry.1, ← f entry.2) : Except Exception (Bytes × γ)) = .ok entry' ↔
        entry'.1 = entry.1 ∧ f entry.2 = .ok entry'.2 := by
    rintro entry ⟨key, v⟩
    cases h : f entry.2 with
    | error exception => simp [bind, Except.bind]
    | ok v' => simp [bind, Except.bind, pure, Except.pure, eq_comm]
  exact iff_of_eq (congrFun (congrFun (congrArg List.Forall₂ (funext fun entry => funext fun entry' =>
    propext (hiff entry entry'))) _) _)

/-- A transformed map has the transformed values. -/
lemma findProxy_of_mapProxies {β γ : Type} {f : β → Except Exception γ}
    {proxies : List (Bytes × β)} {proxies' : List (Bytes × γ)}
    (h : mapProxies f proxies = .ok proxies') (identity : Bytes) :
    Option.Rel (fun b c => f b = .ok c) (findProxy proxies identity)
      (findProxy proxies' identity) := by
  rw [mapProxies_eq_ok_iff] at h
  induction h with
  | nil => exact .none
  | @cons entry entry' proxies proxies' hentry _ ih =>
    obtain ⟨hkey, hvalue⟩ := hentry
    by_cases hidentity : entry.1 = identity
    · rw [findProxy, findProxy, List.find?_cons_of_pos (by simpa using hidentity),
        List.find?_cons_of_pos (by simpa [hkey] using hidentity)]
      exact .some hvalue
    · rw [findProxy, findProxy, List.find?_cons_of_neg (by simpa using hidentity),
        List.find?_cons_of_neg (by simpa [hkey] using hidentity)]
      exact ih

lemma exists_mapProxies_eq_ok {β γ : Type} {f : β → Except Exception γ}
    (proxies : List (Bytes × β)) (h : ∀ entry ∈ proxies, ∃ c, f entry.2 = .ok c) :
    ∃ proxies', mapProxies f proxies = .ok proxies' := by
  obtain ⟨proxies', hproxies', -⟩ := exists_mapM_eq_ok
    (f := fun entry : Bytes × β => (do return (entry.1, ← f entry.2) : Except Exception (Bytes × γ)))
    (P := fun _ _ => True) proxies fun entry hentry => by
      obtain ⟨c, hc⟩ := h entry hentry
      exact ⟨(entry.1, c), by simp [hc, bind, Except.bind, pure, Except.pure], trivial⟩
  exact ⟨proxies', hproxies'⟩

lemma exists_mem_of_mapProxies {β γ : Type} {f : β → Except Exception γ}
    {proxies : List (Bytes × β)} {proxies' : List (Bytes × γ)}
    (h : mapProxies f proxies = .ok proxies') {entry' : Bytes × γ} (hentry' : entry' ∈ proxies') :
    ∃ entry ∈ proxies, f entry.2 = .ok entry'.2 := by
  rw [mapProxies_eq_ok_iff] at h
  induction h with
  | nil => cases hentry'
  | @cons entry _ _ _ hentry _ ih =>
    rcases List.mem_cons.mp hentry' with rfl | hentry'
    · exact ⟨entry, List.mem_cons_self, hentry.2⟩
    · obtain ⟨entry₁, hmem, hf⟩ := ih hentry'
      exact ⟨entry₁, List.mem_cons_of_mem _ hmem, hf⟩

/-- A value of a map that is transformed. -/
lemma findProxy_eq_some_of_mapProxies {β γ : Type} {f : β → Except Exception γ}
    {proxies : List (Bytes × β)} {proxies' : List (Bytes × γ)}
    (h : mapProxies f proxies = .ok proxies') {identity : Bytes} {b : β} {c : γ}
    (hb : findProxy proxies identity = some b) (hc : f b = .ok c) :
    findProxy proxies' identity = some c := by
  have hrel := findProxy_of_mapProxies h identity
  rw [hb] at hrel
  cases hfind : findProxy proxies' identity with
  | none =>
    rw [hfind] at hrel
    cases hrel
  | some c' =>
    rw [hfind] at hrel
    rcases hrel with ⟨hrel⟩
    rw [hc] at hrel
    rw [Except.ok.inj hrel]

lemma mem_of_findProxy {β : Type} {proxies : List (Bytes × β)} {identity : Bytes} {b : β}
    (h : findProxy proxies identity = some b) : (identity, b) ∈ proxies := by
  obtain ⟨⟨key, b'⟩, hfind, rfl⟩ := Option.map_eq_some_iff.mp h
  have hkey := List.find?_some hfind
  obtain rfl : key = identity := by simpa using hkey
  exact List.mem_of_find?_eq_some hfind

/-- The members of an object, as a map. -/
lemma findProxy_getAllObjects {json : JsonValue R} {key : Bytes} :
    findProxy json.getAllObjects key = json.find key := by
  cases h : findProxy json.getAllObjects key with
  | some v => exact (mem_getAllObjects.mp (mem_of_findProxy h)).symm
  | none =>
    by_contra hne
    obtain ⟨v, hv⟩ := Option.ne_none_iff_exists'.mp fun h => hne h.symm
    have hnone := List.find?_eq_none.mp (Option.map_eq_none_iff.mp h) (key, v)
      (mem_getAllObjects.mpr hv)
    simp at hnone

section Read

variable [FloatingPoint R] (createArrowExpression : Expression R → Except Exception A)

/-- `SetAttributesFromJson`, for a proxy of a class. -/
def setAttributesFromJson (json : JsonValue R) (attributes : ProxyAttributes R A) :
    Except Exception (UnboundProxy R A) := do
  assert (json.keyExists "operator_identity") "Expected operator proxy identity in JSON."
  return {
    proxy := {
      identity := json.getString "operator_identity"
      comment := if json.keyExists "comment" then json.getString "comment" else []
      attributes }
    leftInputIdentity :=
      if json.keyExists "left_input_operator_identity" then
        json.getString "left_input_operator_identity"
      else []
    rightInputIdentity :=
      if json.keyExists "right_input_operator_identity" then
        json.getString "right_input_operator_identity"
      else [] }

/-- `DeserializeOperatorProxy`. -/
def deserializeOperatorProxy (json : JsonValue R) : Except Exception (UnboundProxy R A) :=
  match (enumCast (json.getString "operator_type") : Option OperatorType) with
  | some operatorType => do
    let attributes ← ProxyAttributes.fromJson createArrowExpression json operatorType
    setAttributesFromJson json attributes
  | none => .error (.assertionFailed "Unable to cast operator type.")

omit [FloatingPoint R] in
/-- `BindInputs`. -/
def bindInputs (identityToOperatorProxies : List (Bytes × UnboundProxy R A))
    (unbound : UnboundProxy R A) : Except Exception (BoundProxy R A) :=
  if unbound.leftInputIdentity = [] then do
    assert (unbound.rightInputIdentity = []) "Unexpected right input operator identity."
    return ⟨unbound.proxy, none, none⟩
  else do
    assert (findProxy identityToOperatorProxies unbound.leftInputIdentity).isSome
      "Left input operator proxy cannot be bound because no instance was provided."
    if unbound.rightInputIdentity = [] then
      return ⟨unbound.proxy, some unbound.leftInputIdentity, none⟩
    assert (findProxy identityToOperatorProxies unbound.rightInputIdentity).isSome
      "Right input operator proxy cannot be bound because no instance was provided."
    return ⟨unbound.proxy, some unbound.leftInputIdentity, some unbound.rightInputIdentity⟩

/-- `DeserializePqp`. -/
def deserializePqp (json : JsonValue R) : Except Exception (ProxyGraph R A) := do
  assert (json.keyExists "root_operator_identity") "Attribute 'root_operator_identity' is required."
  assert (json.keyExists "operators") "Attribute 'operators' is required."
  let identityToOperatorProxies ← mapProxies (deserializeOperatorProxy createArrowExpression)
    (json.getObject "operators").getAllObjects
  let proxies ← mapProxies (bindInputs identityToOperatorProxies) identityToOperatorProxies
  return ⟨proxies, json.getString "root_operator_identity"⟩

end Read

/-! ### The plan that a graph represents -/

namespace ProxyGraph

/-- The proxy with an identity in a graph is the root of a plan: it has the identity of the root,
the same determining attributes, and as inputs the proxies with the identities of the inputs, which
are the roots of their plans in turn.  Proxies are shared exactly where the plan shares them. -/
def Represents (graph : ProxyGraph R A) : Plan R A → Prop
  | .source proxy => ∃ bound, findProxy graph.proxies proxy.identity = some bound ∧
      bound.proxy.identity = proxy.identity ∧
      bound.proxy.attributes.determining = proxy.attributes.determining ∧
      bound.leftInput = none ∧ bound.rightInput = none
  | .unary proxy l => ∃ bound, findProxy graph.proxies proxy.identity = some bound ∧
      bound.proxy.identity = proxy.identity ∧
      bound.proxy.attributes.determining = proxy.attributes.determining ∧
      bound.leftInput = some l.identity ∧ bound.rightInput = none ∧ graph.Represents l
  | .binary proxy l r => ∃ bound, findProxy graph.proxies proxy.identity = some bound ∧
      bound.proxy.identity = proxy.identity ∧
      bound.proxy.attributes.determining = proxy.attributes.determining ∧
      bound.leftInput = some l.identity ∧ bound.rightInput = some r.identity ∧
      graph.Represents l ∧ graph.Represents r

/-- The plan that a graph is: its proxies and the inputs of each are those of the plan. -/
def IsPlan (graph : ProxyGraph R A) (plan : Plan R A) : Prop :=
  graph.root = plan.identity ∧ ∀ q ∈ plan.subplans, findProxy graph.proxies q.identity =
    some ⟨q.proxy, q.leftInput.map Plan.identity, q.rightInput.map Plan.identity⟩

/-- A graph represents a plan if it represents every part of it by one proxy. -/
lemma represents_iff {graph : ProxyGraph R A} {plan : Plan R A} :
    graph.Represents plan ↔ ∀ q ∈ plan.subplans, ∃ bound,
      findProxy graph.proxies q.identity = some bound ∧ bound.proxy.identity = q.identity ∧
      bound.proxy.attributes.determining = q.proxy.attributes.determining ∧
      bound.leftInput = q.leftInput.map Plan.identity ∧
      bound.rightInput = q.rightInput.map Plan.identity := by
  induction plan with
  | source proxy =>
    rw [Plan.subplans, List.forall_mem_singleton]
    rfl
  | unary proxy l ih =>
    rw [Plan.subplans, List.forall_mem_cons, ← ih]
    constructor
    · rintro ⟨bound, hfind, hidentity, hattributes, hleft, hright, hl⟩
      exact ⟨⟨bound, hfind, hidentity, hattributes, hleft, hright⟩, hl⟩
    · rintro ⟨⟨bound, hfind, hidentity, hattributes, hleft, hright⟩, hl⟩
      exact ⟨bound, hfind, hidentity, hattributes, hleft, hright, hl⟩
  | binary proxy l r ihl ihr =>
    rw [Plan.subplans, List.forall_mem_cons, List.forall_mem_append, ← ihl, ← ihr]
    constructor
    · rintro ⟨bound, hfind, hidentity, hattributes, hleft, hright, hl, hr⟩
      exact ⟨⟨bound, hfind, hidentity, hattributes, hleft, hright⟩, hl, hr⟩
    · rintro ⟨⟨bound, hfind, hidentity, hattributes, hleft, hright⟩, hl, hr⟩
      exact ⟨bound, hfind, hidentity, hattributes, hleft, hright, hl, hr⟩

end ProxyGraph

/-! ### What is written -/

/-- The members of all proxies of a plan are written. -/
def Written (json : JsonValue R) (plan : Plan R A) : Prop :=
  ∀ q ∈ plan.subplans, json.find q.identity = some q.toJson

/-- What the visit of a plan does: members are only added, those of the proxies of the plan, and all
of these are there in the end. -/
structure Visited (json json' : JsonValue R) (plan : Plan R A) : Prop where
  mono : ∀ key v, json.find key = some v → json'.find key = some v
  new : ∀ key v, json'.find key = some v →
    json.find key = some v ∨ ∃ q ∈ plan.subplans, key = q.identity ∧ v = q.toJson
  written : Written json' plan

variable {whole plan : Plan R A} {json json' : JsonValue R}

lemma Written.mono (h : Written json plan)
    (hmono : ∀ key v, json.find key = some v → json'.find key = some v) : Written json' plan :=
  fun q hq => hmono _ _ (h q hq)

/-- After the member of a proxy was added, the parts below it that are there are written. -/
lemma written_withObject {n : ℕ}
    (hinj : ∀ q ∈ whole.subplans, ∀ q' ∈ whole.subplans, q.identity = q'.identity → q = q')
    (hplan : plan ∈ whole.subplans) (hnew : json.keyExists plan.identity = false)
    (hbelow : ∀ q ∈ whole.subplans, q.size ≤ plan.size → json.keyExists q.identity → Written json q)
    (hn : n < plan.size) : ∀ q ∈ whole.subplans, q.size ≤ n →
      (json.withObject plan.identity plan.toJson).keyExists q.identity →
        Written (json.withObject plan.identity plan.toJson) q := by
  intro q hq hsize hkey
  by_cases hidentity : plan.identity = q.identity
  · -- the proxy itself is larger
    obtain rfl := hinj plan hplan q hq hidentity
    omega
  · rw [keyExists, find_withObject, if_neg hidentity] at hkey
    refine (hbelow q hq (by omega) hkey).mono fun key v hv => ?_
    rw [find_withObject, if_neg]
    · exact hv
    · rintro rfl
      rw [keyExists, hv] at hnew
      cases hnew

/-- What the visit of a part does keeps the invariant for a part that is visited next. -/
lemma Visited.written_of_keyExists {n : ℕ} (h : Visited json json' plan)
    (hinj : ∀ q ∈ whole.subplans, ∀ q' ∈ whole.subplans, q.identity = q'.identity → q = q')
    (hplan : plan ∈ whole.subplans)
    (hbelow : ∀ q ∈ whole.subplans, q.size ≤ n → json.keyExists q.identity → Written json q) :
    ∀ q ∈ whole.subplans, q.size ≤ n → json'.keyExists q.identity → Written json' q := by
  intro q hq hsize hkey
  obtain ⟨v, hv⟩ := keyExists_iff.mp hkey
  rcases h.new _ _ hv with hold | ⟨s, hs, hidentity, -⟩
  · exact (hbelow q hq hsize (keyExists_iff.mpr ⟨v, hold⟩)).mono h.mono
  · obtain rfl := hinj q hq s (Plan.subplans_subset hplan s hs) hidentity
    exact fun s' hs' => h.written s' (Plan.subplans_subset hs s' hs')

/-- A plan that was visited before is left as it is. -/
lemma Visited.refl (h : Written json plan) : Visited json json plan :=
  ⟨fun _ _ hv => hv, fun _ _ hv => .inl hv, h⟩

/-- Adding the member of a proxy only adds it. -/
lemma find_withObject_iff (hnew : json.keyExists plan.identity = false) (key : Bytes)
    (v : JsonValue R) : (json.withObject plan.identity plan.toJson).find key = some v ↔
      json.find key = some v ∨ key = plan.identity ∧ v = plan.toJson := by
  rw [find_withObject]
  by_cases hkey : plan.identity = key
  · subst hkey
    have hnone : json.find plan.identity = none := by
      rw [keyExists] at hnew
      exact Option.isNone_iff_eq_none.mp (by rw [← Option.not_isSome, hnew]; rfl)
    simp [hnone, eq_comm]
  · rw [if_neg hkey]
    exact ⟨.inl, fun h => h.resolve_right fun h => hkey h.1.symm⟩

/-- The visit of a plan writes its members, if those that are there already are written together
with all that are below them. -/
lemma visited_serializeOperatorProxiesRecursively
    (hinj : ∀ q ∈ whole.subplans, ∀ q' ∈ whole.subplans, q.identity = q'.identity → q = q')
    (hplan : plan ∈ whole.subplans)
    (hbelow : ∀ q ∈ whole.subplans, q.size ≤ plan.size → json.keyExists q.identity →
      Written json q) :
    Visited json (serializeOperatorProxiesRecursively plan json) plan := by
  induction plan generalizing json with
  | source proxy =>
    rw [serializeOperatorProxiesRecursively]
    by_cases hkey : json.keyExists proxy.identity
    · rw [if_pos hkey]
      exact .refl (hbelow _ hplan le_rfl hkey)
    · rw [if_neg hkey]
      have hnew : json.keyExists (Plan.source proxy).identity = false := Bool.eq_false_iff.mpr hkey
      have hfind := find_withObject_iff hnew
      refine ⟨fun key v hv => (hfind key v).mpr (.inl hv), fun key v hv => ?_, fun q hq => ?_⟩
      · exact ((hfind key v).mp hv).imp_right fun h => ⟨_, Plan.mem_subplans_self _, h⟩
      · obtain rfl := List.mem_singleton.mp hq
        exact (hfind _ _).mpr (.inr ⟨rfl, rfl⟩)
  | unary proxy l ih =>
    rw [serializeOperatorProxiesRecursively]
    by_cases hkey : json.keyExists proxy.identity
    · rw [if_pos hkey]
      exact .refl (hbelow _ hplan le_rfl hkey)
    · rw [if_neg hkey]
      have hnew : json.keyExists (Plan.unary proxy l).identity = false := Bool.eq_false_iff.mpr hkey
      have hfind := find_withObject_iff hnew
      have hl : l ∈ whole.subplans :=
        Plan.subplans_subset hplan l (Plan.leftInput_mem_subplans rfl)
      have hvisited := ih hl
        (written_withObject hinj hplan hnew hbelow (by rw [Plan.size]; omega))
      refine ⟨fun key v hv => hvisited.mono _ _ ((hfind key v).mpr (.inl hv)), fun key v hv => ?_,
        fun q hq => ?_⟩
      · rcases hvisited.new key v hv with hold | ⟨q, hq, h⟩
        · exact ((hfind key v).mp hold).imp_right fun h => ⟨_, Plan.mem_subplans_self _, h⟩
        · exact .inr ⟨q, List.mem_cons_of_mem _ hq, h⟩
      · rcases List.mem_cons.mp hq with rfl | hq
        · exact hvisited.mono _ _ ((hfind _ _).mpr (.inr ⟨rfl, rfl⟩))
        · exact hvisited.written q hq
  | binary proxy l r ihl ihr =>
    rw [serializeOperatorProxiesRecursively]
    by_cases hkey : json.keyExists proxy.identity
    · rw [if_pos hkey]
      exact .refl (hbelow _ hplan le_rfl hkey)
    · rw [if_neg hkey]
      have hnew : json.keyExists (Plan.binary proxy l r).identity = false :=
        Bool.eq_false_iff.mpr hkey
      have hfind := find_withObject_iff hnew
      have hl : l ∈ whole.subplans :=
        Plan.subplans_subset hplan l (Plan.leftInput_mem_subplans rfl)
      have hr : r ∈ whole.subplans :=
        Plan.subplans_subset hplan r (Plan.rightInput_mem_subplans rfl)
      have hleft := ihl hl (written_withObject hinj hplan hnew hbelow (by rw [Plan.size]; omega))
      have hright := ihr hr <| hleft.written_of_keyExists hinj hl
        (written_withObject hinj hplan hnew hbelow (by rw [Plan.size]; omega))
      refine ⟨fun key v hv => hright.mono _ _ (hleft.mono _ _ ((hfind key v).mpr (.inl hv))),
        fun key v hv => ?_, fun q hq => ?_⟩
      · rcases hright.new key v hv with hv | ⟨q, hq, h⟩
        · rcases hleft.new key v hv with hold | ⟨q, hq, h⟩
          · exact ((hfind key v).mp hold).imp_right fun h => ⟨_, Plan.mem_subplans_self _, h⟩
          · exact .inr ⟨q, List.mem_cons_of_mem _ (List.mem_append_left _ hq), h⟩
        · exact .inr ⟨q, List.mem_cons_of_mem _ (List.mem_append_right _ hq), h⟩
      · rcases List.mem_cons.mp hq with rfl | hq
        · exact hright.mono _ _ (hleft.mono _ _ ((hfind _ _).mpr (.inr ⟨rfl, rfl⟩)))
        · rcases List.mem_append.mp hq with hq | hq
          · exact hright.mono _ _ (hleft.written q hq)
          · exact hright.written q hq

/-- Exactly the members of the proxies of a plan are written. -/
lemma find_serializeOperatorProxiesRecursively
    (hinj : ∀ q ∈ plan.subplans, ∀ q' ∈ plan.subplans, q.identity = q'.identity → q = q')
    {key : Bytes} {v : JsonValue R} :
    (serializeOperatorProxiesRecursively plan JsonValue.empty).find key = some v ↔
      ∃ q ∈ plan.subplans, key = q.identity ∧ v = q.toJson := by
  have hvisited : Visited JsonValue.empty _ plan := visited_serializeOperatorProxiesRecursively hinj
    plan.mem_subplans_self fun q _ _ hkey => by cases hkey
  constructor
  · intro h
    exact (hvisited.new key v h).resolve_left fun h => by cases h
  · rintro ⟨q, hq, rfl, rfl⟩
    exact hvisited.written q hq

/-! ### The round trip -/

section RoundTrip

variable [FloatingPoint R] {createArrowExpression : Expression R → Except Exception A}

omit [FloatingPoint R] in
/-- A member that may be missing is read as a text that is empty then. -/
lemma getString_of_find {json : JsonValue R} {key : Bytes} {s : Option Bytes}
    (h : json.find key = s.map .string) :
    (if json.keyExists key then json.getString key else []) = s.getD [] := by
  cases s with
  | none => simp [keyExists, h]
  | some s => simp [keyExists, getString, getObject, asString, h]

omit [FloatingPoint R] in
/-- What is set from the object of a proxy. -/
lemma setAttributesFromJson_toJson {q : Plan R A} {attributes : ProxyAttributes R A} :
    setAttributesFromJson q.toJson attributes =
      .ok ⟨{ q.proxy with attributes }, (q.leftInput.map Plan.identity).getD [],
        (q.rightInput.map Plan.identity).getD []⟩ := by
  have hfind : ∀ key ∈ ProxyAttributes.baseKeys, q.toJson.find key = q.abstractToJson.find key :=
    fun _ hkey => ProxyAttributes.find_toJson q.proxy.attributes hkey
  have hidentity : q.toJson.find "operator_identity" = some (.string q.identity) := by
    rw [hfind _ (by simp [ProxyAttributes.baseKeys])]
    simp [Plan.abstractToJson]
  have hleft : q.toJson.find "left_input_operator_identity" =
      (q.leftInput.map Plan.identity).map .string := by
    rw [hfind _ (by simp [ProxyAttributes.baseKeys])]
    simp [Plan.abstractToJson, Function.comp_def]
  have hright : q.toJson.find "right_input_operator_identity" =
      (q.rightInput.map Plan.identity).map .string := by
    rw [hfind _ (by simp [ProxyAttributes.baseKeys])]
    simp [Plan.abstractToJson, Function.comp_def]
  have hcomment : q.toJson.find "comment" =
      (if q.proxy.comment = [] then none else some q.proxy.comment).map .string := by
    rw [hfind _ (by simp [ProxyAttributes.baseKeys])]
    split <;> simp [Plan.abstractToJson, *]
  have hempty : (if q.proxy.comment = [] then none else some q.proxy.comment).getD [] =
      q.proxy.comment := by
    split
    · next h => exact h.symm
    · rfl
  rw [setAttributesFromJson, getString_of_find hleft, getString_of_find hright,
    getString_of_find hcomment, hempty]
  simp [keyExists, getString, getObject, asString, hidentity, Plan.identity, bind, Except.bind,
    pure, Except.pure]

/-- What is read of the object of a proxy. -/
lemma deserializeOperatorProxy_toJson {q : Plan R A} (hq : q.proxy.attributes.Constructible) :
    deserializeOperatorProxy createArrowExpression q.toJson =
      (q.proxy.attributes.decoded createArrowExpression).map fun attributes =>
        ⟨{ q.proxy with attributes }, (q.leftInput.map Plan.identity).getD [],
          (q.rightInput.map Plan.identity).getD []⟩ := by
  have htype : q.toJson.getString "operator_type" =
      (enumName q.proxy.attributes.operatorType : Bytes) := by
    rw [getString, getObject, Plan.toJson,
      ProxyAttributes.find_toJson _ (by simp [ProxyAttributes.baseKeys])]
    simp [Plan.abstractToJson, asString]
  have hread : ProxyAttributes.fromJson createArrowExpression q.toJson
      q.proxy.attributes.operatorType = q.proxy.attributes.decoded createArrowExpression :=
    ProxyAttributes.fromJson_toJson hq (by simp [Plan.abstractToJson])
      q.mem_baseKeys_of_find_abstractToJson
  rw [deserializeOperatorProxy, htype, enumCast_enumName]
  cases h : q.proxy.attributes.decoded createArrowExpression with
  | error exception => simp [hread, h, bind, Except.bind, Except.map]
  | ok attributes => simp [hread, h, bind, Except.bind, Except.map, setAttributesFromJson_toJson]

/-- What is read of the text of a plan. -/
lemma deserializePqp_serializePqp_eq_ok_iff {plan : Plan R A} {graph : ProxyGraph R A} :
    deserializePqp createArrowExpression (serializePqp plan) = .ok graph ↔
      ∃ unbound, mapProxies (deserializeOperatorProxy createArrowExpression)
          (serializeOperatorProxiesRecursively plan JsonValue.empty).getAllObjects = .ok unbound ∧
        mapProxies (bindInputs unbound) unbound = .ok graph.proxies ∧ graph.root = plan.identity := by
  have hroot : (serializePqp plan).keyExists "root_operator_identity" := by
    simp [serializePqp, keyExists]
  have hoperators : (serializePqp plan).keyExists "operators" := by
    simp [serializePqp, keyExists]
  have hidentity : (serializePqp plan).getString "root_operator_identity" = plan.identity := by
    simp [serializePqp, getString, getObject, asString]
  have hobject : (serializePqp plan).getObject "operators" =
      serializeOperatorProxiesRecursively plan JsonValue.empty := by
    simp [serializePqp, getObject]
  rw [deserializePqp, hroot, hoperators, hidentity, hobject]
  obtain ⟨proxies, root⟩ := graph
  cases hunbound : mapProxies (deserializeOperatorProxy createArrowExpression)
      (serializeOperatorProxiesRecursively plan JsonValue.empty).getAllObjects with
  | error exception => simp [bind, Except.bind]
  | ok unbound =>
    cases hbind : mapProxies (bindInputs unbound) unbound with
    | error exception => simp [bind, Except.bind, hbind]
    | ok bound => simp [bind, Except.bind, hbind, pure, Except.pure, eq_comm]

omit [FloatingPoint R] in
/-- The inputs of a proxy are bound if there are proxies with their identities. -/
lemma bindInputs_eq_ok {unbound : List (Bytes × UnboundProxy R A)} {q : Plan R A}
    {proxy : OperatorProxy R A}
    (hleft : ∀ l ∈ q.leftInput, l.identity ≠ [] ∧ (findProxy unbound l.identity).isSome)
    (hright : ∀ r ∈ q.rightInput, r.identity ≠ [] ∧ (findProxy unbound r.identity).isSome) :
    bindInputs unbound ⟨proxy, (q.leftInput.map Plan.identity).getD [],
      (q.rightInput.map Plan.identity).getD []⟩ =
        .ok ⟨proxy, q.leftInput.map Plan.identity, q.rightInput.map Plan.identity⟩ := by
  cases q with
  | source _ => simp [bindInputs, Plan.leftInput, Plan.rightInput, bind, Except.bind, pure,
      Except.pure]
  | unary _ l =>
    obtain ⟨hne, hfind⟩ := hleft l rfl
    simp [bindInputs, Plan.leftInput, Plan.rightInput, hne, hfind, bind, Except.bind, pure,
      Except.pure]
  | binary _ l r =>
    obtain ⟨hne, hfind⟩ := hleft l rfl
    obtain ⟨hne', hfind'⟩ := hright r rfl
    simp [bindInputs, Plan.leftInput, Plan.rightInput, hne, hfind, hne', hfind', bind, Except.bind,
      pure, Except.pure]

/-- The member of a proxy is found. -/
lemma findProxy_serialize {plan q : Plan R A} (hplan : plan.WellFormed) (hq : q ∈ plan.subplans) :
    findProxy (serializeOperatorProxiesRecursively plan JsonValue.empty).getAllObjects q.identity =
      some q.toJson := by
  rw [findProxy_getAllObjects, find_serializeOperatorProxiesRecursively hplan.eq_of_identity_eq]
  exact ⟨q, hq, rfl, rfl⟩

/-- If a plan is read back, then so are its proxies, and their inputs are bound. -/
lemma findProxy_of_deserializePqp {plan : Plan R A} (hplan : plan.WellFormed)
    {graph : ProxyGraph R A}
    (hread : deserializePqp createArrowExpression (serializePqp plan) = .ok graph) {q : Plan R A}
    (hq : q ∈ plan.subplans) :
    ∃ attributes, q.proxy.attributes.decoded createArrowExpression = .ok attributes ∧
      findProxy graph.proxies q.identity = some ⟨{ q.proxy with attributes },
        q.leftInput.map Plan.identity, q.rightInput.map Plan.identity⟩ := by
  obtain ⟨unbound, hunbound, hbind, -⟩ := deserializePqp_serializePqp_eq_ok_iff.mp hread
  -- the members of all proxies were read
  have hfind : ∀ q ∈ plan.subplans, ∃ attributes,
      q.proxy.attributes.decoded createArrowExpression = .ok attributes ∧
        findProxy unbound q.identity = some ⟨{ q.proxy with attributes },
          (q.leftInput.map Plan.identity).getD [], (q.rightInput.map Plan.identity).getD []⟩ := by
    intro q hq
    have hu := findProxy_of_mapProxies hunbound q.identity
    rw [findProxy_serialize hplan hq] at hu
    cases hunboundFind : findProxy unbound q.identity with
    | none =>
      rw [hunboundFind] at hu
      cases hu
    | some u =>
      rw [hunboundFind] at hu
      rcases hu with ⟨hu⟩
      rw [deserializeOperatorProxy_toJson (hplan.constructible q hq)] at hu
      cases hattr : q.proxy.attributes.decoded createArrowExpression with
      | error exception =>
        rw [hattr] at hu
        cases hu
      | ok attributes =>
        rw [hattr] at hu
        exact ⟨attributes, rfl, congrArg some (Except.ok.inj hu).symm⟩
  have hinput : ∀ q ∈ plan.subplans, q.identity ≠ [] ∧ (findProxy unbound q.identity).isSome := by
    intro q hq
    obtain ⟨attributes, -, hu⟩ := hfind q hq
    exact ⟨hplan.identity_ne q hq, by rw [hu]; rfl⟩
  obtain ⟨attributes, hattr, hu⟩ := hfind q hq
  refine ⟨attributes, hattr, findProxy_eq_some_of_mapProxies hbind hu ?_⟩
  refine bindInputs_eq_ok (fun l hl => ?_) fun r hr => ?_
  · exact hinput l (Plan.subplans_subset hq l (Plan.leftInput_mem_subplans hl))
  · exact hinput r (Plan.subplans_subset hq r (Plan.rightInput_mem_subplans hr))

/-- If all proxies are read back, then so is the plan. -/
lemma exists_deserializePqp_eq_ok {plan : Plan R A} (hplan : plan.WellFormed)
    (hread : ∀ q ∈ plan.subplans, ∃ attributes,
      q.proxy.attributes.decoded createArrowExpression = .ok attributes) :
    ∃ graph, deserializePqp createArrowExpression (serializePqp plan) = .ok graph ∧
      graph.root = plan.identity := by
  obtain ⟨unbound, hunbound⟩ := exists_mapProxies_eq_ok
    (f := deserializeOperatorProxy createArrowExpression)
    (serializeOperatorProxiesRecursively plan JsonValue.empty).getAllObjects <| by
      rintro ⟨key, v⟩ hmem
      obtain ⟨q, hq, -, rfl⟩ := (find_serializeOperatorProxiesRecursively
        hplan.eq_of_identity_eq).mp (mem_getAllObjects.mp hmem)
      obtain ⟨attributes, hattr⟩ := hread q hq
      exact ⟨_, by rw [deserializeOperatorProxy_toJson (hplan.constructible q hq), hattr,
        Except.map]⟩
  have hfind : ∀ q ∈ plan.subplans, q.identity ≠ [] ∧ (findProxy unbound q.identity).isSome := by
    intro q hq
    obtain ⟨attributes, hattr⟩ := hread q hq
    have hu := findProxy_eq_some_of_mapProxies hunbound (findProxy_serialize hplan hq)
      (by rw [deserializeOperatorProxy_toJson (hplan.constructible q hq), hattr, Except.map])
    exact ⟨hplan.identity_ne q hq, by rw [hu]; rfl⟩
  obtain ⟨proxies, hproxies⟩ := exists_mapProxies_eq_ok (f := bindInputs unbound) unbound <| by
    intro entry' hentry'
    obtain ⟨⟨key, v⟩, hmem, hu⟩ := exists_mem_of_mapProxies hunbound hentry'
    obtain ⟨q, hq, -, rfl⟩ := (find_serializeOperatorProxiesRecursively
      hplan.eq_of_identity_eq).mp (mem_getAllObjects.mp hmem)
    obtain ⟨attributes, hattr⟩ := hread q hq
    rw [deserializeOperatorProxy_toJson (hplan.constructible q hq), hattr, Except.map] at hu
    rw [← Except.ok.inj hu]
    refine ⟨_, bindInputs_eq_ok (fun l hl => ?_) fun r hr => ?_⟩
    · exact hfind l (Plan.subplans_subset hq l (Plan.leftInput_mem_subplans hl))
    · exact hfind r (Plan.subplans_subset hq r (Plan.rightInput_mem_subplans hr))
  exact ⟨⟨proxies, plan.identity⟩, deserializePqp_serializePqp_eq_ok_iff.mpr
    ⟨unbound, hunbound, hproxies, rfl⟩, rfl⟩

/-- If a plan is read back, then the attributes of its proxies are transferable. -/
lemma transferable_of_represents {plan : Plan R A} (hplan : plan.WellFormed) {graph : ProxyGraph R A}
    (hread : deserializePqp createArrowExpression (serializePqp plan) = .ok graph)
    (hrepresents : graph.Represents plan) {q : Plan R A} (hq : q ∈ plan.subplans) :
    q.proxy.attributes.Transferable createArrowExpression := by
  obtain ⟨bound, hbound, -, hattributes, -, -⟩ := ProxyGraph.represents_iff.mp hrepresents q hq
  obtain ⟨attributes, hattr, hfind⟩ := findProxy_of_deserializePqp hplan hread hq
  rw [hbound] at hfind
  rw [Option.some.inj hfind] at hattributes
  exact (ProxyAttributes.decoded_determining_iff (hplan.constructible q hq)).mp
    ⟨attributes, hattr, hattributes⟩

/-- If the attributes of all proxies are transferable, then the plan is read back. -/
lemma exists_represents {plan : Plan R A} (hplan : plan.WellFormed)
    (htransferable : ∀ q ∈ plan.subplans,
      q.proxy.attributes.Transferable createArrowExpression) :
    ∃ graph, deserializePqp createArrowExpression (serializePqp plan) = .ok graph ∧
      graph.root = plan.identity ∧ graph.Represents plan := by
  have hdecoded : ∀ q ∈ plan.subplans, ∃ attributes,
      q.proxy.attributes.decoded createArrowExpression = .ok attributes ∧
        attributes.determining = q.proxy.attributes.determining := fun q hq =>
    (ProxyAttributes.decoded_determining_iff (hplan.constructible q hq)).mpr (htransferable q hq)
  obtain ⟨graph, hread, hroot⟩ := exists_deserializePqp_eq_ok hplan fun q hq => by
    obtain ⟨attributes, hattr, -⟩ := hdecoded q hq
    exact ⟨attributes, hattr⟩
  refine ⟨graph, hread, hroot, ProxyGraph.represents_iff.mpr fun q hq => ?_⟩
  obtain ⟨attributes, hattr, hdetermining⟩ := hdecoded q hq
  obtain ⟨attributes', hattr', hfind⟩ := findProxy_of_deserializePqp hplan hread hq
  rw [hattr] at hattr'
  rw [← Except.ok.inj hattr'] at hfind
  exact ⟨_, hfind, rfl, hdetermining, rfl, rfl⟩

/-- The proxy that is read back of a proxy that can be read back. -/
def OperatorProxy.decoded (createArrowExpression : Expression R → Except Exception A)
    (proxy : OperatorProxy R A) : OperatorProxy R A :=
  match proxy.attributes.decoded createArrowExpression with
  | .ok attributes => { proxy with attributes }
  | .error _ => proxy

@[simp] lemma OperatorProxy.identity_decoded (proxy : OperatorProxy R A) :
    (proxy.decoded createArrowExpression).identity = proxy.identity := by
  rw [decoded]
  split <;> rfl

omit [FloatingPoint R] in
/-- The plans that a map of proxies holds are determined by their identities. -/
lemma eq_map_of_findProxy {proxies : List (Bytes × BoundProxy R A)}
    {g : OperatorProxy R A → OperatorProxy R A} {plan plan' : Plan R A}
    (hfind : ∀ q ∈ plan.subplans, findProxy proxies q.identity =
      some ⟨g q.proxy, q.leftInput.map Plan.identity, q.rightInput.map Plan.identity⟩)
    (hfind' : ∀ q ∈ plan'.subplans, findProxy proxies q.identity =
      some ⟨q.proxy, q.leftInput.map Plan.identity, q.rightInput.map Plan.identity⟩)
    (hidentity : plan'.identity = plan.identity) : plan' = plan.map g := by
  induction plan generalizing plan' with
  | source proxy =>
    have hnode := hfind _ (Plan.mem_subplans_self _)
    rw [← hidentity, hfind' plan' plan'.mem_subplans_self] at hnode
    obtain ⟨hproxy, hleft, hright⟩ := BoundProxy.mk.inj (Option.some.inj hnode)
    cases plan' with
    | source proxy' => exact congrArg Plan.source hproxy
    | unary proxy' l' => cases hleft
    | binary proxy' l' r' => cases hleft
  | unary proxy l ih =>
    have hnode := hfind _ (Plan.mem_subplans_self _)
    rw [← hidentity, hfind' plan' plan'.mem_subplans_self] at hnode
    obtain ⟨hproxy, hleft, hright⟩ := BoundProxy.mk.inj (Option.some.inj hnode)
    rw [Plan.subplans, List.forall_mem_cons] at hfind
    cases plan' with
    | source proxy' => cases hleft
    | unary proxy' l' =>
      rw [Plan.subplans, List.forall_mem_cons] at hfind'
      exact congrArg₂ Plan.unary hproxy (ih hfind.2 hfind'.2 (Option.some.inj hleft))
    | binary proxy' l' r' => cases hright
  | binary proxy l r ihl ihr =>
    have hnode := hfind _ (Plan.mem_subplans_self _)
    rw [← hidentity, hfind' plan' plan'.mem_subplans_self] at hnode
    obtain ⟨hproxy, hleft, hright⟩ := BoundProxy.mk.inj (Option.some.inj hnode)
    rw [Plan.subplans, List.forall_mem_cons, List.forall_mem_append] at hfind
    cases plan' with
    | source proxy' => cases hleft
    | unary proxy' l' => cases hright
    | binary proxy' l' r' =>
      rw [Plan.subplans, List.forall_mem_cons, List.forall_mem_append] at hfind'
      obtain rfl := ihl hfind.2.1 hfind'.2.1 (Option.some.inj hleft)
      obtain rfl := ihr hfind.2.2 hfind'.2.2 (Option.some.inj hright)
      exact congrArg (Plan.binary · _ _) hproxy

/-- The plan that is read back has the proxies that are read back. -/
lemma isPlan_iff {plan plan' : Plan R A} (hplan : plan.WellFormed) {graph : ProxyGraph R A}
    (hread : deserializePqp createArrowExpression (serializePqp plan) = .ok graph) :
    graph.IsPlan plan' ↔ plan' = plan.map (OperatorProxy.decoded createArrowExpression) := by
  have hfind : ∀ q ∈ plan.subplans, findProxy graph.proxies q.identity =
      some ⟨q.proxy.decoded createArrowExpression, q.leftInput.map Plan.identity,
        q.rightInput.map Plan.identity⟩ := by
    intro q hq
    obtain ⟨attributes, hattr, hfind⟩ := findProxy_of_deserializePqp hplan hread hq
    rw [hfind, OperatorProxy.decoded, hattr]
  obtain ⟨-, -, -, hroot⟩ := deserializePqp_serializePqp_eq_ok_iff.mp hread
  constructor
  · rintro ⟨hroot', hplan'⟩
    exact eq_map_of_findProxy hfind hplan' (hroot'.symm.trans hroot)
  · rintro rfl
    have hidentity : ∀ p : Plan R A,
        (p.map (OperatorProxy.decoded createArrowExpression)).identity = p.identity := fun p => by
      rw [Plan.identity_map, OperatorProxy.identity_decoded, Plan.identity]
    refine ⟨by rw [hroot, hidentity], fun q hq => ?_⟩
    rw [Plan.subplans_map] at hq
    obtain ⟨p, hp, rfl⟩ := List.mem_map.mp hq
    rw [hidentity, hfind p hp, Plan.proxy_map, Plan.leftInput_map, Plan.rightInput_map,
      Option.map_map, Option.map_map]
    simp only [Function.comp_def, hidentity]

/-- **A plan is read back** from its text, with the same shape, the same sharing, and at every node
the same type, identity and attributes that determine the execution, if and only if the attributes
of all its proxies are transferable. -/
theorem deserializePqp_represents_iff {plan : Plan R A} (hplan : plan.WellFormed) :
    (∃ graph, deserializePqp createArrowExpression (serializePqp plan) = .ok graph ∧
      graph.root = plan.identity ∧ graph.Represents plan) ↔
        ∀ q ∈ plan.subplans, q.proxy.attributes.Transferable createArrowExpression :=
  ⟨fun ⟨_, hread, _, hrepresents⟩ _ hq => transferable_of_represents hplan hread hrepresents hq,
    exists_represents hplan⟩

end RoundTrip

/-- An import of the first column of an object. -/
def importProxy (partitions : Option (List Int32)) : OperatorProxy ℚ Unit where
  identity := "import"
  attributes := .import {
    objectReferences := [{ bucketName := "bucket", identifier := "object.parquet", partitions }]
    columnIds := [0] }

lemma constructible_importProxy (partitions : Option (List Int32)) :
    (importProxy partitions).attributes.Constructible := by
  refine ⟨List.cons_ne_nil _ _, fun r hr => ?_, fun _ h => nomatch h⟩
  obtain rfl := List.mem_singleton.mp hr
  exact ⟨(by decide : ofString "bucket" ≠ []), (by decide : ofString "object.parquet" ≠ [])⟩

/-- A join of an import with itself. -/
def selfJoin : Plan ℚ Unit :=
  .binary { identity := "join", attributes := .join ⟨.inner, some ⟨0, 0, .equals⟩, [], .hashJoin⟩ }
    (.source (importProxy none)) (.source (importProxy none))

lemma wellFormed_selfJoin : selfJoin.WellFormed := by
  have hsubplans : ∀ q, q ∈ selfJoin.subplans ↔ q = selfJoin ∨ q = .source (importProxy none) := by
    intro q
    simp [selfJoin, Plan.subplans]
  refine ⟨fun q hq q' hq' h => ?_, fun q hq => ?_, fun q hq => ?_⟩
  · rcases (hsubplans q).mp hq with rfl | rfl <;> rcases (hsubplans q').mp hq' with rfl | rfl
    · rfl
    · exact absurd h (by decide)
    · exact absurd h (by decide)
    · rfl
  · rcases (hsubplans q).mp hq with rfl | rfl <;> decide
  · rcases (hsubplans q).mp hq with rfl | rfl
    · refine ⟨fun predicate h => ?_, fun _ h => by cases h⟩
      obtain rfl := Option.some.inj h
      exact ⟨by decide, by decide⟩
    · exact constructible_importProxy none

/-- A join of an import with itself is read back, with one import. -/
theorem deserializePqp_represents_selfJoin :
    ∃ graph, deserializePqp (fun _ => .error .undefinedBehavior) (serializePqp selfJoin) = .ok graph ∧
      graph.root = selfJoin.identity ∧ graph.Represents selfJoin := by
  refine (deserializePqp_represents_iff wellFormed_selfJoin).mpr fun q hq => ?_
  rcases (by simpa [selfJoin, Plan.subplans] using hq :
    q = selfJoin ∨ q = .source (importProxy none)) with rfl | rfl
  · exact trivial
  · refine ⟨fun r hr => ?_, rfl, fun _ h => by cases h⟩
    obtain rfl := List.mem_singleton.mp hr
    rfl

/-- The partitions of an object that is to be imported are not read back. -/
theorem not_deserializePqp_represents :
    (Plan.source (importProxy (some [0]))).WellFormed ∧
    ¬ ∃ graph, deserializePqp (fun _ => .error .undefinedBehavior)
        (serializePqp (.source (importProxy (some [0])))) = .ok graph ∧
      graph.root = "import" ∧ graph.Represents (.source (importProxy (some [0]))) := by
  have hwellFormed : (Plan.source (importProxy (some [0]))).WellFormed := by
    refine ⟨fun q hq q' hq' _ => ?_, fun q hq => ?_, fun q hq => ?_⟩ <;>
      obtain rfl := List.mem_singleton.mp hq
    · exact (List.mem_singleton.mp hq').symm
    · decide
    · exact constructible_importProxy (some [0])
  refine ⟨hwellFormed, ?_⟩
  rintro ⟨graph, hread, -, hrepresents⟩
  have htransferable := transferable_of_represents hwellFormed hread hrepresents
    (Plan.mem_subplans_self _)
  exact absurd (htransferable.partitions _ List.mem_cons_self) (by simp)

end Skyrise

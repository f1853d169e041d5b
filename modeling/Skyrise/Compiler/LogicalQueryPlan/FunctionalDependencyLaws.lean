/-
The laws of functional dependencies.

Two dependencies with one dependent each are equal for `operator==` if their determinants
are the same and their dependents are not.  So an inflated set keeps, for every set of
determinants, only the facts with the dependent that comes first.
-/
import Skyrise.Compiler.LogicalQueryPlan.FunctionalDependency

namespace Skyrise

variable {E : Type} [DecidableEq E]

namespace FunctionalDependency

variable {x y : FunctionalDependency E} {xs a b : List (FunctionalDependency E)}
  {expressionHash : E → UInt64} {D : Finset E} {e e' : E} {fact : Finset E × E}
  {fs : List (Finset E × E)}

/-! ### The dependent that comes first -/

/-- The first dependent of some determinants in a list of facts. -/
def firstDependent (fs : List (Finset E × E)) (D : Finset E) : Option E :=
  (fs.find? fun fact => fact.1 = D).map Prod.snd

lemma mem_of_firstDependent (h : firstDependent fs D = some e) : (D, e) ∈ fs := by
  obtain ⟨fact, hfind, rfl⟩ := Option.map_eq_some_iff.mp h
  have hD := List.find?_some hfind
  rw [decide_eq_true_eq] at hD
  rw [← hD]
  exact List.mem_of_find?_eq_some hfind

lemma exists_firstDependent (h : (D, e) ∈ fs) : ∃ e', firstDependent fs D = some e' := by
  rw [firstDependent]
  cases hfind : fs.find? fun fact => fact.1 = D with
  | none => exact absurd (List.find?_eq_none.mp hfind _ h) (by simp)
  | some fact => exact ⟨fact.2, rfl⟩

lemma firstDependent_concat : firstDependent (fs ++ [fact]) D =
    (firstDependent fs D).or (if fact.1 = D then some fact.2 else none) := by
  rw [firstDependent, firstDependent, List.find?_append]
  cases fs.find? fun fact => fact.1 = D with
  | none =>
    by_cases hD : fact.1 = D <;> simp [hD]
  | some fact => rfl

/-- The facts whose dependents come first. -/
def firstFacts (fs : List (Finset E × E)) : List (Finset E × E) :=
  fs.filter fun fact => firstDependent fs fact.1 = some fact.2

lemma mem_firstFacts : fact ∈ firstFacts fs ↔ firstDependent fs fact.1 = some fact.2 := by
  rw [firstFacts, List.mem_filter, decide_eq_true_eq]
  exact and_iff_right_of_imp mem_of_firstDependent

/-- A fact that comes last belongs to them unless another one with its determinants does. -/
lemma firstFacts_concat : firstFacts (fs ++ [fact]) =
    if ∃ fact' ∈ firstFacts fs, fact'.1 = fact.1 ∧ fact'.2 ≠ fact.2 then firstFacts fs
    else firstFacts fs ++ [fact] := by
  have hold : fs.filter (fun f => firstDependent (fs ++ [fact]) f.1 = some f.2) = firstFacts fs := by
    refine List.filter_congr fun f hf => ?_
    obtain ⟨e', he'⟩ := exists_firstDependent hf
    rw [firstDependent_concat, he']
    rfl
  rw [firstFacts, List.filter_append, hold]
  cases hfirst : firstDependent fs fact.1 with
  | none =>
    rw [if_neg]
    · simp [firstDependent_concat, hfirst]
    · rintro ⟨fact', hmem, hD, -⟩
      rw [mem_firstFacts, hD, hfirst] at hmem
      cases hmem
  | some e' =>
    by_cases he : e' = fact.2
    · rw [if_neg]
      · simp [firstDependent_concat, hfirst, he]
      · rintro ⟨fact', hmem, hD, hne⟩
        rw [mem_firstFacts, hD, hfirst, Option.some_inj] at hmem
        exact hne (hmem.symm.trans he)
    · rw [if_pos ⟨(fact.1, e'), mem_firstFacts.mpr hfirst, rfl, he⟩]
      simp [firstDependent_concat, hfirst, he]

/-! ### Inflating -/

/-- A dependency with one dependent. -/
def IsInflated (x : FunctionalDependency E) : Prop :=
  ∃ e, x.dependentExpressions.elements = [e]

omit [DecidableEq E] in
lemma isInflated_of_mem_inflated (h : y ∈ inflated x) : y.IsInflated := by
  rw [inflated] at h
  split at h
  · next hsize =>
    rw [List.mem_singleton.mp h]
    exact List.length_eq_one_iff.mp hsize
  · obtain ⟨e, -, rfl⟩ := List.mem_map.mp h
    exact ⟨e, rfl⟩

lemma factList_inflated (x : FunctionalDependency E) : factList (inflated x) = factList [x] := by
  rw [inflated]
  split
  · rfl
  · rw [factList, List.flatMap_map, factList, List.flatMap_singleton]
    exact List.flatMap_pure_eq_map _ _

lemma factList_flatMap_inflated (xs : List (FunctionalDependency E)) :
    factList (xs.flatMap inflated) = factList xs := by
  induction xs with
  | nil => rfl
  | cons x xs ih =>
    rw [List.flatMap_cons, factList_append, ih, factList_inflated, ← factList_append]
    rfl

lemma factList_singleton (h : x.dependentExpressions.elements = [e]) :
    factList [x] = [(x.determinants, e)] := by
  rw [factList, List.flatMap_singleton, h]
  rfl

/-- Inflated dependencies are equal if their dependents differ. -/
lemma equals_iff_of_inflated (hx : x.dependentExpressions.elements = [e])
    (hy : y.dependentExpressions.elements = [e']) :
    x.equals y = true ↔ y.determinants = x.determinants ∧ e' ≠ e := by
  have hdx : x.dependents = {e} := by simp [dependents, ExpressionSet.toFinset, hx]
  have hdy : y.dependents = {e'} := by simp [dependents, ExpressionSet.toFinset, hy]
  rw [equals_iff, hdx, hdy]
  simp [eq_comm]

/-- A set of inflated dependencies contains one if it states a fact with the same determinants and
another dependent. -/
lemma containedIn_iff_of_inflated (hxs : ∀ x ∈ xs, x.IsInflated)
    (hx : x.dependentExpressions.elements = [e]) : containedIn expressionHash xs x = true ↔
      ∃ fact ∈ factList xs, fact.1 = x.determinants ∧ fact.2 ≠ e := by
  rw [containedIn_iff]
  constructor
  · rintro ⟨y, hy, hequals⟩
    obtain ⟨e', he'⟩ := hxs y hy
    refine ⟨(y.determinants, e'), ?_, (equals_iff_of_inflated hx he').mp hequals⟩
    exact mem_factList.mpr ⟨y, hy, rfl, by simp [dependents, he']⟩
  · rintro ⟨fact, hfact, hD, hne⟩
    obtain ⟨y, hy, hyD, hdependent⟩ := mem_factList.mp hfact
    obtain ⟨e', he'⟩ := hxs y hy
    obtain rfl : fact.2 = e' := by simpa [dependents, he'] using hdependent
    exact ⟨y, hy, (equals_iff_of_inflated hx he').mpr ⟨hyD.trans hD, hne⟩⟩

/-- What a set of inflated dependencies states. -/
lemma factList_foldl_insertInto (hxs : ∀ x ∈ xs, x.IsInflated) :
    (∀ x ∈ xs.foldl (insertInto expressionHash) [], x.IsInflated) ∧
      factList (xs.foldl (insertInto expressionHash) []) = firstFacts (factList xs) := by
  induction xs using List.reverseRecOn with
  | nil => exact ⟨by simp, rfl⟩
  | append_singleton xs x ih =>
    rw [List.forall_mem_append, List.forall_mem_singleton] at hxs
    obtain ⟨hset, hfacts⟩ := ih hxs.1
    obtain ⟨e, he⟩ := hxs.2
    rw [List.foldl_concat, factList_append, factList_singleton he, firstFacts_concat, insertInto,
      ← hfacts]
    by_cases hcontained : containedIn expressionHash (xs.foldl (insertInto expressionHash) []) x = true
    · rw [if_pos hcontained, if_pos ((containedIn_iff_of_inflated hset he).mp hcontained)]
      exact ⟨hset, rfl⟩
    · rw [if_neg hcontained,
        if_neg fun h => hcontained ((containedIn_iff_of_inflated hset he).mpr h), factList_append,
        factList_singleton he]
      exact ⟨List.forall_mem_append.mpr ⟨hset, List.forall_mem_singleton.mpr hxs.2⟩, rfl⟩

lemma isInflated_inflate (h : x ∈ inflate expressionHash xs) : x.IsInflated :=
  (factList_foldl_insertInto fun _ hz => by
    obtain ⟨z, -, hz⟩ := List.mem_flatMap.mp hz
    exact isInflated_of_mem_inflated hz).1 x h

variable (expressionHash) in
/-- **What inflating states**: the facts whose dependents come first. -/
lemma mem_facts_inflate : fact ∈ facts (inflate expressionHash xs) ↔
    firstDependent (factList xs) fact.1 = some fact.2 := by
  have hinflated : ∀ x ∈ xs.flatMap inflated, x.IsInflated := by
    intro x hx
    obtain ⟨z, -, hz⟩ := List.mem_flatMap.mp hx
    exact isInflated_of_mem_inflated hz
  rw [← mem_factList, inflate, (factList_foldl_insertInto hinflated).2, factList_flatMap_inflated,
    mem_firstFacts]

/-- What the intersection states. -/
lemma mem_facts_intersect : fact ∈ facts (intersect expressionHash a b) ↔
    firstDependent (factList a) fact.1 = some fact.2 ∧
      ∃ e, firstDependent (factList b) fact.1 = some e ∧ e ≠ fact.2 := by
  rw [intersect]
  split
  · next hempty =>
    refine iff_of_false (fun h => ?_) ?_
    · obtain ⟨x, hx, -⟩ := h
      cases hx
    · rintro ⟨hfirst, e, hfirst', -⟩
      rw [Bool.or_eq_true, List.isEmpty_iff, List.isEmpty_iff] at hempty
      rcases hempty with rfl | rfl
      · cases hfirst
      · cases hfirst'
  · rw [facts_deflate, ← mem_facts_inflate expressionHash]
    constructor
    · rintro ⟨x, hx, hD, hdependent⟩
      obtain ⟨hx, hcontained⟩ := List.mem_filter.mp hx
      obtain ⟨e, he⟩ := isInflated_inflate hx
      obtain rfl : fact.2 = e := by simpa [dependents, he] using hdependent
      obtain ⟨fact', hfact', hD', hne⟩ :=
        (containedIn_iff_of_inflated (fun _ => isInflated_inflate) he).mp hcontained
      rw [mem_factList, mem_facts_inflate expressionHash, hD', hD] at hfact'
      exact ⟨⟨x, hx, hD, hdependent⟩, fact'.2, hfact', hne⟩
    · rintro ⟨⟨x, hx, hD, hdependent⟩, e', hfirst, hne⟩
      obtain ⟨e, he⟩ := isInflated_inflate hx
      obtain rfl : fact.2 = e := by simpa [dependents, he] using hdependent
      refine ⟨x, List.mem_filter.mpr ⟨hx, ?_⟩, hD, hdependent⟩
      refine (containedIn_iff_of_inflated (fun _ => isInflated_inflate) he).mpr
        ⟨(fact.1, e'), ?_, hD.symm, hne⟩
      rw [mem_factList, mem_facts_inflate expressionHash]
      exact hfirst

/-! ### The laws -/

/-- What is expected of the operations, for two dependencies and three vectors. -/
structure Laws (expressionHash : E → UInt64) (skyriseDebug : Bool) (x y : FunctionalDependency E)
    (xs a b : List (FunctionalDependency E)) : Prop where
  equals : x.equals y = true ↔ Same x y
  hash : x.equals y = true → x.hash expressionHash = y.hash expressionHash
  inflate : facts (inflate expressionHash xs) = facts xs
  deflate : facts (deflate xs) = facts xs
  union : ∃ u, union expressionHash skyriseDebug a b = .ok u ∧ facts u = facts a ∪ facts b
  intersect : facts (intersect expressionHash a b) = facts a ∩ facts b

/-- The conditions under which the operations meet that. -/
structure Conditions (skyriseDebug : Bool) (x y : FunctionalDependency E)
    (xs a b : List (FunctionalDependency E)) : Prop where
  equals : x.determinants = y.determinants → x.dependents.card = y.dependents.card →
    (Disjoint x.dependents y.dependents ↔ x.dependents = y.dependents)
  inflate : ∀ D e e', (D, e) ∈ facts xs → (D, e') ∈ facts xs → e = e'
  union : skyriseDebug = true → a.Pairwise (fun x y => ¬y.equals x = true) ∧
    b.Pairwise fun x y => ¬y.equals x = true
  intersect : ∀ D e e', firstDependent (factList a) D = some e →
    firstDependent (factList b) D = some e' →
      e ≠ e' ∧ ∀ e'', (D, e'') ∈ facts a ∩ facts b ↔ e'' = e

lemma equals_iff_same_iff : (x.equals y = true ↔ Same x y) ↔
    (x.determinants = y.determinants → x.dependents.card = y.dependents.card →
      (Disjoint x.dependents y.dependents ↔ x.dependents = y.dependents)) := by
  rw [equals_iff, Same]
  constructor
  · intro h hD hcard
    simpa only [hD, hcard, true_and] using h
  · intro h
    constructor
    · rintro ⟨hD, hcard, hdisjoint⟩
      exact ⟨hD, (h hD hcard).mp hdisjoint⟩
    · rintro ⟨hD, hsame⟩
      have hcard := congrArg Finset.card hsame
      exact ⟨hD, hcard, (h hD hcard).mpr hsame⟩

lemma facts_inflate_iff : facts (inflate expressionHash xs) = facts xs ↔
    ∀ D e e', (D, e) ∈ facts xs → (D, e') ∈ facts xs → e = e' := by
  constructor
  · intro h D e e' he he'
    rw [← h, mem_facts_inflate expressionHash] at he he'
    exact Option.some.inj (he.symm.trans he')
  · intro h
    ext ⟨D, e⟩
    rw [mem_facts_inflate expressionHash]
    constructor
    · exact fun hfirst => mem_factList.mp (mem_of_firstDependent hfirst)
    · intro he
      obtain ⟨e', hfirst⟩ := exists_firstDependent (mem_factList.mpr he)
      rw [hfirst, h D e' e (mem_factList.mp (mem_of_firstDependent hfirst)) he]

lemma facts_union_iff (skyriseDebug : Bool) :
    (∃ u, union expressionHash skyriseDebug a b = .ok u ∧ facts u = facts a ∪ facts b) ↔
      (skyriseDebug = true → a.Pairwise (fun x y => ¬y.equals x = true) ∧
        b.Pairwise fun x y => ¬y.equals x = true) := by
  have hlength : ∀ xs : List (FunctionalDependency E),
      xs.length = (xs.foldl (insertInto expressionHash) []).length ↔
        xs.Pairwise fun x y => ¬y.equals x = true := by
    intro xs
    have h : ([] : List (FunctionalDependency E)).length + xs.length =
        (xs.foldl (insertInto expressionHash) []).length ↔ _ := length_foldl_insertInto_iff []
    simpa using h
  have hunion : ∃ u, union expressionHash false a b = .ok u ∧ facts u = facts a ∪ facts b := by
    cases a with
    | nil =>
      refine ⟨b, rfl, ?_⟩
      ext fact
      simp [mem_facts]
    | cons x a =>
      cases b with
      | nil =>
        refine ⟨x :: a, rfl, ?_⟩
        ext fact
        simp [mem_facts]
      | cons y b => exact ⟨_, rfl, by rw [facts_deflate, facts_append]⟩
  cases skyriseDebug with
  | false => simpa using hunion
  | true =>
    rw [← hlength, ← hlength]
    by_cases h : a.length = (a.foldl (insertInto expressionHash) []).length ∧
        b.length = (b.foldl (insertInto expressionHash) []).length
    · have hassert : union expressionHash true a b = union expressionHash false a b := by
        rw [union, union]
        simp only [h.1.symm, h.2.symm, decide_true, Bool.and_self, assert_true]
        rfl
      exact iff_of_true (hassert ▸ hunion) fun _ => h
    · refine iff_of_false ?_ fun h' => h (h' rfl)
      rintro ⟨u, hu, -⟩
      rw [union] at hu
      have hassert : (decide (a.length = (a.foldl (insertInto expressionHash) []).length) &&
          decide (b.length = (b.foldl (insertInto expressionHash) []).length)) = false := by
        rw [Bool.and_eq_false_iff, decide_eq_false_iff_not, decide_eq_false_iff_not]
        exact not_and_or.mp h
      rw [hassert] at hu
      cases hu

lemma facts_intersect_iff : facts (intersect expressionHash a b) = facts a ∩ facts b ↔
    ∀ D e e', firstDependent (factList a) D = some e → firstDependent (factList b) D = some e' →
      e ≠ e' ∧ ∀ e'', (D, e'') ∈ facts a ∩ facts b ↔ e'' = e := by
  have hmem : ∀ {xs : List (FunctionalDependency E)} {D : Finset E} {e : E},
      firstDependent (factList xs) D = some e → (D, e) ∈ facts xs :=
    fun h => mem_factList.mp (mem_of_firstDependent h)
  constructor
  · intro h D e e' he he'
    have hiff : ∀ e'', (D, e'') ∈ facts a ∩ facts b ↔ e = e'' ∧ e' ≠ e'' := by
      intro e''
      rw [← h, mem_facts_intersect, he, he', Option.some_inj]
      simp
    have hne : e ≠ e' := by
      rintro rfl
      exact ((hiff e).mp ⟨hmem he, hmem he'⟩).2 rfl
    refine ⟨hne, fun e'' => (hiff e'').trans ⟨fun heq => heq.1.symm, ?_⟩⟩
    rintro rfl
    exact ⟨rfl, hne.symm⟩
  · intro h
    ext ⟨D, e⟩
    rw [mem_facts_intersect]
    constructor
    · rintro ⟨he, e', he', -⟩
      exact ((h D e e' he he').2 e).mpr rfl
    · intro he
      obtain ⟨e₁, he₁⟩ := exists_firstDependent (mem_factList.mpr he.1)
      obtain ⟨e₂, he₂⟩ := exists_firstDependent (mem_factList.mpr he.2)
      obtain ⟨hne, hiff⟩ := h D e₁ e₂ he₁ he₂
      obtain rfl := (hiff e).mp he
      exact ⟨he₁, e₂, he₂, hne.symm⟩

/-- The operations meet the laws if and only if the conditions hold. -/
theorem laws_iff {E : Type} [DecidableEq E] (expressionHash : E → UInt64) (skyriseDebug : Bool)
    (x y : FunctionalDependency E) (xs a b : List (FunctionalDependency E)) :
    Laws expressionHash skyriseDebug x y xs a b ↔ Conditions skyriseDebug x y xs a b := by
  constructor
  · intro h
    exact ⟨equals_iff_same_iff.mp h.equals, facts_inflate_iff.mp h.inflate,
      (facts_union_iff skyriseDebug).mp h.union, facts_intersect_iff.mp h.intersect⟩
  · intro h
    exact ⟨equals_iff_same_iff.mpr h.equals, fun hequals => hash_eq_of_determinants_eq
      (equals_iff.mp hequals).1, facts_inflate_iff.mpr h.inflate, facts_deflate xs,
      (facts_union_iff skyriseDebug).mpr h.union, facts_intersect_iff.mpr h.intersect⟩

/-- A dependency with one determinant and one dependent. -/
def ofTwo (determinant dependent : E) : FunctionalDependency E :=
  ⟨.singleton determinant, .singleton dependent⟩

/-- A dependency is not equal to itself. -/
theorem not_laws_self :
    ¬Laws (fun e : ℕ => UInt64.ofNat e) false (ofTwo 0 1) (ofTwo 0 1) [] [] [] := by
  intro h
  exact absurd (h.equals.mpr ⟨rfl, rfl⟩) (by decide)

/-- Of two dependencies with the same determinant, inflating drops the second one. -/
example : (inflate (fun e : ℕ => UInt64.ofNat e) [ofTwo 0 1, ofTwo 0 2]).length = 1 := by
  decide

/-- The intersection of a vector with itself states nothing. -/
example : (intersect (fun e : ℕ => UInt64.ofNat e) [ofTwo 0 1] [ofTwo 0 1]).length = 0 := by
  decide

end FunctionalDependency

end Skyrise

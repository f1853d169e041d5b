/-
Functional dependencies.

A functional dependency has a set of determinants and a set of dependents, sets of
expressions that are compared by the equality of expressions.  So an expression is taken
up to this equality here, and its hash is a function of it.  A vector of dependencies
states facts: a set of determinants, and one expression that depends on it.
-/
import Skyrise.Utils.Assert
import Mathlib.Data.Finset.Card
import Mathlib.Data.Finset.Dedup

namespace Skyrise

variable {E : Type} [DecidableEq E]

/-! ### The program -/

/-- An `ExpressionUnorderedSet`, with its elements in the order in which they are iterated over. -/
structure ExpressionSet (E : Type) where
  elements : List E
  nodup : elements.Nodup

namespace ExpressionSet

/-- The number of elements. -/
def size (s : ExpressionSet E) : ℕ := s.elements.length

/-- Whether an expression is an element. -/
def contains (s : ExpressionSet E) (e : E) : Bool := e ∈ s.elements

/-- A set with one element. -/
def singleton (e : E) : ExpressionSet E := ⟨[e], List.nodup_singleton e⟩

/-- An insertion, which does nothing if the element is there. -/
def insert (s : ExpressionSet E) (e : E) : ExpressionSet E :=
  if h : e ∈ s.elements then s
  else ⟨s.elements ++ [e], List.nodup_append'.mpr ⟨s.nodup, List.nodup_singleton e,
    List.disjoint_singleton.mpr h⟩⟩

/-- The elements as a finite set. -/
def toFinset (s : ExpressionSet E) : Finset E := s.elements.toFinset

@[simp] lemma mem_toFinset {s : ExpressionSet E} {e : E} : e ∈ s.toFinset ↔ e ∈ s.elements :=
  List.mem_toFinset

lemma card_toFinset (s : ExpressionSet E) : s.toFinset.card = s.size :=
  List.toFinset_card_of_nodup s.nodup

lemma mem_insert {s : ExpressionSet E} {e e' : E} :
    e ∈ (s.insert e').elements ↔ e ∈ s.elements ∨ e = e' := by
  rw [insert]
  split
  · next h => exact ⟨.inl, fun he => he.elim id fun heq => heq ▸ h⟩
  · simp

lemma mem_foldl_insert {s : ExpressionSet E} {es : List E} {e : E} :
    e ∈ (es.foldl insert s).elements ↔ e ∈ s.elements ∨ e ∈ es := by
  induction es generalizing s with
  | nil => simp
  | cons e' es ih => rw [List.foldl_cons, ih, mem_insert, List.mem_cons, or_assoc]

end ExpressionSet

/-- `FunctionalDependency`.  That the sets are not empty is asserted in debug builds only. -/
structure FunctionalDependency (E : Type) where
  determinantExpressions : ExpressionSet E
  dependentExpressions : ExpressionSet E

namespace FunctionalDependency

/-- `operator==`. -/
def equals (self other : FunctionalDependency E) : Bool :=
  if self.determinantExpressions.size ≠ other.determinantExpressions.size ||
      self.dependentExpressions.size ≠ other.dependentExpressions.size then false
  else if other.determinantExpressions.elements.any fun e =>
      !self.determinantExpressions.contains e then false
  -- `find(..) == cend()`: the expression is not found
  else other.dependentExpressions.elements.all fun e => !self.dependentExpressions.contains e

/-- `Hash`, with the hashes of the expressions. -/
def hash (expressionHash : E → UInt64) (self : FunctionalDependency E) : UInt64 :=
  self.determinantExpressions.elements.foldl (fun hash e => hash ^^^ expressionHash e) 0 -
    UInt64.ofNat self.determinantExpressions.size

/-- Whether an `unordered_set` of dependencies contains one: an element with its hash is equal to
it. -/
def containedIn (expressionHash : E → UInt64) (set : List (FunctionalDependency E))
    (x : FunctionalDependency E) : Bool :=
  set.any fun y => y.hash expressionHash = x.hash expressionHash && x.equals y

/-- An insertion into an `unordered_set` of dependencies. -/
def insertInto (expressionHash : E → UInt64) (set : List (FunctionalDependency E))
    (x : FunctionalDependency E) : List (FunctionalDependency E) :=
  if containedIn expressionHash set x then set else set ++ [x]

/-- The dependencies that a dependency is inflated to. -/
def inflated (x : FunctionalDependency E) : List (FunctionalDependency E) :=
  if x.dependentExpressions.size = 1 then [x]
  else x.dependentExpressions.elements.map fun e => ⟨x.determinantExpressions, .singleton e⟩

/-- `InflateFunctionalDependencies`.  The elements of the set are in the order of their insertion;
what follows does not depend on it. -/
def inflate (expressionHash : E → UInt64) (functionalDependencies : List (FunctionalDependency E)) :
    List (FunctionalDependency E) :=
  (functionalDependencies.flatMap inflated).foldl (insertInto expressionHash) []

/-- Whether two dependencies have the same determinants, as `DeflateFunctionalDependencies` finds
out. -/
def sameDeterminants (toAdd x : FunctionalDependency E) : Bool :=
  if x.determinantExpressions.size ≠ toAdd.determinantExpressions.size then false
  else toAdd.determinantExpressions.elements.all x.determinantExpressions.contains

/-- The loop body of `DeflateFunctionalDependencies`. -/
def deflateStep : List (FunctionalDependency E) → FunctionalDependency E →
    List (FunctionalDependency E)
  | [], toAdd => [toAdd]
  | x :: deflated, toAdd =>
    if sameDeterminants toAdd x then
      { x with dependentExpressions :=
          toAdd.dependentExpressions.elements.foldl ExpressionSet.insert x.dependentExpressions } ::
        deflated
    else x :: deflateStep deflated toAdd

/-- `DeflateFunctionalDependencies`. -/
def deflate (functionalDependencies : List (FunctionalDependency E)) :
    List (FunctionalDependency E) :=
  functionalDependencies.foldl deflateStep []

/-- `UnionFunctionalDependencies`.  Debug builds assert that the vectors have no duplicates. -/
def union (expressionHash : E → UInt64) (skyriseDebug : Bool)
    (a b : List (FunctionalDependency E)) : Except Exception (List (FunctionalDependency E)) := do
  if skyriseDebug then
    assert (a.length = (a.foldl (insertInto expressionHash) []).length &&
        b.length = (b.foldl (insertInto expressionHash) []).length)
      "Did not expect input vector to contain multiple FDs with the same determinant expressions."
  if a.isEmpty then
    return b
  if b.isEmpty then
    return a
  return deflate (a ++ b)

/-- `IntersectFunctionalDependencies`. -/
def intersect (expressionHash : E → UInt64) (a b : List (FunctionalDependency E)) :
    List (FunctionalDependency E) :=
  if a.isEmpty || b.isEmpty then []
  else deflate ((inflate expressionHash a).filter
    (containedIn expressionHash (inflate expressionHash b)))

/-! ### Facts -/

/-- The determinants as a finite set. -/
def determinants (x : FunctionalDependency E) : Finset E := x.determinantExpressions.toFinset

/-- The dependents as a finite set. -/
def dependents (x : FunctionalDependency E) : Finset E := x.dependentExpressions.toFinset

/-- The facts that a vector states, in the order in which it is iterated over. -/
def factList (functionalDependencies : List (FunctionalDependency E)) : List (Finset E × E) :=
  functionalDependencies.flatMap fun x =>
    x.dependentExpressions.elements.map fun e => (x.determinants, e)

/-- The facts that a vector states. -/
def facts (functionalDependencies : List (FunctionalDependency E)) : Set (Finset E × E) :=
  {fact | ∃ x ∈ functionalDependencies, x.determinants = fact.1 ∧ fact.2 ∈ x.dependents}

/-- Two dependencies with the same determinants and the same dependents. -/
def Same (x y : FunctionalDependency E) : Prop :=
  x.determinants = y.determinants ∧ x.dependents = y.dependents

variable {x y : FunctionalDependency E} {xs a b : List (FunctionalDependency E)}
  {expressionHash : E → UInt64}

lemma mem_factList {fact : Finset E × E} : fact ∈ factList xs ↔ fact ∈ facts xs := by
  obtain ⟨D, e⟩ := fact
  simp only [factList, facts, dependents, List.mem_flatMap, List.mem_map, Prod.mk.injEq,
    Set.mem_ofPred_eq, ExpressionSet.mem_toFinset]
  refine exists_congr fun x => and_congr_right fun _ => ⟨?_, fun ⟨hD, he⟩ => ⟨e, he, hD, rfl⟩⟩
  rintro ⟨_, he, hD, rfl⟩
  exact ⟨hD, he⟩

lemma factList_append : factList (a ++ b) = factList a ++ factList b := List.flatMap_append

/-- Sets of the same size are equal if one contains the other. -/
lemma determinants_eq_iff (hsize : x.determinantExpressions.size = y.determinantExpressions.size) :
    (∀ e ∈ y.determinantExpressions.elements, e ∈ x.determinantExpressions.elements) ↔
      x.determinants = y.determinants := by
  constructor
  · intro h
    have hsubset : y.determinants ⊆ x.determinants := fun e he =>
      ExpressionSet.mem_toFinset.mpr (h e (ExpressionSet.mem_toFinset.mp he))
    refine (Finset.eq_of_subset_of_card_le hsubset ?_).symm
    rw [determinants, determinants, ExpressionSet.card_toFinset, ExpressionSet.card_toFinset, hsize]
  · intro h e he
    exact ExpressionSet.mem_toFinset.mp (h.symm ▸ ExpressionSet.mem_toFinset.mpr he :
      e ∈ x.determinants)

lemma size_eq_of_determinants_eq (h : x.determinants = y.determinants) :
    x.determinantExpressions.size = y.determinantExpressions.size := by
  have hcard := congrArg Finset.card h
  rwa [determinants, determinants, ExpressionSet.card_toFinset, ExpressionSet.card_toFinset] at hcard

lemma sameDeterminants_iff : sameDeterminants y x = true ↔ x.determinants = y.determinants := by
  rw [sameDeterminants]
  split
  · next hne => exact iff_of_false Bool.false_ne_true fun h => hne (size_eq_of_determinants_eq h)
  · next heq =>
    rw [← determinants_eq_iff (not_not.mp heq)]
    simp [ExpressionSet.contains]

/-- **What `operator==` compares**: it holds if no dependent of one is a dependent of the other. -/
lemma equals_iff : x.equals y = true ↔ x.determinants = y.determinants ∧
    x.dependents.card = y.dependents.card ∧ Disjoint x.dependents y.dependents := by
  have hcard : ∀ z : FunctionalDependency E, z.dependents.card = z.dependentExpressions.size :=
    fun z => z.dependentExpressions.card_toFinset
  have hdisjoint : Disjoint x.dependents y.dependents ↔
      ∀ e ∈ y.dependentExpressions.elements, e ∉ x.dependentExpressions.elements := by
    rw [disjoint_comm, Finset.disjoint_left]
    simp [dependents]
  rw [equals, hcard, hcard, hdisjoint]
  by_cases hsize : x.determinantExpressions.size = y.determinantExpressions.size
  · rw [← determinants_eq_iff hsize]
    by_cases hdependents : x.dependentExpressions.size = y.dependentExpressions.size
    · simp [hsize, hdependents, ExpressionSet.contains]
    · simp [hsize, hdependents]
  · have hne : x.determinants ≠ y.determinants := fun h => hsize (size_eq_of_determinants_eq h)
    simp [hsize, hne]

/-! ### Hashes -/

/-- Dependencies with the same determinants have the same hash. -/
lemma hash_eq_of_determinants_eq (h : x.determinants = y.determinants) :
    x.hash expressionHash = y.hash expressionHash := by
  have hperm : x.determinantExpressions.elements.Perm y.determinantExpressions.elements :=
    List.perm_of_nodup_nodup_toFinset_eq x.determinantExpressions.nodup
      y.determinantExpressions.nodup h
  have hcomm : RightCommutative fun (hash : UInt64) (e : E) => hash ^^^ expressionHash e :=
    ⟨fun hash e e' => by rw [UInt64.xor_assoc, UInt64.xor_assoc, UInt64.xor_comm (expressionHash e)]⟩
  rw [hash, hash, size_eq_of_determinants_eq h, hperm.foldl_eq]

/-- So the hashes do not matter for what a set contains. -/
lemma containedIn_iff : containedIn expressionHash xs x = true ↔ ∃ y ∈ xs, x.equals y = true := by
  rw [containedIn, List.any_eq_true]
  refine exists_congr fun y => and_congr_right fun _ => ?_
  rw [Bool.and_eq_true, decide_eq_true_eq]
  exact and_iff_right_of_imp fun h => (hash_eq_of_determinants_eq (equals_iff.mp h).1).symm

/-- A set of the elements of a vector is as large as the vector if no two of them are equal. -/
lemma length_foldl_insertInto_iff (set : List (FunctionalDependency E)) :
    set.length + xs.length = (xs.foldl (insertInto expressionHash) set).length ↔
      xs.Pairwise (fun x y => ¬y.equals x = true) ∧ ∀ x ∈ xs, ∀ y ∈ set, ¬x.equals y = true := by
  have hle : ∀ (xs set : List (FunctionalDependency E)),
      (xs.foldl (insertInto expressionHash) set).length ≤ set.length + xs.length := by
    intro xs
    induction xs with
    | nil => exact fun _ => le_rfl
    | cons x xs ih =>
      intro set
      have hstep : (insertInto expressionHash set x).length ≤ set.length + 1 := by
        rw [insertInto]
        split <;> simp
      have hrest := ih (insertInto expressionHash set x)
      rw [List.foldl_cons, List.length_cons]
      omega
  induction xs generalizing set with
  | nil => simp
  | cons x xs ih =>
    rw [List.foldl_cons, insertInto, List.pairwise_cons, List.forall_mem_cons, List.length_cons]
    by_cases hx : containedIn expressionHash set x = true
    · rw [if_pos hx]
      obtain ⟨y, hy, hequals⟩ := containedIn_iff.mp hx
      have hlength := hle xs set
      exact iff_of_false (by omega) fun h => h.2.1 y hy hequals
    · rw [if_neg hx]
      have hset := ih (set ++ [x])
      rw [List.length_append, List.length_singleton] at hset
      have hlength : set.length + (xs.length + 1) = set.length + 1 + xs.length := by omega
      refine (Eq.congr_left hlength).trans (hset.trans ?_)
      have hnot : ∀ y ∈ set, ¬x.equals y = true := fun y hy hequals =>
        hx (containedIn_iff.mpr ⟨y, hy, hequals⟩)
      simp only [List.forall_mem_append, List.forall_mem_singleton]
      constructor
      · rintro ⟨hpairwise, hforall⟩
        exact ⟨⟨fun z hz => (hforall z hz).2, hpairwise⟩, hnot, fun z hz => (hforall z hz).1⟩
      · rintro ⟨⟨hxs, hpairwise⟩, -, hforall⟩
        exact ⟨hpairwise, fun z hz => ⟨hforall z hz, hxs z hz⟩⟩

/-! ### Deflating -/

lemma mem_facts {fact : Finset E × E} :
    fact ∈ facts xs ↔ ∃ x ∈ xs, x.determinants = fact.1 ∧ fact.2 ∈ x.dependents := Iff.rfl

lemma facts_append : facts (a ++ b) = facts a ∪ facts b := by
  ext fact
  rw [Set.mem_union, mem_facts, mem_facts, mem_facts]
  simp only [List.mem_append, or_and_right, exists_or]

lemma facts_cons : facts (x :: xs) = facts [x] ∪ facts xs := facts_append (a := [x])

/-- A step adds the facts of a dependency. -/
lemma facts_deflateStep : facts (deflateStep xs x) = facts xs ∪ facts [x] := by
  induction xs with
  | nil =>
    ext fact
    simp [deflateStep, mem_facts]
  | cons y xs ih =>
    rw [deflateStep]
    split
    · next hsame =>
      have hdeterminants := sameDeterminants_iff.mp hsame
      rw [facts_cons, facts_cons (x := y), Set.union_right_comm]
      congr 1
      ext fact
      simp only [mem_facts, List.mem_singleton, exists_eq_left, Set.mem_union, dependents,
        ExpressionSet.mem_toFinset, ExpressionSet.mem_foldl_insert]
      rw [← hdeterminants, ← and_or_left]
      rfl
    · rw [facts_cons, ih, ← Set.union_assoc, ← facts_cons]

/-- Deflating preserves the facts. -/
lemma facts_deflate (xs : List (FunctionalDependency E)) : facts (deflate xs) = facts xs := by
  rw [deflate]
  induction xs using List.reverseRecOn with
  | nil => rfl
  | append_singleton xs x ih => rw [List.foldl_concat, facts_deflateStep, ih, facts_append]

end FunctionalDependency

end Skyrise

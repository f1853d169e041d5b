/-
Hashes for the cache of query results.

The hash of a pipeline combines the hash of the plan that it executes with those of
its predecessors, in ascending order.  A synthetic pipeline can be skipped; then
only its predecessors count.
-/
import Mathlib.Data.List.Sort
import Skyrise.Compiler.PlanInstance

namespace Skyrise

open Bytes

variable {R A S : Type}

/-- A pipeline with the plan that it executes. -/
inductive TemplatedPipeline (R A : Type) where
  | node (templatedPlan : Plan R A) (isSynthetic : Bool)
      (predecessors : List (TemplatedPipeline R A))

namespace TemplatedPipeline

/-- Induction on pipelines: what holds of a pipeline if it holds of its predecessors holds of all
pipelines. -/
@[elab_as_elim, induction_eliminator]
lemma induction {P : TemplatedPipeline R A → Prop}
    (node : ∀ (templatedPlan : Plan R A) (isSynthetic : Bool)
      (predecessors : List (TemplatedPipeline R A)), (∀ p ∈ predecessors, P p) →
        P (.node templatedPlan isSynthetic predecessors)) (p : TemplatedPipeline R A) : P p :=
  @TemplatedPipeline.rec R A P (fun predecessors => ∀ p ∈ predecessors, P p) node
    (fun _ hp => absurd hp List.not_mem_nil)
    (fun _ _ hhead htail => List.forall_mem_cons.mpr ⟨hhead, htail⟩) p

section Hash

variable [LinearOrder S] (H : Hasher R S) (address : Bytes → ℕ) (skipSyntheticPipelines : Bool)

/-- The hash of a pipeline from that of its plan and the ascending hashes of its predecessors. -/
def combineHashes (skipped : Bool) (hash : Except Exception S) (predecessorHashes : List S) :
    Except Exception S :=
  if skipped then
    match predecessorHashes with
    | [] => .error (.assertionFailed "PqpPipeline cannot be synthetic and without predecessors.")
    | hash :: predecessorHashes => .ok (H.combineAll hash predecessorHashes)
  else do return H.combineAll (← hash) predecessorHashes

mutual

/-- `ResultCacheHash`. -/
def resultCacheHash : TemplatedPipeline R A → Except Exception S
  | node templatedPlan isSynthetic predecessors => do
    let predecessorHashes ← resultCacheHashes predecessors
    combineHashes H (isSynthetic && skipSyntheticPipelines) (templatedPlan.hash H address)
      (predecessorHashes.mergeSort (· ≤ ·))

/-- `ResultCacheHash` of all predecessors. -/
def resultCacheHashes : List (TemplatedPipeline R A) → Except Exception (List S)
  | [] => .ok []
  | predecessor :: predecessors => do
    let predecessorHash ← resultCacheHash predecessor
    let predecessorHashes ← resultCacheHashes predecessors
    return predecessorHash :: predecessorHashes

end

lemma resultCacheHashes_eq_mapM (predecessors : List (TemplatedPipeline R A)) :
    resultCacheHashes H address skipSyntheticPipelines predecessors =
      predecessors.mapM (resultCacheHash H address skipSyntheticPipelines) := by
  induction predecessors with
  | nil => rfl
  | cons predecessor predecessors ih => rw [resultCacheHashes, ih, List.mapM_cons]

lemma resultCacheHash_node (templatedPlan : Plan R A) (isSynthetic : Bool)
    (predecessors : List (TemplatedPipeline R A)) :
    resultCacheHash H address skipSyntheticPipelines (node templatedPlan isSynthetic predecessors) =
      (predecessors.mapM (resultCacheHash H address skipSyntheticPipelines)).bind fun hashes =>
        combineHashes H (isSynthetic && skipSyntheticPipelines) (templatedPlan.hash H address)
          (hashes.mergeSort (· ≤ ·)) := by
  rw [resultCacheHash, resultCacheHashes_eq_mapM]
  rfl

end Hash

/-! ### Pipelines that are built again -/

section

variable (r : Plan R A → Bool → Plan R A → Bool → Prop)

mutual

/-- Pipelines that are related one by one, where the predecessors are in any order. -/
def Corresponds : TemplatedPipeline R A → TemplatedPipeline R A → Prop
  | node templatedPlan isSynthetic predecessors, node templatedPlan' isSynthetic' predecessors' =>
    r templatedPlan isSynthetic templatedPlan' isSynthetic' ∧
      ∃ related, AllCorrespond predecessors related ∧ related.Perm predecessors'

/-- Pipelines that are related one by one, in this order. -/
def AllCorrespond : List (TemplatedPipeline R A) → List (TemplatedPipeline R A) → Prop
  | [], related => related = []
  | predecessor :: predecessors, related => ∃ predecessor' predecessors',
    related = predecessor' :: predecessors' ∧ Corresponds predecessor predecessor' ∧
      AllCorrespond predecessors predecessors'

end

lemma allCorrespond_iff {predecessors related : List (TemplatedPipeline R A)} :
    AllCorrespond r predecessors related ↔ List.Forall₂ (Corresponds r) predecessors related := by
  induction predecessors generalizing related with
  | nil => rw [AllCorrespond, List.forall₂_nil_left_iff]
  | cons predecessor predecessors ih =>
    rw [AllCorrespond, List.forall₂_cons_left_iff]
    simp only [ih]
    constructor
    · rintro ⟨predecessor', predecessors', rfl, h, h'⟩
      exact ⟨predecessor', predecessors', h, h', rfl⟩
    · rintro ⟨predecessor', predecessors', h, h', rfl⟩
      exact ⟨predecessor', predecessors', rfl, h, h'⟩

end

/-- What is built from the same arguments, with the predecessors added in any order. -/
def BuiltAgain : TemplatedPipeline R A → TemplatedPipeline R A → Prop :=
  Corresponds fun templatedPlan isSynthetic templatedPlan' isSynthetic' =>
    templatedPlan.BuiltAgain templatedPlan' ∧ isSynthetic' = isSynthetic

lemma builtAgain_self (p : TemplatedPipeline R A) : p.BuiltAgain p := by
  induction p with
  | node templatedPlan isSynthetic predecessors ih =>
    refine ⟨⟨templatedPlan.builtAgain_self, rfl⟩, predecessors, ?_, List.Perm.refl _⟩
    exact (allCorrespond_iff _).mpr (List.forall₂_same.mpr ih)

/-- The plans of all pipelines whose plans are hashed are free of import options, and no pipeline
that is skipped lacks predecessors. -/
inductive InstanceFree (skipSyntheticPipelines : Bool) : TemplatedPipeline R A → Prop
  | node (templatedPlan : Plan R A) (isSynthetic : Bool)
      (predecessors : List (TemplatedPipeline R A))
      (hskipped : (isSynthetic && skipSyntheticPipelines) = true → predecessors ≠ [])
      (hhashed : (isSynthetic && skipSyntheticPipelines) = false → templatedPlan.InstanceFree)
      (hpredecessors : ∀ p ∈ predecessors, InstanceFree skipSyntheticPipelines p) :
      InstanceFree skipSyntheticPipelines (.node templatedPlan isSynthetic predecessors)

/-- The plans of all pipelines are well-formed. -/
inductive WellFormed [FloatingPoint R] : TemplatedPipeline R A → Prop
  | node (templatedPlan : Plan R A) (isSynthetic : Bool)
      (predecessors : List (TemplatedPipeline R A)) (hplan : templatedPlan.WellFormed)
      (hpredecessors : ∀ p ∈ predecessors, WellFormed p) :
      WellFormed (.node templatedPlan isSynthetic predecessors)

/-! ### Hashes that do not depend on the instance -/

section

variable [LinearOrder S] {skip : Bool}

/-- Lists with the same entries are sorted alike. -/
lemma mergeSort_eq_of_perm {hashes hashes' : List S} (h : hashes.Perm hashes') :
    hashes.mergeSort (· ≤ ·) = hashes'.mergeSort (· ≤ ·) := by
  refine List.Perm.eq_of_pairwise' (r := (· ≤ ·)) (List.pairwise_mergeSort' _ _)
    (List.pairwise_mergeSort' _ _) ?_
  exact (List.mergeSort_perm _ _).trans (h.trans (List.mergeSort_perm _ _).symm)

/-- A loop over the same elements in another order has the same results in another order. -/
lemma exists_mapM_perm {α β ε : Type} {f : α → Except ε β} {l l' : List α} {ys : List β}
    (hl : l.Perm l') (h : l.mapM f = .ok ys) : ∃ ys', l'.mapM f = .ok ys' ∧ ys.Perm ys' := by
  rw [mapM_eq_ok_iff] at h
  obtain ⟨ys', hperm, hforall⟩ := List.perm_comp_forall₂ hl.symm h
  exact ⟨ys', mapM_eq_ok_iff.mpr hperm, hforall.symm⟩

/-- Loops over elements that are related have the same results if the bodies do. -/
lemma exists_mapM_of_forall₂ {α β γ ε : Type} {r : α → β → Prop} {f : α → Except ε γ}
    {g : β → Except ε γ} {l : List α} {l' : List β} (h : List.Forall₂ r l l')
    (hfg : ∀ a ∈ l, ∀ b, r a b → ∃ y, f a = .ok y ∧ g b = .ok y) :
    ∃ ys, l.mapM f = .ok ys ∧ l'.mapM g = .ok ys := by
  induction h with
  | nil => exact ⟨[], rfl, rfl⟩
  | @cons a b l l' hab _ ih =>
    rw [List.forall_mem_cons] at hfg
    obtain ⟨y, hf, hg⟩ := hfg.1 b hab
    obtain ⟨ys, hfs, hgs⟩ := ih hfg.2
    refine ⟨y :: ys, ?_, ?_⟩
    · rw [List.mapM_cons, hf, hfs]
      rfl
    · rw [List.mapM_cons, hg, hgs]
      rfl

/-- A pipeline whose plans have no import options has the same hash when it is built again. -/
lemma InstanceFree.exists_hash (H : Hasher R S) (address address' : Bytes → ℕ)
    {p : TemplatedPipeline R A} (h : p.InstanceFree skip) :
    ∀ p', p.BuiltAgain p' → ∃ hash, p.resultCacheHash H address skip = .ok hash ∧
      p'.resultCacheHash H address' skip = .ok hash := by
  induction h with
  | node templatedPlan isSynthetic predecessors hskipped hhashed _ ih =>
    rintro ⟨templatedPlan', isSynthetic', predecessors'⟩ ⟨⟨hplan, rfl⟩, rebuilt, hall, hperm⟩
    obtain ⟨hashes, hhashes, hrebuilt⟩ := exists_mapM_of_forall₂ ((allCorrespond_iff _).mp hall) ih
    obtain ⟨hashes', hhashes', hsame⟩ := exists_mapM_perm hperm hrebuilt
    rw [resultCacheHash_node, resultCacheHash_node, hhashes, hhashes', Except.bind, Except.bind,
      mergeSort_eq_of_perm hsame]
    cases hskip : isSynthetic' && skip with
    | true =>
      have hne : hashes'.mergeSort (· ≤ ·) ≠ [] := by
        intro hnil
        have hlen := (mapM_eq_ok_iff.mp hhashes).length_eq
        have hlen' := congrArg List.length hnil
        rw [List.length_mergeSort, ← hsame.length_eq, ← hlen] at hlen'
        exact hskipped hskip (List.length_eq_zero_iff.mp hlen')
      obtain ⟨hash, rest, hcons⟩ := List.exists_cons_of_ne_nil hne
      rw [hcons]
      exact ⟨_, rfl, rfl⟩
    | false =>
      obtain ⟨hash, hhash, hhash'⟩ := (hhashed hskip).exists_hash hplan H address address'
      exact ⟨_, by rw [hhash]; rfl, by rw [hhash']; rfl⟩

end

/-- What hash functions that add make of the hashes of a pipeline. -/
lemma combineHashes_sum {number pointer : ℕ → ℕ} {skipped : Bool} {hash : Except Exception ℕ}
    {hashes : List ℕ} {result : ℕ}
    (h : combineHashes (.sum number pointer : Hasher R ℕ) skipped hash hashes = .ok result) :
    skipped = true ∧ hashes ≠ [] ∧ result = hashes.sum ∨
      skipped = false ∧ ∃ value, hash = .ok value ∧ result = value + hashes.sum := by
  cases skipped with
  | true =>
    cases hashes with
    | nil => cases h
    | cons value hashes =>
      refine .inl ⟨rfl, List.cons_ne_nil _ _, ?_⟩
      rw [List.sum_cons, ← Hasher.combineAll_sum]
      exact (Except.ok.inj h).symm
  | false =>
    cases hash with
    | error exception => cases h
    | ok value =>
      refine .inr ⟨rfl, value, rfl, ?_⟩
      rw [← Hasher.combineAll_sum]
      exact (Except.ok.inj h).symm

/-- If hash functions that add addresses have the same sum for all addresses of the options of a
plan, then it has none. -/
lemma instanceFree_of_hash_sum_eq [FloatingPoint R] {plan : Plan R A} (hplan : plan.WellFormed)
    {hash hash' : ℕ} (h : plan.hash (.sum (fun _ => 0) id) (fun _ => 0) = .ok hash)
    (h' : plan.hash (.sum (fun _ => 0) id) (fun _ => 1) = .ok hash') :
    hash ≤ hash' ∧ (hash = hash' → plan.InstanceFree) := by
  have hhashable : ∀ q ∈ plan.subplans, q.proxy.attributes.Hashable := fun q hq =>
    (ProxyAttributes.hashable_iff _ _).mpr
      (Plan.exists_shallowHash_of_hash hplan.eq_of_identity_eq h hq)
  by_cases hfree : plan.InstanceFree
  · obtain ⟨same, hsame, hsame'⟩ := hfree.exists_hash plan.builtAgain_self
      (.sum (fun _ => 0) id) (fun _ => 0) fun _ => 1
    rw [h] at hsame
    rw [h'] at hsame'
    have := Except.ok.inj hsame
    have := Except.ok.inj hsame'
    exact ⟨by omega, fun _ => hfree⟩
  · have hoptions : ∃ q ∈ plan.subplans, q.proxy.attributes.HasImportOptions := by
      by_contra hnone
      exact hfree fun q hq => ⟨hhashable q hq, fun hq' => hnone ⟨q, hq, hq'⟩⟩
    obtain ⟨less, more, hless, hmore, hlt⟩ := Plan.exists_hash_sum_pointer_lt
      (Plan.sameSharing_rename (Set.injOn_id _)) hplan.eq_of_identity_eq
      (fun q hq => ⟨hhashable q hq, rfl, Iff.rfl, hhashable q hq⟩) hoptions
    rw [h] at hless
    rw [show plan.map _ = plan from plan.rename_id, h'] at hmore
    have := Except.ok.inj hless
    have := Except.ok.inj hmore
    exact ⟨by omega, fun heq => by omega⟩

/-- Of two loops whose results do not fall, one has the larger sum if any of its results is
larger. -/
lemma sum_mapM_le {α ε : Type} {f g : α → Except ε ℕ} {P : α → Prop} {l : List α}
    {values values' : List ℕ} (hf : l.mapM f = .ok values) (hg : l.mapM g = .ok values')
    (h : ∀ a ∈ l, ∀ {n n'}, f a = .ok n → g a = .ok n' → n ≤ n' ∧ (n = n' → P a)) :
    values.sum ≤ values'.sum ∧ (values.sum = values'.sum → ∀ a ∈ l, P a) := by
  rw [mapM_eq_ok_iff] at hf hg
  induction hf generalizing values' with
  | nil =>
    rw [List.forall₂_nil_left_iff] at hg
    subst hg
    exact ⟨le_rfl, fun _ a ha => absurd ha List.not_mem_nil⟩
  | @cons a n l values hn _ ih =>
    obtain ⟨n', values', hn', hg', rfl⟩ := List.forall₂_cons_left_iff.mp hg
    rw [List.forall_mem_cons] at h
    obtain ⟨hle, heq⟩ := h.1 hn hn'
    obtain ⟨hles, heqs⟩ := ih hg' h.2
    rw [List.sum_cons, List.sum_cons]
    refine ⟨by omega, fun hsum => List.forall_mem_cons.mpr ⟨heq (by omega), heqs (by omega)⟩⟩

/-- The same for a pipeline. -/
lemma instanceFree_of_resultCacheHash_sum_eq [FloatingPoint R] {skip : Bool}
    {p : TemplatedPipeline R A} (hp : p.WellFormed) : ∀ {hash hash' : ℕ},
    p.resultCacheHash (.sum (fun _ => 0) id) (fun _ => 0) skip = .ok hash →
    p.resultCacheHash (.sum (fun _ => 0) id) (fun _ => 1) skip = .ok hash' →
    hash ≤ hash' ∧ (hash = hash' → p.InstanceFree skip) := by
  induction hp with
  | node templatedPlan isSynthetic predecessors hplan _ ih =>
    intro hash hash' h h'
    rw [resultCacheHash_node] at h h'
    obtain ⟨hashes, hhashes, h⟩ := exists_of_bind_eq_ok h
    obtain ⟨hashes', hhashes', h'⟩ := exists_of_bind_eq_ok h'
    obtain ⟨hle, hfree⟩ := sum_mapM_le hhashes hhashes' ih
    have hsum := (List.mergeSort_perm hashes (· ≤ ·)).sum_eq
    have hsum' := (List.mergeSort_perm hashes' (· ≤ ·)).sum_eq
    -- a pipeline that is skipped only has the hashes of its predecessors
    rcases combineHashes_sum h with ⟨hskipped, hne, rfl⟩ | ⟨hskipped, value, hvalue, rfl⟩
    · rcases combineHashes_sum h' with ⟨-, -, rfl⟩ | ⟨hskipped', -⟩
      · refine ⟨by omega, fun heq => .node _ _ _ (fun _ hnil => hne ?_) (fun hhashed => ?_)
          (hfree (by omega))⟩
        · subst hnil
          obtain rfl := Except.ok.inj hhashes
          exact List.mergeSort_nil
        · rw [hskipped] at hhashed
          cases hhashed
      · rw [hskipped] at hskipped'
        cases hskipped'
    · rcases combineHashes_sum h' with ⟨hskipped', -⟩ | ⟨-, value', hvalue', rfl⟩
      · rw [hskipped] at hskipped'
        cases hskipped'
      · obtain ⟨hle', hfree'⟩ := instanceFree_of_hash_sum_eq hplan hvalue hvalue'
        refine ⟨by omega, fun heq => .node _ _ _ (fun hskipped' => ?_)
          (fun _ => hfree' (by omega)) (hfree (by omega))⟩
        rw [hskipped] at hskipped'
        cases hskipped'

/-- A pipeline has the same hash whenever it is built if and only if the plans that are hashed have
no import options. -/
lemma resultCacheHash_builtAgain_iff [FloatingPoint R] {pipeline : TemplatedPipeline R A}
    (hpipeline : pipeline.WellFormed) (skip : Bool) :
    (∀ pipeline', pipeline.BuiltAgain pipeline' → ∀ (S : Type) [LinearOrder S] (H : Hasher R S)
      (address address' : Bytes → ℕ), ∃ hash, pipeline.resultCacheHash H address skip = .ok hash ∧
        pipeline'.resultCacheHash H address' skip = .ok hash) ↔ pipeline.InstanceFree skip := by
  constructor
  · intro h
    obtain ⟨hash, hhash, hhash'⟩ := h pipeline pipeline.builtAgain_self ℕ (.sum (fun _ => 0) id)
      (fun _ => 0) fun _ => 1
    exact (instanceFree_of_resultCacheHash_sum_eq hpipeline hhash hhash').2 rfl
  · intro h pipeline' hbuilt S _ H address address'
    exact h.exists_hash H address address' pipeline' hbuilt

end TemplatedPipeline

/-- An import of the first column of a CSV object. -/
def csvImport : Plan ℚ Unit :=
  .source { identity := "import", attributes := .import {
    objectReferences := [{ bucketName := "bucket", identifier := "object.csv" }]
    columnIds := [0]
    importOptions := some (.csv { readBufferSize := 16777216 }) } }

end Skyrise

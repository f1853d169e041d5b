/-
Pipelines of a physical query plan.

A pipeline has an identity, the definitions of the fragments that workers run in
parallel, and links to its predecessors and successors, which are given by their
identities.  The links are only made by `SetAsPredecessorOf`, which records every
link at both of its ends.
-/
import Skyrise.Compiler.PipelineFragmentDefinition
import Skyrise.Concurrency.Dependency

namespace Skyrise

open Concurrency

/-- A pipeline. -/
structure PqpPipeline (ι : Type) where
  /-- The identity, which no other pipeline of a plan has. -/
  identity : ι
  /-- The fragments. -/
  fragmentDefinitions : List PipelineFragmentDefinition
  /-- The pipelines whose results this one reads. -/
  predecessors : List ι
  /-- The pipelines that read the results of this one. -/
  successors : List ι

namespace PqpPipeline

variable {ι : Type} [DecidableEq ι]

/-- Links the pipelines with two identities: the first becomes a predecessor of the second. -/
def setAsPredecessorOf (pipelines : List (PqpPipeline ι)) (p q : ι) : List (PqpPipeline ι) :=
  pipelines.map fun pipeline =>
    { pipeline with
      predecessors :=
        if pipeline.identity = q then pipeline.predecessors ++ [p] else pipeline.predecessors
      successors :=
        if pipeline.identity = p then pipeline.successors ++ [q] else pipeline.successors }

/-- Every link between two of the pipelines is recorded at both ends equally often. -/
def Linked (pipelines : List (PqpPipeline ι)) : Prop :=
  ∀ p ∈ pipelines, ∀ q ∈ pipelines,
    p.successors.count q.identity = q.predecessors.count p.identity

lemma linked_of_unlinked {pipelines : List (PqpPipeline ι)}
    (h : ∀ p ∈ pipelines, p.predecessors = [] ∧ p.successors = []) : Linked pipelines :=
  fun p hp q hq => by rw [(h p hp).2, (h q hq).1, List.count_nil, List.count_nil]

/-- A new link is recorded at both ends. -/
lemma Linked.setAsPredecessorOf {pipelines : List (PqpPipeline ι)} (h : Linked pipelines)
    (p q : ι) : Linked (setAsPredecessorOf pipelines p q) := by
  intro _ ha' _ hb'
  obtain ⟨a, ha, rfl⟩ := List.mem_map.mp ha'
  obtain ⟨b, hb, rfl⟩ := List.mem_map.mp hb'
  have hab := h a ha b hb
  -- the link is new for the pair `p`, `q` only, and there it is added at both ends
  by_cases hp : a.identity = p <;> by_cases hq : b.identity = q
  · rw [hp, hq] at hab
    simp [hp, hq, hab]
  · rw [hp] at hab
    simp [hp, hq, hab, Ne.symm hq]
  · rw [hq] at hab
    simp [hp, hq, hab, Ne.symm hp]
  · simp [hp, hq, hab]

end PqpPipeline

/-- The pipelines of a plan: they have different identities and at least one fragment each, their
links stay among them and do not form a cycle. -/
structure PipelineGraph (ι : Type) [DecidableEq ι] where
  /-- The pipelines. -/
  pipelines : List (PqpPipeline ι)
  identities_nodup : (pipelines.map PqpPipeline.identity).Nodup
  fragments_ne_nil : ∀ p ∈ pipelines, p.fragmentDefinitions ≠ []
  predecessors_mem : ∀ p ∈ pipelines, ∀ a ∈ p.predecessors,
    a ∈ pipelines.map PqpPipeline.identity
  successors_mem : ∀ p ∈ pipelines, ∀ a ∈ p.successors,
    a ∈ pipelines.map PqpPipeline.identity
  linked : PqpPipeline.Linked pipelines
  acyclic : Acyclic fun a b => ∃ q ∈ pipelines, q.identity = b ∧ a ∈ q.predecessors

namespace PipelineGraph

variable {ι : Type} [DecidableEq ι] (g : PipelineGraph ι)

/-- The number of fragments of the pipeline with an identity. -/
def fragmentCount (a : ι) : ℕ :=
  ((g.pipelines.find? fun p => decide (p.identity = a)).map
    fun p => p.fragmentDefinitions.length).getD 0

variable {g}

lemma eq_of_identity_eq {p q : PqpPipeline ι} (hp : p ∈ g.pipelines) (hq : q ∈ g.pipelines)
    (h : p.identity = q.identity) : p = q :=
  List.inj_on_of_nodup_map g.identities_nodup hp hq h

lemma fragmentCount_identity {p : PqpPipeline ι} (hp : p ∈ g.pipelines) :
    g.fragmentCount p.identity = p.fragmentDefinitions.length := by
  obtain ⟨q, hq⟩ : ∃ q, (g.pipelines.find? fun q => decide (q.identity = p.identity)) = some q :=
    Option.isSome_iff_exists.mp (List.find?_isSome.mpr ⟨p, hp, decide_eq_true rfl⟩)
  have hid : q.identity = p.identity := by simpa using List.find?_some hq
  rw [fragmentCount, hq, eq_of_identity_eq (List.mem_of_find?_eq_some hq) hp hid]
  rfl

lemma fragmentCount_pos {p : PqpPipeline ι} (hp : p ∈ g.pipelines) :
    0 < g.fragmentCount p.identity := by
  rw [fragmentCount_identity hp]
  exact List.length_pos_iff.mpr (g.fragments_ne_nil p hp)

/-- Among the pipelines with a property there is one none of whose predecessors has it. -/
lemma exists_minimal {P : PqpPipeline ι → Prop} (h : ∃ p ∈ g.pipelines, P p) :
    ∃ p ∈ g.pipelines, P p ∧ ∀ q ∈ g.pipelines, q.identity ∈ p.predecessors → ¬ P q := by
  obtain ⟨p, hp, hP⟩ := h
  obtain ⟨a, -, ⟨m, hm, rfl, hPm⟩, hmin⟩ := g.acyclic.exists_minimal
    (g.pipelines.map PqpPipeline.identity)
    (P := fun a => ∃ p ∈ g.pipelines, p.identity = a ∧ P p)
    ⟨p.identity, List.mem_map_of_mem hp, p, hp, rfl, hP⟩
  exact ⟨m, hm, hPm, fun q hq hlink hPq =>
    hmin q.identity (List.mem_map_of_mem hq) ⟨m, hm, rfl, hlink⟩ ⟨q, hq, rfl, hPq⟩⟩

end PipelineGraph

end Skyrise

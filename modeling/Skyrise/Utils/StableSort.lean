/-
Stable sorting.

`mergeSort` keeps the order of elements that tie.  For a list without repetitions
this makes it a step of a lexicographic sort: a list that is ordered by a relation
is, after it was sorted, ordered by the key, and by the relation where the keys tie.
-/
import Mathlib.Data.List.Nodup

namespace StableSort

variable {α : Type*}

/-- Of two elements of a list one comes in front of the other. -/
lemma pair_sublist_or {l : List α} {a b : α} (ha : a ∈ l) (hb : b ∈ l) (hne : a ≠ b) :
    List.Sublist [a, b] l ∨ List.Sublist [b, a] l := by
  obtain ⟨s, t, rfl⟩ := List.append_of_mem ha
  rcases List.mem_append.mp hb with hs | ht
  · refine .inr ?_
    have hleft : List.Sublist [b] s := List.singleton_sublist.mpr hs
    exact hleft.append (List.singleton_sublist.mpr List.mem_cons_self)
  · refine .inl ?_
    have hright : b ∈ t := (List.mem_cons.mp ht).resolve_left fun h => hne h.symm
    exact ((List.singleton_sublist.mpr hright).cons_cons a).trans (List.sublist_append_right s _)

/-- Without repetitions no two elements come in front of each other. -/
lemma not_pair_sublist_swap {l : List α} (hl : l.Nodup) {a b : α} (h : List.Sublist [a, b] l) :
    ¬ List.Sublist [b, a] l := by
  have hne : a ≠ b := fun hab => (List.pairwise_iff_forall_sublist.mp hl) h hab
  induction l with
  | nil => exact fun h' => absurd (h'.subset List.mem_cons_self) List.not_mem_nil
  | cons x l ih =>
    obtain ⟨hx, hl⟩ := List.nodup_cons.mp hl
    intro h'
    cases h with
    | cons _ h =>
      cases h' with
      | cons _ h' => exact ih hl h h'
      | cons_cons _ h' => exact hx (h.subset (by simp))
    | cons_cons _ h =>
      cases h' with
      | cons _ h' => exact hx (h'.subset (by simp))
      | cons_cons _ h' => exact hne rfl

/-- A stable sort orders a list by the key, and by the earlier order where the keys tie. -/
theorem pairwise_mergeSort {l : List α} {r : α → α → Prop} {le : α → α → Bool}
    (trans : ∀ a b c, le a b → le b c → le a c) (total : ∀ a b, le a b || le b a)
    (hl : l.Nodup) (h : l.Pairwise r) :
    (l.mergeSort le).Pairwise fun a b => le a b ∧ (le b a → r a b) := by
  have hnodup : (l.mergeSort le).Nodup := (List.mergeSort_perm l le).nodup_iff.mpr hl
  have hsorted := List.pairwise_mergeSort trans total l
  refine List.pairwise_iff_forall_sublist.mpr fun {a b} hab => ?_
  refine ⟨List.pairwise_iff_forall_sublist.mp hsorted hab, fun hba => ?_⟩
  have hmem : ∀ c ∈ [a, b], c ∈ l := fun c hc => List.mem_mergeSort.mp (hab.subset hc)
  have hne : a ≠ b := List.pairwise_iff_forall_sublist.mp hnodup hab
  -- the other way round the two would come in front of each other
  have hfirst : List.Sublist [a, b] l :=
    (pair_sublist_or (hmem a (by simp)) (hmem b (by simp)) hne).resolve_right fun hswap =>
      not_pair_sublist_swap hnodup hab (List.pair_sublist_mergeSort trans total hba hswap)
  exact List.pairwise_iff_forall_sublist.mp h hfirst

end StableSort

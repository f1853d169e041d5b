/-
Half-open intervals of a linear order.

A list of intervals stands for the points of its intervals, in any order and with
overlaps.  It is separated if every interval ends where the next one begins, or before.
Intervals whose starts ascend are separated by cutting each at the start of the next one
and dropping those that become empty; a point is lost only to an interval that starts at
it or before.
-/
import Mathlib.Data.List.Chain
import Mathlib.Data.Set.Basic
import Mathlib.Order.MinMax

namespace Intervals

variable {α : Type*} [LinearOrder α]

/-- The points of a list of intervals. -/
def points (xs : List (α × α)) : Set α := {x | ∃ i ∈ xs, i.1 ≤ x ∧ x < i.2}

/-- Every interval ends before the next one begins. -/
def Separated (xs : List (α × α)) : Prop := xs.IsChain fun i j => i.2 ≤ j.1

/-- The intervals that have a point. -/
def nonempty (xs : List (α × α)) : List (α × α) := xs.filter fun i => i.1 < i.2

/-- Every interval up to the start of the next one. -/
def cutAtNext : List (α × α) → List (α × α)
  | i :: j :: xs => (i.1, min i.2 j.1) :: cutAtNext (j :: xs)
  | xs => xs

variable {xs ys pre post : List (α × α)} {i j k : α × α} {x : α}

lemma mem_points : x ∈ points xs ↔ ∃ i ∈ xs, i.1 ≤ x ∧ x < i.2 := Iff.rfl

@[simp] lemma points_nil : points ([] : List (α × α)) = ∅ :=
  Set.eq_empty_of_forall_notMem fun _ ⟨_, hi, _⟩ => List.not_mem_nil hi

lemma mem_points_cons : x ∈ points (i :: xs) ↔ (i.1 ≤ x ∧ x < i.2) ∨ x ∈ points xs := by
  rw [mem_points, List.exists_mem_cons_iff, mem_points]

lemma mem_points_append : x ∈ points (xs ++ ys) ↔ x ∈ points xs ∨ x ∈ points ys := by
  simp only [mem_points, List.mem_append, or_and_right, exists_or]

/-- An interval without points does not count. -/
@[simp] lemma points_nonempty : points (nonempty xs) = points xs := by
  ext x
  constructor
  · rintro ⟨i, hi, hx⟩
    exact ⟨i, List.mem_of_mem_filter hi, hx⟩
  · rintro ⟨i, hi, hx⟩
    exact ⟨i, List.mem_filter.mpr ⟨hi, decide_eq_true (hx.1.trans_lt hx.2)⟩, hx⟩

lemma nonempty_cons_of_lt (h : i.1 < i.2) : nonempty (i :: xs) = i :: nonempty xs :=
  List.filter_cons_of_pos (decide_eq_true h)

lemma nonempty_cons_of_le (h : i.2 ≤ i.1) : nonempty (i :: xs) = nonempty xs :=
  List.filter_cons_of_neg (by simpa using h)

/-! ### Cutting -/

@[simp] lemma cutAtNext_nil : cutAtNext ([] : List (α × α)) = [] := rfl

@[simp] lemma cutAtNext_singleton : cutAtNext [i] = [i] := rfl

@[simp] lemma cutAtNext_cons_cons :
    cutAtNext (i :: j :: xs) = (i.1, min i.2 j.1) :: cutAtNext (j :: xs) := rfl

/-- What comes before an interval does not matter to it. -/
lemma exists_cutAtNext_append (pre post : List (α × α)) :
    ∃ pre', cutAtNext (pre ++ post) = pre' ++ cutAtNext post := by
  induction pre with
  | nil => exact ⟨[], rfl⟩
  | cons i pre ih =>
    obtain ⟨pre', h⟩ := ih
    cases hrest : pre ++ post with
    | nil =>
      obtain ⟨rfl, rfl⟩ := List.append_eq_nil_iff.mp hrest
      exact ⟨[i], rfl⟩
    | cons j rest =>
      rw [hrest] at h
      exact ⟨(i.1, min i.2 j.1) :: pre', by rw [List.cons_append, hrest, cutAtNext_cons_cons, h,
        List.cons_append]⟩

/-- Every interval is cut, its start stays. -/
lemma exists_of_mem_cutAtNext (h : i ∈ cutAtNext xs) : ∃ j ∈ xs, i.1 = j.1 ∧ i.2 ≤ j.2 := by
  induction xs using cutAtNext.induct with
  | case1 a b xs ih =>
    rw [cutAtNext_cons_cons, List.mem_cons] at h
    rcases h with rfl | h
    · exact ⟨a, List.mem_cons_self, rfl, min_le_left _ _⟩
    · obtain ⟨j, hj, heq⟩ := ih h
      exact ⟨j, List.mem_cons_of_mem a hj, heq⟩
  | case2 xs hxs =>
    rw [cutAtNext.eq_def] at h
    split at h
    · next a b xs => exact absurd rfl (hxs a b xs)
    · exact ⟨i, h, rfl, le_rfl⟩

/-- What is left of an interval is what comes before the start of the next one. -/
lemma mem_points_cutAtNext_cons : x ∈ points (cutAtNext (i :: xs)) ↔
    (i.1 ≤ x ∧ x < i.2 ∧ ∀ j ∈ xs.head?, x < j.1) ∨ x ∈ points (cutAtNext xs) := by
  cases xs with
  | nil => simp [mem_points]
  | cons j xs =>
    rw [cutAtNext_cons_cons, mem_points_cons, lt_min_iff, List.head?_cons]
    simp only [Option.mem_def, Option.some.injEq, forall_eq']

/-- A point stays if the next interval begins behind it. -/
lemma mem_points_cutAtNext (hx : i.1 ≤ x ∧ x < i.2) (hnext : ∀ j ∈ xs.head?, x < j.1) :
    x ∈ points (cutAtNext (pre ++ i :: xs)) := by
  obtain ⟨pre', h⟩ := exists_cutAtNext_append pre (i :: xs)
  rw [h, mem_points_append, mem_points_cutAtNext_cons]
  exact .inr (.inl ⟨hx.1, hx.2, hnext⟩)

/-- **Intervals whose starts ascend** are separated by cutting. -/
lemma separated_cutAtNext (h : xs.Pairwise fun i j => i.1 ≤ j.1) :
    Separated (nonempty (cutAtNext xs)) := by
  have hpairwise : (cutAtNext xs).Pairwise fun i j => i.2 ≤ j.1 := by
    induction xs using cutAtNext.induct with
    | case1 a b xs ih =>
      rw [cutAtNext_cons_cons]
      have hb := (List.pairwise_cons.mp h).2
      refine List.pairwise_cons.mpr ⟨fun c hc => ?_, ih hb⟩
      obtain ⟨d, hd, hcd, -⟩ := exists_of_mem_cutAtNext hc
      have hle : b.1 ≤ d.1 := by
        rcases List.mem_cons.mp hd with rfl | hd
        · exact le_rfl
        · exact (List.pairwise_cons.mp hb).1 d hd
      exact (min_le_right _ _).trans (hle.trans_eq hcd.symm)
    | case2 xs hxs =>
      cases xs with
      | nil => exact List.Pairwise.nil
      | cons a xs =>
        cases xs with
        | nil => exact List.pairwise_singleton _ _
        | cons b xs => exact absurd rfl (hxs a b xs)
  exact (hpairwise.filter _).isChain

/-- Something of a list of intervals is left, and it begins no later than the first of them. -/
lemma exists_nonempty_cutAtNext_eq_cons (hne : ∀ j ∈ i :: xs, j.1 < j.2) :
    ∃ j ys, nonempty (cutAtNext (i :: xs)) = j :: ys ∧ j.1 ≤ i.1 := by
  induction xs generalizing i with
  | nil =>
    have hi := hne i List.mem_cons_self
    exact ⟨i, [], nonempty_cons_of_lt hi, le_rfl⟩
  | cons b xs ih =>
    rw [cutAtNext_cons_cons]
    by_cases hlt : i.1 < min i.2 b.1
    · exact ⟨_, _, nonempty_cons_of_lt hlt, le_rfl⟩
    · -- the first interval is swallowed by the second one
      have hi := hne i List.mem_cons_self
      have hle : b.1 ≤ i.1 := by
        rw [lt_min_iff, not_and] at hlt
        exact le_of_not_gt (hlt hi)
      obtain ⟨j, ys, hys, hj⟩ := ih fun c hc => hne c (List.mem_cons_of_mem i hc)
      exact ⟨j, ys, (nonempty_cons_of_le (not_lt.mp hlt)).trans hys, hj.trans hle⟩

/-- Behind an interval that reaches the next one, the starts must not descend. -/
lemma le_of_separated (hne : ∀ l ∈ pre ++ i :: j :: k :: post, l.1 < l.2)
    (h : Separated (nonempty (cutAtNext (pre ++ i :: j :: k :: post)))) (hij : i.1 < j.1)
    (hreach : j.1 ≤ i.2) : j.1 ≤ k.1 := by
  by_contra! hlt
  obtain ⟨pre', hpre⟩ := exists_cutAtNext_append pre (i :: j :: k :: post)
  rw [hpre, nonempty, List.filter_append] at h
  have h : Separated (nonempty (cutAtNext (i :: j :: k :: post))) := h.right_of_append
  rw [cutAtNext_cons_cons, cutAtNext_cons_cons, min_eq_right hreach, nonempty_cons_of_lt hij,
    nonempty_cons_of_le ((min_le_right _ _).trans hlt.le)] at h
  obtain ⟨l, ys, hys, hl⟩ : ∃ l ys, nonempty (cutAtNext (k :: post)) = l :: ys ∧ l.1 ≤ k.1 :=
    exists_nonempty_cutAtNext_eq_cons fun c hc => hne c <| by
      rw [List.mem_append, List.mem_cons, List.mem_cons]
      exact .inr (.inr (.inr hc))
  rw [hys] at h
  exact absurd ((List.isChain_cons_cons.mp h).1.trans hl) (not_le.mpr hlt)

end Intervals

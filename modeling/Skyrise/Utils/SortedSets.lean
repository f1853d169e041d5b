/-
Sets as sorted lists.

Intersection and union go through both lists at once and take the smaller of the two
first elements.  Of two parts of one sorted list they are again parts of it: those
with the elements of both, or of one of them.
-/
import Mathlib.Data.List.Basic
import Mathlib.Order.Basic
import Mathlib.Order.Lattice

namespace SortedSets

variable {α : Type*} [LinearOrder α]

/-- The elements of both lists. -/
def intersection : List α → List α → List α
  | [], _ => []
  | _ :: _, [] => []
  | a :: s, b :: t =>
    if a < b then intersection s (b :: t)
    else if b < a then intersection (a :: s) t
    else a :: intersection s t
termination_by s t => s.length + t.length

/-- The elements of one of the lists, once each. -/
def union : List α → List α → List α
  | [], t => t
  | a :: s, [] => a :: s
  | a :: s, b :: t =>
    if a < b then a :: union s (b :: t)
    else if b < a then b :: union (a :: s) t
    else a :: union s t
termination_by s t => s.length + t.length

variable {a : α} {s t l : List α}

@[simp] lemma intersection_nil_left : intersection [] t = [] := by rw [intersection]

@[simp] lemma intersection_nil_right : intersection s [] = [] := by
  cases s <;> rw [intersection]

@[simp] lemma union_nil_left : union [] t = t := by rw [union]

@[simp] lemma union_nil_right : union s [] = s := by
  cases s <;> rw [union]

lemma intersection_cons_self : intersection (a :: s) (a :: t) = a :: intersection s t := by
  rw [intersection, if_neg (lt_irrefl a), if_neg (lt_irrefl a)]

lemma union_cons_self : union (a :: s) (a :: t) = a :: union s t := by
  rw [union, if_neg (lt_irrefl a), if_neg (lt_irrefl a)]

lemma intersection_cons_left (h : ∀ b ∈ t, a < b) : intersection (a :: s) t = intersection s t := by
  cases t with
  | nil => simp
  | cons b t => rw [intersection, if_pos (h b List.mem_cons_self)]

lemma intersection_cons_right (h : ∀ b ∈ s, a < b) : intersection s (a :: t) = intersection s t := by
  cases s with
  | nil => simp
  | cons b s =>
    have hb := h b List.mem_cons_self
    rw [intersection, if_neg (lt_asymm hb), if_pos hb]

lemma union_cons_left (h : ∀ b ∈ t, a < b) : union (a :: s) t = a :: union s t := by
  cases t with
  | nil => simp
  | cons b t => rw [union, if_pos (h b List.mem_cons_self)]

lemma union_cons_right (h : ∀ b ∈ s, a < b) : union s (a :: t) = a :: union s t := by
  cases s with
  | nil => simp
  | cons b s =>
    have hb := h b List.mem_cons_self
    rw [union, if_neg (lt_asymm hb), if_pos hb]

/-- The intersection of two parts of a sorted list. -/
theorem intersection_filter (h : l.Pairwise (· < ·)) (p q : α → Bool) :
    intersection (l.filter p) (l.filter q) = l.filter fun a => p a && q a := by
  induction h with
  | nil => simp
  | @cons a l hlt _ ih =>
    have hp : ∀ b ∈ l.filter p, a < b := fun b hb => hlt b (List.mem_of_mem_filter hb)
    have hq : ∀ b ∈ l.filter q, a < b := fun b hb => hlt b (List.mem_of_mem_filter hb)
    cases hpa : p a <;> cases hqa : q a
    · simpa [hpa, hqa] using ih
    · simpa [hpa, hqa, intersection_cons_right hp] using ih
    · simpa [hpa, hqa, intersection_cons_left hq] using ih
    · simpa [hpa, hqa, intersection_cons_self] using ih

/-- The union of two parts of a sorted list. -/
theorem union_filter (h : l.Pairwise (· < ·)) (p q : α → Bool) :
    union (l.filter p) (l.filter q) = l.filter fun a => p a || q a := by
  induction h with
  | nil => simp
  | @cons a l hlt _ ih =>
    have hp : ∀ b ∈ l.filter p, a < b := fun b hb => hlt b (List.mem_of_mem_filter hb)
    have hq : ∀ b ∈ l.filter q, a < b := fun b hb => hlt b (List.mem_of_mem_filter hb)
    cases hpa : p a <;> cases hqa : q a
    · simpa [hpa, hqa] using ih
    · simpa [hpa, hqa, union_cons_right hp] using ih
    · simpa [hpa, hqa, union_cons_left hq] using ih
    · simpa [hpa, hqa, union_cons_self] using ih

end SortedSets

/-
Keys that are numbered in the order in which they occur.

A list holds the numbers of the keys that have occurred.  A key that has not gets the
next number.
-/
import Mathlib.Data.List.Basic
import Mathlib.Data.Nat.Basic
import Mathlib.Order.Basic

namespace Skyrise

variable {κ : Type} [BEq κ] [LawfulBEq κ]

/-- Keys with different numbers, from one number on and below the next one. -/
structure Numbered (base next : ℕ) (ids : List (κ × ℕ)) : Prop where
  injective : ∀ k k' n, ids.lookup k = some n → ids.lookup k' = some n → k = k'
  ge : ∀ k n, ids.lookup k = some n → base ≤ n
  lt : ∀ k n, ids.lookup k = some n → n < next
  base_le : base ≤ next

variable {base next : ℕ} {ids ids' ids'' : List (κ × ℕ)} {key : κ}

omit [LawfulBEq κ] in
lemma Numbered.nil (base : ℕ) : Numbered base base ([] : List (κ × ℕ)) :=
  ⟨fun _ _ _ h => (by cases h), fun _ _ h => (by cases h), fun _ _ h => (by cases h), le_rfl⟩

lemma lookup_cons_eq_some {k : κ} {m n : ℕ} (h : ((key, m) :: ids).lookup k = some n) :
    (k = key ∧ n = m) ∨ ids.lookup k = some n := by
  rw [List.lookup_cons] at h
  cases hk : k == key with
  | true =>
    rw [hk] at h
    exact .inl ⟨eq_of_beq hk, (Option.some.inj h).symm⟩
  | false =>
    rw [hk] at h
    exact .inr h

/-- A new key gets the next number. -/
lemma Numbered.cons (h : Numbered base next ids) : Numbered base (next + 1) ((key, next) :: ids) := by
  refine ⟨fun k k' n hk hk' => ?_, fun k n hk => ?_, fun k n hk => ?_,
    h.base_le.trans (Nat.le_succ next)⟩
  · rcases lookup_cons_eq_some hk with ⟨rfl, hn⟩ | hk₁
    · rcases lookup_cons_eq_some hk' with ⟨rfl, -⟩ | hk'₁
      · rfl
      · exact absurd (h.lt k' n hk'₁) (by omega)
    · rcases lookup_cons_eq_some hk' with ⟨-, hn⟩ | hk'₁
      · exact absurd (h.lt k n hk₁) (by omega)
      · exact h.injective k k' n hk₁ hk'₁
  · rcases lookup_cons_eq_some hk with ⟨-, hn⟩ | hk₁
    · exact hn ▸ h.base_le
    · exact h.ge k n hk₁
  · rcases lookup_cons_eq_some hk with ⟨-, hn⟩ | hk₁
    · omega
    · exact Nat.lt_succ_of_lt (h.lt k n hk₁)

/-- Keys that keep their numbers. -/
def Keeps (ids ids' : List (κ × ℕ)) : Prop := ∀ k n, ids.lookup k = some n → ids'.lookup k = some n

omit [LawfulBEq κ] in
lemma Keeps.refl (ids : List (κ × ℕ)) : Keeps ids ids := fun _ _ h => h

omit [LawfulBEq κ] in
lemma Keeps.trans (h : Keeps ids ids') (h' : Keeps ids' ids'') : Keeps ids ids'' :=
  fun k n hk => h' k n (h k n hk)

lemma Keeps.cons {n : ℕ} (hnew : ids.lookup key = none) : Keeps ids ((key, n) :: ids) := by
  intro k m hk
  rw [List.lookup_cons]
  cases heq : k == key with
  | true =>
    rw [eq_of_beq heq, hnew] at hk
    cases hk
  | false => exact hk

end Skyrise

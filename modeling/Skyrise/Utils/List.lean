/-
Lists: indices, and folds that accumulate modulo a number.
-/
import Mathlib.Data.List.Basic
import Mathlib.Data.List.Forall2
import Mathlib.Data.Int.ModEq
import Mathlib.Tactic.Ring

namespace List

variable {α β : Type*}

/-- The entries with their indices, index by index. -/
lemma zipIdx_eq_map_range (l : List α) (d : α) :
    l.zipIdx = (List.range l.length).map fun i => (l.getD i d, i) := by
  apply List.ext_getElem
  · simp
  · intro i h₁ h₂
    have hi : i < l.length := by simpa using h₁
    simp [hi]

lemma flatMap_zipIdx (l : List α) (f : α → List β) :
    (l.zipIdx.flatMap fun xi => f xi.1) = l.flatMap f := by
  conv_rhs => rw [← List.zipIdx_map_fst 0 l]
  rw [List.flatMap_map]

/-- Images of related entries. -/
lemma map_eq_map_of_forall₂ {γ : Type*} {f : α → γ} {g : β → γ} {l : List α} {l' : List β}
    (h : Forall₂ (fun a b => f a = g b) l l') : l.map f = l'.map g := by
  rw [← forall₂_eq_eq_eq]
  exact forall₂_map_left_iff.mpr (forall₂_map_right_iff.mpr h)

/-- Concatenations of permuted parts. -/
lemma flatMap_perm_of_forall₂ {ι : Type*} {f : ι → List β} {g : α → List β} {is : List ι} {l : List α}
    (h : List.Forall₂ (fun i x => (g x).Perm (f i)) is l) : (l.flatMap g).Perm (is.flatMap f) := by
  induction h with
  | nil => exact List.Perm.refl _
  | cons hx _ ih => exact hx.append ih

/-- Concatenations of equal parts. -/
lemma flatMap_eq_of_forall₂ {ι : Type*} {f : ι → List β} {g : α → List β} {is : List ι} {l : List α}
    (h : List.Forall₂ (fun i x => g x = f i) is l) : l.flatMap g = is.flatMap f := by
  induction h with
  | nil => rfl
  | cons hx _ ih => rw [flatMap_cons, flatMap_cons, hx, ih]

/-- Two lists of one length have the same images if the entries at every position do. -/
lemma map_eq_map_iff_zip {γ : Type*} {f : α → γ} {g : β → γ} {l : List α} {m : List β}
    (hlength : l.length = m.length) :
    l.map f = m.map g ↔ ∀ a b, (a, b) ∈ l.zip m → f a = g b := by
  rw [← List.forall₂_eq_eq_eq, List.forall₂_map_left_iff, List.forall₂_map_right_iff,
    List.forall₂_iff_zip, and_iff_right hlength]

/-- Consecutive blocks of one size make up a prefix of the list. -/
lemma flatMap_range_take_drop (l : List α) (c n : ℕ) :
    ((List.range n).flatMap fun i => (l.drop (i * c)).take c) = l.take (n * c) := by
  induction n with
  | zero => simp
  | succ n ih =>
    rw [range_succ, flatMap_append, ih, flatMap_cons, flatMap_nil, append_nil, Nat.succ_mul,
      take_add]

/-- A fold over entries none of which changes the state. -/
lemma foldl_eq_self {f : β → α → β} {s : β} {l : List α} (h : ∀ x ∈ l, f s x = s) :
    l.foldl f s = s := by
  induction l with
  | nil => rfl
  | cons x l ih =>
    rw [List.foldl_cons, h x List.mem_cons_self]
    exact ih fun y hy => h y (List.mem_cons_of_mem x hy)

/-- What is related to one element each. -/
lemma Forall₂.forall_mem_right {r : α → β → Prop} {P : β → Prop} {l : List α}
    {l' : List β} (h : Forall₂ r l l') (hP : ∀ a ∈ l, ∀ b, r a b → P b) : ∀ b ∈ l', P b := by
  induction h with
  | nil => exact fun _ hb => absurd hb not_mem_nil
  | @cons a b l l' hab _ ih =>
    rw [forall_mem_cons] at hP
    exact forall_mem_cons.mpr ⟨hP.1 b hab, ih hP.2⟩

lemma Forall₂.imp_of_mem {r r' : α → β → Prop} {l : List α} {l' : List β} (h : Forall₂ r l l')
    (himp : ∀ a ∈ l, ∀ b, r a b → r' a b) : Forall₂ r' l l' := by
  induction h with
  | nil => exact .nil
  | @cons a b l l' hab _ ih =>
    rw [forall_mem_cons] at himp
    exact .cons (himp.1 b hab) (ih himp.2)

lemma Forall₂.exists_of_mem {r : α → β → Prop} {l : List α} {l' : List β} (h : Forall₂ r l l')
    {a : α} (ha : a ∈ l) : ∃ b ∈ l', r a b := by
  obtain ⟨i, hi, rfl⟩ := getElem_of_mem ha
  exact ⟨_, getElem_mem (h.length_eq ▸ hi), h.get hi (h.length_eq ▸ hi)⟩

lemma Forall₂.comp {γ : Type*} {r : α → β → Prop} {r' : β → γ → Prop} {r'' : α → γ → Prop}
    {l : List α} {l' : List β} {l'' : List γ} (h : Forall₂ r l l') (h' : Forall₂ r' l' l'')
    (hcomp : ∀ a ∈ l, ∀ b c, r a b → r' b c → r'' a c) : Forall₂ r'' l l'' := by
  induction h generalizing l'' with
  | nil =>
    rw [forall₂_nil_left_iff.mp h']
    exact .nil
  | @cons a b l l' hab _ ih =>
    obtain ⟨c, l'', hbc, htail, rfl⟩ := forall₂_cons_left_iff.mp h'
    rw [forall_mem_cons] at hcomp
    exact .cons (hcomp.1 b c hab hbc) (ih htail hcomp.2)

end List

/-- A sum that is reduced after every step is the reduced sum. -/
lemma List.foldl_bmod {α : Type*} (f : α → ℕ) (m : ℕ) (l : List α) (z : ℤ) :
    l.foldl (fun (sum : ℤ) x => (sum + f x).bmod m) (z.bmod m) = (z + (l.map f).sum).bmod m := by
  induction l generalizing z with
  | nil => simp
  | cons x l ih =>
    rw [List.foldl_cons, Int.bmod_add_bmod, ih]
    congr 1
    push_cast [List.map_cons, List.sum_cons]
    ring

/-- As a signed 32-bit number, a natural number is negative iff its remainder has the sign bit. -/
lemma Nat.bmod_neg_iff (n : ℕ) : ((n : ℤ).bmod (2 ^ 32) < 0) ↔ 2 ^ 31 ≤ n % 2 ^ 32 := by
  rw [Int.bmod_def]
  omega

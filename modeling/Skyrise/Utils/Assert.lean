/-
Exceptions.

`Assert` and `Fail` throw an exception that carries their message, in front of
which the program puts the source position.  The standard library throws by
itself where an access or a capacity is out of bounds or a variant holds another
type, and a division by zero traps.  Fallible code returns in `Except Exception`.
-/
import Mathlib.Data.List.Forall2

namespace Skyrise

/-- The ways in which the modelled code fails. -/
inductive Exception where
  /-- An assertion of the program failed; the message without the source position. -/
  | assertionFailed (message : String)
  /-- `at` was called with an index beyond the size. -/
  | outOfRange
  /-- `reserve` was called with a capacity beyond the maximum. -/
  | lengthError
  /-- A variant was asked for a type that it does not hold. -/
  | badVariantAccess
  /-- An integer was divided by zero. -/
  | divisionByZero
  /-- `value` was called on an empty optional. -/
  | badOptionalAccess
  /-- Memory was read that holds no value of the vector or object that it was read from, or a
  signed number overflowed. -/
  | undefinedBehavior
  /-- A `std::logic_error` was thrown. -/
  | logicError (message : String)
  /-- The Parquet library has no such row group or column. -/
  | parquetException
deriving DecidableEq, Repr

/-- `Assert(condition, message)`. -/
def assert (condition : Bool) (message : String) : Except Exception Unit :=
  if condition then .ok () else .error (.assertionFailed message)

@[simp] lemma assert_true (message : String) : assert true message = .ok () := rfl

@[simp] lemma assert_false (message : String) :
    assert false message = .error (.assertionFailed message) := rfl

lemma mapM_congr_of_mem {α β ε : Type} {f g : α → Except ε β} {l : List α}
    (h : ∀ a ∈ l, f a = g a) : l.mapM f = l.mapM g := by
  induction l with
  | nil => rfl
  | cons a l ih =>
    rw [List.forall_mem_cons] at h
    rw [List.mapM_cons, List.mapM_cons, h.1, ih h.2]

/-- A loop whose body succeeds for every element collects the results. -/
lemma mapM_eq_ok {α β ε : Type} {f : α → Except ε β} {g : α → β} {xs : List α}
    (h : ∀ x ∈ xs, f x = .ok (g x)) : xs.mapM f = .ok (xs.map g) := by
  induction xs with
  | nil => rfl
  | cons x xs ih =>
    rw [List.mapM_cons, h x List.mem_cons_self, ih fun y hy => h y (List.mem_cons_of_mem x hy)]
    rfl

/-- A loop succeeds with the results that its body has for the elements. -/
lemma mapM_eq_ok_iff {α β ε : Type} {f : α → Except ε β} {xs : List α} {ys : List β} :
    xs.mapM f = .ok ys ↔ List.Forall₂ (fun x y => f x = .ok y) xs ys := by
  induction xs generalizing ys with
  | nil =>
    rw [List.mapM_nil, List.forall₂_nil_left_iff]
    exact ⟨fun h => (Except.ok.inj h).symm, fun h => congrArg _ h.symm⟩
  | cons x xs ih =>
    rw [List.mapM_cons]
    cases hx : f x with
    | error e =>
      constructor
      · intro h
        cases h
      · intro h
        cases h with
        | cons hy _ =>
          rw [hx] at hy
          cases hy
    | ok y =>
      cases hxs : xs.mapM f with
      | error e =>
        constructor
        · intro h
          cases h
        · intro h
          cases h with
          | cons _ hys =>
            rw [ih.mpr hys] at hxs
            cases hxs
      | ok ys' =>
        constructor
        · intro h
          cases h
          exact List.Forall₂.cons hx (ih.mp hxs)
        · intro h
          cases h with
          | cons hy hys =>
            rw [hx] at hy
            rw [ih.mpr hys] at hxs
            cases hy
            cases hxs
            rfl

/-- A loop whose body succeeds with some result for every element. -/
lemma exists_mapM_eq_ok {α β ε : Type} {f : α → Except ε β} {P : α → β → Prop} (xs : List α)
    (h : ∀ x ∈ xs, ∃ y, f x = .ok y ∧ P x y) : ∃ ys, xs.mapM f = .ok ys ∧ List.Forall₂ P xs ys := by
  induction xs with
  | nil => exact ⟨[], rfl, List.Forall₂.nil⟩
  | cons x xs ih =>
    obtain ⟨y, hy, hP⟩ := h x List.mem_cons_self
    obtain ⟨ys, hys, hPs⟩ := ih fun z hz => h z (List.mem_cons_of_mem x hz)
    refine ⟨y :: ys, ?_, List.Forall₂.cons hP hPs⟩
    rw [List.mapM_cons, hy, hys]
    rfl

/-- A loop succeeds if and only if its body does for every element. -/
lemma exists_mapM_eq_ok_iff {α β ε : Type} {f : α → Except ε β} {xs : List α} :
    (∃ ys, xs.mapM f = .ok ys) ↔ ∀ x ∈ xs, ∃ y, f x = .ok y := by
  constructor
  · rintro ⟨ys, h⟩
    rw [mapM_eq_ok_iff] at h
    induction h with
    | nil => exact fun x hx => absurd hx List.not_mem_nil
    | @cons x y xs ys hxy _ ih => exact List.forall_mem_cons.mpr ⟨⟨y, hxy⟩, ih⟩
  · intro h
    obtain ⟨ys, hys, -⟩ := exists_mapM_eq_ok (P := fun _ _ => True) xs fun x hx => by
      obtain ⟨y, hy⟩ := h x hx
      exact ⟨y, hy, trivial⟩
    exact ⟨ys, hys⟩

/-- What is computed from a result needs that result. -/
lemma exists_of_bind_eq_ok {α β ε : Type} {x : Except ε α} {f : α → Except ε β} {b : β}
    (h : x.bind f = .ok b) : ∃ a, x = .ok a ∧ f a = .ok b := by
  cases x with
  | error exception => cases h
  | ok a => exact ⟨a, rfl, h⟩

/-- A loop without results succeeds if and only if its body does for every element. -/
lemma forM_eq_ok_iff {α ε : Type} {f : α → Except ε Unit} {xs : List α} :
    xs.forM f = .ok () ↔ ∀ x ∈ xs, f x = .ok () := by
  induction xs with
  | nil => exact ⟨fun _ _ hx => absurd hx List.not_mem_nil, fun _ => rfl⟩
  | cons x xs ih =>
    rw [List.forall_mem_cons, ← ih]
    show (f x).bind (fun _ => xs.forM f) = .ok () ↔ _
    constructor
    · intro h
      obtain ⟨⟨⟩, hx, hxs⟩ := exists_of_bind_eq_ok h
      exact ⟨hx, hxs⟩
    · rintro ⟨hx, hxs⟩
      rw [hx]
      exact hxs

/-- A loop whose body throws at the first element throws. -/
lemma mapM_eq_error {α β ε : Type} {f : α → Except ε β} {e : ε} {xs : List α} (hne : xs ≠ [])
    (h : ∀ x ∈ xs, f x = .error e) : xs.mapM f = .error e := by
  cases xs with
  | nil => exact absurd rfl hne
  | cons x xs =>
    rw [List.mapM_cons, h x List.mem_cons_self]
    rfl

/-- A loop whose body succeeds and keeps an invariant. -/
lemma foldlM_range_ok {σ ε : Type*} {f : σ → ℕ → Except ε σ} (inv : ℕ → σ → Prop) {n : ℕ} {s : σ}
    (hstart : inv 0 s)
    (hstep : ∀ k < n, ∀ s, inv k s → ∃ s', f s k = .ok s' ∧ inv (k + 1) s') :
    ∃ s', (List.range n).foldlM f s = .ok s' ∧ inv n s' := by
  induction n with
  | zero => exact ⟨s, rfl, hstart⟩
  | succ n ih =>
    obtain ⟨s₁, h₁, hinv₁⟩ := ih fun k hk => hstep k (Nat.lt_succ_of_lt hk)
    obtain ⟨s₂, h₂, hinv₂⟩ := hstep n (Nat.lt_succ_self n) s₁ hinv₁
    refine ⟨s₂, ?_, hinv₂⟩
    rw [List.range_succ, List.foldlM_append, h₁]
    show (List.foldlM f s₁ [n]) = _
    rw [List.foldlM_cons, h₂]
    rfl

/-- If a loop over the first numbers succeeds, then its invariant, which every pass that succeeds
keeps, holds in the end. -/
lemma of_foldlM_range_eq_ok {σ ε : Type*} {f : σ → ℕ → Except ε σ} (inv : ℕ → σ → Prop) {n : ℕ}
    {s s' : σ} (h : (List.range n).foldlM f s = .ok s') (hstart : inv 0 s)
    (hstep : ∀ k < n, ∀ s s', inv k s → f s k = .ok s' → inv (k + 1) s') : inv n s' := by
  induction n generalizing s' with
  | zero =>
    obtain rfl : s = s' := Except.ok.inj h
    exact hstart
  | succ n ih =>
    rw [List.range_succ, List.foldlM_append] at h
    cases hfirst : (List.range n).foldlM f s with
    | error e =>
      rw [hfirst] at h
      cases h
    | ok s₁ =>
      rw [hfirst] at h
      have hlast : f s₁ n = .ok s' := by
        change (List.foldlM f s₁ [n]) = _ at h
        rw [List.foldlM_cons] at h
        cases hn : f s₁ n with
        | error e =>
          rw [hn] at h
          cases h
        | ok s₂ =>
          rw [hn] at h
          exact h
      have hinv := ih hfirst fun k hk => hstep k (Nat.lt_succ_of_lt hk)
      exact hstep n (Nat.lt_succ_self n) s₁ s' hinv hlast

/-- If a loop succeeds, then its body succeeded for every element. -/
lemma exists_of_foldlM_eq_ok {σ ε α : Type*} {f : σ → α → Except ε σ} {xs : List α} {s s' : σ}
    (h : xs.foldlM f s = .ok s') {x : α} (hx : x ∈ xs) : ∃ s₁ s₂, f s₁ x = .ok s₂ := by
  induction xs generalizing s with
  | nil => exact absurd hx List.not_mem_nil
  | cons y ys ih =>
    rw [List.foldlM_cons] at h
    cases hy : f s y with
    | error e =>
      rw [hy] at h
      cases h
    | ok s₁ =>
      rw [hy] at h
      rcases List.mem_cons.mp hx with rfl | hx
      · exact ⟨s, s₁, hy⟩
      · exact ih h hx

end Skyrise

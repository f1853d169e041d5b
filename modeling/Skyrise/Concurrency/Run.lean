/-
Runs of a transition system.

A labelled transition system is a relation between a state, a label and the next
state.  A run is a sequence of its steps; what one step preserves, a run
preserves, also when only the steps whose labels satisfy a condition do.  In a
history of events one event may have to come before another.
-/
import Mathlib.Data.List.Basic

namespace Concurrency

variable {σ α : Type*} {step : σ → α → σ → Prop} {s₀ s t : σ} {a : α} {as : List α}

/-- The runs from a state: the labels of the steps, the first step first, and the state after
them. -/
inductive Run (step : σ → α → σ → Prop) (s₀ : σ) : List α → σ → Prop
  /-- The run without steps. -/
  | nil : Run step s₀ [] s₀
  /-- One more step. -/
  | snoc {as : List α} {s : σ} {a : α} {t : σ} :
      Run step s₀ as s → step s a t → Run step s₀ (as ++ [a]) t

/-- The states that some run reaches. -/
def Reachable (step : σ → α → σ → Prop) (s₀ s : σ) : Prop :=
  ∃ as, Run step s₀ as s

namespace Run

lemma single (h : step s₀ a s) : Run step s₀ [a] s := nil.snoc h

lemma trans {bs : List α} (h : Run step s₀ as s) (h' : Run step s bs t) :
    Run step s₀ (as ++ bs) t := by
  induction h' with
  | nil => rwa [List.append_nil]
  | snoc _ hlast ih =>
    rw [← List.append_assoc]
    exact ih.snoc hlast

/-- A run of a system is one of every system that has its steps. -/
lemma mono {step' : σ → α → σ → Prop} (h : Run step s₀ as s)
    (himp : ∀ s a t, step s a t → step' s a t) : Run step' s₀ as s := by
  induction h with
  | nil => exact .nil
  | snoc _ hlast ih => exact ih.snoc (himp _ _ _ hlast)

/-- **A property that every step preserves**, where the label meets the condition, holds after
every run whose labels meet it. -/
theorem invariant_of_forall {P : α → Prop} {I : σ → Prop} (h₀ : I s₀)
    (hstep : ∀ s a t, P a → I s → step s a t → I t) (h : Run step s₀ as s)
    (has : ∀ a ∈ as, P a) : I s := by
  induction h with
  | nil => exact h₀
  | snoc hrun hlast ih =>
    refine hstep _ _ _ (has _ (List.mem_append_right _ (List.mem_singleton_self _))) (ih ?_) hlast
    exact fun b hb => has b (List.mem_append_left _ hb)

/-- **An invariant** of the steps holds after every run. -/
theorem invariant {I : σ → Prop} (h₀ : I s₀) (hstep : ∀ s a t, I s → step s a t → I t)
    (h : Run step s₀ as s) : I s :=
  h.invariant_of_forall (P := fun _ => True) h₀ (fun s a t _ => hstep s a t) fun _ _ => trivial

end Run

namespace Reachable

lemma refl : Reachable step s₀ s₀ := ⟨[], .nil⟩

lemma tail (h : Reachable step s₀ s) (hst : step s a t) : Reachable step s₀ t :=
  let ⟨_, hrun⟩ := h
  ⟨_, hrun.snoc hst⟩

lemma invariant {I : σ → Prop} (h₀ : I s₀) (hstep : ∀ s a t, I s → step s a t → I t)
    (h : Reachable step s₀ s) : I s :=
  let ⟨_, hrun⟩ := h
  hrun.invariant h₀ hstep

end Reachable

/-! ### Histories -/

section Before

variable {ε : Type*} {e₁ e₂ e : ε} {events : List ε}

/-- Wherever the second event stands in a history, the first stands before it. -/
def Before (e₁ e₂ : ε) (events : List ε) : Prop :=
  ∀ before after, events = before ++ e₂ :: after → e₁ ∈ before

lemma before_nil : Before e₁ e₂ [] := by
  intro before after h
  cases before <;> cases h

/-- A history that gets one more event. -/
lemma Before.append (h : Before e₁ e₂ events) (hlast : e = e₂ → e₁ ∈ events) :
    Before e₁ e₂ (events ++ [e]) := by
  intro before after hsplit
  rcases List.eq_nil_or_concat after with rfl | ⟨after, e', rfl⟩
  · obtain ⟨rfl, he⟩ := List.append_inj' hsplit rfl
    exact hlast (List.singleton_inj.mp he)
  · rw [List.concat_eq_append, ← List.cons_append, ← List.append_assoc] at hsplit
    exact h before after (List.append_inj' hsplit rfl).1

end Before

end Concurrency

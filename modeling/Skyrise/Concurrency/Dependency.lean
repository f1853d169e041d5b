/-
Dependencies.

A relation without cycles on finitely many nodes has, among the nodes with a
property, one none of whose predecessors has it.  A scheduler keeps for every
node the number of its predecessors that are not done, and lowers the numbers of
the successors of a node that is done.  A counter is an unsigned machine integer
that remembers whether it was ever taken below zero.
-/
import Mathlib.Algebra.Group.Nat.Defs
import Mathlib.Data.Fintype.Card
import Mathlib.Data.Fintype.EquivFin
import Mathlib.Data.Fintype.Sets
import Mathlib.Data.List.Count
import Mathlib.Logic.Relation
import Mathlib.Order.WellFounded

namespace Concurrency

variable {ι : Type*}

/-! ### Relations without cycles -/

/-- No node is reached from itself. -/
def Acyclic (r : ι → ι → Prop) : Prop := ∀ a, ¬ Relation.TransGen r a a

/-- A relation along which a rank increases has no cycles. -/
lemma Acyclic.of_rank {r : ι → ι → Prop} (rank : ι → ℕ) (h : ∀ a b, r a b → rank a < rank b) :
    Acyclic r := by
  have hlt : ∀ a b, Relation.TransGen r a b → rank a < rank b := by
    intro a b hab
    induction hab with
    | single hab => exact h _ _ hab
    | tail _ hbc ih => exact ih.trans (h _ _ hbc)
  exact fun a ha => Nat.lt_irrefl _ (hlt a a ha)

/-- Of finitely many nodes, some of which have a property, one has it and its predecessors do
not. -/
lemma Acyclic.exists_minimal {r : ι → ι → Prop} (h : Acyclic r) (nodes : List ι) {P : ι → Prop}
    (hex : ∃ a ∈ nodes, P a) : ∃ a ∈ nodes, P a ∧ ∀ b ∈ nodes, r b a → ¬ P b := by
  classical
  let below : {a // a ∈ nodes} → {a // a ∈ nodes} → Prop := fun b a => Relation.TransGen r b a
  have htrans : IsTrans _ below := ⟨fun _ _ _ hab hbc => hab.trans hbc⟩
  have hirrefl : Std.Irrefl below := ⟨fun a => h a⟩
  have hwf : WellFounded below := Finite.wellFounded_of_trans_of_irrefl below
  obtain ⟨a, ha, hPa⟩ := hex
  obtain ⟨m, hm, hmin⟩ := hwf.has_min {a | P a.1} ⟨⟨a, ha⟩, hPa⟩
  exact ⟨m.1, m.2, hm, fun b hb hr hPb => hmin ⟨b, hb⟩ hPb (Relation.TransGen.single hr)⟩

/-! ### Counting the predecessors that are not done -/

variable [DecidableEq ι]

/-- Once one more node is done, as many fewer of the predecessors are not done as there are links
from it. -/
lemma countP_not_done_add_count {done done' : ι → Bool} {m : ι} (hm : done m = false)
    (hdone : ∀ a, done' a = (done a || decide (a = m))) (l : List ι) :
    (l.countP fun a => !done' a) + l.count m = l.countP fun a => !done a := by
  induction l with
  | nil => rfl
  | cons a l ih =>
    rcases eq_or_ne a m with rfl | hne
    · simp [hdone, hm, ← ih]
      omega
    · rw [List.count_cons_of_ne hne, List.countP_cons, List.countP_cons, ← ih]
      simp only [hdone a, hne, decide_false, Bool.or_false]
      omega

/-! ### Counters -/

/-- An unsigned counter. -/
structure Counter where
  /-- The value. -/
  value : ℕ
  /-- Whether a decrement found the value zero. -/
  underflowed : Bool := false
deriving DecidableEq, Repr

namespace Counter

/-- Subtracts one from a counter with some number of bits; zero wraps around. -/
def decrementBits (width : ℕ) (c : Counter) : Counter :=
  if c.value = 0 then ⟨2 ^ width - 1, true⟩ else ⟨c.value - 1, c.underflowed⟩

/-- Subtracts one from a 64-bit counter. -/
def decrement (c : Counter) : Counter := c.decrementBits 64

/-- Adds one to a 64-bit counter. -/
def increment (c : Counter) : Counter := { c with value := (c.value + 1) % 2 ^ 64 }

lemma decrementBits_succ (width n : ℕ) (b : Bool) : decrementBits width ⟨n + 1, b⟩ = ⟨n, b⟩ := rfl

lemma decrement_succ (n : ℕ) (b : Bool) : decrement ⟨n + 1, b⟩ = ⟨n, b⟩ := rfl

/-- Decrements of a counter that is large enough subtract their number. -/
lemma iterate_decrement {c : Counter} {k n : ℕ} (hc : c = ⟨n + k, false⟩) :
    decrement^[k] c = ⟨n, false⟩ := by
  induction k generalizing c with
  | zero => exact hc
  | succ k ih =>
    rw [Function.iterate_succ_apply]
    exact ih (by rw [hc, ← Nat.add_assoc, decrement_succ])

end Counter

end Concurrency

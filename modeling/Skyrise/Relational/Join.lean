/-
Joins of lists.

The inner join of two lists on a predicate, the entries of either list that have
no partner, and the outer join, which keeps the unmatched entries of the sides
it preserves.  Results are compared up to the order of the entries: a join does
not depend on the order of its inputs, the two sides can be exchanged, and a
join is the union of the joins of the parts into which both inputs are split by
keys that agree on matching entries.
-/
import Mathlib.Data.List.Basic
import Mathlib.Data.List.Nodup
import Mathlib.Data.List.Perm.Basic

namespace Relational

variable {α β γ δ α' β' ι : Type*}

/-- The pairs of entries that satisfy the predicate. -/
def innerJoin (p : α → β → Bool) (l : List α) (r : List β) : List (α × β) :=
  l.flatMap fun a => (r.filter (p a)).map (Prod.mk a)

/-- The entries of the left list without a partner. -/
def danglingLeft (p : α → β → Bool) (l : List α) (r : List β) : List α :=
  l.filter fun a => !r.any (p a)

/-- The entries of the right list without a partner. -/
def danglingRight (p : α → β → Bool) (l : List α) (r : List β) : List β :=
  r.filter fun b => !l.any fun a => p a b

/-- The matching pairs and, of the sides that are kept, the entries without a partner. -/
def outerJoin (keepLeft keepRight : Bool) (p : α → β → Bool) (both : α → β → γ) (left : α → γ)
    (right : β → γ) (l : List α) (r : List β) : List γ :=
  (innerJoin p l r).map (fun ab => both ab.1 ab.2) ++
    ((if keepLeft then (danglingLeft p l r).map left else []) ++
      if keepRight then (danglingRight p l r).map right else [])

/-! ### Membership and duplicates -/

@[simp] lemma innerJoin_nil_left (p : α → β → Bool) (r : List β) : innerJoin p [] r = [] := rfl

@[simp] lemma innerJoin_nil_right (p : α → β → Bool) (l : List α) : innerJoin p l [] = [] := by
  simp [innerJoin, List.flatMap_eq_nil_iff]

lemma innerJoin_cons_left (p : α → β → Bool) (a : α) (l : List α) (r : List β) :
    innerJoin p (a :: l) r = (r.filter (p a)).map (Prod.mk a) ++ innerJoin p l r := rfl

@[simp] lemma mem_innerJoin {p : α → β → Bool} {l : List α} {r : List β} {ab : α × β} :
    ab ∈ innerJoin p l r ↔ ab.1 ∈ l ∧ ab.2 ∈ r ∧ p ab.1 ab.2 := by
  obtain ⟨a, b⟩ := ab
  simp only [innerJoin, List.mem_flatMap, List.mem_map, List.mem_filter, Prod.mk.injEq]
  constructor
  · rintro ⟨a', ha, b', ⟨hb, hp⟩, rfl, rfl⟩
    exact ⟨ha, hb, hp⟩
  · rintro ⟨ha, hb, hp⟩
    exact ⟨a, ha, b, ⟨hb, hp⟩, rfl, rfl⟩

lemma mem_danglingLeft {p : α → β → Bool} {l : List α} {r : List β} {a : α} :
    a ∈ danglingLeft p l r ↔ a ∈ l ∧ ∀ b ∈ r, p a b = false := by
  simp [danglingLeft]

lemma mem_danglingRight {p : α → β → Bool} {l : List α} {r : List β} {b : β} :
    b ∈ danglingRight p l r ↔ b ∈ r ∧ ∀ a ∈ l, p a b = false := by
  simp [danglingRight]

/-! ### Exchanging the sides -/

/-- The pairs of one list with the first entry of the other, in front of the remaining pairs. -/
lemma innerJoin_cons_right (p : α → β → Bool) (l : List α) (b : β) (r : List β) :
    (innerJoin p l (b :: r)).Perm
      ((l.filter fun a => p a b).map (fun a => (a, b)) ++ innerJoin p l r) := by
  induction l with
  | nil => simp
  | cons a l ih =>
    rw [innerJoin_cons_left, innerJoin_cons_left]
    cases hab : p a b with
    | false =>
      simp only [List.filter_cons, hab, Bool.false_eq_true, if_false]
      refine (ih.append_left _).trans ?_
      rw [← List.append_assoc, ← List.append_assoc]
      exact List.perm_append_comm.append_right _
    | true =>
      simp only [List.filter_cons, hab, if_true, List.map_cons, List.cons_append]
      refine List.Perm.cons _ ((ih.append_left _).trans ?_)
      rw [← List.append_assoc, ← List.append_assoc]
      exact List.perm_append_comm.append_right _

/-- Joining with the sides exchanged gives the exchanged pairs. -/
lemma innerJoin_swap (p : α → β → Bool) (l : List α) (r : List β) :
    ((innerJoin (fun b a => p a b) r l).map Prod.swap).Perm (innerJoin p l r) := by
  induction r with
  | nil => simp
  | cons b r ih =>
    rw [innerJoin_cons_left, List.map_append, List.map_map]
    exact (ih.append_left _).trans (innerJoin_cons_right p l b r).symm

/-! ### Maps, congruence and permutations -/

lemma innerJoin_map (p : α → β → Bool) (f : α' → α) (g : β' → β) (l : List α') (r : List β') :
    innerJoin p (l.map f) (r.map g) =
      (innerJoin (fun a b => p (f a) (g b)) l r).map (Prod.map f g) := by
  simp [innerJoin, List.flatMap_map, List.map_flatMap, List.filter_map, Function.comp_def]

lemma danglingLeft_map (p : α → β → Bool) (f : α' → α) (g : β' → β) (l : List α') (r : List β') :
    danglingLeft p (l.map f) (r.map g) =
      (danglingLeft (fun a b => p (f a) (g b)) l r).map f := by
  simp [danglingLeft, List.filter_map, Function.comp_def]

lemma danglingRight_map (p : α → β → Bool) (f : α' → α) (g : β' → β) (l : List α') (r : List β') :
    danglingRight p (l.map f) (r.map g) =
      (danglingRight (fun a b => p (f a) (g b)) l r).map g := by
  simp [danglingRight, List.filter_map, Function.comp_def]

/-- A join of images is the join of the preimages on the pulled back predicate. -/
lemma outerJoin_map (keepLeft keepRight : Bool) (p : α → β → Bool) (both : α → β → γ) (left : α → γ)
    (right : β → γ) (f : α' → α) (g : β' → β) (l : List α') (r : List β') :
    outerJoin keepLeft keepRight p both left right (l.map f) (r.map g) =
      outerJoin keepLeft keepRight (fun a b => p (f a) (g b)) (fun a b => both (f a) (g b))
        (fun a => left (f a)) (fun b => right (g b)) l r := by
  simp only [outerJoin, innerJoin_map, danglingLeft_map, danglingRight_map, List.map_map]
  rfl

lemma innerJoin_congr {p q : α → β → Bool} {l : List α} {r : List β}
    (h : ∀ a ∈ l, ∀ b ∈ r, p a b = q a b) : innerJoin p l r = innerJoin q l r :=
  List.flatMap_congr fun a ha => by rw [List.filter_congr (h a ha)]

lemma danglingLeft_congr {p q : α → β → Bool} {l : List α} {r : List β}
    (h : ∀ a ∈ l, ∀ b ∈ r, p a b = q a b) : danglingLeft p l r = danglingLeft q l r := by
  refine List.filter_congr fun a ha => ?_
  rw [Bool.eq_iff_iff]
  simp only [Bool.not_eq_true', List.any_eq_false]
  exact forall₂_congr fun b hb => by rw [h a ha b hb]

lemma danglingRight_congr {p q : α → β → Bool} {l : List α} {r : List β}
    (h : ∀ a ∈ l, ∀ b ∈ r, p a b = q a b) : danglingRight p l r = danglingRight q l r :=
  danglingLeft_congr fun b hb a ha => h a ha b hb

lemma outerJoin_congr {keepLeft keepRight : Bool} {p q : α → β → Bool} {both both' : α → β → γ}
    {left left' : α → γ} {right right' : β → γ} {l : List α} {r : List β}
    (h : ∀ a ∈ l, ∀ b ∈ r, p a b = q a b) (hboth : ∀ a ∈ l, ∀ b ∈ r, both a b = both' a b)
    (hleft : ∀ a ∈ l, left a = left' a) (hright : ∀ b ∈ r, right b = right' b) :
    outerJoin keepLeft keepRight p both left right l r =
      outerJoin keepLeft keepRight q both' left' right' l r := by
  have h₁ : (innerJoin q l r).map (fun ab => both ab.1 ab.2) =
      (innerJoin q l r).map fun ab => both' ab.1 ab.2 := by
    refine List.map_congr_left fun ab hab => ?_
    obtain ⟨ha, hb, -⟩ := mem_innerJoin.mp hab
    exact hboth _ ha _ hb
  have h₂ : (danglingLeft q l r).map left = (danglingLeft q l r).map left' :=
    List.map_congr_left fun a ha => hleft a (mem_danglingLeft.mp ha).1
  have h₃ : (danglingRight q l r).map right = (danglingRight q l r).map right' :=
    List.map_congr_left fun b hb => hright b (mem_danglingRight.mp hb).1
  rw [outerJoin, outerJoin, innerJoin_congr h, danglingLeft_congr h, danglingRight_congr h, h₁, h₂,
    h₃]

lemma innerJoin_perm {p : α → β → Bool} {l l' : List α} {r r' : List β} (hl : l.Perm l')
    (hr : r.Perm r') : (innerJoin p l r).Perm (innerJoin p l' r') :=
  (hl.flatMap_right _).trans (List.Perm.flatMap_left _ fun _ _ => (hr.filter _).map _)

lemma danglingLeft_perm {p : α → β → Bool} {l l' : List α} {r r' : List β} (hl : l.Perm l')
    (hr : r.Perm r') : (danglingLeft p l r).Perm (danglingLeft p l' r') := by
  have hany : ∀ a, r.any (p a) = r'.any (p a) := fun a => hr.any_eq
  simp only [danglingLeft, hany]
  exact hl.filter _

lemma danglingRight_perm {p : α → β → Bool} {l l' : List α} {r r' : List β} (hl : l.Perm l')
    (hr : r.Perm r') : (danglingRight p l r).Perm (danglingRight p l' r') :=
  danglingLeft_perm (p := fun b a => p a b) hr hl

/-- A join does not depend on the order of its inputs. -/
lemma outerJoin_perm {keepLeft keepRight : Bool} {p : α → β → Bool} {both : α → β → γ}
    {left : α → γ} {right : β → γ} {l l' : List α} {r r' : List β} (hl : l.Perm l')
    (hr : r.Perm r') : (outerJoin keepLeft keepRight p both left right l r).Perm
      (outerJoin keepLeft keepRight p both left right l' r') := by
  refine ((innerJoin_perm hl hr).map _).append (List.Perm.append ?_ ?_)
  · split
    · exact (danglingLeft_perm hl hr).map _
    · exact List.Perm.refl _
  · split
    · exact (danglingRight_perm hl hr).map _
    · exact List.Perm.refl _

/-! ### More entries -/

lemma innerJoin_append_left (p : α → β → Bool) (l l' : List α) (r : List β) :
    innerJoin p (l ++ l') r = innerJoin p l r ++ innerJoin p l' r := List.flatMap_append

lemma innerJoin_append_right (p : α → β → Bool) (l : List α) (r r' : List β) :
    (innerJoin p l r ++ innerJoin p l r').Perm (innerJoin p l (r ++ r')) := by
  simp only [innerJoin, List.filter_append, List.map_append]
  exact List.flatMap_append_perm _ _ _

/-- The pairs that one more entry of the right list adds. -/
lemma innerJoin_append_singleton (p : α → β → Bool) (l : List α) (r : List β) (b : β) :
    (innerJoin p l r ++ (l.filter fun a => p a b).map fun a => (a, b)).Perm
      (innerJoin p l (r ++ [b])) := by
  refine List.perm_append_comm.trans ((innerJoin_cons_right p l b r).symm.trans ?_)
  exact innerJoin_perm (List.Perm.refl _) (@List.perm_append_comm _ [b] r)

lemma danglingRight_append_singleton (p : α → β → Bool) (l : List α) (r : List β) (b : β) :
    danglingRight p l (r ++ [b]) =
      danglingRight p l r ++ if (l.any fun a => p a b) then [] else [b] := by
  rw [danglingRight, List.filter_append, ← danglingRight]
  cases h : l.any fun a => p a b <;> simp [h]

/-! ### Partitions -/

/-- The parts of a list, concatenated, are the list. -/
lemma flatMap_filter_perm [DecidableEq ι] {f : α → ι} {is : List ι} (his : is.Nodup) {l : List α}
    (hl : ∀ a ∈ l, f a ∈ is) : (is.flatMap fun i => l.filter fun a => f a = i).Perm l := by
  induction l with
  | nil => simp
  | cons a l ih =>
    have hrest := ih fun b hb => hl b (List.mem_cons_of_mem _ hb)
    refine List.Perm.trans ?_ (hrest.cons a)
    obtain ⟨is₁, is₂, rfl⟩ := List.append_of_mem (hl a List.mem_cons_self)
    have hne : ∀ i ∈ is₁ ++ is₂, f a ≠ i := by
      rintro i hi rfl
      have hdup := his
      simp only [List.nodup_append, List.nodup_cons, List.mem_cons, List.mem_append] at hdup hi
      rcases hi with hi | hi
      · exact hdup.2.2 _ hi _ (Or.inl rfl) rfl
      · exact hdup.2.1.1 hi
    have hskip : ∀ js : List ι, (∀ i ∈ js, f a ≠ i) →
        (js.flatMap fun i => (a :: l).filter fun b => f b = i) =
          js.flatMap fun i => l.filter fun b => f b = i := by
      intro js hjs
      refine List.flatMap_congr fun i hi => ?_
      simp [hjs i hi]
    rw [List.flatMap_append, List.flatMap_cons, List.flatMap_append, List.flatMap_cons,
      hskip is₁ fun i hi => hne i (List.mem_append_left _ hi),
      hskip is₂ fun i hi => hne i (List.mem_append_right _ hi)]
    simp only [List.filter_cons, decide_true, if_true, List.cons_append]
    exact List.perm_middle

lemma filter_innerJoin (p : α → β → Bool) (q : α → Bool) (l : List α) (r : List β) :
    (innerJoin p l r).filter (fun ab => q ab.1) = innerJoin p (l.filter q) r := by
  induction l with
  | nil => simp
  | cons a l ih =>
    rw [innerJoin_cons_left, List.filter_append, ih]
    cases hqa : q a with
    | false => simp [hqa, List.filter_map, Function.comp_def]
    | true => simp [hqa, List.filter_map, Function.comp_def, innerJoin_cons_left]

/-- If matching entries have the same key, then only the entries of one key can be the partners of
an entry with that key. -/
lemma innerJoin_filter_right [DecidableEq ι] {p : α → β → Bool} {f : α → ι} {g : β → ι} {i : ι}
    {l : List α} {r : List β} (hfg : ∀ a ∈ l, ∀ b ∈ r, p a b → f a = g b)
    (hl : ∀ a ∈ l, f a = i) :
    innerJoin p l (r.filter fun b => g b = i) = innerJoin p l r := by
  refine List.flatMap_congr fun a ha => ?_
  rw [List.filter_filter]
  refine congrArg _ (List.filter_congr fun b hb => ?_)
  cases hp : p a b with
  | false => rfl
  | true => simp [← hfg a ha b hb hp, hl a ha]

lemma danglingLeft_filter_right [DecidableEq ι] {p : α → β → Bool} {f : α → ι} {g : β → ι} {i : ι}
    {l : List α} {r : List β} (hfg : ∀ a ∈ l, ∀ b ∈ r, p a b → f a = g b)
    (hl : ∀ a ∈ l, f a = i) :
    danglingLeft p l (r.filter fun b => g b = i) = danglingLeft p l r := by
  refine List.filter_congr fun a ha => ?_
  rw [Bool.eq_iff_iff]
  simp only [Bool.not_eq_true', List.any_eq_false, List.mem_filter, decide_eq_true_eq]
  constructor
  · intro h b hb hp
    exact h b ⟨hb, (hfg a ha b hb hp).symm.trans (hl a ha)⟩ hp
  · rintro h b ⟨hb, -⟩
    exact h b hb

lemma filter_danglingLeft (p : α → β → Bool) (q : α → Bool) (l : List α) (r : List β) :
    (danglingLeft p l r).filter q = danglingLeft p (l.filter q) r :=
  List.filter_comm _ _ _

section Partition

variable [DecidableEq ι] {p : α → β → Bool} {f : α → ι} {g : β → ι} {is : List ι} {l : List α}
  {r : List β}

lemma innerJoin_partition (his : is.Nodup) (hf : ∀ a ∈ l, f a ∈ is)
    (hfg : ∀ a ∈ l, ∀ b ∈ r, p a b → f a = g b) :
    (is.flatMap fun i => innerJoin p (l.filter fun a => f a = i) (r.filter fun b => g b = i)).Perm
      (innerJoin p l r) := by
  refine List.Perm.trans (List.Perm.of_eq ?_)
    (flatMap_filter_perm (f := fun ab : α × β => f ab.1) his fun ab hab => ?_)
  · refine List.flatMap_congr fun i _ => ?_
    rw [filter_innerJoin p (fun a => decide (f a = i))]
    refine innerJoin_filter_right (f := f) (fun a ha => hfg a (List.mem_of_mem_filter ha)) ?_
    intro a ha
    simpa using List.of_mem_filter ha
  · exact hf _ (mem_innerJoin.mp hab).1

lemma danglingLeft_partition (his : is.Nodup) (hf : ∀ a ∈ l, f a ∈ is)
    (hfg : ∀ a ∈ l, ∀ b ∈ r, p a b → f a = g b) :
    (is.flatMap fun i =>
      danglingLeft p (l.filter fun a => f a = i) (r.filter fun b => g b = i)).Perm
      (danglingLeft p l r) := by
  refine List.Perm.trans (List.Perm.of_eq ?_) (flatMap_filter_perm (f := f) his fun a ha => ?_)
  · refine List.flatMap_congr fun i _ => ?_
    rw [filter_danglingLeft]
    refine danglingLeft_filter_right (f := f) (fun a ha => hfg a (List.mem_of_mem_filter ha)) ?_
    intro a ha
    simpa using List.of_mem_filter ha
  · exact hf _ (mem_danglingLeft.mp ha).1

lemma danglingRight_partition (his : is.Nodup) (hg : ∀ b ∈ r, g b ∈ is)
    (hfg : ∀ a ∈ l, ∀ b ∈ r, p a b → f a = g b) :
    (is.flatMap fun i =>
      danglingRight p (l.filter fun a => f a = i) (r.filter fun b => g b = i)).Perm
      (danglingRight p l r) :=
  danglingLeft_partition (p := fun b a => p a b) his hg fun b hb a ha hp => (hfg a ha b hb hp).symm

/-- If both inputs are split by keys that agree on matching entries, then the joins of the parts
make up the join of the whole. -/
lemma outerJoin_partition (keepLeft keepRight : Bool) (both : α → β → γ) (left : α → γ)
    (right : β → γ) (his : is.Nodup) (hf : ∀ a ∈ l, f a ∈ is) (hg : ∀ b ∈ r, g b ∈ is)
    (hfg : ∀ a ∈ l, ∀ b ∈ r, p a b → f a = g b) :
    (is.flatMap fun i => outerJoin keepLeft keepRight p both left right
      (l.filter fun a => f a = i) (r.filter fun b => g b = i)).Perm
      (outerJoin keepLeft keepRight p both left right l r) := by
  simp only [outerJoin]
  refine (List.flatMap_append_perm _ _ _).symm.trans (List.Perm.append ?_ ?_)
  · rw [← List.map_flatMap]
    exact (innerJoin_partition his hf hfg).map _
  refine (List.flatMap_append_perm _ _ _).symm.trans (List.Perm.append ?_ ?_)
  · cases keepLeft
    · simp
    · simp only [if_true, ← List.map_flatMap]
      exact (danglingLeft_partition his hf hfg).map _
  · cases keepRight
    · simp
    · simp only [if_true, ← List.map_flatMap]
      exact (danglingRight_partition his hg hfg).map _

end Partition

end Relational

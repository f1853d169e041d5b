/-
Memoisation by keys.

A computation asks for results under keys, each of a kind, and a cache finds a result
by its key alone.  Evaluation with the cache is compared with evaluation without it: they
agree as long as no key is asked for with another kind than it was stored with.
-/
import Mathlib.Data.List.Basic
import Mathlib.Data.List.Forall2
import Mathlib.Order.Basic
import Mathlib.Data.Nat.Basic

namespace Skyrise

/-- A computation: it is done, or it calls another one under a key and a kind, and continues with
the result. -/
inductive Calls (κ τ ε β : Type) where
  | done (r : Except ε β)
  | call (key : κ) (kind : τ) (body : Calls κ τ ε β) (next : β → Calls κ τ ε β)

namespace Calls

variable {κ τ ε β : Type}

/-- Evaluation without a cache. -/
def run : Calls κ τ ε β → Except ε β
  | done r => r
  | call _ _ body next =>
    match body.run with
    | .ok b => (next b).run
    | .error e => .error e

section

variable [DecidableEq τ] (same : κ → κ → Bool)

/-- Evaluation with a cache, in which the first entry with the same key is found; nothing if the
entry is of another kind. -/
def runCached : Calls κ τ ε β → List (κ × τ × β) → Option (Except ε β × List (κ × τ × β))
  | done r, cache => some (r, cache)
  | call key kind body next, cache =>
    match cache.find? fun entry => same entry.1 key with
    | some entry => if entry.2.1 = kind then (next entry.2.2).runCached cache else none
    | none =>
      match body.runCached cache with
      | some (.ok b, cache) => (next b).runCached (cache ++ [(key, kind, b)])
      | some (.error e, cache) => some (.error e, cache)
      | none => none

/-- Evaluation without a cache that notes the kinds of the results; nothing if a key is called with
another kind than the first result of the same key had. -/
def runChecked : Calls κ τ ε β → List (κ × τ) → Option (Except ε β × List (κ × τ))
  | done r, noted => some (r, noted)
  | call key kind body next, noted =>
    match noted.find? fun entry => same entry.1 key with
    | some entry =>
      if entry.2 = kind then
        match body.runChecked noted with
        | some (.ok b, noted) => (next b).runChecked noted
        | some (.error e, noted) => some (.error e, noted)
        | none => none
      else none
    | none =>
      match body.runChecked noted with
      | some (.ok b, noted) => (next b).runChecked (noted ++ [(key, kind)])
      | some (.error e, noted) => some (.error e, noted)
      | none => none

end

/-- Computations whose keys have a rank below a bound and a property, and that call what a program
has for the key and the kind. -/
inductive Coherent (program : κ → τ → Calls κ τ ε β) (P : κ → Prop) (rank : κ → ℕ) :
    ℕ → Calls κ τ ε β → Prop
  | done (n : ℕ) (r : Except ε β) : Coherent program P rank n (done r)
  | call {n : ℕ} {key : κ} {kind : τ} {next : β → Calls κ τ ε β} (hP : P key) (hrank : rank key < n)
      (hbody : Coherent program P rank (rank key) (program key kind))
      (hnext : ∀ b, Coherent program P rank n (next b)) :
      Coherent program P rank n (call key kind (program key kind) next)

variable {program : κ → τ → Calls κ τ ε β} {P : κ → Prop} {rank : κ → ℕ} {n : ℕ}
  {p : Calls κ τ ε β}

lemma Coherent.mono {m : ℕ} (h : Coherent program P rank n p) (hle : n ≤ m) :
    Coherent program P rank m p := by
  induction h with
  | done n r => exact .done m r
  | call hP hrank hbody _ _ ihnext =>
    exact .call hP (lt_of_lt_of_le hrank hle) hbody fun b => ihnext b hle

variable [DecidableEq τ] {same : κ → κ → Bool}

/-! ### Checked evaluation -/

/-- What is noted of a call with a result: nothing if the kind has been noted before. -/
def newNote (same : κ → κ → Bool) (noted : List (κ × τ)) (key : κ) (kind : τ) :
    Option (List (κ × τ)) :=
  match noted.find? fun entry => same entry.1 key with
  | some entry => if entry.2 = kind then some [] else none
  | none => some [(key, kind)]

lemma newNote_cases {noted new : List (κ × τ)} {key : κ} {kind : τ}
    (h : newNote same noted key kind = some new) :
    (new = [] ∧ ∃ entry, noted.find? (fun entry => same entry.1 key) = some entry ∧
      entry.2 = kind) ∨
    (new = [(key, kind)] ∧ noted.find? (fun entry => same entry.1 key) = none) := by
  rw [newNote] at h
  cases hfind : noted.find? fun entry => same entry.1 key with
  | some entry =>
    rw [hfind] at h
    dsimp only at h
    split at h
    case isTrue hkind => exact .inl ⟨(Option.some.inj h).symm, entry, rfl, hkind⟩
    case isFalse => cases h
  | none =>
    rw [hfind] at h
    exact .inr ⟨(Option.some.inj h).symm, rfl⟩

/-- What a call does that comes to an end. -/
lemma runChecked_call_eq_some {key : κ} {kind : τ} {body : Calls κ τ ε β}
    {next : β → Calls κ τ ε β} {noted noted' : List (κ × τ)} {r : Except ε β}
    (h : (call key kind body next).runChecked same noted = some (r, noted')) :
    ∃ new result noted₁, newNote same noted key kind = some new ∧
      body.runChecked same noted = some (result, noted₁) ∧
      ((∃ e, result = .error e ∧ r = .error e ∧ noted' = noted₁) ∨
        ∃ b, result = .ok b ∧ (next b).runChecked same (noted₁ ++ new) = some (r, noted')) := by
  rw [runChecked] at h
  rw [newNote]
  cases hfind : noted.find? fun entry => same entry.1 key with
  | some entry =>
    rw [hfind] at h
    dsimp only at h ⊢
    split at h
    case isFalse => cases h
    case isTrue hkind =>
      rw [if_pos hkind]
      rcases hbody : body.runChecked same noted with _ | ⟨e | b, noted₁⟩ <;> rw [hbody] at h
      · cases h
      · obtain ⟨rfl, rfl⟩ := Prod.mk.inj (Option.some.inj h)
        exact ⟨[], _, _, rfl, rfl, .inl ⟨e, rfl, rfl, rfl⟩⟩
      · exact ⟨[], _, _, rfl, rfl, .inr ⟨b, rfl, by rwa [List.append_nil]⟩⟩
  | none =>
    rw [hfind] at h
    rcases hbody : body.runChecked same noted with _ | ⟨e | b, noted₁⟩ <;> rw [hbody] at h
    · cases h
    · obtain ⟨rfl, rfl⟩ := Prod.mk.inj (Option.some.inj h)
      exact ⟨_, _, _, rfl, rfl, .inl ⟨e, rfl, rfl, rfl⟩⟩
    · exact ⟨_, _, _, rfl, rfl, .inr ⟨b, rfl, h⟩⟩

/-- A call of a noted kind notes nothing. -/
lemma runChecked_call_of_noted {key : κ} {kind : τ} {body : Calls κ τ ε β}
    {next : β → Calls κ τ ε β} {noted : List (κ × τ)} {entry : κ × τ} {b : β}
    (hfind : noted.find? (fun entry => same entry.1 key) = some entry) (hkind : entry.2 = kind)
    (hbody : body.runChecked same noted = some (.ok b, noted)) :
    (call key kind body next).runChecked same noted = (next b).runChecked same noted := by
  rw [runChecked, hfind]
  dsimp only
  rw [if_pos hkind, hbody]

/-- What is noted by a checked evaluation: the notes are extended, and a second evaluation after it
notes nothing and has the same result. -/
lemma Coherent.runChecked_spec (hsame : ∀ k k', P k → P k' → same k k' = true → k = k')
    (hrefl : ∀ k, same k k = true) (h : Coherent program P rank n p) :
    ∀ noted : List (κ × τ), (∀ entry ∈ noted, P entry.1) → ∀ r noted',
      p.runChecked same noted = some (r, noted') →
      (∃ added, noted' = noted ++ added ∧ ∀ entry ∈ added, P entry.1 ∧ rank entry.1 < n) ∧
        ∀ b, r = .ok b → ∀ more,
          p.runChecked same (noted' ++ more) = some (.ok b, noted' ++ more) := by
  induction h with
  | done n r =>
    rintro noted - r' noted' h
    obtain ⟨rfl, rfl⟩ := Prod.mk.inj (Option.some.inj h)
    refine ⟨⟨[], by simp, by simp⟩, fun b hb more => ?_⟩
    rw [hb]
    rfl
  | @call n key kind next hP hrank _ _ ihbody ihnext =>
    intro noted hnoted r noted' h
    obtain ⟨new, result, noted₁, hnew, hbody, hrest⟩ := runChecked_call_eq_some h
    obtain ⟨⟨added, rfl, hadded⟩, hagain⟩ := ihbody noted hnoted result noted₁ hbody
    have hlt : ∀ entry ∈ added, P entry.1 ∧ rank entry.1 < n := fun entry hentry =>
      ⟨(hadded entry hentry).1, (hadded entry hentry).2.trans hrank⟩
    rcases hrest with ⟨e, rfl, rfl, rfl⟩ | ⟨b, rfl, hnext⟩
    · exact ⟨⟨added, rfl, hlt⟩, fun b hb => by cases hb⟩
    · have hltnew : ∀ entry ∈ new, P entry.1 ∧ rank entry.1 < n := by
        rcases newNote_cases hnew with ⟨rfl, -⟩ | ⟨rfl, -⟩
        · simp
        · exact fun entry hentry => by rw [List.mem_singleton.mp hentry]; exact ⟨hP, hrank⟩
      have hP' : ∀ entry ∈ noted ++ added ++ new, P entry.1 := fun entry hentry => by
        rcases List.mem_append.mp hentry with hentry | hentry
        · exact (List.mem_append.mp hentry).elim (hnoted entry) fun h => (hlt entry h).1
        · exact (hltnew entry hentry).1
      obtain ⟨⟨added', rfl, hadded'⟩, hagain'⟩ := ihnext b _ hP' r noted' hnext
      refine ⟨⟨added ++ new ++ added', by simp, fun entry hentry => ?_⟩, fun b' hb' more => ?_⟩
      · rcases List.mem_append.mp hentry with hentry | hentry
        · exact (List.mem_append.mp hentry).elim (hlt entry) (hltnew entry)
        · exact hadded' entry hentry
      · -- the body notes no result of the same key, so the first one noted is that of the kind
        have hnone : added.find? (fun entry => same entry.1 key) = none := by
          rw [List.find?_eq_none]
          intro entry hentry htrue
          have hltk := (hadded entry hentry).2
          rw [hsame _ _ (hadded entry hentry).1 hP htrue] at hltk
          exact lt_irrefl _ hltk
        have hfind : ∃ entry, (noted ++ added ++ new ++ added' ++ more).find?
            (fun entry => same entry.1 key) = some entry ∧ entry.2 = kind := by
          rcases newNote_cases hnew with ⟨-, entry, hentry, hkind⟩ | ⟨rfl, hfresh⟩
          · exact ⟨entry, by simp [List.find?_append, hentry], hkind⟩
          · exact ⟨(key, kind), by simp [List.find?_append, hfresh, hnone, hrefl], rfl⟩
        obtain ⟨entry, hentry, hkind⟩ := hfind
        have hbody' := hagain b rfl (new ++ added' ++ more)
        simp only [← List.append_assoc] at hbody'
        rw [runChecked_call_of_noted hentry hkind hbody']
        exact hagain' b' hb' more

/-- A checked evaluation that comes to an end has the result of the evaluation. -/
lemma run_of_runChecked {noted noted' : List (κ × τ)} {r : Except ε β}
    (h : p.runChecked same noted = some (r, noted')) : p.run = r := by
  induction p generalizing noted noted' r with
  | done r' => exact (Prod.mk.inj (Option.some.inj h)).1
  | call key kind body next ihbody ihnext =>
    obtain ⟨new, result, noted₁, -, hbody, ⟨e, rfl, rfl, -⟩ | ⟨b, rfl, hnext⟩⟩ :=
      runChecked_call_eq_some h
    · rw [run, ihbody hbody]
    · rw [run, ihbody hbody]
      exact ihnext b hnext

/-! ### Cached evaluation -/

/-- The entries of a cache are what has been noted, and a second evaluation of each of them notes
nothing and has the result of the entry. -/
structure Matches (program : κ → τ → Calls κ τ ε β) (P : κ → Prop) (same : κ → κ → Bool)
    (cache : List (κ × τ × β)) (noted : List (κ × τ)) : Prop where
  noted_eq : noted = cache.map fun entry => (entry.1, entry.2.1)
  property : ∀ entry ∈ noted, P entry.1
  again : ∀ entry ∈ cache, ∀ more, (program entry.1 entry.2.1).runChecked same (noted ++ more) =
    some (.ok entry.2.2, noted ++ more)

lemma Matches.nil : Matches program P same [] [] := ⟨rfl, by simp, by simp⟩

/-- An evaluation with the cache does what a checked evaluation does. -/
lemma Coherent.runCached_spec (hsame : ∀ k k', P k → P k' → same k k' = true → k = k')
    (hrefl : ∀ k, same k k = true) (h : Coherent program P rank n p) :
    ∀ cache noted, Matches program P same cache noted →
      (p.runChecked same noted = none → p.runCached same cache = none) ∧
        ∀ r noted', p.runChecked same noted = some (r, noted') →
          ∃ cache', p.runCached same cache = some (r, cache') ∧
            Matches program P same cache' noted' := by
  induction h with
  | done n r =>
    refine fun cache noted hmatches => ⟨fun h => (by cases h), fun r' noted' h => ?_⟩
    obtain ⟨rfl, rfl⟩ := Prod.mk.inj (Option.some.inj h)
    exact ⟨cache, rfl, hmatches⟩
  | @call n key kind next hP hrank hcoherent _ ihbody ihnext =>
    intro cache noted hmatches
    have hfinds : (noted.find? fun entry => same entry.1 key) =
        (cache.find? fun entry => same entry.1 key).map fun entry => (entry.1, entry.2.1) := by
      rw [hmatches.noted_eq, List.find?_map]
      rfl
    rw [runChecked, runCached, hfinds]
    cases hfind : cache.find? fun entry => same entry.1 key with
    | some entry =>
      have hmem := List.mem_of_find?_eq_some hfind
      have hfound : same entry.1 key = true := by simpa using List.find?_some hfind
      have hkey : entry.1 = key := by
        refine hsame _ _ (hmatches.property (entry.1, entry.2.1) ?_) hP hfound
        rw [hmatches.noted_eq]
        exact List.mem_map_of_mem hmem
      dsimp only [Option.map_some]
      by_cases hkind : entry.2.1 = kind
      · -- the second evaluation of the body has the result of the entry
        have hagain := hmatches.again entry hmem []
        rw [hkey, hkind, List.append_nil] at hagain
        rw [if_pos hkind, if_pos hkind, hagain]
        exact ihnext entry.2.2 cache noted hmatches
      · rw [if_neg hkind, if_neg hkind]
        exact ⟨fun _ => rfl, fun r noted' h => by cases h⟩
    | none =>
      dsimp only [Option.map_none]
      obtain ⟨hnone, hsome⟩ := ihbody cache noted hmatches
      rcases hbody : (program key kind).runChecked same noted with _ | ⟨result, noted₁⟩
      · rw [hnone hbody]
        exact ⟨fun _ => rfl, fun r noted' h => by cases h⟩
      · obtain ⟨cache₁, hcached, hmatches₁⟩ := hsome result noted₁ hbody
        rw [hcached]
        cases result with
        | error e =>
          refine ⟨fun h => (by cases h), fun r noted' h => ?_⟩
          obtain ⟨rfl, rfl⟩ := Prod.mk.inj (Option.some.inj h)
          exact ⟨cache₁, rfl, hmatches₁⟩
        | ok b =>
          refine ihnext b (cache₁ ++ [(key, kind, b)]) (noted₁ ++ [(key, kind)]) ⟨?_, ?_, ?_⟩
          · rw [hmatches₁.noted_eq, List.map_append]
            rfl
          · intro entry hentry
            rcases List.mem_append.mp hentry with hentry | hentry
            · exact hmatches₁.property entry hentry
            · rw [List.mem_singleton.mp hentry]
              exact hP
          · intro entry hentry more
            rw [List.append_assoc]
            rcases List.mem_append.mp hentry with hentry | hentry
            · exact hmatches₁.again entry hentry _
            · rw [List.mem_singleton.mp hentry]
              exact
                (hcoherent.runChecked_spec hsame hrefl noted hmatches.property _ _ hbody).2 b rfl _

/-- The evaluation with the cache agrees with the evaluation without it if and only if no key is
called with another kind than its first result had. -/
lemma Coherent.runCached_iff (hsame : ∀ k k', P k → P k' → same k k' = true → k = k')
    (hrefl : ∀ k, same k k = true) (h : Coherent program P rank n p) :
    (∃ cache, p.runCached same [] = some (p.run, cache)) ↔ p.runChecked same [] ≠ none := by
  obtain ⟨hnone, hsome⟩ := h.runCached_spec hsame hrefl [] [] .nil
  constructor
  · rintro ⟨cache, hcached⟩ hchecked
    rw [hnone hchecked] at hcached
    cases hcached
  · intro hchecked
    obtain ⟨⟨r, noted⟩, hr⟩ := Option.ne_none_iff_exists'.mp hchecked
    obtain ⟨cache, hcached, -⟩ := hsome r noted hr
    exact ⟨cache, by rw [run_of_runChecked hr, hcached]⟩

/-! ### One kind for each key -/

/-- Computations that call every key with the kind that a function has for it. -/
inductive OfKind (kindOf : κ → τ) (P : κ → Prop) : Calls κ τ ε β → Prop
  | done (r : Except ε β) : OfKind kindOf P (done r)
  | call {key : κ} {body : Calls κ τ ε β} {next : β → Calls κ τ ε β} (hP : P key)
      (hbody : OfKind kindOf P body) (hnext : ∀ b, OfKind kindOf P (next b)) :
      OfKind kindOf P (call key (kindOf key) body next)

/-- A checked evaluation of such a computation comes to an end. -/
lemma OfKind.exists_runChecked {kindOf : κ → τ}
    (hsame : ∀ k k', P k → P k' → same k k' = true → k = k') (h : OfKind kindOf P p) :
    ∀ noted : List (κ × τ), (∀ entry ∈ noted, P entry.1 ∧ entry.2 = kindOf entry.1) →
      ∃ r noted', p.runChecked same noted = some (r, noted') ∧
        ∀ entry ∈ noted', P entry.1 ∧ entry.2 = kindOf entry.1 := by
  induction h with
  | done r => exact fun noted hnoted => ⟨r, noted, rfl, hnoted⟩
  | @call key body next hP _ _ ihbody ihnext =>
    intro noted hnoted
    obtain ⟨result, noted₁, hbody, hnoted₁⟩ := ihbody noted hnoted
    rw [runChecked]
    cases hfind : noted.find? fun entry => same entry.1 key with
    | some entry =>
      have hfound : same entry.1 key = true := by simpa using List.find?_some hfind
      obtain ⟨hPentry, hkind⟩ := hnoted entry (List.mem_of_find?_eq_some hfind)
      rw [hsame _ _ hPentry hP hfound] at hkind
      dsimp only
      rw [if_pos hkind, hbody]
      cases result with
      | error e => exact ⟨_, _, rfl, hnoted₁⟩
      | ok b => exact ihnext b noted₁ hnoted₁
    | none =>
      dsimp only
      rw [hbody]
      cases result with
      | error e => exact ⟨_, _, rfl, hnoted₁⟩
      | ok b =>
        refine ihnext b _ fun entry hentry => ?_
        rcases List.mem_append.mp hentry with hentry | hentry
        · exact hnoted₁ entry hentry
        · rw [List.mem_singleton.mp hentry]
          exact ⟨hP, rfl⟩

/-! ### Two evaluations -/

/-- Two computations that call the same keys with the same kinds, and whose results are related if
both have one. -/
inductive Related (S : β → β → Prop) : Calls κ τ ε β → Calls κ τ ε β → Prop
  | done {r₁ r₂ : Except ε β} (h : ∀ b₁ b₂, r₁ = .ok b₁ → r₂ = .ok b₂ → S b₁ b₂) :
      Related S (done r₁) (done r₂)
  | call (key : κ) (kind : τ) {body₁ body₂ : Calls κ τ ε β} {next₁ next₂ : β → Calls κ τ ε β}
      (hbody : Related S body₁ body₂)
      (hnext : ∀ b₁ b₂, S b₁ b₂ → Related S (next₁ b₁) (next₂ b₂)) :
      Related S (call key kind body₁ next₁) (call key kind body₂ next₂)

/-- Two caches with related results of the same keys and kinds. -/
def RelatedCaches (S : β → β → Prop) (cache₁ cache₂ : List (κ × τ × β)) : Prop :=
  List.Forall₂ (fun x y => x.1 = y.1 ∧ x.2.1 = y.2.1 ∧ S x.2.2 y.2.2) cache₁ cache₂

variable {S : β → β → Prop} {p₁ p₂ : Calls κ τ ε β}
  {cache₁ cache₂ cache₁' cache₂' : List (κ × τ × β)}

omit [DecidableEq τ] in
variable (same) in
/-- The same keys are found in both caches. -/
lemma RelatedCaches.find (h : RelatedCaches S cache₁ cache₂) (key : κ) :
    (cache₁.find? (fun entry => same entry.1 key) = none ∧
      cache₂.find? (fun entry => same entry.1 key) = none) ∨
    ∃ x y, cache₁.find? (fun entry => same entry.1 key) = some x ∧
      cache₂.find? (fun entry => same entry.1 key) = some y ∧ x.2.1 = y.2.1 ∧ S x.2.2 y.2.2 := by
  induction h with
  | nil => exact .inl ⟨rfl, rfl⟩
  | @cons x y _ _ hxy _ ih =>
    obtain ⟨hkey, hkind, hS⟩ := hxy
    rw [List.find?_cons, List.find?_cons, ← hkey]
    cases same x.1 key with
    | true => exact .inr ⟨x, y, rfl, rfl, hkind, hS⟩
    | false => exact ih

/-- Related computations have related results if both have one, and leave related caches. -/
lemma Related.runCached (h : Related S p₁ p₂) (hcaches : RelatedCaches S cache₁ cache₂) {b₁ b₂ : β}
    (h₁ : p₁.runCached same cache₁ = some (.ok b₁, cache₁'))
    (h₂ : p₂.runCached same cache₂ = some (.ok b₂, cache₂')) :
    S b₁ b₂ ∧ RelatedCaches S cache₁' cache₂' := by
  induction h generalizing cache₁ cache₂ cache₁' cache₂' b₁ b₂ with
  | done hr =>
    obtain ⟨hr₁, rfl⟩ := Prod.mk.inj (Option.some.inj h₁)
    obtain ⟨hr₂, rfl⟩ := Prod.mk.inj (Option.some.inj h₂)
    exact ⟨hr b₁ b₂ hr₁ hr₂, hcaches⟩
  | @call key kind body₁ body₂ next₁ next₂ _ _ ihbody ihnext =>
    rw [Calls.runCached] at h₁ h₂
    rcases hcaches.find same key with ⟨hnone₁, hnone₂⟩ | ⟨x, y, hx, hy, hkind, hS⟩
    · rw [hnone₁] at h₁
      rw [hnone₂] at h₂
      rcases hbody₁ : body₁.runCached same cache₁ with _ | ⟨_ | c₁, cache₁''⟩ <;>
        rw [hbody₁] at h₁ <;> try cases h₁
      rcases hbody₂ : body₂.runCached same cache₂ with _ | ⟨_ | c₂, cache₂''⟩ <;>
        rw [hbody₂] at h₂ <;> try cases h₂
      obtain ⟨hc, hcaches'⟩ := ihbody hcaches hbody₁ hbody₂
      have hentry : RelatedCaches S [(key, kind, c₁)] [(key, kind, c₂)] := .cons ⟨rfl, rfl, hc⟩ .nil
      exact ihnext c₁ c₂ hc (List.rel_append hcaches' hentry) h₁ h₂
    · rw [hx] at h₁
      rw [hy] at h₂
      dsimp only at h₁ h₂
      split at h₁
      · rw [if_pos (hkind ▸ ‹_›)] at h₂
        exact ihnext _ _ hS hcaches h₁ h₂
      · cases h₁

end Calls

end Skyrise

/-
Threads with stacks.

A machine has a shared state and threads, each of which is a stack of frames.  In
one step some thread executes its top frame: it changes the shared state and puts
frames in the place of the top frame, unless the frame blocks or fails.  A choice
that comes with the step settles what the frame leaves open.

Which thread a frame belongs to rarely matters.  A property of the shared state
and of the frames of all threads together is an invariant as soon as executing
one frame, beside any other frames, preserves it.  Which frames stand beneath
which is a relation between the frames of one stack.
-/
import Mathlib.Algebra.BigOperators.Group.Multiset.Basic
import Mathlib.Algebra.GroupWithZero.Nat
import Skyrise.Concurrency.Run

namespace Concurrency

/-- What executing a frame comes to. -/
inductive Outcome (φ σ ε : Type*) where
  /-- The frame cannot be executed in this state. -/
  | blocked
  /-- The frame fails. -/
  | error (e : ε)
  /-- The frames that take its place and the new shared state. -/
  | ok (frames : List φ) (shared : σ)

/-- A shared state and the stacks of the threads. -/
structure Machine (φ σ : Type*) where
  /-- The shared state. -/
  shared : σ
  /-- The threads, each with its top frame first. -/
  threads : List (List φ)

namespace Machine

variable {φ χ σ ε : Type*} (exec : φ → χ → σ → Outcome φ σ ε)

/-- The machine after the thread with an index has executed its top frame. -/
def next (s : Machine φ σ) (i : ℕ) (c : χ) : Option (Machine φ σ) :=
  match s.threads[i]? with
  | some (f :: k) =>
    match exec f c s.shared with
    | .ok fs shared => some ⟨shared, s.threads.set i (fs ++ k)⟩
    | _ => none
  | _ => none

/-- The machine after several steps. -/
def run (s : Machine φ σ) : List (ℕ × χ) → Option (Machine φ σ)
  | [] => some s
  | a :: as => (s.next exec a.1 a.2).bind fun t => t.run as

/-- The steps, with the index of the thread and the choice. -/
def Step (s : Machine φ σ) (a : ℕ × χ) (t : Machine φ σ) : Prop := s.next exec a.1 a.2 = some t

/-- The frame on top of the thread with an index. -/
def Top (s : Machine φ σ) (i : ℕ) (f : φ) : Prop := ∃ k, s.threads[i]? = some (f :: k)

/-- The frames of all threads. -/
def frames (s : Machine φ σ) : Multiset φ := (s.threads.flatten : Multiset φ)

variable {exec} {s t : Machine φ σ} {i : ℕ} {c : χ} {a : ℕ × χ} {as : List (ℕ × χ)} {f : φ}

lemma mem_frames : f ∈ s.frames ↔ ∃ thread ∈ s.threads, f ∈ thread := by
  rw [frames, Multiset.mem_coe, List.mem_flatten]

lemma Top.mem_frames (h : s.Top i f) : f ∈ s.frames := by
  obtain ⟨k, hk⟩ := h
  exact Machine.mem_frames.mpr ⟨f :: k, List.mem_of_getElem? hk, List.mem_cons_self⟩

/-- The frames change where the step takes place. -/
lemma frames_set {k fs : List φ} (h : s.threads[i]? = some (f :: k)) (shared : σ) :
    ∃ rest : Multiset φ, s.frames = f ::ₘ rest ∧
      (⟨shared, s.threads.set i (fs ++ k)⟩ : Machine φ σ).frames = ↑fs + rest := by
  obtain ⟨hi, hget⟩ := List.getElem?_eq_some_iff.mp h
  obtain ⟨above, habove⟩ : ∃ above, above = s.threads.take i := ⟨_, rfl⟩
  obtain ⟨below, hbelow⟩ : ∃ below, below = s.threads.drop (i + 1) := ⟨_, rfl⟩
  have hold : s.threads = above ++ (f :: k) :: below := by
    rw [← hget, habove, hbelow, List.getElem_cons_drop, List.take_append_drop]
  have hnew : s.threads.set i (fs ++ k) = above ++ (fs ++ k) :: below := by
    rw [List.set_eq_take_append_cons_drop, if_pos hi, habove, hbelow]
  refine ⟨(above.flatten ++ (k ++ below.flatten) : List φ), ?_, ?_⟩
  · rw [frames, hold, List.flatten_append, List.flatten_cons, Multiset.cons_coe,
      Multiset.coe_eq_coe]
    exact List.perm_middle
  · rw [frames, hnew, List.flatten_append, List.flatten_cons, Multiset.coe_add,
      Multiset.coe_eq_coe, List.append_assoc fs]
    exact List.perm_append_comm_assoc _ _ _

/-- Some frame has a property after a step if those that take the place of a frame with it have one
with it. -/
lemma exists_mem_of_replace {P : φ → Prop} {fs : List φ} {rest : Multiset φ}
    (hplace : P f → ∃ g ∈ fs, P g) (h : ∃ g ∈ f ::ₘ rest, P g) : ∃ g ∈ ↑fs + rest, P g := by
  obtain ⟨g, hg, hP⟩ := h
  rcases Multiset.mem_cons.mp hg with rfl | hg
  · obtain ⟨g', hg', hP'⟩ := hplace hP
    exact ⟨g', Multiset.mem_add.mpr (.inl (Multiset.mem_coe.mpr hg')), hP'⟩
  · exact ⟨g, Multiset.mem_add.mpr (.inr hg), hP⟩

/-- A step executes the top frame of its thread. -/
lemma Step.exists_frame (h : Step exec s a t) : ∃ f k fs rest,
    s.threads[a.1]? = some (f :: k) ∧ exec f a.2 s.shared = .ok fs t.shared ∧
      t.threads = s.threads.set a.1 (fs ++ k) ∧ s.frames = f ::ₘ rest ∧
      t.frames = ↑fs + rest := by
  rw [Step, next] at h
  split at h
  · next f k htop =>
    split at h
    · next fs shared hexec =>
      obtain rfl := Option.some.inj h
      obtain ⟨rest, hold, hnew⟩ : ∃ rest : Multiset φ, s.frames = f ::ₘ rest ∧
          (⟨shared, s.threads.set a.1 (fs ++ k)⟩ : Machine φ σ).frames = ↑fs + rest :=
        frames_set htop shared
      exact ⟨f, k, fs, rest, htop, hexec, rfl, hold, hnew⟩
    · cases h
  · cases h

/-- A frame on top that does not block or fail takes a step. -/
lemma Top.exists_step (h : s.Top i f) {fs : List φ} {shared : σ}
    (hexec : exec f c s.shared = .ok fs shared) : ∃ t, Step exec s (i, c) t := by
  obtain ⟨k, hk⟩ := h
  exact ⟨⟨shared, s.threads.set i (fs ++ k)⟩, by simp only [Step, next, hk, hexec]⟩

lemma run_of_eq_some (h : s.run exec as = some t) : Run (Step exec) s as t := by
  induction as generalizing s with
  | nil =>
    obtain rfl := Option.some.inj h
    exact .nil
  | cons a as ih =>
    obtain ⟨u, hu, hrest⟩ := Option.bind_eq_some_iff.mp h
    exact (Run.single hu).trans (ih hrest)

/-- **An invariant of the frames**: what executing a frame beside others preserves, for the frame
and the others together, holds after every run. -/
theorem invariant_frames {s₀ : Machine φ σ} {I : σ → Multiset φ → Prop}
    (h₀ : I s₀.shared s₀.frames)
    (hexec : ∀ f c σ fs σ' rest, I σ (f ::ₘ rest) → exec f c σ = .ok fs σ' → I σ' (↑fs + rest))
    (h : Run (Step exec) s₀ as s) : I s.shared s.frames := by
  refine h.invariant (I := fun s => I s.shared s.frames) h₀ fun s a t hI hstep => ?_
  obtain ⟨f, k, fs, rest, -, hfs, -, hold, hnew⟩ := hstep.exists_frame
  rw [hnew]
  exact hexec f a.2 s.shared fs t.shared rest (hold ▸ hI) hfs

/-! ### What stands beneath a frame -/

/-- **A relation between a frame and those beneath it** holds in every stack after every run, if
the frames that take the place of another stand in it and may stand where that stood. -/
theorem pairwise_of_run {R : φ → φ → Prop} {s₀ : Machine φ σ}
    (h₀ : ∀ thread ∈ s₀.threads, thread.Pairwise R)
    (hexec : ∀ f c σ fs σ', exec f c σ = .ok fs σ' →
      fs.Pairwise R ∧ ∀ g ∈ fs, ∀ below, R f below → R g below)
    (h : Run (Step exec) s₀ as s) : ∀ thread ∈ s.threads, thread.Pairwise R := by
  refine h.invariant (I := fun s => ∀ thread ∈ s.threads, thread.Pairwise R) h₀
    fun s a t hI hstep thread hthread => ?_
  obtain ⟨f, k, fs, -, htop, hfs, hthreads, -, -⟩ := hstep.exists_frame
  rw [hthreads] at hthread
  rcases List.mem_or_eq_of_mem_set hthread with hmem | rfl
  · exact hI thread hmem
  · obtain ⟨hpairwise, hplace⟩ := hexec f a.2 s.shared fs t.shared hfs
    obtain ⟨hbelow, hk⟩ := List.pairwise_cons.mp (hI _ (List.mem_of_getElem? htop))
    exact List.pairwise_append.mpr ⟨hpairwise, hk, fun g hg b hb => hplace g hg b (hbelow b hb)⟩

/-- A frame is on top of its thread, or it stands beneath the top frame. -/
lemma top_or_beneath {R : φ → φ → Prop} (hR : ∀ thread ∈ s.threads, thread.Pairwise R)
    (h : f ∈ s.frames) : ∃ i g, s.Top i g ∧ (f = g ∨ R g f) := by
  obtain ⟨thread, hthread, hf⟩ := mem_frames.mp h
  obtain ⟨i, hi⟩ := List.mem_iff_getElem?.mp hthread
  cases thread with
  | nil => exact absurd hf List.not_mem_nil
  | cons g below =>
    refine ⟨i, g, ⟨below, hi⟩, ?_⟩
    rcases List.mem_cons.mp hf with rfl | hf
    · exact .inl rfl
    · exact .inr ((List.pairwise_cons.mp (hR _ hthread)).1 f hf)

end Machine

/-! ### Tokens -/

section Tokens

variable {φ : Type*} {w : φ → ℕ} {f : φ} {fs : List φ} {rest : Multiset φ}

/-- The tokens that frames hold together. -/
def total (w : φ → ℕ) (frames : Multiset φ) : ℕ := (frames.map w).sum

lemma total_cons : total w (f ::ₘ rest) = w f + total w rest := by
  rw [total, Multiset.map_cons, Multiset.sum_cons]
  rfl

lemma total_coe_add : total w (↑fs + rest) = (fs.map w).sum + total w rest := by
  rw [total, Multiset.map_add, Multiset.sum_add, Multiset.map_coe, Multiset.sum_coe]
  rfl

/-- Frames that hold no tokens. -/
lemma total_eq_zero (h : ∀ f ∈ rest, w f = 0) : total w rest = 0 :=
  Multiset.sum_eq_zero fun n hn => by
    obtain ⟨f, hf, rfl⟩ := Multiset.mem_map.mp hn
    exact h f hf

/-- Some frame holds the tokens. -/
lemma exists_of_total_pos (h : 0 < total w rest) : ∃ f ∈ rest, 0 < w f := by
  by_contra hnot
  refine h.ne' (total_eq_zero fun f hf => ?_)
  exact Nat.eq_zero_of_not_pos fun hpos => hnot ⟨f, hf, hpos⟩

lemma le_total (h : f ∈ rest) : w f ≤ total w rest := by
  obtain ⟨others, rfl⟩ := Multiset.exists_cons_of_mem h
  rw [total_cons]
  exact Nat.le_add_right _ _

end Tokens

end Concurrency

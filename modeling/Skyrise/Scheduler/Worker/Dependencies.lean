/-
Tasks run in the order of their dependencies.

Frames are tokens: one frame or one entry of the queue stands for a task that is
enqueued or started, and one frame carries the news of a task that is done to each
successor until it decrements the count there.  Scheduling a task and finishing
its last predecessor race.  A scheduled task that is not enqueued either has a
frame that will submit it or a predecessor whose news has not arrived, and such a
predecessor is scheduled or will be.  Without cycles no task waits for ever.
-/
import Mathlib.Algebra.Order.Group.Nat
import Skyrise.Scheduler.Worker.Effect

namespace Skyrise

open Concurrency

namespace FragmentScheduler

variable {τ : Type} [DecidableEq τ] {edges : List (τ × τ)} {s s' : FragmentScheduler τ}
  {f : Frame τ} {fs : List (Frame τ)} {rest F : Multiset (Frame τ)}

/-! ### States of tasks -/

/-- Frames that stand for a task that is enqueued. -/
@[simp]
def Frame.enqueuedTokens (u : τ) : Frame τ → ℕ
  | .push t | .execute t => if t = u then 1 else 0
  | _ => 0

/-- Frames that stand for a task that is started. -/
@[simp]
def Frame.startedTokens (u : τ) : Frame τ → ℕ
  | .onExecute t | .finish t => if t = u then 1 else 0
  | _ => 0

lemma Frame.Neutral.enqueuedTokens (h : f.Neutral) (u : τ) : f.enqueuedTokens u = 0 := by
  cases f <;> first | rfl | cases h

lemma Frame.Neutral.startedTokens (h : f.Neutral) (u : τ) : f.startedTokens u = 0 := by
  cases f <;> first | rfl | cases h

/-- A task is in the state that the frames about it and its history tell. -/
structure Located (s : FragmentScheduler τ) (F : Multiset (Frame τ)) (u : τ) : Prop where
  enqueued : total (Frame.enqueuedTokens u) F + s.queue.count u =
    if (s.tasks u).state = .enqueued then 1 else 0
  started : total (Frame.startedTokens u) F = if (s.tasks u).state = .started then 1 else 0
  enqueuedEvents : s.events.count (.enqueued u) = if .enqueued ≤ (s.tasks u).state then 1 else 0
  executedEvents : s.events.count (.executed u) = if .started ≤ (s.tasks u).state then 1 else 0
  doneEvents : s.events.count (.done u) = if (s.tasks u).state = .done then 1 else 0

lemma Located.effect {u : τ} (h : Located s (f ::ₘ rest) u) (he : Effect s f fs s') :
    Located s' (↑fs + rest) u := by
  obtain ⟨h₁, h₂, h₃, h₄, h₅⟩ := h
  rw [total_cons] at h₁ h₂
  suffices hnew : (fs.map (Frame.enqueuedTokens u)).sum + total (Frame.enqueuedTokens u) rest +
        s'.queue.count u = (if (s'.tasks u).state = .enqueued then 1 else 0) ∧
      (fs.map (Frame.startedTokens u)).sum + total (Frame.startedTokens u) rest =
        (if (s'.tasks u).state = .started then 1 else 0) ∧
      s'.events.count (.enqueued u) = (if .enqueued ≤ (s'.tasks u).state then 1 else 0) ∧
      s'.events.count (.executed u) = (if .started ≤ (s'.tasks u).state then 1 else 0) ∧
      s'.events.count (.done u) = (if (s'.tasks u).state = .done then 1 else 0) by
    obtain ⟨h₁', h₂', h₃', h₄', h₅'⟩ := hnew
    exact ⟨by rw [total_coe_add, h₁'], by rw [total_coe_add, h₂'], h₃', h₄', h₅'⟩
  cases he with
  | neutral hf hfs _ hsame =>
    rw [hf.enqueuedTokens] at h₁
    rw [hf.startedTokens] at h₂
    rw [sum_map_eq_zero hfs fun g hg => hg.enqueuedTokens u,
      sum_map_eq_zero hfs fun g hg => hg.startedTokens u, hsame.tasks, hsame.queue, hsame.events]
    exact ⟨h₁, h₂, h₃, h₄, h₅⟩
  | pop hf hfs _ hqueue =>
    rw [hf.enqueuedTokens, hqueue, List.count_cons] at h₁
    rw [hf.startedTokens] at h₂
    rw [List.map_cons, List.map_cons, List.sum_cons, List.sum_cons,
      sum_map_eq_zero hfs fun g hg => hg.enqueuedTokens u,
      sum_map_eq_zero hfs fun g hg => hg.startedTokens u]
    refine ⟨?_, ?_, h₃, h₄, h₅⟩
    · simp at h₁ ⊢
      omega
    · simpa using h₂
  | call hfs =>
    rw [List.map_append, List.map_append, List.sum_append, List.sum_append,
      sum_map_eq_zero hfs fun g hg => hg.enqueuedTokens u,
      sum_map_eq_zero hfs fun g hg => hg.startedTokens u]
    exact ⟨by simpa using h₁, by simpa using h₂, h₃, h₄, h₅⟩
  | countScheduled hsame =>
    rw [hsame.tasks, hsame.queue, hsame.events]
    exact ⟨by simpa using h₁, by simpa using h₂, h₃, h₄, h₅⟩
  | push => 
    rename_i t
    rw [List.count_append, List.count_singleton]
    refine ⟨?_, by simpa using h₂, h₃, h₄, h₅⟩
    simp at h₁ ⊢
    omega
  | schedule ht | submit ht | execute ht | finish ht =>
    rename_i t
    rcases eq_or_ne u t with rfl | hut
    · simp [ht, TaskState.le_iff, TaskState.toNat] at h₁ h₂ h₃ h₄ h₅ ⊢
      simp [*]
      try omega
    · simp [hut, hut.symm] at h₁ h₂ h₃ h₄ h₅ ⊢
      simp [*]
  | onExecute | decrementToZero | decrement =>
    rename_i t _ 
    rcases eq_or_ne u t with rfl | hut
    · simp at h₁ h₂ h₃ h₄ h₅ ⊢
      simp [*]
    · simp [hut, hut.symm] at h₁ h₂ h₃ h₄ h₅ ⊢
      simp [*]
  | _ => exact ⟨by simpa using h₁, by simpa using h₂, h₃, h₄, h₅⟩

/-! ### Links -/

/-- The links between the tasks. -/
structure Links (edges : List (τ × τ)) (s : FragmentScheduler τ) : Prop where
  successors_nodup : ∀ u, (s.tasks u).successors.Nodup
  predecessors_nodup : ∀ u, (s.tasks u).predecessors.Nodup
  mem_successors : ∀ p u, u ∈ (s.tasks p).successors ↔ (p, u) ∈ edges
  mem_predecessors : ∀ p u, p ∈ (s.tasks u).predecessors ↔ (p, u) ∈ edges

lemma Links.count_successors (h : Links edges s) {p u : τ} (hpu : (p, u) ∈ edges) :
    (s.tasks p).successors.count u = 1 :=
  List.count_eq_one_of_mem (h.successors_nodup p) ((h.mem_successors p u).mpr hpu)

lemma Links.count_predecessors (h : Links edges s) {p u : τ} (hpu : (p, u) ∈ edges) :
    (s.tasks u).predecessors.count p = 1 :=
  List.count_eq_one_of_mem (h.predecessors_nodup u) ((h.mem_predecessors p u).mpr hpu)

lemma Links.effect (h : Links edges s) (he : Effect s f fs s') : Links edges s' := by
  refine ⟨fun u => ?_, fun u => ?_, fun p u => ?_, fun p u => ?_⟩
  · rw [(he.links u).2]
    exact h.successors_nodup u
  · rw [(he.links u).1]
    exact h.predecessors_nodup u
  · rw [(he.links p).2]
    exact h.mem_successors p u
  · rw [(he.links u).1]
    exact h.mem_predecessors p u

/-- Frames that will carry the news that the first task is done to the second. -/
@[simp]
def Frame.newsTokens (p u : τ) : Frame τ → ℕ
  | .onTaskFinished t successors => if t = p then successors.count u else 0
  | .assertPending t v | .decrement t v => if t = p ∧ v = u then 1 else 0
  | _ => 0

lemma Frame.Neutral.newsTokens (h : f.Neutral) (p u : τ) : f.newsTokens p u = 0 := by
  cases f <;> first | rfl | cases h

/-- News comes with the end of a task and goes with a decrement. -/
lemma Effect.news (he : Effect s f fs s') (p u : τ) :
    (fs.map (Frame.newsTokens p u)).sum + (if f = .decrement p u then 1 else 0) =
      f.newsTokens p u + if f = .finish p then (s.tasks p).successors.count u else 0 := by
  cases he with
  | neutral hf hfs =>
    have hdecrement : f ≠ .decrement p u := by
      rintro rfl
      cases hf
    have hfinish : f ≠ .finish p := by
      rintro rfl
      cases hf
    rw [sum_map_eq_zero hfs fun g hg => hg.newsTokens p u, hf.newsTokens, if_neg hdecrement,
      if_neg hfinish]
  | pop hf hfs =>
    have hdecrement : f ≠ .decrement p u := by
      rintro rfl
      cases hf
    have hfinish : f ≠ .finish p := by
      rintro rfl
      cases hf
    rw [List.map_cons, List.sum_cons, sum_map_eq_zero hfs fun g hg => hg.newsTokens p u,
      hf.newsTokens, if_neg hdecrement, if_neg hfinish]
    rfl
  | call hfs =>
    rw [List.map_append, List.sum_append, sum_map_eq_zero hfs fun g hg => hg.newsTokens p u]
    simp
  | finish =>
    rename_i t _
    rcases eq_or_ne t p with rfl | hne
    · simp
    · simp [hne]
  | notify =>
    rename_i t v successors
    rcases eq_or_ne t p with rfl | hne
    · simp [List.count_cons]
      omega
    · simp [hne]
  | decrementToZero | decrement => simp
  | _ => simp

/-- A task that is done decrements the count of every successor once. -/
def Notified (s : FragmentScheduler τ) (F : Multiset (Frame τ)) (p u : τ) : Prop :=
  total (Frame.newsTokens p u) F + s.events.count (.decremented p u) =
    if (s.tasks p).state = .done then (s.tasks p).successors.count u else 0

lemma Notified.effect {p u : τ} (h : Notified s (f ::ₘ rest) p u) (he : Effect s f fs s') :
    Notified s' (↑fs + rest) p u := by
  have hnews := he.news p u
  rw [Notified, total_cons] at h
  rw [Notified, total_coe_add, he.count_decremented, (he.links p).2]
  by_cases hfinish : f = .finish p
  · subst hfinish
    obtain ⟨hstarted, hdone⟩ := he.of_finish
    rw [hstarted, if_neg (by simp)] at h
    rw [if_neg (by simp), if_pos rfl] at hnews
    rw [hdone, if_pos rfl, if_neg (by simp)]
    omega
  · rw [if_neg hfinish] at hnews
    have hdone : (s'.tasks p).state = .done ↔ (s.tasks p).state = .done :=
      ⟨fun hdone => (he.done hdone).resolve_right hfinish, he.stays_done⟩
    simp only [hdone]
    omega

/-- A frame that carries news stands for a link whose decrement is not done. -/
lemma Notified.of_newsTokens_pos {p u : τ} (h : Notified s F p u) (hlinks : Links edges s)
    (hf : f ∈ F) (hpos : 0 < f.newsTokens p u) :
    (p, u) ∈ edges ∧ .decremented p u ∉ s.events := by
  have hle : f.newsTokens p u ≤ total (Frame.newsTokens p u) F := le_total hf
  have hone := List.nodup_iff_count_le_one.mp (hlinks.successors_nodup p) u
  rw [Notified] at h
  split at h
  · refine ⟨(hlinks.mem_successors p u).mp (List.count_pos_iff.mp ?_), ?_⟩
    · omega
    · rw [← List.count_eq_zero]
      omega
  · omega

/-- A predecessor that decremented the count is done. -/
lemma Notified.done {p u : τ} (h : Notified s F p u) (hmem : .decremented p u ∈ s.events) :
    (s.tasks p).state = .done := by
  have hpos := List.count_pos_iff.mpr hmem
  rw [Notified] at h
  split at h
  · assumption
  · omega

/-! ### Pending predecessors -/

/-- The predecessors of a task that have not decremented its count. -/
def pendingCount (s : FragmentScheduler τ) (u : τ) : ℕ :=
  (s.tasks u).predecessors.countP fun p => !decide (.decremented p u ∈ s.events)

/-- The count is the number of predecessors that have not decremented it. -/
def Counted (s : FragmentScheduler τ) (u : τ) : Prop :=
  (s.tasks u).pendingPredecessors = ⟨pendingCount s u, false⟩

lemma pendingCount_eq_zero {u : τ} :
    pendingCount s u = 0 ↔ ∀ p ∈ (s.tasks u).predecessors, .decremented p u ∈ s.events := by
  simp [pendingCount, List.countP_eq_zero]

lemma Counted.isReady_iff {u : τ} (h : Counted s u) :
    (s.tasks u).isReady ↔ ∀ p ∈ (s.tasks u).predecessors, .decremented p u ∈ s.events := by
  rw [AbstractTask.isReady, h, decide_eq_true_eq, pendingCount_eq_zero]

/-- A decrement makes one predecessor fewer pending. -/
lemma pendingCount_decremented {p u : τ} (hlinks : Links edges s) (hpu : (p, u) ∈ edges)
    (hnot : .decremented p u ∉ s.events) (task : AbstractTask τ)
    (htask : task.predecessors = (s.tasks u).predecessors) :
    pendingCount ((s.setTask u task).record (.decremented p u)) u + 1 = pendingCount s u := by
  have hfalse : decide (TaskEvent.decremented p u ∈ s.events) = false := by simpa using hnot
  have hstep := @countP_not_done_add_count τ _
    (fun q => decide (.decremented q u ∈ s.events))
    (fun q => decide (.decremented q u ∈ s.events ++ [.decremented p u])) p hfalse
    (fun q => by simp) (s.tasks u).predecessors
  rw [hlinks.count_predecessors hpu] at hstep
  rw [pendingCount, record_tasks, setTask_tasks, Function.update_self, htask]
  exact hstep

/-- The count does not change with what else happens. -/
lemma Counted.congr {u : τ} (h : Counted s u)
    (hpending : (s'.tasks u).pendingPredecessors = (s.tasks u).pendingPredecessors)
    (hpred : (s'.tasks u).predecessors = (s.tasks u).predecessors)
    (hevents : ∀ p, .decremented p u ∈ s'.events ↔ .decremented p u ∈ s.events) :
    Counted s' u := by
  have hcount : pendingCount s' u = pendingCount s u := by
    rw [pendingCount, pendingCount, hpred]
    exact List.countP_congr fun p _ => by simp [hevents]
  rw [Counted, hpending, hcount]
  exact h

lemma Counted.effect {u : τ} (h : Counted s u) (hlinks : Links edges s)
    (hnotified : ∀ p, Notified s (f ::ₘ rest) p u) (he : Effect s f fs s') : Counted s' u := by
  cases he with
  | neutral _ _ _ hsame | countScheduled hsame =>
    exact h.congr (by rw [hsame.tasks]) (by rw [hsame.tasks]) fun p => by rw [hsame.events]
  | schedule | submit | execute | onExecute | finish =>
    rename_i t _
    rcases eq_or_ne u t with rfl | hut
    · exact h.congr (by simp) (by simp) fun p => by simp
    · exact h.congr (by simp [hut]) (by simp [hut]) fun p => by simp
  | decrementToZero | decrement =>
    rename_i t v _
    rcases eq_or_ne u v with rfl | huv
    · obtain ⟨htu, hnot⟩ := (hnotified t).of_newsTokens_pos hlinks (Multiset.mem_cons_self _ _)
        (by simp)
      have hcount := pendingCount_decremented hlinks htu hnot (s.tasks u).decrementPending rfl
      rw [Counted, ← hcount] at h
      rw [Counted, record_tasks, setTask_tasks, Function.update_self]
      show (s.tasks u).pendingPredecessors.decrementBits 32 = _
      rw [h, Counter.decrementBits_succ]
    · exact h.congr (by simp [huv]) (by simp [huv]) fun p => by simp [huv]
  | _ => exact h.congr rfl rfl fun _ => Iff.rfl

/-! ### Readiness -/

/-- Frames that will submit a task whose predecessors are done. -/
@[simp]
def Frame.readyTokens (u : τ) : Frame τ → ℕ
  | .submit t | .checkScheduled t => if t = u then 1 else 0
  | _ => 0

/-- Frames of a thread that is scheduling a task. -/
@[simp]
def Frame.schedulingTokens (u : τ) : Frame τ → ℕ
  | .countScheduled t | .checkReady t => if t = u then 1 else 0
  | _ => 0

/-- Frames that will submit a scheduled task. -/
@[simp]
def Frame.submitTokens (u : τ) : Frame τ → ℕ
  | .submit t => if t = u then 1 else 0
  | _ => 0

lemma Frame.Neutral.readyTokens (h : f.Neutral) (u : τ) : f.readyTokens u = 0 := by
  cases f <;> first | rfl | cases h

lemma Frame.Neutral.schedulingTokens (h : f.Neutral) (u : τ) : f.schedulingTokens u = 0 := by
  cases f <;> first | rfl | cases h

lemma Frame.Neutral.submitTokens (h : f.Neutral) (u : τ) : f.submitTokens u = 0 := by
  cases f <;> first | rfl | cases h

/-- What holds of a task whose count tells when it is submitted. -/
structure Waiting (s : FragmentScheduler τ) (F : Multiset (Frame τ)) (u : τ) : Prop where
  /-- The count of a task that is submitted or was is zero. -/
  ready : .enqueued ≤ (s.tasks u).state ∨ 0 < total (Frame.submitTokens u) F → (s.tasks u).isReady
  /-- A task that a thread is scheduling or submitting is scheduled. -/
  scheduled : 0 < total (Frame.schedulingTokens u) F + total (Frame.submitTokens u) F →
    .scheduled ≤ (s.tasks u).state
  /-- A scheduled task will be submitted now or when its count is zero. -/
  awake : (s.tasks u).state = .scheduled →
    0 < total (Frame.schedulingTokens u) F + total (Frame.readyTokens u) F ∨ ¬ (s.tasks u).isReady

lemma Waiting.effect {u : τ} (h : Waiting s (f ::ₘ rest) u)
    (hdecrement : ∀ t, f = .decrement t u → ¬ (s.tasks u).isReady)
    (hcheck : f = .checkScheduled u → .scheduled ≤ (s.tasks u).state → (s.tasks u).isReady)
    (he : Effect s f fs s') : Waiting s' (↑fs + rest) u := by
  obtain ⟨h₁, h₂, h₃⟩ := h
  rw [total_cons] at h₁
  rw [total_cons, total_cons] at h₂ h₃
  suffices hnew : (.enqueued ≤ (s'.tasks u).state ∨
        0 < (fs.map (Frame.submitTokens u)).sum + total (Frame.submitTokens u) rest →
          (s'.tasks u).isReady) ∧
      (0 < (fs.map (Frame.schedulingTokens u)).sum + total (Frame.schedulingTokens u) rest +
          ((fs.map (Frame.submitTokens u)).sum + total (Frame.submitTokens u) rest) →
        .scheduled ≤ (s'.tasks u).state) ∧
      ((s'.tasks u).state = .scheduled →
        0 < (fs.map (Frame.schedulingTokens u)).sum + total (Frame.schedulingTokens u) rest +
          ((fs.map (Frame.readyTokens u)).sum + total (Frame.readyTokens u) rest) ∨
        ¬ (s'.tasks u).isReady) by
    obtain ⟨h₁', h₂', h₃'⟩ := hnew
    refine ⟨?_, ?_, ?_⟩
    · rwa [total_coe_add]
    · rwa [total_coe_add, total_coe_add]
    · rwa [total_coe_add, total_coe_add]
  cases he with
  | neutral hf hfs _ hsame =>
    rw [hf.readyTokens] at h₃
    rw [hf.schedulingTokens] at h₂ h₃
    rw [hf.submitTokens] at h₁ h₂
    rw [sum_map_eq_zero hfs fun g hg => hg.readyTokens u,
      sum_map_eq_zero hfs fun g hg => hg.schedulingTokens u,
      sum_map_eq_zero hfs fun g hg => hg.submitTokens u, hsame.tasks]
    exact ⟨h₁, h₂, h₃⟩
  | pop hf hfs _ _ =>
    rw [hf.readyTokens] at h₃
    rw [hf.schedulingTokens] at h₂ h₃
    rw [hf.submitTokens] at h₁ h₂
    simp only [List.map_cons, List.sum_cons, sum_map_eq_zero hfs fun g hg => hg.readyTokens u,
      sum_map_eq_zero hfs fun g hg => hg.schedulingTokens u,
      sum_map_eq_zero hfs fun g hg => hg.submitTokens u]
    exact ⟨h₁, h₂, h₃⟩
  | call hfs =>
    simp only [List.map_append, List.sum_append, sum_map_eq_zero hfs fun g hg => hg.readyTokens u,
      sum_map_eq_zero hfs fun g hg => hg.schedulingTokens u,
      sum_map_eq_zero hfs fun g hg => hg.submitTokens u]
    exact ⟨by simpa using h₁, by simpa using h₂, by simpa using h₃⟩
  | countScheduled hsame =>
    rw [hsame.tasks]
    exact ⟨by simpa using h₁, by simpa using h₂, by simpa using h₃⟩
  | push | finished | notify | assertPending =>
    exact ⟨by simpa using h₁, by simpa using h₂, by simpa using h₃⟩
  | schedule ht | submit ht | execute ht | finish ht =>
    rename_i t
    rcases eq_or_ne u t with rfl | hut
    · simp [ht, TaskState.le_iff, TaskState.toNat] at h₁ ⊢
      exact h₁
    · simp [hut, hut.symm] at h₁ h₂ h₃ ⊢
      exact ⟨h₁, h₂, h₃⟩
  | onExecute =>
    rename_i t _
    rcases eq_or_ne u t with rfl | hut
    · simp at h₁ h₂ h₃ ⊢
      exact ⟨h₁, h₂, h₃⟩
    · simp [hut] at h₁ h₂ h₃ ⊢
      exact ⟨h₁, h₂, h₃⟩
  | checkReady hready =>
    rename_i t
    rcases eq_or_ne u t with rfl | hut
    · exact ⟨fun _ => hready, fun _ => h₂ (by simp), fun _ => .inl (by simp)⟩
    · simp [hut.symm] at h₁ h₂ h₃ ⊢
      exact ⟨h₁, h₂, h₃⟩
  | checkNotReady hready =>
    rename_i t
    rcases eq_or_ne u t with rfl | hut
    · exact ⟨by simpa using h₁, fun _ => h₂ (by simp), fun _ => .inr hready⟩
    · simp [hut.symm] at h₁ h₂ h₃ ⊢
      exact ⟨h₁, h₂, h₃⟩
  | submitAgain hle =>
    rename_i t
    rcases eq_or_ne u t with rfl | hut
    · refine ⟨fun _ => h₁ (.inl hle), fun _ => TaskState.le_trans (by decide) hle, fun hs => ?_⟩
      rw [hs] at hle
      exact absurd hle (by decide)
    · simp [hut.symm] at h₁ h₂ h₃ ⊢
      exact ⟨h₁, h₂, h₃⟩
  | checkScheduled hle =>
    rename_i t
    rcases eq_or_ne u t with rfl | hut
    · exact ⟨fun _ => hcheck rfl hle, fun _ => hle, fun _ => .inl (by simp)⟩
    · simp [hut.symm] at h₁ h₂ h₃ ⊢
      exact ⟨h₁, h₂, h₃⟩
  | checkNotScheduled hle =>
    rename_i t
    rcases eq_or_ne u t with rfl | hut
    · refine ⟨by simpa using h₁, by simpa using h₂, fun hs => ?_⟩
      rw [hs] at hle
      exact absurd (by decide) hle
    · simp [hut.symm] at h₁ h₂ h₃ ⊢
      exact ⟨h₁, h₂, h₃⟩
  | decrementToZero hready =>
    rename_i t v
    rcases eq_or_ne u v with rfl | huv
    · exact ⟨fun h => absurd (h₁ (by simpa using h)) (hdecrement t rfl), by simpa using h₂,
        fun _ => .inl (by simp)⟩
    · simp [huv, huv.symm] at h₁ h₂ h₃ ⊢
      exact ⟨h₁, h₂, h₃⟩
  | decrement hready =>
    rename_i t v
    rcases eq_or_ne u v with rfl | huv
    · exact ⟨fun h => absurd (h₁ (by simpa using h)) (hdecrement t rfl), by simpa using h₂,
        fun _ => .inr (by simpa using hready)⟩
    · simp [huv] at h₁ h₂ h₃ ⊢
      exact ⟨h₁, h₂, h₃⟩

/-- Between its creation and its scheduling nothing is asked of a task. -/
lemma Waiting.congr {scheduler scheduler' : FragmentScheduler τ} {G G' : Multiset (Frame τ)} {t : τ}
    (h : Waiting scheduler G t)
    (htokens : ∀ w : Frame τ → ℕ, (∀ g : Frame τ, g.Neutral → w g = 0) → total w G' = total w G)
    (hstate : (scheduler'.tasks t).state = (scheduler.tasks t).state)
    (hready : (scheduler.tasks t).state = .created ∨
      (scheduler'.tasks t).isReady = (scheduler.tasks t).isReady) : Waiting scheduler' G' t := by
  have hsubmit := htokens _ fun g hg => hg.submitTokens t
  have hscheduling := htokens _ fun g hg => hg.schedulingTokens t
  rcases hready with hcreated | hready
  · have hnot : ¬ 0 < total (Frame.schedulingTokens t) G + total (Frame.submitTokens t) G := by
      intro hpos
      have hscheduled := h.scheduled hpos
      rw [hcreated] at hscheduled
      exact absurd hscheduled (by decide)
    refine ⟨fun hor => ?_, fun hpos => ?_, fun hscheduled => ?_⟩
    · rw [hstate, hcreated, hsubmit] at hor
      exact (hnot (hor.resolve_left (by decide) |>.trans_le (Nat.le_add_left _ _))).elim
    · rw [hscheduling, hsubmit] at hpos
      exact absurd hpos hnot
    · rw [hstate, hcreated] at hscheduled
      cases hscheduled
  · refine ⟨?_, ?_, ?_⟩
    · rw [hstate, hsubmit, hready]
      exact h.ready
    · rw [hstate, hscheduling, hsubmit]
      exact h.scheduled
    · rw [hstate, hscheduling, htokens _ fun g hg => hg.readyTokens t, hready]
      exact h.awake

/-- What holds of a task between its scheduling and its submission. -/
structure Awaited (s : FragmentScheduler τ) (F : Multiset (Frame τ)) (u : τ) : Prop where
  /-- A task that is submitted or will be has no pending predecessor. -/
  ready : .enqueued ≤ (s.tasks u).state ∨ 0 < total (Frame.readyTokens u) F →
    ∀ p ∈ (s.tasks u).predecessors, .decremented p u ∈ s.events
  /-- A task that a thread is scheduling or submitting is scheduled. -/
  scheduled : 0 < total (Frame.schedulingTokens u) F + total (Frame.submitTokens u) F →
    .scheduled ≤ (s.tasks u).state
  /-- A scheduled task will be submitted now or after a pending predecessor. -/
  awake : (s.tasks u).state = .scheduled →
    0 < total (Frame.schedulingTokens u) F + total (Frame.readyTokens u) F ∨
      ∃ p ∈ (s.tasks u).predecessors, .decremented p u ∉ s.events

/-- The count tells whether a predecessor is pending. -/
lemma Awaited.waiting {u : τ} (h : Awaited s F u) (hcounted : Counted s u) : Waiting s F u := by
  refine ⟨fun hor => hcounted.isReady_iff.mpr (h.ready (hor.imp_right fun hpos => ?_)), h.scheduled,
    fun hstate => ?_⟩
  · obtain ⟨g, hg, hpos⟩ := exists_of_total_pos hpos
    refine lt_of_lt_of_le ?_ (le_total hg)
    cases g with
    | submit t => exact hpos
    | _ => cases hpos
  · refine (h.awake hstate).imp_right fun ⟨p, hp, hnot⟩ hready => ?_
    exact hnot (hcounted.isReady_iff.mp hready p hp)

/-- A task of which a thread asks whether it is scheduled has no pending predecessor. -/
lemma Awaited.of_checkScheduled {u : τ} (h : Awaited s (f ::ₘ rest) u) (hcounted' : Counted s' u)
    (he : Effect s f fs s') (hmem : .checkScheduled u ∈ ↑fs + rest) :
    ∀ p ∈ (s'.tasks u).predecessors, .decremented p u ∈ s'.events := by
  rcases Multiset.mem_add.mp hmem with hnew | hrest
  · -- The thread has just decremented the count to zero.
    exact hcounted'.isReady_iff.mp (he.checkScheduled_mem hnew)
  · intro p hp
    rw [(he.links u).1] at hp
    have hpos : 0 < total (Frame.readyTokens u) (f ::ₘ rest) :=
      lt_of_lt_of_le (by simp) (le_total (Multiset.mem_cons_of_mem hrest))
    have hcount := he.count_decremented p u
    have hold := List.count_pos_iff.mpr (h.ready (.inr hpos) p hp)
    exact List.count_pos_iff.mp (by omega)

lemma Awaited.effect {u : τ} (h : Awaited s (f ::ₘ rest) u) (hcounted : Counted s u)
    (hcounted' : Counted s' u) (he : Effect s f fs s') : Awaited s' (↑fs + rest) u := by
  have hwaiting : Waiting s' (↑fs + rest) u := by
    refine (h.waiting hcounted).effect ?_ ?_ he
    · rintro t rfl hready
      -- The decrement of a count of zero wraps around.
      have hwrap := he.pending_of_decrement
      rw [hcounted', Counter.decrementBits, if_pos (of_decide_eq_true hready)] at hwrap
      cases congrArg Counter.underflowed hwrap
    · rintro rfl -
      exact hcounted.isReady_iff.mpr (h.ready (.inr (by simp [total_cons])))
  refine ⟨?_, hwaiting.scheduled, fun hstate => ?_⟩
  · rintro (hstate | hpos)
    · exact hcounted'.isReady_iff.mp (hwaiting.ready (.inl hstate))
    · obtain ⟨g, hg, hpos⟩ := exists_of_total_pos hpos
      cases g with
      | submit t =>
        have hle := le_total (w := Frame.submitTokens u) hg
        exact hcounted'.isReady_iff.mp (hwaiting.ready (.inr (lt_of_lt_of_le hpos hle)))
      | checkScheduled t =>
        obtain rfl : t = u := by
          by_contra htu
          simp [htu] at hpos
        exact h.of_checkScheduled hcounted' he hg
      | _ => cases hpos
  · refine (hwaiting.awake hstate).imp_right fun hnot => ?_
    have hex := mt hcounted'.isReady_iff.mpr hnot
    push Not at hex
    exact hex

/-! ### Predecessors of scheduled tasks -/

/-- A scheduled task whose predecessors a thread has still to look at, or a predecessor that is
scheduled or will be. -/
def Reached (s : FragmentScheduler τ) (F : Multiset (Frame τ)) (p u : τ) : Prop :=
  .scheduled ≤ (s.tasks u).state → .scheduled ≤ (s.tasks p).state ∨
    0 < total (Frame.schedulingTokens u) F ∨ ∃ g ∈ F, g.Schedules p

lemma Reached.effect {p u : τ} (h : Reached s (f ::ₘ rest) p u)
    (hpu : p ∈ (s.tasks u).predecessors) (hcounted : Counted s u)
    (hnotified : Notified s (f ::ₘ rest) p u) (he : Effect s f fs s') :
    Reached s' (↑fs + rest) p u := by
  intro hu'
  rw [total_coe_add]
  rcases he.scheduled hu' with hu | ⟨-, rfl⟩
  · rcases h hu with hp | htokens | ⟨g, hg, hgp⟩
    · exact .inl (TaskState.le_trans hp (he.state_le p))
    · rw [total_cons] at htokens
      rcases Nat.eq_zero_or_pos (f.schedulingTokens u) with hzero | hpos
      · exact .inr (.inl (by omega))
      · -- the frame that stood for the scheduling of the task
        cases he with
        | neutral hf => exact absurd (hf.schedulingTokens u) (by omega)
        | pop hf => exact absurd (hf.schedulingTokens u) (by omega)
        | countScheduled =>
          rename_i t _
          exact .inr (.inl (by simp at hpos ⊢; omega))
        | checkReady hready =>
          rename_i t
          obtain rfl : t = u := by
            by_contra hne
            simp [hne] at hpos
          have hmem := hcounted.isReady_iff.mp hready p hpu
          rw [hnotified.done hmem]
          exact .inl (by decide)
        | checkNotReady =>
          rename_i t _
          obtain rfl : t = u := by
            by_contra hne
            simp [hne] at hpos
          refine .inr (.inr ⟨.schedulePredecessors (s.tasks t).predecessors, ?_, hpu⟩)
          exact Multiset.mem_add.mpr (.inl (List.mem_singleton_self _))
        | _ => exact absurd hpos (by simp)
    · rcases Multiset.mem_cons.mp hg with rfl | hg
      · -- the frame with which the predecessor was to be scheduled
        cases he with
        | neutral _ _ hschedules =>
          rcases hschedules p hgp with hp | ⟨g', hg', hgp'⟩
          · exact .inl (TaskState.le_trans hp (Effect.state_le (.neutral ‹_› ‹_› ‹_› ‹_›) p))
          · exact .inr (.inr ⟨g', Multiset.mem_add.mpr (.inl hg'), hgp'⟩)
        | pop _ _ hnot => exact absurd hgp (hnot p)
        | schedule =>
          obtain rfl := hgp
          left
          rw [setTask_tasks, Function.update_self]
          exact TaskState.le_refl _
        | _ => cases hgp
      · exact .inr (.inr ⟨g, Multiset.mem_add.mpr (.inr hg), hgp⟩)
  · exact .inr (.inl (by simp))

/-! ### The order of the executions -/

lemma before_effect {p u : τ} (h : Before (.done p) (.executed u) s.events)
    (hdone : (s.tasks u).state = .enqueued → .done p ∈ s.events) (he : Effect s f fs s') :
    Before (.done p) (.executed u) s'.events := by
  cases he with
  | neutral _ _ _ hsame | countScheduled hsame => rwa [hsame.events]
  | execute ht =>
    refine h.append fun hu => hdone ?_
    obtain rfl := TaskEvent.executed.inj hu
    exact ht
  | submit | finish | decrementToZero | decrement =>
    refine h.append fun hu => ?_
    cases hu
  | _ => exact h

/-! ### The invariant -/

/-- What holds in every state. -/
structure Invariant (edges : List (τ × τ)) (s : FragmentScheduler τ) (F : Multiset (Frame τ)) :
    Prop where
  links : Links edges s
  located : ∀ u, Located s F u
  notified : ∀ p u, Notified s F p u
  counted : ∀ u, Counted s u
  awaited : ∀ u, Awaited s F u
  reached : ∀ p u, (p, u) ∈ edges → Reached s F p u
  before : ∀ p u, (p, u) ∈ edges → Before (.done p) (.executed u) s.events

lemma Located.mem_done {u : τ} (h : Located s F u) (hdone : (s.tasks u).state = .done) :
    .done u ∈ s.events := by
  have hcount := h.doneEvents
  rw [if_pos hdone] at hcount
  exact List.count_pos_iff.mp (by omega)

lemma Invariant.effect (h : Invariant edges s (f ::ₘ rest)) (he : Effect s f fs s') :
    Invariant edges s' (↑fs + rest) := by
  have hcounted' : ∀ u, Counted s' u := fun u =>
    (h.counted u).effect h.links (fun p => h.notified p u) he
  refine ⟨h.links.effect he, fun u => (h.located u).effect he, fun p u => (h.notified p u).effect he,
    hcounted', fun u => (h.awaited u).effect (h.counted u) (hcounted' u) he,
    fun p u hpu => ?_, fun p u hpu => before_effect (h.before p u hpu) (fun hstate => ?_) he⟩
  · exact (h.reached p u hpu).effect ((h.links.mem_predecessors p u).mpr hpu) (h.counted u)
      (h.notified p u) he
  · have hmem := (h.awaited u).ready (.inl (by rw [hstate]; exact TaskState.le_refl _)) p
      ((h.links.mem_predecessors p u).mpr hpu)
    exact (h.located p).mem_done ((h.notified p u).done hmem)

/-- At the start every thread is a client or an executor thread. -/
lemma eq_of_mem_frames_initial {numClients numThreads : ℕ}
    (h : f ∈ (initial edges numClients numThreads).frames) : f = .client ∨ f = .worker := by
  obtain ⟨thread, hthread, hf⟩ := Machine.mem_frames.mp h
  rcases List.mem_append.mp hthread with hmem | hmem
  · rw [List.eq_of_mem_replicate hmem] at hf
    exact .inl (List.mem_singleton.mp hf)
  · rw [List.eq_of_mem_replicate hmem] at hf
    exact .inr (List.mem_singleton.mp hf)

lemma total_frames_initial {numClients numThreads : ℕ} {w : Frame τ → ℕ}
    (hw : ∀ g : Frame τ, g.Neutral → w g = 0) :
    total w (initial edges numClients numThreads).frames = 0 := by
  refine total_eq_zero fun g hg => hw g ?_
  rcases eq_of_mem_frames_initial hg with rfl | rfl <;> trivial

lemma invariant_initial (edges : List (τ × τ)) (numClients numThreads : ℕ) :
    Invariant edges (initial edges numClients numThreads).shared
      (initial edges numClients numThreads).frames := by
  have hlinked := AbstractTask.linked_ofEdges edges
  have hcreated : ∀ u, ((initial edges numClients numThreads).shared.tasks u).state = .created :=
    hlinked.state
  refine ⟨⟨hlinked.successors_nodup, hlinked.predecessors_nodup, hlinked.mem_successors,
    hlinked.mem_predecessors⟩, fun u => ⟨?_, ?_, ?_, ?_, ?_⟩, fun p u => ?_, fun u => ?_,
    fun u => ⟨fun h => ?_, fun h => ?_, fun h => ?_⟩, fun p u _ h => ?_, fun p u _ => before_nil⟩
  · rw [total_frames_initial fun g hg => hg.enqueuedTokens u, hcreated]
    rfl
  · rw [total_frames_initial fun g hg => hg.startedTokens u, hcreated]
    rfl
  · rw [hcreated]
    rfl
  · rw [hcreated]
    rfl
  · rw [hcreated]
    rfl
  · rw [Notified, total_frames_initial fun g hg => hg.newsTokens p u, hcreated]
    rfl
  · rw [Counted, pendingCount, List.countP_eq_length.mpr]
    · exact hlinked.pending u
    · intro p _
      rfl
  · rw [hcreated, total_frames_initial fun g hg => hg.readyTokens u] at h
    exact absurd h (by decide)
  · rw [total_frames_initial fun g hg => hg.schedulingTokens u,
      total_frames_initial fun g hg => hg.submitTokens u] at h
    exact absurd h (by decide)
  · rw [hcreated] at h
    exact absurd h (by decide)
  · rw [hcreated] at h
    exact absurd h (by decide)

/-- The invariant holds after every run. -/
lemma invariant_of_run {numClients numThreads : ℕ} {as : List (ℕ × Choice τ)}
    {m : Machine (Frame τ) (FragmentScheduler τ)}
    (h : Run Step (initial edges numClients numThreads) as m) :
    Invariant edges m.shared m.frames :=
  Machine.invariant_frames (I := Invariant edges) (invariant_initial edges numClients numThreads)
    (fun _ _ _ _ _ _ hinv hexec => hinv.effect (exec_effect hexec)) h

/-! ### States without steps -/

/-- No assertion fails, if every task is where its state tells, only scheduled tasks are submitted,
and the count of a task that is decremented is not zero. -/
lemma exec_ne_error (hlocated : ∀ u, Located s F u)
    (hscheduled : ∀ u, 0 < total (Frame.submitTokens u) F → .scheduled ≤ (s.tasks u).state)
    (hpending : ∀ t u, .assertPending t u ∈ F → 0 < (s.tasks u).pendingPredecessors.value)
    (hf : f ∈ F) (c : Choice τ) (e : Exception) : exec f c s ≠ .error e := by
  intro herror
  cases f with
  | schedule t =>
    simp only [exec] at herror
    split at herror <;> cases herror
    exact AbstractTask.tryTransitionTo_ne_error (.inl rfl) ‹_›
  | submit t =>
    have hpos : 0 < total (Frame.submitTokens t) F :=
      lt_of_lt_of_le (by simp) (le_total (w := Frame.submitTokens t) hf)
    simp only [exec] at herror
    split at herror <;> cases herror
    exact AbstractTask.tryTransitionTo_ne_error (.inr (.inl ⟨rfl, hscheduled t hpos⟩)) ‹_›
  | execute t =>
    have hpos : 0 < total (Frame.enqueuedTokens t) F :=
      lt_of_lt_of_le (by simp) (le_total (w := Frame.enqueuedTokens t) hf)
    have henqueued := (hlocated t).enqueued
    have hstate : (s.tasks t).state = .enqueued := by
      split at henqueued
      · assumption
      · omega
    simp only [exec] at herror
    split at herror
    · next htransition =>
      exact AbstractTask.tryTransitionTo_ne_error (.inr (.inr (by rw [hstate]; rfl))) htransition
    · next hfalse =>
      rcases (AbstractTask.of_tryTransitionTo_false hfalse).2 with h' | h' <;> cases h'
    · cases herror
  | finish t =>
    have hpos : 0 < total (Frame.startedTokens t) F :=
      lt_of_lt_of_le (by simp) (le_total (w := Frame.startedTokens t) hf)
    have hstarted := (hlocated t).started
    have hstate : (s.tasks t).state = .started := by
      split at hstarted
      · assumption
      · omega
    simp only [exec] at herror
    split at herror
    · next htransition =>
      exact AbstractTask.tryTransitionTo_ne_error (.inr (.inr (by rw [hstate]; rfl))) htransition
    · next hfalse =>
      rcases (AbstractTask.of_tryTransitionTo_false hfalse).2 with h' | h' <;> cases h'
    · cases herror
  | assertPending t u =>
    have hassert : (s.tasks u).assertPending = .ok () := by
      rw [AbstractTask.assertPending, decide_eq_true (hpending t u hf)]
      rfl
    simp only [exec, hassert] at herror
    cases herror
  | client | onExecute => cases c <;> cases herror
  | scheduleTasks rest | schedulePredecessors rest | onTaskFinished _ rest =>
    cases rest <;> cases herror
  | worker | processItem | checkReady | decrement | checkScheduled | rethrow =>
    simp only [exec] at herror
    split at herror <;> cases herror
  | waitFor _ rest | join _ rest =>
    cases rest with
    | nil => cases herror
    | cons =>
      simp only [exec] at herror
      split at herror <;> cases herror
  | countScheduled | push | countDown => cases herror

/-- No assertion fails. -/
lemma Invariant.exec_ne_error (h : Invariant edges s F) (hf : f ∈ F) (c : Choice τ)
    (e : Exception) : exec f c s ≠ .error e := by
  refine FragmentScheduler.exec_ne_error h.located (fun u hpos => (h.awaited u).scheduled (by omega))
    (fun t u hmem => ?_) hf c e
  obtain ⟨htu, hnot⟩ := (h.notified t u).of_newsTokens_pos h.links hmem (by simp)
  rw [h.counted u]
  exact Nat.pos_of_ne_zero fun hzero =>
    hnot (pendingCount_eq_zero.mp hzero t ((h.links.mem_predecessors t u).mpr htu))

/-- The frames that block, and those that take their place. -/
def Frame.isBase : Frame τ → Bool
  | .client | .worker | .join _ _ | .rethrow _ _ _ => true
  | _ => false

/-- Beneath a frame that blocks, or one whose place it takes, a client only stands. -/
def Frame.Above (f g : Frame τ) : Prop := f.isBase → g = .client

lemma exec_above {c : Choice τ} (h : exec f c s = .ok fs s') :
    fs.Pairwise Frame.Above ∧ ∀ g ∈ fs, ∀ below, f.Above below → g.Above below := by
  cases f with
  | client => cases c <;> cases h <;> simp [Frame.Above, Frame.isBase]
  | onExecute => cases c <;> cases h <;> simp [Frame.Above, Frame.isBase]
  | scheduleTasks rest | schedulePredecessors rest | onTaskFinished _ rest =>
    cases rest <;> cases h <;> simp [Frame.Above, Frame.isBase]
  | waitFor _ rest | join _ rest =>
    cases rest with
    | nil => cases h; simp [Frame.Above, Frame.isBase]
    | cons =>
      simp only [exec] at h
      split at h <;> cases h <;> simp [Frame.Above, Frame.isBase]
  | countScheduled | push | countDown => cases h; simp [Frame.Above, Frame.isBase]
  | _ =>
    simp only [exec] at h
    split at h <;> cases h <;> simp [Frame.Above, Frame.isBase]

/-- An executor thread stays one. -/
lemma worker_mem_of_exec {c : Choice τ} (h : exec f c s = .ok fs s') (hf : f = .worker) :
    .worker ∈ fs := by
  subst hf
  simp only [exec] at h
  split at h <;> cases h
  exact List.mem_cons_of_mem _ (List.mem_singleton_self _)

lemma worker_mem_of_run {numClients numThreads : ℕ} {as : List (ℕ × Choice τ)}
    {m : Machine (Frame τ) (FragmentScheduler τ)} (hpos : 0 < numThreads)
    (h : Run Step (initial edges numClients numThreads) as m) : .worker ∈ m.frames := by
  refine Machine.invariant_frames (I := fun _ F => .worker ∈ F) ?_ ?_ h
  · refine Machine.mem_frames.mpr ⟨[.worker], List.mem_append_right _ ?_, List.mem_singleton_self _⟩
    exact List.mem_replicate.mpr ⟨hpos.ne', rfl⟩
  · intro f c s fs s' rest hmem hexec
    rcases Multiset.mem_cons.mp hmem with hf | hrest
    · exact Multiset.mem_add.mpr (.inl (worker_mem_of_exec hexec hf.symm))
    · exact Multiset.mem_add.mpr (.inr hrest)

lemma above_of_run {numClients numThreads : ℕ} {as : List (ℕ × Choice τ)}
    {m : Machine (Frame τ) (FragmentScheduler τ)}
    (h : Run Step (initial edges numClients numThreads) as m) :
    ∀ thread ∈ m.threads, thread.Pairwise Frame.Above := by
  refine Machine.pairwise_of_run (fun thread hthread => ?_) (fun _ _ _ _ _ => exec_above) h
  rcases List.mem_append.mp hthread with hmem | hmem <;> rw [List.eq_of_mem_replicate hmem] <;>
    exact List.pairwise_singleton _ _

/-- A frame that blocks is one of an executor thread without a job or waits for a task that is not
done. -/
lemma of_exec_eq_blocked (hblocked : exec f .finish s = .blocked) :
    f = .worker ∧ s.queue = [] ∨ ∃ tasks rest, f = .join tasks rest := by
  cases f with
  | worker =>
    simp only [exec] at hblocked
    split at hblocked
    · exact .inl ⟨rfl, ‹_›⟩
    · cases hblocked
  | join tasks rest => exact .inr ⟨tasks, rest, rfl⟩
  | client | onExecute | countScheduled | push | countDown => cases hblocked
  | scheduleTasks rest | schedulePredecessors rest | onTaskFinished _ rest =>
    cases rest <;> cases hblocked
  | waitFor _ rest =>
    cases rest with
    | nil => cases hblocked
    | cons =>
      simp only [exec] at hblocked
      split at hblocked <;> cases hblocked
  | _ =>
    simp only [exec] at hblocked
    split at hblocked <;> cases hblocked

/-- A frame that cannot be executed blocks. -/
lemma Invariant.blocked (h : Invariant edges s F) (hf : f ∈ F)
    (hno : ∀ c fs s', exec f c s ≠ .ok fs s') :
    f = .worker ∧ s.queue = [] ∨ ∃ tasks rest, f = .join tasks rest := by
  refine of_exec_eq_blocked ?_
  cases hexec : exec f .finish s with
  | blocked => rfl
  | error e => exact absurd hexec (h.exec_ne_error hf _ e)
  | ok fs s' => exact absurd hexec (hno _ fs s')

/-- In a state without steps every thread waits. -/
lemma Invariant.of_stuck {m : Machine (Frame τ) (FragmentScheduler τ)}
    (h : Invariant edges m.shared m.frames)
    (habove : ∀ thread ∈ m.threads, thread.Pairwise Frame.Above)
    (hstuck : ∀ a u, ¬ Step m a u) (hf : f ∈ m.frames) :
    (f = .worker → m.shared.queue = []) ∧ f.Neutral ∧ ∀ p, ¬ f.Schedules p := by
  obtain ⟨thread, hthread, hmem⟩ := Machine.mem_frames.mp hf
  obtain ⟨i, hi⟩ := List.mem_iff_getElem?.mp hthread
  rcases thread with _ | ⟨top, k⟩
  · cases hmem
  · have htop : m.Top i top := ⟨k, hi⟩
    have hbase := h.blocked htop.mem_frames fun c fs s' hexec =>
      let ⟨u, hu⟩ := htop.exists_step hexec
      hstuck _ u hu
    have hbelow := (List.pairwise_cons.mp (habove _ hthread)).1
    rcases List.mem_cons.mp hmem with rfl | hmem
    · rcases hbase with ⟨rfl, hqueue⟩ | ⟨tasks, rest, rfl⟩
      · exact ⟨fun _ => hqueue, trivial, fun p hp => hp⟩
      · exact ⟨(fun heq => nomatch heq), trivial, fun p hp => hp⟩
    · have hclient : f = .client := by
        refine hbelow f hmem ?_
        rcases hbase with ⟨rfl, -⟩ | ⟨tasks, rest, rfl⟩ <;> rfl
      subst hclient
      exact ⟨(fun heq => nomatch heq), trivial, fun p hp => hp⟩

/-- In a state without steps every scheduled task is done. -/
lemma Invariant.done_of_stuck (h : Invariant edges s F)
    (hacyclic : Acyclic fun p u => (p, u) ∈ edges) (hqueue : s.queue = [])
    (hneutral : ∀ f ∈ F, f.Neutral ∧ ∀ p, ¬ f.Schedules p) {t : τ}
    (ht : .scheduled ≤ (s.tasks t).state) : (s.tasks t).state = .done := by
  have htotal : ∀ w : Frame τ → ℕ, (∀ g : Frame τ, g.Neutral → w g = 0) → total w F = 0 :=
    fun w hw => total_eq_zero fun g hg => hw g (hneutral g hg).1
  by_contra hnot
  -- among the scheduled tasks that are not done take one whose predecessors are not of the kind
  obtain ⟨u, -, ⟨hscheduled, hundone⟩, hmin⟩ := hacyclic.exists_minimal (t :: edges.map Prod.fst)
    (P := fun u => .scheduled ≤ (s.tasks u).state ∧ (s.tasks u).state ≠ .done)
    ⟨t, List.mem_cons_self, ht, hnot⟩
  have hstate : (s.tasks u).state = .scheduled := by
    have henqueued := (h.located u).enqueued
    have hstarted := (h.located u).started
    rw [htotal _ fun g hg => hg.enqueuedTokens u, hqueue] at henqueued
    rw [htotal _ fun g hg => hg.startedTokens u] at hstarted
    cases hs : (s.tasks u).state with
    | created =>
      rw [hs] at hscheduled
      exact absurd hscheduled (by decide)
    | scheduled => rfl
    | enqueued =>
      rw [hs] at henqueued
      simp at henqueued
    | started =>
      rw [hs] at hstarted
      exact absurd hstarted (by decide)
    | done => exact absurd hs hundone
  rcases (h.awaited u).awake hstate with htokens | ⟨p, hp, hpending⟩
  · rw [htotal _ fun g hg => hg.schedulingTokens u, htotal _ fun g hg => hg.readyTokens u] at htokens
    exact absurd htokens (by decide)
  · -- a pending predecessor is scheduled, so it is done and has decremented the count
    have hedge := (h.links.mem_predecessors p u).mp hp
    have hpscheduled : .scheduled ≤ (s.tasks p).state := by
      rcases h.reached p u hedge hscheduled with hp | htokens | ⟨g, hg, hgp⟩
      · exact hp
      · rw [htotal _ fun g hg => hg.schedulingTokens u] at htokens
        exact absurd htokens (by decide)
      · exact absurd hgp ((hneutral g hg).2 p)
    have hpdone : (s.tasks p).state = .done := by
      by_contra hnot
      exact hmin p (List.mem_cons_of_mem _ (List.mem_map_of_mem (f := Prod.fst) hedge)) hedge
        ⟨hpscheduled, hnot⟩
    have hnews := h.notified p u
    rw [Notified, htotal _ fun g hg => hg.newsTokens p u, if_pos hpdone,
      h.links.count_successors hedge] at hnews
    exact hpending (List.count_pos_iff.mp (by omega))

/-! ### Every run -/

section Run

variable {numClients numThreads : ℕ} {as : List (ℕ × Choice τ)}
  {m : Machine (Frame τ) (FragmentScheduler τ)}

/-- **Dependency-correct execution**: after every run each task was enqueued and executed at most
once, executed after its predecessors were done, and counts exactly those that have not decremented
its count; with an executor thread, every scheduled task was executed once there is no step. -/
theorem executes_in_order (hacyclic : Acyclic fun p t => (p, t) ∈ edges)
    (h : Run Step (initial edges numClients numThreads) as m) :
    (∀ t, m.shared.events.count (.enqueued t) ≤ 1 ∧ m.shared.events.count (.executed t) ≤ 1) ∧
    (∀ p t, (p, t) ∈ edges → Before (.done p) (.executed t) m.shared.events) ∧
    (∀ t, (m.shared.tasks t).pendingPredecessors = ⟨pendingCount m.shared t, false⟩) ∧
    Links edges m.shared ∧
    (0 < numThreads → (∀ a m', ¬ Step m a m') → ∀ t, (m.shared.tasks t).isScheduled →
      .executed t ∈ m.shared.events ∧ (m.shared.tasks t).isDone) := by
  have hinv := invariant_of_run h
  refine ⟨fun t => ⟨?_, ?_⟩, hinv.before, hinv.counted, hinv.links, fun hpos hstuck t ht => ?_⟩
  · rw [(hinv.located t).enqueuedEvents]
    split <;> omega
  · rw [(hinv.located t).executedEvents]
    split <;> omega
  · have hwait := fun f hf => hinv.of_stuck (f := f) (above_of_run h) hstuck hf
    have hqueue := (hwait .worker (worker_mem_of_run hpos h)).1 rfl
    have hdone := hinv.done_of_stuck hacyclic hqueue (fun f hf => (hwait f hf).2)
      (of_decide_eq_true ht)
    refine ⟨?_, decide_eq_true hdone⟩
    have hcount := (hinv.located t).executedEvents
    rw [hdone, if_pos (by decide)] at hcount
    exact List.count_pos_iff.mp (by omega)

/-- No thread takes a step if each has ended or is an executor thread, and the queue is empty. -/
lemma not_step_of_forall {m m' : Machine (Frame τ) (FragmentScheduler τ)} {a : ℕ × Choice τ}
    (hthreads : ∀ thread ∈ m.threads, thread = [] ∨ thread = [.worker])
    (hqueue : [.worker] ∈ m.threads → m.shared.queue = []) : ¬ Step m a m' := by
  intro hstep
  obtain ⟨f, k, fs, -, htop, hexec, -, -, -⟩ := hstep.exists_frame
  have hmem := List.mem_of_getElem? htop
  rcases hthreads _ hmem with hnil | hworker
  · cases hnil
  · obtain ⟨rfl, rfl⟩ := List.cons.inj hworker
    simp only [exec, hqueue hmem] at hexec
    cases hexec

end Run

/-- The steps in which a client schedules the second of two linked tasks and an executor thread
executes both. -/
def scheduleSecond : List (ℕ × Choice ℕ) :=
  (0, .scheduleTasks [1]) :: List.replicate 13 (0, .finish) ++ List.replicate 18 (1, .finish)

theorem executes_in_order_pair : ∃ m, Run Step (initial [(0, 1)] 1 1) scheduleSecond m ∧
    m.shared.events.count (.executed 0) ≤ 1 ∧ Before (.done 0) (.executed 1) m.shared.events ∧
    (m.shared.tasks 1).pendingPredecessors = ⟨pendingCount m.shared 1, false⟩ ∧
    .executed 1 ∈ m.shared.events := by
  have hrun : ((initial [(0, 1)] 1 1).run exec scheduleSecond).map
      (fun m => (m.threads, m.shared.queue, (m.shared.tasks 1).state)) =
        some ([[], [.worker]], [], .done) := by decide
  obtain ⟨m, hm, hstate⟩ := Option.map_eq_some_iff.mp hrun
  obtain ⟨hthreads, hqueue, hdone⟩ : m.threads = [[], [.worker]] ∧ m.shared.queue = [] ∧
      (m.shared.tasks 1).state = .done := by simpa using hstate
  have hacyclic : Acyclic fun p t => (p, t) ∈ [((0 : ℕ), (1 : ℕ))] :=
    Acyclic.of_rank id fun a b hab => by
      obtain ⟨rfl, rfl⟩ : a = 0 ∧ b = 1 := by simpa using hab
      decide
  obtain ⟨honce, hbefore, hcounted, -, hwoken⟩ :=
    executes_in_order hacyclic (Machine.run_of_eq_some hm)
  have hstuck : ∀ a m', ¬ Step m a m' := fun a m' =>
    not_step_of_forall (by rw [hthreads]; decide) fun _ => hqueue
  refine ⟨m, Machine.run_of_eq_some hm, (honce 0).2, hbefore 0 1 (by decide), hcounted 1, ?_⟩
  exact (hwoken Nat.one_pos hstuck 1 (by rw [AbstractTask.isScheduled, hdone]; rfl)).1

/-- Without executor threads a task that was scheduled is never executed. -/
theorem not_executed_of_no_threads : ¬ ∀ (edges : List (ℕ × ℕ)) (numClients numThreads : ℕ)
    (as : List (ℕ × Choice ℕ)) (m : Machine (Frame ℕ) (FragmentScheduler ℕ)),
    (Acyclic fun p t => (p, t) ∈ edges) → Run Step (initial edges numClients numThreads) as m →
    (∀ a m', ¬ Step m a m') → ∀ t, (m.shared.tasks t).isScheduled →
      .executed t ∈ m.shared.events := by
  intro hclaim
  have hrun : ((initial ([] : List (ℕ × ℕ)) 1 0).run exec
      ((0, .scheduleTasks [0]) :: List.replicate 8 (0, .finish))).map
      (fun m => (m.threads, m.shared.events, (m.shared.tasks 0).state)) =
        some ([[]], [.enqueued 0], .enqueued) := by decide
  obtain ⟨m, hm, hstate⟩ := Option.map_eq_some_iff.mp hrun
  obtain ⟨hthreads, hevents, henqueued⟩ : m.threads = [[]] ∧ m.shared.events = [.enqueued 0] ∧
      (m.shared.tasks 0).state = .enqueued := by simpa using hstate
  have hstuck : ∀ a m', ¬ Step m a m' := fun a m' =>
    not_step_of_forall (by rw [hthreads]; decide) fun hmem => by
      rw [hthreads] at hmem
      exact absurd hmem (by decide)
  have hexecuted := hclaim [] 1 0 _ m (Acyclic.of_rank id fun a b hab => by cases hab)
    (Machine.run_of_eq_some hm) hstuck 0 (by rw [AbstractTask.isScheduled, henqueued]; rfl)
  rw [hevents] at hexecuted
  exact absurd hexecuted (by decide)

end FragmentScheduler

end Skyrise

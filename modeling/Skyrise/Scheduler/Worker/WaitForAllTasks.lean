/-
Waiting for all tasks.

A thread in `WaitForAllTasks` holds the mutex while it tests the number of scheduled
tasks, and releases it when it falls asleep.  The end of `OnTaskFinished` decrements
the number and notifies the sleepers without the mutex, so that a notification may
fall between the test and the sleep.  `Schedule` counts a task after it has made the
transition, so that the task may finish before it is counted.

Both races are the only ways in which a thread is left asleep or the number wraps.
Which tasks are counted is a history that no code reads.
-/
import Skyrise.Scheduler.Worker.Effect

namespace Skyrise

open Concurrency FragmentScheduler

/-- The state that all threads share, with the mutex and the condition variable. -/
structure WaitForAllTasks (τ : Type) where
  scheduler : FragmentScheduler τ
  /-- Whether a thread holds `lock_`. -/
  isLocked : Bool := false
  /-- The threads that sleep on `lock_condition_` and were not notified. -/
  sleeping : List ℕ := []
  /-- How many threads have fallen asleep. -/
  sleepers : ℕ := 0
  /-- The tasks that are counted in the number of scheduled tasks. -/
  counted : List τ := []

namespace WaitForAllTasks

variable {τ : Type}

/-- What a thread has to do next. -/
inductive WaitFrame (τ : Type) where
  /-- A frame of the scheduler, but not the end of `OnTaskFinished`. -/
  | scheduler (frame : Frame τ)
  /-- The end of `OnTaskFinished`. -/
  | countDown (task : τ)
  /-- `OnTaskFinished` after a decrement to zero. -/
  | notifyAll
  /-- `WaitForAllTasks`, also after it was woken: the mutex is locked. -/
  | lock
  /-- `WaitForAllTasks` with the mutex: are there scheduled tasks? -/
  | test
  /-- `WaitForAllTasks` after the test: the mutex is released and the thread falls asleep. -/
  | fallAsleep
  /-- `WaitForAllTasks` inside `wait`. -/
  | asleep (sleeper : ℕ)
deriving DecidableEq, Repr

/-- What a step leaves open. -/
inductive WaitChoice (τ : Type) where
  /-- A choice of the scheduler. -/
  | scheduler (choice : Choice τ)
  /-- A client or a task calls `WaitForAllTasks`. -/
  | waitForAllTasks
  /-- A thread wakes up without a notification. -/
  | spurious
deriving DecidableEq, Repr

/-- The task that is counted when a frame is executed. -/
def countedBy : Frame τ → List τ
  | .countScheduled t => [t]
  | _ => []

variable [DecidableEq τ]

/-- Executing a frame. -/
def exec (frame : WaitFrame τ) (choice : WaitChoice τ) (s : WaitForAllTasks τ) :
    Outcome (WaitFrame τ) (WaitForAllTasks τ) Exception :=
  match frame with
  | .lock => if s.isLocked then .blocked else .ok [.test] { s with isLocked := true }
  | .test =>
    if s.scheduler.numScheduledTasks.value = 0 then .ok [] { s with isLocked := false }
    else .ok [.fallAsleep] s
  | .fallAsleep => .ok [.asleep s.sleepers]
      { s with
        isLocked := false
        sleeping := s.sleeping ++ [s.sleepers]
        sleepers := s.sleepers + 1 }
  | .asleep sleeper =>
    if sleeper ∈ s.sleeping then
      match choice with
      | .spurious => .ok [.lock] { s with sleeping := s.sleeping.erase sleeper }
      | _ => .blocked
    else .ok [.lock] s
  | .countDown t =>
    let numScheduledTasks := s.scheduler.numScheduledTasks.decrement
    .ok (if numScheduledTasks.value = 0 then [.notifyAll] else [])
      { s with
        scheduler := { s.scheduler with numScheduledTasks := numScheduledTasks }
        counted := s.counted.erase t }
  | .notifyAll => .ok [] { s with sleeping := [] }
  | .scheduler (.onTaskFinished t []) => .ok [.countDown t] s
  -- `countDown` stands in its place
  | .scheduler .countDown => .blocked
  | .scheduler frame =>
    match choice with
    | .scheduler choice =>
      match FragmentScheduler.exec frame choice s.scheduler with
      | .blocked => .blocked
      | .error e => .error e
      | .ok frames scheduler => .ok (frames.map .scheduler)
          { s with scheduler := scheduler, counted := s.counted ++ countedBy frame }
    | .waitForAllTasks =>
      match frame with
      | .client | .onExecute _ => .ok [.lock, .scheduler frame] s
      | _ => .blocked
    | .spurious => .blocked

/-- The steps of the threads. -/
abbrev Step : Machine (WaitFrame τ) (WaitForAllTasks τ) → ℕ × WaitChoice τ →
    Machine (WaitFrame τ) (WaitForAllTasks τ) → Prop :=
  Machine.Step exec

/-- Tasks with links, none of which is scheduled, a number of clients and a number of executor
threads. -/
def initial (edges : List (τ × τ)) (numClients numThreads : ℕ) :
    Machine (WaitFrame τ) (WaitForAllTasks τ) where
  shared := { scheduler := { tasks := AbstractTask.ofEdges edges } }
  threads := List.replicate numClients [.scheduler .client] ++
    List.replicate numThreads [.scheduler .worker]

/-! ### Lost wake-ups -/

/-- The frames of a thread inside `WaitForAllTasks`. -/
def WaitFrame.Waits : WaitFrame τ → Prop
  | .lock | .test | .fallAsleep | .asleep _ => True
  | _ => False

/-- No step is enabled.  That a thread may wake up without a notification is not relied on. -/
def Stuck (m : Machine (WaitFrame τ) (WaitForAllTasks τ)) : Prop :=
  ∀ a m', a.2 ≠ .spurious → ¬ Step m a m'

/-- A thread is inside `WaitForAllTasks`, the number of scheduled tasks is zero, and no step is
enabled. -/
def Lost (m : Machine (WaitFrame τ) (WaitForAllTasks τ)) : Prop :=
  m.shared.scheduler.numScheduledTasks.value = 0 ∧ Stuck m ∧ ∃ f ∈ m.frames, f.Waits

/-- A step in which no task is counted down before it is counted, no notification falls between the
test and the sleep of a thread unless another one or another task is to come, and the number of
scheduled tasks stays below 2⁶⁴. -/
structure AvoidsRaces (m : Machine (WaitFrame τ) (WaitForAllTasks τ)) (a : ℕ × WaitChoice τ) :
    Prop where
  counted : ∀ t, m.Top a.1 (.countDown t) → .scheduler (.countScheduled t) ∉ m.frames
  notified : m.Top a.1 .notifyAll → .fallAsleep ∈ m.frames →
    m.shared.scheduler.numScheduledTasks.value ≠ 0 ∨ ∃ i, i ≠ a.1 ∧ m.Top i .notifyAll
  bounded : ∀ t, m.Top a.1 (.scheduler (.countScheduled t)) →
    m.shared.scheduler.numScheduledTasks.value + 1 < 2 ^ 64

/-! ### Accounting for the tasks -/

/-- Frames that will count a task. -/
@[simp]
def uncountedTokens (u : τ) : Frame τ → ℕ
  | .countScheduled t => if t = u then 1 else 0
  | _ => 0

/-- Frames that will count a task down. -/
@[simp]
def finishingTokens (u : τ) : Frame τ → ℕ
  | .onTaskFinished t _ => if t = u then 1 else 0
  | _ => 0

/-- A task that is scheduled and not done. -/
def unfinished (state : TaskState) : ℕ := if .scheduled ≤ state ∧ state ≠ .done then 1 else 0

lemma uncountedTokens_eq_zero {f : Frame τ} (h : f.Neutral) (u : τ) : uncountedTokens u f = 0 := by
  cases f <;> first | rfl | cases h

lemma finishingTokens_eq_zero {f : Frame τ} (h : f.Neutral) (u : τ) : finishingTokens u f = 0 := by
  cases f <;> first | rfl | cases h

omit [DecidableEq τ] in
lemma countedBy_eq_nil {f : Frame τ} (h : f.Neutral) : countedBy f = [] := by
  cases f <;> first | rfl | cases h

/-- A task is counted after it was scheduled, and will be counted down when it is done. -/
lemma account_of_effect {f : Frame τ} {fs : List (Frame τ)} {s s' : FragmentScheduler τ}
    (he : Effect s f fs s') (hend : ∀ t, f ≠ .onTaskFinished t []) (u : τ) :
    (countedBy f).count u + (fs.map (uncountedTokens u)).sum + unfinished (s.tasks u).state +
        finishingTokens u f =
      uncountedTokens u f + unfinished (s'.tasks u).state + (fs.map (finishingTokens u)).sum := by
  cases he with
  | neutral hf hfs _ hsame =>
    rw [sum_map_eq_zero hfs fun g hg => uncountedTokens_eq_zero hg u,
      sum_map_eq_zero hfs fun g hg => finishingTokens_eq_zero hg u, uncountedTokens_eq_zero hf,
      finishingTokens_eq_zero hf, countedBy_eq_nil hf, hsame.tasks]
    simp
  | pop hf hfs =>
    rw [List.map_cons, List.map_cons, List.sum_cons, List.sum_cons,
      sum_map_eq_zero hfs fun g hg => uncountedTokens_eq_zero hg u,
      sum_map_eq_zero hfs fun g hg => finishingTokens_eq_zero hg u, uncountedTokens_eq_zero hf,
      finishingTokens_eq_zero hf, countedBy_eq_nil hf]
    simp
  | call hfs =>
    rw [List.map_append, List.map_append, List.sum_append, List.sum_append,
      sum_map_eq_zero hfs fun g hg => uncountedTokens_eq_zero hg u,
      sum_map_eq_zero hfs fun g hg => finishingTokens_eq_zero hg u]
    simp [countedBy]
  | countScheduled hsame => simp [countedBy, hsame.tasks, List.count_singleton]
  | finished => exact absurd rfl (hend _)
  | schedule ht | submit ht | execute ht | finish ht =>
    rename_i t
    rcases eq_or_ne u t with rfl | hut
    · simp [countedBy, ht, unfinished, TaskState.le_iff, TaskState.toNat]
    · simp [countedBy, hut, hut.symm]
  | onExecute | decrementToZero | decrement =>
    rename_i t _
    rcases eq_or_ne u t with rfl | hut
    · simp [countedBy]
    · simp [countedBy, hut]
  | _ => simp [countedBy]

/-- Only the increment and the decrement change the number of scheduled tasks. -/
lemma numScheduledTasks_of_exec {f : Frame τ} {fs : List (Frame τ)} {s s' : FragmentScheduler τ}
    {c : Choice τ} (h : FragmentScheduler.exec f c s = .ok fs s') (hcount : countedBy f = [])
    (hdown : f ≠ .countDown) : s'.numScheduledTasks = s.numScheduledTasks := by
  cases f with
  | client | onExecute t => cases c <;> cases h <;> rfl
  | countScheduled t => cases hcount
  | countDown => exact absurd rfl hdown
  | push t =>
    cases h
    rfl
  | scheduleTasks rest | schedulePredecessors rest | onTaskFinished t rest =>
    cases rest <;> cases h <;> rfl
  | waitFor tasks rest | join tasks rest =>
    cases rest with
    | nil =>
      cases h
      rfl
    | cons t rest =>
      simp only [FragmentScheduler.exec] at h
      split at h <;> cases h <;> rfl
  | _ =>
    simp only [FragmentScheduler.exec] at h
    split at h <;> cases h <;> rfl

/-! ### Steps -/

variable {edges : List (τ × τ)} {s s' : WaitForAllTasks τ} {f : WaitFrame τ}
  {fs : List (WaitFrame τ)} {c : WaitChoice τ} {rest F : Multiset (WaitFrame τ)}

/-- A frame of the scheduler goes on to the end of `OnTaskFinished`, calls `WaitForAllTasks`, or has
its effect. -/
lemma exec_scheduler {frame : Frame τ} (h : exec (.scheduler frame) c s = .ok fs s') :
    (∃ t, frame = .onTaskFinished t [] ∧ fs = [.countDown t] ∧ s' = s) ∨
      (fs = [.lock, .scheduler frame] ∧ s' = s) ∨
        ∃ choice frames scheduler, frame ≠ .countDown ∧ (∀ t, frame ≠ .onTaskFinished t []) ∧
          FragmentScheduler.exec frame choice s.scheduler = .ok frames scheduler ∧
          fs = frames.map .scheduler ∧
          s' = { s with scheduler := scheduler, counted := s.counted ++ countedBy frame } := by
  by_cases hend : ∃ t, frame = .onTaskFinished t []
  · obtain ⟨t, rfl⟩ := hend
    cases h
    exact .inl ⟨t, rfl, rfl, rfl⟩
  by_cases hdown : frame = .countDown
  · subst hdown
    cases h
  cases c with
  | spurious =>
    cases frame with
    | onTaskFinished t successors =>
      cases successors with
      | nil => exact absurd ⟨t, rfl⟩ hend
      | cons u successors => cases h
    | _ => cases h
  | waitForAllTasks =>
    cases frame with
    | client | onExecute t =>
      cases h
      exact .inr (.inl ⟨rfl, rfl⟩)
    | onTaskFinished t successors =>
      cases successors with
      | nil => exact absurd ⟨t, rfl⟩ hend
      | cons u successors => cases h
    | _ => cases h
  | scheduler choice =>
    have hexec : exec (.scheduler frame) (.scheduler choice) s =
        match FragmentScheduler.exec frame choice s.scheduler with
        | .blocked => .blocked
        | .error e => .error e
        | .ok frames scheduler => .ok (frames.map .scheduler)
            { s with scheduler := scheduler, counted := s.counted ++ countedBy frame } := by
      cases frame with
      | onTaskFinished t successors =>
        cases successors with
        | nil => exact absurd ⟨t, rfl⟩ hend
        | cons u successors => rfl
      | countDown => exact absurd rfl hdown
      | _ => rfl
    rw [hexec] at h
    split at h <;> cases h
    exact .inr (.inr ⟨choice, _, _, hdown, fun t ht => hend ⟨t, ht⟩, ‹_›, rfl, rfl⟩)

/-! ### The invariant -/

/-- Frames that will count a task. -/
@[simp]
def WaitFrame.uncounted (u : τ) : WaitFrame τ → ℕ
  | .scheduler frame => uncountedTokens u frame
  | _ => 0

/-- Frames that will count a task down. -/
@[simp]
def WaitFrame.finishing (u : τ) : WaitFrame τ → ℕ
  | .scheduler frame => finishingTokens u frame
  | .countDown t => if t = u then 1 else 0
  | _ => 0

/-- The frames of a thread that has the mutex. -/
def WaitFrame.Holds : WaitFrame τ → Prop
  | .test | .fallAsleep => True
  | _ => False

/-- What holds of the tasks, the sleepers and the frames of all threads. -/
structure Inv (s : WaitForAllTasks τ) (F : Multiset (WaitFrame τ)) : Prop where
  counted : ∀ u, s.counted.count u + total (WaitFrame.uncounted u) F =
    unfinished (s.scheduler.tasks u).state + total (WaitFrame.finishing u) F
  value : s.scheduler.numScheduledTasks = ⟨s.counted.length, false⟩
  /-- If no task is counted, then nobody sleeps, or a notification is to come. -/
  awake : s.counted = [] → (s.sleeping = [] ∧ .fallAsleep ∉ F) ∨ .notifyAll ∈ F
  held : s.isLocked = true → ∃ f ∈ F, f.Holds

/-- The tokens of a task stay where they are. -/
lemma Inv.counted_of_replace (h : Inv s (f ::ₘ rest)) {u : τ}
    (huncounted : (fs.map (WaitFrame.uncounted u)).sum = f.uncounted u)
    (hfinishing : (fs.map (WaitFrame.finishing u)).sum = f.finishing u) :
    s.counted.count u + total (WaitFrame.uncounted u) (↑fs + rest) =
      unfinished (s.scheduler.tasks u).state + total (WaitFrame.finishing u) (↑fs + rest) := by
  have hcounted := h.counted u
  rw [total_cons, total_cons] at hcounted
  rwa [total_coe_add, total_coe_add, huncounted, hfinishing]

/-- A notification is still to come, and no other thread is about to fall asleep, after a frame that
does not notify. -/
lemma Inv.awake_of_replace (h : Inv s (f ::ₘ rest)) (fs : List (WaitFrame τ)) (hnotify : f ≠ .notifyAll)
    (hasleep : .fallAsleep ∉ fs) (hcounted : s.counted = []) :
    (s.sleeping = [] ∧ .fallAsleep ∉ (↑fs + rest : Multiset (WaitFrame τ))) ∨
      .notifyAll ∈ (↑fs + rest : Multiset (WaitFrame τ)) := by
  rw [Multiset.mem_add, Multiset.mem_add, Multiset.mem_coe, Multiset.mem_coe]
  rcases h.awake hcounted with ⟨hsleeping, hnot⟩ | hmem
  · refine .inl ⟨hsleeping, not_or.mpr ⟨hasleep, fun hmem => ?_⟩⟩
    exact hnot (Multiset.mem_cons_of_mem hmem)
  · exact .inr (.inr ((Multiset.mem_cons.mp hmem).resolve_left hnotify.symm))

omit [DecidableEq τ] in
/-- Another thread has the mutex still. -/
lemma exists_holds (hf : ¬ f.Holds) (fs : List (WaitFrame τ)) (h : ∃ g ∈ f ::ₘ rest, g.Holds) :
    ∃ g ∈ ↑fs + rest, g.Holds :=
  Machine.exists_mem_of_replace (fun hholds => absurd hholds hf) h

/-- Frames of the scheduler have their tokens there. -/
lemma sum_uncounted (frames : List (Frame τ)) (u : τ) :
    ((frames.map WaitFrame.scheduler).map (WaitFrame.uncounted u)).sum =
      (frames.map (uncountedTokens u)).sum := by
  rw [List.map_map]
  rfl

lemma sum_finishing (frames : List (Frame τ)) (u : τ) :
    ((frames.map WaitFrame.scheduler).map (WaitFrame.finishing u)).sum =
      (frames.map (finishingTokens u)).sum := by
  rw [List.map_map]
  rfl

/-- A frame of the scheduler keeps the invariant, if the number does not wrap. -/
lemma Inv.scheduler {frame : Frame τ} (h : Inv s (.scheduler frame ::ₘ rest))
    (hbounded : ∀ t, frame = .countScheduled t →
      s.scheduler.numScheduledTasks.value + 1 < 2 ^ 64)
    (hexec : exec (.scheduler frame) c s = .ok fs s') : Inv s' (↑fs + rest) := by
  have hheld : ∀ fs : List (WaitFrame τ), s.isLocked = true → ∃ g ∈ ↑fs + rest, g.Holds :=
    fun fs hlocked => exists_holds (f := .scheduler frame) id fs (h.held hlocked)
  rcases exec_scheduler hexec with ⟨t, rfl, rfl, rfl⟩ | ⟨rfl, rfl⟩ |
    ⟨choice, frames, scheduler, hdown, hend, hscheduler, rfl, rfl⟩
  · exact ⟨fun u => h.counted_of_replace (by simp) (by simp), h.value,
      h.awake_of_replace _ (by simp) (by simp), hheld _⟩
  · exact ⟨fun u => h.counted_of_replace (by simp) (by simp), h.value,
      h.awake_of_replace _ (by simp) (by simp), hheld _⟩
  · refine ⟨fun u => ?_, ?_, fun hcounted => ?_, hheld _⟩
    · have haccount := account_of_effect (exec_effect hscheduler) hend u
      have hcounted := h.counted u
      rw [total_cons, total_cons] at hcounted
      rw [total_coe_add, total_coe_add, sum_uncounted, sum_finishing, List.count_append]
      simp only [WaitFrame.uncounted, WaitFrame.finishing] at hcounted
      show _ = unfinished (scheduler.tasks u).state + _
      omega
    · by_cases hcountedBy : countedBy frame = []
      · rw [numScheduledTasks_of_exec hscheduler hcountedBy hdown, hcountedBy, List.append_nil]
        exact h.value
      · obtain ⟨t, rfl⟩ : ∃ t, frame = .countScheduled t := by
          cases frame with
          | countScheduled t => exact ⟨t, rfl⟩
          | _ => exact absurd rfl hcountedBy
        cases hscheduler
        have hlt := hbounded t rfl
        rw [h.value] at hlt
        show s.scheduler.numScheduledTasks.increment = _
        rw [h.value, Counter.increment, Nat.mod_eq_of_lt hlt, List.length_append]
        rfl
    · obtain ⟨hnone, -⟩ := List.append_eq_nil_iff.mp hcounted
      exact h.awake_of_replace _ (by simp) (by simp) hnone

/-- Counting down a task that is counted keeps the invariant. -/
lemma Inv.countDown {t : τ} (h : Inv s (.countDown t ::ₘ rest))
    (hcounted : .scheduler (.countScheduled t) ∉ rest)
    (hexec : exec (.countDown t) c s = .ok fs s') : Inv s' (↑fs + rest) := by
  cases hexec
  have huncounted : total (WaitFrame.uncounted t) rest = 0 := by
    refine total_eq_zero fun f hf => ?_
    cases f with
    | scheduler frame =>
      cases frame with
      | countScheduled u =>
        by_cases hu : u = t
        · exact absurd (hu ▸ hf) hcounted
        · simp [hu]
      | _ => rfl
    | _ => rfl
  have hmem : t ∈ s.counted := by
    have haccount := h.counted t
    rw [total_cons, total_cons, huncounted] at haccount
    simp only [WaitFrame.uncounted, WaitFrame.finishing, if_true] at haccount
    exact List.count_pos_iff.mp (by omega)
  have hlength := List.length_erase_add_one hmem
  have hvalue : s.scheduler.numScheduledTasks.decrement = ⟨(s.counted.erase t).length, false⟩ := by
    rw [h.value, ← hlength, Counter.decrement_succ]
  refine ⟨fun u => ?_, hvalue, fun hnone => .inr ?_, fun hlocked => ?_⟩
  · have haccount := h.counted u
    rw [total_cons, total_cons] at haccount
    rw [total_coe_add, total_coe_add]
    have hzero : ∀ w : WaitFrame τ → ℕ, w .notifyAll = 0 →
        ((if s.scheduler.numScheduledTasks.decrement.value = 0 then [WaitFrame.notifyAll]
          else []).map w).sum = 0 := by
      intro w hw
      split <;> simp [hw]
    rw [hzero _ rfl, hzero _ rfl]
    have hpos := List.count_pos_iff.mpr hmem
    show _ = unfinished (s.scheduler.tasks u).state + _
    simp only [WaitFrame.uncounted, WaitFrame.finishing] at haccount
    rcases eq_or_ne t u with rfl | hne
    · rw [List.count_erase_self]
      simp only [if_true] at haccount
      omega
    · rw [List.count_erase_of_ne hne.symm]
      simp only [hne, if_false] at haccount
      omega
  · rw [hvalue]
    simp only at hnone
    simp [hnone]
  · exact exists_holds (f := .countDown t) id _ (h.held hlocked)

/-- A frame of `WaitForAllTasks` keeps the invariant. -/
lemma Inv.waits (h : Inv s (f ::ₘ rest)) (hwaits : f.Waits)
    (hexec : exec f c s = .ok fs s') : Inv s' (↑fs + rest) := by
  cases f with
  | lock =>
    simp only [exec] at hexec
    split at hexec <;> cases hexec
    exact ⟨fun u => h.counted_of_replace (by simp) (by simp), h.value,
      h.awake_of_replace _ (by simp) (by simp), fun _ => ⟨.test, by simp, trivial⟩⟩
  | test =>
    simp only [exec] at hexec
    split at hexec <;> cases hexec
    · exact ⟨fun u => h.counted_of_replace (by simp) (by simp), h.value,
        h.awake_of_replace _ (by simp) (by simp), fun hlocked => by cases hlocked⟩
    · next hvalue =>
      refine ⟨fun u => h.counted_of_replace (by simp) (by simp), h.value, fun hcounted => ?_,
        fun _ => ⟨.fallAsleep, by simp, trivial⟩⟩
      rw [h.value, hcounted] at hvalue
      exact absurd rfl hvalue
  | fallAsleep =>
    cases hexec
    refine ⟨fun u => h.counted_of_replace (by simp) (by simp), h.value, fun hcounted => .inr ?_,
      fun hlocked => by cases hlocked⟩
    rcases h.awake hcounted with ⟨-, hnot⟩ | hmem
    · exact absurd (Multiset.mem_cons_self _ _) hnot
    · rw [Multiset.mem_add]
      exact .inr ((Multiset.mem_cons.mp hmem).resolve_left (by simp))
  | asleep sleeper =>
    have hheld := fun hlocked =>
      exists_holds (f := .asleep sleeper) id [.lock] (h.held hlocked)
    simp only [exec] at hexec
    split at hexec
    · split at hexec <;> cases hexec
      refine ⟨fun u => h.counted_of_replace (by simp) (by simp), h.value, fun hcounted => ?_, hheld⟩
      refine (h.awake_of_replace [.lock] (by simp) (by simp) hcounted).imp_left fun hnone => ?_
      exact ⟨by rw [hnone.1]; rfl, hnone.2⟩
    · cases hexec
      exact ⟨fun u => h.counted_of_replace (by simp) (by simp), h.value,
        h.awake_of_replace _ (by simp) (by simp), hheld⟩
  | _ => exact hwaits.elim

/-- A step that avoids the races keeps the invariant. -/
lemma Inv.step {m m' : Machine (WaitFrame τ) (WaitForAllTasks τ)} {a : ℕ × WaitChoice τ}
    (h : Inv m.shared m.frames) (havoids : AvoidsRaces m a) (hstep : Step m a m') :
    Inv m'.shared m'.frames := by
  obtain ⟨f, k, fs, rest, htop, hexec, hthreads, hold, hnew⟩ := hstep.exists_frame
  have hrest : ∀ g ∈ rest, g ∈ m.frames := fun g hg => hold ▸ Multiset.mem_cons_of_mem hg
  rw [hold] at h
  cases f with
  | scheduler frame =>
    rw [hnew]
    refine h.scheduler (fun t ht => ?_) hexec
    exact havoids.bounded t (ht ▸ ⟨k, htop⟩)
  | countDown t =>
    rw [hnew]
    exact h.countDown (fun hmem => havoids.counted t ⟨k, htop⟩ (hrest _ hmem)) hexec
  | notifyAll =>
    obtain ⟨rfl, hshared⟩ : fs = [] ∧ m'.shared = { m.shared with sleeping := [] } := by
      simp only [exec, Outcome.ok.injEq] at hexec
      exact ⟨hexec.1.symm, hexec.2.symm⟩
    rw [hnew, hshared]
    refine ⟨fun u => h.counted_of_replace (by simp) (by simp), h.value, fun hcounted => ?_,
      fun hlocked => exists_holds (f := .notifyAll) id _ (h.held hlocked)⟩
    by_cases hasleep : .fallAsleep ∈ m.frames
    · rcases havoids.notified ⟨k, htop⟩ hasleep with hvalue | ⟨i, hi, k', hk'⟩
      · rw [h.value] at hvalue
        exact absurd (congrArg List.length hcounted) hvalue
      · -- the other notification is to come
        have htop' : m'.Top i .notifyAll := ⟨k', by rw [hthreads, List.getElem?_set_ne hi.symm, hk']⟩
        exact .inr (hnew ▸ htop'.mem_frames)
    · refine .inl ⟨rfl, ?_⟩
      rw [Multiset.mem_add]
      exact not_or.mpr ⟨by simp, fun hmem => hasleep (hrest _ hmem)⟩
  | _ =>
    rw [hnew]
    exact h.waits trivial hexec

lemma mem_frames_initial {numClients numThreads : ℕ}
    (h : f ∈ (initial edges numClients numThreads).frames) :
    f = .scheduler .client ∨ f = .scheduler .worker := by
  obtain ⟨thread, hthread, hf⟩ := Machine.mem_frames.mp h
  rcases List.mem_append.mp hthread with hmem | hmem
  · rw [List.eq_of_mem_replicate hmem] at hf
    exact .inl (List.mem_singleton.mp hf)
  · rw [List.eq_of_mem_replicate hmem] at hf
    exact .inr (List.mem_singleton.mp hf)

lemma inv_initial (edges : List (τ × τ)) (numClients numThreads : ℕ) :
    Inv (initial edges numClients numThreads).shared
      (initial edges numClients numThreads).frames where
  counted u := by
    have hzero : ∀ w : WaitFrame τ → ℕ, w (.scheduler .client) = 0 → w (.scheduler .worker) = 0 →
        total w (initial edges numClients numThreads).frames = 0 := by
      intro w hclient hworker
      refine total_eq_zero fun f hf => ?_
      rcases mem_frames_initial hf with rfl | rfl
      · exact hclient
      · exact hworker
    have hcreated : ((initial edges numClients numThreads).shared.scheduler.tasks u).state =
        .created := (AbstractTask.linked_ofEdges edges).state u
    rw [hzero _ rfl rfl, hzero _ rfl rfl, hcreated]
    rfl
  value := rfl
  awake _ := .inl ⟨rfl, fun hmem => by rcases mem_frames_initial hmem with h | h <;> cases h⟩
  held h := by cases h

/-! ### Progress -/

/-- Only frames of the scheduler stand beneath others. -/
def Beneath (_ g : WaitFrame τ) : Prop := ∃ frame, g = .scheduler frame

lemma pairwise_beneath {numClients numThreads : ℕ} {as : List (ℕ × WaitChoice τ)}
    {m : Machine (WaitFrame τ) (WaitForAllTasks τ)}
    (h : Run Step (initial edges numClients numThreads) as m) :
    ∀ thread ∈ m.threads, thread.Pairwise Beneath := by
  refine Machine.pairwise_of_run (fun thread hthread => ?_) (fun f c s fs s' hexec => ?_) h
  · rcases List.mem_append.mp hthread with hmem | hmem <;> rw [List.eq_of_mem_replicate hmem] <;>
      exact List.pairwise_singleton _ _
  · refine ⟨?_, fun _ _ _ hbelow => hbelow⟩
    cases f with
    | scheduler frame =>
      rcases exec_scheduler hexec with ⟨t, -, rfl, -⟩ | ⟨rfl, -⟩ | ⟨_, frames, _, -, -, -, rfl, -⟩
      · exact List.pairwise_singleton _ _
      · exact List.pairwise_pair.mpr ⟨frame, rfl⟩
      · refine List.pairwise_of_forall_mem_list fun _ _ g hg => ?_
        obtain ⟨frame', -, rfl⟩ := List.mem_map.mp hg
        exact ⟨frame', rfl⟩
    | countDown t =>
      cases hexec
      split
      · exact List.pairwise_singleton _ _
      · exact List.Pairwise.nil
    | asleep sleeper =>
      simp only [exec] at hexec
      split at hexec
      · split at hexec <;> cases hexec
        exact List.pairwise_singleton _ _
      · cases hexec
        exact List.pairwise_singleton _ _
    | lock | test =>
      simp only [exec] at hexec
      split at hexec <;> cases hexec <;> simp
    | fallAsleep | notifyAll =>
      cases hexec
      simp

/-- If no step is enabled, then no frame is blocked but those of the scheduler. -/
lemma Stuck.exec_ne {m : Machine (WaitFrame τ) (WaitForAllTasks τ)} (h : Stuck m)
    (hbeneath : ∀ thread ∈ m.threads, thread.Pairwise Beneath) (hf : f ∈ m.frames)
    (hframe : ∀ frame, f ≠ .scheduler frame) (hc : c ≠ .spurious) :
    exec f c m.shared ≠ .ok fs s' := by
  intro hexec
  obtain ⟨i, g, htop, rfl | ⟨frame, rfl⟩⟩ := Machine.top_or_beneath hbeneath hf
  · obtain ⟨m', hm'⟩ := htop.exists_step hexec
    exact h (i, c) m' hc hm'
  · exact hframe frame rfl

/-- As long as the invariant holds, nobody is left in `WaitForAllTasks`. -/
lemma Inv.not_lost {m : Machine (WaitFrame τ) (WaitForAllTasks τ)} (h : Inv m.shared m.frames)
    (hbeneath : ∀ thread ∈ m.threads, thread.Pairwise Beneath) : ¬ Lost m := by
  rintro ⟨hvalue, hstuck, f, hf, hwaits⟩
  have hne : ∀ {f fs s'}, f ∈ m.frames → (∀ frame, f ≠ .scheduler frame) →
      exec f .waitForAllTasks m.shared ≠ .ok fs s' :=
    fun hf hframe => hstuck.exec_ne hbeneath hf hframe (by simp)
  have hcounted : m.shared.counted = [] := by
    rw [h.value] at hvalue
    exact List.length_eq_zero_iff.mp hvalue
  cases f with
  | lock =>
    cases hlocked : m.shared.isLocked with
    | false => exact hne hf (by simp) (if_neg (by simp [hlocked]))
    | true =>
      obtain ⟨g, hg, hholds⟩ := h.held hlocked
      cases g with
      | test => exact hne hg (by simp) (if_pos hvalue)
      | fallAsleep => exact hne hg (by simp) rfl
      | _ => exact hholds.elim
  | test => exact hne hf (by simp) (if_pos hvalue)
  | fallAsleep => exact hne hf (by simp) rfl
  | asleep sleeper =>
    by_cases hmem : sleeper ∈ m.shared.sleeping
    · rcases h.awake hcounted with ⟨hnone, -⟩ | hnotify
      · rw [hnone] at hmem
        cases hmem
      · exact hne hnotify (by simp) rfl
    · exact hne hf (by simp) (if_neg hmem)
  | _ => exact hwaits.elim

/-! ### Every run -/

/-- No step is enabled if every thread has ended, is asleep, or is an executor thread, and the queue
is empty. -/
lemma stuck_of_forall {m : Machine (WaitFrame τ) (WaitForAllTasks τ)}
    (hthreads : ∀ thread ∈ m.threads, thread = [] ∨
      (∃ sleeper ∈ m.shared.sleeping, thread.head? = some (.asleep sleeper)) ∨
        thread = [.scheduler .worker]) (hqueue : m.shared.scheduler.queue = []) : Stuck m := by
  intro a m' hspurious hstep
  obtain ⟨f, k, fs, -, htop, hexec, -, -, -⟩ := hstep.exists_frame
  rcases hthreads _ (List.mem_of_getElem? htop) with hnil | ⟨sleeper, hsleeper, hhead⟩ | hworker
  · cases hnil
  · obtain rfl := Option.some.inj hhead
    simp only [exec, if_pos hsleeper] at hexec
    cases hexec
  · obtain ⟨rfl, rfl⟩ := List.cons.inj hworker
    cases hchoice : a.2 with
    | scheduler choice =>
      simp only [exec, FragmentScheduler.exec, hqueue, hchoice] at hexec
      cases hexec
    | waitForAllTasks =>
      rw [hchoice] at hexec
      cases hexec
    | spurious => exact hspurious hchoice

/-- A client schedules a task; another tests the number of scheduled tasks; the task finishes and
notifies; the second client falls asleep. -/
def notifyBeforeSleep : List (ℕ × WaitChoice ℕ) :=
  (0, .scheduler (.scheduleTasks [0])) :: List.replicate 8 (0, .scheduler .finish) ++
    (1, .waitForAllTasks) :: List.replicate 2 (1, .scheduler .finish) ++
    List.replicate 7 (2, .scheduler .finish) ++ [(1, .scheduler .finish)]

/-- A task is scheduled but not counted when its predecessor submits it, and finishes. -/
def finishBeforeCount : List (ℕ × WaitChoice ℕ) :=
  (0, .scheduler (.scheduleTasks [0])) :: List.replicate 7 (0, .scheduler .finish) ++
    List.replicate 3 (2, .scheduler .finish) ++
    (1, .scheduler (.scheduleTasks [1])) :: List.replicate 2 (1, .scheduler .finish) ++
    List.replicate 16 (2, .scheduler .finish)

end WaitForAllTasks

end Skyrise

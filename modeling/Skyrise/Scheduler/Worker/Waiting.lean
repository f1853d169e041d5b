/-
The end of a wait for tasks.

A client joins the tasks one after the other and rethrows the exception of the
first that failed, at once; an executor thread executes other jobs until all tasks
are done and looks at no exception.  The tasks before the one that a thread is at
are done, and nothing changes a task that is done.
-/
import Skyrise.Scheduler.Worker.Dependencies

namespace Skyrise

open Concurrency

namespace FragmentScheduler

variable {τ : Type} [DecidableEq τ] {edges : List (τ × τ)} {s s' : FragmentScheduler τ}
  {f : Frame τ} {fs : List (Frame τ)} {rest F : Multiset (Frame τ)}

/-- What a wait has found out about the tasks before the one it is at. -/
def Frame.Waited (s : FragmentScheduler τ) : Frame τ → Prop
  | .waitFor tasks rest => ∃ before, tasks = before ++ rest ∧ ∀ t ∈ before, (s.tasks t).isDone
  | .join tasks rest => ∃ before, tasks = before ++ rest ∧
      ∀ t ∈ before, (s.tasks t).isDone ∧ (s.tasks t).hasException = false
  | .rethrow tasks t rest => (s.tasks t).isDone ∧ ∃ before, tasks = before ++ t :: rest ∧
      ∀ t ∈ before, (s.tasks t).isDone ∧ (s.tasks t).hasException = false
  | _ => True

/-- What happened to the tasks that are done stays. -/
def Kept (s s' : FragmentScheduler τ) : Prop :=
  ∀ t, (s.tasks t).isDone → (s'.tasks t).isDone ∧ (s'.tasks t).hasException = (s.tasks t).hasException

omit [DecidableEq τ] in
lemma Frame.Waited.kept (h : f.Waited s) (hkept : Kept s s') : f.Waited s' := by
  cases f with
  | waitFor tasks rest =>
    obtain ⟨before, htasks, hbefore⟩ := h
    exact ⟨before, htasks, fun t ht => (hkept t (hbefore t ht)).1⟩
  | join tasks rest =>
    obtain ⟨before, htasks, hbefore⟩ := h
    refine ⟨before, htasks, fun t ht => ?_⟩
    obtain ⟨hdone, hexception⟩ := hkept t (hbefore t ht).1
    exact ⟨hdone, hexception.trans (hbefore t ht).2⟩
  | rethrow tasks u rest =>
    obtain ⟨hu, before, htasks, hbefore⟩ := h
    refine ⟨(hkept u hu).1, before, htasks, fun t ht => ?_⟩
    obtain ⟨hdone, hexception⟩ := hkept t (hbefore t ht).1
    exact ⟨hdone, hexception.trans (hbefore t ht).2⟩
  | _ => trivial

lemma Located.kept (h : ∀ u, Located s (f ::ₘ rest) u) (he : Effect s f fs s') : Kept s s' := by
  intro t ht
  have hdone : (s.tasks t).state = .done := of_decide_eq_true ht
  refine ⟨?_, ?_⟩
  · have hle := he.state_le t
    rw [hdone] at hle
    exact decide_eq_true (TaskState.done_le_iff.mp hle)
  · cases he with
    | neutral _ _ _ hsame | countScheduled hsame => rw [hsame.tasks]
    | schedule hu | submit hu | execute hu | finish hu =>
      rename_i u
      rcases eq_or_ne t u with rfl | htu
      · simp
      · simp [htu]
    | onExecute =>
      rename_i u _
      rcases eq_or_ne t u with rfl | htu
      · -- a task that is executed is not done
        have hstarted := (h t).started
        rw [total_cons, hdone] at hstarted
        simp at hstarted
      · simp [htu]
    | decrementToZero | decrement =>
      rename_i p u _
      rcases eq_or_ne t u with rfl | htu
      · simp [AbstractTask.decrementPending]
      · simp [htu]
    | _ => rfl

/-- A wait goes on with what it has found out. -/
lemma waited_of_exec {c : Choice τ} (h : f.Waited s) (hexec : exec f c s = .ok fs s') :
    ∀ g ∈ fs, g.Waited s := by
  cases f with
  | client => cases c <;> cases hexec <;> simp [Frame.Waited]
  | onExecute => cases c <;> cases hexec <;> simp [Frame.Waited]
  | scheduleTasks rest | schedulePredecessors rest | onTaskFinished _ rest =>
    cases rest <;> cases hexec <;> simp [Frame.Waited]
  | countScheduled | push | countDown => cases hexec; simp [Frame.Waited]
  | waitFor tasks rest =>
    cases rest with
    | nil => cases hexec; simp
    | cons t rest =>
      obtain ⟨before, htasks, hbefore⟩ := h
      simp only [exec] at hexec
      split at hexec <;> cases hexec
      · next hdone =>
        rintro g hg
        obtain rfl := List.mem_singleton.mp hg
        refine ⟨before ++ [t], by rw [htasks, List.append_assoc]; rfl, fun u hu => ?_⟩
        rcases List.mem_append.mp hu with hu | hu
        · exact hbefore u hu
        · rwa [List.mem_singleton.mp hu]
      · simp [Frame.Waited]
  | join tasks rest =>
    cases rest with
    | nil => cases hexec; simp
    | cons t rest =>
      obtain ⟨before, htasks, hbefore⟩ := h
      simp only [exec] at hexec
      split at hexec <;> cases hexec
      rintro g hg
      obtain rfl := List.mem_singleton.mp hg
      exact ⟨‹_›, before, htasks, hbefore⟩
  | rethrow tasks t rest =>
    obtain ⟨ht, before, htasks, hbefore⟩ := h
    simp only [exec] at hexec
    split at hexec <;> cases hexec
    · simp
    · next hexception =>
      rintro g hg
      obtain rfl := List.mem_singleton.mp hg
      refine ⟨before ++ [t], by rw [htasks, List.append_assoc]; rfl, fun u hu => ?_⟩
      rcases List.mem_append.mp hu with hu | hu
      · exact hbefore u hu
      · obtain rfl := List.mem_singleton.mp hu
        exact ⟨ht, Bool.eq_false_iff.mpr hexception⟩
  | _ =>
    simp only [exec] at hexec
    split at hexec <;> cases hexec <;> simp [Frame.Waited]

/-- After every run each wait has found out what its frame says. -/
lemma waited_of_run {numClients numThreads : ℕ} {as : List (ℕ × Choice τ)}
    {m : Machine (Frame τ) (FragmentScheduler τ)}
    (h : Run Step (initial edges numClients numThreads) as m) : ∀ f ∈ m.frames, f.Waited m.shared := by
  refine (Machine.invariant_frames
    (I := fun s F => Invariant edges s F ∧ ∀ f ∈ F, f.Waited s) ⟨invariant_initial _ _ _, ?_⟩ ?_ h).2
  · intro f hf
    rcases eq_of_mem_frames_initial hf with rfl | rfl <;> trivial
  · rintro f c s fs s' rest ⟨hinv, hwaited⟩ hexec
    have heffect := exec_effect hexec
    have hkept := Located.kept hinv.located heffect
    refine ⟨hinv.effect heffect, fun g hg => ?_⟩
    rcases Multiset.mem_add.mp hg with hg | hg
    · exact (waited_of_exec (hwaited f (Multiset.mem_cons_self _ _)) hexec g hg).kept hkept
    · exact (hwaited g (Multiset.mem_cons_of_mem hg)).kept hkept

/-! ### The end of a wait -/

/-- The frames that end a wait. -/
inductive Ends (s : FragmentScheduler τ) : Frame τ → Wait τ → Prop
  | waitFor (tasks : List τ) : Ends s (.waitFor tasks []) ⟨true, tasks, false⟩
  | join (tasks : List τ) : Ends s (.join tasks []) ⟨false, tasks, false⟩
  | rethrow (tasks : List τ) (t : τ) (rest : List τ) : (s.tasks t).hasException →
      Ends s (.rethrow tasks t rest) ⟨false, tasks, true⟩

/-- A wait that ends is recorded. -/
lemma waits_of_exec {c : Choice τ} (hexec : exec f c s = .ok fs s') :
    s'.waits = s.waits ∨ ∃ w, s' = s.endWait w ∧ Ends s f w := by
  cases f with
  | client | onExecute => cases c <;> cases hexec <;> exact .inl rfl
  | scheduleTasks rest | schedulePredecessors rest | onTaskFinished _ rest =>
    cases rest <;> cases hexec <;> exact .inl rfl
  | countScheduled | push | countDown => cases hexec; exact .inl rfl
  | waitFor tasks rest =>
    cases rest with
    | nil =>
      cases hexec
      exact .inr ⟨_, rfl, .waitFor tasks⟩
    | cons t rest =>
      simp only [exec] at hexec
      split at hexec <;> cases hexec <;> exact .inl rfl
  | join tasks rest =>
    cases rest with
    | nil =>
      cases hexec
      exact .inr ⟨_, rfl, .join tasks⟩
    | cons t rest =>
      simp only [exec] at hexec
      split at hexec <;> cases hexec
      exact .inl rfl
  | rethrow tasks t rest =>
    simp only [exec] at hexec
    split at hexec <;> cases hexec
    · exact .inr ⟨_, rfl, .rethrow tasks t rest ‹_›⟩
    · exact .inl rfl
  | _ =>
    simp only [exec] at hexec
    split at hexec <;> cases hexec <;> exact .inl rfl

/-- A wait reports the failures: all tasks are done, and it threw if and only if one failed. -/
def Reports (w : Wait τ) (s : FragmentScheduler τ) : Prop :=
  (∀ t ∈ w.tasks, (s.tasks t).isDone) ∧ (w.hasThrown ↔ ∃ t ∈ w.tasks, (s.tasks t).hasException)

omit [DecidableEq τ] in
/-- On an executor thread all tasks are done, and their failures are not reported. -/
lemma Ends.reports_iff {w : Wait τ} (h : Ends s f w) (hwaited : f.Waited s)
    (hthread : w.isExecutorThread) :
    Reports w s ↔ ∀ t ∈ w.tasks, (s.tasks t).hasException = false := by
  cases h with
  | waitFor tasks =>
    obtain ⟨before, htasks, hbefore⟩ := hwaited
    rw [List.append_nil] at htasks
    subst htasks
    constructor
    · rintro ⟨-, hthrown⟩ t ht
      by_contra hexception
      exact absurd (hthrown.mpr ⟨t, ht, by simpa using hexception⟩) Bool.false_ne_true
    · intro hnone
      refine ⟨hbefore, ⟨fun hthrown => absurd hthrown Bool.false_ne_true, ?_⟩⟩
      rintro ⟨t, ht, hexception⟩
      rw [hnone t ht] at hexception
      cases hexception
  | join | rethrow => cases hthread

omit [DecidableEq τ] in
/-- On another thread the failure of the last task is reported after all tasks are done. -/
lemma Ends.reports_of_dropLast {w : Wait τ} (h : Ends s f w) (hwaited : f.Waited s)
    (hthread : w.isExecutorThread = false)
    (hlast : ∀ t ∈ w.tasks.dropLast, (s.tasks t).hasException = false) : Reports w s := by
  cases h with
  | waitFor => cases hthread
  | join tasks =>
    obtain ⟨before, htasks, hbefore⟩ := hwaited
    rw [List.append_nil] at htasks
    subst htasks
    refine ⟨fun t ht => (hbefore t ht).1, ⟨fun hthrown => absurd hthrown Bool.false_ne_true, ?_⟩⟩
    rintro ⟨t, ht, hexception⟩
    rw [(hbefore t ht).2] at hexception
    cases hexception
  | rethrow tasks t rest hexception =>
    obtain ⟨hdone, before, rfl, hbefore⟩ := hwaited
    -- only the last task may have failed
    obtain rfl : rest = [] := by
      by_contra hne
      have hmem : t ∈ (before ++ t :: rest).dropLast := by
        rw [List.dropLast_append_of_ne_nil (List.cons_ne_nil t rest),
          List.dropLast_cons_of_ne_nil hne]
        exact List.mem_append_right _ List.mem_cons_self
      rw [hlast t hmem] at hexception
      cases hexception
    have hmem : t ∈ before ++ [t] := List.mem_append_right _ (List.mem_singleton_self t)
    refine ⟨fun u hu => ?_, ⟨fun _ => ⟨t, hmem, hexception⟩, fun _ => rfl⟩⟩
    rcases List.mem_append.mp hu with hu | hu
    · exact (hbefore u hu).1
    · rwa [List.mem_singleton.mp hu]

/-- The steps in which a client waits for a task that fails, up to the end of the wait. -/
def waitForFailing : List (ℕ × Choice ℕ) :=
  (0, .scheduleAndWaitForTasks [0]) :: List.replicate 7 (0, .finish) ++
    [(1, .finish), (1, .finish), (1, .fail), (1, .finish), (0, .finish)]

/-- A run that is evaluated up to the end of a wait: are all tasks done, and has one failed? -/
lemma exists_step_of_run (i : ℕ) (as : List (ℕ × Choice ℕ)) (w : Wait ℕ) (done failed : Bool)
    (h : ((initial ([] : List (ℕ × ℕ)) 1 1).run exec as).bind (fun m =>
      (m.next exec i .finish).map fun m' =>
        (m.shared.waits, m'.shared.waits, w.tasks.all fun t => (m'.shared.tasks t).isDone,
          w.tasks.any fun t => (m'.shared.tasks t).hasException)) =
        some ([], [w], done, failed)) :
    ∃ m m', Run Step (initial [] 1 1) as m ∧ Step m (i, .finish) m' ∧
      m'.shared.waits = m.shared.waits ++ [w] ∧
      (w.tasks.all fun t => (m'.shared.tasks t).isDone) = done ∧
      (w.tasks.any fun t => (m'.shared.tasks t).hasException) = failed := by
  obtain ⟨m, hm, hrest⟩ := Option.bind_eq_some_iff.mp h
  obtain ⟨m', hm', hstate⟩ := Option.map_eq_some_iff.mp hrest
  obtain ⟨hwaits, hwaits', hdone, hfailed⟩ : m.shared.waits = [] ∧ m'.shared.waits = [w] ∧
      (w.tasks.all fun t => (m'.shared.tasks t).isDone) = done ∧
      (w.tasks.any fun t => (m'.shared.tasks t).hasException) = failed := by
    simpa only [Prod.mk.injEq] using hstate
  exact ⟨m, m', Machine.run_of_eq_some hm, hm', by rw [hwaits, hwaits']; rfl, hdone, hfailed⟩

/-- The steps in which a client waits for two tasks, the first of which fails. -/
def waitForTwo : List (ℕ × Choice ℕ) :=
  (0, .scheduleAndWaitForTasks [0, 1]) :: List.replicate 13 (0, .finish) ++
    [(1, .finish), (1, .finish), (1, .fail), (1, .finish), (0, .finish)]

/-- The steps in which a task waits for another, which fails. -/
def waitInTask : List (ℕ × Choice ℕ) :=
  (0, .scheduleTasks [0]) :: List.replicate 8 (0, .finish) ++
    [(1, .finish), (1, .finish), (1, .scheduleAndWaitForTasks [1])] ++
    List.replicate 10 (1, .finish) ++ (1, .fail) :: List.replicate 4 (1, .finish)

/-- Every wait of a client, or of an executor thread, reports all tasks in every run. -/
def EveryWaitReports (isExecutorThread : Bool) : Prop :=
  ∀ (edges : List (ℕ × ℕ)) (numClients numThreads : ℕ) (as : List (ℕ × Choice ℕ))
    (a : ℕ × Choice ℕ) (m m' : Machine (Frame ℕ) (FragmentScheduler ℕ)) (w : Wait ℕ),
    Run Step (initial edges numClients numThreads) as m → Step m a m' →
    m'.shared.waits = m.shared.waits ++ [w] → w.isExecutorThread = isExecutorThread →
    Reports w m'.shared

end FragmentScheduler

end Skyrise

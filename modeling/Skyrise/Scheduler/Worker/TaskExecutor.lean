/-
The end of an executor.

`~TaskExecutor` may run at any moment: it clears `is_running_`, closes the queue and
joins the threads.  A thread that helps while it waits drops the job that it has
taken if the executor is no longer running, and nothing is pushed to a closed queue
or taken from it by a thread that waits.  A wait that the end of the executor
overlaps with may so be for a task whose job is lost.
-/
import Skyrise.Scheduler.Worker.Dependencies

namespace Skyrise

open Concurrency FragmentScheduler

/-- The state that all threads share, with the flags of the executor and of its queue. -/
structure TaskExecutor (τ : Type) where
  scheduler : FragmentScheduler τ
  /-- `is_running_`. -/
  isRunning : Bool := true
  /-- `closed_` of the queue. -/
  isClosed : Bool := false

namespace TaskExecutor

variable {τ : Type}

/-- What a thread has to do next. -/
inductive ExecutorFrame (τ : Type) where
  /-- A frame of the scheduler, which does not look at the flags unless it pushes or pops. -/
  | scheduler (frame : Frame τ)
  /-- `WorkerMain`: is the executor running? -/
  | workerMain
  /-- `WorkerProcessSingleItem`: `Pop`. -/
  | pop
  /-- `WorkerProcessSingleItemNoWait` after `TryPop`: is the executor running? -/
  | popped (task : τ)
  /-- The destructor. -/
  | shutdown
  /-- The destructor after `is_running_` was cleared. -/
  | close
deriving DecidableEq, Repr

variable [DecidableEq τ]

/-- Executing a frame. -/
def exec (frame : ExecutorFrame τ) (choice : Choice τ) (s : TaskExecutor τ) :
    Outcome (ExecutorFrame τ) (TaskExecutor τ) Exception :=
  match frame with
  | .workerMain => if s.isRunning then .ok [.pop, .workerMain] s else .ok [] s
  | .pop =>
    match s.scheduler.queue with
    | [] => if s.isClosed then .ok [] s else .blocked
    | t :: queue => .ok [.scheduler (.execute t)]
        { s with scheduler := { s.scheduler with queue := queue } }
  | .popped t => if s.isRunning then .ok [.scheduler (.execute t)] s else .ok [] s
  | .shutdown => .ok [.close] { s with isRunning := false }
  -- the threads are joined when they have ended
  | .close => .ok [] { s with isClosed := true }
  -- `TryPop`
  | .scheduler .processItem =>
    if s.isClosed then .ok [] s
    else match s.scheduler.queue with
      | [] => .ok [] s
      | t :: queue => .ok [.popped t] { s with scheduler := { s.scheduler with queue := queue } }
  -- `Push`, whose answer is not looked at
  | .scheduler (.push t) =>
    if s.isClosed then .ok [] s
    else .ok [] { s with scheduler := { s.scheduler with queue := s.scheduler.queue ++ [t] } }
  | .scheduler frame =>
    match FragmentScheduler.exec frame choice s.scheduler with
    | .blocked => .blocked
    | .error e => .error e
    | .ok frames scheduler => .ok (frames.map .scheduler) { s with scheduler := scheduler }

/-- The steps of the threads. -/
abbrev Step : Machine (ExecutorFrame τ) (TaskExecutor τ) → ℕ × Choice τ →
    Machine (ExecutorFrame τ) (TaskExecutor τ) → Prop :=
  Machine.Step exec

/-- Tasks with links, none of which is scheduled, a number of clients, a number of executor threads
and the thread that will run the destructor. -/
def initial (edges : List (τ × τ)) (numClients numThreads : ℕ) :
    Machine (ExecutorFrame τ) (TaskExecutor τ) where
  shared := { scheduler := { tasks := AbstractTask.ofEdges edges } }
  threads := List.replicate numClients [.scheduler .client] ++
    List.replicate numThreads [.workerMain] ++ [[.shutdown]]

/-! ### Stranded waits -/

/-- The frames with which a thread executes a task, from the moment that it is taken. -/
def ExecutorFrame.Executes (t : τ) : ExecutorFrame τ → Prop
  | .popped u => u = t
  | .scheduler (.execute u) | .scheduler (.onExecute u) | .scheduler (.finish u) => u = t
  | _ => False

/-- Whether a task can be taken from the queue: from a closed one only `Pop` takes something. -/
def CanBeTaken (m : Machine (ExecutorFrame τ) (TaskExecutor τ)) (t : τ) : Prop :=
  t ∈ m.shared.scheduler.queue ∧ (m.shared.isClosed = false ∨ .pop ∈ m.frames)

/-- Whether a task can be pushed to the queue: it has not been enqueued, or it is just pushed. -/
def CanBePushed (m : Machine (ExecutorFrame τ) (TaskExecutor τ)) (t : τ) : Prop :=
  m.shared.isClosed = false ∧
    (¬ .enqueued ≤ (m.shared.scheduler.tasks t).state ∨ .scheduler (.push t) ∈ m.frames)

/-- An executor thread waits for a task that is not done, is not executed, and can neither be taken
nor pushed any more. -/
def Stranded (m : Machine (ExecutorFrame τ) (TaskExecutor τ)) : Prop :=
  ∃ tasks rest, .scheduler (.waitFor tasks rest) ∈ m.frames ∧ ∃ t ∈ tasks,
    ¬ (m.shared.scheduler.tasks t).isDone ∧ (∀ f ∈ m.frames, ¬ f.Executes t) ∧
      ¬ CanBeTaken m t ∧ ¬ CanBePushed m t

/-- No executor thread waits for a task that is not done. -/
def NoWait (s : TaskExecutor τ) (F : Multiset (ExecutorFrame τ)) : Prop :=
  ∀ tasks rest, .scheduler (.waitFor tasks rest) ∈ F → ∀ t ∈ tasks, (s.scheduler.tasks t).isDone

/-- In a step the destructor does not overlap with a wait: it does not begin while an executor
thread waits for a task that is not done, and no such wait begins after it. -/
def Undisturbed (m : Machine (ExecutorFrame τ) (TaskExecutor τ)) (a : ℕ × Choice τ) : Prop :=
  (m.Top a.1 .shutdown → NoWait m.shared m.frames) ∧
    ∀ t tasks, m.Top a.1 (.scheduler (.onExecute t)) → a.2 = .scheduleAndWaitForTasks tasks →
      m.shared.isRunning = true ∨ ∀ u ∈ tasks, (m.shared.scheduler.tasks u).isDone

/-! ### Steps -/

variable {edges : List (τ × τ)} {s s' : TaskExecutor τ} {f : ExecutorFrame τ}
  {fs : List (ExecutorFrame τ)} {c : Choice τ} {rest : Multiset (ExecutorFrame τ)}

/-- The frame of a scheduler that is never destroyed. -/
def ExecutorFrame.erase : ExecutorFrame τ → Frame τ
  | .scheduler frame => frame
  | .popped t => .execute t
  | .workerMain | .pop | .shutdown | .close => .worker

lemma exec_scheduler {frame : Frame τ} (hitem : frame ≠ .processItem) (hpush : ∀ t, frame ≠ .push t)
    (h : exec (.scheduler frame) c s = .ok fs s') : ∃ frames scheduler,
      FragmentScheduler.exec frame c s.scheduler = .ok frames scheduler ∧
        fs = frames.map .scheduler ∧ s' = { s with scheduler := scheduler } := by
  have hexec : exec (.scheduler frame) c s =
      match FragmentScheduler.exec frame c s.scheduler with
      | .blocked => .blocked
      | .error e => .error e
      | .ok frames scheduler => .ok (frames.map .scheduler) { s with scheduler := scheduler } := by
    cases frame <;> first | rfl | exact absurd rfl hitem | exact absurd rfl (hpush _)
  rw [hexec] at h
  split at h <;> cases h
  exact ⟨_, _, ‹_›, rfl, rfl⟩

/-- What a step does: the frame is one of the scheduler and has its effect there, it is the
destructor, or at most the queue changes and no wait begins. -/
lemma exec_cases (h : exec f c s = .ok fs s') :
    (∃ frame frames scheduler, f = .scheduler frame ∧
        FragmentScheduler.exec frame c s.scheduler = .ok frames scheduler ∧
        fs = frames.map .scheduler ∧ s' = { s with scheduler := scheduler }) ∨
      (f = .shutdown ∧ fs = [.close] ∧ s' = { s with isRunning := false }) ∨
        (f = .close ∧ fs = [] ∧ s' = { s with isClosed := true }) ∨
          ∃ queue, s' = { s with scheduler := { s.scheduler with queue := queue } } ∧
            .close ∉ fs ∧ ∀ tasks rest, .scheduler (.waitFor tasks rest) ∉ fs := by
  cases f with
  | workerMain | popped =>
    simp only [exec] at h
    split at h <;> cases h <;> exact .inr (.inr (.inr ⟨s.scheduler.queue, rfl, by simp, by simp⟩))
  | pop =>
    refine .inr (.inr (.inr ?_))
    simp only [exec] at h
    split at h
    · split at h <;> cases h
      exact ⟨s.scheduler.queue, rfl, by simp, by simp⟩
    · cases h
      exact ⟨_, rfl, by simp, by simp⟩
  | shutdown =>
    cases h
    exact .inr (.inl ⟨rfl, rfl, rfl⟩)
  | close =>
    cases h
    exact .inr (.inr (.inl ⟨rfl, rfl, rfl⟩))
  | scheduler frame =>
    by_cases hitem : frame = .processItem
    · refine .inr (.inr (.inr ?_))
      subst hitem
      simp only [exec] at h
      split at h
      · cases h
        exact ⟨s.scheduler.queue, rfl, by simp, by simp⟩
      · split at h <;> cases h
        · exact ⟨s.scheduler.queue, rfl, by simp, by simp⟩
        · exact ⟨_, rfl, by simp, by simp⟩
    · by_cases hpush : ∃ u, frame = .push u
      · refine .inr (.inr (.inr ?_))
        obtain ⟨u, rfl⟩ := hpush
        simp only [exec] at h
        split at h <;> cases h
        · exact ⟨s.scheduler.queue, rfl, by simp, by simp⟩
        · exact ⟨_, rfl, by simp, by simp⟩
      · obtain ⟨frames, scheduler, hexec, hfs, hs⟩ :=
          exec_scheduler hitem (fun t ht => hpush ⟨t, ht⟩) h
        exact .inl ⟨frame, frames, scheduler, rfl, hexec, hfs, hs⟩

/-- As long as the executor runs, a step has an effect on the scheduler as if it was never
destroyed, or a thread finds that the executor runs. -/
lemma exec_erase (hrunning : s'.isRunning = true) (hclosed : s.isClosed = false)
    (h : exec f c s = .ok fs s') :
    Effect s.scheduler f.erase (fs.map ExecutorFrame.erase) s'.scheduler ∨
      fs.map ExecutorFrame.erase = [f.erase] ∧ s' = s := by
  have hworker : ∀ fs : List (Frame τ), (∀ g ∈ fs, g = .worker) →
      Effect s.scheduler .worker fs s.scheduler := fun fs hfs =>
    .neutral trivial (fun g hg => hfs g hg ▸ trivial) (fun _ h => h.elim) (.refl _)
  cases f with
  | workerMain =>
    simp only [exec] at h
    split at h <;> cases h <;> exact .inl (hworker _ (by simp [ExecutorFrame.erase]))
  | pop =>
    simp only [exec] at h
    split at h
    · rw [hclosed] at h
      cases h
    · next hqueue =>
      cases h
      exact .inl (.pop trivial (by simp) (fun _ h => h) hqueue)
  | popped t =>
    simp only [exec] at h
    split at h <;> cases h
    · exact .inr ⟨rfl, rfl⟩
    · exact absurd hrunning ‹_›
  | shutdown =>
    cases h
    cases hrunning
  | close =>
    cases h
    exact .inl (hworker [] (by simp))
  | scheduler frame =>
    by_cases hitem : frame = .processItem
    · subst hitem
      simp only [exec, hclosed, Bool.false_eq_true, if_false] at h
      split at h <;> cases h
      · exact .inl (.neutral trivial (by simp) (fun _ h => h.elim) (.refl _))
      · exact .inl (.pop trivial (by simp) (fun _ h => h) ‹_›)
    · by_cases hpush : ∃ t, frame = .push t
      · obtain ⟨t, rfl⟩ := hpush
        simp only [exec, hclosed, Bool.false_eq_true, if_false] at h
        cases h
        exact .inl .push
      · obtain ⟨frames, scheduler, hexec, rfl, rfl⟩ :=
          exec_scheduler hitem (fun t ht => hpush ⟨t, ht⟩) h
        refine .inl ?_
        have herase : (frames.map ExecutorFrame.scheduler).map ExecutorFrame.erase = frames := by
          rw [List.map_map]
          exact List.map_id _
        rw [herase]
        exact exec_effect hexec

/-- In the scheduler a wait goes on, or a task begins it. -/
lemma waitFor_of_exec_scheduler {frame : Frame τ} {scheduler scheduler' : FragmentScheduler τ}
    {frames : List (Frame τ)} (h : FragmentScheduler.exec frame c scheduler = .ok frames scheduler')
    {tasks rest : List τ} (hmem : .waitFor tasks rest ∈ frames) :
    (∃ rest', frame = .waitFor tasks rest') ∨
      ∃ t, frame = .onExecute t ∧ c = .scheduleAndWaitForTasks tasks := by
  cases frame with
  | client => cases c <;> cases h <;> simp at hmem
  | onExecute t => cases c <;> cases h <;> simp_all
  | scheduleTasks rest | schedulePredecessors rest | onTaskFinished _ rest =>
    cases rest <;> cases h <;> simp at hmem
  | countScheduled | push | countDown =>
    cases h
    simp at hmem
  | waitFor tasks' rest' =>
    cases rest' with
    | nil =>
      cases h
      simp at hmem
    | cons t rest' =>
      simp only [FragmentScheduler.exec] at h
      split at h <;> cases h <;> simp_all
  | join tasks' rest' =>
    cases rest' with
    | nil =>
      cases h
      simp at hmem
    | cons t rest' =>
      simp only [FragmentScheduler.exec] at h
      split at h <;> cases h
      simp at hmem
  | _ =>
    simp only [FragmentScheduler.exec] at h
    split at h <;> cases h <;> simp at hmem

/-- No step takes a task back. -/
lemma state_le_of_exec (h : exec f c s = .ok fs s') (t : τ) :
    (s.scheduler.tasks t).state ≤ (s'.scheduler.tasks t).state := by
  have hrefl := TaskState.le_refl (s.scheduler.tasks t).state
  rcases exec_cases h with ⟨frame, frames, scheduler, -, hexec, -, rfl⟩ | ⟨-, -, rfl⟩ |
    ⟨-, -, rfl⟩ | ⟨queue, rfl, -, -⟩
  · exact (exec_effect hexec).state_le t
  · exact hrefl
  · exact hrefl
  · exact hrefl

lemma isDone_of_exec (h : exec f c s = .ok fs s') {t : τ}
    (hdone : (s.scheduler.tasks t).isDone = true) : (s'.scheduler.tasks t).isDone = true := by
  have hle := state_le_of_exec h t
  rw [AbstractTask.isDone, decide_eq_true_eq] at hdone ⊢
  rw [hdone] at hle
  exact TaskState.done_le_iff.mp hle

/-- A wait goes on, or a task begins it. -/
lemma waitFor_of_exec (h : exec f c s = .ok fs s') {tasks rest : List τ}
    (hmem : .scheduler (.waitFor tasks rest) ∈ fs) :
    (∃ rest', f = .scheduler (.waitFor tasks rest')) ∨
      ∃ t, f = .scheduler (.onExecute t) ∧ c = .scheduleAndWaitForTasks tasks := by
  rcases exec_cases h with ⟨frame, frames, scheduler, rfl, hexec, rfl, -⟩ | ⟨-, rfl, -⟩ |
    ⟨-, rfl, -⟩ | ⟨queue, -, -, hwait⟩
  · obtain ⟨g, hg, hgwait⟩ := List.mem_map.mp hmem
    obtain rfl := ExecutorFrame.scheduler.inj hgwait
    rcases waitFor_of_exec_scheduler hexec hg with ⟨rest', rfl⟩ | ⟨t, rfl, rfl⟩
    · exact .inl ⟨rest', rfl⟩
    · exact .inr ⟨t, rfl, rfl⟩
  · simp at hmem
  · simp at hmem
  · exact absurd hmem (hwait tasks rest)

/-! ### The executor while it runs -/

/-- What holds as long as the end of the executor overlaps with no wait: while the executor runs
every task is where its state tells, and afterwards no thread waits for a task that is not done. -/
structure Inv (s : TaskExecutor τ) (F : Multiset (ExecutorFrame τ)) : Prop where
  closing : .close ∈ F → s.isRunning = false
  closed : s.isClosed = true → s.isRunning = false
  located : s.isRunning = true → ∀ u, Located s.scheduler (F.map ExecutorFrame.erase) u
  noWait : s.isRunning = false → NoWait s F

lemma mem_frames_initial {numClients numThreads : ℕ}
    (h : f ∈ (initial edges numClients numThreads).frames) :
    f = .scheduler .client ∨ f = .workerMain ∨ f = .shutdown := by
  obtain ⟨thread, hthread, hf⟩ := Machine.mem_frames.mp h
  rcases List.mem_append.mp hthread with hthread | hthread
  · rcases List.mem_append.mp hthread with hmem | hmem
    · rw [List.eq_of_mem_replicate hmem] at hf
      exact .inl (List.mem_singleton.mp hf)
    · rw [List.eq_of_mem_replicate hmem] at hf
      exact .inr (.inl (List.mem_singleton.mp hf))
  · rw [List.mem_singleton.mp hthread] at hf
    exact .inr (.inr (List.mem_singleton.mp hf))

lemma inv_initial (edges : List (τ × τ)) (numClients numThreads : ℕ) :
    Inv (initial edges numClients numThreads).shared
      (initial edges numClients numThreads).frames where
  closing h := by rcases mem_frames_initial h with h | h | h <;> cases h
  closed h := by cases h
  noWait h := by cases h
  located _ u := by
    have hcreated : ((initial edges numClients numThreads).shared.scheduler.tasks u).state =
        .created := (AbstractTask.linked_ofEdges edges).state u
    have htotal : ∀ w : Frame τ → ℕ, (∀ g : Frame τ, g.Neutral → w g = 0) →
        total w ((initial edges numClients numThreads).frames.map ExecutorFrame.erase) = 0 := by
      intro w hw
      refine total_eq_zero fun g hg => hw g ?_
      obtain ⟨f, hf, rfl⟩ := Multiset.mem_map.mp hg
      rcases mem_frames_initial hf with rfl | rfl | rfl <;> trivial
    refine ⟨?_, ?_, ?_, ?_, ?_⟩
    · rw [htotal _ fun g hg => hg.enqueuedTokens u, hcreated]
      rfl
    · rw [htotal _ fun g hg => hg.startedTokens u, hcreated]
      rfl
    · rw [hcreated]
      rfl
    · rw [hcreated]
      rfl
    · rw [hcreated]
      rfl

/-- The destructor sets the flags, and nothing else does. -/
lemma flags_of_exec (h : exec f c s = .ok fs s') :
    (f = .shutdown ∧ fs = [.close] ∧ s' = { s with isRunning := false }) ∨
      (f = .close ∧ fs = [] ∧ s' = { s with isClosed := true }) ∨
        .close ∉ fs ∧ s'.isRunning = s.isRunning ∧ s'.isClosed = s.isClosed := by
  rcases exec_cases h with ⟨frame, frames, scheduler, -, -, rfl, rfl⟩ | hshutdown | hclose |
    ⟨queue, rfl, hclose, -⟩
  · exact .inr (.inr ⟨by simp, rfl, rfl⟩)
  · exact .inl hshutdown
  · exact .inr (.inl hclose)
  · exact .inr (.inr ⟨hclose, rfl, rfl⟩)

/-- A step with which the end of the executor overlaps with no wait preserves what holds. -/
lemma Inv.step {m m' : Machine (ExecutorFrame τ) (TaskExecutor τ)} {a : ℕ × Choice τ}
    (h : Inv m.shared m.frames) (hundisturbed : Undisturbed m a) (hstep : Step m a m') :
    Inv m'.shared m'.frames := by
  obtain ⟨f, k, fs, rest, htop, hexec, -, hold, hnew⟩ := hstep.exists_frame
  have hrest : ∀ g ∈ rest, g ∈ m.frames := fun g hg => hold ▸ Multiset.mem_cons_of_mem hg
  have hf : f ∈ m.frames := hold ▸ Multiset.mem_cons_self f rest
  rw [hnew]
  rcases flags_of_exec hexec with ⟨rfl, rfl, hshared⟩ | ⟨rfl, rfl, hshared⟩ |
    ⟨hclose, hrunning, hclosed⟩
  · rw [hshared]
    refine ⟨fun _ => rfl, fun _ => rfl, fun hrunning => absurd hrunning Bool.false_ne_true,
      fun _ tasks rest' hmem => ?_⟩
    refine hundisturbed.1 ⟨k, htop⟩ tasks rest' (hrest _ ?_)
    simpa using hmem
  · have hstopped := h.closing hf
    rw [hshared]
    refine ⟨fun _ => hstopped, fun _ => hstopped,
      fun hrunning => absurd (hstopped.symm.trans hrunning) Bool.false_ne_true,
      fun _ tasks rest' hmem => ?_⟩
    refine h.noWait hstopped tasks rest' (hrest _ ?_)
    simpa using hmem
  · refine ⟨fun hmem => ?_, fun hmem => ?_, fun hrun u => ?_, fun hstopped tasks rest' hmem => ?_⟩
    · rw [hrunning]
      refine h.closing (hrest _ ?_)
      exact (Multiset.mem_add.mp hmem).resolve_left hclose
    · rw [hrunning]
      exact h.closed (hclosed.symm.trans hmem)
    · have hopen : m.shared.isClosed = false := by
        by_contra hnot
        have hstopped := h.closed (Bool.eq_true_of_not_eq_false hnot)
        rw [hrunning, hstopped] at hrun
        cases hrun
      have hlocated := h.located (hrunning.symm.trans hrun) u
      rw [hold, Multiset.map_cons] at hlocated
      rw [Multiset.map_add, Multiset.map_coe]
      rcases exec_erase hrun hopen hexec with heffect | ⟨herase, hsame⟩
      · exact hlocated.effect heffect
      · rw [herase, hsame]
        exact hlocated
    · rw [hrunning] at hstopped
      rcases Multiset.mem_add.mp hmem with hmem | hmem
      · rcases waitFor_of_exec hexec hmem with ⟨rest'', rfl⟩ | ⟨t, rfl, hchoice⟩
        · exact fun u hu => isDone_of_exec hexec (h.noWait hstopped tasks rest'' hf u hu)
        · rcases hundisturbed.2 t tasks ⟨k, htop⟩ hchoice with hrun | hdone
          · exact absurd (hstopped.symm.trans hrun) Bool.false_ne_true
          · exact fun u hu => isDone_of_exec hexec (hdone u hu)
      · exact fun u hu => isDone_of_exec hexec (h.noWait hstopped tasks rest' (hrest _ hmem) u hu)

omit [DecidableEq τ] in
/-- The frame that holds a token for a task. -/
lemma exists_of_total_erase_pos {F : Multiset (ExecutorFrame τ)} {w : Frame τ → ℕ}
    (h : 0 < total w (F.map ExecutorFrame.erase)) : ∃ f ∈ F, 0 < w f.erase := by
  obtain ⟨g, hg, hpos⟩ := exists_of_total_pos h
  obtain ⟨f, hf, rfl⟩ := Multiset.mem_map.mp hg
  exact ⟨f, hf, hpos⟩

lemma executes_of_startedTokens {t : τ} (h : 0 < f.erase.startedTokens t) : f.Executes t := by
  cases f with
  | scheduler frame =>
    cases frame with
    | onExecute u | finish u =>
      by_contra hne
      have hne' : u ≠ t := hne
      simp [ExecutorFrame.erase, hne'] at h
    | _ => simp [ExecutorFrame.erase] at h
  | _ => simp [ExecutorFrame.erase] at h

lemma executes_or_push_of_enqueuedTokens {t : τ} (h : 0 < f.erase.enqueuedTokens t) :
    f.Executes t ∨ f = .scheduler (.push t) := by
  cases f with
  | scheduler frame =>
    cases frame with
    | push u =>
      by_cases hu : u = t
      · exact .inr (by rw [hu])
      · simp [ExecutorFrame.erase, hu] at h
    | execute u =>
      by_cases hu : u = t
      · exact .inl hu
      · simp [ExecutorFrame.erase, hu] at h
    | _ => simp [ExecutorFrame.erase] at h
  | popped u =>
    by_cases hu : u = t
    · exact .inl hu
    · simp [ExecutorFrame.erase, hu] at h
  | _ => simp [ExecutorFrame.erase] at h

/-- As long as it holds no wait is stranded. -/
lemma Inv.not_stranded {m : Machine (ExecutorFrame τ) (TaskExecutor τ)}
    (h : Inv m.shared m.frames) : ¬ Stranded m := by
  rintro ⟨tasks, rest, hwait, t, ht, hdone, hexecutes, htaken, hpushed⟩
  cases hrun : m.shared.isRunning with
  | false => exact hdone (h.noWait hrun tasks rest hwait t ht)
  | true =>
    have hopen : m.shared.isClosed = false := by
      by_contra hnot
      rw [h.closed (Bool.eq_true_of_not_eq_false hnot)] at hrun
      cases hrun
    have hlocated := h.located hrun t
    have hnotPushed := fun hor => hpushed ⟨hopen, hor⟩
    cases hstate : (m.shared.scheduler.tasks t).state with
    | created => exact hnotPushed (.inl (by rw [hstate]; decide))
    | scheduled => exact hnotPushed (.inl (by rw [hstate]; decide))
    | done => exact hdone (decide_eq_true hstate)
    | started =>
      have htotal := hlocated.started
      rw [hstate, if_pos rfl] at htotal
      obtain ⟨f, hf, hpos⟩ := exists_of_total_erase_pos (htotal ▸ Nat.one_pos)
      exact hexecutes f hf (executes_of_startedTokens hpos)
    | enqueued =>
      have htotal := hlocated.enqueued
      rw [hstate, if_pos rfl] at htotal
      have hqueue : m.shared.scheduler.queue.count t = 0 :=
        List.count_eq_zero.mpr fun hmem => htaken ⟨hmem, .inl hopen⟩
      rw [hqueue, Nat.add_zero] at htotal
      obtain ⟨f, hf, hpos⟩ := exists_of_total_erase_pos (htotal ▸ Nat.one_pos)
      rcases executes_or_push_of_enqueuedTokens hpos with hexecutes' | rfl
      · exact hexecutes f hf hexecutes'
      · exact hnotPushed (.inr hf)

/-- The steps in which a client schedules a task, which an executor thread executes and which then
waits for another task, up to the end of the executor and the moment at which the thread that waits
has taken this task. -/
def waitInTaskUntilShutdown : List (ℕ × Choice ℕ) :=
  (0, .scheduleTasks [0]) :: List.replicate 6 (0, .finish) ++ List.replicate 3 (1, .finish) ++
    (1, .scheduleAndWaitForTasks [1]) :: List.replicate 8 (1, .finish) ++
    [(2, .finish), (1, .finish), (1, .finish)]

end TaskExecutor

end Skyrise

/-
Successors that are added while tasks run.

`SetAsPredecessorOf` records the link at both tasks and then counts it, unless the
predecessor is done; the mutex of the predecessor protects the test and the count
against the transition to done, but not the record of the link.  A task that
becomes done notifies the successors that it has when the loop of `OnTaskFinished`
begins.  A link that is recorded before that and tested after the transition is
so not counted, yet taken off the count.

Which links are counted and settled is a history that no code reads.  A vector
changes in one step, and a loop over it ends where it ended at the beginning.
-/
import Skyrise.Scheduler.Worker.Dependencies

namespace Skyrise

open Concurrency FragmentScheduler

/-- The state that all threads share, with the mutexes of the tasks. -/
structure AddedSuccessors (τ : Type) where
  scheduler : FragmentScheduler τ
  /-- Whether a thread holds `done_condition_variable_mutex_` of a task. -/
  isLocked : τ → Bool := fun _ => false
  /-- The links whose predecessor is counted by the successor. -/
  counted : List (τ × τ) := []
  /-- The links whose predecessor was found done or has decremented the count. -/
  settled : List (τ × τ) := []

namespace AddedSuccessors

variable {τ : Type}

/-- What a thread has to do next. -/
inductive LinkFrame (τ : Type) where
  /-- A frame of the scheduler. -/
  | scheduler (frame : Frame τ)
  /-- `OnTaskFinished`, whose loop looks at the successors. -/
  | startNotify (task : τ)
  /-- `SetAsPredecessorOf`, up to the record at the predecessor. -/
  | link (task successor : τ)
  /-- `SetAsPredecessorOf`: the record at the successor. -/
  | linkBack (task successor : τ)
  /-- `SetAsPredecessorOf`: the mutex is locked. -/
  | lock (task successor : τ)
  /-- `SetAsPredecessorOf` with the mutex: is the predecessor done? -/
  | checkDone (task successor : τ)
  /-- `SetAsPredecessorOf` with the mutex: the count is incremented. -/
  | count (task successor : τ)
deriving DecidableEq, Repr

/-- What a step leaves open. -/
inductive LinkChoice (τ : Type) where
  /-- A choice of the scheduler. -/
  | scheduler (choice : Choice τ)
  /-- A client or a task calls `SetAsPredecessorOf`. -/
  | setAsPredecessorOf (task successor : τ)
deriving DecidableEq, Repr

variable [DecidableEq τ]

/-- The state with another state of a task. -/
def setTask (t : τ) (task : AbstractTask τ) (s : AddedSuccessors τ) : AddedSuccessors τ :=
  { s with scheduler := s.scheduler.setTask t task }

/-- The state with a mutex locked or not. -/
def setLocked (t : τ) (isLocked : Bool) (s : AddedSuccessors τ) : AddedSuccessors τ :=
  { s with isLocked := Function.update s.isLocked t isLocked }

/-- The state after a link of the scheduler was taken off the count. -/
def settle : Frame τ → AddedSuccessors τ → AddedSuccessors τ
  | .decrement t u, s =>
    { s with counted := s.counted.erase (t, u), settled := s.settled ++ [(t, u)] }
  | _, s => s

/-- Executing a frame. -/
def exec (frame : LinkFrame τ) (choice : LinkChoice τ) (s : AddedSuccessors τ) :
    Outcome (LinkFrame τ) (AddedSuccessors τ) Exception :=
  match frame with
  | .link p t =>
    if t ∈ (s.scheduler.tasks p).successors then .ok [] s
    else .ok [.linkBack p t] (s.setTask p { s.scheduler.tasks p with
      successors := (s.scheduler.tasks p).successors ++ [t] })
  | .linkBack p t => .ok [.lock p t] (s.setTask t { s.scheduler.tasks t with
      predecessors := (s.scheduler.tasks t).predecessors ++ [p] })
  | .lock p t => if s.isLocked p then .blocked else .ok [.checkDone p t] (s.setLocked p true)
  | .checkDone p t =>
    if (s.scheduler.tasks p).isDone then
      .ok [] { s.setLocked p false with settled := s.settled ++ [(p, t)] }
    else .ok [.count p t] s
  | .count p t =>
    let task := s.scheduler.tasks t
    .ok [] { (s.setTask t { task with pendingPredecessors := { task.pendingPredecessors with
      value := task.pendingPredecessors.value + 1 } }).setLocked p false with
        counted := s.counted ++ [(p, t)] }
  | .startNotify t => .ok [.scheduler (.onTaskFinished t (s.scheduler.tasks t).successors)] s
  | .scheduler (.finish t) =>
    if s.isLocked t then .blocked
    else
      match FragmentScheduler.exec (.finish t) .finish s.scheduler with
      | .blocked => .blocked
      | .error e => .error e
      | .ok _ scheduler => .ok [.startNotify t] { s with scheduler := scheduler }
  | .scheduler frame =>
    match choice with
    | .scheduler choice =>
      match FragmentScheduler.exec frame choice s.scheduler with
      | .blocked => .blocked
      | .error e => .error e
      | .ok frames scheduler =>
        .ok (frames.map .scheduler) (settle frame { s with scheduler := scheduler })
    | .setAsPredecessorOf p t =>
      match frame with
      | .client | .onExecute _ => .ok [.link p t, .scheduler frame] s
      | _ => .blocked

/-- The steps of the threads. -/
abbrev Step : Machine (LinkFrame τ) (AddedSuccessors τ) → ℕ × LinkChoice τ →
    Machine (LinkFrame τ) (AddedSuccessors τ) → Prop :=
  Machine.Step exec

/-- Tasks without links, none of which is scheduled, a number of clients and a number of executor
threads. -/
def initial (τ : Type) [DecidableEq τ] (numClients numThreads : ℕ) :
    Machine (LinkFrame τ) (AddedSuccessors τ) where
  shared := { scheduler := { tasks := fun _ => {} } }
  threads := List.replicate numClients [.scheduler .client] ++
    List.replicate numThreads [.scheduler .worker]

/-! ### Steps in order -/

/-- The frames of a call of `SetAsPredecessorOf` that has recorded the link and has not ended. -/
def LinkFrame.Links (p t : τ) : LinkFrame τ → Prop
  | .linkBack q u | .lock q u | .checkDone q u | .count q u => q = p ∧ u = t
  | _ => False

/-- A step in which links are recorded for tasks that are not scheduled, no task is scheduled while
a link to it is recorded, no task becomes done while a link from it waits for its test, no link is
recorded from a task that is done before its loop over the successors has begun, and a scheduled
task whose count has been decremented to zero is submitted only if no predecessor was counted in
the meantime. -/
structure Orderly (m : Machine (LinkFrame τ) (AddedSuccessors τ)) (a : ℕ × LinkChoice τ) :
    Prop where
  created : ∀ p t, m.Top a.1 (.link p t) → (m.shared.scheduler.tasks t).state = .created
  scheduled : ∀ t, m.Top a.1 (.scheduler (.schedule t)) → ∀ p, ∀ f ∈ m.frames, ¬ f.Links p t
  finished : ∀ p, m.Top a.1 (.scheduler (.finish p)) →
    ∀ t, .linkBack p t ∉ m.frames ∧ .lock p t ∉ m.frames
  notified : ∀ p t, m.Top a.1 (.link p t) → t ∉ (m.shared.scheduler.tasks p).successors →
    .startNotify p ∉ m.frames
  ready : ∀ t, m.Top a.1 (.scheduler (.checkScheduled t)) →
    (m.shared.scheduler.tasks t).isScheduled → (m.shared.scheduler.tasks t).isReady

/-- No step is enabled. -/
def Stuck (m : Machine (LinkFrame τ) (AddedSuccessors τ)) : Prop := ∀ a m', ¬ Step m a m'

/-- What is asked of a state: a task that was started has predecessors that are done, the count of
pending predecessors did not underflow, no assertion fails, and without enabled steps a scheduled
task whose predecessors are done was enqueued. -/
structure Correct (m : Machine (LinkFrame τ) (AddedSuccessors τ)) : Prop where
  started : ∀ t, .started ≤ (m.shared.scheduler.tasks t).state →
    ∀ p ∈ (m.shared.scheduler.tasks t).predecessors, (m.shared.scheduler.tasks p).isDone
  pending : ∀ t, (m.shared.scheduler.tasks t).pendingPredecessors.underflowed = false
  asserted : ∀ i f c e, m.Top i f → exec f c m.shared ≠ .error e
  enqueued : Stuck m → ∀ t, (m.shared.scheduler.tasks t).isScheduled →
    (∀ p ∈ (m.shared.scheduler.tasks t).predecessors, (m.shared.scheduler.tasks p).isDone) →
      .enqueued ≤ (m.shared.scheduler.tasks t).state

/-! ### Steps -/

variable {s s' : AddedSuccessors τ} {f : LinkFrame τ} {fs : List (LinkFrame τ)} {c : LinkChoice τ}
  {rest F : Multiset (LinkFrame τ)}

/-- A frame of the scheduler, but the end of a task, is executed there. -/
lemma exec_scheduler_eq {frame : Frame τ} {choice : Choice τ} (hne : ∀ t, frame ≠ .finish t) :
    exec (.scheduler frame) (.scheduler choice) s =
      match FragmentScheduler.exec frame choice s.scheduler with
      | .blocked => .blocked
      | .error e => .error e
      | .ok frames scheduler =>
        .ok (frames.map .scheduler) (settle frame { s with scheduler := scheduler }) := by
  cases frame with
  | finish t => exact absurd rfl (hne t)
  | _ => rfl

/-- A frame of the scheduler takes a task to its end, calls `SetAsPredecessorOf`, or is executed
there. -/
lemma exec_scheduler {frame : Frame τ} (h : exec (.scheduler frame) c s = .ok fs s') :
    (∃ t, frame = .finish t ∧ s.isLocked t = false ∧ (s.scheduler.tasks t).state = .started ∧
        fs = [.startNotify t] ∧ s' = { s with scheduler :=
          (s.scheduler.setTask t { s.scheduler.tasks t with state := .done }).record (.done t) }) ∨
      (∃ p t, fs = [.link p t, .scheduler frame] ∧ s' = s) ∨
        ∃ choice frames scheduler, (∀ t, frame ≠ .finish t) ∧
          FragmentScheduler.exec frame choice s.scheduler = .ok frames scheduler ∧
          fs = frames.map .scheduler ∧ s' = settle frame { s with scheduler := scheduler } := by
  by_cases hfinish : ∃ t, frame = .finish t
  · obtain ⟨t, rfl⟩ := hfinish
    simp only [exec] at h
    split at h
    · cases h
    · next hunlocked =>
      split at h <;> cases h
      next frames scheduler hexec =>
      have heffect := exec_effect hexec
      cases heffect with
      | neutral hf => cases hf
      | pop hf => cases hf
      | finish hstate => exact .inl ⟨t, rfl, by simpa using hunlocked, hstate, rfl, rfl⟩
  have hne : ∀ t, frame ≠ .finish t := fun t ht => hfinish ⟨t, ht⟩
  cases c with
  | setAsPredecessorOf p t =>
    cases frame with
    | client | onExecute =>
      cases h
      exact .inr (.inl ⟨p, t, rfl, rfl⟩)
    | finish t => exact absurd rfl (hne t)
    | _ => cases h
  | scheduler choice =>
    rw [exec_scheduler_eq hne] at h
    split at h <;> cases h
    exact .inr (.inr ⟨choice, _, _, hne, ‹_›, rfl, rfl⟩)

end AddedSuccessors

end Skyrise

/-
The scheduler of a worker.

The functions of `FragmentScheduler`, `AbstractTask` and `TaskExecutor` run on
client threads and on the executor threads, which a frame on a stack describes:
every frame is one atomic access to the shared state, the test or update it makes
and what is left to do.  A client makes any calls, one after the other, and so
does `OnExecute` of a task; a task may fail by an assertion, which `Execute`
captures.  The scheduler lives as long as the run, so the queue is never closed.
A task has no done callback here.  The histories are read by no code.
-/
import Skyrise.Concurrency.Threads
import Skyrise.Scheduler.Worker.AbstractTask

namespace Skyrise

open Concurrency

/-- What happens to a task. -/
inductive TaskEvent (τ : Type) where
  /-- The task was enqueued. -/
  | enqueued (task : τ)
  /-- The execution of the task started. -/
  | executed (task : τ)
  /-- The task was done. -/
  | done (task : τ)
  /-- The first task decremented the count of the second. -/
  | decremented (task successor : τ)
deriving DecidableEq, Repr

/-- A call of `WaitForTasks` that has ended. -/
structure Wait (τ : Type) where
  /-- Whether an executor thread made the call. -/
  isExecutorThread : Bool
  /-- The tasks. -/
  tasks : List τ
  /-- Whether the call ended by an exception. -/
  hasThrown : Bool
deriving DecidableEq, Repr

/-- The state that all threads share. -/
structure FragmentScheduler (τ : Type) where
  /-- The tasks. -/
  tasks : τ → AbstractTask τ
  /-- The queue of the executor. -/
  queue : List τ := []
  /-- The number of scheduled tasks that have not finished. -/
  numScheduledTasks : Counter := ⟨0, false⟩
  /-- The history of the tasks. -/
  events : List (TaskEvent τ) := []
  /-- The history of the calls. -/
  waits : List (Wait τ) := []

namespace FragmentScheduler

variable {τ : Type}

/-- What a thread has to do next. -/
inductive Frame (τ : Type) where
  /-- A thread outside of the executor between two calls. -/
  | client
  /-- The loop of `ScheduleTasks`. -/
  | scheduleTasks (rest : List τ)
  /-- The loop of `Schedule` over predecessors. -/
  | schedulePredecessors (rest : List τ)
  /-- `Schedule`. -/
  | schedule (task : τ)
  /-- `Schedule` after the transition: the number of scheduled tasks is incremented. -/
  | countScheduled (task : τ)
  /-- `Schedule` after the increment: is the task ready? -/
  | checkReady (task : τ)
  /-- `Submit`. -/
  | submit (task : τ)
  /-- `Submit` after the transition: the job is pushed. -/
  | push (task : τ)
  /-- `WorkerMain`. -/
  | worker
  /-- `WorkerProcessSingleItemNoWait`. -/
  | processItem
  /-- The job of a task: `Execute`. -/
  | execute (task : τ)
  /-- `OnExecute`, which is arbitrary. -/
  | onExecute (task : τ)
  /-- `Execute` after `OnExecute`. -/
  | finish (task : τ)
  /-- The loop of `OnTaskFinished`. -/
  | onTaskFinished (task : τ) (successors : List τ)
  /-- The assertion of `AtomicDecrementPredecessorCount`. -/
  | assertPending (task successor : τ)
  /-- The decrement of `AtomicDecrementPredecessorCount`. -/
  | decrement (task successor : τ)
  /-- `OnTaskFinished` after a decrement to zero: is the successor scheduled? -/
  | checkScheduled (successor : τ)
  /-- The end of `OnTaskFinished`. -/
  | countDown
  /-- `WaitForTasks` on an executor thread: are the remaining tasks done? -/
  | waitFor (tasks rest : List τ)
  /-- `WaitForTasks` on another thread: the loop over the remaining tasks. -/
  | join (tasks rest : List τ)
  /-- `WaitForTasks` on another thread after a task was joined. -/
  | rethrow (tasks : List τ) (task : τ) (rest : List τ)
deriving DecidableEq, Repr

/-- What the code leaves open: what a client or a task does next. -/
inductive Choice (τ : Type) where
  /-- It calls `ScheduleTasks`. -/
  | scheduleTasks (tasks : List τ)
  /-- It calls `ScheduleAndWaitForTasks`. -/
  | scheduleAndWaitForTasks (tasks : List τ)
  /-- It returns. -/
  | finish
  /-- It fails by an assertion. -/
  | fail
deriving DecidableEq, Repr

variable [DecidableEq τ]

/-- The state with another state of a task. -/
def setTask (t : τ) (task : AbstractTask τ) (s : FragmentScheduler τ) : FragmentScheduler τ :=
  { s with tasks := Function.update s.tasks t task }

/-- The state after an event. -/
def record (e : TaskEvent τ) (s : FragmentScheduler τ) : FragmentScheduler τ :=
  { s with events := s.events ++ [e] }

/-- The state after a call of `WaitForTasks` has ended. -/
def endWait (w : Wait τ) (s : FragmentScheduler τ) : FragmentScheduler τ :=
  { s with waits := s.waits ++ [w] }

/-- Executing a frame. -/
def exec (frame : Frame τ) (choice : Choice τ) (s : FragmentScheduler τ) :
    Outcome (Frame τ) (FragmentScheduler τ) Exception :=
  match frame with
  | .client =>
    match choice with
    | .scheduleTasks tasks => .ok [.scheduleTasks tasks, .client] s
    | .scheduleAndWaitForTasks tasks => .ok [.scheduleTasks tasks, .join tasks tasks, .client] s
    | .finish | .fail => .ok [] s
  | .scheduleTasks [] => .ok [] s
  | .scheduleTasks (t :: rest) => .ok [.schedule t, .scheduleTasks rest] s
  | .schedulePredecessors [] => .ok [] s
  | .schedulePredecessors (t :: rest) => .ok [.schedule t, .schedulePredecessors rest] s
  | .schedule t =>
    match (s.tasks t).tryTransitionTo .scheduled with
    | .error e => .error e
    | .ok (false, _) => .ok [] s
    | .ok (true, task) => .ok [.countScheduled t] (s.setTask t task)
  | .countScheduled t =>
    .ok [.checkReady t] { s with numScheduledTasks := s.numScheduledTasks.increment }
  | .checkReady t =>
    if (s.tasks t).isReady then .ok [.submit t] s
    else .ok [.schedulePredecessors (s.tasks t).predecessors] s
  | .submit t =>
    match (s.tasks t).tryTransitionTo .enqueued with
    | .error e => .error e
    | .ok (false, _) => .ok [] s
    | .ok (true, task) => .ok [.push t] ((s.setTask t task).record (.enqueued t))
  | .push t => .ok [] { s with queue := s.queue ++ [t] }
  | .worker =>
    match s.queue with
    | [] => .blocked
    | t :: queue => .ok [.execute t, .worker] { s with queue := queue }
  | .processItem =>
    match s.queue with
    | [] => .ok [] s
    | t :: queue => .ok [.execute t] { s with queue := queue }
  | .execute t =>
    match (s.tasks t).tryTransitionTo .started with
    | .error e => .error e
    | .ok (false, _) =>
      .error (.assertionFailed "Expected successful transition to TaskState::Started.")
    | .ok (true, task) => .ok [.onExecute t] ((s.setTask t task).record (.executed t))
  | .onExecute t =>
    match choice with
    | .scheduleTasks tasks => .ok [.scheduleTasks tasks, .onExecute t] s
    | .scheduleAndWaitForTasks tasks =>
      .ok [.scheduleTasks tasks, .waitFor tasks tasks, .onExecute t] s
    | .finish => .ok [.finish t] s
    | .fail => .ok [.finish t] (s.setTask t { s.tasks t with hasException := true })
  | .finish t =>
    match (s.tasks t).tryTransitionTo .done with
    | .error e => .error e
    | .ok (false, _) =>
      .error (.assertionFailed "Expected successful transition to TaskState::Done.")
    | .ok (true, task) =>
      .ok [.onTaskFinished t (s.tasks t).successors] ((s.setTask t task).record (.done t))
  | .onTaskFinished _ [] => .ok [.countDown] s
  | .onTaskFinished t (u :: successors) =>
    .ok [.assertPending t u, .onTaskFinished t successors] s
  | .assertPending t u =>
    match (s.tasks u).assertPending with
    | .error e => .error e
    | .ok _ => .ok [.decrement t u] s
  | .decrement t u =>
    if (s.tasks u).decrementPending.isReady then
      .ok [.checkScheduled u] ((s.setTask u (s.tasks u).decrementPending).record (.decremented t u))
    else .ok [] ((s.setTask u (s.tasks u).decrementPending).record (.decremented t u))
  | .checkScheduled u => if (s.tasks u).isScheduled then .ok [.submit u] s else .ok [] s
  | .countDown => .ok [] { s with numScheduledTasks := s.numScheduledTasks.decrement }
  | .waitFor tasks [] => .ok [] (s.endWait ⟨true, tasks, false⟩)
  | .waitFor tasks (t :: rest) =>
    if (s.tasks t).isDone then .ok [.waitFor tasks rest] s
    else .ok [.processItem, .waitFor tasks tasks] s
  | .join tasks [] => .ok [] (s.endWait ⟨false, tasks, false⟩)
  | .join tasks (t :: rest) =>
    if (s.tasks t).isDone then .ok [.rethrow tasks t rest] s else .blocked
  | .rethrow tasks t rest =>
    if (s.tasks t).hasException then .ok [] (s.endWait ⟨false, tasks, true⟩)
    else .ok [.join tasks rest] s

/-- The steps of the threads. -/
abbrev Step : Machine (Frame τ) (FragmentScheduler τ) → ℕ × Choice τ →
    Machine (Frame τ) (FragmentScheduler τ) → Prop :=
  Machine.Step exec

/-- Tasks with links, none of which is scheduled, a number of clients and a number of executor
threads. -/
def initial (edges : List (τ × τ)) (numClients numThreads : ℕ) :
    Machine (Frame τ) (FragmentScheduler τ) where
  shared := { tasks := AbstractTask.ofEdges edges }
  threads := List.replicate numClients [.client] ++ List.replicate numThreads [.worker]

end FragmentScheduler

end Skyrise

/-
The pipeline scheduler of the coordinator.

The scheduler keeps a task for every pipeline of a plan.  It submits a pipeline
to the executor when no predecessor is left to finish, and counts a fragment of
the pipeline down for every response that the executor passes to the callback; a
pipeline without fragments to finish is finished, which counts down its
successors.  `Execute` submits the first pipelines and waits until all tasks are
finished or an error is set.

The executor only enters the results through its `Execute`, so that a function of
the scheduler returns the new state together with the identities of the
pipelines it has submitted, in order.  Both `Execute` and the callback hold the
mutex while they read or write the tasks.
-/
import Mathlib.Data.List.Sort
import Skyrise.Compiler.PqpPipeline
import Skyrise.Concurrency.Run
import Skyrise.Utils.Assert

namespace Skyrise

open Concurrency

/-- The states of the task of a pipeline. -/
inductive PqpPipelineTaskState where
  | waiting
  | running
  | finished
deriving DecidableEq, Repr

/-- The response of the worker that ran a fragment.  The workers of a pipeline are numbered by
their fragments. -/
structure PqpPipelineFragmentExecutionResult (ι : Type) where
  /-- The identity of the pipeline. -/
  pipelineId : ι
  /-- The worker. -/
  workerId : ℕ
  /-- Whether the worker has succeeded. -/
  isSuccess : Bool
  /-- The description of the failure. -/
  message : String
deriving DecidableEq

/-- The task of a pipeline. -/
structure PqpPipelineTask (ι : Type) where
  /-- The pipeline. -/
  pqpPipeline : PqpPipeline ι
  /-- The number of fragments without a counted response. -/
  fragmentsToFinishCount : Counter
  /-- The number of predecessors that are not finished. -/
  pipelinePredecessorsToFinishCount : Counter
  /-- The counted responses. -/
  fragmentExecutionResults : List (PqpPipelineFragmentExecutionResult ι) := []
  /-- The state. -/
  state : PqpPipelineTaskState := .waiting

namespace PqpPipelineTask

variable {ι : Type}

/-- The identity of the pipeline, under which the task is stored. -/
def identity (task : PqpPipelineTask ι) : ι := task.pqpPipeline.identity

/-- The task of a pipeline before the execution. -/
def ofPipeline (pipeline : PqpPipeline ι) : PqpPipelineTask ι where
  pqpPipeline := pipeline
  fragmentsToFinishCount := ⟨pipeline.fragmentDefinitions.length, false⟩
  pipelinePredecessorsToFinishCount := ⟨pipeline.predecessors.length, false⟩

/-- Whether the task is to be submitted. -/
def isReady (task : PqpPipelineTask ι) : Bool :=
  decide (task.pipelinePredecessorsToFinishCount.value = 0) && decide (task.state = .waiting)

/-- The task after its submission. -/
def submit (task : PqpPipelineTask ι) : PqpPipelineTask ι := { task with state := .running }

/-- The task after one more response. -/
def addResult (result : PqpPipelineFragmentExecutionResult ι) (task : PqpPipelineTask ι) :
    PqpPipelineTask ι :=
  { task with
    fragmentExecutionResults := task.fragmentExecutionResults ++ [result]
    fragmentsToFinishCount := task.fragmentsToFinishCount.decrement }

/-- The task after its last fragment. -/
def finish (task : PqpPipelineTask ι) : PqpPipelineTask ι := { task with state := .finished }

/-- The task after one of its predecessors has finished. -/
def decrementPredecessors (task : PqpPipelineTask ι) : PqpPipelineTask ι :=
  { task with
    pipelinePredecessorsToFinishCount := task.pipelinePredecessorsToFinishCount.decrement }

variable {result : PqpPipelineFragmentExecutionResult ι} {task : PqpPipelineTask ι}

@[simp] lemma identity_submit : task.submit.identity = task.identity := rfl

@[simp] lemma identity_addResult : (task.addResult result).identity = task.identity := rfl

@[simp] lemma identity_finish : task.finish.identity = task.identity := rfl

@[simp] lemma identity_decrementPredecessors :
    task.decrementPredecessors.identity = task.identity := rfl

/-- A task after several of its predecessors have finished. -/
lemma iterate_decrementPredecessors (n : ℕ) (task : PqpPipelineTask ι) :
    decrementPredecessors^[n] task = { task with
      pipelinePredecessorsToFinishCount :=
        Counter.decrement^[n] task.pipelinePredecessorsToFinishCount } := by
  induction n generalizing task with
  | zero => rfl
  | succ n ih => rw [Function.iterate_succ_apply, ih]; rfl

end PqpPipelineTask

/-- The scheduler: the tasks in the order of their identities, and the error, which is empty unless
a worker has failed. -/
structure PqpPipelineScheduler (ι : Type) where
  /-- The tasks. -/
  tasks : List (PqpPipelineTask ι)
  /-- The error. -/
  errorMessage : String := ""

namespace PqpPipelineScheduler

variable {ι : Type}

section Construction

variable [LinearOrder ι]

/-- `tasks_.emplace`: a task whose identity is taken is not stored. -/
def emplace (tasks : List (PqpPipelineTask ι)) (task : PqpPipelineTask ι) :
    List (PqpPipelineTask ι) :=
  if tasks.any fun other => decide (other.identity = task.identity) then tasks
  else tasks.orderedInsert (fun a b => a.identity ≤ b.identity) task

/-- The constructor. -/
def make (pipelines : List (PqpPipeline ι)) : Except Exception (PqpPipelineScheduler ι) := do
  let tasks ← pipelines.foldlM (fun tasks pipeline => do
    assert (!pipeline.fragmentDefinitions.isEmpty)
      "A pipeline needs at least one fragment definition."
    pure (emplace tasks (.ofPipeline pipeline))) []
  pure { tasks := tasks }

end Construction

/-- Whether a worker has failed. -/
def hasError (s : PqpPipelineScheduler ι) : Bool := !s.errorMessage.isEmpty

/-- Whether every pipeline is finished. -/
def allTasksFinished (s : PqpPipelineScheduler ι) : Bool :=
  s.tasks.all fun task => decide (task.state = .finished)

/-- The condition for which `Execute` waits. -/
def waitCondition (s : PqpPipelineScheduler ι) : Bool := s.allTasksFinished || s.hasError

/-- Submits the waiting tasks that have no predecessor left to finish. -/
def submitTasksWithFinishedPredecessors (s : PqpPipelineScheduler ι) :
    PqpPipelineScheduler ι × List ι :=
  ({ s with tasks := s.tasks.map fun task => if task.isReady then task.submit else task },
    (s.tasks.filter PqpPipelineTask.isReady).map PqpPipelineTask.identity)

/-- What `Execute` returns after the wait: the target of the last pipeline without successors and
the tasks. -/
def executeResult (s : PqpPipelineScheduler ι) :
    Option ObjectReference × List (PqpPipelineTask ι) :=
  (s.tasks.foldl (fun finalResult task =>
    if task.pqpPipeline.successors.isEmpty then
      task.pqpPipeline.fragmentDefinitions.head?.map PipelineFragmentDefinition.targetObject
    else finalResult) none, s.tasks)

section Callback

variable [DecidableEq ι]

/-- `tasks_.at(identity)`. -/
def taskAt (tasks : List (PqpPipelineTask ι)) (a : ι) : Except Exception (PqpPipelineTask ι) :=
  match tasks.find? fun task => decide (task.identity = a) with
  | some task => .ok task
  | none => .error .outOfRange

/-- The tasks with the one of an identity changed. -/
def updateAt (tasks : List (PqpPipelineTask ι)) (a : ι)
    (f : PqpPipelineTask ι → PqpPipelineTask ι) : List (PqpPipelineTask ι) :=
  tasks.map fun task => if task.identity = a then f task else task

/-- Changes the task that `tasks_.at(identity)` refers to. -/
def modifyAt (tasks : List (PqpPipelineTask ι)) (a : ι)
    (f : PqpPipelineTask ι → PqpPipelineTask ι) : Except Exception (List (PqpPipelineTask ι)) := do
  let _ ← taskAt tasks a
  pure (updateAt tasks a f)

/-- The first part of the callback, which only a failure takes. -/
def recordError [ToString ι] (result : PqpPipelineFragmentExecutionResult ι)
    (s : PqpPipelineScheduler ι) : PqpPipelineScheduler ι :=
  { s with
    errorMessage := "Worker with id: " ++ toString result.workerId ++ " in pipeline " ++
      toString result.pipelineId ++ " has thrown an error: " ++ result.message ++ "\n" }

/-- The second part of the callback, which every response takes. -/
def countFragment (pipelineId : ι) (result : PqpPipelineFragmentExecutionResult ι)
    (s : PqpPipelineScheduler ι) : Except Exception (PqpPipelineScheduler ι × List ι) := do
  if s.tasks.isEmpty then
    assert s.hasError "Invalid state: Scheduler ran out of tasks, but no error was set."
    return (s, [])
  let tasks ← modifyAt s.tasks pipelineId (PqpPipelineTask.addResult result)
  let task ← taskAt tasks pipelineId
  if task.fragmentsToFinishCount.value = 0 then
    let tasks ← modifyAt tasks pipelineId PqpPipelineTask.finish
    let tasks ← task.pqpPipeline.successors.foldlM
      (fun tasks a => modifyAt tasks a PqpPipelineTask.decrementPredecessors) tasks
    return submitTasksWithFinishedPredecessors { s with tasks := tasks }
  else
    return ({ s with tasks := tasks }, [])

/-- The callback that the executor runs for a response. -/
def onFragmentExecutionFinishedCallback [ToString ι] (pipelineId : ι)
    (result : PqpPipelineFragmentExecutionResult ι) (s : PqpPipelineScheduler ι) :
    Except Exception (PqpPipelineScheduler ι × List ι) :=
  countFragment pipelineId result (if result.isSuccess then s else recordError result s)

/-! ### What the functions do with the tasks -/

variable {tasks : List (PqpPipelineTask ι)} {t : PqpPipelineTask ι} {a : ι}
  {f : PqpPipelineTask ι → PqpPipelineTask ι}

/-- A change that keeps the pipelines keeps the identities. -/
lemma map_identity_updateAt (hf : ∀ t, (f t).identity = t.identity) :
    (updateAt tasks a f).map PqpPipelineTask.identity = tasks.map PqpPipelineTask.identity := by
  rw [updateAt, List.map_map]
  refine List.map_congr_left fun t _ => ?_
  rw [Function.comp_apply]
  split
  · exact hf t
  · rfl

lemma updateAt_updateAt {f' : PqpPipelineTask ι → PqpPipelineTask ι}
    (hf : ∀ t, (f t).identity = t.identity) :
    updateAt (updateAt tasks a f) a f' = updateAt tasks a fun t => f' (f t) := by
  rw [updateAt, updateAt, updateAt, List.map_map]
  refine List.map_congr_left fun t _ => ?_
  by_cases ht : t.identity = a
  · simp [ht, hf]
  · simp [ht]

lemma exists_find?_eq_some (ht : t ∈ tasks) :
    ∃ u ∈ tasks, u.identity = t.identity ∧
      (tasks.find? fun u => decide (u.identity = t.identity)) = some u := by
  obtain ⟨u, hu⟩ : ∃ u, (tasks.find? fun u => decide (u.identity = t.identity)) = some u :=
    Option.isSome_iff_exists.mp (List.find?_isSome.mpr ⟨t, ht, decide_eq_true rfl⟩)
  exact ⟨u, List.mem_of_find?_eq_some hu, by simpa using List.find?_some hu, hu⟩

lemma taskAt_eq_ok (hnodup : (tasks.map PqpPipelineTask.identity).Nodup) (ht : t ∈ tasks) :
    taskAt tasks t.identity = .ok t := by
  obtain ⟨u, hmem, hid, hu⟩ := exists_find?_eq_some ht
  rw [taskAt, hu, List.inj_on_of_nodup_map hnodup hmem ht hid]

lemma taskAt_updateAt (hnodup : (tasks.map PqpPipelineTask.identity).Nodup) (ht : t ∈ tasks)
    (hf : ∀ t, (f t).identity = t.identity) :
    taskAt (updateAt tasks t.identity f) t.identity = .ok (f t) := by
  have hmem : f t ∈ updateAt tasks t.identity f := List.mem_map.mpr ⟨t, ht, if_pos rfl⟩
  have hat := taskAt_eq_ok (by rwa [map_identity_updateAt hf]) hmem
  rwa [hf] at hat

lemma modifyAt_eq_ok (ha : a ∈ tasks.map PqpPipelineTask.identity)
    (f : PqpPipelineTask ι → PqpPipelineTask ι) :
    modifyAt tasks a f = .ok (updateAt tasks a f) := by
  obtain ⟨t, ht, rfl⟩ := List.mem_map.mp ha
  obtain ⟨u, -, -, hu⟩ := exists_find?_eq_some ht
  rw [modifyAt, taskAt, hu]
  rfl

/-- The successors are counted down as often as they are linked. -/
lemma foldlM_decrementPredecessors {as : List ι}
    (has : ∀ a ∈ as, a ∈ tasks.map PqpPipelineTask.identity) :
    as.foldlM (fun tasks a => modifyAt tasks a PqpPipelineTask.decrementPredecessors) tasks =
      .ok (tasks.map fun t => PqpPipelineTask.decrementPredecessors^[as.count t.identity] t) := by
  induction as generalizing tasks with
  | nil => simp [pure, Except.pure]
  | cons a as ih =>
    rw [List.foldlM_cons, modifyAt_eq_ok (has a List.mem_cons_self)]
    simp only [bind, Except.bind]
    rw [ih]
    · rw [updateAt, List.map_map]
      refine congrArg _ (List.map_congr_left fun t _ => ?_)
      rcases eq_or_ne t.identity a with rfl | hne
      · simp only [Function.comp_apply, if_true, List.count_cons_self, Function.iterate_succ_apply]
        rfl
      · simp only [Function.comp_apply, if_neg hne, List.count_cons_of_ne hne.symm]
    · rw [map_identity_updateAt fun _ => PqpPipelineTask.identity_decrementPredecessors]
      exact fun b hb => has b (List.mem_cons_of_mem a hb)

variable {s : PqpPipelineScheduler ι}

/-- The tasks after the last response of a pipeline, before new pipelines are submitted. -/
def finishTask (result : PqpPipelineFragmentExecutionResult ι) (t : PqpPipelineTask ι)
    (tasks : List (PqpPipelineTask ι)) : List (PqpPipelineTask ι) :=
  (updateAt tasks t.identity fun u => (u.addResult result).finish).map fun u =>
    PqpPipelineTask.decrementPredecessors^[t.pqpPipeline.successors.count u.identity] u

lemma countFragment_eq_ok (result : PqpPipelineFragmentExecutionResult ι)
    (hnodup : (s.tasks.map PqpPipelineTask.identity).Nodup) (ht : t ∈ s.tasks)
    (hsucc : ∀ a ∈ t.pqpPipeline.successors, a ∈ s.tasks.map PqpPipelineTask.identity) :
    countFragment t.identity result s = .ok
      (if (t.addResult result).fragmentsToFinishCount.value = 0 then
        submitTasksWithFinishedPredecessors { s with tasks := finishTask result t s.tasks }
      else ({ s with
        tasks := updateAt s.tasks t.identity (PqpPipelineTask.addResult result) }, [])) := by
  have hmem : t.identity ∈ s.tasks.map PqpPipelineTask.identity := List.mem_map_of_mem ht
  have hid : ∀ u, (PqpPipelineTask.addResult result u).identity = u.identity := fun _ => rfl
  rw [countFragment, if_neg (by simpa using List.ne_nil_of_mem ht), modifyAt_eq_ok hmem]
  simp only [bind, Except.bind]
  rw [taskAt_updateAt hnodup ht hid]
  by_cases hzero : (t.addResult result).fragmentsToFinishCount.value = 0
  · simp only [if_pos hzero]
    rw [modifyAt_eq_ok (by rwa [map_identity_updateAt hid]), updateAt_updateAt hid]
    simp only
    rw [foldlM_decrementPredecessors]
    · rfl
    · rwa [map_identity_updateAt fun _ => by simp]
  · simp only [if_neg hzero]
    rfl

end Callback

end PqpPipelineScheduler

end Skyrise

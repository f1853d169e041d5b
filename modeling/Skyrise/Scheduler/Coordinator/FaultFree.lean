/-
Executions without failures.

`Execute` submits the pipelines without predecessors.  From then on every worker
of a submitted pipeline reports success once, in any order; the callback runs as
one step, since it holds the mutex.
-/
import Skyrise.Scheduler.Coordinator.PipelineExecution

namespace Skyrise

open Concurrency PqpPipelineScheduler

namespace PqpPipelineScheduler

open PqpPipelineTask

variable {ι : Type} [LinearOrder ι]

/-! ### The construction of the scheduler -/

lemma emplace_perm {tasks : List (PqpPipelineTask ι)} {task : PqpPipelineTask ι}
    (h : task.identity ∉ tasks.map identity) : (emplace tasks task).Perm (task :: tasks) := by
  rw [emplace, if_neg]
  · exact List.perm_orderedInsert _ _ _
  · simpa using h

lemma foldlM_emplace {pipelines : List (PqpPipeline ι)} (tasks : List (PqpPipelineTask ι))
    (hne : ∀ p ∈ pipelines, p.fragmentDefinitions ≠ [])
    (hnodup : (tasks.map identity ++ pipelines.map PqpPipeline.identity).Nodup) :
    ∃ tasks', pipelines.foldlM (fun tasks pipeline => do
        assert (!pipeline.fragmentDefinitions.isEmpty)
          "A pipeline needs at least one fragment definition."
        pure (emplace tasks (.ofPipeline pipeline))) tasks = Except.ok tasks' ∧
      tasks'.Perm (tasks ++ pipelines.map PqpPipelineTask.ofPipeline) := by
  induction pipelines generalizing tasks with
  | nil => exact ⟨tasks, rfl, by simp⟩
  | cons p pipelines ih =>
    have hnew : p.identity ∉ tasks.map identity := by
      intro hmem
      exact (List.disjoint_of_nodup_append hnodup) hmem List.mem_cons_self
    have hperm : (emplace tasks (.ofPipeline p)).Perm (.ofPipeline p :: tasks) :=
      emplace_perm hnew
    have hrest : ((emplace tasks (.ofPipeline p)).map identity ++
        pipelines.map PqpPipeline.identity).Nodup := by
      refine ((hperm.map identity).append_right _).nodup_iff.mpr ?_
      exact (List.perm_middle).nodup_iff.mp hnodup
    obtain ⟨tasks', htasks', hperm'⟩ := ih _ (fun q hq => hne q (List.mem_cons_of_mem p hq)) hrest
    refine ⟨tasks', ?_, hperm'.trans ?_⟩
    · have hassert : (!p.fragmentDefinitions.isEmpty) = true := by
        simpa using hne p List.mem_cons_self
      rw [List.foldlM_cons, hassert]
      exact htasks'
    · exact (hperm.append_right _).trans List.perm_middle.symm

/-- The constructor stores a task for every pipeline. -/
lemma make_eq_ok (g : PipelineGraph ι) :
    ∃ s, make g.pipelines = .ok s ∧ s.tasks.Perm (g.pipelines.map PqpPipelineTask.ofPipeline) ∧
      s.errorMessage = "" := by
  obtain ⟨tasks, htasks, hperm⟩ := foldlM_emplace [] g.fragments_ne_nil
    (by simpa using g.identities_nodup)
  refine ⟨⟨tasks, ""⟩, ?_, hperm, rfl⟩
  rw [make, htasks]
  rfl

/-- Before the execution no fragment is counted and no pipeline is submitted. -/
lemma holds_make {g : PipelineGraph ι} {s : PqpPipelineScheduler ι}
    (h : s.tasks.Perm (g.pipelines.map PqpPipelineTask.ofPipeline)) :
    Tracks g (fun _ => []) [] s.tasks := by
  have hunfinished : ∀ p ∈ g.pipelines, g.finished (fun _ => []) p.identity = false := by
    intro p hp
    have hpos := PipelineGraph.fragmentCount_pos hp
    rw [PipelineGraph.finished, decide_eq_false_iff_not, List.length_nil]
    omega
  refine ⟨?_, fun t ht => ?_, fun _ => List.nodup_nil, fun _ _ hk => ?_, fun _ hne => ?_,
    List.nodup_nil, fun _ ha => ?_, fun _ _ ha => ?_⟩
  · have hperm := h.map PqpPipelineTask.pqpPipeline
    rwa [List.map_map, List.map_id''] at hperm
    exact fun _ => rfl
  · obtain ⟨p, hp, rfl⟩ := List.mem_map.mp (h.mem_iff.mp ht)
    refine ⟨?_, ?_, ?_⟩
    · show (⟨_, false⟩ : Counter) = ⟨g.fragmentCount p.identity - 0, false⟩
      rw [PipelineGraph.fragmentCount_identity hp, Nat.sub_zero]
    · have hall : ∀ a ∈ p.predecessors, (!g.finished (fun _ => []) a) = true := by
        intro a ha
        obtain ⟨q, hq, rfl⟩ := List.mem_map.mp (g.predecessors_mem p hp a ha)
        rw [hunfinished q hq]
        rfl
      show (⟨p.predecessors.length, false⟩ : Counter) = ⟨p.predecessors.countP _, false⟩
      rw [List.countP_eq_length.mpr hall]
    · show PqpPipelineTaskState.waiting = if g.finished _ p.identity then _ else _
      rw [hunfinished p hp]
      simp
  · cases hk
  · exact absurd rfl hne
  · cases ha
  · cases ha

/-- `Execute` of a new scheduler before it waits. -/
def executeUntilWait (pipelines : List (PqpPipeline ι)) :
    Except Exception (PqpPipelineScheduler ι × List ι) := do
  let s ← make pipelines
  pure s.submitTasksWithFinishedPredecessors

/-- `Execute` submits the pipelines without predecessors. -/
lemma executeUntilWait_eq_ok (g : PipelineGraph ι) :
    ∃ s subs, executeUntilWait g.pipelines = .ok (s, subs) ∧ Tracks g (fun _ => []) subs s.tasks ∧
      Settled s.tasks ∧ s.errorMessage = "" ∧
      PipelineEvent.InOrder g (subs.map PipelineEvent.submit) := by
  obtain ⟨s, hs, hperm, herr⟩ := make_eq_ok g
  obtain ⟨s', subs, hsub⟩ : ∃ s' subs, s.submitTasksWithFinishedPredecessors = (s', subs) :=
    ⟨_, _, rfl⟩
  obtain ⟨hholds, hsettled, herr'⟩ := (holds_make hperm).submitTasksWithFinishedPredecessors hsub
  refine ⟨s', subs, ?_, hholds, hsettled, herr'.trans herr, ?_⟩
  · simp only [executeUntilWait, hs, hsub, bind, Except.bind, pure, Except.pure]
  · rw [← List.nil_append (subs.map PipelineEvent.submit)]
    refine PipelineEvent.inOrder_nil.submit fun p hp hmem q hq hlink => ?_
    -- a pipeline that is submitted at the start has no predecessors
    have hfin := hholds.predecessors_finished p hp hmem _ hlink
    have hpos := PipelineGraph.fragmentCount_pos hq
    have hle := of_decide_eq_true hfin
    rw [List.length_nil] at hle
    omega

end PqpPipelineScheduler

/-! ### The execution -/

/-- A plan in execution: the scheduler and the events so far. -/
structure PlanExecution (ι : Type) where
  /-- The scheduler. -/
  scheduler : PqpPipelineScheduler ι
  /-- The events, the latest last. -/
  events : List (PipelineEvent ι)

namespace PlanExecution

open PipelineEvent

variable {ι : Type} [LinearOrder ι]

/-- The execution of a plan once `Execute` waits. -/
def start (g : PipelineGraph ι) : Except Exception (PlanExecution ι) := do
  let (scheduler, subs) ← executeUntilWait g.pipelines
  pure ⟨scheduler, subs.map submit⟩

/-- Whether a fragment is being run. -/
def Outstanding (g : PipelineGraph ι) (e : PlanExecution ι) (a : ι) (k : ℕ) : Prop :=
  submit a ∈ e.events ∧ k < g.fragmentCount a ∧ succeed a k ∉ e.events

/-- A fragment that is being run succeeds, and the executor passes the response on. -/
inductive Step [ToString ι] (g : PipelineGraph ι) :
    PlanExecution ι → PqpPipelineFragmentExecutionResult ι → PlanExecution ι → Prop
  /-- The callback runs to its end. -/
  | respond {e : PlanExecution ι} {result : PqpPipelineFragmentExecutionResult ι}
      {s : PqpPipelineScheduler ι} {subs : List ι} (hsuccess : result.isSuccess = true)
      (hout : e.Outstanding g result.pipelineId result.workerId)
      (hcall : onFragmentExecutionFinishedCallback result.pipelineId result e.scheduler =
        .ok (s, subs)) :
      Step g e result
        ⟨s, e.events ++ succeed result.pipelineId result.workerId :: subs.map submit⟩

/-- The fragments of a pipeline that have succeeded. -/
def succeeded (events : List (PipelineEvent ι)) (a : ι) : List ℕ :=
  events.filterMap fun
    | submit _ => none
    | succeed b k => if b = a then some k else none

lemma mem_succeeded {events : List (PipelineEvent ι)} {a : ι} {k : ℕ} :
    k ∈ succeeded events a ↔ succeed a k ∈ events := by
  rw [succeeded, List.mem_filterMap]
  constructor
  · rintro ⟨e, he, hk⟩
    cases e with
    | submit b => cases hk
    | succeed b i =>
      simp only [Option.ite_none_right_eq_some, Option.some.injEq] at hk
      obtain ⟨rfl, rfl⟩ := hk
      exact he
  · exact fun h => ⟨_, h, if_pos rfl⟩

lemma succeeded_map_submit (subs : List ι) (a : ι) : succeeded (subs.map submit) a = [] := by
  rw [succeeded, List.filterMap_map]
  exact List.filterMap_eq_nil_iff.mpr fun _ _ => rfl

lemma succeeded_cons_succeed (a b : ι) (k : ℕ) (events : List (PipelineEvent ι)) :
    succeeded (succeed b k :: events) a =
      if b = a then k :: succeeded events a else succeeded events a := by
  split
  · exact List.filterMap_cons_some (if_pos ‹_›)
  · exact List.filterMap_cons_none (if_neg ‹_›)

/-- One more fragment succeeds. -/
lemma succeeded_append (events : List (PipelineEvent ι)) (a : ι) (k : ℕ) (subs : List ι) :
    succeeded (events ++ succeed a k :: subs.map submit) =
      Tracks.count (succeeded events) a k := by
  funext b
  rw [succeeded, List.filterMap_append]
  show succeeded events b ++ succeeded (succeed a k :: subs.map submit) b = _
  rw [succeeded_cons_succeed, succeeded_map_submit]
  rcases eq_or_ne b a with rfl | hne
  · rw [Tracks.count_self, if_pos rfl]
  · rw [Tracks.count_of_ne hne, if_neg hne.symm, List.append_nil]

/-- What holds in every state of an execution without failures. -/
structure Inv (g : PipelineGraph ι) (e : PlanExecution ι) : Prop where
  holds : Tracks g (succeeded e.events) (submitted e.events) e.scheduler.tasks
  settled : Settled e.scheduler.tasks
  noError : e.scheduler.errorMessage = ""
  inOrder : InOrder g e.events

namespace Inv

variable {g : PipelineGraph ι} {e : PlanExecution ι}

lemma finished_iff (h : Inv g e) {p : PqpPipeline ι} (hp : p ∈ g.pipelines) :
    g.finished (succeeded e.events) p.identity = true ↔ Finished e.events p := by
  rw [h.holds.finished_iff, PipelineGraph.fragmentCount_identity hp]
  simp only [mem_succeeded, Finished]

end Inv

/-- The execution starts. -/
lemma start_eq_ok (g : PipelineGraph ι) : ∃ e, start g = .ok e ∧ Inv g e := by
  obtain ⟨s, subs, hs, hholds, hsettled, herr, horder⟩ := executeUntilWait_eq_ok g
  refine ⟨⟨s, subs.map submit⟩, ?_, ?_, hsettled, herr, horder⟩
  · rw [start, hs]
    rfl
  · have hnone : succeeded (subs.map submit) = fun _ => [] := funext (succeeded_map_submit subs)
    rw [hnone, submitted_map_submit]
    exact hholds

namespace Inv

variable {g : PipelineGraph ι} {e : PlanExecution ι} [ToString ι]
  {result : PqpPipelineFragmentExecutionResult ι}

/-- A response of a fragment that is being run keeps the invariant, and the callback succeeds. -/
lemma respond (h : Inv g e) (hsuccess : result.isSuccess = true)
    (hout : e.Outstanding g result.pipelineId result.workerId) :
    ∃ s subs, onFragmentExecutionFinishedCallback result.pipelineId result e.scheduler =
      .ok (s, subs) ∧
      Inv g ⟨s, e.events ++ succeed result.pipelineId result.workerId :: subs.map submit⟩ := by
  obtain ⟨hsub, hlt, hnew⟩ := hout
  obtain ⟨s, subs, hs, hholds, hsettled, herr⟩ := h.holds.countFragment h.settled
    (mem_submitted.mpr hsub) (fun hk => hnew (mem_succeeded.mp hk)) hlt result
  refine ⟨s, subs, ?_, ?_⟩
  · rw [onFragmentExecutionFinishedCallback, if_pos hsuccess, hs]
  · rw [← succeeded_append _ _ _ subs] at hholds
    refine ⟨?_, hsettled, herr.trans h.noError, ?_⟩
    · rw [submitted_append, submitted_cons_succeed, submitted_map_submit]
      exact hholds
    · rw [List.append_cons]
      refine (h.inOrder.succeed _ _).submit fun p hp hmem q hq hlink => ?_
      have hfin := hholds.predecessors_finished p hp (List.mem_append_right _ hmem) _ hlink
      intro k hk
      have hk' := hholds.mem_done hfin (by rwa [PipelineGraph.fragmentCount_identity hq])
      rw [mem_succeeded, List.append_cons] at hk'
      rcases List.mem_append.mp hk' with hk' | hk'
      · exact hk'
      · simp at hk'

lemma step {e' : PlanExecution ι} (h : Inv g e) (hstep : Step g e result e') : Inv g e' := by
  obtain ⟨hsuccess, hout, hcall⟩ := hstep
  obtain ⟨s, subs, hs, hinv⟩ := h.respond hsuccess hout
  rw [hs] at hcall
  obtain ⟨rfl, rfl⟩ := Prod.mk.inj (Except.ok.inj hcall)
  exact hinv

omit [ToString ι] in
/-- Without a fragment that is being run all pipelines are finished: the first unfinished one would
have been submitted. -/
lemma finished_of_not_outstanding (h : Inv g e) (hnone : ∀ a k, ¬ e.Outstanding g a k)
    {p : PqpPipeline ι} (hp : p ∈ g.pipelines) : Finished e.events p := by
  by_contra hp'
  obtain ⟨m, hm, hunfinished, hmin⟩ :=
    PipelineGraph.exists_minimal (P := fun p => ¬ Finished e.events p) ⟨p, hp, hp'⟩
  obtain ⟨t, ht, rfl⟩ := h.holds.exists_task hm
  have hpred : ∀ a ∈ t.pqpPipeline.predecessors, g.finished (succeeded e.events) a = true := by
    intro a ha
    obtain ⟨q, hq, rfl⟩ := List.mem_map.mp (g.predecessors_mem _ hm a ha)
    exact (h.finished_iff hq).mpr (not_not.mp (hmin q hq ha))
  have hsub : t.identity ∈ submitted e.events := by
    by_contra hwait
    have hready := (h.holds.isReady_iff ht).mpr ⟨hwait, hpred⟩
    rw [h.settled t ht] at hready
    cases hready
  refine hunfinished fun k hk => by_contra fun hmissing => hnone t.identity k ⟨?_, ?_, hmissing⟩
  · exact mem_submitted.mp hsub
  · rwa [PqpPipelineTask.identity, PipelineGraph.fragmentCount_identity hm]

omit [ToString ι] in
lemma state_eq_finished_iff (h : Inv g e) {t : PqpPipelineTask ι} (ht : t ∈ e.scheduler.tasks) :
    t.state = .finished ↔ Finished e.events t.pqpPipeline := by
  rw [← h.finished_iff (h.holds.mem_pipelines ht), (h.holds.task t ht).state,
    PqpPipelineTask.identity]
  split
  · exact iff_of_true rfl ‹_›
  · refine iff_of_false ?_ ‹_›
    split <;> exact PqpPipelineTaskState.noConfusion

omit [ToString ι] in
lemma waitCondition_iff (h : Inv g e) :
    e.scheduler.waitCondition = true ↔ ∀ p ∈ g.pipelines, Finished e.events p := by
  have herr : e.scheduler.hasError = false := by
    rw [hasError, h.noError]
    rfl
  rw [waitCondition, herr, Bool.or_false, allTasksFinished, List.all_eq_true]
  constructor
  · intro hall p hp
    obtain ⟨t, ht, rfl⟩ := h.holds.exists_task hp
    exact (h.state_eq_finished_iff ht).mp (of_decide_eq_true (hall t ht))
  · intro hall t ht
    exact decide_eq_true ((h.state_eq_finished_iff ht).mpr (hall _ (h.holds.mem_pipelines ht)))

end Inv

/-- The guarantees of the scheduler in an execution without failures. -/
structure Correct [ToString ι] (g : PipelineGraph ι) (e : PlanExecution ι) : Prop where
  tasks_perm : (e.scheduler.tasks.map PqpPipelineTask.pqpPipeline).Perm g.pipelines
  submitted_once : (submitted e.events).Nodup
  in_order : InOrder g e.events
  no_underflow : ∀ t ∈ e.scheduler.tasks, t.fragmentsToFinishCount.underflowed = false ∧
    t.pipelinePredecessorsToFinishCount.underflowed = false
  state_finished : ∀ t ∈ e.scheduler.tasks,
    t.state = .finished ↔ Finished e.events t.pqpPipeline
  callback_ok : ∀ result : PqpPipelineFragmentExecutionResult ι, result.isSuccess = true →
    e.Outstanding g result.pipelineId result.workerId → ∃ e', Step g e result e'
  complete : (∀ a k, ¬ e.Outstanding g a k) → ∀ p ∈ g.pipelines, Finished e.events p
  wait_iff : e.scheduler.waitCondition = true ↔ ∀ p ∈ g.pipelines, Finished e.events p

lemma Inv.correct [ToString ι] {g : PipelineGraph ι} {e : PlanExecution ι} (h : Inv g e) :
    Correct g e where
  tasks_perm := h.holds.pipelines
  submitted_once := h.holds.submitted_nodup
  in_order := h.inOrder
  no_underflow t ht := by
    rw [(h.holds.task t ht).fragments, (h.holds.task t ht).predecessors]
    exact ⟨rfl, rfl⟩
  state_finished t ht := h.state_eq_finished_iff ht
  callback_ok result hsuccess hout := by
    obtain ⟨s, subs, hs, -⟩ := h.respond hsuccess hout
    exact ⟨_, .respond hsuccess hout hs⟩
  complete hnone p hp := h.finished_of_not_outstanding hnone hp
  wait_iff := h.waitCondition_iff

/-- **An execution without failures** of any plan starts, and every state that it reaches, in
whatever order the fragments succeed, meets the guarantees. -/
theorem faultFree_correct [ToString ι] (g : PipelineGraph ι) :
    ∃ e₀, start g = .ok e₀ ∧ ∀ e, Reachable (Step g) e₀ e → Correct g e := by
  obtain ⟨e₀, hstart, hinv⟩ := start_eq_ok g
  exact ⟨e₀, hstart, fun e he => (he.invariant hinv fun _ _ _ => Inv.step).correct⟩

end PlanExecution

end Skyrise

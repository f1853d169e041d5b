/-
The execution of a plan.

The executor runs the fragments of a submitted pipeline and passes the response
of every worker to the scheduler.  The scheduler is described by the fragments
whose success it has counted and by the pipelines it has submitted: its counters
hold the numbers of fragments and of predecessors that are left to finish, a task
is finished once all its fragments are counted, and every pipeline without
predecessors left is submitted.

In a run without failures every fragment of a submitted pipeline responds once.
-/
import Skyrise.Scheduler.Coordinator.PqpPipelineScheduler

namespace Skyrise

open Concurrency PqpPipelineScheduler PqpPipelineTask

variable {ι : Type}

/-! ### The events of an execution -/

/-- What the executor sees. -/
inductive PipelineEvent (ι : Type) where
  /-- A pipeline is submitted. -/
  | submit (pipelineId : ι)
  /-- The worker of a fragment reports success. -/
  | succeed (pipelineId : ι) (workerId : ℕ)
deriving DecidableEq

namespace PipelineEvent

/-- The pipelines that are submitted, in order. -/
def submitted (events : List (PipelineEvent ι)) : List ι :=
  events.filterMap fun
    | submit a => some a
    | succeed _ _ => none

lemma mem_submitted {events : List (PipelineEvent ι)} {a : ι} :
    a ∈ submitted events ↔ submit a ∈ events := by
  rw [submitted, List.mem_filterMap]
  constructor
  · rintro ⟨e, he, ha⟩
    cases e with
    | submit b => rwa [← Option.some.inj ha]
    | succeed b k => cases ha
  · exact fun h => ⟨_, h, rfl⟩

@[simp] lemma submitted_append (es es' : List (PipelineEvent ι)) :
    submitted (es ++ es') = submitted es ++ submitted es' := List.filterMap_append ..

@[simp] lemma submitted_map_submit (subs : List ι) : submitted (subs.map submit) = subs := by
  rw [submitted, List.filterMap_map]
  exact List.filterMap_some

@[simp] lemma submitted_cons_succeed (a : ι) (k : ℕ) (es : List (PipelineEvent ι)) :
    submitted (succeed a k :: es) = submitted es := rfl

/-- Whether all fragments of a pipeline have succeeded. -/
def Finished (events : List (PipelineEvent ι)) (p : PqpPipeline ι) : Prop :=
  ∀ k < p.fragmentDefinitions.length, succeed p.identity k ∈ events

variable {events : List (PipelineEvent ι)} {p : PqpPipeline ι}

lemma Finished.append (h : Finished events p) (es : List (PipelineEvent ι)) :
    Finished (events ++ es) p := fun k hk => List.mem_append_left _ (h k hk)

end PipelineEvent

variable [DecidableEq ι]

namespace PipelineGraph

variable (g : PipelineGraph ι)

/-- Whether all fragments of a pipeline are among the given ones. -/
def finished (done : ι → List ℕ) (a : ι) : Bool := decide (g.fragmentCount a ≤ (done a).length)

end PipelineGraph

/-- What a task holds once some fragments are counted and some pipelines are submitted. -/
structure PqpPipelineTask.Holds (g : PipelineGraph ι) (done : ι → List ℕ) (submitted : List ι)
    (t : PqpPipelineTask ι) : Prop where
  fragments : t.fragmentsToFinishCount =
    ⟨g.fragmentCount t.identity - (done t.identity).length, false⟩
  predecessors : t.pipelinePredecessorsToFinishCount =
    ⟨t.pqpPipeline.predecessors.countP fun a => !g.finished done a, false⟩
  state : t.state = if g.finished done t.identity then .finished
    else if t.identity ∈ submitted then .running else .waiting

/-- The tasks of the scheduler track the fragments that are counted and the pipelines that are
submitted. -/
structure Tracks (g : PipelineGraph ι) (done : ι → List ℕ) (submitted : List ι)
    (tasks : List (PqpPipelineTask ι)) : Prop where
  pipelines : (tasks.map PqpPipelineTask.pqpPipeline).Perm g.pipelines
  task : ∀ t ∈ tasks, t.Holds g done submitted
  done_nodup : ∀ a, (done a).Nodup
  done_lt : ∀ a, ∀ k ∈ done a, k < g.fragmentCount a
  submitted_of_done : ∀ a, done a ≠ [] → a ∈ submitted
  submitted_nodup : submitted.Nodup
  submitted_mem : ∀ a ∈ submitted, a ∈ g.pipelines.map PqpPipeline.identity
  predecessors_finished : ∀ p ∈ g.pipelines, p.identity ∈ submitted →
    ∀ a ∈ p.predecessors, g.finished done a = true

/-- No task is left to submit. -/
def Settled (tasks : List (PqpPipelineTask ι)) : Prop := ∀ t ∈ tasks, t.isReady = false

namespace Tracks

variable {g : PipelineGraph ι} {done : ι → List ℕ} {submitted : List ι}
  {tasks : List (PqpPipelineTask ι)} {t : PqpPipelineTask ι}

lemma map_identity_perm (h : Tracks g done submitted tasks) :
    (tasks.map PqpPipelineTask.identity).Perm (g.pipelines.map PqpPipeline.identity) := by
  have hperm := h.pipelines.map PqpPipeline.identity
  rwa [List.map_map] at hperm

lemma identity_nodup (h : Tracks g done submitted tasks) :
    (tasks.map PqpPipelineTask.identity).Nodup :=
  h.map_identity_perm.nodup_iff.mpr g.identities_nodup

lemma mem_pipelines (h : Tracks g done submitted tasks) (ht : t ∈ tasks) :
    t.pqpPipeline ∈ g.pipelines :=
  h.pipelines.mem_iff.mp (List.mem_map_of_mem ht)

lemma exists_task (h : Tracks g done submitted tasks) {p : PqpPipeline ι} (hp : p ∈ g.pipelines) :
    ∃ t ∈ tasks, t.pqpPipeline = p := List.mem_map.mp (h.pipelines.mem_iff.mpr hp)

lemma exists_task_of_submitted (h : Tracks g done submitted tasks) {a : ι} (ha : a ∈ submitted) :
    ∃ t ∈ tasks, t.identity = a :=
  List.mem_map.mp (h.map_identity_perm.mem_iff.mpr (h.submitted_mem a ha))

lemma fragmentCount_pos (h : Tracks g done submitted tasks) (ht : t ∈ tasks) :
    0 < g.fragmentCount t.identity := PipelineGraph.fragmentCount_pos (h.mem_pipelines ht)

/-- A finished pipeline has all its fragments counted. -/
lemma mem_done (h : Tracks g done submitted tasks) {a : ι} (ha : g.finished done a = true) {k : ℕ}
    (hk : k < g.fragmentCount a) : k ∈ done a := by
  have hsub : (done a).Subperm (List.range (g.fragmentCount a)) :=
    (h.done_nodup a).subperm fun k hk => List.mem_range.mpr (h.done_lt a k hk)
  have hperm := hsub.perm_of_length_le (by simpa using of_decide_eq_true ha)
  exact hperm.mem_iff.mpr (List.mem_range.mpr hk)

lemma finished_iff (h : Tracks g done submitted tasks) {a : ι} :
    g.finished done a = true ↔ ∀ k < g.fragmentCount a, k ∈ done a := by
  refine ⟨fun ha k => h.mem_done ha, fun hall => decide_eq_true ?_⟩
  have hsub : (List.range (g.fragmentCount a)).Subperm (done a) :=
    List.nodup_range.subperm fun k hk => hall k (List.mem_range.mp hk)
  simpa using hsub.length_le

lemma submitted_of_finished (h : Tracks g done submitted tasks) (ht : t ∈ tasks)
    (hfin : g.finished done t.identity = true) : t.identity ∈ submitted := by
  refine h.submitted_of_done _ fun hnil => ?_
  have hpos := h.fragmentCount_pos ht
  have hle := of_decide_eq_true hfin
  rw [hnil, List.length_nil] at hle
  omega

lemma isReady_iff (h : Tracks g done submitted tasks) (ht : t ∈ tasks) :
    t.isReady = true ↔ t.identity ∉ submitted ∧
      ∀ a ∈ t.pqpPipeline.predecessors, g.finished done a = true := by
  have hstate := (h.task t ht).state
  rw [PqpPipelineTask.isReady, Bool.and_eq_true, decide_eq_true_eq, decide_eq_true_eq,
    (h.task t ht).predecessors, List.countP_eq_zero, hstate]
  constructor
  · rintro ⟨hpred, hwait⟩
    refine ⟨fun hsub => ?_, fun a ha => by simpa using hpred a ha⟩
    rw [if_pos hsub] at hwait
    split at hwait <;> cases hwait
  · rintro ⟨hsub, hpred⟩
    refine ⟨fun a ha => by simpa using hpred a ha, ?_⟩
    rw [if_neg fun hfin => hsub (h.submitted_of_finished ht hfin), if_neg hsub]

/-! ### Submitting pipelines -/

/-- Submitting a task that is ready, and no other. -/
lemma submit_task (h : Tracks g done submitted tasks) (ht : t ∈ tasks) {subs : List ι}
    (hsubs : ∀ a, a ∈ subs ↔ ∃ u ∈ tasks, u.isReady = true ∧ u.identity = a) :
    (if t.isReady then t.submit else t).Holds g done (submitted ++ subs) := by
  have htask := h.task t ht
  have hmem : t.identity ∈ subs ↔ t.isReady = true := by
    rw [hsubs]
    constructor
    · rintro ⟨u, hu, hready, hid⟩
      rwa [← List.inj_on_of_nodup_map h.identity_nodup hu ht hid]
    · exact fun hready => ⟨t, ht, hready, rfl⟩
  by_cases hready : t.isReady = true
  · rw [if_pos hready]
    obtain ⟨hsub, -⟩ := (h.isReady_iff ht).mp hready
    refine ⟨htask.fragments, htask.predecessors, ?_⟩
    rw [identity_submit, if_neg fun hfin => hsub (h.submitted_of_finished ht hfin),
      if_pos (List.mem_append_right _ (hmem.mpr hready))]
    rfl
  · rw [if_neg hready]
    refine ⟨htask.fragments, htask.predecessors, htask.state.trans ?_⟩
    have hiff : t.identity ∈ submitted ++ subs ↔ t.identity ∈ submitted := by
      rw [List.mem_append, hmem]
      exact or_iff_left hready
    simp only [hiff]

/-- After the tasks that are ready are submitted, no task is. -/
lemma submitTasksWithFinishedPredecessors {s s' : PqpPipelineScheduler ι} {subs : List ι}
    (h : Tracks g done submitted s.tasks)
    (hs : s.submitTasksWithFinishedPredecessors = (s', subs)) :
    Tracks g done (submitted ++ subs) s'.tasks ∧ Settled s'.tasks ∧
      s'.errorMessage = s.errorMessage := by
  obtain ⟨rfl, rfl⟩ := Prod.mk.inj hs
  have hsubs : ∀ a, a ∈ (s.tasks.filter PqpPipelineTask.isReady).map PqpPipelineTask.identity ↔
      ∃ u ∈ s.tasks, u.isReady = true ∧ u.identity = a := by
    simp [and_assoc]
  have hpipeline : ∀ t : PqpPipelineTask ι,
      (if t.isReady then t.submit else t).pqpPipeline = t.pqpPipeline := by
    intro t
    split <;> rfl
  refine ⟨⟨?_, ?_, h.done_nodup, h.done_lt, ?_, ?_, ?_, ?_⟩, ?_, rfl⟩
  · simpa [Function.comp_def, hpipeline] using h.pipelines
  · intro u hu
    obtain ⟨t, ht, rfl⟩ := List.mem_map.mp hu
    exact h.submit_task ht hsubs
  · exact fun a ha => List.mem_append_left _ (h.submitted_of_done a ha)
  · refine h.submitted_nodup.append ?_ ?_
    · exact h.identity_nodup.sublist (List.filter_sublist.map _)
    · intro a ha hb
      obtain ⟨u, hu, hready, rfl⟩ := (hsubs a).mp hb
      exact ((h.isReady_iff hu).mp hready).1 ha
  · intro a ha
    rcases List.mem_append.mp ha with ha | ha
    · exact h.submitted_mem a ha
    · obtain ⟨u, hu, -, rfl⟩ := (hsubs a).mp ha
      exact List.mem_map_of_mem (h.mem_pipelines hu)
  · intro p hp ha a hmem
    rcases List.mem_append.mp ha with ha | ha
    · exact h.predecessors_finished p hp ha a hmem
    · obtain ⟨u, hu, hready, hid⟩ := (hsubs _).mp ha
      obtain rfl : u.pqpPipeline = p := PipelineGraph.eq_of_identity_eq (h.mem_pipelines hu) hp hid
      exact ((h.isReady_iff hu).mp hready).2 a hmem
  · intro u hu
    obtain ⟨t, ht, rfl⟩ := List.mem_map.mp hu
    by_cases hready : t.isReady = true
    · rw [if_pos hready]
      simp [PqpPipelineTask.isReady, PqpPipelineTask.submit]
    · rw [if_neg hready]
      exact Bool.eq_false_iff.mpr hready

/-! ### Counting a fragment -/

variable {a : ι} {k : ℕ}

/-- One more fragment of a pipeline. -/
def count (done : ι → List ℕ) (a : ι) (k : ℕ) : ι → List ℕ :=
  Function.update done a (done a ++ [k])

@[simp] lemma count_self : count done a k a = done a ++ [k] := Function.update_self ..

lemma count_of_ne {b : ι} (hb : b ≠ a) : count done a k b = done b := Function.update_of_ne hb ..

lemma mem_count {b : ι} {i : ℕ} : i ∈ count done a k b ↔ i ∈ done b ∨ (b = a ∧ i = k) := by
  rcases eq_or_ne b a with rfl | hb
  · simp
  · simp [count_of_ne hb, hb]

lemma finished_count_of_ne {b : ι} (hb : b ≠ a) :
    g.finished (count done a k) b = g.finished done b := by
  rw [PipelineGraph.finished, PipelineGraph.finished, count_of_ne hb]

lemma finished_count_self :
    g.finished (count done a k) a = decide (g.fragmentCount a ≤ (done a).length + 1) := by
  rw [PipelineGraph.finished, count_self, List.length_append, List.length_singleton]

lemma finished_mono {b : ι} (hb : g.finished done b = true) :
    g.finished (count done a k) b = true := by
  rcases eq_or_ne b a with rfl | hne
  · have hle := of_decide_eq_true hb
    rw [finished_count_self, decide_eq_true_eq]
    omega
  · rwa [finished_count_of_ne hne]

/-- What the tasks hold after one more fragment of a submitted pipeline, as soon as every task
holds it. -/
lemma of_count (h : Tracks g done submitted tasks) (hsub : a ∈ submitted) (hk : k ∉ done a)
    (hlt : k < g.fragmentCount a) {tasks' : List (PqpPipelineTask ι)}
    (hpipelines : tasks'.map PqpPipelineTask.pqpPipeline = tasks.map PqpPipelineTask.pqpPipeline)
    (htask : ∀ t ∈ tasks', t.Holds g (count done a k) submitted) :
    Tracks g (count done a k) submitted tasks' := by
  refine ⟨hpipelines ▸ h.pipelines, htask, fun b => ?_, fun b i hi => ?_, fun b hb => ?_,
    h.submitted_nodup, h.submitted_mem, fun p hp ha b hb => ?_⟩
  · rcases eq_or_ne b a with rfl | hb
    · rw [count_self]
      exact (h.done_nodup b).append (List.nodup_singleton k) (by simpa using hk)
    · rw [count_of_ne hb]
      exact h.done_nodup b
  · rcases mem_count.mp hi with hi | ⟨rfl, rfl⟩
    · exact h.done_lt b i hi
    · exact hlt
  · rcases eq_or_ne b a with rfl | hne
    · exact hsub
    · exact h.submitted_of_done b (by rwa [count_of_ne hne] at hb)
  · exact finished_mono (h.predecessors_finished p hp ha b hb)

lemma map_pqpPipeline_updateAt {f : PqpPipelineTask ι → PqpPipelineTask ι}
    (hf : ∀ t, (f t).pqpPipeline = t.pqpPipeline) :
    (updateAt tasks a f).map PqpPipelineTask.pqpPipeline =
      tasks.map PqpPipelineTask.pqpPipeline := by
  rw [updateAt, List.map_map]
  refine List.map_congr_left fun t _ => ?_
  rw [Function.comp_apply]
  split
  · exact hf t
  · rfl

/-- One more response counts the fragments down by one. -/
lemma fragments_addResult (h : t.Holds g done submitted)
    (hlt : (done t.identity).length < g.fragmentCount t.identity)
    (result : PqpPipelineFragmentExecutionResult ι) :
    (t.addResult result).fragmentsToFinishCount =
      ⟨g.fragmentCount t.identity - (count done t.identity k t.identity).length, false⟩ := by
  have hvalue : g.fragmentCount t.identity - (done t.identity).length =
      g.fragmentCount t.identity - (count done t.identity k t.identity).length + 1 := by
    rw [count_self, List.length_append, List.length_singleton]
    omega
  show t.fragmentsToFinishCount.decrement = _
  rw [h.fragments, hvalue, Counter.decrement_succ]

/-- One more fragment that does not finish its pipeline. -/
lemma addResult (h : Tracks g done submitted tasks) (hsub : a ∈ submitted) (hk : k ∉ done a)
    (hlt : k < g.fragmentCount a) (hmore : (done a).length + 1 < g.fragmentCount a)
    (result : PqpPipelineFragmentExecutionResult ι) :
    Tracks g (count done a k) submitted (updateAt tasks a (PqpPipelineTask.addResult result)) := by
  have hfinished : g.finished (count done a k) = g.finished done := by
    funext b
    rcases eq_or_ne b a with rfl | hne
    · rw [finished_count_self, PipelineGraph.finished, decide_eq_decide]
      omega
    · exact finished_count_of_ne hne
  refine h.of_count hsub hk hlt (map_pqpPipeline_updateAt fun _ => rfl) fun u hu => ?_
  obtain ⟨t, ht, rfl⟩ := List.mem_map.mp hu
  have htask := h.task t ht
  by_cases ha : t.identity = a
  · subst ha
    rw [if_pos rfl]
    refine ⟨?_, by rw [hfinished]; exact htask.predecessors, by rw [hfinished]; exact htask.state⟩
    exact fragments_addResult htask (Nat.lt_of_succ_lt hmore) result
  · rw [if_neg ha]
    refine ⟨?_, by rw [hfinished]; exact htask.predecessors, by rw [hfinished]; exact htask.state⟩
    rw [htask.fragments, count_of_ne ha]

/-- The fragment that finishes its pipeline. -/
lemma finishTask (h : Tracks g done submitted tasks) (ht : t ∈ tasks) (hsub : t.identity ∈ submitted)
    (hk : k ∉ done t.identity) (hlt : k < g.fragmentCount t.identity)
    (hlast : (done t.identity).length + 1 = g.fragmentCount t.identity)
    (result : PqpPipelineFragmentExecutionResult ι) :
    Tracks g (count done t.identity k) submitted (finishTask result t tasks) := by
  have hunfinished : g.finished done t.identity = false := by
    rw [PipelineGraph.finished, decide_eq_false_iff_not]
    omega
  have hfinished : ∀ b, g.finished (count done t.identity k) b =
      (g.finished done b || decide (b = t.identity)) := by
    intro b
    rcases eq_or_ne b t.identity with rfl | hne
    · simp [finished_count_self, hlast]
    · simp [finished_count_of_ne hne, hne]
  refine h.of_count hsub hk hlt ?_ fun u hu => ?_
  · rw [PqpPipelineScheduler.finishTask, List.map_map]
    refine Eq.trans (List.map_congr_left fun u _ => ?_)
      (map_pqpPipeline_updateAt (a := t.identity) (f := fun u => (u.addResult result).finish)
        fun _ => rfl)
    rw [Function.comp_apply, iterate_decrementPredecessors]
  · obtain ⟨w, hw, rfl⟩ := List.mem_map.mp hu
    obtain ⟨v, hv, rfl⟩ := List.mem_map.mp hw
    have htask := h.task v hv
    -- the links from the finished pipeline are counted down as often as they were counted
    have hlinks := countP_not_done_add_count hunfinished hfinished v.pqpPipeline.predecessors
    have hlinked := g.linked _ (h.mem_pipelines ht) _ (h.mem_pipelines hv)
    have hpred : Counter.decrement^[t.pqpPipeline.successors.count v.identity]
        v.pipelinePredecessorsToFinishCount =
          ⟨v.pqpPipeline.predecessors.countP fun b => !g.finished (count done t.identity k) b,
            false⟩ := by
      refine Counter.iterate_decrement (htask.predecessors.trans ?_)
      rw [← hlinks]
      exact congrArg (fun n => (⟨_ + n, false⟩ : Counter)) hlinked.symm
    by_cases hid : v.identity = t.identity
    · obtain rfl : v = t := List.inj_on_of_nodup_map h.identity_nodup hv ht hid
      rw [if_pos rfl, iterate_decrementPredecessors]
      refine ⟨fragments_addResult htask (by omega) result, hpred, ?_⟩
      show PqpPipelineTaskState.finished = if g.finished (count done v.identity k) v.identity then _ else _
      rw [if_pos (by simp [hfinished])]
    · rw [if_neg hid, iterate_decrementPredecessors]
      refine ⟨?_, hpred, ?_⟩
      · show v.fragmentsToFinishCount = ⟨_ - (count done t.identity k v.identity).length, false⟩
        rw [count_of_ne hid]
        exact htask.fragments
      · show v.state = if g.finished (count done t.identity k) v.identity then _ else _
        rw [finished_count_of_ne hid]
        exact htask.state

/-- **Counting a fragment** of a submitted pipeline that was not counted before does not fail,
keeps what the tasks hold and leaves no task to submit. -/
theorem countFragment {s : PqpPipelineScheduler ι} (h : Tracks g done submitted s.tasks)
    (hsettled : Settled s.tasks) (hsub : a ∈ submitted) (hk : k ∉ done a)
    (hlt : k < g.fragmentCount a) (result : PqpPipelineFragmentExecutionResult ι) :
    ∃ s' subs, countFragment a result s = .ok (s', subs) ∧
      Tracks g (count done a k) (submitted ++ subs) s'.tasks ∧ Settled s'.tasks ∧
      s'.errorMessage = s.errorMessage := by
  obtain ⟨t, ht, rfl⟩ := h.exists_task_of_submitted hsub
  have hlen : (done t.identity).length < g.fragmentCount t.identity := by
    by_contra hle
    exact hk (h.mem_done (decide_eq_true (not_lt.mp hle)) hlt)
  have hsucc : ∀ b ∈ t.pqpPipeline.successors, b ∈ s.tasks.map PqpPipelineTask.identity :=
    fun b hb => h.map_identity_perm.mem_iff.mpr
      (g.successors_mem _ (h.mem_pipelines ht) b hb)
  have hvalue : (t.addResult result).fragmentsToFinishCount.value =
      g.fragmentCount t.identity - ((done t.identity).length + 1) := by
    rw [fragments_addResult (k := k) (h.task t ht) hlen result, count_self, List.length_append,
      List.length_singleton]
  rw [countFragment_eq_ok result h.identity_nodup ht hsucc, hvalue]
  rcases Nat.lt_or_ge ((done t.identity).length + 1) (g.fragmentCount t.identity) with hmore | hlast
  · rw [if_neg (by omega)]
    refine ⟨_, [], rfl, ?_, ?_, rfl⟩
    · rw [List.append_nil]
      exact h.addResult hsub hk hlt hmore result
    · intro u hu
      obtain ⟨v, hv, rfl⟩ := List.mem_map.mp hu
      have hready := hsettled v hv
      split
      · exact hready
      · exact hready
  · rw [if_pos (by omega)]
    have hfinish := h.finishTask ht hsub hk hlt (by omega) result
    exact ⟨_, _, rfl, hfinish.submitTasksWithFinishedPredecessors
      (s := { s with tasks := PqpPipelineScheduler.finishTask result t s.tasks }) rfl⟩

end Tracks

/-! ### The order of the events -/

namespace PipelineEvent

/-- Every pipeline is submitted after all fragments of its predecessors have succeeded. -/
def InOrder (g : PipelineGraph ι) (events : List (PipelineEvent ι)) : Prop :=
  ∀ p ∈ g.pipelines, ∀ before after, events = before ++ submit p.identity :: after →
    ∀ q ∈ g.pipelines, q.identity ∈ p.predecessors → Finished before q

variable {g : PipelineGraph ι} {events : List (PipelineEvent ι)}

lemma inOrder_nil : InOrder g ([] : List (PipelineEvent ι)) := by
  intro p _ before after h
  exact absurd h.symm (List.append_ne_nil_of_right_ne_nil _ (List.cons_ne_nil _ _))

lemma InOrder.snoc (h : InOrder g events) {e : PipelineEvent ι}
    (he : ∀ p ∈ g.pipelines, e = submit p.identity →
      ∀ q ∈ g.pipelines, q.identity ∈ p.predecessors → Finished events q) :
    InOrder g (events ++ [e]) := by
  intro p hp before after heq
  rcases List.eq_nil_or_concat after with rfl | ⟨after, e', rfl⟩
  · obtain ⟨rfl, hlast⟩ := List.append_inj' heq rfl
    exact he p hp (List.singleton_inj.mp hlast)
  · rw [List.concat_eq_append, ← List.cons_append, ← List.append_assoc] at heq
    obtain ⟨rfl, -⟩ := List.append_inj' heq rfl
    exact h p hp before after rfl

lemma InOrder.succeed (h : InOrder g events) (a : ι) (k : ℕ) :
    InOrder g (events ++ [PipelineEvent.succeed a k]) :=
  h.snoc fun _ _ he => by cases he

lemma InOrder.submit (h : InOrder g events) {subs : List ι}
    (hsubs : ∀ p ∈ g.pipelines, p.identity ∈ subs →
      ∀ q ∈ g.pipelines, q.identity ∈ p.predecessors → Finished events q) :
    InOrder g (events ++ subs.map PipelineEvent.submit) := by
  induction subs generalizing events with
  | nil => simpa using h
  | cons a subs ih =>
    rw [List.map_cons, List.append_cons]
    refine ih (h.snoc fun p hp he q hq hlink => ?_) fun p hp hmem q hq hlink => ?_
    · have hid : a = p.identity := PipelineEvent.submit.inj he
      exact hsubs p hp (hid ▸ List.mem_cons_self) q hq hlink
    · exact (hsubs p hp (List.mem_cons_of_mem a hmem) q hq hlink).append _

end PipelineEvent

end Skyrise

/-
Tasks for operators.

The tasks for an operator DAG are created recursively, one for each operator, and
every input becomes a predecessor of its consumers, also if it is the left and
the right input of one.  Here the task of an operator has the name of the
operator, since the map of the recursion has one task for each.

A task executes its operator and then looks at its predecessors: the output of a
predecessor is cleared unless some other successor is not done.  Another task may
be done by now or not; it is done only after its operator was executed.  A task
that consumes no operator, such as a job that an operator schedules, looks at no
predecessor.
-/
import Skyrise.Scheduler.Worker.Effect

namespace Skyrise

open Concurrency FragmentScheduler

/-! ### The tasks of an operator DAG -/

/-- Operators with up to two inputs each. -/
structure OperatorDag (ω : Type) where
  leftInput : ω → Option ω
  rightInput : ω → Option ω
  acyclic : WellFounded fun i o => leftInput o = some i ∨ rightInput o = some i

/-- The operators that have a task, and the calls of `SetAsPredecessorOf`. -/
structure OperatorTasks (ω : Type) where
  operators : List ω := []
  links : List (ω × ω) := []
deriving DecidableEq, Repr

namespace OperatorDag

variable {ω : Type} (dag : OperatorDag ω)

/-- Whether the first operator has the output of the second as an input. -/
def Consumes (o i : ω) : Prop := dag.leftInput o = some i ∨ dag.rightInput o = some i

/-- The lambda of `AddOperatorTasksRecursively`: the task of an input, if there is one, becomes a
predecessor. -/
def addOperatorSubtasks (add : ω → OperatorTasks ω → Option (OperatorTasks ω)) (o : ω)
    (input : Option ω) (tasks : OperatorTasks ω) : Option (OperatorTasks ω) :=
  match input with
  | none => some tasks
  | some i => (add i tasks).map fun tasks => { tasks with links := tasks.links ++ [(i, o)] }

variable [DecidableEq ω]

/-- `AddOperatorTasksRecursively`, with a bound for the depth of its recursion. -/
def addOperatorTasksRecursively : ℕ → ω → OperatorTasks ω → Option (OperatorTasks ω)
  | 0, _, _ => none
  | depth + 1, o, tasks =>
    if o ∈ tasks.operators then some tasks
    else
      (addOperatorSubtasks (addOperatorTasksRecursively depth) o (dag.leftInput o)
        { tasks with operators := tasks.operators ++ [o] }).bind
          (addOperatorSubtasks (addOperatorTasksRecursively depth) o (dag.rightInput o))

/-- `GenerateTasksFromOperator`. -/
def generateTasksFromOperator (depth : ℕ) (root : ω) : Option (OperatorTasks ω) :=
  dag.addOperatorTasksRecursively depth root {}

variable {dag} {depth : ℕ} {o : ω} {tasks tasks' : OperatorTasks ω}

/-- The recursion ends. -/
lemma exists_addOperatorTasksRecursively (dag : OperatorDag ω) (o : ω) : ∃ n, ∀ depth, n ≤ depth →
    ∀ tasks, ∃ tasks', dag.addOperatorTasksRecursively depth o tasks = some tasks' := by
  induction o using dag.acyclic.induction with
  | _ o ih =>
    have hinput : ∀ input : Option ω, (input = dag.leftInput o ∨ input = dag.rightInput o) →
        ∃ n, ∀ depth, n ≤ depth → ∀ tasks, ∃ tasks', addOperatorSubtasks
          (dag.addOperatorTasksRecursively depth) o input tasks = some tasks' := by
      rintro (_ | i) hi
      · exact ⟨0, fun _ _ tasks => ⟨tasks, rfl⟩⟩
      · obtain ⟨n, hn⟩ := ih i (hi.imp Eq.symm Eq.symm)
        refine ⟨n, fun depth hdepth tasks => ?_⟩
        obtain ⟨tasks', htasks'⟩ := hn depth hdepth tasks
        exact ⟨_, by rw [addOperatorSubtasks, htasks']; rfl⟩
    obtain ⟨nl, hleft⟩ := hinput _ (.inl rfl)
    obtain ⟨nr, hright⟩ := hinput _ (.inr rfl)
    refine ⟨max nl nr + 1, fun depth hdepth tasks => ?_⟩
    obtain ⟨depth, rfl⟩ : ∃ d, depth = d + 1 := ⟨depth - 1, by omega⟩
    rw [addOperatorTasksRecursively]
    split
    · exact ⟨tasks, rfl⟩
    · obtain ⟨tasks₁, h₁⟩ := hleft depth (by omega) { tasks with operators := tasks.operators ++ [o] }
      obtain ⟨tasks₂, h₂⟩ := hright depth (by omega) tasks₁
      exact ⟨tasks₂, by rw [h₁]; exact h₂⟩

/-- What the recursion adds: the operators that get a task get their links. -/
structure Grows (dag : OperatorDag ω) (tasks tasks' : OperatorTasks ω) : Prop where
  operators : tasks.operators ⊆ tasks'.operators
  links : tasks.links ⊆ tasks'.links
  complete : ∀ c ∈ tasks'.operators,
    c ∈ tasks.operators ∨ ∀ i, dag.Consumes c i → (i, c) ∈ tasks'.links

omit [DecidableEq ω] in
lemma Grows.refl (dag : OperatorDag ω) (tasks : OperatorTasks ω) : Grows dag tasks tasks :=
  ⟨List.Subset.refl _, List.Subset.refl _, fun _ hc => .inl hc⟩

omit [DecidableEq ω] in
lemma Grows.trans {tasks₁ tasks₂ tasks₃ : OperatorTasks ω} (h : Grows dag tasks₁ tasks₂)
    (h' : Grows dag tasks₂ tasks₃) : Grows dag tasks₁ tasks₃ := by
  refine ⟨List.Subset.trans h.operators h'.operators, List.Subset.trans h.links h'.links,
    fun c hc => ?_⟩
  rcases h'.complete c hc with hold | hlinks
  · exact (h.complete c hold).imp_right fun hlinks i hi => h'.links (hlinks i hi)
  · exact .inr hlinks

omit [DecidableEq ω] in
/-- One more link. -/
lemma Grows.link (h : Grows dag tasks tasks') (link : ω × ω) :
    Grows dag tasks { tasks' with links := tasks'.links ++ [link] } :=
  ⟨h.operators, List.Subset.trans h.links (List.subset_append_left _ _), fun c hc =>
    (h.complete c hc).imp_right fun hlinks i hi => List.mem_append_left _ (hlinks i hi)⟩

omit [DecidableEq ω] in
lemma grows_addOperatorSubtasks {add : ω → OperatorTasks ω → Option (OperatorTasks ω)}
    (hadd : ∀ {i tasks tasks'}, add i tasks = some tasks' → Grows dag tasks tasks')
    {input : Option ω} (h : addOperatorSubtasks add o input tasks = some tasks') :
    Grows dag tasks tasks' ∧ ∀ i, input = some i → (i, o) ∈ tasks'.links := by
  cases input with
  | none =>
    obtain rfl := Option.some.inj h
    exact ⟨.refl dag tasks, fun i hi => by cases hi⟩
  | some i =>
    obtain ⟨tasks₁, h₁, rfl⟩ := Option.map_eq_some_iff.mp h
    refine ⟨(hadd h₁).link (i, o), fun j hj => ?_⟩
    obtain rfl := Option.some.inj hj
    exact List.mem_append_right _ (List.mem_singleton_self _)

lemma grows_addOperatorTasksRecursively
    (h : dag.addOperatorTasksRecursively depth o tasks = some tasks') : Grows dag tasks tasks' := by
  induction depth generalizing o tasks tasks' with
  | zero => cases h
  | succ depth ih =>
    rw [addOperatorTasksRecursively] at h
    split at h
    · obtain rfl := Option.some.inj h
      exact .refl dag tasks
    · obtain ⟨tasks₁, h₁, h₂⟩ := Option.bind_eq_some_iff.mp h
      obtain ⟨hleft, hlinkLeft⟩ := grows_addOperatorSubtasks ih h₁
      obtain ⟨hright, hlinkRight⟩ := grows_addOperatorSubtasks ih h₂
      have hgrows := hleft.trans hright
      refine ⟨List.Subset.trans (List.subset_append_left _ _) hgrows.operators, hgrows.links,
        fun c hc => ?_⟩
      rcases hgrows.complete c hc with hold | hlinks
      · rcases List.mem_append.mp hold with hold | hnew
        · exact .inl hold
        · -- the operator itself is linked to both inputs
          obtain rfl := List.mem_singleton.mp hnew
          exact .inr fun i hi => hi.elim (fun hi => hright.links (hlinkLeft i hi)) (hlinkRight i)
      · exact .inr hlinks

/-- Every input of an operator that has a task is linked to the operator. -/
lemma links_generateTasksFromOperator {root : ω}
    (h : dag.generateTasksFromOperator depth root = some tasks) {i : ω} (ho : o ∈ tasks.operators)
    (hi : dag.Consumes o i) : (i, o) ∈ tasks.links :=
  ((grows_addOperatorTasksRecursively h).complete o ho).resolve_left List.not_mem_nil i hi

end OperatorDag

/-! ### Execution -/

/-- The state that all threads share, with the history of the operators. -/
structure OperatorExecution (τ : Type) where
  scheduler : FragmentScheduler τ
  /-- The tasks whose operators were executed, by a call that returned or that threw. -/
  executed : List τ := []
  /-- The tasks whose operators have no output any more. -/
  cleared : List τ := []

namespace OperatorExecution

variable {τ : Type}

/-- What a thread has to do next. -/
inductive OperatorFrame (τ : Type) where
  /-- A frame of the scheduler, where `OnExecute` stands before the end of the operator. -/
  | scheduler (frame : Frame τ)
  /-- `OnExecute`: the loop over the predecessors. -/
  | clearPredecessors (task : τ) (rest : List τ)
  /-- `OnExecute`: the loop over the successors of a predecessor. -/
  | checkSuccessors (task predecessor : τ) (rest : List τ)
  /-- `ClearOutput` of the operator of a task. -/
  | clearOutput (task : τ)
deriving DecidableEq, Repr

variable [DecidableEq τ]

/-- Executing a frame. -/
def exec (frame : OperatorFrame τ) (choice : Choice τ) (s : OperatorExecution τ) :
    Outcome (OperatorFrame τ) (OperatorExecution τ) Exception :=
  match frame with
  | .clearPredecessors t [] => .ok [.scheduler (.finish t)] s
  | .clearPredecessors t (p :: rest) =>
    .ok [.checkSuccessors t p (s.scheduler.tasks p).successors, .clearPredecessors t rest] s
  | .checkSuccessors _ p [] => .ok [.clearOutput p] s
  | .checkSuccessors t p (u :: rest) =>
    if u ≠ t ∧ ¬ (s.scheduler.tasks u).isDone then .ok [] s
    else .ok [.checkSuccessors t p rest] s
  | .clearOutput p => .ok [] { s with cleared := s.cleared ++ [p] }
  | .scheduler frame =>
    match FragmentScheduler.exec frame choice s.scheduler with
    | .blocked => .blocked
    | .error e => .error e
    | .ok frames scheduler =>
      match frame, choice with
      -- `Execute` of the operator returns
      | .onExecute t, .finish =>
        .ok [.clearPredecessors t (s.scheduler.tasks t).predecessors]
          { s with executed := s.executed ++ [t] }
      -- `Execute` of the operator throws
      | .onExecute t, .fail => .ok (frames.map .scheduler)
          { s with scheduler := scheduler, executed := s.executed ++ [t] }
      | _, _ => .ok (frames.map .scheduler) { s with scheduler := scheduler }

/-- The steps of the threads. -/
abbrev Step : Machine (OperatorFrame τ) (OperatorExecution τ) → ℕ × Choice τ →
    Machine (OperatorFrame τ) (OperatorExecution τ) → Prop :=
  Machine.Step exec

/-- Tasks with links, none of which is scheduled, a number of clients and a number of executor
threads. -/
def initial (links : List (τ × τ)) (numClients numThreads : ℕ) :
    Machine (OperatorFrame τ) (OperatorExecution τ) where
  shared := { scheduler := { tasks := AbstractTask.ofEdges links } }
  threads := List.replicate numClients [.scheduler .client] ++
    List.replicate numThreads [.scheduler .worker]

/-! ### What is cleared -/

/-- All successors of a task have executed their operators. -/
def Consumed (s : OperatorExecution τ) (p : τ) : Prop :=
  ∀ u ∈ (s.scheduler.tasks p).successors, u ∈ s.executed

/-- What a frame that stands after the execution of an operator relies on. -/
def OperatorFrame.Justified (s : OperatorExecution τ) : OperatorFrame τ → Prop
  | .scheduler (.finish t) | .clearPredecessors t _ => t ∈ s.executed
  | .checkSuccessors t p rest => t ∈ s.executed ∧
    ∀ u ∈ (s.scheduler.tasks p).successors, u ∈ rest ∨ u ∈ s.executed
  | .clearOutput p => s.Consumed p
  | _ => True

/-- What holds of the tasks and the frames of all threads. -/
structure Inv (links : List (τ × τ)) (s : OperatorExecution τ) (F : Multiset (OperatorFrame τ)) :
    Prop where
  successors : ∀ p u, u ∈ (s.scheduler.tasks p).successors ↔ (p, u) ∈ links
  /-- A task is done only after its operator was executed. -/
  done : ∀ t, (s.scheduler.tasks t).state = .done → t ∈ s.executed
  justified : ∀ f ∈ F, f.Justified s
  cleared : ∀ p ∈ s.cleared, s.Consumed p

variable {links : List (τ × τ)} {s s' : OperatorExecution τ} {f : OperatorFrame τ}
  {fs : List (OperatorFrame τ)} {c : Choice τ} {rest : Multiset (OperatorFrame τ)}

lemma inv_initial (links : List (τ × τ)) (numClients numThreads : ℕ) :
    Inv links (initial links numClients numThreads).shared
      (initial links numClients numThreads).frames := by
  have hlinked := AbstractTask.linked_ofEdges links
  refine ⟨hlinked.mem_successors, fun t ht => ?_, fun f hf => ?_, by simp [initial]⟩
  · rw [show ((initial links numClients numThreads).shared.scheduler.tasks t).state = .created from
      hlinked.state t] at ht
    cases ht
  · obtain ⟨thread, hthread, hmem⟩ := Machine.mem_frames.mp hf
    rcases List.mem_append.mp hthread with hthread | hthread
    · rw [List.eq_of_mem_replicate hthread, List.mem_singleton] at hmem
      subst hmem
      trivial
    · rw [List.eq_of_mem_replicate hthread, List.mem_singleton] at hmem
      subst hmem
      trivial

omit [DecidableEq τ] in
/-- What is justified stays so when more operators were executed. -/
lemma OperatorFrame.Justified.mono (h : f.Justified s) (hexecuted : s.executed ⊆ s'.executed)
    (hsuccessors : ∀ p, (s'.scheduler.tasks p).successors = (s.scheduler.tasks p).successors) :
    f.Justified s' := by
  cases f with
  | scheduler frame =>
    cases frame with
    | finish t => exact hexecuted h
    | _ => trivial
  | clearPredecessors t rest => exact hexecuted h
  | checkSuccessors t p rest =>
    refine ⟨hexecuted h.1, fun u hu => ?_⟩
    rw [hsuccessors] at hu
    exact (h.2 u hu).imp_right fun hu => hexecuted hu
  | clearOutput p =>
    intro u hu
    rw [hsuccessors] at hu
    exact hexecuted (h u hu)

omit [DecidableEq τ] in
/-- A step that keeps the links and clears nothing. -/
lemma Inv.replace (h : Inv links s (f ::ₘ rest)) (hexecuted : s.executed ⊆ s'.executed)
    (hsuccessors : ∀ p, (s'.scheduler.tasks p).successors = (s.scheduler.tasks p).successors)
    (hdone : ∀ t, (s'.scheduler.tasks t).state = .done → t ∈ s'.executed)
    (hcleared : s'.cleared = s.cleared) (hfs : ∀ g ∈ fs, g.Justified s') :
    Inv links s' (↑fs + rest) := by
  refine ⟨fun p u => by rw [hsuccessors, h.successors], hdone, fun g hg => ?_, fun p hp u hu => ?_⟩
  · rcases Multiset.mem_add.mp hg with hg | hg
    · exact hfs g (Multiset.mem_coe.mp hg)
    · exact (h.justified g (Multiset.mem_cons_of_mem hg)).mono hexecuted hsuccessors
  · rw [hcleared] at hp
    rw [hsuccessors] at hu
    exact hexecuted (h.cleared p hp u hu)

/-- A frame of the scheduler other than `OnExecute` does not come to `finish`. -/
lemma Inv.scheduler {frame : Frame τ} {frames : List (Frame τ)} {scheduler : FragmentScheduler τ}
    (h : Inv links s (.scheduler frame ::ₘ rest))
    (he : Effect s.scheduler frame frames scheduler) (hexecuted : s.executed ⊆ s'.executed)
    (hcleared : s'.cleared = s.cleared) (hscheduler : s'.scheduler = scheduler)
    (hfinish : ∀ t, .finish t ∈ frames → t ∈ s'.executed) :
    Inv links s' (↑(frames.map OperatorFrame.scheduler) + rest) := by
  refine h.replace hexecuted (fun p => ?_) (fun t ht => ?_) hcleared fun g hg => ?_
  · rw [hscheduler, (he.links p).2]
  · rw [hscheduler] at ht
    rcases he.done ht with hold | rfl
    · exact hexecuted (h.done t hold)
    · exact hexecuted (h.justified _ (Multiset.mem_cons_self _ _))
  · obtain ⟨frame', hframe', rfl⟩ := List.mem_map.mp hg
    cases frame' with
    | finish t => exact hfinish t hframe'
    | _ => trivial

lemma Inv.exec (h : Inv links s (f ::ₘ rest)) (hexec : OperatorExecution.exec f c s = .ok fs s') :
    Inv links s' (↑fs + rest) := by
  have hf : f.Justified s := h.justified f (Multiset.mem_cons_self _ _)
  have hsame : ∀ fs : List (OperatorFrame τ), (∀ g ∈ fs, g.Justified s) →
      Inv links s (↑fs + rest) := fun fs hfs =>
    h.replace (List.Subset.refl _) (fun _ => rfl) h.done rfl hfs
  cases f with
  | clearPredecessors t predecessors =>
    cases predecessors with
    | nil =>
      cases hexec
      exact hsame _ (by simpa [OperatorFrame.Justified] using hf)
    | cons p predecessors =>
      cases hexec
      refine hsame _ fun g hg => ?_
      rcases List.mem_cons.mp hg with rfl | hg
      · exact ⟨hf, fun u hu => .inl hu⟩
      · obtain rfl := List.mem_singleton.mp hg
        exact hf
  | checkSuccessors t p successors =>
    cases successors with
    | nil =>
      cases hexec
      refine hsame _ fun g hg => ?_
      obtain rfl := List.mem_singleton.mp hg
      exact fun u hu => (hf.2 u hu).resolve_left List.not_mem_nil
    | cons u successors =>
      simp only [OperatorExecution.exec] at hexec
      split at hexec <;> cases hexec
      · exact hsame _ (by simp)
      · next hdone =>
        -- the successor is the task itself, or it is done
        have hu : u ∈ s.executed := by
          rcases eq_or_ne u t with rfl | hne
          · exact hf.1
          · have hstate : (s.scheduler.tasks u).isDone := by
              by_contra hnot
              exact hdone ⟨hne, hnot⟩
            exact h.done u (of_decide_eq_true hstate)
        refine hsame _ fun g hg => ?_
        obtain rfl := List.mem_singleton.mp hg
        refine ⟨hf.1, fun v hv => ?_⟩
        rcases hf.2 v hv with hmem | hexecuted
        · rcases List.mem_cons.mp hmem with rfl | hmem
          · exact .inr hu
          · exact .inl hmem
        · exact .inr hexecuted
  | clearOutput p =>
    cases hexec
    have hnext := hsame [] (by simp)
    refine ⟨hnext.successors, hnext.done, fun g hg => ?_, List.forall_mem_append.mpr ⟨h.cleared, ?_⟩⟩
    · exact (hnext.justified g hg).mono (List.Subset.refl _) fun _ => rfl
    · exact List.forall_mem_singleton.mpr hf
  | scheduler frame =>
    simp only [OperatorExecution.exec] at hexec
    split at hexec
    · cases hexec
    · cases hexec
    · next frames scheduler hstep =>
      have he := exec_effect hstep
      split at hexec
      · next t =>
        cases hexec
        refine h.replace (List.subset_append_left _ _) (fun _ => rfl)
          (fun u hu => List.mem_append_left _ (h.done u hu)) rfl fun g hg => ?_
        obtain rfl := List.mem_singleton.mp hg
        exact List.mem_append_right _ (List.mem_singleton_self t)
      · next t =>
        cases hexec
        refine h.scheduler he (List.subset_append_left _ _) rfl rfl fun u hu => ?_
        rcases he.finish_mem hu with hframe
        obtain rfl := Frame.onExecute.inj hframe
        exact List.mem_append_right _ (List.mem_singleton_self _)
      · next hnotFinish hnotFail =>
        cases hexec
        refine h.scheduler he (List.Subset.refl _) rfl rfl fun u hu => ?_
        have hframe := he.finish_mem hu
        subst hframe
        cases c with
        | finish => exact absurd rfl (hnotFinish u rfl)
        | fail => exact absurd rfl (hnotFail u rfl)
        | scheduleTasks | scheduleAndWaitForTasks =>
          cases hstep
          simp at hu

/-- **An output is never cleared before every task that consumes it has executed its operator.** -/
theorem executed_of_cleared {ω : Type} [DecidableEq ω] (dag : OperatorDag ω) (root : ω)
    (numClients numThreads : ℕ) : ∃ n, ∀ depth, n ≤ depth → ∃ tasks,
      dag.generateTasksFromOperator depth root = some tasks ∧
        ∀ as m, Run Step (initial tasks.links numClients numThreads) as m →
          ∀ i ∈ m.shared.cleared, ∀ o ∈ tasks.operators, dag.Consumes o i →
            o ∈ m.shared.executed := by
  obtain ⟨n, hn⟩ := dag.exists_addOperatorTasksRecursively root
  refine ⟨n, fun depth hdepth => ?_⟩
  obtain ⟨tasks, htasks⟩ := hn depth hdepth {}
  refine ⟨tasks, htasks, fun as m hrun i hi o ho hconsumes => ?_⟩
  have hinv : Inv tasks.links m.shared m.frames :=
    Machine.invariant_frames (inv_initial tasks.links numClients numThreads)
      (fun _ _ _ _ _ _ hinv hexec => hinv.exec hexec) hrun
  have hlink := OperatorDag.links_generateTasksFromOperator htasks ho hconsumes
  exact hinv.cleared i hi o ((hinv.successors i o).mpr hlink)

/-- An operator that is both inputs of another one has no output after the other was executed. -/
example : ((initial [(0, 1), (0, 1)] 1 1).run exec ((0, .scheduleTasks [1]) ::
    List.replicate 10 (0, .finish) ++ List.replicate 20 (1, .finish))).map
      (fun m => (m.shared.executed, m.shared.cleared)) = some ([0, 1], [0]) := by
  decide

end OperatorExecution

end Skyrise

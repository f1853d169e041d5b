/-
Tasks of a worker.

A task counts the predecessors that are not done and passes through its states in
one direction.  `SetAsPredecessorOf` links two tasks at both ends, once for every
pair; it counts the predecessor unless it is done already.  A transition to a
later state is refused or fails an assertion when the task is not in the state
before.  The counter of pending predecessors has 32 bits; its increments are
those of a natural number, since no task has as many predecessors.
-/
import Skyrise.Concurrency.Dependency
import Skyrise.Utils.Assert

namespace Skyrise

open Concurrency

/-- The states of a task, in the order in which it passes through them. -/
inductive TaskState where
  | created
  | scheduled
  | enqueued
  | started
  | done
deriving DecidableEq, Repr

namespace TaskState

/-- The position of a state. -/
def toNat : TaskState → ℕ
  | created => 0
  | scheduled => 1
  | enqueued => 2
  | started => 3
  | done => 4

instance : LE TaskState := ⟨fun a b => a.toNat ≤ b.toNat⟩

instance (a b : TaskState) : Decidable (a ≤ b) := inferInstanceAs (Decidable (a.toNat ≤ b.toNat))

lemma le_iff {a b : TaskState} : a ≤ b ↔ a.toNat ≤ b.toNat := Iff.rfl

lemma le_refl (a : TaskState) : a ≤ a := Nat.le_refl _

lemma le_trans {a b c : TaskState} (hab : a ≤ b) (hbc : b ≤ c) : a ≤ c := Nat.le_trans hab hbc

lemma toNat_inj {a b : TaskState} (h : a.toNat = b.toNat) : a = b := by
  cases a <;> cases b <;> first | rfl | cases h

lemma done_le_iff {a : TaskState} : done ≤ a ↔ a = done := by cases a <;> decide

end TaskState

/-- A task; the other tasks are given by their names. -/
structure AbstractTask (τ : Type) where
  /-- The state. -/
  state : TaskState := .created
  /-- The number of predecessors that are pending. -/
  pendingPredecessors : Counter := ⟨0, false⟩
  /-- The predecessors. -/
  predecessors : List τ := []
  /-- The successors. -/
  successors : List τ := []
  /-- Whether an exception of `OnExecute` was captured. -/
  hasException : Bool := false

namespace AbstractTask

variable {τ : Type}

/-- Whether all predecessors are done. -/
def isReady (task : AbstractTask τ) : Bool := decide (task.pendingPredecessors.value = 0)

/-- Whether the task is or was scheduled. -/
def isScheduled (task : AbstractTask τ) : Bool := decide (.scheduled ≤ task.state)

/-- Whether the task has finished. -/
def isDone (task : AbstractTask τ) : Bool := decide (task.state = .done)

/-- A transition to a state: whether it took place, and the task after it. -/
def tryTransitionTo (newState : TaskState) (task : AbstractTask τ) :
    Except Exception (Bool × AbstractTask τ) :=
  match newState with
  | .scheduled =>
    if .scheduled ≤ task.state then .ok (false, task)
    else do
      assert (decide (task.state = .created)) "Illegal state transition to TaskState::kScheduled."
      pure (true, { task with state := .scheduled })
  | .enqueued =>
    if .enqueued ≤ task.state then .ok (false, task)
    else do
      assert (decide (task.state = .scheduled)) "Illegal state transition to TaskState::kEnqueued."
      pure (true, { task with state := .enqueued })
  | .started => do
    assert (decide (task.state = .enqueued)) ("Illegal state transition to TaskState::kStarted: " ++
      "Task should have been enqueued before being executed.")
    pure (true, { task with state := .started })
  | .done => do
    assert (decide (task.state = .started)) "Illegal state transition to TaskState::kDone."
    pure (true, { task with state := .done })
  | .created => .error (.assertionFailed "Unexpected target state in AbstractTask.")

/-- A transition that takes place leads from one state to the next. -/
lemma of_tryTransitionTo_true {newState : TaskState} {task task' : AbstractTask τ}
    (h : task.tryTransitionTo newState = .ok (true, task')) :
    task.state.toNat + 1 = newState.toNat ∧ task' = { task with state := newState } := by
  cases newState <;> cases hs : task.state <;>
    simp [tryTransitionTo, hs, assert, bind, Except.bind, pure, Except.pure, TaskState.le_iff,
      TaskState.toNat] at h ⊢ <;> exact h.symm

/-- A transition that does not take place leads to a state that was reached before. -/
lemma of_tryTransitionTo_false {newState : TaskState} {task task' : AbstractTask τ}
    (h : task.tryTransitionTo newState = .ok (false, task')) :
    newState ≤ task.state ∧ (newState = .scheduled ∨ newState = .enqueued) := by
  cases newState <;> cases hs : task.state <;>
    simp [tryTransitionTo, hs, assert, bind, Except.bind, pure, Except.pure, TaskState.le_iff,
      TaskState.toNat] at h ⊢

/-- A task is scheduled from any state, and taken to another state from the one before. -/
lemma tryTransitionTo_ne_error {newState : TaskState} {task : AbstractTask τ} {e : Exception}
    (h : newState = .scheduled ∨ newState = .enqueued ∧ .scheduled ≤ task.state ∨
      task.state.toNat + 1 = newState.toNat) : task.tryTransitionTo newState ≠ .error e := by
  cases newState <;> cases hs : task.state <;>
    simp [tryTransitionTo, hs, assert, bind, Except.bind, pure, Except.pure, TaskState.le_iff,
      TaskState.toNat] at h ⊢

/-- The first statement of `AtomicDecrementPredecessorCount`. -/
def assertPending (task : AbstractTask τ) : Except Exception Unit :=
  assert (decide (0 < task.pendingPredecessors.value))
    "The count of pending predecessors equals zero and cannot be decremented."

/-- The atomic decrement of `AtomicDecrementPredecessorCount`. -/
def decrementPending (task : AbstractTask τ) : AbstractTask τ :=
  { task with pendingPredecessors := task.pendingPredecessors.decrementBits 32 }

@[simp] lemma decrementPending_state (task : AbstractTask τ) :
    task.decrementPending.state = task.state := rfl

@[simp] lemma decrementPending_predecessors (task : AbstractTask τ) :
    task.decrementPending.predecessors = task.predecessors := rfl

@[simp] lemma decrementPending_successors (task : AbstractTask τ) :
    task.decrementPending.successors = task.successors := rfl

/-- `SetAsPredecessorOf` of the first task, called with the second. -/
def setAsPredecessorOf [DecidableEq τ] (p t : τ) (tasks : τ → AbstractTask τ) :
    τ → AbstractTask τ :=
  if t ∈ (tasks p).successors then tasks
  else
    let tasks := Function.update tasks p { tasks p with successors := (tasks p).successors ++ [t] }
    let tasks := Function.update tasks t
      { tasks t with predecessors := (tasks t).predecessors ++ [p] }
    if (tasks p).isDone then tasks
    else Function.update tasks t { tasks t with
      pendingPredecessors := { (tasks t).pendingPredecessors with
        value := (tasks t).pendingPredecessors.value + 1 } }

/-- Created tasks after a list of links is set. -/
def ofEdges [DecidableEq τ] (edges : List (τ × τ)) : τ → AbstractTask τ :=
  edges.foldl (fun tasks e => setAsPredecessorOf e.1 e.2 tasks) fun _ => {}

/-- Tasks that are created and linked: every link is recorded once at both ends and counted. -/
structure Linked [DecidableEq τ] (edges : List (τ × τ)) (tasks : τ → AbstractTask τ) : Prop where
  state : ∀ t, (tasks t).state = .created
  hasException : ∀ t, (tasks t).hasException = false
  successors_nodup : ∀ t, (tasks t).successors.Nodup
  predecessors_nodup : ∀ t, (tasks t).predecessors.Nodup
  mem_successors : ∀ p t, t ∈ (tasks p).successors ↔ (p, t) ∈ edges
  mem_predecessors : ∀ p t, p ∈ (tasks t).predecessors ↔ (p, t) ∈ edges
  pending : ∀ t, (tasks t).pendingPredecessors = ⟨(tasks t).predecessors.length, false⟩

variable [DecidableEq τ] {edges : List (τ × τ)} {tasks : τ → AbstractTask τ}

/-- A new link to a task that is not done. -/
lemma setAsPredecessorOf_apply {p t : τ} (hnew : t ∉ (tasks p).successors)
    (hstate : ∀ u, (tasks u).state = .created) (u : τ) :
    setAsPredecessorOf p t tasks u = { tasks u with
      successors := if u = p then (tasks u).successors ++ [t] else (tasks u).successors
      predecessors := if u = t then (tasks u).predecessors ++ [p] else (tasks u).predecessors
      pendingPredecessors := if u = t then { (tasks u).pendingPredecessors with
        value := (tasks u).pendingPredecessors.value + 1 } else (tasks u).pendingPredecessors } := by
  rw [setAsPredecessorOf, if_neg hnew]
  have hdone : ∀ task : AbstractTask τ, task.state = .created → task.isDone = false := by
    intro task htask
    rw [isDone, htask]
    rfl
  rcases eq_or_ne u t with rfl | hut <;> rcases eq_or_ne u p with rfl | hup
  · simp [hdone, hstate]
  · simp [hdone, hstate, hup, hup.symm]
  · simp [hdone, hstate, hut, hut.symm]
  · rcases eq_or_ne p t with rfl | hpt
    · simp [hdone, hstate, hup]
      rw [← hstate u]
    · simp [hdone, hstate, hup, hut, hpt]
      rw [← hstate u]

lemma Linked.setAsPredecessorOf (h : Linked edges tasks) (p t : τ) :
    Linked (edges ++ [(p, t)]) (setAsPredecessorOf p t tasks) := by
  by_cases hold : t ∈ (tasks p).successors
  · -- a link that is set again changes nothing
    have hmem : ∀ e, e ∈ edges ++ [(p, t)] ↔ e ∈ edges := by
      intro e
      rw [List.mem_append, List.mem_singleton]
      refine or_iff_left_of_imp ?_
      rintro rfl
      exact (h.mem_successors p t).mp hold
    rw [AbstractTask.setAsPredecessorOf, if_pos hold]
    exact ⟨h.state, h.hasException, h.successors_nodup, h.predecessors_nodup,
      fun q u => by rw [hmem, h.mem_successors], fun q u => by rw [hmem, h.mem_predecessors],
      h.pending⟩
  · have happly := setAsPredecessorOf_apply hold h.state
    have hnew : p ∉ (tasks t).predecessors := fun hp =>
      hold ((h.mem_successors p t).mpr ((h.mem_predecessors p t).mp hp))
    refine ⟨fun u => ?_, fun u => ?_, fun u => ?_, fun u => ?_, fun q u => ?_, fun q u => ?_,
      fun u => ?_⟩ <;> rw [happly]
    · exact h.state u
    · exact h.hasException u
    · rcases eq_or_ne u p with rfl | hup
      · simpa using (h.successors_nodup u).append (List.nodup_singleton t) (by simpa using hold)
      · simpa [hup] using h.successors_nodup u
    · rcases eq_or_ne u t with rfl | hut
      · simpa using (h.predecessors_nodup u).append (List.nodup_singleton p) (by simpa using hnew)
      · simpa [hut] using h.predecessors_nodup u
    · rcases eq_or_ne q p with rfl | hqp
      · simp [h.mem_successors]
      · simp [h.mem_successors, hqp]
    · rcases eq_or_ne u t with rfl | hut
      · simp [h.mem_predecessors]
      · simp [h.mem_predecessors, hut]
    · rcases eq_or_ne u t with rfl | hut
      · simp [h.pending]
      · simp [h.pending, hut]

/-- Links that are set on created tasks are recorded. -/
lemma linked_ofEdges (edges : List (τ × τ)) : Linked edges (ofEdges edges) := by
  induction edges using List.reverseRecOn with
  | nil => exact ⟨fun _ => rfl, fun _ => rfl, fun _ => List.nodup_nil, fun _ => List.nodup_nil,
      by simp [ofEdges], by simp [ofEdges], fun _ => rfl⟩
  | append_singleton edges e ih =>
    rw [ofEdges, List.foldl_append]
    exact ih.setAsPredecessorOf e.1 e.2

end AbstractTask

end Skyrise

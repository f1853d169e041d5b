/-
What the threads of a worker can do.

Executing a frame has one of a few effects.  Most frames change neither a task nor
the queue nor the history of the tasks, and stand for nothing that a task waits
for.  The others take a task from one state to the next or carry the news that a
task is done to one of its successors.
-/
import Skyrise.Scheduler.Worker.FragmentScheduler

namespace Skyrise

open Concurrency

namespace FragmentScheduler

variable {τ : Type} [DecidableEq τ]

@[simp] lemma setTask_queue (s : FragmentScheduler τ) (t : τ) (task : AbstractTask τ) :
    (s.setTask t task).queue = s.queue := rfl

@[simp] lemma setTask_events (s : FragmentScheduler τ) (t : τ) (task : AbstractTask τ) :
    (s.setTask t task).events = s.events := rfl

@[simp] lemma setTask_tasks (s : FragmentScheduler τ) (t : τ) (task : AbstractTask τ) :
    (s.setTask t task).tasks = Function.update s.tasks t task := rfl

omit [DecidableEq τ] in
@[simp] lemma record_queue (s : FragmentScheduler τ) (e : TaskEvent τ) :
    (s.record e).queue = s.queue := rfl

omit [DecidableEq τ] in
@[simp] lemma record_tasks (s : FragmentScheduler τ) (e : TaskEvent τ) :
    (s.record e).tasks = s.tasks := rfl

omit [DecidableEq τ] in
@[simp] lemma record_events (s : FragmentScheduler τ) (e : TaskEvent τ) :
    (s.record e).events = s.events ++ [e] := rfl

/-- The frames that stand for no task in a state after created and for no decrement. -/
@[simp]
def Frame.Neutral : Frame τ → Prop
  | .client | .scheduleTasks _ | .schedulePredecessors _ | .schedule _ | .worker | .processItem
  | .countDown | .waitFor _ _ | .join _ _ | .rethrow _ _ _ => True
  | _ => False

omit [DecidableEq τ] in
/-- Neutral frames hold no tokens. -/
lemma sum_map_eq_zero {w : Frame τ → ℕ} {fs : List (Frame τ)} (hfs : ∀ g ∈ fs, g.Neutral)
    (hw : ∀ g : Frame τ, g.Neutral → w g = 0) : (fs.map w).sum = 0 := by
  refine List.sum_eq_zero fun n hn => ?_
  obtain ⟨g, hg, rfl⟩ := List.mem_map.mp hn
  exact hw g (hfs g hg)

/-- The frames with which a thread will schedule a task as a predecessor. -/
@[simp]
def Frame.Schedules (t : τ) : Frame τ → Prop
  | .schedule u => u = t
  | .schedulePredecessors rest => t ∈ rest
  | _ => False

/-- The tasks, the queue and the history of the tasks are the same. -/
structure Same (s s' : FragmentScheduler τ) : Prop where
  tasks : s'.tasks = s.tasks
  queue : s'.queue = s.queue
  events : s'.events = s.events

omit [DecidableEq τ] in
lemma Same.refl (s : FragmentScheduler τ) : Same s s := ⟨rfl, rfl, rfl⟩

/-- The effects of executing a frame. -/
inductive Effect (s : FragmentScheduler τ) :
    Frame τ → List (Frame τ) → FragmentScheduler τ → Prop
  | neutral {f fs s'} : f.Neutral → (∀ g ∈ fs, g.Neutral) →
      (∀ p, f.Schedules p → .scheduled ≤ (s.tasks p).state ∨ ∃ g ∈ fs, g.Schedules p) →
      Same s s' → Effect s f fs s'
  | schedule {t} : (s.tasks t).state = .created →
      Effect s (.schedule t) [.countScheduled t]
        (s.setTask t { s.tasks t with state := .scheduled })
  | countScheduled {t s'} : Same s s' → Effect s (.countScheduled t) [.checkReady t] s'
  | checkReady {t} : (s.tasks t).isReady → Effect s (.checkReady t) [.submit t] s
  | checkNotReady {t} : ¬ (s.tasks t).isReady →
      Effect s (.checkReady t) [.schedulePredecessors (s.tasks t).predecessors] s
  | submit {t} : (s.tasks t).state = .scheduled →
      Effect s (.submit t) [.push t]
        ((s.setTask t { s.tasks t with state := .enqueued }).record (.enqueued t))
  | submitAgain {t} : .enqueued ≤ (s.tasks t).state → Effect s (.submit t) [] s
  | push {t} : Effect s (.push t) [] { s with queue := s.queue ++ [t] }
  | pop {f fs t queue} : f.Neutral → (∀ g ∈ fs, g.Neutral) → (∀ p, ¬ f.Schedules p) →
      s.queue = t :: queue → Effect s f (.execute t :: fs) { s with queue := queue }
  | execute {t} : (s.tasks t).state = .enqueued →
      Effect s (.execute t) [.onExecute t]
        ((s.setTask t { s.tasks t with state := .started }).record (.executed t))
  | call {t fs} : (∀ g ∈ fs, g.Neutral) → Effect s (.onExecute t) (fs ++ [.onExecute t]) s
  | onExecute {t} (hasException : Bool) :
      Effect s (.onExecute t) [.finish t]
        (s.setTask t { s.tasks t with hasException := hasException || (s.tasks t).hasException })
  | finish {t} : (s.tasks t).state = .started →
      Effect s (.finish t) [.onTaskFinished t (s.tasks t).successors]
        ((s.setTask t { s.tasks t with state := .done }).record (.done t))
  | finished {t} : Effect s (.onTaskFinished t []) [.countDown] s
  | notify {t u successors} : Effect s (.onTaskFinished t (u :: successors))
      [.assertPending t u, .onTaskFinished t successors] s
  | assertPending {t u} : Effect s (.assertPending t u) [.decrement t u] s
  | decrementToZero {t u} : (s.tasks u).decrementPending.isReady →
      Effect s (.decrement t u) [.checkScheduled u]
        ((s.setTask u (s.tasks u).decrementPending).record (.decremented t u))
  | decrement {t u} : ¬ (s.tasks u).decrementPending.isReady →
      Effect s (.decrement t u) []
        ((s.setTask u (s.tasks u).decrementPending).record (.decremented t u))
  | checkScheduled {u} : .scheduled ≤ (s.tasks u).state →
      Effect s (.checkScheduled u) [.submit u] s
  | checkNotScheduled {u} : ¬ .scheduled ≤ (s.tasks u).state → Effect s (.checkScheduled u) [] s

/-- Executing a frame has one of the effects. -/
lemma exec_effect {f : Frame τ} {c : Choice τ} {s s' : FragmentScheduler τ} {fs : List (Frame τ)}
    (h : exec f c s = .ok fs s') : Effect s f fs s' := by
  cases f with
  | client =>
    cases c <;> cases h <;> exact .neutral (by simp) (by simp) (by simp) (.refl s)
  | scheduleTasks rest =>
    cases rest <;> cases h <;> exact .neutral (by simp) (by simp) (by simp) (.refl s)
  | schedulePredecessors rest =>
    cases rest <;> cases h <;> refine .neutral (by simp) (by simp) (fun p hp => .inr ?_) (.refl s)
    · cases hp
    · rcases List.mem_cons.mp hp with rfl | hp
      · exact ⟨.schedule p, by simp, rfl⟩
      · exact ⟨.schedulePredecessors _, by simp, hp⟩
  | schedule t =>
    simp only [exec] at h
    split at h
    · cases h
    · next hfalse =>
      cases h
      refine .neutral (by simp) (by simp) (fun p hp => .inl ?_) (.refl s)
      obtain rfl : t = p := hp
      exact (AbstractTask.of_tryTransitionTo_false hfalse).1
    · next htrue =>
      cases h
      obtain ⟨hstate, rfl⟩ := AbstractTask.of_tryTransitionTo_true htrue
      exact .schedule (TaskState.toNat_inj (Nat.succ.inj hstate))
  | countScheduled t =>
    cases h
    exact .countScheduled ⟨rfl, rfl, rfl⟩
  | checkReady t =>
    simp only [exec] at h
    split at h <;> cases h
    · exact .checkReady ‹_›
    · exact .checkNotReady ‹_›
  | submit t =>
    simp only [exec] at h
    split at h
    · cases h
    · next hfalse =>
      cases h
      exact .submitAgain (AbstractTask.of_tryTransitionTo_false hfalse).1
    · next htrue =>
      cases h
      obtain ⟨hstate, rfl⟩ := AbstractTask.of_tryTransitionTo_true htrue
      exact .submit (TaskState.toNat_inj (Nat.succ.inj hstate))
  | push t =>
    cases h
    exact .push
  | worker =>
    simp only [exec] at h
    split at h <;> cases h
    exact .pop (by simp) (by simp) (by simp) ‹_›
  | processItem =>
    simp only [exec] at h
    split at h <;> cases h
    · exact .neutral (by simp) (by simp) (by simp) (.refl s)
    · exact .pop (by simp) (by simp) (by simp) ‹_›
  | execute t =>
    simp only [exec] at h
    split at h
    · cases h
    · cases h
    · next htrue =>
      cases h
      obtain ⟨hstate, rfl⟩ := AbstractTask.of_tryTransitionTo_true htrue
      exact .execute (TaskState.toNat_inj (Nat.succ.inj hstate))
  | onExecute t =>
    cases c with
    | scheduleTasks tasks =>
      cases h
      have hneutral : ∀ g ∈ [Frame.scheduleTasks tasks], g.Neutral := by simp
      exact .call hneutral
    | scheduleAndWaitForTasks tasks =>
      cases h
      have hneutral : ∀ g ∈ [Frame.scheduleTasks tasks, .waitFor tasks tasks], g.Neutral := by simp
      exact .call hneutral
    | finish =>
      cases h
      simpa [setTask] using Effect.onExecute (s := s) (t := t) false
    | fail =>
      cases h
      exact .onExecute true
  | finish t =>
    simp only [exec] at h
    split at h
    · cases h
    · cases h
    · next htrue =>
      cases h
      obtain ⟨hstate, rfl⟩ := AbstractTask.of_tryTransitionTo_true htrue
      exact .finish (TaskState.toNat_inj (Nat.succ.inj hstate))
  | onTaskFinished t successors =>
    cases successors <;> cases h
    · exact .finished
    · exact .notify
  | assertPending t u =>
    simp only [exec] at h
    split at h <;> cases h
    exact .assertPending
  | decrement t u =>
    simp only [exec] at h
    split at h <;> cases h
    · exact .decrementToZero ‹_›
    · exact .decrement ‹_›
  | checkScheduled u =>
    simp only [exec, AbstractTask.isScheduled, decide_eq_true_eq] at h
    split at h <;> cases h
    · exact .checkScheduled ‹_›
    · exact .checkNotScheduled ‹_›
  | countDown =>
    cases h
    exact .neutral (by simp) (by simp) (by simp) ⟨rfl, rfl, rfl⟩
  | waitFor tasks rest =>
    cases rest with
    | nil =>
      cases h
      exact .neutral (by simp) (by simp) (by simp) ⟨rfl, rfl, rfl⟩
    | cons t rest =>
      simp only [exec] at h
      split at h <;> cases h <;> exact .neutral (by simp) (by simp) (by simp) (.refl s)
  | join tasks rest =>
    cases rest with
    | nil =>
      cases h
      exact .neutral (by simp) (by simp) (by simp) ⟨rfl, rfl, rfl⟩
    | cons t rest =>
      simp only [exec] at h
      split at h <;> cases h
      exact .neutral (by simp) (by simp) (by simp) (.refl s)
  | rethrow tasks t rest =>
    simp only [exec] at h
    split at h <;> cases h
    · exact .neutral (by simp) (by simp) (by simp) ⟨rfl, rfl, rfl⟩
    · exact .neutral (by simp) (by simp) (by simp) (.refl s)

/-! ### What no effect changes -/

section Effect

variable {f : Frame τ} {fs : List (Frame τ)} {s s' : FragmentScheduler τ}

/-- The links between the tasks stay as they are. -/
lemma Effect.links (he : Effect s f fs s') (u : τ) :
    (s'.tasks u).predecessors = (s.tasks u).predecessors ∧
      (s'.tasks u).successors = (s.tasks u).successors := by
  cases he with
  | neutral _ _ _ hsame | countScheduled hsame => exact hsame.tasks ▸ ⟨rfl, rfl⟩
  | schedule | submit | execute | onExecute | finish | decrementToZero | decrement =>
    rename_i t _
    rcases eq_or_ne u t with rfl | hut
    · simp
    · simp [hut]
  | _ => exact ⟨rfl, rfl⟩

/-- A task does not go back to a state. -/
lemma Effect.state_le (he : Effect s f fs s') (u : τ) :
    (s.tasks u).state ≤ (s'.tasks u).state := by
  cases he with
  | neutral _ _ _ hsame | countScheduled hsame => exact hsame.tasks ▸ TaskState.le_refl _
  | schedule ht | submit ht | execute ht | finish ht =>
    rename_i t
    rcases eq_or_ne u t with rfl | hut
    · simp [ht, TaskState.le_iff, TaskState.toNat]
    · simp [hut, TaskState.le_refl]
  | onExecute | decrementToZero | decrement =>
    rename_i t _
    rcases eq_or_ne u t with rfl | hut
    · simp [TaskState.le_refl]
    · simp [hut, TaskState.le_refl]
  | _ => exact TaskState.le_refl _

/-- A task is scheduled by `Schedule` only. -/
lemma Effect.scheduled (he : Effect s f fs s') {u : τ} (h : .scheduled ≤ (s'.tasks u).state) :
    .scheduled ≤ (s.tasks u).state ∨ f = .schedule u ∧ fs = [.countScheduled u] := by
  cases he with
  | neutral _ _ _ hsame | countScheduled hsame => exact .inl (hsame.tasks ▸ h)
  | schedule =>
    rename_i t _
    rcases eq_or_ne u t with rfl | hut
    · exact .inr ⟨rfl, rfl⟩
    · exact .inl (by simpa [hut] using h)
  | submit ht | execute ht | finish ht =>
    rename_i t
    rcases eq_or_ne u t with rfl | hut
    · rw [ht]
      exact .inl (by decide)
    · exact .inl (by simpa [hut] using h)
  | onExecute | decrementToZero | decrement =>
    rename_i t _
    rcases eq_or_ne u t with rfl | hut
    · exact .inl (by simpa using h)
    · exact .inl (by simpa [hut] using h)
  | _ => exact .inl h

/-- A task is done after `finish` only. -/
lemma Effect.done (he : Effect s f fs s') {u : τ} (h : (s'.tasks u).state = .done) :
    (s.tasks u).state = .done ∨ f = .finish u := by
  cases he with
  | neutral _ _ _ hsame | countScheduled hsame => exact .inl (hsame.tasks ▸ h)
  | finish =>
    rename_i t _
    rcases eq_or_ne u t with rfl | hut
    · exact .inr rfl
    · exact .inl (by simpa [hut] using h)
  | schedule | submit | execute | onExecute | decrementToZero | decrement =>
    rename_i t _
    rcases eq_or_ne u t with rfl | hut
    · simp_all
    · exact .inl (by simpa [hut] using h)
  | _ => exact .inl h

/-- `OnExecute` alone comes to `finish`. -/
lemma Effect.finish_mem (he : Effect s f fs s') {t : τ} (h : .finish t ∈ fs) : f = .onExecute t := by
  cases he with
  | neutral _ hfs => exact (hfs _ h).elim
  | pop _ hfs =>
    rcases List.mem_cons.mp h with h | h
    · cases h
    · exact (hfs _ h).elim
  | call hfs =>
    rcases List.mem_append.mp h with h | h
    · exact (hfs _ h).elim
    · simp at h
  | onExecute =>
    cases List.mem_singleton.mp h
    rfl
  | _ => simp at h

/-- Only a decrement changes the count of a task. -/
lemma Effect.pending (he : Effect s f fs s') {u : τ} (hne : ∀ t, f ≠ .decrement t u) :
    (s'.tasks u).pendingPredecessors = (s.tasks u).pendingPredecessors := by
  cases he with
  | neutral _ _ _ hsame | countScheduled hsame => rw [hsame.tasks]
  | schedule | submit | execute | onExecute | finish =>
    rename_i t _
    rcases eq_or_ne u t with rfl | hut
    · simp
    · simp [hut]
  | decrementToZero | decrement =>
    rename_i t v _
    have hut : u ≠ v := fun h => hne t (by rw [h])
    simp [hut]
  | _ => rfl

/-- A decrement takes one off the count of its task. -/
lemma Effect.pending_of_decrement {t u : τ} (he : Effect s (.decrement t u) fs s') :
    (s'.tasks u).pendingPredecessors = (s.tasks u).pendingPredecessors.decrementBits 32 := by
  cases he with
  | neutral hf => cases hf
  | pop hf => cases hf
  | decrementToZero | decrement =>
    simp only [record_tasks, setTask_tasks, Function.update_self]
    rfl

/-- The history lists the decrements. -/
lemma Effect.count_decremented (he : Effect s f fs s') (p u : τ) :
    s'.events.count (.decremented p u) =
      s.events.count (.decremented p u) + if f = .decrement p u then 1 else 0 := by
  cases he with
  | neutral hf _ _ hsame =>
    have hne : f ≠ .decrement p u := by
      rintro rfl
      cases hf
    rw [hsame.events, if_neg hne]
    rfl
  | pop hf =>
    have hne : f ≠ .decrement p u := by
      rintro rfl
      cases hf
    rw [if_neg hne]
    rfl
  | countScheduled hsame => simp [hsame.events]
  | decrementToZero | decrement => simp [List.count_append, List.count_singleton]
  | _ => simp [List.count_append]

/-- A thread asks whether a task is scheduled after it has decremented its count to zero. -/
lemma Effect.checkScheduled_mem (he : Effect s f fs s') {u : τ} (h : .checkScheduled u ∈ fs) :
    (s'.tasks u).isReady := by
  cases he with
  | neutral _ hfs => exact (hfs _ h).elim
  | pop _ hfs =>
    rcases List.mem_cons.mp h with h | h
    · cases h
    · exact (hfs _ h).elim
  | call hfs =>
    rcases List.mem_append.mp h with h | h
    · exact (hfs _ h).elim
    · cases List.mem_singleton.mp h
  | decrementToZero hready =>
    obtain rfl : u = _ := by simpa using h
    simpa using hready
  | submitAgain | push | decrement | checkNotScheduled => cases h
  | finished | notify => simp at h
  | _ => cases List.mem_singleton.mp h

/-- A task that becomes done was started. -/
lemma Effect.of_finish {t : τ} (he : Effect s (.finish t) fs s') :
    (s.tasks t).state = .started ∧ (s'.tasks t).state = .done := by
  cases he with
  | neutral hf => cases hf
  | pop hf => cases hf
  | finish hstate => exact ⟨hstate, by simp⟩

/-- A task that is done stays done. -/
lemma Effect.stays_done (he : Effect s f fs s') {t : τ} (h : (s.tasks t).state = .done) :
    (s'.tasks t).state = .done :=
  TaskState.done_le_iff.mp (h ▸ he.state_le t)

end Effect

end FragmentScheduler

end Skyrise

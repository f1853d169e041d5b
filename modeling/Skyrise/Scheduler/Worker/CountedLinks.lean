/-
Links that are counted.

A link is counted or settled, or a call of `SetAsPredecessorOf` is between its
record and its test; news that a predecessor is done is on the way for the counted
links and for no others.  The steps of the scheduler and of the calls keep this as
far as they are in order.
-/
import Skyrise.Scheduler.Worker.SetAsPredecessorOf

namespace Skyrise

open Concurrency FragmentScheduler

namespace AddedSuccessors

variable {τ : Type} [DecidableEq τ] {s s' : AddedSuccessors τ} {f : LinkFrame τ}
  {fs : List (LinkFrame τ)} {c : LinkChoice τ} {rest F : Multiset (LinkFrame τ)}

/-! ### The invariant -/

/-- The frame of a scheduler whose tasks have their links already. -/
def LinkFrame.erase (tasks : τ → AbstractTask τ) : LinkFrame τ → Frame τ
  | .scheduler frame => frame
  | .startNotify t => .onTaskFinished t (tasks t).successors
  | _ => .client

/-- Frames of a call that has recorded a link and has not counted or settled it. -/
@[simp]
def LinkFrame.linkTokens (p t : τ) : LinkFrame τ → ℕ
  | .linkBack q u | .lock q u | .checkDone q u | .count q u => if q = p ∧ u = t then 1 else 0
  | _ => 0

/-- Frames of a call that has recorded a link at the predecessor only. -/
@[simp]
def LinkFrame.backTokens (p t : τ) : LinkFrame τ → ℕ
  | .linkBack q u => if q = p ∧ u = t then 1 else 0
  | _ => 0

/-- Frames of a thread that has the mutex of a task. -/
@[simp]
def LinkFrame.holdTokens (p : τ) : LinkFrame τ → ℕ
  | .checkDone q _ | .count q _ => if q = p then 1 else 0
  | _ => 0

/-- The frames of the threads without the calls of `SetAsPredecessorOf`. -/
def erased (s : AddedSuccessors τ) (F : Multiset (LinkFrame τ)) : Multiset (Frame τ) :=
  F.map (LinkFrame.erase s.scheduler.tasks)

/-- What holds of the tasks, the links and the frames of all threads. -/
structure Inv (s : AddedSuccessors τ) (F : Multiset (LinkFrame τ)) : Prop where
  located : ∀ t, Located s.scheduler (erased s F) t
  waiting : ∀ t, Waiting s.scheduler (erased s F) t
  /-- The count of a task is the number of links to it that are counted. -/
  pending : ∀ t, (s.scheduler.tasks t).pendingPredecessors =
    ⟨s.counted.countP fun e => e.2 = t, false⟩
  /-- News of a task that is done is on the way for every link that is counted. -/
  news : ∀ p t, total (Frame.newsTokens p t) (erased s F) =
    if (s.scheduler.tasks p).state = .done then s.counted.count (p, t) else 0
  settled : ∀ p t, (p, t) ∈ s.settled → (s.scheduler.tasks p).state = .done
  /-- A link is counted or settled, or its call goes on. -/
  linked : ∀ p t, total (LinkFrame.linkTokens p t) F + s.counted.count (p, t) +
    s.settled.count (p, t) = (s.scheduler.tasks p).successors.count t
  /-- A link is recorded at both ends, or its call goes on. -/
  predecessors : ∀ p t, total (LinkFrame.backTokens p t) F +
    (s.scheduler.tasks t).predecessors.count p = (s.scheduler.tasks p).successors.count t
  held : ∀ p, total (LinkFrame.holdTokens p) F = if s.isLocked p then 1 else 0
  created : ∀ p t, 0 < total (LinkFrame.linkTokens p t) F → (s.scheduler.tasks t).state = .created
  /-- A task is not done when a link from it is about to be counted. -/
  undone : ∀ p t, .count p t ∈ F → (s.scheduler.tasks p).state ≠ .done

lemma Inv.isReady_iff (h : Inv s F) (t : τ) :
    (s.scheduler.tasks t).isReady ↔ ∀ p, (p, t) ∉ s.counted := by
  rw [AbstractTask.isReady, h.pending, decide_eq_true_eq, List.countP_eq_zero]
  constructor
  · intro hnone p hmem
    exact hnone _ hmem (decide_eq_true rfl)
  · rintro hnone ⟨p, u⟩ hmem hu
    rw [← of_decide_eq_true hu] at hnone
    exact hnone p hmem

/-- A frame that carries news stands for a link that is counted. -/
lemma Inv.mem_counted (h : Inv s F) {frame : Frame τ} {p t : τ} (hframe : frame ∈ erased s F)
    (hpos : 0 < frame.newsTokens p t) :
    (s.scheduler.tasks p).state = .done ∧ (p, t) ∈ s.counted := by
  have hle : frame.newsTokens p t ≤ total (Frame.newsTokens p t) (erased s F) := le_total hframe
  have hnews := h.news p t
  split at hnews
  · exact ⟨‹_›, List.count_pos_iff.mp (by omega)⟩
  · omega

/-! ### Steps of the scheduler -/

@[simp] lemma settle_scheduler (frame : Frame τ) (s : AddedSuccessors τ) :
    (settle frame s).scheduler = s.scheduler := by
  cases frame <;> rfl

@[simp] lemma settle_isLocked (frame : Frame τ) (s : AddedSuccessors τ) :
    (settle frame s).isLocked = s.isLocked := by
  cases frame <;> rfl

lemma settle_of_ne {frame : Frame τ} (hne : ∀ p t, frame ≠ .decrement p t)
    (s : AddedSuccessors τ) : settle frame s = s := by
  cases frame <;> first | rfl | exact absurd rfl (hne _ _)

/-- A link that is taken off the count is settled. -/
lemma count_settle {frame : Frame τ} (hmem : ∀ p t, frame = .decrement p t → (p, t) ∈ s.counted)
    (p t : τ) :
    (settle frame s).counted.count (p, t) + (if frame = .decrement p t then 1 else 0) =
        s.counted.count (p, t) ∧
      (settle frame s).settled.count (p, t) =
        s.settled.count (p, t) + if frame = .decrement p t then 1 else 0 := by
  by_cases hdecrement : ∃ q u, frame = .decrement q u
  · obtain ⟨q, u, rfl⟩ := hdecrement
    have hpos := List.count_pos_iff.mpr (hmem q u rfl)
    show (s.counted.erase (q, u)).count (p, t) + _ = _ ∧ (s.settled ++ [(q, u)]).count (p, t) = _
    by_cases heq : (q, u) = (p, t)
    · obtain ⟨rfl, rfl⟩ := Prod.mk.inj heq
      rw [if_pos rfl, List.count_erase_self, List.count_append, List.count_singleton_self]
      exact ⟨by omega, rfl⟩
    · have hne : Frame.decrement q u ≠ .decrement p t := fun h =>
        heq (by rw [(Frame.decrement.inj h).1, (Frame.decrement.inj h).2])
      rw [if_neg hne, List.count_erase_of_ne (Ne.symm heq), List.count_append,
        List.count_eq_zero.mpr fun h => heq (List.mem_singleton.mp h).symm]
      exact ⟨rfl, rfl⟩
  · have hne : ∀ q u, frame ≠ .decrement q u := fun q u h => hdecrement ⟨q, u, h⟩
    rw [settle_of_ne hne, if_neg (hne p t)]
    exact ⟨rfl, rfl⟩

lemma mem_settled_settle {frame : Frame τ} {p t : τ} (h : (p, t) ∈ (settle frame s).settled) :
    (p, t) ∈ s.settled ∨ frame = .decrement p t := by
  by_cases hdecrement : ∃ q u, frame = .decrement q u
  · obtain ⟨q, u, rfl⟩ := hdecrement
    rcases List.mem_append.mp h with h | h
    · exact .inl h
    · obtain ⟨rfl, rfl⟩ := Prod.mk.inj (List.mem_singleton.mp h)
      exact .inr rfl
  · rw [settle_of_ne fun q u h => hdecrement ⟨q, u, h⟩] at h
    exact .inl h

/-- A decrement takes one off the number of links that are counted. -/
lemma countP_erase {counted : List (τ × τ)} {p t : τ} (hmem : (p, t) ∈ counted) (u : τ) :
    (counted.erase (p, t)).countP (fun e => e.2 = u) + (if t = u then 1 else 0) =
      counted.countP fun e => e.2 = u := by
  have hperm := (List.perm_cons_erase hmem).countP_eq fun e : τ × τ => decide (e.2 = u)
  rw [hperm, List.countP_cons]
  by_cases htu : t = u
  · simp [htu]
  · simp [htu]

omit [DecidableEq τ] in
/-- The erased frames do not change as long as the links do not. -/
lemma erase_congr {tasks tasks' : τ → AbstractTask τ}
    (h : ∀ t, (tasks' t).successors = (tasks t).successors) :
    (LinkFrame.erase tasks' : LinkFrame τ → Frame τ) = LinkFrame.erase tasks := by
  funext f
  cases f with
  | startNotify t => exact congrArg _ (h t)
  | _ => rfl

omit [DecidableEq τ] in
/-- The tokens of the calls, if no frame that comes or goes is one of a call. -/
lemma total_of_quiet {w : LinkFrame τ → ℕ} (hf : w f = 0) (hfs : ∀ g ∈ fs, w g = 0) :
    total w (↑fs + rest) = total w (f ::ₘ rest) := by
  rw [total_coe_add, total_cons, hf]
  refine congrArg (· + _) (List.sum_eq_zero fun n hn => ?_)
  obtain ⟨g, hg, rfl⟩ := List.mem_map.mp hn
  exact hfs g hg

/-- The frames that belong to no call. -/
def LinkFrame.IsQuiet : LinkFrame τ → Prop
  | .scheduler _ | .startNotify _ => True
  | _ => False

lemma LinkFrame.IsQuiet.tokens (h : f.IsQuiet) (p t : τ) :
    f.linkTokens p t = 0 ∧ f.backTokens p t = 0 ∧ f.holdTokens p = 0 := by
  cases f <;> first | exact ⟨rfl, rfl, rfl⟩ | cases h

/-- An effect of the scheduler keeps the invariant, unless a task is scheduled to which a link is
being recorded, becomes done with such a link from it, or is submitted after its count was
incremented. -/
lemma Inv.effect {frame : Frame τ} {frames : List (Frame τ)} {scheduler : FragmentScheduler τ}
    (h : Inv s (.scheduler frame ::ₘ rest)) (he : Effect s.scheduler frame frames scheduler)
    (hfs : fs.map (LinkFrame.erase s.scheduler.tasks) = frames) (hquiet : ∀ g ∈ fs, g.IsQuiet)
    (hfinish : ∀ p, frame = .finish p → ∀ t, total (LinkFrame.linkTokens p t) rest = 0)
    (hschedule : ∀ t, frame = .schedule t → ∀ p, total (LinkFrame.linkTokens p t) rest = 0)
    (hcheck : ∀ t, frame = .checkScheduled t → .scheduled ≤ (s.scheduler.tasks t).state →
      (s.scheduler.tasks t).isReady) :
    Inv (settle frame { s with scheduler := scheduler }) (↑fs + rest) := by
  have hold : erased s (.scheduler frame ::ₘ rest) = frame ::ₘ erased s rest :=
    Multiset.map_cons _ _ _
  have hmem : ∀ p t, frame = .decrement p t →
      (s.scheduler.tasks p).state = .done ∧ (p, t) ∈ s.counted := fun p t hframe =>
    h.mem_counted (hold ▸ Multiset.mem_cons_self frame _) (by simp [hframe])
  have hcount := count_settle (s := { s with scheduler := scheduler }) fun p t hframe =>
    (hmem p t hframe).2
  have hnew : erased (settle frame { s with scheduler := scheduler }) (↑fs + rest) =
      ↑frames + erased s rest := by
    rw [erased, settle_scheduler, erase_congr fun t => (he.links t).2, Multiset.map_add,
      Multiset.map_coe, hfs, erased]
  have hlink : ∀ p t, total (LinkFrame.linkTokens p t) (↑fs + rest : Multiset (LinkFrame τ)) =
      total (LinkFrame.linkTokens p t) (.scheduler frame ::ₘ rest) := fun p t =>
    total_of_quiet rfl fun g hg => ((hquiet g hg).tokens p t).1
  refine ⟨fun t => ?_, fun t => ?_, fun t => ?_, fun p t => ?_, fun p t hsettled => ?_,
    fun p t => ?_, fun p t => ?_, fun p => ?_, fun p t hpos => ?_, fun p t hcounting hstate => ?_⟩
  · rw [settle_scheduler, hnew]
    exact (hold ▸ h.located t).effect he
  · rw [settle_scheduler, hnew]
    refine (hold ▸ h.waiting t).effect (fun p hframe hready => ?_) (hcheck t) he
    exact (h.isReady_iff t).mp hready p (hmem p t hframe).2
  · rw [settle_scheduler]
    by_cases hdecrement : ∃ p u, frame = .decrement p u
    · obtain ⟨p, u, rfl⟩ := hdecrement
      have hcountP := countP_erase (hmem p u rfl).2 t
      by_cases hut : u = t
      · subst hut
        rw [if_pos rfl] at hcountP
        rw [he.pending_of_decrement, h.pending u, ← hcountP, Counter.decrementBits_succ]
        rfl
      · rw [if_neg hut, Nat.add_zero] at hcountP
        rw [he.pending (by simp [hut]), h.pending t, ← hcountP]
        rfl
    · rw [he.pending fun p hframe => hdecrement ⟨p, t, hframe⟩, h.pending t,
        settle_of_ne fun p u hframe => hdecrement ⟨p, u, hframe⟩]
  · have hnews := he.news p t
    have hbefore := h.news p t
    obtain ⟨hcounted, -⟩ := hcount p t
    rw [hold, total_cons] at hbefore
    rw [settle_scheduler, hnew, total_coe_add]
    by_cases hframe : frame = .finish p
    · -- all links from the task are counted when it becomes done
      have hlinked := h.linked p t
      subst hframe
      have hstarted := he.of_finish
      have hsettled : s.settled.count (p, t) = 0 := List.count_eq_zero.mpr fun hmem => by
        have hstate := h.settled p t hmem
        rw [hstarted.1] at hstate
        cases hstate
      rw [total_cons, hfinish p rfl t, hsettled] at hlinked
      rw [hstarted.1, if_neg (by simp)] at hbefore
      rw [if_neg (by simp), if_pos rfl] at hnews
      rw [if_neg (by simp)] at hcounted
      rw [hstarted.2, if_pos rfl]
      simp only [LinkFrame.linkTokens] at hlinked hcounted
      omega
    · rw [if_neg hframe] at hnews
      by_cases hstate : (s.scheduler.tasks p).state = .done
      · rw [if_pos hstate] at hbefore
        rw [if_pos (he.stays_done hstate)]
        simp only at hcounted
        omega
      · have hstate' : (scheduler.tasks p).state ≠ .done := fun hnow =>
          (he.done hnow).elim hstate hframe
        rw [if_neg hstate] at hbefore
        rw [if_neg fun hdecrement => hstate (hmem p t hdecrement).1] at hnews
        rw [if_neg hstate']
        omega
  · rw [settle_scheduler]
    rcases mem_settled_settle hsettled with hsettled | hframe
    · exact he.stays_done (h.settled p t hsettled)
    · exact he.stays_done (hmem p t hframe).1
  · have hlinked := h.linked p t
    obtain ⟨hcounted, hsettled⟩ := hcount p t
    rw [settle_scheduler, hlink, (he.links p).2]
    simp only at hcounted hsettled
    omega
  · rw [settle_scheduler,
      total_of_quiet (f := .scheduler frame) rfl fun g hg => ((hquiet g hg).tokens p t).2.1,
      (he.links p).2, (he.links t).1]
    exact h.predecessors p t
  · rw [settle_isLocked,
      total_of_quiet (f := .scheduler frame) rfl fun g hg => ((hquiet g hg).tokens p p).2.2]
    exact h.held p
  · rw [settle_scheduler]
    rw [hlink] at hpos
    have hcreated := h.created p t hpos
    by_contra hne
    have hscheduled : .scheduled ≤ (scheduler.tasks t).state := by
      cases hstate : (scheduler.tasks t).state with
      | created => exact absurd hstate hne
      | _ => decide
    rcases he.scheduled hscheduled with hscheduled | ⟨rfl, -⟩
    · rw [hcreated] at hscheduled
      exact absurd hscheduled (by decide)
    · rw [total_cons, hschedule t rfl p] at hpos
      exact absurd hpos (by simp)
  · rw [settle_scheduler] at hstate
    have hrest : .count p t ∈ rest := by
      rcases Multiset.mem_add.mp hcounting with hmem | hmem
      · exact (hquiet _ hmem).elim
      · exact hmem
    rcases he.done hstate with hold | rfl
    · exact h.undone p t (Multiset.mem_cons_of_mem hrest) hold
    · have hle := le_total (w := LinkFrame.linkTokens p t) hrest
      rw [hfinish p rfl t] at hle
      simp at hle

/-! ### Steps of the calls -/

/-- A step of a call keeps the invariant, if it keeps what is said about the links. -/
lemma Inv.call (h : Inv s (f ::ₘ rest))
    (htokens : ∀ w : Frame τ → ℕ, (∀ g : Frame τ, g.Neutral → w g = 0) →
      (fs.map fun g => w (g.erase s'.scheduler.tasks)).sum = w (f.erase s.scheduler.tasks))
    (hrest : erased s' rest = erased s rest)
    (hqueue : s'.scheduler.queue = s.scheduler.queue)
    (hevents : s'.scheduler.events = s.scheduler.events)
    (hstate : ∀ t, (s'.scheduler.tasks t).state = (s.scheduler.tasks t).state)
    (hready : ∀ t, (s.scheduler.tasks t).state = .created ∨
      (s'.scheduler.tasks t).isReady = (s.scheduler.tasks t).isReady)
    (hpending : ∀ t, (s'.scheduler.tasks t).pendingPredecessors =
      ⟨s'.counted.countP fun e => e.2 = t, false⟩)
    (hcounted : ∀ p t, (s.scheduler.tasks p).state = .done →
      s'.counted.count (p, t) = s.counted.count (p, t))
    (hsettled : ∀ p t, (p, t) ∈ s'.settled → (s.scheduler.tasks p).state = .done)
    (hlinked : ∀ p t, (fs.map (LinkFrame.linkTokens p t)).sum +
      total (LinkFrame.linkTokens p t) rest + s'.counted.count (p, t) + s'.settled.count (p, t) =
        (s'.scheduler.tasks p).successors.count t)
    (hpredecessors : ∀ p t, (fs.map (LinkFrame.backTokens p t)).sum +
      total (LinkFrame.backTokens p t) rest + (s'.scheduler.tasks t).predecessors.count p =
        (s'.scheduler.tasks p).successors.count t)
    (hheld : ∀ p, (fs.map (LinkFrame.holdTokens p)).sum + total (LinkFrame.holdTokens p) rest =
      if s'.isLocked p then 1 else 0)
    (hcreated : ∀ p t, 0 < (fs.map (LinkFrame.linkTokens p t)).sum →
      (s.scheduler.tasks t).state = .created)
    (hundone : ∀ p t, .count p t ∈ fs → (s.scheduler.tasks p).state ≠ .done) :
    Inv s' (↑fs + rest) := by
  have htotal : ∀ w : Frame τ → ℕ, (∀ g : Frame τ, g.Neutral → w g = 0) →
      total w (erased s' (↑fs + rest)) = total w (erased s (f ::ₘ rest)) := by
    intro w hw
    have hnew : erased s' (↑fs + rest) = ↑(fs.map (LinkFrame.erase s'.scheduler.tasks)) +
        erased s rest := by
      rw [← hrest, erased, Multiset.map_add, Multiset.map_coe, erased]
    have hold : erased s (f ::ₘ rest) = f.erase s.scheduler.tasks ::ₘ erased s rest :=
      Multiset.map_cons _ _ _
    rw [hnew, hold, total_coe_add, total_cons, List.map_map]
    exact congrArg (· + _) (htokens w hw)
  refine ⟨fun t => ?_, fun t => (h.waiting t).congr htotal (hstate t) (hready t), hpending,
    fun p t => ?_, fun p t hmem => ?_, fun p t => ?_, fun p t => ?_, fun p => ?_,
    fun p t hpos => ?_, fun p t hmem => ?_⟩
  · have hlocated := h.located t
    refine ⟨?_, ?_, ?_, ?_, ?_⟩
    · rw [htotal _ fun g hg => hg.enqueuedTokens t, hqueue, hstate]
      exact hlocated.enqueued
    · rw [htotal _ fun g hg => hg.startedTokens t, hstate]
      exact hlocated.started
    · rw [hevents, hstate]
      exact hlocated.enqueuedEvents
    · rw [hevents, hstate]
      exact hlocated.executedEvents
    · rw [hevents, hstate]
      exact hlocated.doneEvents
  · rw [htotal _ fun g hg => hg.newsTokens p t, h.news, hstate]
    split
    · next hdone => exact (hcounted p t hdone).symm
    · rfl
  · rw [hstate]
    exact hsettled p t hmem
  · rw [total_coe_add]
    exact hlinked p t
  · rw [total_coe_add]
    exact hpredecessors p t
  · rw [total_coe_add]
    exact hheld p
  · rw [hstate]
    rw [total_coe_add] at hpos
    rcases Nat.eq_zero_or_pos (fs.map (LinkFrame.linkTokens p t)).sum with hzero | hpos'
    · refine h.created p t ?_
      rw [total_cons]
      omega
    · exact hcreated p t hpos'
  · rw [hstate]
    rcases Multiset.mem_add.mp hmem with hmem | hmem
    · exact hundone p t hmem
    · exact h.undone p t (Multiset.mem_cons_of_mem hmem)

/-- Frames that take the place of one with the same tokens leave the rest as it is. -/
lemma Inv.same (h : Inv s (f ::ₘ rest))
    (htokens : ∀ w : Frame τ → ℕ, (∀ g : Frame τ, g.Neutral → w g = 0) →
      (fs.map fun g => w (g.erase s.scheduler.tasks)).sum = w (f.erase s.scheduler.tasks))
    (hf : f.IsQuiet ∨ ∃ p t, f = .link p t) (hfs : ∀ g ∈ fs, g.IsQuiet ∨ ∃ p t, g = .link p t) :
    Inv s (↑fs + rest) := by
  have hzero : ∀ g : LinkFrame τ, g.IsQuiet ∨ (∃ p t, g = .link p t) → ∀ p t,
      g.linkTokens p t = 0 ∧ g.backTokens p t = 0 ∧ g.holdTokens p = 0 := by
    rintro g (hg | ⟨q, u, rfl⟩) p t
    · exact hg.tokens p t
    · exact ⟨rfl, rfl, rfl⟩
  refine h.call htokens rfl rfl rfl (fun _ => rfl) (fun _ => .inr rfl) h.pending (fun _ _ _ => rfl)
    h.settled (fun p t => ?_) (fun p t => ?_) (fun p => ?_) (fun p t hpos => ?_) fun p t hmem => ?_
  · rw [← total_coe_add, total_of_quiet (hzero f hf p t).1 fun g hg => (hzero g (hfs g hg) p t).1]
    exact h.linked p t
  · rw [← total_coe_add,
      total_of_quiet (hzero f hf p t).2.1 fun g hg => (hzero g (hfs g hg) p t).2.1]
    exact h.predecessors p t
  · rw [← total_coe_add, total_of_quiet (w := LinkFrame.holdTokens p) (hzero f hf p p).2.2
      fun g hg => (hzero g (hfs g hg) p p).2.2]
    exact h.held p
  · refine absurd hpos (Nat.not_lt.mpr (le_of_eq (List.sum_eq_zero fun n hn => ?_)))
    obtain ⟨g, hg, rfl⟩ := List.mem_map.mp hn
    exact (hzero g (hfs g hg) p t).1
  · rcases hfs _ hmem with hquiet | ⟨_, _, heq⟩
    · exact hquiet.elim
    · cases heq

/-- `SetAsPredecessorOf` records a new link at the predecessor. -/
lemma Inv.link {p t : τ} (h : Inv s (.link p t ::ₘ rest))
    (hcreated : (s.scheduler.tasks t).state = .created)
    (hnotify : t ∉ (s.scheduler.tasks p).successors → .startNotify p ∉ rest)
    (hexec : exec (.link p t) c s = .ok fs s') : Inv s' (↑fs + rest) := by
  simp only [exec] at hexec
  split at hexec
  · cases hexec
    exact h.same (fun w hw => (hw .client trivial).symm) (.inr ⟨p, t, rfl⟩) (by simp)
  next hnew =>
  cases hexec
  have htask : ∀ u, (Function.update s.scheduler.tasks p { s.scheduler.tasks p with
      successors := (s.scheduler.tasks p).successors ++ [t] } u) = { s.scheduler.tasks u with
      successors := (s.scheduler.tasks u).successors ++ if u = p then [t] else [] } := by
    intro u
    rcases eq_or_ne u p with rfl | hup
    · simp
    · simp [hup]
  refine h.call (fun w hw => ?_) ?_ rfl rfl (fun u => ?_) (fun u => .inr ?_) (fun u => ?_)
    (fun _ _ _ => rfl) h.settled (fun q u => ?_) (fun q u => ?_) (fun q => ?_) (fun q u hpos => ?_)
    (by simp)
  · simp [LinkFrame.erase]
  · refine Multiset.map_congr rfl fun g hg => ?_
    cases g with
    | startNotify q =>
      have hqp : q ≠ p := by
        rintro rfl
        exact hnotify hnew hg
      show Frame.onTaskFinished q _ = _
      simp [setTask, hqp, LinkFrame.erase]
    | _ => rfl
  · exact (congrArg AbstractTask.state (htask u)).trans rfl
  · exact (congrArg AbstractTask.isReady (htask u)).trans rfl
  · exact (congrArg AbstractTask.pendingPredecessors (htask u)).trans (h.pending u)
  · have hlinked := h.linked q u
    rw [total_cons] at hlinked
    refine Eq.trans ?_ (congrArg (fun task => task.successors.count u) (htask q)).symm
    simp only [LinkFrame.linkTokens, List.map_cons, List.map_nil, List.sum_cons, List.sum_nil,
      setTask, List.count_append] at hlinked ⊢
    rw [← hlinked]
    by_cases hqp : q = p
    · by_cases hut : u = t
      · simp [hqp, hut]
        omega
      · simp [hqp, Ne.symm hut]
    · simp [hqp, Ne.symm hqp]
  · have hpredecessors := h.predecessors q u
    rw [total_cons] at hpredecessors
    refine Eq.trans ?_ (congrArg (fun task => task.successors.count u) (htask q)).symm
    have hsame : (((s.setTask p { s.scheduler.tasks p with
        successors := (s.scheduler.tasks p).successors ++ [t] }).scheduler.tasks u).predecessors) =
          (s.scheduler.tasks u).predecessors :=
      (congrArg AbstractTask.predecessors (htask u)).trans rfl
    rw [hsame]
    simp only [LinkFrame.backTokens, List.map_cons, List.map_nil, List.sum_cons, List.sum_nil,
      List.count_append] at hpredecessors ⊢
    rw [← hpredecessors]
    by_cases hqp : q = p
    · by_cases hut : u = t
      · simp [hqp, hut]
        omega
      · simp [hqp, Ne.symm hut]
    · simp [hqp, Ne.symm hqp]
  · have hheld := h.held q
    rw [total_cons] at hheld
    exact hheld
  · obtain rfl : t = u := by
      by_contra hne
      simp [hne] at hpos
    exact hcreated

/-- `SetAsPredecessorOf` records the link at the successor. -/
lemma Inv.linkBack {p t : τ} (h : Inv s (.linkBack p t ::ₘ rest))
    (hexec : exec (.linkBack p t) c s = .ok fs s') : Inv s' (↑fs + rest) := by
  cases hexec
  have hcreated : (s.scheduler.tasks t).state = .created :=
    h.created p t (by rw [total_cons]; simp)
  have htask : ∀ u, (Function.update s.scheduler.tasks t { s.scheduler.tasks t with
      predecessors := (s.scheduler.tasks t).predecessors ++ [p] } u) = { s.scheduler.tasks u with
      predecessors := (s.scheduler.tasks u).predecessors ++ if u = t then [p] else [] } := by
    intro u
    rcases eq_or_ne u t with rfl | hut
    · simp
    · simp [hut]
  have hsuccessors : ∀ u, (Function.update s.scheduler.tasks t { s.scheduler.tasks t with
      predecessors := (s.scheduler.tasks t).predecessors ++ [p] } u).successors =
        (s.scheduler.tasks u).successors := fun u =>
    (congrArg AbstractTask.successors (htask u)).trans rfl
  refine h.call (fun w hw => ?_) ?_ rfl rfl (fun u => ?_) (fun u => .inr ?_) (fun u => ?_)
    (fun _ _ _ => rfl) h.settled (fun q u => ?_) (fun q u => ?_) (fun q => ?_) (fun q u hpos => ?_)
    (by simp)
  · simp [LinkFrame.erase]
  · exact congrArg (rest.map ·) (erase_congr hsuccessors)
  · exact (congrArg AbstractTask.state (htask u)).trans rfl
  · exact (congrArg AbstractTask.isReady (htask u)).trans rfl
  · exact (congrArg AbstractTask.pendingPredecessors (htask u)).trans (h.pending u)
  · have hlinked := h.linked q u
    rw [total_cons] at hlinked
    exact hlinked.trans (congrArg (·.count u) (hsuccessors q)).symm
  · have hpredecessors := h.predecessors q u
    rw [total_cons] at hpredecessors
    refine Eq.trans ?_ (hpredecessors.trans (congrArg (·.count u) (hsuccessors q)).symm)
    refine (congrArg (fun task => _ + task.predecessors.count q) (htask u)).trans ?_
    simp only [LinkFrame.backTokens, List.map_cons, List.map_nil, List.sum_cons, List.sum_nil,
      List.count_append]
    by_cases hut : u = t
    · by_cases hqp : q = p
      · simp [hqp, hut]
        omega
      · simp [Ne.symm hqp, hut]
    · simp [hut, Ne.symm hut]
  · have hheld := h.held q
    rw [total_cons] at hheld
    exact hheld
  · obtain rfl : t = u := by
      by_contra hne
      simp [hne] at hpos
    exact hcreated

/-- `SetAsPredecessorOf` locks the mutex. -/
lemma Inv.lock {p t : τ} (h : Inv s (.lock p t ::ₘ rest))
    (hexec : exec (.lock p t) c s = .ok fs s') : Inv s' (↑fs + rest) := by
  simp only [exec] at hexec
  split at hexec <;> cases hexec
  next hunlocked =>
  have hcreated : (s.scheduler.tasks t).state = .created :=
    h.created p t (by rw [total_cons]; simp)
  refine h.call (fun w hw => ?_) rfl rfl rfl (fun _ => rfl) (fun _ => .inr rfl) h.pending
    (fun _ _ _ => rfl) h.settled (fun q u => ?_) (fun q u => ?_) (fun q => ?_) (fun q u hpos => ?_)
    (by simp)
  · simp [LinkFrame.erase]
  · have hlinked := h.linked q u
    rw [total_cons] at hlinked
    exact hlinked
  · have hpredecessors := h.predecessors q u
    rw [total_cons] at hpredecessors
    exact hpredecessors
  · have hheld := h.held q
    rw [total_cons] at hheld
    show _ = if Function.update s.isLocked p true q then 1 else 0
    rcases eq_or_ne q p with rfl | hqp
    · rw [if_neg hunlocked] at hheld
      simp at hheld ⊢
      exact hheld
    · simpa [hqp, hqp.symm] using hheld
  · obtain rfl : t = u := by
      by_contra hne
      simp [hne] at hpos
    exact hcreated

/-- `SetAsPredecessorOf` finds the predecessor done, or goes on to count the link. -/
lemma Inv.checkDone {p t : τ} (h : Inv s (.checkDone p t ::ₘ rest))
    (hexec : exec (.checkDone p t) c s = .ok fs s') : Inv s' (↑fs + rest) := by
  have hcreated : (s.scheduler.tasks t).state = .created :=
    h.created p t (by rw [total_cons]; simp)
  simp only [exec, AbstractTask.isDone, decide_eq_true_eq] at hexec
  split at hexec
  · next hdone =>
    cases hexec
    refine h.call (fun w hw => ?_) rfl rfl rfl (fun _ => rfl) (fun _ => .inr rfl) h.pending
      (fun _ _ _ => rfl) (fun q u hmem => ?_) (fun q u => ?_) (fun q u => ?_) (fun q => ?_)
      (by simp) (by simp)
    · exact (hw .client trivial).symm
    · rcases List.mem_append.mp hmem with hmem | hmem
      · exact h.settled q u hmem
      · obtain ⟨rfl, rfl⟩ := Prod.mk.inj (List.mem_singleton.mp hmem)
        exact hdone
    · have hlinked := h.linked q u
      rw [total_cons] at hlinked
      refine Eq.trans ?_ hlinked
      show _ + s.counted.count (q, u) + (s.settled ++ [(p, t)]).count (q, u) = _
      rw [List.count_append, List.count_singleton]
      by_cases heq : p = q ∧ t = u
      · simp [heq]
        omega
      · simp [heq]
    · have hpredecessors := h.predecessors q u
      rw [total_cons] at hpredecessors
      exact hpredecessors
    · have hheld := h.held q
      rw [total_cons] at hheld
      show _ = if Function.update s.isLocked p false q then 1 else 0
      rcases eq_or_ne q p with rfl | hqp
      · simp at hheld ⊢
        split at hheld <;> omega
      · simpa [hqp, hqp.symm] using hheld
  · next hundone =>
    cases hexec
    refine h.call (fun w hw => ?_) rfl rfl rfl (fun _ => rfl) (fun _ => .inr rfl) h.pending
      (fun _ _ _ => rfl) h.settled (fun q u => ?_) (fun q u => ?_) (fun q => ?_)
      (fun q u hpos => ?_) (fun q u hmem => ?_)
    · simp [LinkFrame.erase]
    · have hlinked := h.linked q u
      rw [total_cons] at hlinked
      exact hlinked
    · have hpredecessors := h.predecessors q u
      rw [total_cons] at hpredecessors
      exact hpredecessors
    · have hheld := h.held q
      rw [total_cons] at hheld
      exact hheld
    · obtain rfl : t = u := by
        by_contra hne
        simp [hne] at hpos
      exact hcreated
    · obtain ⟨rfl, rfl⟩ := LinkFrame.count.inj (List.mem_singleton.mp hmem)
      exact hundone

/-- `SetAsPredecessorOf` counts the link. -/
lemma Inv.count {p t : τ} (h : Inv s (.count p t ::ₘ rest))
    (hexec : exec (.count p t) c s = .ok fs s') : Inv s' (↑fs + rest) := by
  cases hexec
  have hcreated : (s.scheduler.tasks t).state = .created :=
    h.created p t (by rw [total_cons]; simp)
  have hundone := h.undone p t (Multiset.mem_cons_self _ _)
  have htask : ∀ u, (Function.update s.scheduler.tasks t { s.scheduler.tasks t with
      pendingPredecessors := { (s.scheduler.tasks t).pendingPredecessors with
        value := (s.scheduler.tasks t).pendingPredecessors.value + 1 } } u) =
      { s.scheduler.tasks u with
        pendingPredecessors := { (s.scheduler.tasks u).pendingPredecessors with
          value := (s.scheduler.tasks u).pendingPredecessors.value + if t = u then 1 else 0 } } := by
    intro u
    rcases eq_or_ne t u with rfl | htu
    · simp
    · simp [htu, htu.symm]
  have hsuccessors : ∀ u, (Function.update s.scheduler.tasks t { s.scheduler.tasks t with
      pendingPredecessors := { (s.scheduler.tasks t).pendingPredecessors with
        value := (s.scheduler.tasks t).pendingPredecessors.value + 1 } } u).successors =
        (s.scheduler.tasks u).successors := fun u =>
    (congrArg AbstractTask.successors (htask u)).trans rfl
  refine h.call (fun w hw => ?_) ?_ rfl rfl (fun u => ?_) (fun u => ?_) (fun u => ?_)
    (fun q u hdone => ?_) h.settled (fun q u => ?_) (fun q u => ?_) (fun q => ?_) (by simp) (by simp)
  · exact (hw .client trivial).symm
  · exact congrArg (rest.map ·) (erase_congr hsuccessors)
  · exact (congrArg AbstractTask.state (htask u)).trans rfl
  · rcases eq_or_ne t u with rfl | htu
    · exact .inl hcreated
    · right
      refine (congrArg AbstractTask.isReady (htask u)).trans ?_
      simp [htu, AbstractTask.isReady]
  · refine (congrArg AbstractTask.pendingPredecessors (htask u)).trans ?_
    show (⟨_, _⟩ : Counter) = ⟨(s.counted ++ [(p, t)]).countP _, false⟩
    rw [h.pending u, List.countP_append, List.countP_singleton]
    simp
  · show (s.counted ++ [(p, t)]).count (q, u) = _
    have hne : (p, t) ≠ (q, u) := by
      rintro heq
      obtain ⟨rfl, rfl⟩ := Prod.mk.inj heq
      exact hundone hdone
    rw [List.count_append, List.count_singleton, if_neg (by simpa using hne), Nat.add_zero]
  · have hlinked := h.linked q u
    rw [total_cons] at hlinked
    refine Eq.trans ?_ (hlinked.trans (congrArg (·.count u) (hsuccessors q)).symm)
    show _ + (s.counted ++ [(p, t)]).count (q, u) + s.settled.count (q, u) = _
    rw [List.count_append, List.count_singleton]
    by_cases heq : p = q ∧ t = u
    · simp [heq]
      omega
    · simp [heq]
  · have hpredecessors := h.predecessors q u
    rw [total_cons] at hpredecessors
    refine Eq.trans ?_ (hpredecessors.trans (congrArg (·.count u) (hsuccessors q)).symm)
    exact congrArg (fun task => _ + task.predecessors.count q) (htask u)
  · have hheld := h.held q
    rw [total_cons] at hheld
    show _ = if Function.update s.isLocked p false q then 1 else 0
    rcases eq_or_ne q p with rfl | hqp
    · simp at hheld ⊢
      split at hheld <;> omega
    · simpa [hqp, hqp.symm] using hheld

/-! ### Every step -/

/-- No frame stands for a link to a task or from it if no call does. -/
lemma total_linkTokens_eq_zero {p t : τ} (h : ∀ f ∈ F, ¬ f.Links p t) :
    total (LinkFrame.linkTokens p t) F = 0 := by
  refine total_eq_zero fun f hf => ?_
  have hnot := h f hf
  cases f with
  | linkBack | lock | checkDone | count => exact if_neg hnot
  | _ => rfl

/-- A step in order keeps the invariant. -/
lemma Inv.step {m m' : Machine (LinkFrame τ) (AddedSuccessors τ)} {a : ℕ × LinkChoice τ}
    (h : Inv m.shared m.frames) (horderly : Orderly m a) (hstep : Step m a m') :
    Inv m'.shared m'.frames := by
  obtain ⟨f, k, fs, rest, htop, hexec, -, hold, hnew⟩ := hstep.exists_frame
  have hrest : ∀ g ∈ rest, g ∈ m.frames := fun g hg => hold ▸ Multiset.mem_cons_of_mem hg
  rw [hold] at h
  rw [hnew]
  cases f with
  | scheduler frame =>
    rcases exec_scheduler hexec with ⟨t, rfl, hunlocked, hstate, rfl, hshared⟩ |
      ⟨p, t, rfl, hshared⟩ | ⟨choice, frames, scheduler, hfinish, hscheduler, rfl, hshared⟩
    · -- no call from the task holds its mutex, and none is about to take it
      have hzero : ∀ u, total (LinkFrame.linkTokens t u) rest = 0 := by
        intro u
        refine total_linkTokens_eq_zero fun g hg hlinks => ?_
        have hheld := h.held t
        rw [total_cons, hunlocked, if_neg Bool.false_ne_true] at hheld
        have hle := le_total (w := LinkFrame.holdTokens t) hg
        obtain ⟨hback, hlock⟩ := horderly.finished t ⟨k, htop⟩ u
        cases g with
        | linkBack q v =>
          obtain ⟨rfl, rfl⟩ := hlinks
          exact hback (hrest _ hg)
        | lock q v =>
          obtain ⟨rfl, rfl⟩ := hlinks
          exact hlock (hrest _ hg)
        | checkDone q v | count q v =>
          obtain ⟨rfl, rfl⟩ := hlinks
          rw [LinkFrame.holdTokens, if_pos rfl] at hle
          omega
        | _ => exact hlinks
      have heffect := Effect.finish hstate
      rw [hshared]
      refine h.effect heffect ?_ (fun g hg => ?_) (fun p hp => ?_) (fun u hu => by cases hu)
        fun u hu => by cases hu
      · rfl
      · rw [List.mem_singleton.mp hg]
        trivial
      · obtain rfl := Frame.finish.inj hp
        exact hzero
    · rw [hshared]
      refine h.same (fun w hw => ?_) (.inl trivial) (by simp [LinkFrame.IsQuiet])
      have hclient := hw .client trivial
      simp [LinkFrame.erase, hclient]
    · rw [hshared]
      refine h.effect (exec_effect hscheduler) ?_ (fun g hg => ?_) (fun p hp => absurd hp (hfinish p))
        (fun t ht p => ?_) fun t ht hscheduled => ?_
      · rw [List.map_map]
        exact List.map_id _
      · obtain ⟨frame', -, rfl⟩ := List.mem_map.mp hg
        trivial
      · refine total_linkTokens_eq_zero fun g hg => ?_
        exact horderly.scheduled t (ht ▸ ⟨k, htop⟩) p g (hrest g hg)
      · exact horderly.ready t (ht ▸ ⟨k, htop⟩) (decide_eq_true hscheduled)
  | startNotify t =>
    obtain ⟨rfl, hshared⟩ : fs = [.scheduler (.onTaskFinished t
        (m.shared.scheduler.tasks t).successors)] ∧ m'.shared = m.shared := by
      simp only [exec, Outcome.ok.injEq] at hexec
      exact ⟨hexec.1.symm, hexec.2.symm⟩
    rw [hshared]
    refine h.same (fun w _ => ?_) (.inl trivial) (by simp [LinkFrame.IsQuiet])
    simp [LinkFrame.erase]
  | link p t =>
    exact h.link (horderly.created p t ⟨k, htop⟩)
      (fun hnew' hmem => horderly.notified p t ⟨k, htop⟩ hnew' (hrest _ hmem)) hexec
  | linkBack p t => exact h.linkBack hexec
  | lock p t => exact h.lock hexec
  | checkDone p t => exact h.checkDone hexec
  | count p t => exact h.count hexec

lemma mem_frames_initial {numClients numThreads : ℕ}
    (h : f ∈ (initial τ numClients numThreads).frames) :
    f = .scheduler .client ∨ f = .scheduler .worker := by
  obtain ⟨thread, hthread, hf⟩ := Machine.mem_frames.mp h
  rcases List.mem_append.mp hthread with hmem | hmem
  · rw [List.eq_of_mem_replicate hmem] at hf
    exact .inl (List.mem_singleton.mp hf)
  · rw [List.eq_of_mem_replicate hmem] at hf
    exact .inr (List.mem_singleton.mp hf)

lemma inv_initial (τ : Type) [DecidableEq τ] (numClients numThreads : ℕ) :
    Inv (initial τ numClients numThreads).shared (initial τ numClients numThreads).frames := by
  have htotal : ∀ w : Frame τ → ℕ, (∀ g : Frame τ, g.Neutral → w g = 0) →
      total w (erased (initial τ numClients numThreads).shared
        (initial τ numClients numThreads).frames) = 0 := by
    intro w hw
    refine total_eq_zero fun g hg => hw g ?_
    obtain ⟨f, hf, rfl⟩ := Multiset.mem_map.mp hg
    rcases mem_frames_initial hf with rfl | rfl <;> trivial
  have hzero : ∀ w : LinkFrame τ → ℕ, w (.scheduler .client) = 0 → w (.scheduler .worker) = 0 →
      total w (initial τ numClients numThreads).frames = 0 := by
    intro w hclient hworker
    refine total_eq_zero fun f hf => ?_
    rcases mem_frames_initial hf with rfl | rfl
    · exact hclient
    · exact hworker
  refine ⟨fun t => ⟨?_, ?_, rfl, rfl, rfl⟩, fun t => ⟨fun hor => ?_, fun hpos => ?_, fun h => ?_⟩,
    fun t => rfl, fun p t => ?_, fun p t h => absurd h List.not_mem_nil, fun p t => ?_,
    fun p t => ?_, fun p => ?_, fun p t h => rfl, fun p t h => ?_⟩
  · rw [htotal _ fun g hg => hg.enqueuedTokens t]
    rfl
  · rw [htotal _ fun g hg => hg.startedTokens t]
    rfl
  · rfl
  · rw [htotal _ fun g hg => hg.schedulingTokens t, htotal _ fun g hg => hg.submitTokens t] at hpos
    exact absurd hpos (by decide)
  · cases h
  · rw [htotal _ fun g hg => hg.newsTokens p t]
    rfl
  · rw [hzero _ rfl rfl]
    rfl
  · rw [hzero _ rfl rfl]
    rfl
  · rw [hzero _ rfl rfl]
    rfl
  · rcases mem_frames_initial h with h | h <;> cases h

end AddedSuccessors

end Skyrise

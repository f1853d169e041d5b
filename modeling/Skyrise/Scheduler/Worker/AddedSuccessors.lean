/-
Runs in which successors are added.

As long as every step is in order, a task that is started has predecessors that are
done, no count underflows, no assertion fails, and when nothing can go on a scheduled
task whose predecessors are done has been enqueued.  A client that records a link
before its predecessor is done and tests it afterwards breaks this.
-/
import Skyrise.Scheduler.Worker.CountedLinks

namespace Skyrise

open Concurrency FragmentScheduler

namespace AddedSuccessors

variable {τ : Type} [DecidableEq τ] {s s' : AddedSuccessors τ} {f : LinkFrame τ}
  {fs : List (LinkFrame τ)} {c : LinkChoice τ} {rest F : Multiset (LinkFrame τ)}

/-! ### Progress -/

/-- Beneath a frame stands one of the scheduler, and a client only beneath one that blocks or whose
place such a frame takes. -/
def Beneath (f g : LinkFrame τ) : Prop :=
  ∃ below, g = .scheduler below ∧ ∀ frame, f = .scheduler frame → frame.Above below

lemma beneath_of_exec (h : exec f c s = .ok fs s') :
    fs.Pairwise Beneath ∧ ∀ g ∈ fs, ∀ below, Beneath f below → Beneath g below := by
  have hsingle : ∀ g : LinkFrame τ, (∀ frame, g = .scheduler frame → frame.isBase = false) →
      fs = [g] → fs.Pairwise Beneath ∧ ∀ g ∈ fs, ∀ below, Beneath f below → Beneath g below := by
    rintro g hg rfl
    refine ⟨List.pairwise_singleton _ _, fun g' hg' below hbelow => ?_⟩
    obtain rfl := List.mem_singleton.mp hg'
    obtain ⟨below, rfl, -⟩ := hbelow
    refine ⟨below, rfl, fun frame hframe hbase => ?_⟩
    rw [hg frame hframe] at hbase
    cases hbase
  cases f with
  | scheduler frame =>
    rcases exec_scheduler h with ⟨t, -, -, -, rfl, -⟩ | ⟨p, t, rfl, -⟩ |
      ⟨choice, frames, scheduler, -, hexec, rfl, -⟩
    · exact hsingle _ (by simp) rfl
    · refine ⟨List.pairwise_pair.mpr ⟨frame, rfl, by simp⟩, fun g hg below hbelow => ?_⟩
      rcases List.mem_cons.mp hg with rfl | hg
      · obtain ⟨below, rfl, -⟩ := hbelow
        exact ⟨below, rfl, by simp⟩
      · rw [List.mem_singleton.mp hg]
        exact hbelow
    · obtain ⟨hpairwise, hplace⟩ := exec_above hexec
      refine ⟨List.pairwise_map.mpr (hpairwise.imp fun {g g'} hgg' => ?_), fun g hg below hbelow => ?_⟩
      · refine ⟨g', rfl, fun frame' hframe' => ?_⟩
        obtain rfl := LinkFrame.scheduler.inj hframe'
        exact hgg'
      · obtain ⟨g', hg', rfl⟩ := List.mem_map.mp hg
        obtain ⟨below, rfl, habove⟩ := hbelow
        refine ⟨below, rfl, fun frame' hframe' => ?_⟩
        obtain rfl := LinkFrame.scheduler.inj hframe'
        exact hplace g' hg' below (habove frame rfl)
  | startNotify t =>
    simp only [exec, Outcome.ok.injEq] at h
    exact hsingle _ (by rintro _ ⟨⟩; rfl) h.1.symm
  | count p t =>
    simp only [exec, Outcome.ok.injEq] at h
    rw [← h.1]
    simp
  | linkBack p t =>
    simp only [exec, Outcome.ok.injEq] at h
    exact hsingle _ (by simp) h.1.symm
  | link p t | lock p t | checkDone p t =>
    simp only [exec] at h
    split at h <;> cases h
    all_goals first | exact hsingle _ (by simp) rfl | simp

lemma pairwise_beneath {numClients numThreads : ℕ} {as : List (ℕ × LinkChoice τ)}
    {m : Machine (LinkFrame τ) (AddedSuccessors τ)}
    (h : Run Step (initial τ numClients numThreads) as m) :
    ∀ thread ∈ m.threads, thread.Pairwise Beneath := by
  refine Machine.pairwise_of_run (fun thread hthread => ?_) (fun _ _ _ _ _ => beneath_of_exec) h
  rcases List.mem_append.mp hthread with hmem | hmem <;> rw [List.eq_of_mem_replicate hmem] <;>
    exact List.pairwise_singleton _ _

/-- No assertion of the scheduler fails. -/
lemma Inv.scheduler_ne_error (h : Inv s F) {frame : Frame τ} (hf : .scheduler frame ∈ F)
    (choice : Choice τ) (e : Exception) :
    FragmentScheduler.exec frame choice s.scheduler ≠ .error e := by
  have hmem : frame ∈ erased s F := Multiset.mem_map.mpr ⟨_, hf, rfl⟩
  refine FragmentScheduler.exec_ne_error h.located (fun t hpos => (h.waiting t).scheduled (by omega))
    (fun p t hassert => ?_) hmem choice e
  obtain ⟨-, hcounted⟩ := h.mem_counted (p := p) (t := t) hassert (by simp)
  rw [h.pending t]
  exact List.countP_pos_iff.mpr ⟨(p, t), hcounted, decide_eq_true rfl⟩

/-- No assertion fails. -/
lemma Inv.exec_ne_error (h : Inv s F) (hf : f ∈ F) (e : Exception) : exec f c s ≠ .error e := by
  intro herror
  cases f with
  | scheduler frame =>
    by_cases hfinish : ∃ t, frame = .finish t
    · obtain ⟨t, rfl⟩ := hfinish
      simp only [exec] at herror
      split at herror
      · cases herror
      · split at herror <;> cases herror
        exact h.scheduler_ne_error hf _ _ ‹_›
    · cases c with
      | scheduler choice =>
        rw [exec_scheduler_eq fun t ht => hfinish ⟨t, ht⟩] at herror
        split at herror <;> cases herror
        exact h.scheduler_ne_error hf _ _ ‹_›
      | setAsPredecessorOf p t =>
        cases frame with
        | finish t => exact hfinish ⟨t, rfl⟩
        | _ => cases herror
  | link p t | lock p t | checkDone p t =>
    simp only [exec] at herror
    split at herror <;> cases herror
  | startNotify | linkBack | count => cases herror

/-- In a state without steps no thread has a mutex. -/
lemma Stuck.unlocked {m : Machine (LinkFrame τ) (AddedSuccessors τ)} (hstuck : Stuck m)
    (h : Inv m.shared m.frames) (hbeneath : ∀ thread ∈ m.threads, thread.Pairwise Beneath) (p : τ) :
    m.shared.isLocked p = false := by
  have hnone : total (LinkFrame.holdTokens p) m.frames = 0 := by
    refine total_eq_zero fun f hf => ?_
    obtain ⟨i, g, htop, rfl | ⟨below, rfl, -⟩⟩ := Machine.top_or_beneath hbeneath hf
    · have hno : ∀ fs s', exec f (.scheduler .finish) m.shared ≠ .ok fs s' := fun fs s' hexec =>
        let ⟨m', hm'⟩ := htop.exists_step hexec
        hstuck _ m' hm'
      cases f with
      | checkDone q t =>
        cases hdone : (m.shared.scheduler.tasks q).isDone with
        | true => exact absurd (if_pos hdone) (hno _ _)
        | false => exact absurd (if_neg (by simp [hdone])) (hno _ _)
      | count q t => exact absurd rfl (hno _ _)
      | _ => rfl
    · rfl
  have hheld := h.held p
  rw [hnone] at hheld
  split at hheld
  · cases hheld
  · exact Bool.eq_false_of_not_eq_true ‹_›

/-- In a state without steps every frame is neutral. -/
lemma Stuck.neutral {m : Machine (LinkFrame τ) (AddedSuccessors τ)} (hstuck : Stuck m)
    (h : Inv m.shared m.frames) (hbeneath : ∀ thread ∈ m.threads, thread.Pairwise Beneath)
    (hf : f ∈ m.frames) : ∃ frame, f = .scheduler frame ∧ frame.Neutral := by
  have htop : ∀ i g, m.Top i g → ∃ frame, g = .scheduler frame ∧
      (frame = .worker ∨ ∃ tasks rest, frame = .join tasks rest) := by
    intro i g htop
    have hno : ∀ fs s', exec g (.scheduler .finish) m.shared ≠ .ok fs s' := fun fs s' hexec =>
      let ⟨m', hm'⟩ := htop.exists_step hexec
      hstuck _ m' hm'
    have hunlocked := fun p => hstuck.unlocked h hbeneath p
    cases g with
    | scheduler frame =>
      have herror := h.scheduler_ne_error htop.mem_frames .finish
      refine ⟨frame, rfl, ?_⟩
      by_cases hfinish : ∃ t, frame = .finish t
      · obtain ⟨t, rfl⟩ := hfinish
        cases hexec : FragmentScheduler.exec (.finish t) .finish m.shared.scheduler with
        | blocked => exact absurd (of_exec_eq_blocked hexec) (by simp)
        | error e => exact absurd hexec (herror e)
        | ok frames scheduler =>
          refine absurd ?_ (hno [.startNotify t] { m.shared with scheduler := scheduler })
          simp only [exec, hunlocked t, hexec, Bool.false_eq_true, if_false]
      · have hno' := hno
        rw [exec_scheduler_eq fun t ht => hfinish ⟨t, ht⟩] at hno'
        cases hexec : FragmentScheduler.exec frame .finish m.shared.scheduler with
        | blocked => exact (of_exec_eq_blocked hexec).imp_left And.left
        | error e => exact absurd hexec (herror e)
        | ok frames scheduler =>
          rw [hexec] at hno'
          exact absurd rfl (hno' _ _)
    | link p t =>
      by_cases hmem : t ∈ (m.shared.scheduler.tasks p).successors
      · exact absurd (if_pos hmem) (hno _ _)
      · exact absurd (if_neg hmem) (hno _ _)
    | lock p t => exact absurd (if_neg (by simp [hunlocked p])) (hno _ _)
    | checkDone p t =>
      by_cases hdone : (m.shared.scheduler.tasks p).isDone = true
      · exact absurd (if_pos hdone) (hno _ _)
      · exact absurd (if_neg hdone) (hno _ _)
    | startNotify t | linkBack p t | count p t => exact absurd rfl (hno _ _)
  obtain ⟨i, g, hg, rfl | hbelow⟩ := Machine.top_or_beneath hbeneath hf
  · obtain ⟨frame, rfl, rfl | ⟨tasks, rest, rfl⟩⟩ := htop i f hg
    · exact ⟨_, rfl, trivial⟩
    · exact ⟨_, rfl, trivial⟩
  · obtain ⟨frame, rfl, hbase⟩ := htop i g hg
    obtain ⟨below, rfl, habove⟩ := hbelow
    refine ⟨below, rfl, ?_⟩
    have hclient : below = .client := by
      refine habove frame rfl ?_
      rcases hbase with rfl | ⟨tasks, rest, rfl⟩ <;> rfl
    rw [hclient]
    trivial

/-- The predecessors of a scheduled task whose count is zero are done. -/
lemma Inv.done_of_isReady (h : Inv s F) {p t : τ} (hready : (s.scheduler.tasks t).isReady)
    (hscheduled : .scheduled ≤ (s.scheduler.tasks t).state)
    (hp : p ∈ (s.scheduler.tasks t).predecessors) : (s.scheduler.tasks p).state = .done := by
  have hlinked := h.linked p t
  have hpredecessors := h.predecessors p t
  have hpos := List.count_pos_iff.mpr hp
  have hnone : total (LinkFrame.linkTokens p t) F = 0 := by
    refine Nat.eq_zero_of_not_pos fun hpos => ?_
    rw [h.created p t hpos] at hscheduled
    exact absurd hscheduled (by decide)
  rw [hnone, List.count_eq_zero.mpr ((h.isReady_iff t).mp hready p)] at hlinked
  exact h.settled p t (List.count_pos_iff.mp (by omega))

/-- In a state without steps a scheduled task whose predecessors are done was enqueued. -/
lemma Inv.enqueued_of_stuck {m : Machine (LinkFrame τ) (AddedSuccessors τ)}
    (h : Inv m.shared m.frames) (hbeneath : ∀ thread ∈ m.threads, thread.Pairwise Beneath)
    (hstuck : Stuck m) {t : τ} (hscheduled : .scheduled ≤ (m.shared.scheduler.tasks t).state)
    (hdone : ∀ p ∈ (m.shared.scheduler.tasks t).predecessors,
      (m.shared.scheduler.tasks p).state = .done) :
    .enqueued ≤ (m.shared.scheduler.tasks t).state := by
  have hneutral := fun f (hf : f ∈ m.frames) => hstuck.neutral h hbeneath hf
  have htotal : ∀ w : Frame τ → ℕ, (∀ g : Frame τ, g.Neutral → w g = 0) →
      total w (erased m.shared m.frames) = 0 := by
    intro w hw
    refine total_eq_zero fun g hg => ?_
    obtain ⟨f, hf, rfl⟩ := Multiset.mem_map.mp hg
    obtain ⟨frame, rfl, hframe⟩ := hneutral f hf
    exact hw frame hframe
  by_contra hnot
  have hstate : (m.shared.scheduler.tasks t).state = .scheduled := by
    cases hs : (m.shared.scheduler.tasks t).state with
    | scheduled => rfl
    | created =>
      rw [hs] at hscheduled
      exact absurd hscheduled (by decide)
    | _ =>
      rw [hs] at hnot
      exact absurd (by decide) hnot
  rcases (h.waiting t).awake hstate with htokens | hpending
  · rw [htotal _ fun g hg => hg.schedulingTokens t, htotal _ fun g hg => hg.readyTokens t] at htokens
    exact absurd htokens (by decide)
  · -- a link that is counted is one from a task that is done, whose news has not arrived
    rw [h.isReady_iff t] at hpending
    push Not at hpending
    obtain ⟨p, hcounted⟩ := hpending
    have hpos := List.count_pos_iff.mpr hcounted
    have hlinked := h.linked p t
    have hpredecessors := h.predecessors p t
    have hback : total (LinkFrame.backTokens p t) m.frames = 0 := by
      refine total_eq_zero fun f hf => ?_
      obtain ⟨frame, rfl, -⟩ := hneutral f hf
      rfl
    have hnews := h.news p t
    rw [htotal _ fun g hg => hg.newsTokens p t,
      if_pos (hdone p (List.count_pos_iff.mp (by omega)))] at hnews
    omega

/-! ### Every run -/

/-- A task runs; a client records a link from it; the task becomes done; the client finds it done;
the loop over the successors begins. -/
def linkBeforeDone : List (ℕ × LinkChoice ℕ) :=
  (0, .scheduler (.scheduleTasks [0])) :: List.replicate 7 (0, .scheduler .finish) ++
    List.replicate 3 (2, .scheduler .finish) ++
    (1, .setAsPredecessorOf 0 1) :: List.replicate 2 (1, .scheduler .finish) ++
    [(2, .scheduler .finish)] ++ List.replicate 2 (1, .scheduler .finish) ++
    List.replicate 2 (2, .scheduler .finish)

/-- The successor has another predecessor, and the first one finishes. -/
def linkTwoBeforeDone : List (ℕ × LinkChoice ℕ) :=
  (1, .setAsPredecessorOf 2 1) :: List.replicate 5 (1, .scheduler .finish) ++ linkBeforeDone ++
    List.replicate 5 (2, .scheduler .finish)

/-- The successor is scheduled and runs. -/
def scheduleSuccessor : List (ℕ × LinkChoice ℕ) :=
  (0, .scheduler (.scheduleTasks [1])) :: List.replicate 7 (0, .scheduler .finish) ++
    List.replicate 2 (2, .scheduler .finish)

end AddedSuccessors

end Skyrise

/-
The counter of processed messages.

A thread adds one to the counter of its collector when it has processed a message
that is no duplicate.  It loads the counter and stores it in two steps, and
another thread of the collector can store it in between.  The messages that are
processed are counted beside the coordinator here, so that the two counts can be
compared in every state of a run.
-/
import Skyrise.Scheduler.Coordinator.LambdaExecutor

namespace Skyrise

open Concurrency PqpPipelineScheduler

namespace LambdaExecutor

section

variable {ι : Type} [DecidableEq ι] [ToString ι] (g : PipelineGraph ι)

/-- The steps of the coordinator, with the number of messages that have been processed for every
pipeline since its collector was started.  The stores that are taken are those that `admits` holds
of, with the pipeline and the value that was loaded. -/
inductive CountedStep (admits : Coordinator ι → ι → ℕ → Prop) :
    Coordinator ι × (ι → ℕ) → Action ι → Coordinator ι × (ι → ℕ) → Prop
  /-- A thread is done with a message. -/
  | store {c : Coordinator ι} {n : ι → ℕ} {l r : List (Handler ι)} {a : ι}
      {m : PqpPipelineFragmentExecutionResult ι}
      {rest : List (PqpPipelineFragmentExecutionResult ι)} {loaded : ℕ}
      (hh : c.handlers = l ++ ⟨a, m :: rest, .store loaded⟩ :: r) (hadmits : admits c a loaded) :
      CountedStep admits (c, n) .store ({ c with
        collectors := Function.update c.collectors a { c.collectors a with
          processedCount := loaded + 1 }
        handlers := l ++ ⟨a, rest, .check⟩ :: r }, Function.update n a (n a + 1))
  /-- The collectors of the pipelines that are submitted start to count. -/
  | count {c : Coordinator ι} {n : ι → ℕ} {l r : List (Handler ι)} {a : ι}
      {m : PqpPipelineFragmentExecutionResult ι}
      {rest : List (PqpPipelineFragmentExecutionResult ι)} {s : PqpPipelineScheduler ι}
      {subs : List ι} (hh : c.handlers = l ++ ⟨a, m :: rest, .count⟩ :: r)
      (hcall : countFragment a m c.scheduler = .ok (s, subs)) :
      CountedStep admits (c, n) (.count m) ({ c with
        scheduler := s
        collectors := startCollectors subs c.collectors
        handlers := l ++ ⟨a, m :: rest, .load⟩ :: r
        events := c.events ++ subs.map .submit }, fun b => if b ∈ subs then 0 else n b)
  /-- Any other step. -/
  | other {c c' : Coordinator ι} {n : ι → ℕ} {action : Action ι} (hstep : Step g c action c')
      (hstore : action ≠ .store) (hcount : ∀ m, action ≠ .count m) :
      CountedStep admits (c, n) action (c', n)

/-- All stores. -/
def anyStore (_ : Coordinator ι) (_ : ι) (_ : ℕ) : Prop := True

/-- The stores of a value that is still that of the counter: no other thread of the collector has
stored it since it was loaded. -/
def currentStore (c : Coordinator ι) (a : ι) (loaded : ℕ) : Prop :=
  loaded = (c.collectors a).processedCount

/-- What a collector relies on: the counter has the number of messages that were processed, so that
its loop ends once there are as many of them as invocations. -/
structure CountsAll (s : Coordinator ι × (ι → ℕ)) : Prop where
  processedCount : ∀ a, (s.1.collectors a).processedCount = s.2 a
  ends : ∀ a c, Step g s.1 (.test a) c →
    ((c.collectors a).phase = some .join ↔ g.fragmentCount a ≤ s.2 a)

variable {g} {admits : Coordinator ι → ι → ℕ → Prop} {s t : Coordinator ι × (ι → ℕ)}
  {action : Action ι}

/-- Every step of the coordinator is counted. -/
lemma Step.exists_countedStep {c c' : Coordinator ι} (h : Step g c action c') (n : ι → ℕ) :
    ∃ n', CountedStep g anyStore (c, n) action (c', n') := by
  cases h with
  | store hh => exact ⟨_, .store hh trivial⟩
  | count hh hcall => exact ⟨_, .count hh hcall⟩
  | send hsub hlt => exact ⟨n, .other (.send hsub hlt) (by simp) (by simp)⟩
  | test hphase => exact ⟨n, .other (.test hphase) (by simp) (by simp)⟩
  | receive batch hphase hlen hbatch =>
    exact ⟨n, .other (.receive batch hphase hlen hbatch) (by simp) (by simp)⟩
  | check hh => exact ⟨n, .other (.check hh) (by simp) (by simp)⟩
  | callback hh => exact ⟨n, .other (.callback hh) (by simp) (by simp)⟩
  | load hh => exact ⟨n, .other (.load hh) (by simp) (by simp)⟩

/-- A counted step is a step of the coordinator. -/
lemma CountedStep.step (h : CountedStep g admits s action t) : Step g s.1 action t.1 := by
  cases h with
  | store hh _ => exact .store hh
  | count hh hcall => exact .count hh hcall
  | other hstep _ _ => exact hstep

/-- The loop of a collector ends according to its counter. -/
lemma countsAll_iff : CountsAll g s ↔ ∀ a, (s.1.collectors a).processedCount = s.2 a := by
  refine ⟨fun h => h.processedCount, fun h => ⟨h, fun a c hstep => ?_⟩⟩
  cases hstep with
  | test hphase =>
    dsimp only
    rw [Function.update_self, h a]
    split_ifs with hlt
    · exact iff_of_false (by simp) (not_le.mpr hlt)
    · exact iff_of_true rfl (not_lt.mp hlt)

/-- Only a store and the start of a collector change a counter. -/
lemma Step.processedCount_eq {c c' : Coordinator ι} (h : Step g c action c')
    (hstore : action ≠ .store) (hcount : ∀ m, action ≠ .count m) (b : ι) :
    (c'.collectors b).processedCount = (c.collectors b).processedCount := by
  -- the collector of one pipeline is replaced by one with the same counter
  have hupdate : ∀ (a : ι) (x : Collector),
      x.processedCount = (c.collectors a).processedCount →
      (Function.update c.collectors a x b).processedCount = (c.collectors b).processedCount := by
    intro a x hx
    rcases eq_or_ne b a with rfl | hne
    · rw [Function.update_self, hx]
    · rw [Function.update_of_ne hne]
  cases h with
  | store hh => exact absurd rfl hstore
  | count hh hcall => exact absurd rfl (hcount _)
  | send hsub hlt => rfl
  | test hphase => exact hupdate _ _ rfl
  | receive batch hphase hlen hbatch => exact hupdate _ _ rfl
  | check hh =>
    refine hupdate _ _ ?_
    rw [checkMessage]
    split_ifs <;> rfl
  | callback hh => rfl
  | load hh => rfl

/-- A step that stores no value that is out of date keeps the counters right. -/
lemma CountsAll.step (h : CountsAll g s) (hstep : CountedStep g currentStore s action t) :
    CountsAll g t := by
  have hs := h.processedCount
  refine countsAll_iff.mpr fun b => ?_
  cases hstep with
  | @store c n l r a m rest loaded hh hcurrent =>
    rw [currentStore] at hcurrent
    have ha : (c.collectors a).processedCount = n a := hs a
    dsimp only
    rcases eq_or_ne b a with rfl | hne
    · simp only [Function.update_self]
      omega
    · rw [Function.update_of_ne hne, Function.update_of_ne hne]
      exact hs b
  | @count c n l r a m rest s' subs hh hcall =>
    dsimp only
    rw [startCollectors]
    split_ifs
    · rfl
    · exact hs b
  | other hstep hstore hcount => exact (hstep.processedCount_eq hstore hcount b).trans (hs b)

/-- A step keeps the counters right if and only if it stores no value that is out of date. -/
lemma CountsAll.step_iff (h : CountsAll g s) (hstep : CountedStep g anyStore s action t) :
    CountsAll g t ↔ CountedStep g currentStore s action t := by
  refine ⟨fun ht => ?_, h.step⟩
  cases hstep with
  | @store c n l r a m rest loaded hh _ =>
    refine .store hh ?_
    have hs : (c.collectors a).processedCount = n a := h.processedCount a
    have ha := ht.processedCount a
    simp only [Function.update_self] at ha
    rw [currentStore]
    omega
  | count hh hcall => exact .count hh hcall
  | other hstep hstore hcount => exact .other hstep hstore hcount

end

/-- **The counter of processed messages.**  As long as every thread stores the counter before
another one of its collector does, the counter has the number of messages that were processed, and
the loop of a collector ends once there are as many as invocations; and a step breaks this if and
only if it stores a value that is out of date. -/
theorem processedCount_eq_iff {ι : Type} [LinearOrder ι] [ToString ι] (g : PipelineGraph ι) :
    ∃ c₀, start g = .ok c₀ ∧ ∀ as s, Run (CountedStep g currentStore) (c₀, fun _ => 0) as s →
      CountsAll g s ∧ ∀ action t, CountedStep g anyStore s action t →
        (CountsAll g t ↔ CountedStep g currentStore s action t) := by
  obtain ⟨scheduler, subs, hs, -⟩ := executeUntilWait_eq_ok g
  refine ⟨⟨scheduler, startCollectors subs fun _ => {}, [], [], subs.map .submit⟩, ?_,
    fun as s hrun => ?_⟩
  · rw [start, hs]
    rfl
  · have hall : CountsAll g s := by
      refine hrun.invariant (I := CountsAll g) (countsAll_iff.mpr fun a => ?_)
        fun s action t h hstep => h.step hstep
      dsimp only
      rw [startCollectors]
      split_ifs <;> rfl
    exact ⟨hall, fun action t hstep => hall.step_iff hstep⟩

/-! ### Two threads of one collector -/

/-- A pipeline with two fragments. -/
def twoFragments : PipelineGraph ℕ where
  pipelines := [⟨0, [noInputs, noInputs], [], []⟩]
  identities_nodup := by decide
  fragments_ne_nil := by decide
  predecessors_mem := by decide
  successors_mem := by decide
  linked := PqpPipeline.linked_of_unlinked (by decide)
  acyclic := by
    refine Acyclic.of_rank id fun a b => ?_
    rintro ⟨q, hq, rfl, ha⟩
    obtain rfl := List.mem_singleton.mp hq
    cases ha

/-- The success of a worker. -/
def success (workerId : ℕ) : PqpPipelineFragmentExecutionResult ℕ := ⟨0, workerId, true, ""⟩

/-- Both workers of the pipeline have succeeded, and their messages were received in two batches. -/
lemma exists_run_load (admits : Coordinator ℕ → ℕ → ℕ → Prop) :
    ∃ c₀ as c n, start twoFragments = .ok c₀ ∧
    Run (CountedStep twoFragments admits) (c₀, fun _ => 0) as (c, n) ∧
    c.handlers = [⟨0, [success 0], .load⟩, ⟨0, [success 1], .load⟩] ∧
    (c.collectors 0).processedCount = 0 ∧ n 0 = 0 := by
  obtain ⟨s, subs, hs, hsubs, s₁, h₁, s₂, h₂⟩ : ∃ s subs,
      executeUntilWait twoFragments.pipelines = .ok (s, subs) ∧ subs = [0] ∧
      ∃ s₁, countFragment 0 (success 0) s = .ok (s₁, []) ∧
      ∃ s₂, countFragment 0 (success 1) s₁ = .ok (s₂, []) :=
    ⟨_, _, rfl, rfl, _, rfl, _, rfl⟩
  subst hsubs
  have hstart : start twoFragments =
      .ok ⟨s, startCollectors [0] fun _ => {}, [], [], [.submit 0]⟩ := by
    rw [start, hs]
    rfl
  obtain ⟨c₀, hc₀⟩ : ∃ c₀ : Coordinator ℕ,
    c₀ = ⟨s, startCollectors [0] fun _ => {}, [], [], [.submit 0]⟩ := ⟨_, rfl⟩
  have hnil : Run (CountedStep twoFragments admits) (c₀, fun _ => 0) [] (c₀, fun _ => 0) := .nil
  rw [← hc₀] at hstart
  have hsend := hnil.snoc (.other (.send (m := success 0) (by rw [hc₀]; exact List.mem_cons_self)
    (by decide)) (by simp) (by simp))
  have hsend₂ := hsend.snoc
    (.other (.send (m := success 1) (by simp [hc₀, success]) (by decide)) (by simp) (by simp))
  have htest := hsend₂.snoc (.other (.test (a := 0) (by rw [hc₀]; rfl)) (by simp) (by simp))
  have hreceive := htest.snoc (.other (.receive (a := 0) [success 0] (by rw [hc₀]; rfl) (by simp)
    (by simp [success])) (by simp) (by simp))
  have htest₂ := hreceive.snoc (.other (.test (a := 0) (by rw [hc₀]; rfl)) (by simp) (by simp))
  have hreceive₂ := htest₂.snoc (.other (.receive (a := 0) [success 1] (by rw [hc₀]; rfl) (by simp)
    (by simp [success])) (by simp) (by simp))
  subst hc₀
  have hcheck := hreceive₂.snoc (.other (.check (l := []) rfl) (by simp) (by simp))
  have hcallback := hcheck.snoc (.other (.callback (l := []) rfl) (by simp) (by simp))
  have hcount := hcallback.snoc (.count (l := []) rfl h₁)
  have hcheck₂ := hcount.snoc
    (.other (.check (l := [_]) (r := []) rfl) (by simp) (by simp))
  have hcallback₂ := hcheck₂.snoc
    (.other (.callback (l := [_]) (r := []) rfl) (by simp) (by simp))
  have hcount₂ := hcallback₂.snoc (.count (l := [_]) (r := []) rfl h₂)
  exact ⟨_, _, _, _, hstart, hcount₂, rfl, rfl, rfl⟩

/-- The threads take turns between the messages: both are counted. -/
theorem countsAll_twoFragments : ∃ s, CountsAll twoFragments s ∧ s.2 0 = 2 ∧
    (s.1.collectors 0).processedCount = 2 := by
  obtain ⟨c₀, as, c, n, hstart, hrun, hh, hcollector, hn⟩ := exists_run_load currentStore
  obtain ⟨c₀', hstart', hcount⟩ := processedCount_eq_iff twoFragments
  obtain rfl : c₀ = c₀' := Except.ok.inj (hstart.symm.trans hstart')
  have hload := hrun.snoc (.other (.load (l := []) hh) (by simp) (by simp))
  have hstore := hload.snoc (.store (l := []) rfl rfl)
  have hload₂ := hstore.snoc
    (.other (.load (l := [_]) (r := []) rfl) (by simp) (by simp))
  have hstore₂ := hload₂.snoc (.store (l := [_]) (r := []) rfl rfl)
  refine ⟨_, (hcount _ _ hstore₂).1, ?_, ?_⟩ <;> simp [hcollector, hn]

/-- Both threads load the counter before one of them stores it: two messages are processed, one is
counted, and the loop of the collector goes on. -/
theorem not_countsAll_twoFragments : ∃ c₀ as s, start twoFragments = .ok c₀ ∧
    Run (CountedStep twoFragments anyStore) (c₀, fun _ => 0) as s ∧
    twoFragments.fragmentCount 0 = 2 ∧ s.2 0 = 2 ∧ (s.1.collectors 0).processedCount = 1 ∧
    ¬ CountsAll twoFragments s := by
  obtain ⟨c₀, as, c, n, hstart, hrun, hh, hcollector, hn⟩ := exists_run_load anyStore
  have hload := hrun.snoc (.other (.load (l := []) hh) (by simp) (by simp))
  have hload₂ := hload.snoc (.other (.load (l := [_]) (r := []) rfl) (by simp) (by simp))
  have hstore := hload₂.snoc (.store (l := []) rfl trivial)
  have hstore₂ := hstore.snoc (.store (l := [_]) (r := []) rfl trivial)
  refine ⟨c₀, _, _, hstart, hstore₂, rfl, by simp [hn], by simp [hcollector], fun h => ?_⟩
  have hcount := h.processedCount 0
  simp [hcollector, hn] at hcount

end LambdaExecutor

end Skyrise

/-
The executor that collects the responses of the workers.

For a submitted pipeline the executor invokes a worker for every fragment and
starts a collector.  A worker puts a response on the queue of its pipeline when
it has succeeded or failed, and may do so again when it is retried.  The queue
delivers a message at least once: the collector receives messages in batches, in
any order, and a message may be received again.  Every batch gets a thread of its
own, which drops a success from a worker that has already succeeded, passes every
other response to the callback of the scheduler and counts it.

The threads take turns at their accesses to shared data.  The callback locks the
mutex twice for a failure, so that it takes two steps, and the counter of
processed messages is loaded and stored in two steps.
-/
import Skyrise.Scheduler.Coordinator.FaultFree

namespace Skyrise

open Concurrency PqpPipelineScheduler

namespace LambdaExecutor

/-- Where the thread of a batch is with its first message. -/
inductive HandlerPhase where
  /-- Before the test whether the message is a duplicate. -/
  | check
  /-- In the callback, before the success is tested. -/
  | callback
  /-- In the callback, before the fragment is counted. -/
  | count
  /-- After the callback, before the counter is loaded. -/
  | load
  /-- Before the counter is stored, with the value loaded. -/
  | store (loaded : ℕ)
deriving DecidableEq, Repr

/-- The thread of a batch of messages. -/
structure Handler (ι : Type) where
  /-- The pipeline of the collector. -/
  pipelineId : ι
  /-- The messages that are left. -/
  messages : List (PqpPipelineFragmentExecutionResult ι)
  /-- The phase. -/
  phase : HandlerPhase := .check

/-- Where the loop of a collector is. -/
inductive CollectorPhase where
  /-- Before the test of the counter. -/
  | test
  /-- Before the next batch is received. -/
  | receive
  /-- The loop has ended. -/
  | join
deriving DecidableEq, Repr

/-- The variables of a collector. -/
structure Collector where
  /-- The phase of its loop, if it was started. -/
  phase : Option CollectorPhase := none
  /-- The counter of processed messages. -/
  processedCount : ℕ := 0
  /-- The workers that have succeeded. -/
  processedWorkerIds : List ℕ := []

/-- The coordinator with the messages that were ever sent to its queues. -/
structure Coordinator (ι : Type) where
  /-- The scheduler. -/
  scheduler : PqpPipelineScheduler ι
  /-- The collectors of the pipelines. -/
  collectors : ι → Collector
  /-- The threads of the batches. -/
  handlers : List (Handler ι)
  /-- The messages. -/
  messages : List (PqpPipelineFragmentExecutionResult ι)
  /-- The submissions and the reported successes so far. -/
  events : List (PipelineEvent ι)

/-- The labels of the steps. -/
inductive Action (ι : Type) where
  /-- A worker sends a response. -/
  | send (message : PqpPipelineFragmentExecutionResult ι)
  /-- A collector tests its counter. -/
  | test (pipelineId : ι)
  /-- A collector receives a batch. -/
  | receive (pipelineId : ι) (batch : List (PqpPipelineFragmentExecutionResult ι))
  /-- A thread tests for a duplicate. -/
  | check (message : PqpPipelineFragmentExecutionResult ι)
  /-- A thread enters the callback, which sets the error of a failure. -/
  | callback (message : PqpPipelineFragmentExecutionResult ι)
  /-- A thread goes on in the callback, which counts the fragment. -/
  | count (message : PqpPipelineFragmentExecutionResult ι)
  /-- A thread loads the counter. -/
  | load
  /-- A thread stores the counter. -/
  | store

variable {ι : Type}

section

variable [DecidableEq ι]

/-- The collectors after those of newly submitted pipelines are started. -/
def startCollectors (subs : List ι) (collectors : ι → Collector) (a : ι) : Collector :=
  if a ∈ subs then { phase := some .test } else collectors a

/-- What a thread does with a message: a success of a worker that has succeeded is dropped, the
workers that succeed are recorded. -/
def checkMessage (message : PqpPipelineFragmentExecutionResult ι)
    (rest : List (PqpPipelineFragmentExecutionResult ι)) (a : ι) (collector : Collector) :
    Handler ι × Collector :=
  if message.isSuccess = true then
    if message.workerId ∈ collector.processedWorkerIds then (⟨a, rest, .check⟩, collector)
    else (⟨a, message :: rest, .callback⟩, { collector with
      processedWorkerIds := message.workerId :: collector.processedWorkerIds })
  else (⟨a, message :: rest, .callback⟩, collector)

open PipelineEvent

/-- The steps of the coordinator, its collectors, its threads and the workers. -/
inductive Step [ToString ι] (g : PipelineGraph ι) :
    Coordinator ι → Action ι → Coordinator ι → Prop
  /-- The worker of a fragment of a submitted pipeline sends a response, for the first time or
  again. -/
  | send {c : Coordinator ι} {m : PqpPipelineFragmentExecutionResult ι}
      (hsub : submit m.pipelineId ∈ c.events) (hlt : m.workerId < g.fragmentCount m.pipelineId) :
      Step g c (.send m) { c with
        messages := c.messages ++ [m]
        events := if m.isSuccess = true then c.events ++ [succeed m.pipelineId m.workerId]
          else c.events }
  /-- `processed_count.load() < invocation_count`. -/
  | test {c : Coordinator ι} {a : ι} (hphase : (c.collectors a).phase = some .test) :
      Step g c (.test a) { c with
        collectors := Function.update c.collectors a { c.collectors a with
          phase := some (if (c.collectors a).processedCount < g.fragmentCount a then .receive
            else .join) } }
  /-- At most ten of the messages on the queue are received. -/
  | receive {c : Coordinator ι} {a : ι} (batch : List (PqpPipelineFragmentExecutionResult ι))
      (hphase : (c.collectors a).phase = some .receive) (hlen : batch.length ≤ 10)
      (hbatch : ∀ m ∈ batch, m ∈ c.messages ∧ m.pipelineId = a) :
      Step g c (.receive a batch) { c with
        collectors := Function.update c.collectors a { c.collectors a with phase := some .test }
        handlers := c.handlers ++ [⟨a, batch, .check⟩] }
  /-- The test for a duplicate, under the mutex of the collector. -/
  | check {c : Coordinator ι} {l r : List (Handler ι)} {a : ι}
      {m : PqpPipelineFragmentExecutionResult ι}
      {rest : List (PqpPipelineFragmentExecutionResult ι)}
      (hh : c.handlers = l ++ ⟨a, m :: rest, .check⟩ :: r) :
      Step g c (.check m) { c with
        collectors := Function.update c.collectors a
          (checkMessage m rest a (c.collectors a)).2
        handlers := l ++ (checkMessage m rest a (c.collectors a)).1 :: r }
  /-- The first part of the callback, under the mutex of the scheduler. -/
  | callback {c : Coordinator ι} {l r : List (Handler ι)} {a : ι}
      {m : PqpPipelineFragmentExecutionResult ι}
      {rest : List (PqpPipelineFragmentExecutionResult ι)}
      (hh : c.handlers = l ++ ⟨a, m :: rest, .callback⟩ :: r) :
      Step g c (.callback m) { c with
        scheduler := if m.isSuccess = true then c.scheduler else recordError m c.scheduler
        handlers := l ++ ⟨a, m :: rest, .count⟩ :: r }
  /-- The second part of the callback, under the mutex of the scheduler. -/
  | count {c : Coordinator ι} {l r : List (Handler ι)} {a : ι}
      {m : PqpPipelineFragmentExecutionResult ι}
      {rest : List (PqpPipelineFragmentExecutionResult ι)} {s : PqpPipelineScheduler ι}
      {subs : List ι} (hh : c.handlers = l ++ ⟨a, m :: rest, .count⟩ :: r)
      (hcall : countFragment a m c.scheduler = .ok (s, subs)) :
      Step g c (.count m) { c with
        scheduler := s
        collectors := startCollectors subs c.collectors
        handlers := l ++ ⟨a, m :: rest, .load⟩ :: r
        events := c.events ++ subs.map submit }
  /-- `processed_count.load()`. -/
  | load {c : Coordinator ι} {l r : List (Handler ι)} {a : ι}
      {m : PqpPipelineFragmentExecutionResult ι}
      {rest : List (PqpPipelineFragmentExecutionResult ι)}
      (hh : c.handlers = l ++ ⟨a, m :: rest, .load⟩ :: r) :
      Step g c .load { c with
        handlers := l ++ ⟨a, m :: rest, .store (c.collectors a).processedCount⟩ :: r }
  /-- `processed_count.store`. -/
  | store {c : Coordinator ι} {l r : List (Handler ι)} {a : ι}
      {m : PqpPipelineFragmentExecutionResult ι}
      {rest : List (PqpPipelineFragmentExecutionResult ι)} {loaded : ℕ}
      (hh : c.handlers = l ++ ⟨a, m :: rest, .store loaded⟩ :: r) :
      Step g c .store { c with
        collectors := Function.update c.collectors a { c.collectors a with
          processedCount := loaded + 1 }
        handlers := l ++ ⟨a, rest, .check⟩ :: r }

end

/-- The coordinator once `Execute` waits. -/
def start [LinearOrder ι] (g : PipelineGraph ι) : Except Exception (Coordinator ι) := do
  let (scheduler, subs) ← executeUntilWait g.pipelines
  pure {
    scheduler := scheduler
    collectors := startCollectors subs fun _ => {}
    handlers := []
    messages := []
    events := subs.map .submit }

/-! ### The successes that are passed to the scheduler -/

section

variable [DecidableEq ι]

/-- The worker whose success a thread is about to count for a pipeline. -/
def Handler.counting (a : ι) (h : Handler ι) : Option ℕ :=
  match h.phase, h.messages with
  | .callback, m :: _ => if h.pipelineId = a ∧ m.isSuccess = true then some m.workerId else none
  | .count, m :: _ => if h.pipelineId = a ∧ m.isSuccess = true then some m.workerId else none
  | _, _ => none

/-- The workers whose success some thread is about to count for a pipeline. -/
def counting (handlers : List (Handler ι)) (a : ι) : List ℕ :=
  handlers.filterMap (Handler.counting a)

lemma counting_append_cons (l r : List (Handler ι)) (h : Handler ι) (a : ι) :
    counting (l ++ h :: r) a = counting l a ++ ((h.counting a).toList ++ counting r a) := by
  rw [counting, List.filterMap_append, List.filterMap_cons]
  cases h.counting a <;> rfl

lemma counting_congr {l r : List (Handler ι)} {h h' : Handler ι}
    (hh : ∀ a, h'.counting a = h.counting a) :
    counting (l ++ h' :: r) = counting (l ++ h :: r) := by
  funext a
  rw [counting_append_cons, counting_append_cons, hh]

open PipelineEvent

/-- What holds in a state of the coordinator as long as only successes are counted: the workers
whose success was recorded are those that were counted and those about to be counted. -/
structure Inv (g : PipelineGraph ι) (done : ι → List ℕ) (c : Coordinator ι) : Prop where
  holds : Tracks g done (submitted c.events) c.scheduler.tasks
  settled : Settled c.scheduler.tasks
  inOrder : InOrder g c.events
  messages : ∀ m ∈ c.messages, submit m.pipelineId ∈ c.events ∧
    m.workerId < g.fragmentCount m.pipelineId ∧
    (m.isSuccess = true → succeed m.pipelineId m.workerId ∈ c.events)
  handlers : ∀ h ∈ c.handlers, ∀ m ∈ h.messages, m ∈ c.messages ∧ m.pipelineId = h.pipelineId
  processed : ∀ a, (c.collectors a).processedWorkerIds.Perm (done a ++ counting c.handlers a)
  processed_nodup : ∀ a, (c.collectors a).processedWorkerIds.Nodup
  processed_succeed : ∀ a, ∀ k ∈ (c.collectors a).processedWorkerIds,
    submit a ∈ c.events ∧ k < g.fragmentCount a ∧ succeed a k ∈ c.events

namespace Inv

variable {g : PipelineGraph ι} {done : ι → List ℕ} {c : Coordinator ι} {a : ι}
  {m : PqpPipelineFragmentExecutionResult ι} {rest : List (PqpPipelineFragmentExecutionResult ι)}
  {l r : List (Handler ι)}

/-- The invariant does not depend on the counters and the loops of the collectors. -/
lemma updateCollector (h : Inv g done c) {x : Collector}
    (hx : x.processedWorkerIds = (c.collectors a).processedWorkerIds) :
    Inv g done { c with collectors := Function.update c.collectors a x } := by
  have hids : ∀ b, (Function.update c.collectors a x b).processedWorkerIds =
      (c.collectors b).processedWorkerIds := by
    intro b
    rcases eq_or_ne b a with rfl | hne
    · rw [Function.update_self, hx]
    · rw [Function.update_of_ne hne]
  refine ⟨h.holds, h.settled, h.inOrder, h.messages, h.handlers, fun b => ?_, fun b => ?_,
    fun b => ?_⟩ <;> rw [hids]
  · exact h.processed b
  · exact h.processed_nodup b
  · exact h.processed_succeed b

/-- A thread keeps to the messages that it has received. -/
lemma handlers_of_subset (h : Inv g done c) {x y : Handler ι} (hh : c.handlers = l ++ x :: r)
    (hid : y.pipelineId = x.pipelineId) (hsub : y.messages ⊆ x.messages) :
    ∀ z ∈ l ++ y :: r, ∀ m ∈ z.messages, m ∈ c.messages ∧ m.pipelineId = z.pipelineId := by
  have hhandlers := h.handlers
  rw [hh] at hhandlers
  intro z hz m hm
  rcases List.mem_append.mp hz with hz | hz
  · exact hhandlers z (List.mem_append_left _ hz) m hm
  · rcases List.mem_cons.mp hz with rfl | hz
    · rw [hid]
      exact hhandlers x (List.mem_append_right _ List.mem_cons_self) m (hsub hm)
    · exact hhandlers z (List.mem_append_right _ (List.mem_cons_of_mem _ hz)) m hm

/-- A thread that has no other success to count than before changes its phase. -/
lemma of_handler (h : Inv g done c) {x y : Handler ι} (hh : c.handlers = l ++ x :: r)
    (hid : y.pipelineId = x.pipelineId) (hsub : y.messages ⊆ x.messages)
    (hcount : ∀ a, y.counting a = x.counting a) :
    Inv g done { c with handlers := l ++ y :: r } where
  holds := h.holds
  settled := h.settled
  inOrder := h.inOrder
  messages := h.messages
  handlers := h.handlers_of_subset hh hid hsub
  processed a := by
    rw [counting_congr hcount, ← hh]
    exact h.processed a
  processed_nodup := h.processed_nodup
  processed_succeed := h.processed_succeed

/-- An error does not change the tasks. -/
lemma of_scheduler (h : Inv g done c) {s : PqpPipelineScheduler ι}
    (hs : s.tasks = c.scheduler.tasks) : Inv g done { c with scheduler := s } where
  holds := by
    show Tracks g done (submitted c.events) s.tasks
    rw [hs]
    exact h.holds
  settled := by
    show Settled s.tasks
    rw [hs]
    exact h.settled
  inOrder := h.inOrder
  messages := h.messages
  handlers := h.handlers
  processed := h.processed
  processed_nodup := h.processed_nodup
  processed_succeed := h.processed_succeed

/-- A worker sends a response. -/
lemma send (h : Inv g done c) (hsub : submit m.pipelineId ∈ c.events)
    (hlt : m.workerId < g.fragmentCount m.pipelineId) : Inv g done { c with
      messages := c.messages ++ [m]
      events := if m.isSuccess = true then c.events ++ [succeed m.pipelineId m.workerId]
        else c.events } := by
  obtain ⟨events, hevents⟩ : ∃ events, events = if m.isSuccess = true then
    c.events ++ [succeed m.pipelineId m.workerId] else c.events := ⟨_, rfl⟩
  have hmono : ∀ e ∈ c.events, e ∈ events := by
    intro e he
    rw [hevents]
    split
    · exact List.mem_append_left _ he
    · exact he
  have hsubmitted : submitted events = submitted c.events := by
    rw [hevents]
    split
    · simp [submitted]
    · rfl
  have horder : InOrder g events := by
    rw [hevents]
    split
    · exact h.inOrder.succeed _ _
    · exact h.inOrder
  rw [← hevents]
  refine ⟨hsubmitted ▸ h.holds, h.settled, horder, ?_, ?_, h.processed, h.processed_nodup, ?_⟩
  · intro m' hm'
    rcases List.mem_append.mp hm' with hm' | hm'
    · obtain ⟨hsub', hlt', hsucc⟩ := h.messages m' hm'
      exact ⟨hmono _ hsub', hlt', fun hs => hmono _ (hsucc hs)⟩
    · obtain rfl := List.mem_singleton.mp hm'
      refine ⟨hmono _ hsub, hlt, fun hs => ?_⟩
      show _ ∈ events
      rw [hevents, if_pos hs]
      exact List.mem_append_right _ (List.mem_singleton_self _)
  · intro x hx m' hm'
    obtain ⟨hmem, hid⟩ := h.handlers x hx m' hm'
    exact ⟨List.mem_append_left _ hmem, hid⟩
  · intro b k hk
    obtain ⟨hsub', hlt', hsucc⟩ := h.processed_succeed b k hk
    exact ⟨hmono _ hsub', hlt', hmono _ hsucc⟩

/-- A batch is received. -/
lemma receive (h : Inv g done c) {batch : List (PqpPipelineFragmentExecutionResult ι)}
    (hbatch : ∀ m ∈ batch, m ∈ c.messages ∧ m.pipelineId = a) :
    Inv g done { c with handlers := c.handlers ++ [⟨a, batch, .check⟩] } where
  holds := h.holds
  settled := h.settled
  inOrder := h.inOrder
  messages := h.messages
  handlers x hx m hm := by
    rcases List.mem_append.mp hx with hx | hx
    · exact h.handlers x hx m hm
    · obtain rfl := List.mem_singleton.mp hx
      exact hbatch m hm
  processed b := by
    have hnone : counting (c.handlers ++ [⟨a, batch, .check⟩]) b = counting c.handlers b := by
      rw [counting_append_cons]
      exact List.append_nil _
    rw [hnone]
    exact h.processed b
  processed_nodup := h.processed_nodup
  processed_succeed := h.processed_succeed

/-- The first message of a thread was sent by a worker of the thread's pipeline. -/
lemma message_eq (h : Inv g done c) {phase : HandlerPhase}
    (hh : c.handlers = l ++ ⟨a, m :: rest, phase⟩ :: r) :
    submit a ∈ c.events ∧ m.workerId < g.fragmentCount a ∧
      (m.isSuccess = true → succeed a m.workerId ∈ c.events) := by
  have hx : (⟨a, m :: rest, phase⟩ : Handler ι) ∈ c.handlers := by
    rw [hh]
    exact List.mem_append_right _ List.mem_cons_self
  obtain ⟨hmem, hid⟩ := h.handlers _ hx m List.mem_cons_self
  obtain rfl : m.pipelineId = a := hid
  exact h.messages m hmem

/-- The success of a worker is recorded. -/
lemma record (h : Inv g done c) (hh : c.handlers = l ++ ⟨a, m :: rest, .check⟩ :: r)
    (hsuccess : m.isSuccess = true)
    (hnew : m.workerId ∉ (c.collectors a).processedWorkerIds) : Inv g done { c with
      collectors := Function.update c.collectors a { c.collectors a with
        processedWorkerIds := m.workerId :: (c.collectors a).processedWorkerIds }
      handlers := l ++ ⟨a, m :: rest, .callback⟩ :: r } := by
  obtain ⟨hsub, hlt, hsucc⟩ := h.message_eq hh
  refine ⟨h.holds, h.settled, h.inOrder, h.messages,
    h.handlers_of_subset hh rfl (List.Subset.refl _), fun b => ?_, fun b => ?_, fun b => ?_⟩
  · show (Function.update c.collectors a _ b).processedWorkerIds.Perm _
    have hprocessed := h.processed b
    rw [hh, counting_append_cons] at hprocessed
    rw [counting_append_cons]
    rcases eq_or_ne b a with rfl | hne
    · have hcount : (⟨b, m :: rest, .callback⟩ : Handler ι).counting b = some m.workerId :=
        if_pos ⟨rfl, hsuccess⟩
      have hold : (c.collectors b).processedWorkerIds.Perm
          (done b ++ (counting l b ++ counting r b)) := hprocessed
      rw [Function.update_self, hcount]
      refine (hold.cons m.workerId).trans ?_
      rw [Option.toList_some, List.singleton_append, ← List.append_assoc, ← List.append_assoc]
      exact List.perm_middle.symm
    · have hcount : (⟨a, m :: rest, .callback⟩ : Handler ι).counting b = none :=
        if_neg fun hb => hne hb.1.symm
      rw [Function.update_of_ne hne, hcount]
      exact hprocessed
  · show (Function.update c.collectors a _ b).processedWorkerIds.Nodup
    rcases eq_or_ne b a with rfl | hne
    · rw [Function.update_self]
      exact List.nodup_cons.mpr ⟨hnew, h.processed_nodup b⟩
    · rw [Function.update_of_ne hne]
      exact h.processed_nodup b
  · show ∀ k ∈ (Function.update c.collectors a _ b).processedWorkerIds, _
    rcases eq_or_ne b a with rfl | hne
    · rw [Function.update_self]
      intro k hk
      rcases List.mem_cons.mp hk with rfl | hk
      · exact ⟨hsub, hlt, hsucc hsuccess⟩
      · exact h.processed_succeed b k hk
    · rw [Function.update_of_ne hne]
      exact h.processed_succeed b

/-- A collector that is started anew has recorded nothing before. -/
lemma processedWorkerIds_startCollectors (h : Inv g done c) {subs : List ι}
    (hsubs : ∀ b ∈ subs, submit b ∉ c.events) (b : ι) :
    (startCollectors subs c.collectors b).processedWorkerIds =
      (c.collectors b).processedWorkerIds := by
  rw [startCollectors]
  split
  · have hnone : (c.collectors b).processedWorkerIds = [] :=
      List.eq_nil_iff_forall_not_mem.mpr fun k hk =>
        hsubs b ‹_› (h.processed_succeed b k hk).1
    rw [hnone]
  · rfl

/-- The success of a worker is counted. -/
lemma count (h : Inv g done c) (hh : c.handlers = l ++ ⟨a, m :: rest, .count⟩ :: r)
    (hsuccess : m.isSuccess = true) {s : PqpPipelineScheduler ι} {subs : List ι}
    (hcall : countFragment a m c.scheduler = .ok (s, subs)) :
    Inv g (Tracks.count done a m.workerId) { c with
      scheduler := s
      collectors := startCollectors subs c.collectors
      handlers := l ++ ⟨a, m :: rest, .load⟩ :: r
      events := c.events ++ subs.map submit } := by
  obtain ⟨hsub, hlt, hsucc⟩ := h.message_eq hh
  have hcount : (⟨a, m :: rest, .count⟩ : Handler ι).counting a = some m.workerId :=
    if_pos ⟨rfl, hsuccess⟩
  have hnew : m.workerId ∉ done a := by
    have hnodup := (h.processed a).nodup_iff.mp (h.processed_nodup a)
    refine fun hk => (List.disjoint_of_nodup_append hnodup) hk ?_
    rw [hh, counting_append_cons, hcount]
    simp
  obtain ⟨s', subs', hcall', hholds, hsettled, -⟩ := h.holds.countFragment h.settled
    (mem_submitted.mpr hsub) hnew hlt m
  rw [hcall] at hcall'
  obtain ⟨rfl, rfl⟩ := Prod.mk.inj (Except.ok.inj hcall')
  have hfresh : ∀ b ∈ subs, submit b ∉ c.events := fun b hb he =>
    (List.disjoint_of_nodup_append hholds.submitted_nodup) (mem_submitted.mpr he) hb
  have hids := h.processedWorkerIds_startCollectors hfresh
  refine ⟨?_, hsettled, ?_, ?_, ?_, fun b => ?_, fun b => ?_, fun b => ?_⟩
  · rw [submitted_append, submitted_map_submit]
    exact hholds
  · refine h.inOrder.submit fun p hp hmem q hq hlink k hk => ?_
    have hfin := hholds.predecessors_finished p hp (List.mem_append_right _ hmem) _ hlink
    rw [← PipelineGraph.fragmentCount_identity hq] at hk
    rcases Tracks.mem_count.mp (hholds.mem_done hfin hk) with hk | ⟨hid, rfl⟩
    · have hprocessed := (h.processed q.identity).mem_iff.mpr (List.mem_append_left _ hk)
      exact (h.processed_succeed _ k hprocessed).2.2
    · rw [hid]
      exact hsucc hsuccess
  · intro m' hm'
    obtain ⟨hsub', hlt', hsucc'⟩ := h.messages m' hm'
    exact ⟨List.mem_append_left _ hsub', hlt', fun hs => List.mem_append_left _ (hsucc' hs)⟩
  · exact h.handlers_of_subset hh rfl (List.Subset.refl _)
  · have hprocessed := h.processed b
    rw [hh, counting_append_cons] at hprocessed
    rw [hids, counting_append_cons]
    refine hprocessed.trans ?_
    rcases eq_or_ne b a with rfl | hne
    · rw [hcount, Tracks.count_self, List.append_assoc]
      exact List.Perm.append_left _ List.perm_middle
    · have hother : (⟨a, m :: rest, .count⟩ : Handler ι).counting b = none :=
        if_neg fun hb => hne hb.1.symm
      rw [hother, Tracks.count_of_ne hne]
      exact List.Perm.refl _
  · rw [hids]
    exact h.processed_nodup b
  · rw [hids]
    intro k hk
    obtain ⟨hsub', hlt', hsucc'⟩ := h.processed_succeed b k hk
    exact ⟨List.mem_append_left _ hsub', hlt', List.mem_append_left _ hsucc'⟩

/-- The test for a duplicate. -/
lemma check (h : Inv g done c) (hh : c.handlers = l ++ ⟨a, m :: rest, .check⟩ :: r) :
    Inv g done { c with
      collectors := Function.update c.collectors a (checkMessage m rest a (c.collectors a)).2
      handlers := l ++ (checkMessage m rest a (c.collectors a)).1 :: r } := by
  by_cases hsuccess : m.isSuccess = true
  · by_cases hmem : m.workerId ∈ (c.collectors a).processedWorkerIds
    · -- a duplicate is dropped
      rw [checkMessage, if_pos hsuccess, if_pos hmem, Function.update_eq_self]
      exact h.of_handler hh rfl (List.subset_cons_self m rest) fun _ => rfl
    · rw [checkMessage, if_pos hsuccess, if_neg hmem]
      exact h.record hh hsuccess hmem
  · rw [checkMessage, if_neg hsuccess, Function.update_eq_self]
    exact h.of_handler hh rfl (List.Subset.refl _) fun b => if_neg fun hb => hsuccess hb.2

/-- A step that counts no failure keeps the invariant. -/
lemma step [ToString ι] (h : Inv g done c) {action : Action ι} {c' : Coordinator ι}
    (hstep : Step g c action c') (hok : ∀ m, action = .count m → m.isSuccess = true) :
    ∃ done', Inv g done' c' := by
  cases hstep with
  | send hsub hlt => exact ⟨done, h.send hsub hlt⟩
  | test hphase => exact ⟨done, h.updateCollector rfl⟩
  | receive batch hphase hlen hbatch => exact ⟨done, (h.receive hbatch).updateCollector rfl⟩
  | check hh => exact ⟨done, h.check hh⟩
  | @callback l r a m rest hh =>
    have hnext := h.of_handler (y := ⟨a, m :: rest, .count⟩) hh rfl (List.Subset.refl _) fun _ => rfl
    refine ⟨done, hnext.of_scheduler ?_⟩
    split <;> rfl
  | count hh hcall => exact ⟨_, h.count hh (hok _ rfl) hcall⟩
  | load hh => exact ⟨done, h.of_handler hh rfl (List.Subset.refl _) fun _ => rfl⟩
  | @store l r a m rest loaded hh =>
    have hnext := h.of_handler (y := ⟨a, rest, .check⟩) hh rfl (List.subset_cons_self m rest)
      fun _ => rfl
    exact ⟨done, hnext.updateCollector rfl⟩

end Inv

end

variable [LinearOrder ι] [ToString ι]

omit [ToString ι] in
/-- The coordinator starts. -/
lemma start_eq_ok (g : PipelineGraph ι) : ∃ c, start g = .ok c ∧ Inv g (fun _ => []) c := by
  obtain ⟨s, subs, hs, hholds, hsettled, -, horder⟩ := executeUntilWait_eq_ok g
  have hids : ∀ a, (startCollectors subs (fun _ => {}) a).processedWorkerIds = [] := by
    intro a
    rw [startCollectors]
    split <;> rfl
  refine ⟨_, by rw [start, hs]; rfl, ?_, hsettled, horder, fun m hm => ?_, fun h hh => ?_,
    fun a => ?_, fun a => ?_, fun a k hk => ?_⟩
  · rw [PipelineEvent.submitted_map_submit]
    exact hholds
  · cases hm
  · cases hh
  · rw [hids]
    exact List.Perm.refl _
  · rw [hids]
    exact List.nodup_nil
  · rw [hids] at hk
    cases hk

/-- The order in which pipelines are submitted and the counters of fragments are as they should. -/
structure Safe (g : PipelineGraph ι) (c : Coordinator ι) : Prop where
  in_order : PipelineEvent.InOrder g c.events
  no_underflow : ∀ t ∈ c.scheduler.tasks, t.fragmentsToFinishCount.underflowed = false

/-- **As long as no failure is counted** as a fragment, whatever the workers report, however often
messages are received and however the threads take turns, every pipeline is submitted after all
fragments of its predecessors have succeeded and no counter of fragments underflows. -/
theorem safe_of_count_success (g : PipelineGraph ι) : ∃ c₀, start g = .ok c₀ ∧
    ∀ as c, Run (Step g) c₀ as c → (∀ m, .count m ∈ as → m.isSuccess = true) → Safe g c := by
  obtain ⟨c₀, hstart, hinv⟩ := start_eq_ok g
  refine ⟨c₀, hstart, fun as c hrun hok => ?_⟩
  obtain ⟨done, h⟩ : ∃ done, Inv g done c := by
    refine hrun.invariant_of_forall (P := fun action : Action ι =>
      ∀ m, action = .count m → m.isSuccess = true) (I := fun c => ∃ done, Inv g done c)
      ⟨_, hinv⟩ (fun c action c' hP ⟨done, h⟩ hstep => h.step hstep hP) fun action haction m hm => ?_
    subst hm
    exact hok m haction
  refine ⟨h.inOrder, fun t ht => ?_⟩
  rw [(h.holds.task t ht).fragments]

/-! ### A failure is counted as a fragment -/

section

variable {g : PipelineGraph ι} {c : Coordinator ι} {a : ι}
  {m : PqpPipelineFragmentExecutionResult ι} {rest : List (PqpPipelineFragmentExecutionResult ι)}

/-- A thread handles a message that is no duplicate: the two parts of the callback make up the
callback. -/
lemma run_handle (hh : c.handlers = [⟨a, m :: rest, .check⟩])
    (hnew : m.isSuccess = true → m.workerId ∉ (c.collectors a).processedWorkerIds)
    {s : PqpPipelineScheduler ι} {subs : List ι}
    (hcall : onFragmentExecutionFinishedCallback a m c.scheduler = .ok (s, subs)) :
    ∃ as c', Run (Step g) c as c' ∧ (∀ m', .count m' ∈ as → m' = m) ∧
      c'.handlers = [⟨a, rest, .check⟩] ∧ c'.scheduler = s ∧
      c'.events = c.events ++ subs.map .submit := by
  obtain ⟨collector, hmsg⟩ : ∃ collector, checkMessage m rest a (c.collectors a) =
      (⟨a, m :: rest, .callback⟩, collector) := by
    by_cases hsuccess : m.isSuccess = true
    · exact ⟨_, by rw [checkMessage, if_pos hsuccess, if_neg (hnew hsuccess)]⟩
    · exact ⟨_, by rw [checkMessage, if_neg hsuccess]⟩
  have hcheck := Run.single (Step.check (g := g) (l := []) (r := []) hh)
  rw [hmsg] at hcheck
  have hstore := ((((hcheck.snoc (.callback (l := []) (r := []) rfl)).snoc
    (.count (l := []) (r := []) rfl hcall)).snoc (.load (l := []) (r := []) rfl)).snoc
    (.store (l := []) (r := []) rfl))
  exact ⟨_, _, hstore, by simp, rfl, rfl, rfl⟩

/-- The only worker of a pipeline sends a response, which is received twice. -/
lemma run_receive (hsub : .submit a ∈ c.events) (hlt : 0 < g.fragmentCount a)
    (hcollector : c.collectors a = { phase := some .test }) (hh : c.handlers = [])
    (hid : m.pipelineId = a) (hworker : m.workerId = 0) :
    ∃ as c', Run (Step g) c as c' ∧ (∀ m', .count m' ∉ as) ∧
      c'.handlers = [⟨a, [m, m], .check⟩] ∧ (c'.collectors a).processedWorkerIds = [] ∧
      c'.scheduler = c.scheduler ∧
      c'.events = if m.isSuccess = true then c.events ++ [.succeed a 0] else c.events := by
  obtain ⟨b, k, success, message⟩ := m
  obtain rfl : b = a := hid
  obtain rfl : k = 0 := hworker
  have hsend := Run.single (Step.send (g := g) (m := ⟨b, 0, success, message⟩) hsub hlt)
  have htest := hsend.snoc (.test (a := b) (by rw [hcollector]))
  have hreceive := htest.snoc (.receive (a := b)
    [⟨b, 0, success, message⟩, ⟨b, 0, success, message⟩] (by simp [hcollector, hlt]) (by simp) (by simp))
  refine ⟨_, _, hreceive, by simp, ?_, by simp [hcollector], rfl, rfl⟩
  show c.handlers ++ _ = _
  rw [hh]
  rfl

end

/-- The only worker of a pipeline without predecessors responds, and its response is received
twice: once it is counted, the successor of the pipeline is submitted. -/
lemma exists_run_response {g : PipelineGraph ι} {p q : PqpPipeline ι} (hp : p ∈ g.pipelines)
    (hq : q ∈ g.pipelines) (hone : p.fragmentDefinitions.length = 1) (hfirst : p.predecessors = [])
    (hlink : q.predecessors = [p.identity]) {m : PqpPipelineFragmentExecutionResult ι}
    (hid : m.pipelineId = p.identity) (hworker : m.workerId = 0) :
    ∃ c₀ as c done submitted, start g = .ok c₀ ∧ Run (Step g) c₀ as c ∧
      (∀ m', .count m' ∈ as → m' = m) ∧ .submit q.identity ∈ c.events ∧
      (.succeed p.identity 0 ∈ c.events → m.isSuccess = true) ∧
      c.handlers = [⟨p.identity, [m], .check⟩] ∧ Tracks g done submitted c.scheduler.tasks ∧
      g.finished done p.identity = true := by
  obtain ⟨s, subs, hs, hholds, hsettled, -, -⟩ := executeUntilWait_eq_ok g
  have hcount : g.fragmentCount p.identity = 1 := by
    rw [PipelineGraph.fragmentCount_identity hp, hone]
  have hsub : p.identity ∈ subs := by
    obtain ⟨t, ht, rfl⟩ := hholds.exists_task hp
    by_contra hwait
    have hready := (hholds.isReady_iff ht).mpr ⟨hwait, by simp [hfirst]⟩
    rw [hsettled t ht] at hready
    cases hready
  obtain ⟨c₀, hc₀⟩ : ∃ c₀ : Coordinator ι,
    c₀ = ⟨s, startCollectors subs fun _ => {}, [], [], subs.map .submit⟩ := ⟨_, rfl⟩
  have hstart : start g = .ok c₀ := by
    rw [start, hs, hc₀]
    rfl
  obtain ⟨as₁, c₁, hrun₁, hlabels₁, hh₁, hids₁, hs₁, he₁⟩ := run_receive (g := g) (c := c₀)
    (a := p.identity) (by rw [hc₀]; exact List.mem_map_of_mem hsub) (by omega)
    (by rw [hc₀]; exact if_pos hsub) (by rw [hc₀]) hid hworker
  have htasks : (if m.isSuccess = true then c₁.scheduler else recordError m c₁.scheduler).tasks =
      s.tasks := by
    rw [hs₁, hc₀]
    split <;> rfl
  obtain ⟨s₂, subs₂, hcall, hholds₂, hsettled₂, -⟩ := Tracks.countFragment (k := 0)
    (htasks ▸ hholds) (htasks ▸ hsettled) hsub (List.not_mem_nil) (by omega) m
  obtain ⟨as₂, c₂, hrun₂, hlabels₂, hh₂, hs₂, he₂⟩ := run_handle hh₁ (by simp [hids₁]) hcall
  have hfinished : g.finished (Tracks.count (fun _ => []) p.identity 0) p.identity = true := by
    rw [Tracks.finished_count_self, decide_eq_true_eq, hcount]
    exact Nat.le_add_left 1 _
  have hmem : q.identity ∈ subs ++ subs₂ := by
    obtain ⟨u, hu, rfl⟩ := hholds₂.exists_task hq
    by_contra hwait
    have hready := (hholds₂.isReady_iff hu).mpr ⟨hwait, by simpa [hlink] using hfinished⟩
    rw [hsettled₂ u hu] at hready
    cases hready
  refine ⟨c₀, _, c₂, _, _, hstart, hrun₁.trans hrun₂,
    fun m' h => (List.mem_append.mp h).elim (fun h => absurd h (hlabels₁ m')) (hlabels₂ m'),
    ?_, ?_, hh₂, hs₂ ▸ hholds₂, hfinished⟩
  · rw [he₂, he₁, hc₀]
    split <;> simpa using hmem
  · rw [he₂, he₁, hc₀]
    split
    · exact fun _ => ‹_›
    · simp

omit [ToString ι] in
/-- The counter of a task without fragments to finish underflows with the next response. -/
lemma countFragment_of_finished {g : PipelineGraph ι} {done : ι → List ℕ} {submitted : List ι}
    {s : PqpPipelineScheduler ι} (h : Tracks g done submitted s.tasks) {t : PqpPipelineTask ι}
    (ht : t ∈ s.tasks) (hfin : g.finished done t.identity = true)
    (m : PqpPipelineFragmentExecutionResult ι) :
    ∃ s', countFragment t.identity m s = .ok (s', []) ∧
      ∃ u ∈ s'.tasks, u.fragmentsToFinishCount.underflowed = true := by
  have hunderflow : (t.addResult m).fragmentsToFinishCount = ⟨2 ^ 64 - 1, true⟩ := by
    show t.fragmentsToFinishCount.decrement = _
    rw [(h.task t ht).fragments, Nat.sub_eq_zero_of_le (of_decide_eq_true hfin)]
    rfl
  have hcall := countFragment_eq_ok m h.identity_nodup ht fun a ha =>
    h.map_identity_perm.mem_iff.mpr (g.successors_mem _ (h.mem_pipelines ht) a ha)
  rw [if_neg (by rw [hunderflow]; decide)] at hcall
  exact ⟨_, hcall, t.addResult m, List.mem_map.mpr ⟨t, ht, if_pos rfl⟩, by rw [hunderflow]⟩

/-- A fragment that reads no objects. -/
def noInputs : PipelineFragmentDefinition := ⟨.empty, ⟨"bucket", "object", [], none⟩, .orc⟩

/-- A pipeline with one fragment. -/
def singleFragment (a : ℕ) : PqpPipeline ℕ := ⟨a, [noInputs], [], []⟩

/-- Two pipelines, the first of which is the predecessor of the second. -/
def twoPipelines : PipelineGraph ℕ where
  pipelines := PqpPipeline.setAsPredecessorOf [singleFragment 0, singleFragment 1] 0 1
  identities_nodup := by decide
  fragments_ne_nil := by decide
  predecessors_mem := by decide
  successors_mem := by decide
  linked := (PqpPipeline.linked_of_unlinked (by decide)).setAsPredecessorOf 0 1
  acyclic := by
    refine Acyclic.of_rank id fun a b => ?_
    rintro ⟨q, hq, rfl, ha⟩
    have hlt : ∀ q ∈ PqpPipeline.setAsPredecessorOf [singleFragment 0, singleFragment 1] 0 1,
      ∀ a ∈ q.predecessors, a < q.identity := by decide
    exact hlt q hq a ha

/-- The responses of the only worker of the first of the two pipelines. -/
def response (isSuccess : Bool) : PqpPipelineFragmentExecutionResult ℕ := ⟨0, 0, isSuccess, ""⟩

lemma exists_run_twoPipelines (isSuccess : Bool) :
    ∃ c₀ as c done submitted, start twoPipelines = .ok c₀ ∧ Run (Step twoPipelines) c₀ as c ∧
      (∀ m, .count m ∈ as → m = response isSuccess) ∧ .submit 1 ∈ c.events ∧
      (.succeed 0 0 ∈ c.events → isSuccess = true) ∧
      c.handlers = [⟨0, [response isSuccess], .check⟩] ∧
      Tracks twoPipelines done submitted c.scheduler.tasks ∧
      twoPipelines.finished done 0 = true :=
  exists_run_response (g := twoPipelines) (p := ⟨0, [noInputs], [], [1]⟩)
    (q := ⟨1, [noInputs], [0], []⟩) List.mem_cons_self
    (List.mem_cons_of_mem _ List.mem_cons_self) rfl rfl rfl (m := response isSuccess) rfl rfl

/-- The second pipeline is submitted in a run in which the success of the first is received twice. -/
theorem safe_twoPipelines : ∃ c : Coordinator ℕ, .submit 1 ∈ c.events ∧ Safe twoPipelines c := by
  obtain ⟨c₀, as, c, -, -, hstart, hrun, hlabels, hsub, -⟩ := exists_run_twoPipelines true
  obtain ⟨c₀', hstart', hsafe⟩ := safe_of_count_success twoPipelines
  obtain rfl : c₀ = c₀' := Except.ok.inj (hstart.symm.trans hstart')
  exact ⟨c, hsub, hsafe as c hrun fun m hm => by rw [hlabels m hm]; rfl⟩

/-- A failure of the first pipeline that is received twice: the second pipeline is submitted
although no fragment has succeeded, and the counter of fragments underflows. -/
theorem unsafe_twoPipelines : ∃ c₀ as c, start twoPipelines = .ok c₀ ∧
    Run (Step twoPipelines) c₀ as c ∧ ¬ PipelineEvent.InOrder twoPipelines c.events ∧
    ∃ t ∈ c.scheduler.tasks, t.fragmentsToFinishCount.underflowed = true := by
  obtain ⟨c₀, as, c, done, submitted, hstart, hrun, -, hsub, hsucc, hh, hholds, hfin⟩ :=
    exists_run_twoPipelines false
  obtain ⟨t, ht, hid⟩ := hholds.exists_task (p := ⟨0, [noInputs], [], [1]⟩)
    List.mem_cons_self
  have hid : t.identity = 0 := congrArg PqpPipeline.identity hid
  obtain ⟨s, hcall, hunderflow⟩ := countFragment_of_finished
    (s := recordError (response false) c.scheduler) hholds ht (hid ▸ hfin) (response false)
  rw [hid] at hcall
  obtain ⟨as', c', hrun', -, -, hs, he⟩ := run_handle (g := twoPipelines) hh (by simp [response])
    hcall
  have hnone : PipelineEvent.succeed 0 0 ∉ c'.events := by
    rw [he, List.map_nil, List.append_nil]
    exact fun h => Bool.false_ne_true (hsucc h)
  refine ⟨c₀, _, c', hstart, hrun.trans hrun', fun horder => hnone ?_, hs ▸ hunderflow⟩
  obtain ⟨before, after, hsplit⟩ := List.append_of_mem (he ▸ List.mem_append_left _ hsub)
  have hall := horder ⟨1, [noInputs], [0], []⟩
    (List.mem_cons_of_mem _ List.mem_cons_self) before after hsplit
    ⟨0, [noInputs], [], [1]⟩ List.mem_cons_self List.mem_cons_self
  rw [hsplit]
  exact List.mem_append_left _ (hall 0 Nat.one_pos)

end LambdaExecutor

end Skyrise

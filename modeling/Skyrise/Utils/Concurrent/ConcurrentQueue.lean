/-
The concurrent queue.

Every operation of `ConcurrentQueue` holds the mutex while it looks at the queue
and at the flag, so that this part of it is one step of its thread; it notifies
after it has released the mutex, in another step.  A receiver that finds nothing
in an open queue releases the mutex and falls asleep at once, and tests again
when it is woken, which may happen without a notification.

The values that are received are those that were inserted, in their order, at all
times.  The rest of the contract has two gaps: the overload of `Push` that copies
ends without an answer, and `TryPop` leaves the values in a closed queue.
-/
import Skyrise.Concurrency.Threads

namespace Skyrise

open Concurrency

/-! ### The queue and its operations -/

/-- A call of `Push` that has ended. -/
structure PushCall where
  /-- Whether the value was inserted. -/
  inserted : Bool
  /-- What the call returned, if it did. -/
  answer : Option Bool
deriving DecidableEq, Repr

/-- A call of `Pop` or `TryPop` that has ended. -/
structure PopCall where
  /-- Whether the queue was empty when the call had the mutex for the last time. -/
  wasEmpty : Bool
  /-- What the call returned. -/
  answer : Bool
deriving DecidableEq, Repr

/-- The queue, with the history of the calls. -/
structure ConcurrentQueue (α : Type) where
  queue : List α := []
  closed : Bool := false
  /-- The receivers that sleep on `queue_can_read_` and were not notified. -/
  sleeping : List ℕ := []
  /-- How many receivers have fallen asleep. -/
  sleepers : ℕ := 0
  /-- The values that were inserted, in this order. -/
  inserted : List α := []
  /-- How many values were inserted before the queue was closed, if it was. -/
  insertedAtClose : Option ℕ := none
  /-- The values that were received, in this order. -/
  received : List α := []
  pushes : List PushCall := []
  pops : List PopCall := []
deriving DecidableEq, Repr

namespace ConcurrentQueue

variable {α : Type}

/-- The overloads of `Push`. -/
inductive Overload where
  /-- `Push(const T&)`. -/
  | copy
  /-- `Push(T&&)`. -/
  | move
deriving DecidableEq, Repr

/-- What a call of an overload returns after it has inserted the value. -/
def Overload.answer : Overload → Option Bool
  -- there is no `return` after the notification
  | copy => none
  | move => some true

/-- What a thread has to do next. -/
inductive QueueFrame (α : Type) where
  /-- Any code that uses the queue. -/
  | client
  | push (overload : Overload) (value : α)
  /-- `Push` after it has released the mutex. -/
  | pushed (overload : Overload)
  /-- `Pop`, and whether it is called until it returns `false`. -/
  | pop (again : Bool)
  /-- `Pop` inside `wait`. -/
  | asleep (sleeper : ℕ) (again : Bool)
  | tryPop
  /-- `Pop` and `TryPop` after they have released the mutex: `queue_can_write_.notify_one`. -/
  | popped
  | close
  /-- `Close` before `queue_can_write_.notify_all`. -/
  | notifyWriters
  /-- `Close` before `queue_can_read_.notify_all`. -/
  | notifyReaders
deriving DecidableEq, Repr

/-- What a step leaves open. -/
inductive QueueChoice (α : Type) where
  /-- A client calls an operation. -/
  | push (overload : Overload) (value : α)
  | pop
  | tryPop
  | close
  /-- A client ends, or a frame leaves nothing open. -/
  | finish
  /-- The receiver that `notify_one` wakes. -/
  | wake (sleeper : ℕ)
  /-- A receiver wakes up without a notification. -/
  | spurious
deriving DecidableEq, Repr

/-- Executing a frame. -/
def exec (frame : QueueFrame α) (choice : QueueChoice α) (s : ConcurrentQueue α) :
    Outcome (QueueFrame α) (ConcurrentQueue α) Unit :=
  match frame with
  | .client =>
    match choice with
    | .push overload value => .ok [.push overload value, .client] s
    | .pop => .ok [.pop false, .client] s
    | .tryPop => .ok [.tryPop, .client] s
    | .close => .ok [.close, .client] s
    | .finish => .ok [] s
    | _ => .blocked
  | .push overload value =>
    if s.closed then .ok [] { s with pushes := s.pushes ++ [⟨false, some false⟩] }
    else .ok [.pushed overload]
      { s with queue := s.queue ++ [value], inserted := s.inserted ++ [value] }
  | .pushed overload =>
    let pushes := s.pushes ++ [⟨true, overload.answer⟩]
    if s.sleeping.isEmpty then .ok [] { s with pushes := pushes }
    else
      match choice with
      | .wake sleeper =>
        if sleeper ∈ s.sleeping then
          .ok [] { s with pushes := pushes, sleeping := s.sleeping.erase sleeper }
        else .blocked
      | _ => .blocked
  | .pop again =>
    match s.queue with
    | value :: queue => .ok (.popped :: if again then [.pop true] else [])
        { s with
          queue := queue
          received := s.received ++ [value]
          pops := s.pops ++ [⟨s.queue.isEmpty, true⟩] }
    | [] =>
      if s.closed then .ok [] { s with pops := s.pops ++ [⟨s.queue.isEmpty, false⟩] }
      else .ok [.asleep s.sleepers again]
        { s with sleeping := s.sleeping ++ [s.sleepers], sleepers := s.sleepers + 1 }
  | .asleep sleeper again =>
    if sleeper ∈ s.sleeping then
      match choice with
      | .spurious => .ok [.pop again] { s with sleeping := s.sleeping.erase sleeper }
      | _ => .blocked
    else .ok [.pop again] s
  | .tryPop =>
    match s.queue with
    | value :: queue =>
      if s.closed then .ok [] { s with pops := s.pops ++ [⟨s.queue.isEmpty, false⟩] }
      else .ok [.popped]
        { s with
          queue := queue
          received := s.received ++ [value]
          pops := s.pops ++ [⟨s.queue.isEmpty, true⟩] }
    | [] => .ok [] { s with pops := s.pops ++ [⟨s.queue.isEmpty, false⟩] }
  -- nobody sleeps on `queue_can_write_`
  | .popped => .ok [] s
  | .close => .ok [.notifyWriters]
      { s with
        closed := true
        insertedAtClose := s.insertedAtClose.or (some s.inserted.length) }
  | .notifyWriters => .ok [.notifyReaders] s
  | .notifyReaders => .ok [] { s with sleeping := [] }

/-- The steps of the threads. -/
abbrev Step : Machine (QueueFrame α) (ConcurrentQueue α) → ℕ × QueueChoice α →
    Machine (QueueFrame α) (ConcurrentQueue α) → Prop :=
  Machine.Step exec

/-- An open queue without values, a number of clients and a number of threads that receive until
`Pop` returns `false`. -/
def initial (α : Type) (numClients numPoppers : ℕ) :
    Machine (QueueFrame α) (ConcurrentQueue α) where
  shared := {}
  threads := List.replicate numClients [.client] ++ List.replicate numPoppers [.pop true]

/-! ### The contract -/

/-- No step is enabled.  That a receiver may wake up without a notification is not relied on. -/
def Stuck (m : Machine (QueueFrame α) (ConcurrentQueue α)) : Prop :=
  ∀ a m', a.2 ≠ .spurious → ¬ Step m a m'

/-- The contract of the queue, for a number of threads that receive until `Pop` returns `false`. -/
structure Contract (numPoppers : ℕ) (m : Machine (QueueFrame α) (ConcurrentQueue α)) : Prop where
  /-- The values are received in the order in which they were inserted, each once at most. -/
  order : m.shared.inserted = m.shared.received ++ m.shared.queue
  /-- `Push` returns whether the value was inserted. -/
  answers : ∀ call ∈ m.shared.pushes, call.answer = some call.inserted
  /-- Nothing is inserted after the queue was closed. -/
  closed : ∀ n, m.shared.insertedAtClose = some n → m.shared.inserted.length = n
  /-- A receiver that returns without a value has found none. -/
  receives : ∀ call ∈ m.shared.pops, call.answer = false → call.wasEmpty = true
  /-- The values in a closed queue are received before the threads stop. -/
  drained : 0 < numPoppers → Stuck m → m.shared.closed = true → m.shared.queue = []

/-- A step in which neither the copying overload of `Push` inserts a value nor `TryPop` meets a
closed queue with values. -/
def AvoidsGaps (m : Machine (QueueFrame α) (ConcurrentQueue α)) (a : ℕ × QueueChoice α) : Prop :=
  (∀ value, m.Top a.1 (.push .copy value) → m.shared.closed = true) ∧
    (m.Top a.1 .tryPop → m.shared.closed = true → m.shared.queue = [])

/-! ### The invariant -/

/-- The frames with which a thread receives until `Pop` returns `false`. -/
def QueueFrame.Pops : QueueFrame α → Prop
  | .pop again | .asleep _ again => again = true
  | _ => False

/-- The frames of a call of `Close` that has yet to wake the receivers. -/
def QueueFrame.Wakes : QueueFrame α → Prop
  | .notifyWriters | .notifyReaders => True
  | _ => False

/-- What holds of the queue and the frames of all threads. -/
structure Inv (numPoppers : ℕ) (s : ConcurrentQueue α) (F : Multiset (QueueFrame α)) : Prop where
  order : s.inserted = s.received ++ s.queue
  answers : ∀ call ∈ s.pushes, call.answer = some call.inserted
  insertedAtClose : ∀ n, s.insertedAtClose = some n → s.closed = true ∧ s.inserted.length = n
  receives : ∀ call ∈ s.pops, call.answer = false → call.wasEmpty = true
  /-- The copying overload has inserted nothing. -/
  moved : .pushed .copy ∉ F
  /-- After the queue was closed nobody falls asleep. -/
  awake : s.closed = true → s.sleeping = [] ∨ ∃ f ∈ F, f.Wakes
  /-- The threads that receive go on until the queue is closed and empty. -/
  popping : 0 < numPoppers → (∃ f ∈ F, f.Pops) ∨ s.closed = true ∧ s.queue = []

variable {numClients numPoppers : ℕ} {s s' : ConcurrentQueue α} {f : QueueFrame α}
  {fs : List (QueueFrame α)} {c : QueueChoice α} {rest : Multiset (QueueFrame α)}

lemma inv_initial (α : Type) (numClients numPoppers : ℕ) :
    Inv numPoppers (initial α numClients numPoppers).shared
      (initial α numClients numPoppers).frames := by
  refine ⟨rfl, by simp [initial], by simp [initial], by simp [initial], ?_, by simp [initial],
    fun hpos => .inl ⟨.pop true, ?_, rfl⟩⟩
  · rw [Machine.mem_frames]
    rintro ⟨thread, hthread, hmem⟩
    rcases List.mem_append.mp hthread with hthread | hthread
    · rw [List.eq_of_mem_replicate hthread] at hmem
      simp at hmem
    · rw [List.eq_of_mem_replicate hthread] at hmem
      simp at hmem
  · refine Machine.mem_frames.mpr ⟨[.pop true], ?_, List.mem_singleton_self _⟩
    exact List.mem_append_right _ (List.mem_replicate.mpr ⟨hpos.ne', rfl⟩)

/-- Frames that take the place of another and leave the queue alone. -/
lemma Inv.replace (h : Inv numPoppers s (f ::ₘ rest)) (fs : List (QueueFrame α))
    (hcopy : .pushed .copy ∉ fs)
    (hwakes : f.Wakes → ∃ g ∈ fs, g.Wakes) (hpops : f.Pops → ∃ g ∈ fs, g.Pops) :
    Inv numPoppers s (↑fs + rest) := by
  refine ⟨h.order, h.answers, h.insertedAtClose, h.receives, ?_, fun hclosed => ?_, fun hpos => ?_⟩
  · rw [Multiset.mem_add, Multiset.mem_coe]
    exact not_or.mpr ⟨hcopy, fun hmem => h.moved (Multiset.mem_cons_of_mem hmem)⟩
  · exact (h.awake hclosed).imp_right (Machine.exists_mem_of_replace hwakes)
  · exact (h.popping hpos).imp_left (Machine.exists_mem_of_replace hpops)

/-- The history of the receivers. -/
lemma Inv.appendPop {F : Multiset (QueueFrame α)} (h : Inv numPoppers s F) {call : PopCall}
    (hcall : call.answer = false → call.wasEmpty = true) :
    Inv numPoppers { s with pops := s.pops ++ [call] } F := by
  refine ⟨h.order, h.answers, h.insertedAtClose, ?_, h.moved, h.awake, h.popping⟩
  exact List.forall_mem_append.mpr ⟨h.receives, by simpa using hcall⟩

/-- The history of the senders. -/
lemma Inv.appendPush {F : Multiset (QueueFrame α)} (h : Inv numPoppers s F) {call : PushCall}
    (hcall : call.answer = some call.inserted) :
    Inv numPoppers { s with pushes := s.pushes ++ [call] } F := by
  refine ⟨h.order, ?_, h.insertedAtClose, h.receives, h.moved, h.awake, h.popping⟩
  exact List.forall_mem_append.mpr ⟨h.answers, by simpa using hcall⟩

/-- A value is received. -/
lemma Inv.receive {F : Multiset (QueueFrame α)} (h : Inv numPoppers s F) {value : α}
    {queue : List α} (hqueue : s.queue = value :: queue) :
    Inv numPoppers { s with queue := queue, received := s.received ++ [value] } F := by
  refine ⟨?_, h.answers, h.insertedAtClose, h.receives, h.moved, h.awake, fun hpos => ?_⟩
  · rw [h.order, hqueue, List.append_assoc]
    rfl
  · refine (h.popping hpos).imp_right ?_
    rintro ⟨-, hempty⟩
    rw [hqueue] at hempty
    cases hempty

/-- A receiver is woken. -/
lemma Inv.wake {F : Multiset (QueueFrame α)} (h : Inv numPoppers s F) (sleeper : ℕ) :
    Inv numPoppers { s with sleeping := s.sleeping.erase sleeper } F := by
  refine ⟨h.order, h.answers, h.insertedAtClose, h.receives, h.moved, fun hclosed => ?_, h.popping⟩
  refine (h.awake hclosed).imp_left fun hnone => ?_
  rw [hnone]
  rfl

/-- A step that avoids the gaps keeps the invariant. -/
lemma Inv.exec (h : Inv numPoppers s (f ::ₘ rest))
    (hpush : ∀ value, f = .push .copy value → s.closed = true)
    (htry : f = .tryPop → s.closed = true → s.queue = [])
    (hexec : ConcurrentQueue.exec f c s = .ok fs s') : Inv numPoppers s' (↑fs + rest) := by
  cases f with
  | client =>
    cases c <;> cases hexec <;>
      exact h.replace _ (by simp) (fun hw => hw.elim) fun hp => hp.elim
  | push overload value =>
    simp only [ConcurrentQueue.exec] at hexec
    split at hexec
    · cases hexec
      exact (h.replace [] (by simp) (fun hw => hw.elim) fun hp => hp.elim).appendPush rfl
    · next hopen =>
      cases hexec
      have hcopy : overload ≠ .copy := by
        rintro rfl
        exact hopen (hpush value rfl)
      have hnext := h.replace [.pushed overload] (by simpa using hcopy.symm)
        (fun hw => hw.elim) fun hp => hp.elim
      refine ⟨?_, hnext.answers, fun n hn => ?_, hnext.receives, hnext.moved, hnext.awake,
        fun hpos => ?_⟩
      · exact (congrArg (· ++ [value]) h.order).trans (List.append_assoc _ _ _)
      · exact absurd (h.insertedAtClose n hn).1 hopen
      · refine (hnext.popping hpos).imp_right fun hclosed => ?_
        exact absurd hclosed.1 hopen
  | pushed overload =>
    have hmoved : overload = .move := by
      cases overload with
      | copy => exact absurd (Multiset.mem_cons_self _ _) h.moved
      | move => rfl
    have hnext := h.replace [] (by simp) (fun hw => hw.elim) fun hp => hp.elim
    have hanswer : ({ inserted := true, answer := overload.answer } : PushCall).answer =
        some true := by
      rw [hmoved]
      rfl
    simp only [ConcurrentQueue.exec] at hexec
    split at hexec
    · cases hexec
      exact hnext.appendPush hanswer
    · split at hexec
      · split at hexec <;> cases hexec
        exact (hnext.wake _).appendPush hanswer
      · cases hexec
  | pop again =>
    simp only [ConcurrentQueue.exec] at hexec
    split at hexec
    · next value queue hqueue =>
      cases hexec
      refine (Inv.receive ?_ hqueue).appendPop (by simp)
      refine h.replace _ ?_ (fun hw => hw.elim) ?_
      · cases again <;> simp
      · rintro (rfl : again = true)
        exact ⟨.pop true, by simp, rfl⟩
    · next hempty =>
      split at hexec
      · next hclosed =>
        cases hexec
        refine Inv.appendPop ?_ (by simp [hempty])
        refine ⟨h.order, h.answers, h.insertedAtClose, h.receives, ?_, fun hcl => ?_,
          fun _ => .inr ⟨hclosed, hempty⟩⟩
        · simpa using fun hmem => h.moved (Multiset.mem_cons_of_mem hmem)
        · exact (h.awake hcl).imp_right (Machine.exists_mem_of_replace (P := QueueFrame.Wakes) False.elim)
      · next hopen =>
        cases hexec
        have hnext := h.replace [.asleep s.sleepers again] (by simp) (fun hw => hw.elim)
          fun hp => ⟨_, List.mem_singleton_self _, hp⟩
        exact ⟨hnext.order, hnext.answers, hnext.insertedAtClose, hnext.receives, hnext.moved,
          fun hclosed => absurd hclosed hopen, hnext.popping⟩
  | asleep sleeper again =>
    have hnext := h.replace [.pop again] (by simp) (fun hw => hw.elim)
      fun hp => ⟨_, List.mem_singleton_self _, hp⟩
    simp only [ConcurrentQueue.exec] at hexec
    split at hexec
    · split at hexec <;> cases hexec
      exact hnext.wake _
    · cases hexec
      exact hnext
  | tryPop =>
    simp only [ConcurrentQueue.exec] at hexec
    split at hexec
    · next value queue hqueue =>
      split at hexec
      · next hclosed =>
        rw [htry rfl hclosed] at hqueue
        cases hqueue
      · cases hexec
        refine (Inv.receive ?_ hqueue).appendPop (by simp)
        exact h.replace _ (by simp) (fun hw => hw.elim) fun hp => hp.elim
    · next hempty =>
      cases hexec
      exact (h.replace [] (by simp) (fun hw => hw.elim) fun hp => hp.elim).appendPop (by simp [hempty])
  | popped =>
    cases hexec
    exact h.replace _ (by simp) (fun hw => hw.elim) fun hp => hp.elim
  | close =>
    cases hexec
    have hnext := h.replace [.notifyWriters] (by simp) (fun hw => hw.elim) fun hp => hp.elim
    refine ⟨hnext.order, hnext.answers, fun n hn => ⟨rfl, ?_⟩, hnext.receives, hnext.moved,
      fun _ => .inr ⟨.notifyWriters, by simp, trivial⟩, fun hpos => ?_⟩
    · cases hclose : s.insertedAtClose with
      | none =>
        rw [hclose] at hn
        exact Option.some.inj hn
      | some k =>
        rw [hclose] at hn
        exact ((h.insertedAtClose k hclose).2).trans (Option.some.inj hn)
    · exact (hnext.popping hpos).imp_right fun hdone => ⟨rfl, hdone.2⟩
  | notifyWriters =>
    cases hexec
    exact h.replace _ (by simp) (fun _ => ⟨_, List.mem_singleton_self _, trivial⟩) fun hp => hp.elim
  | notifyReaders =>
    cases hexec
    refine ⟨h.order, h.answers, h.insertedAtClose, h.receives, ?_, fun _ => .inl rfl, fun hpos => ?_⟩
    · simpa using fun hmem => h.moved (Multiset.mem_cons_of_mem hmem)
    · exact (h.popping hpos).imp_left (Machine.exists_mem_of_replace (P := QueueFrame.Pops) False.elim)

/-! ### States without enabled steps -/

/-- Only the code that called an operation stands beneath its frames. -/
def Beneath (_ g : QueueFrame α) : Prop := g = .client ∨ g = .pop true

lemma pairwise_beneath {as : List (ℕ × QueueChoice α)}
    {m : Machine (QueueFrame α) (ConcurrentQueue α)}
    (h : Run Step (initial α numClients numPoppers) as m) :
    ∀ thread ∈ m.threads, thread.Pairwise Beneath := by
  refine Machine.pairwise_of_run (fun thread hthread => ?_) (fun f c s fs s' hexec => ⟨?_, ?_⟩) h
  · rcases List.mem_append.mp hthread with hthread | hthread
    · rw [List.eq_of_mem_replicate hthread]
      exact List.pairwise_singleton _ _
    · rw [List.eq_of_mem_replicate hthread]
      exact List.pairwise_singleton _ _
  · cases f with
    | client => cases c <;> cases hexec <;> simp [Beneath]
    | pop again =>
      simp only [ConcurrentQueue.exec] at hexec
      split at hexec
      · cases hexec
        cases again <;> simp [Beneath]
      · split at hexec <;> cases hexec <;> simp
    | push | pushed | asleep | tryPop =>
      simp only [ConcurrentQueue.exec] at hexec
      repeat' split at hexec
      all_goals cases hexec
      all_goals simp
    | popped | close | notifyWriters | notifyReaders =>
      cases hexec
      simp
  · exact fun _ _ _ h => h

/-- A frame that is not a receiver asleep can be executed. -/
lemma exists_exec (s : ConcurrentQueue α)
    (hawake : ∀ sleeper again, f = .asleep sleeper again → sleeper ∉ s.sleeping) :
    ∃ c fs s', c ≠ .spurious ∧ ConcurrentQueue.exec f c s = .ok fs s' := by
  cases f with
  | client => exact ⟨.finish, _, _, by simp, rfl⟩
  | push overload value =>
    by_cases hclosed : s.closed = true
    · exact ⟨.finish, _, _, by simp, if_pos hclosed⟩
    · exact ⟨.finish, _, _, by simp, if_neg hclosed⟩
  | pushed overload =>
    cases hsleeping : s.sleeping with
    | nil => exact ⟨.finish, _, _, by simp, by simp only [ConcurrentQueue.exec, hsleeping]; rfl⟩
    | cons sleeper sleeping =>
      exact ⟨.wake sleeper, _, _, by simp, by
        simp only [ConcurrentQueue.exec, hsleeping, List.mem_cons_self, if_true]
        rfl⟩
  | pop | tryPop =>
    cases hqueue : s.queue <;> cases hclosed : s.closed <;>
      exact ⟨.finish, _, _, by simp, by simp only [ConcurrentQueue.exec, hqueue, hclosed]; rfl⟩
  | asleep sleeper again =>
    exact ⟨.finish, _, _, by simp, if_neg (hawake sleeper again rfl)⟩
  | popped | close | notifyWriters | notifyReaders => exact ⟨.finish, _, _, by simp, rfl⟩

/-- If no step is enabled, then the threads that have not ended are asleep. -/
lemma Stuck.asleep {m : Machine (QueueFrame α) (ConcurrentQueue α)} (h : Stuck m) {i : ℕ}
    (htop : m.Top i f) : ∃ sleeper again, f = .asleep sleeper again ∧ sleeper ∈ m.shared.sleeping := by
  by_contra hnot
  obtain ⟨c, fs, s', hc, hexec⟩ := exists_exec m.shared fun sleeper again hf hmem =>
    hnot ⟨sleeper, again, hf, hmem⟩
  obtain ⟨m', hm'⟩ := htop.exists_step hexec
  exact h (i, c) m' hc hm'

/-- The values in a closed queue are received before the threads stop. -/
lemma Inv.drained {m : Machine (QueueFrame α) (ConcurrentQueue α)}
    (h : Inv numPoppers m.shared m.frames) (hbeneath : ∀ thread ∈ m.threads, thread.Pairwise Beneath)
    (hpos : 0 < numPoppers) (hstuck : Stuck m) (hclosed : m.shared.closed = true) :
    m.shared.queue = [] := by
  rcases h.popping hpos with ⟨f, hf, -⟩ | hdone
  · -- a thread that has not ended is asleep, and a call of `Close` has yet to wake it
    obtain ⟨i, g, htop, -⟩ := Machine.top_or_beneath hbeneath hf
    obtain ⟨sleeper, again, -, hmem⟩ := hstuck.asleep htop
    rcases h.awake hclosed with hnone | ⟨notifier, hnotifier, hwakes⟩
    · rw [hnone] at hmem
      cases hmem
    · obtain ⟨j, g', htop', rfl | hbelow⟩ := Machine.top_or_beneath hbeneath hnotifier
      · obtain ⟨_, _, rfl, -⟩ := hstuck.asleep htop'
        exact hwakes.elim
      · rcases hbelow with rfl | rfl
        · exact hwakes.elim
        · exact hwakes.elim
  · exact hdone.2

/-! ### Every run -/

/-- **If in no step of a run the copying overload of `Push` inserts a value or `TryPop` meets a
closed queue with values, the queue keeps its contract in every state.** -/
theorem contract_of_avoidsGaps (α : Type) (numClients numPoppers : ℕ)
    {as : List (ℕ × QueueChoice α)} {m : Machine (QueueFrame α) (ConcurrentQueue α)}
    (h : Run (fun m a m' => AvoidsGaps m a ∧ Step m a m') (initial α numClients numPoppers) as m) :
    Contract numPoppers m := by
  have hinv : Inv numPoppers m.shared m.frames := by
    refine h.invariant (I := fun m => Inv numPoppers m.shared m.frames)
      (inv_initial α numClients numPoppers) fun m a m' hm hstep => ?_
    obtain ⟨f, k, fs, rest, htop, hexec, -, hold, hnew⟩ := hstep.2.exists_frame
    rw [hnew]
    refine Inv.exec (hold ▸ hm) (fun value hf => ?_) (fun hf => ?_) hexec
    · exact hstep.1.1 value ⟨k, hf ▸ htop⟩
    · exact hstep.1.2 ⟨k, hf ▸ htop⟩
  have hbeneath := pairwise_beneath (h.mono fun _ _ _ hstep => hstep.2)
  exact ⟨hinv.order, hinv.answers, fun n hn => (hinv.insertedAtClose n hn).2, hinv.receives,
    fun hpos hstuck hclosed => hinv.drained hbeneath hpos hstuck hclosed⟩

/-- Any other step avoids the gaps. -/
lemma avoidsGaps_of_top {m : Machine (QueueFrame α) (ConcurrentQueue α)} {a : ℕ × QueueChoice α}
    (htop : m.Top a.1 f) (hpush : ∀ value, f ≠ .push .copy value) (htry : f ≠ .tryPop) :
    AvoidsGaps m a := by
  have hunique : ∀ g, m.Top a.1 g → f = g := by
    rintro g ⟨k', hk'⟩
    obtain ⟨k, hk⟩ := htop
    exact (List.cons.inj (Option.some.inj (hk.symm.trans hk'))).1
  exact ⟨fun value h => absurd (hunique _ h) (hpush value), fun h => absurd (hunique _ h) htry⟩

/-- A client moves a value into the queue and a thread receives it. -/
theorem contract_of_avoidsGaps_move : ∃ as m,
    Run (fun m a m' => AvoidsGaps m a ∧ Step m a m') (initial ℕ 1 1) as m ∧
      m.shared.received = [5] ∧ Contract 1 m := by
  have hcall : Step (initial ℕ 1 1) (0, .push .move 5)
      ⟨{}, [[.push .move 5, .client], [.pop true]]⟩ := rfl
  have hpush : Step ⟨{}, [[.push .move 5, .client], [.pop true]]⟩ (0, .finish)
      ⟨{ queue := [5], inserted := [5] }, [[.pushed .move, .client], [.pop true]]⟩ := rfl
  have hpop : Step ⟨{ queue := [5], inserted := [5] }, [[.pushed .move, .client], [.pop true]]⟩
      (1, .finish) ⟨{ inserted := [5], received := [5], pops := [⟨false, true⟩] },
        [[.pushed .move, .client], [.popped, .pop true]]⟩ := rfl
  have hfirst : Run (fun m a m' => AvoidsGaps m a ∧ Step m a m') (initial ℕ 1 1) _ _ :=
    .single ⟨avoidsGaps_of_top ⟨[], rfl⟩ (by simp) (by simp), hcall⟩
  have hrun := (hfirst.snoc ⟨avoidsGaps_of_top ⟨[.client], rfl⟩ (by simp) (by simp), hpush⟩).snoc
    ⟨avoidsGaps_of_top ⟨[], rfl⟩ (by simp) (by simp), hpop⟩
  exact ⟨_, _, hrun, rfl, contract_of_avoidsGaps ℕ 1 1 hrun⟩

/-- **A copied value is inserted without an answer, and a value in a closed queue is not received by
`TryPop`.** -/
theorem not_contract :
    (∃ m, Run Step (initial ℕ 1 0) [(0, .push .copy 1), (0, .finish), (0, .finish)] m ∧
      ¬ Contract 0 m) ∧
    ∃ m, Run Step (initial ℕ 1 0) ([(0, .push .move 1), (0, .finish), (0, .finish), (0, .close)] ++
      List.replicate 3 (0, .finish) ++ [(0, .tryPop), (0, .finish)]) m ∧ ¬ Contract 0 m := by
  constructor
  · have h : ((initial ℕ 1 0).run exec [(0, .push .copy 1), (0, .finish), (0, .finish)]).map
        (fun m => m.shared.pushes) = some [⟨true, none⟩] := by decide
    obtain ⟨m, hm, hpushes⟩ := Option.map_eq_some_iff.mp h
    refine ⟨m, Machine.run_of_eq_some hm, fun hcontract => ?_⟩
    have hanswer := hcontract.answers ⟨true, none⟩ (by rw [hpushes]; exact List.mem_singleton_self _)
    cases hanswer
  · have h : ((initial ℕ 1 0).run exec ([(0, .push .move 1), (0, .finish), (0, .finish),
        (0, .close)] ++ List.replicate 3 (0, .finish) ++ [(0, .tryPop), (0, .finish)])).map
          (fun m => m.shared.pops) = some [⟨false, false⟩] := by decide
    obtain ⟨m, hm, hpops⟩ := Option.map_eq_some_iff.mp h
    refine ⟨m, Machine.run_of_eq_some hm, fun hcontract => ?_⟩
    have hempty := hcontract.receives ⟨false, false⟩
      (by rw [hpops]; exact List.mem_singleton_self _) rfl
    cases hempty

end ConcurrentQueue

end Skyrise

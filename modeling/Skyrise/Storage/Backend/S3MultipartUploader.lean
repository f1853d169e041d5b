/-
The upload of an object in parts.

The writer initializes an upload, starts the parts one after another and finalizes
the upload, for which it waits until no part is in process.  The callback of a part
runs when its request has ended.  Where the request has succeeded, the callback
records the part and counts it off under the mutex.  Where it has failed, the
callback cancels the upload, which takes another request, and then sets the error.

A state consists of the members of the uploader, the place where the writer is, the
callbacks that have not returned and two records that the program does not have: the
parts that failed, and whether a callback has written beyond the list of parts.  To
start a part is one step.
-/
import Mathlib.Data.Int.Init
import Mathlib.Data.List.Count
import Skyrise.Concurrency.Run
import Skyrise.Json.Text

namespace Skyrise

namespace S3MultipartUploader

open Concurrency

/-- `CompletedPart`. -/
structure CompletedPart where
  /-- The number of the part, from one on. -/
  partNumber : ℕ := 0
  /-- The tag of what was uploaded. -/
  eTag : Bytes := []
deriving DecidableEq, Repr

/-- Where the callback of a part is. -/
inductive CallbackPhase (ε : Type) where
  /-- The request of the part has not ended. -/
  | inProcess
  /-- The upload is being aborted because of an error. -/
  | abort (error : ε)
  /-- The error is about to be set. -/
  | setError (error : ε)
deriving DecidableEq, Repr

/-- The callback of a part that was started. -/
structure Callback (ε : Type) where
  /-- The part. -/
  partNumber : ℕ
  /-- The phase. -/
  phase : CallbackPhase ε
deriving DecidableEq, Repr

/-- Where the writer is. -/
inductive WriterPhase (ε : Type) where
  /-- Before the upload is initialized. -/
  | created
  /-- Between two parts. -/
  | ready
  /-- In `Finalize`, where it waits. -/
  | finalizing
  /-- After `Finalize`, with the error that it returned, if any. -/
  | finished (error : Option ε)
deriving DecidableEq, Repr

/-- The uploader, the writer and the callbacks. -/
structure State (ε : Type) where
  /-- Whether an upload was created and not ended. -/
  isInitialized : Bool := false
  /-- The number of the next part. -/
  partCount : ℕ := 1
  /-- The identifier of the upload. -/
  uploadId : Bytes := []
  /-- The parts that were recorded. -/
  parts : List CompletedPart := []
  /-- The number of parts in process. -/
  inProcessPartsCount : ℤ := 0
  /-- The error that was set, if any. -/
  storageError : Option ε := none
  /-- Where the writer is. -/
  writer : WriterPhase ε := .created
  /-- The callbacks of the parts that were started, as long as they have not returned. -/
  callbacks : List (Callback ε) := []
  /-- The parts that failed so far. -/
  failedParts : List ℕ := []
  /-- Whether a callback has written beyond the list of parts. -/
  outOfBounds : Bool := false
deriving Repr

/-- The labels of the steps; the requests end with an error or without one. -/
inductive Action (ε : Type) where
  /-- The upload is initialized. -/
  | initializeUpload (uploadId : Bytes) (error : Option ε)
  /-- A part is started. -/
  | uploadPart
  /-- The request of a part succeeds. -/
  | succeed (partNumber : ℕ) (eTag : Bytes)
  /-- The request of a part fails. -/
  | fail (partNumber : ℕ) (error : ε)
  /-- The request to abort the upload ends. -/
  | abort (partNumber : ℕ) (error : Option ε)
  /-- The error of a part is set. -/
  | setError (partNumber : ℕ)
  /-- The writer enters `Finalize`. -/
  | finalize
  /-- `Finalize` goes on after it has waited; the upload is completed or else aborted. -/
  | complete (error abortError : Option ε)
deriving DecidableEq, Repr

variable {ε : Type}

/-- What ending an upload does with the members. -/
def State.reset (s : State ε) : State ε :=
  { s with isInitialized := false, partCount := 1, uploadId := [], parts := [] }

/-- `CancelUpload` once its request has ended. -/
def State.cancelled (s : State ε) (abortError : Option ε) : State ε :=
  if s.isInitialized = true ∧ abortError = none then s.reset else s

/-- What the callback of a part that succeeded does with the members. -/
def State.record (s : State ε) (partNumber : ℕ) (eTag : Bytes) : State ε :=
  { s with
    parts := s.parts.set (partNumber - 1) ⟨partNumber, eTag⟩
    inProcessPartsCount := s.inProcessPartsCount - 1
    outOfBounds := s.outOfBounds || decide (s.parts.length ≤ partNumber - 1) }

/-- What `Finalize` does after it has waited. -/
def State.completed (s : State ε) (error abortError : Option ε) : State ε :=
  match s.storageError, error with
  | some e, _ => { s with writer := .finished (some e) }
  | none, none => { s.reset with writer := .finished none }
  | none, some e => { s.cancelled abortError with writer := .finished (some e) }

/-- The steps of the writer and of the callbacks. -/
inductive Step : State ε → Action ε → State ε → Prop
  /-- `Initialize`. -/
  | initializeUpload {s : State ε} {uploadId : Bytes} {error : Option ε} (hw : s.writer = .created) :
      Step s (.initializeUpload uploadId error) { s with
        storageError := error.or s.storageError
        uploadId := uploadId
        isInitialized := true
        writer := .ready }
  /-- `UploadPartAsync`. -/
  | uploadPart {s : State ε} (hw : s.writer = .ready) :
      Step s .uploadPart { s with
        inProcessPartsCount := s.inProcessPartsCount + 1
        partCount := s.partCount + 1
        parts := s.parts ++ [{}]
        callbacks := s.callbacks ++ [⟨s.partCount, .inProcess⟩] }
  /-- The callback of a part that succeeded. -/
  | succeed {s : State ε} {l r : List (Callback ε)} {n : ℕ} {eTag : Bytes}
      (hc : s.callbacks = l ++ ⟨n, .inProcess⟩ :: r) :
      Step s (.succeed n eTag) { s.record n eTag with callbacks := l ++ r }
  /-- The callback of a part that failed, up to the test whether there is an upload to abort. -/
  | fail {s : State ε} {l r : List (Callback ε)} {n : ℕ} {error : ε}
      (hc : s.callbacks = l ++ ⟨n, .inProcess⟩ :: r) :
      Step s (.fail n error) { s with
        callbacks := l ++ ⟨n, if s.isInitialized then .abort error else .setError error⟩ :: r
        failedParts := s.failedParts ++ [n] }
  /-- The callback of a part that failed, up to the end of `CancelUpload`. -/
  | abort {s : State ε} {l r : List (Callback ε)} {n : ℕ} {error : ε} {abortError : Option ε}
      (hc : s.callbacks = l ++ ⟨n, .abort error⟩ :: r) :
      Step s (.abort n abortError) { (if abortError = none then s.reset else s) with
        callbacks := l ++ ⟨n, .setError error⟩ :: r }
  /-- The callback of a part that failed, up to its end. -/
  | setError {s : State ε} {l r : List (Callback ε)} {n : ℕ} {error : ε}
      (hc : s.callbacks = l ++ ⟨n, .setError error⟩ :: r) :
      Step s (.setError n) { s with
        callbacks := l ++ r
        storageError := some error }
  /-- `Finalize`, up to where it waits. -/
  | finalize {s : State ε} (hw : s.writer = .ready) :
      Step s .finalize { s with writer := .finalizing }
  /-- `Finalize`, once no part is in process. -/
  | complete {s : State ε} {error abortError : Option ε} (hw : s.writer = .finalizing)
      (hcount : s.inProcessPartsCount = 0) :
      Step s (.complete error abortError) (s.completed error abortError)

/-- The callback of every part that was started has run. -/
def State.AllRun (s : State ε) : Prop := s.callbacks = []

/-- The bookkeeping of the uploader. -/
structure Bookkeeping (s : State ε) : Prop where
  /-- Once every callback has run, no part is in process. -/
  count : s.AllRun → s.inProcessPartsCount = 0
  /-- No callback has written beyond the list of parts. -/
  inBounds : s.outOfBounds = false
  /-- Once every callback has run, `Finalize` goes on. -/
  proceeds : s.AllRun → s.writer = .finalizing →
    ∀ error abortError, ∃ t, Step s (.complete error abortError) t
  /-- `Finalize` returns an error if and only if some part failed. -/
  reports : ∀ error, s.writer = .finished error → (error.isSome = true ↔ s.failedParts ≠ [])

/-- The requests end without an error. -/
def Action.Succeeds : Action ε → Prop
  | .initializeUpload _ error => error = none
  | .fail _ _ => False
  | .complete error _ => error = none
  | _ => True

/-- The request of a part fails. -/
def Action.IsFailure : Action ε → Prop
  | .fail _ _ => True
  | _ => False

variable {s t : State ε} {a : Action ε} {as : List (Action ε)}

/-- `Finalize` and the end of `CancelUpload` keep the counts. -/
lemma completed_frame (error abortError : Option ε) :
    (s.completed error abortError).inProcessPartsCount = s.inProcessPartsCount ∧
      (s.completed error abortError).callbacks = s.callbacks ∧
      (s.completed error abortError).failedParts = s.failedParts := by
  unfold State.completed
  split
  · exact ⟨rfl, rfl, rfl⟩
  · exact ⟨rfl, rfl, rfl⟩
  · unfold State.cancelled
    split <;> exact ⟨rfl, rfl, rfl⟩

lemma completed_of_success (herror : s.storageError = none) (abortError : Option ε) :
    s.completed none abortError = { s.reset with writer := .finished none } := by
  unfold State.completed
  rw [herror]

/-! ### The count of parts in process -/

/-- The request of the part has not ended. -/
def Callback.isInProcess (c : Callback ε) : Bool :=
  match c.phase with
  | .inProcess => true
  | _ => false

/-- The parts in process are counted together with those that failed, which nothing counts off. -/
def Counted (s : State ε) : Prop :=
  s.inProcessPartsCount = s.callbacks.countP Callback.isInProcess + s.failedParts.length

lemma countP_inProcess {l r : List (Callback ε)} {n : ℕ} :
    (l ++ ⟨n, .inProcess⟩ :: r).countP Callback.isInProcess =
      (l ++ r).countP Callback.isInProcess + 1 := by
  rw [List.countP_append, List.countP_append, List.countP_cons_of_pos rfl]
  omega

lemma countP_of_not_inProcess {l r : List (Callback ε)} {c : Callback ε}
    (hc : c.isInProcess = false) :
    (l ++ c :: r).countP Callback.isInProcess = (l ++ r).countP Callback.isInProcess := by
  rw [List.countP_append, List.countP_append, List.countP_cons_of_neg (by rw [hc]; decide)]

lemma Counted.step (h : Counted s) (hstep : Step s a t) : Counted t := by
  rw [Counted] at h ⊢
  cases hstep with
  | initializeUpload => exact h
  | uploadPart =>
    have hcount := countP_inProcess (l := s.callbacks) (r := []) (n := s.partCount)
    rw [List.append_nil] at hcount
    show s.inProcessPartsCount + 1 =
      (List.countP Callback.isInProcess (s.callbacks ++ [⟨s.partCount, .inProcess⟩]) : ℤ) +
        s.failedParts.length
    rw [hcount]
    omega
  | @succeed l r n eTag hc =>
    rw [hc, countP_inProcess] at h
    show s.inProcessPartsCount - 1 =
      (List.countP Callback.isInProcess (l ++ r) : ℤ) + s.failedParts.length
    omega
  | @fail l r n error hc =>
    rw [hc, countP_inProcess] at h
    have hphase : (⟨n, if s.isInitialized then .abort error else .setError error⟩ :
        Callback ε).isInProcess = false := by
      cases s.isInitialized <;> rfl
    rw [countP_of_not_inProcess hphase, List.length_append, List.length_singleton]
    show s.inProcessPartsCount = _
    omega
  | @abort l r n error abortError hc =>
    rw [hc, countP_of_not_inProcess rfl] at h
    rw [countP_of_not_inProcess rfl]
    split <;> exact h
  | setError hc =>
    rw [hc, countP_of_not_inProcess rfl] at h
    exact h
  | finalize => exact h
  | @complete error abortError =>
    obtain ⟨hcount, hcallbacks, hfailed⟩ := completed_frame (s := s) error abortError
    rw [hcount, hcallbacks, hfailed]
    exact h

/-! ### Uploads without a failure -/

/-- What holds as long as every request succeeds. -/
structure Undisturbed (s : State ε) : Prop where
  counted : Counted s
  callbacks : ∀ c ∈ s.callbacks, c.phase = .inProcess ∧ 1 ≤ c.partNumber ∧
    c.partNumber < s.partCount
  parts : s.parts.length + 1 = s.partCount
  storageError : s.storageError = none
  failedParts : s.failedParts = []
  inBounds : s.outOfBounds = false
  finished : ∀ error, s.writer = .finished error → error = none

/-- If no part is in process, no callback has yet to run. -/
lemma Undisturbed.allRun (h : Undisturbed s) (hcount : s.inProcessPartsCount = 0) : s.AllRun := by
  have hcounted := h.counted
  rw [Counted, hcount, h.failedParts] at hcounted
  have hzero : s.callbacks.countP Callback.isInProcess = 0 := by
    simp only [List.length_nil] at hcounted
    omega
  refine List.eq_nil_iff_forall_not_mem.mpr fun c hc => ?_
  refine List.countP_eq_zero.mp hzero c hc ?_
  rw [Callback.isInProcess, (h.callbacks c hc).1]

lemma Undisturbed.step (h : Undisturbed s) (ha : a.Succeeds) (hstep : Step s a t) :
    Undisturbed t := by
  have hcounted := h.counted.step hstep
  cases hstep with
  | initializeUpload hw =>
    obtain rfl : _ = none := ha
    exact ⟨hcounted, h.callbacks, h.parts, h.storageError, h.failedParts, h.inBounds,
      fun error herror => by cases herror⟩
  | uploadPart hw =>
    refine ⟨hcounted, ?_, ?_, h.storageError, h.failedParts, h.inBounds, h.finished⟩
    · intro c hc
      rcases List.mem_append.mp hc with hc | hc
      · obtain ⟨hphase, hpos, hlt⟩ := h.callbacks c hc
        exact ⟨hphase, hpos, Nat.lt_succ_of_lt hlt⟩
      · obtain rfl := List.mem_singleton.mp hc
        have hparts := h.parts
        exact ⟨rfl, show 1 ≤ s.partCount by omega, Nat.lt_succ_self _⟩
    · simpa using h.parts
  | @succeed l r n eTag hc =>
    obtain ⟨-, hpos, hlt⟩ := h.callbacks ⟨n, .inProcess⟩ (by rw [hc]; simp)
    have hparts := h.parts
    refine ⟨hcounted, ?_, ?_, h.storageError, h.failedParts, ?_, h.finished⟩
    · intro c hmem
      refine h.callbacks c ?_
      rw [hc]
      rcases List.mem_append.mp hmem with hmem | hmem
      · exact List.mem_append_left _ hmem
      · exact List.mem_append_right _ (List.mem_cons_of_mem _ hmem)
    · simpa [State.record] using hparts
    · have hin : ¬ s.parts.length ≤ n - 1 := by
        simp only at hpos hlt
        omega
      simpa [State.record, h.inBounds] using hin
  | fail => exact ha.elim
  | @abort l r n error abortError hc =>
    cases (h.callbacks ⟨n, .abort error⟩ (by rw [hc]; simp)).1
  | @setError l r n error hc => cases (h.callbacks ⟨n, .setError error⟩ (by rw [hc]; simp)).1
  | finalize hw =>
    exact ⟨hcounted, h.callbacks, h.parts, h.storageError, h.failedParts, h.inBounds,
      fun error herror => by cases herror⟩
  | @complete error abortError hw hcount =>
    obtain rfl : error = none := ha
    have hnil : s.callbacks = [] := h.allRun hcount
    rw [completed_of_success h.storageError] at hcounted ⊢
    refine ⟨hcounted, ?_, rfl, h.storageError, h.failedParts, h.inBounds, ?_⟩
    · intro c hc
      have hmem : c ∈ s.callbacks := hc
      rw [hnil] at hmem
      exact absurd hmem List.not_mem_nil
    · intro error herror
      cases herror
      rfl

lemma Undisturbed.start : Undisturbed ({} : State ε) :=
  ⟨rfl, fun _ hc => absurd hc List.not_mem_nil, rfl, rfl, rfl, rfl, fun _ herror => by cases herror⟩

lemma Undisturbed.bookkeeping (h : Undisturbed s) : Bookkeeping s := by
  have hcount : s.AllRun → s.inProcessPartsCount = 0 := by
    intro hall
    rw [h.counted, show s.callbacks = [] from hall, h.failedParts]
    rfl
  refine ⟨hcount, h.inBounds, ?_, ?_⟩
  · intro hall hw error abortError
    exact ⟨_, .complete hw (hcount hall)⟩
  · intro error hw
    rw [h.finished error hw, h.failedParts]
    simp

/-! ### Uploads with a failure -/

lemma failedParts_ne_nil_step (h : s.failedParts ≠ []) (hstep : Step s a t) :
    t.failedParts ≠ [] := by
  cases hstep with
  | fail => simp
  | abort =>
    show (if _ then s.reset else s).failedParts ≠ []
    split <;> exact h
  | @complete error abortError =>
    rw [(completed_frame error abortError).2.2]
    exact h
  | _ => exact h

/-- After a run with a failure some part has failed. -/
lemma failedParts_ne_nil_of_run (h : Run Step ({} : State ε) as s)
    (has : ∃ a ∈ as, a.IsFailure) : s.failedParts ≠ [] := by
  induction h with
  | nil =>
    obtain ⟨a, ha, -⟩ := has
    exact absurd ha List.not_mem_nil
  | @snoc as s a t _ hstep ih =>
    obtain ⟨b, hb, hfailure⟩ := has
    rcases List.mem_append.mp hb with hb | hb
    · exact failedParts_ne_nil_step (ih ⟨b, hb, hfailure⟩) hstep
    · obtain rfl := List.mem_singleton.mp hb
      cases hstep with
      | fail => simp
      | _ => exact hfailure.elim

/-- The upload of one part. -/
def onePart : List (Action Unit) :=
  [.initializeUpload [1] none, .uploadPart, .succeed 1 [7], .finalize, .complete none none]

/-- Two parts, of which the first fails. -/
def failingPart : List (Action Unit) :=
  [.initializeUpload [1] none, .uploadPart, .uploadPart, .finalize, .fail 1 (), .abort 1 none,
    .succeed 2 [7], .setError 1]

end S3MultipartUploader

end Skyrise

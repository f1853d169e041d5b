/-
The requests of a writer.

Written to S3, an object is put with one request, or an upload is created, its parts are
uploaded under consecutive numbers, and the upload is completed.  The size of the part that
is being filled is kept next to it, and what is missing in it is computed from that size.

The writer of `S3ObjectWriter` keeps the parts only; it is this one without the requests.
-/
import Skyrise.Storage.Backend.S3ObjectWriter

namespace Skyrise

namespace S3ObjectWriter

/-- The requests to the service, of which none fails. -/
inductive Request where
  | createMultipartUpload
  | uploadPart (partNumber : ℕ) (body : Bytes)
  | completeMultipartUpload
  | putObject (body : Bytes)
deriving DecidableEq

/-- The members of the writer and of its uploader, with the requests that were made. -/
structure UploadState where
  closed : Bool := false
  useMultipartUpload : Bool := false
  /-- `parts_.back()`. -/
  currentPart : Bytes := []
  currentPartSizeBytes : ℕ := 0
  /-- `part_count_` of the uploader. -/
  partCount : ℕ := 1
  requests : List Request := []
  /-- Whether a size was computed that is negative. -/
  underflow : Bool := false
deriving DecidableEq

namespace UploadState

/-- `UploadNextPartAsync`. -/
def uploadNextPartAsync (w : UploadState) : UploadState :=
  { w with
    requests := w.requests ++ [.uploadPart w.partCount w.currentPart]
    partCount := w.partCount + 1
    currentPart := []
    currentPartSizeBytes := 0 }

/-- The loop of `Write`, with the data that is left.  It stops where it would compute a negative
size. -/
def fillParts (data : Bytes) (w : UploadState) : Bytes × UploadState :=
  if kMultipartSizeBytes ≤ data.length + w.currentPartSizeBytes then
    if kMultipartSizeBytes < w.currentPartSizeBytes then (data, { w with underflow := true })
    else
      let leftToWrite := kMultipartSizeBytes - w.currentPartSizeBytes
      let w := { w with
        currentPart := w.currentPart ++ data.take leftToWrite
        currentPartSizeBytes := w.currentPartSizeBytes + leftToWrite }
      fillParts (data.drop leftToWrite) w.uploadNextPartAsync
  else (data, w)
termination_by data.length + w.currentPartSizeBytes
decreasing_by
  simp only [uploadNextPartAsync, List.length_drop]
  rw [kMultipartSizeBytes] at *
  omega

/-- An upload is created for an object that does not fit in one part, which is as large as
`kMultipartThresholdBytes`. -/
def beginMultipart (expectedBufferSize : ℕ) (w : UploadState) : UploadState :=
  if !w.useMultipartUpload ∧ kMultipartSizeBytes < expectedBufferSize then
    { w with
      useMultipartUpload := true
      requests := w.requests ++ [.createMultipartUpload] }
  else w

/-- `Write`, after which the writer has the data or is closed. -/
def write (w : UploadState) (data : Bytes) : UploadState :=
  if w.closed then w
  else if data.isEmpty then w
  else
    let expectedBufferSize := w.currentPartSizeBytes + data.length
    let w := w.beginMultipart expectedBufferSize
    let (data, w) :=
      if w.useMultipartUpload ∧ kMultipartSizeBytes < expectedBufferSize then fillParts data w
      else (data, w)
    { w with
      currentPart := w.currentPart ++ data
      currentPartSizeBytes := w.currentPartSizeBytes + data.length }

/-- `FinalizeUpload`. -/
def finalizeUpload (w : UploadState) : UploadState :=
  if w.closed then w
  else
    let w := { w with closed := true }
    if w.useMultipartUpload then
      let w := if 0 < w.currentPartSizeBytes then w.uploadNextPartAsync else w
      { w with requests := w.requests ++ [.completeMultipartUpload] }
    else { w with requests := w.requests ++ [.putObject w.currentPart] }

/-- A writer that is given some blocks, closed and destroyed. -/
def writeObject (blocks : List Bytes) : UploadState :=
  ((blocks.foldl write {}).finalizeUpload).finalizeUpload

/-! ### What is uploaded -/

/-- The requests for some parts. -/
def uploadParts (parts : List Bytes) : List Request :=
  (parts.zipIdx 1).map fun part => .uploadPart part.2 part.1

/-- The requests write an object: it is put, or it is uploaded in parts, all of which but the last
are full. -/
def Writes (requests : List Request) (object : Bytes) : Prop :=
  requests = [.putObject object] ∨
    ∃ parts : List Bytes,
      requests = .createMultipartUpload :: uploadParts parts ++ [.completeMultipartUpload] ∧
        parts.flatten = object ∧ ∀ part ∈ parts.dropLast, part.length = kMultipartSizeBytes

/-- An open writer that was given some bytes: those that are not in full parts are in the current
one. -/
structure Taken (written : Bytes) (parts : List Bytes) (w : UploadState) : Prop where
  closed : w.closed = false
  underflow : w.underflow = false
  currentPartSizeBytes : w.currentPartSizeBytes = w.currentPart.length
  length_currentPart : w.currentPart.length ≤ kMultipartSizeBytes
  partCount : w.partCount = parts.length + 1
  requests : w.requests =
    if w.useMultipartUpload then .createMultipartUpload :: uploadParts parts else []
  parts_eq_nil : w.useMultipartUpload = false → parts = []
  full : ∀ part ∈ parts, part.length = kMultipartSizeBytes
  flatten : parts.flatten ++ w.currentPart = written

variable {w : UploadState} {written data : Bytes} {parts : List Bytes}

lemma taken_start : Taken [] [] {} :=
  ⟨rfl, rfl, rfl, Nat.zero_le _, rfl, rfl, fun _ => rfl, by simp, rfl⟩

lemma uploadParts_concat (parts : List Bytes) (part : Bytes) :
    uploadParts (parts ++ [part]) = uploadParts parts ++ [.uploadPart (parts.length + 1) part] := by
  rw [uploadParts, List.zipIdx_append, List.map_append, Nat.add_comm 1]
  rfl

/-- The loop takes the data up to a rest that does not fill a part. -/
lemma Taken.fillParts (h : Taken written parts w) (hmulti : w.useMultipartUpload = true)
    (data : Bytes) :
    ∃ parts', (fillParts data w).2.useMultipartUpload = true ∧
      (fillParts data w).1.length + (fillParts data w).2.currentPart.length < kMultipartSizeBytes ∧
      ∃ taken, taken ++ (fillParts data w).1 = data ∧
        Taken (written ++ taken) parts' (fillParts data w).2 := by
  induction data, w using UploadState.fillParts.induct generalizing written parts with
  | case1 data w hle hlt =>
    exact absurd (h.currentPartSizeBytes ▸ h.length_currentPart) (Nat.not_le_of_lt hlt)
  | case2 data w hle hlt leftToWrite =>
    rename_i w' ih
    have hsize := h.currentPartSizeBytes
    have hlength : (w.currentPart ++ data.take leftToWrite).length = kMultipartSizeBytes := by
      rw [List.length_append, List.length_take]
      omega
    have hnext : Taken (written ++ data.take leftToWrite)
        (parts ++ [w.currentPart ++ data.take leftToWrite]) w'.uploadNextPartAsync := by
      refine ⟨h.closed, h.underflow, rfl, Nat.zero_le _, ?_, ?_, ?_, ?_, ?_⟩
      · rw [List.length_append]
        exact congrArg (· + 1) h.partCount
      · show w.requests ++ [.uploadPart w.partCount _] = if w.useMultipartUpload then _ else _
        rw [h.requests, hmulti, if_pos rfl, if_pos rfl, uploadParts_concat, h.partCount]
        rfl
      · intro hfalse
        exact absurd (hmulti.symm.trans hfalse) (by simp)
      · intro part hpart
        rcases List.mem_append.mp hpart with hpart | hpart
        · exact h.full part hpart
        · obtain rfl := List.mem_singleton.mp hpart
          exact hlength
      · rw [List.flatten_append, ← h.flatten]
        simp [uploadNextPartAsync]
    obtain ⟨parts', hmulti', hlt', taken, htaken, h'⟩ := ih hnext hmulti
    rw [UploadState.fillParts, if_pos hle, if_neg hlt]
    refine ⟨parts', hmulti', hlt', data.take leftToWrite ++ taken, ?_, ?_⟩
    · rw [List.append_assoc, htaken, List.take_append_drop]
    · rw [← List.append_assoc]
      exact h'
  | case3 data w hlt =>
    rw [UploadState.fillParts, if_neg hlt]
    refine ⟨parts, hmulti, ?_, [], rfl, ?_⟩
    · rw [← h.currentPartSizeBytes]
      exact Nat.lt_of_not_le hlt
    · rw [List.append_nil]
      exact h

/-- What is not sliced goes to the current part. -/
lemma Taken.append (h : Taken written parts w)
    (hlength : data.length + w.currentPart.length ≤ kMultipartSizeBytes) :
    Taken (written ++ data) parts { w with
      currentPart := w.currentPart ++ data
      currentPartSizeBytes := w.currentPartSizeBytes + data.length } := by
  refine ⟨h.closed, h.underflow, ?_, ?_, h.partCount, h.requests, h.parts_eq_nil, h.full, ?_⟩
  · rw [List.length_append, h.currentPartSizeBytes]
  · rw [List.length_append, Nat.add_comm]
    exact hlength
  · rw [← List.append_assoc, h.flatten]

lemma Taken.beginMultipart (h : Taken written parts w) (n : ℕ) :
    Taken written parts (w.beginMultipart n) := by
  rw [UploadState.beginMultipart]
  split
  · next hbegin =>
    have hmulti : w.useMultipartUpload = false := by simpa using hbegin.1
    have hrequests := h.requests
    rw [hmulti, if_neg Bool.false_ne_true] at hrequests
    refine ⟨h.closed, h.underflow, h.currentPartSizeBytes, h.length_currentPart, h.partCount, ?_, ?_,
      h.full, h.flatten⟩
    · rw [hrequests, h.parts_eq_nil hmulti, if_pos rfl]
      rfl
    · intro hfalse
      exact absurd hfalse (by simp)
  · exact h

/-- **One block** is taken. -/
lemma Taken.write (h : Taken written parts w) (data : Bytes) :
    ∃ parts', Taken (written ++ data) parts' (w.write data) := by
  rw [UploadState.write, if_neg (by simp [h.closed])]
  split
  · next hempty =>
    rw [List.isEmpty_iff.mp hempty, List.append_nil]
    exact ⟨parts, h⟩
  · dsimp only
    have h' := h.beginMultipart (w.currentPartSizeBytes + data.length)
    by_cases hlarge : kMultipartSizeBytes < w.currentPartSizeBytes + data.length
    · have hmulti : (w.beginMultipart (w.currentPartSizeBytes + data.length)).useMultipartUpload =
          true := by
        cases hmulti : w.useMultipartUpload <;> simp [UploadState.beginMultipart, hmulti, hlarge]
      obtain ⟨parts', -, hlt, taken, htaken, h''⟩ := h'.fillParts hmulti data
      rw [if_pos ⟨hmulti, hlarge⟩]
      have hall := h''.append (Nat.le_of_lt hlt)
      rw [List.append_assoc, htaken] at hall
      exact ⟨parts', hall⟩
    · rw [if_neg fun hcon => hlarge hcon.2]
      refine ⟨parts, h'.append ?_⟩
      rw [UploadState.beginMultipart, if_neg fun hcon => hlarge hcon.2, ← h.currentPartSizeBytes,
        Nat.add_comm]
      exact Nat.le_of_not_lt hlarge

lemma Taken.foldl (h : Taken written parts w) (blocks : List Bytes) :
    ∃ parts', Taken (written ++ blocks.flatten) parts' (blocks.foldl UploadState.write w) := by
  induction blocks generalizing written parts w with
  | nil =>
    rw [List.flatten_nil, List.append_nil]
    exact ⟨parts, h⟩
  | cons block blocks ih =>
    obtain ⟨parts₁, h₁⟩ := h.write block
    obtain ⟨parts', h'⟩ := ih h₁
    rw [List.flatten_cons, ← List.append_assoc]
    exact ⟨parts', h'⟩

/-- The requests after the writer was closed. -/
lemma Taken.finalizeUpload (h : Taken written parts w) :
    w.finalizeUpload.closed = true ∧ w.finalizeUpload.underflow = false ∧
      Writes w.finalizeUpload.requests written := by
  have hrequests := h.requests
  rw [UploadState.finalizeUpload, h.closed, if_neg Bool.false_ne_true]
  dsimp only
  cases hmulti : w.useMultipartUpload with
  | false =>
    rw [hmulti, if_neg Bool.false_ne_true] at hrequests
    rw [if_neg Bool.false_ne_true]
    refine ⟨rfl, h.underflow, .inl ?_⟩
    rw [hrequests, ← h.flatten, h.parts_eq_nil hmulti]
    rfl
  | true =>
    rw [hmulti, if_pos rfl] at hrequests
    rw [if_pos rfl]
    split
    · -- the last part is not full
      refine ⟨rfl, h.underflow, .inr ⟨parts ++ [w.currentPart], ?_, ?_, ?_⟩⟩
      · show (w.requests ++ [.uploadPart w.partCount w.currentPart]) ++ _ = _
        rw [hrequests, uploadParts_concat, h.partCount]
        rfl
      · rw [List.flatten_append, ← h.flatten]
        simp
      · rw [List.dropLast_concat]
        exact h.full
    · next hzero =>
      refine ⟨rfl, h.underflow, .inr ⟨parts, ?_, ?_, ?_⟩⟩
      · show w.requests ++ _ = _
        rw [hrequests]
      · have hnil : w.currentPart = [] := by
          rw [h.currentPartSizeBytes] at hzero
          exact List.length_eq_zero_iff.mp (Nat.eq_zero_of_not_pos hzero)
        rw [← h.flatten, hnil, List.append_nil]
      · intro part hpart
        exact h.full part (List.dropLast_subset _ hpart)

/-- **The requests write the object**, in one request or in parts that are full up to the last one,
and no size is negative. -/
theorem writeObject_writes (blocks : List Bytes) :
    Writes (writeObject blocks).requests blocks.flatten ∧
      (writeObject blocks).underflow = false := by
  obtain ⟨parts, h⟩ := taken_start.foldl blocks
  rw [List.nil_append] at h
  obtain ⟨hclosed, hunderflow, hwrites⟩ := h.finalizeUpload
  -- the destructor finds the writer closed
  have hagain : writeObject blocks = (blocks.foldl UploadState.write {}).finalizeUpload := by
    rw [writeObject, UploadState.finalizeUpload, if_pos hclosed]
  rw [hagain]
  exact ⟨hwrites, hunderflow⟩

/-! ### Without the requests -/

/-- The body of an uploaded part. -/
def partOf : Request → Option Bytes
  | .uploadPart _ body => some body
  | _ => none

/-- The state of the writer without the requests. -/
def toState (w : UploadState) : State where
  closed := w.closed
  useMultipartUpload := w.useMultipartUpload
  uploadedParts := w.requests.filterMap partOf
  currentPart := w.currentPart

lemma uploadedParts_uploadNextPartAsync :
    w.uploadNextPartAsync.toState.uploadedParts = w.toState.uploadedParts ++ [w.currentPart] := by
  show (w.requests ++ [_]).filterMap partOf = _
  rw [List.filterMap_append]
  rfl

/-- The loop uploads the same parts, and what it leaves is the rest. -/
lemma toState_fillParts (hsize : w.currentPartSizeBytes = w.currentPart.length)
    (hle : w.currentPart.length ≤ kMultipartSizeBytes) (data : Bytes) :
    (fillParts data w).2.toState = { w.toState with
        uploadedParts := w.toState.uploadedParts ++ (S3ObjectWriter.fillParts w.currentPart data).1
        currentPart := (fillParts data w).2.currentPart } ∧
      (fillParts data w).2.currentPart ++ (fillParts data w).1 =
        (S3ObjectWriter.fillParts w.currentPart data).2 := by
  induction data, w using UploadState.fillParts.induct with
  | case1 data w hfull hlt => exact absurd (hsize ▸ hle) (Nat.not_le_of_lt hlt)
  | case2 data w hfull hlt leftToWrite =>
    rename_i w' ih
    obtain ⟨hstate, hrest⟩ := ih rfl (Nat.zero_le _)
    rw [UploadState.fillParts, if_pos hfull, if_neg hlt, S3ObjectWriter.fillParts,
      if_pos (hsize ▸ hfull), ← hsize]
    refine ⟨?_, hrest⟩
    rw [hstate, uploadedParts_uploadNextPartAsync]
    show State.mk _ _ _ _ = State.mk _ _ _ _
    rw [List.append_assoc]
    rfl
  | case3 data w hlt =>
    rw [UploadState.fillParts, if_neg hlt, S3ObjectWriter.fillParts, if_neg (hsize ▸ hlt)]
    refine ⟨?_, rfl⟩
    rw [List.append_nil]
    rfl

lemma toState_beginMultipart (w : UploadState) (n : ℕ) :
    (w.beginMultipart n).toState = { w.toState with
      useMultipartUpload := w.useMultipartUpload || decide (kMultipartSizeBytes < n) } := by
  rw [beginMultipart]
  split
  · next hbegin =>
    show State.mk _ _ ((w.requests ++ [_]).filterMap partOf) _ = State.mk _ _ _ _
    rw [List.filterMap_append, decide_eq_true hbegin.2, Bool.or_true]
    exact congrArg (State.mk w.closed true · w.currentPart) (List.append_nil _)
  · next hbegin =>
    have hsame : (w.useMultipartUpload || decide (kMultipartSizeBytes < n)) =
        w.useMultipartUpload := by
      cases hmulti : w.useMultipartUpload with
      | true => rfl
      | false => exact decide_eq_false fun hlt => hbegin ⟨by simp [hmulti], hlt⟩
    rw [hsame]
    rfl

/-- **A block is written as it is without the requests.** -/
lemma Taken.toState_write (h : Taken written parts w) (data : Bytes) :
    (w.write data).toState = (S3ObjectWriter.write data w.toState).2 := by
  have hclosed : w.toState.closed = false := h.closed
  have hcurrent : w.toState.currentPart = w.currentPart := rfl
  have hsize := h.currentPartSizeBytes
  rw [UploadState.write, h.closed, if_neg Bool.false_ne_true, S3ObjectWriter.write, hclosed,
    if_neg Bool.false_ne_true]
  split
  · rfl
  · dsimp only
    have h' := h.beginMultipart (w.currentPartSizeBytes + data.length)
    have hstate := toState_beginMultipart w (w.currentPartSizeBytes + data.length)
    rw [hcurrent, ← hsize]
    generalize w.beginMultipart (w.currentPartSizeBytes + data.length) = w₁ at h' hstate
    have hmulti : w₁.useMultipartUpload = (w.toState.useMultipartUpload ||
        decide (kMultipartSizeBytes < w.currentPartSizeBytes + data.length)) :=
      congrArg State.useMultipartUpload hstate
    have hpart : w₁.currentPart = w.currentPart := congrArg State.currentPart hstate
    rw [← hmulti]
    split
    · -- the data is sliced
      obtain ⟨hfill, hrest⟩ := toState_fillParts h'.currentPartSizeBytes h'.length_currentPart data
      rw [hpart] at hfill hrest
      generalize UploadState.fillParts data w₁ = filled at hfill hrest
      show { filled.2.toState with currentPart := filled.2.currentPart ++ filled.1 } = _
      rw [hfill, hrest, hstate, hmulti]
      show State.mk w.closed _ _ _ = State.mk false _ _ _
      rw [h.closed]
      rfl
    · show { w₁.toState with currentPart := w₁.currentPart ++ data } = _
      rw [hstate, hpart, hmulti]
      show State.mk w.closed _ _ _ = State.mk false _ _ _
      rw [h.closed]
      rfl

end UploadState

end S3ObjectWriter

end Skyrise

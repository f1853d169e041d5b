/-
Writing objects.

An `ObjectWriter` takes the bytes of an object block by block and is closed at the
end.  The one of S3 collects the bytes: a small object is put with one request when
the writer is closed, of a large one parts are uploaded as soon as they are full.  So
errors of S3 only show when the writer is closed.
-/
import Mathlib.Data.List.Basic
import Skyrise.Json.Text

namespace Skyrise

/-- `StorageErrorType`. -/
inductive StorageErrorType where
  | noError
  | alreadyExist
  | notFound
  | notReady
  | internalError
  | invalidArgument
  | invalidState
  | ioError
  | operationNotSupported
  | permissionDenied
  | temporary
  | uninitialized
  | unknown
deriving DecidableEq, Repr

/-- `StorageError`. -/
structure StorageError where
  type : StorageErrorType
  message : String := ""
deriving DecidableEq, Repr

namespace StorageError

/-- `Success`. -/
def success : StorageError := { type := .noError }

/-- `IsError`. -/
def isError (e : StorageError) : Bool := e.type ≠ .noError

@[simp] lemma isError_success : success.isError = false := rfl

end StorageError

/-- `ObjectWriter`, with the states of an implementation. -/
structure ObjectWriter (σ : Type) where
  write : Bytes → σ → StorageError × σ
  close : σ → StorageError × σ

namespace ObjectWriter

variable {σ : Type} (writer : ObjectWriter σ)

/-- The writer after some blocks, if it has accepted all of them. -/
def accept : List Bytes → σ → Option σ
  | [], s => some s
  | block :: blocks, s =>
    if (writer.write block s).1.isError then none else accept blocks (writer.write block s).2

end ObjectWriter

/-! ### S3 -/

namespace S3ObjectWriter

/-- `kMultipartThresholdBytes` and `kMultipartSizeBytes`. -/
def kMultipartSizeBytes : ℕ := 16 * 1024 * 1024

/-- The requests to the service: one with a whole object, and an upload in parts. -/
structure S3Client where
  putObject : Bytes → StorageError
  uploadParts : List Bytes → StorageError

/-- The members of the writer. -/
structure State where
  closed : Bool := false
  useMultipartUpload : Bool := false
  /-- The parts whose upload was started. -/
  uploadedParts : List Bytes := []
  /-- The part that is not full. -/
  currentPart : Bytes := []
deriving DecidableEq

/-- The loop of `Write`: the parts that get full, and the rest. -/
def fillParts (currentPart data : Bytes) : List Bytes × Bytes :=
  if kMultipartSizeBytes ≤ data.length + currentPart.length then
    let leftToWrite := kMultipartSizeBytes - currentPart.length
    let (parts, rest) := fillParts [] (data.drop leftToWrite)
    ((currentPart ++ data.take leftToWrite) :: parts, rest)
  else ([], currentPart ++ data)
termination_by data.length + currentPart.length
decreasing_by
  rw [List.length_drop, List.length_nil]
  rw [kMultipartSizeBytes] at *
  omega

/-- `Write`. -/
def write (data : Bytes) (s : State) : StorageError × State :=
  if s.closed then ({ type := .invalidState }, s)
  else if data.isEmpty then (.success, s)
  else
    let expectedBufferSize := s.currentPart.length + data.length
    let useMultipartUpload :=
      s.useMultipartUpload || decide (kMultipartSizeBytes < expectedBufferSize)
    if useMultipartUpload ∧ kMultipartSizeBytes < expectedBufferSize then
      let (parts, rest) := fillParts s.currentPart data
      (.success, { s with
        useMultipartUpload := useMultipartUpload
        uploadedParts := s.uploadedParts ++ parts
        currentPart := rest })
    else (.success, { s with
        useMultipartUpload := useMultipartUpload
        currentPart := s.currentPart ++ data })

/-- `Close`, which is `FinalizeUpload`. -/
def close (client : S3Client) (s : State) : StorageError × State :=
  if s.closed then (.success, s)
  else
    let s := { s with closed := true }
    if s.useMultipartUpload then
      let parts := if s.currentPart.isEmpty then s.uploadedParts
        else s.uploadedParts ++ [s.currentPart]
      (client.uploadParts parts, s)
    -- `SinglePutUpload`
    else if s.uploadedParts.isEmpty then (client.putObject s.currentPart, s)
    else ({ type := .internalError }, s)

/-- The writer of S3. -/
def s3ObjectWriter (client : S3Client) : ObjectWriter State := ⟨write, close client⟩

variable {s : State} {data currentPart : Bytes} {client : S3Client}

/-- What the writer has taken so far. -/
def State.bytes (s : State) : Bytes := s.uploadedParts.flatten ++ s.currentPart

lemma fillParts_flatten (currentPart data : Bytes)
    (h : currentPart.length ≤ kMultipartSizeBytes) :
    (fillParts currentPart data).1.flatten ++ (fillParts currentPart data).2 =
        currentPart ++ data ∧
      (fillParts currentPart data).2.length ≤ kMultipartSizeBytes := by
  induction currentPart, data using fillParts.induct with
  | case1 currentPart data hle leftToWrite parts rest hrest ih =>
    obtain ⟨hbytes, hlen⟩ := ih (Nat.zero_le _)
    rw [fillParts, if_pos hle]
    refine ⟨?_, hlen⟩
    rw [List.flatten_cons, List.append_assoc, hbytes, List.nil_append, List.append_assoc,
      List.take_append_drop]
  | case2 currentPart data hlt =>
    rw [fillParts, if_neg hlt]
    refine ⟨rfl, ?_⟩
    rw [List.length_append]
    omega

/-- What holds of a writer that is open. -/
structure Open (s : State) : Prop where
  closed : s.closed = false
  uploadedParts : s.useMultipartUpload = false → s.uploadedParts = []
  currentPart : s.currentPart.length ≤ kMultipartSizeBytes

/-- A new writer. -/
lemma open_start : Open {} := ⟨rfl, fun _ => rfl, Nat.zero_le _⟩

/-- An open writer accepts every block, and stays open. -/
lemma write_eq_success (h : Open s) (data : Bytes) :
    (write data s).1 = .success ∧ (write data s).2.bytes = s.bytes ++ data ∧
      Open (write data s).2 := by
  rw [write, h.closed, if_neg Bool.false_ne_true]
  cases data with
  | nil => exact ⟨rfl, by simp, h⟩
  | cons b data =>
    rw [List.isEmpty_cons, if_neg Bool.false_ne_true]
    dsimp only
    split_ifs with hfull
    · obtain ⟨hbytes, hlen⟩ := fillParts_flatten s.currentPart (b :: data) h.currentPart
      refine ⟨rfl, ?_, rfl, fun hmulti => ?_, hlen⟩
      · show (s.uploadedParts ++ (fillParts s.currentPart (b :: data)).1).flatten ++
          (fillParts s.currentPart (b :: data)).2 = s.bytes ++ b :: data
        rw [List.flatten_append, List.append_assoc, hbytes, State.bytes, List.append_assoc]
      · exact absurd (hmulti.symm.trans hfull.1) Bool.false_ne_true
    · refine ⟨rfl, (List.append_assoc ..).symm, rfl, fun hmulti => ?_, ?_⟩
      · exact h.uploadedParts (Bool.or_eq_false_iff.mp hmulti).1
      · rw [List.length_append]
        refine Nat.le_of_not_lt fun hlt => ?_
        exact hfull ⟨Bool.or_eq_true_iff.mpr (.inr (decide_eq_true hlt)), hlt⟩

/-- All blocks are accepted. -/
lemma exists_accept (client : S3Client) (blocks : List Bytes) (h : Open s) :
    ∃ s', (s3ObjectWriter client).accept blocks s = some s' ∧
      s'.bytes = s.bytes ++ blocks.flatten ∧ Open s' := by
  induction blocks generalizing s with
  | nil => exact ⟨s, rfl, by simp, h⟩
  | cons block blocks ih =>
    obtain ⟨hsuccess, hbytes, hopen⟩ := write_eq_success h block
    obtain ⟨s', hs', hbytes', hopen'⟩ := ih hopen
    refine ⟨s', ?_, by rw [hbytes', hbytes, List.flatten_cons, List.append_assoc], hopen'⟩
    rw [ObjectWriter.accept]
    have hwrite : ((s3ObjectWriter client).write block s).1 = .success := hsuccess
    rw [hwrite, StorageError.isError_success, if_neg Bool.false_ne_true]
    exact hs'

variable (client) in
/-- Closing an open writer uploads the bytes that it has taken, with one request or in parts. -/
lemma close_of_open (h : Open s) :
    (close client s).1 = client.putObject s.bytes ∨
      ∃ parts : List Bytes, parts.flatten = s.bytes ∧
        (close client s).1 = client.uploadParts parts := by
  rw [close, h.closed, if_neg Bool.false_ne_true]
  cases hmulti : s.useMultipartUpload with
  | true =>
    right
    simp only [if_true]
    refine ⟨_, ?_, rfl⟩
    split
    · next hempty => simp [State.bytes, List.isEmpty_iff.mp hempty]
    · simp [State.bytes]
  | false =>
    left
    have hnil := h.uploadedParts hmulti
    simp [hnil, State.bytes]

end S3ObjectWriter

end Skyrise

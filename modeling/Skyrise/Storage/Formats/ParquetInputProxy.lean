/-
The file interface for the Parquet library.

`ParquetInputProxy` reads from an object buffer at an offset that only `Seek` sets: a
read does not move it, so the next read returns the same bytes.  A read into memory of
the caller copies as many bytes as were asked for before it compares that number with what
the buffer returned.  Calls that follow a seek are those of a file.
-/
import Skyrise.Storage.IoHandle.ObjectBufferReads

namespace Skyrise

open Intervals

/-- A position or a number of bytes: an `int64_t` that is not negative. -/
abbrev Length : Type := Fin (2 ^ 63)

/-- Where a read puts its bytes. -/
inductive ReadForm where
  /-- Into memory of the caller. -/
  | into
  /-- Into a buffer of its own. -/
  | buffer
deriving DecidableEq

/-- A call of the file interface. -/
inductive FileCall where
  | seek (position : Length)
  | tell
  | read (form : ReadForm) (nbytes : Length)
deriving DecidableEq

/-- What a call of the file interface returns. -/
inductive FileResult where
  | ok
  | position (offset : ℕ)
  | bytes (data : List UInt8)
  /-- A status with the message of an I/O error. -/
  | ioError (message : String)
  | thrown (exception : Exception)
deriving DecidableEq

namespace ParquetInputProxy

variable {object : StoredObject}

/-- The status of a read that has not found all bytes. -/
def mismatch (nbytes size : ℕ) : FileResult :=
  .ioError ("IOError read bytes mismatch expected=" ++ toString nbytes ++ " read=" ++ toString size)

/-- `Read` into memory of the caller. -/
def readInto (source : ObjectBuffer) (offset : UInt64) (nbytes : Length) : FileResult :=
  match source.read offset (.ofNat nbytes) with
  | .error exception => .thrown exception
  | .ok bufferView =>
    -- `memcpy` reads behind the buffer if it has fewer bytes.
    if bufferView.length < nbytes then .thrown .undefinedBehavior
    else if bufferView.length ≠ nbytes then mismatch nbytes bufferView.length
    else .bytes (bufferView.take nbytes)

/-- `Read` into a new buffer. -/
def readBuffer (source : ObjectBuffer) (offset : UInt64) (nbytes : Length) : FileResult :=
  match source.read offset (.ofNat nbytes) with
  | .error exception => .thrown exception
  | .ok bufferView =>
    if bufferView.length ≠ nbytes then mismatch nbytes bufferView.length
    else .bytes (bufferView.take nbytes)

/-- One call: the result, and `offset_` afterwards. -/
def call (source : ObjectBuffer) (offset : UInt64) : FileCall → FileResult × UInt64
  | .seek position => (.ok, .ofNat position)
  | .tell => (.position offset.toNat, offset)
  | .read .into nbytes => (readInto source offset nbytes, offset)
  | .read .buffer nbytes => (readBuffer source offset nbytes, offset)

/-- A sequence of calls. -/
def run (source : ObjectBuffer) : UInt64 → List FileCall → List FileResult
  | _, [] => []
  | offset, c :: calls => (call source offset c).1 :: run source (call source offset c).2 calls

end ParquetInputProxy

/-! ### A file cursor -/

/-- All bytes of a read are loaded. -/
def FullyLoaded (ranges : List Range) (offset nbytes : ℕ) : Prop :=
  ∀ x, offset ≤ x → x < offset + nbytes → x ∈ points ranges

/-- One call of a cursor over the loaded bytes of an object. -/
inductive CursorStep (object : StoredObject) (ranges : List Range) :
    ℕ → FileCall → FileResult → ℕ → Prop
  | seek (position : ℕ) (p : Length) : CursorStep object ranges position (.seek p) .ok p
  | tell (position : ℕ) : CursorStep object ranges position .tell (.position position) position
  -- the bytes at the position, which advances
  | read {position : ℕ} (form : ReadForm) {nbytes : Length}
      (h : FullyLoaded ranges position nbytes) :
      CursorStep object ranges position (.read form nbytes)
        (.bytes ((object.data.drop position).take nbytes)) (position + nbytes)
  -- an error, without a byte
  | readError {position : ℕ} (form : ReadForm) {nbytes : Length}
      (h : ¬FullyLoaded ranges position nbytes) (message : String) :
      CursorStep object ranges position (.read form nbytes) (.ioError message) position

/-- The results of a cursor, call by call. -/
inductive CursorRun (object : StoredObject) (ranges : List Range) :
    ℕ → List FileCall → List FileResult → Prop
  | nil (position : ℕ) : CursorRun object ranges position [] []
  | cons {position position' : ℕ} {c : FileCall} {result : FileResult} {calls : List FileCall}
      {results : List FileResult} (step : CursorStep object ranges position c result position')
      (rest : CursorRun object ranges position' calls results) :
      CursorRun object ranges position (c :: calls) (result :: results)

/-- Calls that follow a seek: after a read that has found a byte, neither a read nor a question
for the position comes before the next seek.  The reads return loaded bytes only, and those into
memory of the caller find all of them. -/
def SeeksFirst (ranges : List Range) : ℕ → Prop → List FileCall → Prop
  | _, _, [] => True
  | _, _, .seek p :: calls => SeeksFirst ranges p False calls
  | position, moved, .tell :: calls => ¬moved ∧ SeeksFirst ranges position moved calls
  | position, moved, .read form nbytes :: calls =>
    (¬moved ∧ LoadedBuffer.CanRead ranges position nbytes ∧
      (form = .into → FullyLoaded ranges position nbytes)) ∧
    SeeksFirst ranges position (FullyLoaded ranges position nbytes ∧ 0 < nbytes.val) calls

namespace ParquetInputProxy

variable {object : StoredObject} {buffer : LoadedBuffer object} {offset : UInt64}
  {nbytes : Length}

lemma toNat_ofNat (n : Length) : (UInt64.ofNat n).toNat = n := by
  have hlt := n.isLt
  rw [UInt64.toNat_ofNat']
  omega

/-- What a read gets that returns loaded bytes only. -/
lemma exists_read_of_canRead
    (h : LoadedBuffer.CanRead buffer.ranges offset.toNat nbytes) :
    ∃ view, buffer.read offset (.ofNat nbytes) = .ok view ∧
      (FullyLoaded buffer.ranges offset.toNat nbytes →
        view = (object.data.drop offset.toNat).take nbytes ∧ view.length = nbytes) ∧
      (¬FullyLoaded buffer.ranges offset.toNat nbytes → view.length < nbytes) := by
  rw [← toNat_ofNat nbytes, ← buffer.exists_read_iff_canRead, toNat_ofNat] at h
  obtain ⟨view, hread, length, hle, hloaded, hend, hview⟩ := h
  refine ⟨view, hread, fun hfull => ?_, fun hnot => ?_⟩
  · obtain rfl : length = nbytes := by
      rcases hend with h | h
      · exact h
      · by_contra hne
        exact h (hfull _ (by omega) (by omega))
    refine ⟨hview, ?_⟩
    rw [hview, List.length_take, List.length_drop]
    rcases Nat.eq_zero_or_pos (nbytes : ℕ) with hzero | hpos
    · omega
    · -- the last byte is in the object
      obtain ⟨r, hr, hx⟩ := hfull (offset.toNat + nbytes - 1) (by omega) (by omega)
      obtain ⟨b, hb, rfl⟩ := LoadedBuffer.mem_ranges.mp hr
      have hsize := (buffer.loaded b hb).2.1
      omega
  · have hlt : length < nbytes := by
      refine lt_of_le_of_ne hle fun heq => hnot fun x hx hlt => ?_
      exact hloaded x hx (by omega)
    rw [hview, List.length_take]
    omega

lemma readInto_of_canRead (h : LoadedBuffer.CanRead buffer.ranges offset.toNat nbytes)
    (hfull : FullyLoaded buffer.ranges offset.toNat nbytes) :
    readInto buffer.toObjectBuffer offset nbytes =
      .bytes ((object.data.drop offset.toNat).take nbytes) := by
  obtain ⟨view, hread, hview, -⟩ := exists_read_of_canRead h
  obtain ⟨rfl, hlength⟩ := hview hfull
  rw [readInto, hread]
  dsimp only
  rw [if_neg (by omega), if_neg (not_not.mpr hlength), List.take_take, min_self]

lemma readBuffer_of_canRead (h : LoadedBuffer.CanRead buffer.ranges offset.toNat nbytes)
    (hfull : FullyLoaded buffer.ranges offset.toNat nbytes) :
    readBuffer buffer.toObjectBuffer offset nbytes =
      .bytes ((object.data.drop offset.toNat).take nbytes) := by
  obtain ⟨view, hread, hview, -⟩ := exists_read_of_canRead h
  obtain ⟨rfl, hlength⟩ := hview hfull
  rw [readBuffer, hread]
  dsimp only
  rw [if_neg (not_not.mpr hlength), List.take_take, min_self]

/-- A read that is not fully loaded returns an error. -/
lemma exists_readBuffer_eq_ioError (h : LoadedBuffer.CanRead buffer.ranges offset.toNat nbytes)
    (hnot : ¬FullyLoaded buffer.ranges offset.toNat nbytes) :
    ∃ message, readBuffer buffer.toObjectBuffer offset nbytes = .ioError message := by
  obtain ⟨view, hread, -, hview⟩ := exists_read_of_canRead h
  have hlength := hview hnot
  refine ⟨"IOError read bytes mismatch expected=" ++ toString (nbytes : ℕ) ++ " read=" ++
    toString view.length, ?_⟩
  rw [readBuffer, hread]
  dsimp only
  rw [if_pos hlength.ne, mismatch]

/-- One read of a cursor that is where the proxy is. -/
lemma exists_cursorStep_read (form : ReadForm)
    (h : LoadedBuffer.CanRead buffer.ranges offset.toNat nbytes)
    (hinto : form = .into → FullyLoaded buffer.ranges offset.toNat nbytes) :
    (call buffer.toObjectBuffer offset (.read form nbytes)).2 = offset ∧
      ∃ position', CursorStep object buffer.ranges offset.toNat (.read form nbytes)
        (call buffer.toObjectBuffer offset (.read form nbytes)).1 position' ∧
        (¬(FullyLoaded buffer.ranges offset.toNat nbytes ∧ 0 < nbytes.val) →
          position' = offset.toNat) := by
  by_cases hfull : FullyLoaded buffer.ranges offset.toNat nbytes
  · have hposition : ¬(FullyLoaded buffer.ranges offset.toNat nbytes ∧ 0 < nbytes.val) →
        offset.toNat + nbytes = offset.toNat := by
      intro hnot
      have hzero : ¬0 < nbytes.val := fun hpos => hnot ⟨hfull, hpos⟩
      omega
    cases form with
    | into =>
      refine ⟨rfl, offset.toNat + nbytes, ?_, hposition⟩
      rw [call, readInto_of_canRead h hfull]
      exact .read _ hfull
    | buffer =>
      refine ⟨rfl, offset.toNat + nbytes, ?_, hposition⟩
      rw [call, readBuffer_of_canRead h hfull]
      exact .read _ hfull
  · cases form with
    | into => exact absurd (hinto rfl) hfull
    | buffer =>
      obtain ⟨message, hmessage⟩ := exists_readBuffer_eq_ioError h hfull
      refine ⟨rfl, offset.toNat, ?_, fun _ => rfl⟩
      rw [call, hmessage]
      exact .readError _ hfull message

/-- The run, from a cursor that is where the proxy is unless a read has moved it. -/
lemma cursorRun_of_seeksFirst {position : ℕ} {moved : Prop} (calls : List FileCall)
    (hposition : ¬moved → position = offset.toNat)
    (h : SeeksFirst buffer.ranges offset.toNat moved calls) :
    CursorRun object buffer.ranges position calls (run buffer.toObjectBuffer offset calls) := by
  induction calls generalizing offset position moved with
  | nil => exact .nil position
  | cons c calls ih =>
    rw [run]
    cases c with
    | seek p =>
      rw [SeeksFirst, ← toNat_ofNat p] at h
      exact .cons (.seek position p) (ih (fun _ => (toNat_ofNat p).symm) h)
    | tell =>
      rw [SeeksFirst] at h
      obtain rfl := hposition h.1
      exact .cons (.tell offset.toNat) (ih (fun _ => rfl) h.2)
    | read form nbytes =>
      rw [SeeksFirst] at h
      obtain ⟨⟨hmoved, hread, hinto⟩, hrest⟩ := h
      obtain rfl := hposition hmoved
      obtain ⟨hoffset, position', hstep, hposition'⟩ := exists_cursorStep_read form hread hinto
      refine .cons hstep ?_
      rw [hoffset]
      exact ih hposition' hrest

/-- **A file cursor**, for calls that follow a seek. -/
theorem cursorRun_run (buffer : LoadedBuffer object) (calls : List FileCall)
    (h : SeeksFirst buffer.ranges 0 False calls) :
    CursorRun object buffer.ranges 0 calls (run buffer.toObjectBuffer 0 calls) :=
  cursorRun_of_seeksFirst calls (fun _ => rfl) h

/-- Three bytes that are loaded. -/
def allLoaded : LoadedBuffer LoadedBuffer.threeBytes where
  requestBuffer := [((0, 3), [1, 2, 3])]
  sorted := by decide
  loaded := by decide

/-- A seek, a question for the position and a read. -/
theorem cursorRun_seekTellRead :
    SeeksFirst allLoaded.ranges 0 False [.seek 1, .tell, .read .into 2] ∧
      CursorRun LoadedBuffer.threeBytes allLoaded.ranges 0 [.seek 1, .tell, .read .into 2]
        (run allLoaded.toObjectBuffer 0 [.seek 1, .tell, .read .into 2]) := by
  have hloaded : FullyLoaded allLoaded.ranges 1 2 :=
    fun x hx hlt => ⟨(0, 3), List.mem_singleton_self _, by omega, by omega⟩
  have hread : LoadedBuffer.CanRead allLoaded.ranges 1 2 := by
    rw [LoadedBuffer.CanRead, if_pos (by omega)]
    exact .inl ⟨(0, 3), List.mem_singleton_self _, by omega, by omega⟩
  have h : SeeksFirst allLoaded.ranges 0 False [.seek 1, .tell, .read .into 2] :=
    ⟨not_false, ⟨not_false, hread, fun _ => hloaded⟩, trivial⟩
  exact ⟨h, cursorRun_run allLoaded _ h⟩

/-- The second of two reads returns the bytes of the first one. -/
theorem not_cursorRun_readRead :
    ¬CursorRun LoadedBuffer.threeBytes allLoaded.ranges 0 [.read .buffer 1, .read .buffer 1]
      (run allLoaded.toObjectBuffer 0 [.read .buffer 1, .read .buffer 1]) := by
  have hrun : run allLoaded.toObjectBuffer 0 [.read .buffer 1, .read .buffer 1] =
      [.bytes [1], .bytes [1]] := by rfl
  rw [hrun]
  rintro (_ | ⟨step, _ | ⟨step', -⟩⟩)
  generalize hfirst : FileResult.bytes [1] = first at step
  cases step with
  | read form h =>
    generalize hsecond : FileResult.bytes [1] = second at step'
    cases step' with
    | read form h =>
      have hbytes := FileResult.bytes.inj hsecond
      revert hbytes
      decide
    | readError form h message => cases hsecond
  | readError form h message => cases hfirst

end ParquetInputProxy

end Skyrise

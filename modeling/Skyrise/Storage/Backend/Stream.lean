/-
Streams over objects.

`ObjectReaderStreamBuffer` keeps a buffer, its offset in the object and a get pointer.  A
seek outside of the buffer drops the get pointer and moves the offset, but not the buffer:
until the next byte is read the buffer holds bytes of another place, and a seek that
falls behind the new offset goes to them.  When the end of the object is hit, the offset
moves behind it while the get pointer stays, so positions that are relative to it are too
large.  A buffer that is filled with the tail has offset zero, and its bytes are
overwritten with zeros when it is resized.
-/
import Skyrise.Storage.Backend.ObjectReader
import Skyrise.Utils.InputStream

namespace Skyrise

open InputStream

/-- `ObjectReaderStreamBuffer`, without the reader. -/
structure ObjectReaderStreamBuffer where
  /-- `current_offset_`. -/
  currentOffset : ℕ
  /-- `buffer_`. -/
  buffer : List UInt8
  /-- `gptr() - eback()`, if the get pointer is not null. -/
  gptr : Option ℕ
deriving DecidableEq

namespace ObjectReaderStreamBuffer

/-- `kBufferSize`. -/
def kBufferSize : ℕ := 20 * 1024 * 1024

/-- The constructor. -/
def new : ObjectReaderStreamBuffer := ⟨0, [], none⟩

/-- `FillBufferWithTail`.  The reader writes the tail into memory behind the end of the vector,
and the vector is then resized to as many zeros. -/
def fillBufferWithTail (object : StoredObject) (s : ObjectReaderStreamBuffer) :
    ObjectReaderStreamBuffer :=
  { s with
    buffer := List.replicate (min kBufferSize object.data.length) 0
    gptr := some 0 }

/-- `underflow`: whether there is a next byte, at the get pointer.  The reader returns the range
that it is asked for, so neither of the exceptions is thrown. -/
def underflow (object : StoredObject) (s : ObjectReaderStreamBuffer) :
    Bool × ObjectReaderStreamBuffer :=
  let currentOffset :=
    if s.gptr.isSome then (s.currentOffset + s.buffer.length) % 2 ^ 64 else s.currentOffset
  if currentOffset ≥ object.data.length then (false, { s with currentOffset := currentOffset })
  else
    let readUntilInclusive := min object.data.length (currentOffset + kBufferSize) - 1
    (true, ⟨currentOffset, ObjectReader.bytes object currentOffset readUntilInclusive, some 0⟩)

/-- `uflow` of a stream buffer: the byte of `underflow`, which is consumed. -/
def uflow (object : StoredObject) (s : ObjectReaderStreamBuffer) :
    Option UInt8 × ObjectReaderStreamBuffer :=
  match underflow object s with
  | (false, s) => (none, s)
  | (true, s) => (s.buffer[0]?, { s with gptr := some 1 })

/-- `sbumpc` of a stream buffer. -/
def sbumpc (object : StoredObject) (s : ObjectReaderStreamBuffer) :
    Option UInt8 × ObjectReaderStreamBuffer :=
  match s.gptr with
  | none => uflow object s
  | some i =>
    if i < s.buffer.length then (s.buffer[i]?, { s with gptr := some (i + 1) })
    else uflow object s

/-- `seekpos`, with the position as a `size_t`. -/
def seekTo (object : StoredObject) (s : ObjectReaderStreamBuffer) (absolutePosition : ℕ) :
    Option ℕ × ObjectReaderStreamBuffer :=
  if absolutePosition > object.data.length then (none, s)
  else if absolutePosition ≥ s.currentOffset ∧
      absolutePosition < (s.currentOffset + s.buffer.length) % 2 ^ 64 then
    (some absolutePosition, { s with gptr := some (absolutePosition - s.currentOffset) })
  else (some absolutePosition, { s with currentOffset := absolutePosition, gptr := none })

/-- The conversion to `size_t`. -/
def sizeOf64 (x : ℤ) : ℕ := (x % 2 ^ 64).toNat

/-- `seekpos`. -/
def seekpos (object : StoredObject) (s : ObjectReaderStreamBuffer) (pos : Int64) :
    Option ℕ × ObjectReaderStreamBuffer :=
  seekTo object s (sizeOf64 pos.toInt)

/-- `seekoff`. -/
def seekoff (object : StoredObject) (s : ObjectReaderStreamBuffer) (off : Int64) (dir : SeekDir) :
    Option ℕ × ObjectReaderStreamBuffer :=
  match dir with
  | .beg => seekTo object s (sizeOf64 off.toInt)
  | .cur =>
    match s.gptr with
    | none => seekTo object s (sizeOf64 (s.currentOffset + off.toInt))
    | some i => seekTo object s (sizeOf64 (s.currentOffset + (i + off.toInt)))
  | .end => seekTo object s (sizeOf64 (object.data.length + off.toInt))

/-- The stream buffer over an object. -/
def streamBuffer (object : StoredObject) : StreamBuffer ObjectReaderStreamBuffer where
  sbumpc := sbumpc object
  seekpos := seekpos object
  seekoff := seekoff object

end ObjectReaderStreamBuffer

/-- `ObjectReaderStream`. -/
def ObjectReaderStream (object : StoredObject) (initialFillBufferWithTail : Bool) :
    StreamState ObjectReaderStreamBuffer :=
  { buffer :=
      if initialFillBufferWithTail then
        ObjectReaderStreamBuffer.fillBufferWithTail object .new
      else .new }

namespace ObjectReaderStreamBuffer

variable {object : StoredObject} {s : ObjectReaderStreamBuffer} {position : ℕ}

/-- The buffer holds the bytes of the object from its offset on. -/
def Filled (object : StoredObject) (s : ObjectReaderStreamBuffer) : Prop :=
  s.buffer = (object.data.drop s.currentOffset).take s.buffer.length

/-- States from which the next byte is taken as it should: a get pointer in the buffer points
to bytes of the object, and the end of the buffer is an offset. -/
def TakesByte (object : StoredObject) (s : ObjectReaderStreamBuffer) : Prop :=
  ∀ i, s.gptr = some i → (i < s.buffer.length → Filled object s) ∧
    s.currentOffset + s.buffer.length < 2 ^ 64

/-- States that know their position: the get pointer is not behind the end of the object. -/
def KnowsPosition (object : StoredObject) (s : ObjectReaderStreamBuffer) : Prop :=
  ∀ i, s.gptr = some i → s.currentOffset + i ≤ object.data.length

/-- The position of a stream. -/
structure At (object : StoredObject) (s : ObjectReaderStreamBuffer) (position : ℕ) : Prop where
  le_size : position ≤ object.data.length
  offset_lt : s.currentOffset < 2 ^ 64
  length_le : s.buffer.length ≤ object.data.length
  gptr_le : ∀ i, s.gptr = some i → i ≤ s.buffer.length
  /-- Without a get pointer the offset is the position. -/
  of_none : s.gptr = none → position = s.currentOffset
  /-- The get pointer is at the position, or the end of the object has been hit. -/
  of_some : ∀ i, s.gptr = some i → position = s.currentOffset + i ∨
    (i = s.buffer.length ∧ position = object.data.length ∧ object.data.length ≤ s.currentOffset)

/-- The bytes that are loaded are not empty. -/
lemma loaded_bytes {first : ℕ} (h : first < object.data.length) :
    let bytes := ObjectReader.bytes object first
      (min object.data.length (first + kBufferSize) - 1)
    0 < bytes.length ∧ bytes.length ≤ object.data.length ∧
      bytes[0]? = object.data[first]? := by
  have hsize : kBufferSize = 20971520 := rfl
  have hlength : (ObjectReader.bytes object first
      (min object.data.length (first + kBufferSize) - 1)).length =
      min object.data.length (first + kBufferSize) - first := by
    rw [ObjectReader.bytes, List.length_take, List.length_drop]
    omega
  refine ⟨by omega, by omega, ?_⟩
  rw [ObjectReader.bytes, List.getElem?_take_of_lt (by omega), List.getElem?_drop, Nat.add_zero]

/-- The offset of the next part. -/
def nextOffset (s : ObjectReaderStreamBuffer) : ℕ :=
  if s.gptr.isSome then (s.currentOffset + s.buffer.length) % 2 ^ 64 else s.currentOffset

lemma uflow_of_le (h : object.data.length ≤ nextOffset s) :
    uflow object s = (none, { s with currentOffset := nextOffset s }) := by
  rw [uflow, underflow, ← nextOffset, if_pos h]

lemma uflow_of_lt (h : nextOffset s < object.data.length) :
    uflow object s = (object.data[nextOffset s]?,
      ⟨nextOffset s, ObjectReader.bytes object (nextOffset s)
        (min object.data.length (nextOffset s + kBufferSize) - 1), some 1⟩) := by
  rw [uflow, underflow, ← nextOffset, if_neg (not_le.mpr h)]
  dsimp only
  rw [(loaded_bytes h).2.2]

lemma ofContents_sbumpc_of_lt {contents : List UInt8} (h : position < contents.length) :
    (ofContents contents).sbumpc position = (contents[position]?, position + 1) := by
  rw [ofContents]
  dsimp only
  rw [List.getElem?_eq_getElem h]

lemma ofContents_sbumpc_of_le {contents : List UInt8} (h : contents.length ≤ position) :
    (ofContents contents).sbumpc position = (none, position) := by
  rw [ofContents]
  dsimp only
  rw [List.getElem?_eq_none h]

/-- What is done at the end of the buffer. -/
lemma uflow_spec (h : At object s position)
    (hposition : position = nextOffset s ∨
      position = object.data.length ∧ object.data.length ≤ nextOffset s)
    (hend : ∀ i, s.gptr = some i → i = s.buffer.length) :
    (uflow object s).1 = ((ofContents object.data).sbumpc position).1 ∧
      At object (uflow object s).2 ((ofContents object.data).sbumpc position).2 := by
  have hoffset := h.offset_lt
  have hle := h.le_size
  rcases Nat.lt_or_ge (nextOffset s) object.data.length with hlt | hge
  · -- the next part of the object is loaded
    obtain rfl : position = nextOffset s := by omega
    obtain ⟨hpos, hlength, -⟩ := loaded_bytes hlt
    have hobject := object.length_lt
    rw [uflow_of_lt hlt, ofContents_sbumpc_of_lt hlt]
    refine ⟨rfl, hlt, ?_, hlength, fun i hi => ?_, fun hnull => (by cases hnull), fun i hi => ?_⟩
    · dsimp only
      omega
    · obtain rfl := Option.some.inj hi
      exact hpos
    · obtain rfl := Option.some.inj hi
      exact .inl rfl
  · -- the end of the object
    rw [uflow_of_le hge, ofContents_sbumpc_of_le (by omega)]
    refine ⟨rfl, hle, ?_, h.length_le, h.gptr_le, fun hnull => ?_, fun i hi => ?_⟩
    · rw [nextOffset]
      dsimp only
      split <;> omega
    · have hnull : s.gptr = none := hnull
      rw [h.of_none hnull, nextOffset, hnull]
      rfl
    · exact .inr ⟨hend i hi, by omega, hge⟩

lemma sbumpc_spec (h : At object s position) (hgood : TakesByte object s) :
    (sbumpc object s).1 = ((ofContents object.data).sbumpc position).1 ∧
      At object (sbumpc object s).2 ((ofContents object.data).sbumpc position).2 := by
  rw [sbumpc.eq_def]
  cases hgptr : s.gptr with
  | none =>
    refine uflow_spec h (.inl ?_) fun i hi => ?_
    · rw [h.of_none hgptr, nextOffset, hgptr]
      rfl
    · rw [hgptr] at hi
      cases hi
  | some i =>
    obtain ⟨hfilled, hlt⟩ := hgood i hgptr
    have hle := h.gptr_le i hgptr
    dsimp only
    by_cases hi : i < s.buffer.length
    · -- a byte of the buffer
      obtain hposition | ⟨hend, -⟩ := h.of_some i hgptr
      swap
      · omega
      have hbyte : s.buffer[i]? = object.data[position]? := by
        have hfilled := hfilled hi
        rw [Filled] at hfilled
        rw [hfilled, List.getElem?_take_of_lt (by omega), List.getElem?_drop, hposition]
      have hpositionLt : position < object.data.length := by
        by_contra! hge
        rw [List.getElem?_eq_none hge, List.getElem?_eq_getElem hi] at hbyte
        cases hbyte
      rw [if_pos hi, ofContents_sbumpc_of_lt hpositionLt]
      refine ⟨hbyte, hpositionLt, h.offset_lt, h.length_le, fun j hj => ?_,
        fun hnull => (by cases hnull), fun j hj => ?_⟩
      · obtain rfl := Option.some.inj hj
        exact hi
      · obtain rfl := Option.some.inj hj
        left
        dsimp only
        omega
    · rw [if_neg hi]
      obtain rfl : i = s.buffer.length := by omega
      have hoffset : nextOffset s = s.currentOffset + s.buffer.length := by
        rw [nextOffset, hgptr, Option.isSome_some, if_pos rfl, Nat.mod_eq_of_lt hlt]
      refine uflow_spec h ?_ fun j hj => Option.some.inj (hj.symm.trans hgptr)
      rcases h.of_some _ hgptr with hposition | ⟨-, hposition, hsize⟩
      · exact .inl (hposition.trans hoffset.symm)
      · exact .inr ⟨hposition, by omega⟩

/-- A position as a `size_t`: only those in the object are small enough. -/
lemma sizeOf64_spec (object : StoredObject) {x : ℤ} (hx : -2 ^ 63 ≤ x) (hlt : x < 2 ^ 64) :
    (sizeOf64 x ≤ object.data.length ↔ 0 ≤ x ∧ x ≤ object.data.length) ∧
      (0 ≤ x → sizeOf64 x = x.toNat) := by
  have hobject := object.length_lt
  rw [sizeOf64]
  constructor
  · rcases lt_or_ge x 0 with hneg | hnonneg
    · have hmod : x % 2 ^ 64 = x + 2 ^ 64 := by omega
      rw [hmod]
      omega
    · rw [Int.emod_eq_of_lt hnonneg hlt]
      omega
  · intro hnonneg
    rw [Int.emod_eq_of_lt hnonneg hlt]

lemma seekTo_spec (h : At object s position) {x : ℤ} (hx : -2 ^ 63 ≤ x) (hlt : x < 2 ^ 64) :
    (seekTo object s (sizeOf64 x)).1 = (goTo object.data position x).1 ∧
      At object (seekTo object s (sizeOf64 x)).2 (goTo object.data position x).2 := by
  have hobject := object.length_lt
  obtain ⟨hiff, heq⟩ := sizeOf64_spec object hx hlt
  rw [seekTo, goTo]
  by_cases hin : 0 ≤ x ∧ x ≤ object.data.length
  · have htarget := hiff.mpr hin
    have hx' := heq hin.1
    rw [if_neg (by omega), if_pos hin, hx']
    by_cases hwindow : x.toNat ≥ s.currentOffset ∧
        x.toNat < (s.currentOffset + s.buffer.length) % 2 ^ 64
    · -- inside of the buffer
      rw [if_pos hwindow]
      refine ⟨rfl, by omega, h.offset_lt, h.length_le, fun i hi => ?_, fun hnull => ?_, fun i hi => ?_⟩
      · obtain rfl := Option.some.inj hi
        dsimp only
        have hmod := Nat.mod_le (s.currentOffset + s.buffer.length) (2 ^ 64)
        omega
      · cases hnull
      · obtain rfl := Option.some.inj hi
        left
        dsimp only
        omega
    · rw [if_neg hwindow]
      exact ⟨rfl, by omega, by dsimp only; omega, h.length_le, fun i hi => (by cases hi),
        fun _ => rfl, fun i hi => (by cases hi)⟩
  · rw [if_pos (not_le.mp (mt hiff.mp hin)), if_neg hin]
    exact ⟨rfl, h⟩

lemma toInt_bounds (off : Int64) : -2 ^ 63 ≤ off.toInt ∧ off.toInt < 2 ^ 63 :=
  ⟨off.le_toInt, off.toInt_lt⟩

lemma seekoff_spec (h : At object s position) (off : Int64) (dir : SeekDir)
    (hknows : dir = .cur → KnowsPosition object s) :
    (seekoff object s off dir).1 = ((ofContents object.data).seekoff position off dir).1 ∧
      At object (seekoff object s off dir).2
        ((ofContents object.data).seekoff position off dir).2 := by
  have hobject := object.length_lt
  have hposition := h.le_size
  obtain ⟨hoff, hoff'⟩ := toInt_bounds off
  cases dir with
  | beg => exact seekTo_spec h hoff (by omega)
  | cur =>
    have hknows := hknows rfl
    rw [seekoff, ofContents]
    dsimp only
    cases hgptr : s.gptr with
    | none =>
      rw [← h.of_none hgptr]
      exact seekTo_spec h (by omega) (by omega)
    | some i =>
      have hi := hknows i hgptr
      have heq : (s.currentOffset : ℤ) + (i + off.toInt) = position + off.toInt := by
        rcases h.of_some i hgptr with hat | ⟨-, hat, hsize⟩ <;> omega
      dsimp only
      rw [heq]
      exact seekTo_spec h (by omega) (by omega)
  | «end» => exact seekTo_spec h (by omega) (by omega)

/-- The stream buffer answers like a position in the object. -/
lemma simulation (object : StoredObject) :
    Simulation (streamBuffer object) (ofContents object.data) (TakesByte object)
      (KnowsPosition object) (At object) where
  sbumpc h hgood := sbumpc_spec h hgood
  seekpos pos h := by
    obtain ⟨hpos, hpos'⟩ := toInt_bounds pos
    exact seekTo_spec h hpos (by omega)
  seekoff off dir h hknows := seekoff_spec h off dir hknows

/-- A new stream is at the start of the object. -/
lemma at_objectReaderStream (initialFillBufferWithTail : Bool) :
    At object (ObjectReaderStream object initialFillBufferWithTail).buffer 0 := by
  cases initialFillBufferWithTail with
  | false =>
    exact ⟨Nat.zero_le _, Nat.two_pow_pos 64, Nat.zero_le _, fun i hi => (by cases hi),
      fun _ => rfl, fun i hi => (by cases hi)⟩
  | true =>
    refine ⟨Nat.zero_le _, Nat.two_pow_pos 64, ?_, fun i hi => ?_, fun hnull => (by cases hnull),
      fun i hi => ?_⟩
    · show (List.replicate (min kBufferSize object.data.length) 0).length ≤ _
      rw [List.length_replicate]
      exact min_le_right _ _
    · obtain rfl := Option.some.inj hi
      exact Nat.zero_le _
    · obtain rfl := Option.some.inj hi
      exact .inl rfl

/-- An object of two bytes. -/
def twoBytes : StoredObject := ⟨[1, 2], by decide⟩

end ObjectReaderStreamBuffer

end Skyrise

/-
Byte buffers.

A byte buffer wraps memory of its caller or has a vector of its own.  It leaves the
memory of the caller when it becomes larger than that, and returns to it when it has
become small enough.  `ByteBuffer` is a buffer whose vector has always got the memory that
it needed.

A vector may not get the memory.  It then throws and stays as it is, and so does a buffer
that has a vector already.  A buffer that is about to leave the memory of the caller has an
empty vector by then, which takes the place of its contents.
-/
import Mathlib.Data.List.TakeDrop
import Skyrise.Utils.ReadWriteStream

namespace Skyrise

open ReadWriteStream

/-- `ByteBuffer`: bytes in memory of the caller, or in a vector of its own. -/
structure ByteBuffer where
  /-- `external_data_`, unless it is null, with as many bytes as `external_data_capacity_`. -/
  externalData : Option (List UInt8)
  /-- `external_data_size_`. -/
  externalDataSize : ℕ
  /-- `internal_data_`. -/
  internalData : Option (List UInt8)
  size_le : externalDataSize ≤ (externalData.getD []).length
  /-- The vector has more bytes than the memory of the caller. -/
  capacity_lt : ∀ data memory, internalData = some data → externalData = some memory →
    memory.length < data.length

namespace ByteBuffer

/-- The constructor with memory. -/
def ofMemory (memory : List UInt8) : ByteBuffer where
  externalData := some memory
  externalDataSize := memory.length
  internalData := none
  size_le := le_rfl
  capacity_lt data _ hdata := by cases hdata

/-- The constructor without memory. -/
def empty : ByteBuffer where
  externalData := none
  externalDataSize := 0
  internalData := some []
  size_le := le_rfl
  capacity_lt _ memory _ hmemory := by cases hmemory

/-- The bytes from `Data` on. -/
def data (b : ByteBuffer) : List UInt8 :=
  match b.internalData with
  | some data => data
  | none => (b.externalData.getD []).take b.externalDataSize

/-- `Size`. -/
def size (b : ByteBuffer) : ℕ :=
  match b.internalData with
  | some data => data.length
  | none => b.externalDataSize

@[simp] lemma length_data (b : ByteBuffer) : b.data.length = b.size := by
  rw [data, size]
  cases b.internalData with
  | some data => rfl
  | none => exact (List.length_take ..).trans (min_eq_left b.size_le)

/-- `UseExternalDataAgain`, with the data and the memory that there are. -/
def useExternalDataAgain (data memory : List UInt8) (newSize : ℕ) (h : newSize ≤ memory.length) :
    ByteBuffer where
  externalData := some (overwrite memory 0 (data.take newSize))
  externalDataSize := newSize
  internalData := none
  size_le := h.trans (le_length_overwrite _ _ _)
  capacity_lt data _ hdata := by cases hdata

/-- `Resize`, up to the maximum size of a vector. -/
def resizeData (b : ByteBuffer) (newSize : ℕ) : ByteBuffer :=
  match b.internalData, hb : b.externalData with
  | some data, some memory =>
    if h : newSize ≤ memory.length then useExternalDataAgain data memory newSize h
    else
      { b with
        internalData := some (data.takeD newSize 0)
        capacity_lt := by
          intro data' memory' hdata hmemory
          obtain rfl := Option.some.inj (hb.symm.trans hmemory)
          obtain rfl := Option.some.inj hdata
          rw [List.takeD_length]
          omega }
  | some data, none =>
    { b with
      internalData := some (data.takeD newSize 0)
      capacity_lt := fun _ memory _ hmemory => by rw [hb] at hmemory; cases hmemory }
  | none, _ =>
    if h : newSize > (b.externalData.getD []).length then
      { b with
        internalData := some (((b.externalData.getD []).take b.externalDataSize).takeD newSize 0)
        capacity_lt := by
          intro data' memory' hdata hmemory
          obtain rfl := Option.some.inj hdata
          rw [List.takeD_length]
          rw [hmemory] at h
          exact h }
    else
      { b with
        externalDataSize := newSize
        size_le := not_lt.mp h }

/-- Bytes that are copied to an offset. -/
def copyN (b : ByteBuffer) (bytes : List UInt8) (offset : ℕ) : ByteBuffer :=
  match hb : b.internalData with
  | some data =>
    { b with
      internalData := some (overwrite data offset bytes)
      capacity_lt := by
        intro data' memory hdata hmemory
        obtain rfl := Option.some.inj hdata
        exact (b.capacity_lt data memory hb hmemory).trans_le (le_length_overwrite _ _ _) }
  | none =>
    { b with
      externalData := b.externalData.map (overwrite · offset bytes)
      size_le := by
        apply b.size_le.trans
        cases b.externalData with
        | none => exact le_rfl
        | some memory => exact le_length_overwrite _ _ _
      capacity_lt := fun data _ hdata => by rw [hb] at hdata; cases hdata }

lemma take_takeD {l : List UInt8} {n k : ℕ} (hn : k ≤ n) (hk : k ≤ l.length) :
    (l.takeD n 0).take k = l.take k := by
  induction l generalizing n k with
  | nil =>
    obtain rfl : k = 0 := Nat.le_zero.mp hk
    rfl
  | cons byte l ih =>
    cases k with
    | zero => rfl
    | succ k =>
      obtain ⟨n, rfl⟩ : ∃ m, n = m + 1 := ⟨n - 1, by omega⟩
      exact congrArg (byte :: ·) (ih (Nat.le_of_succ_le_succ hn) (Nat.le_of_succ_le_succ hk))

/-- What `Resize` does: the buffer returns to the memory of the caller, its vector is resized, it
leaves the memory of the caller, or another part of that memory is in use. -/
lemma resizeData_cases (b : ByteBuffer) (newSize : ℕ) :
    (∃ data memory, b.internalData = some data ∧ b.externalData = some memory ∧
      newSize ≤ memory.length ∧
      (b.resizeData newSize).externalData = some (overwrite memory 0 (data.take newSize)) ∧
        (b.resizeData newSize).externalDataSize = newSize ∧
          (b.resizeData newSize).internalData = none) ∨
    (∃ data, b.internalData = some data ∧
      (∀ memory, b.externalData = some memory → memory.length < newSize) ∧
      (b.resizeData newSize).externalData = b.externalData ∧
        (b.resizeData newSize).externalDataSize = b.externalDataSize ∧
          (b.resizeData newSize).internalData = some (data.takeD newSize 0)) ∨
    (b.internalData = none ∧ (b.externalData.getD []).length < newSize ∧
      (b.resizeData newSize).externalData = b.externalData ∧
        (b.resizeData newSize).externalDataSize = b.externalDataSize ∧
          (b.resizeData newSize).internalData =
            some (((b.externalData.getD []).take b.externalDataSize).takeD newSize 0)) ∨
    (b.internalData = none ∧ newSize ≤ (b.externalData.getD []).length ∧
      (b.resizeData newSize).externalData = b.externalData ∧
        (b.resizeData newSize).externalDataSize = newSize ∧
          (b.resizeData newSize).internalData = none) := by
  rcases b with ⟨externalData, externalDataSize, internalData, hsize, hcapacity⟩
  cases internalData with
  | some data =>
    cases externalData with
    | none =>
      refine .inr (.inl ⟨data, rfl, fun memory hmemory => ?_, rfl, rfl, rfl⟩)
      cases hmemory
    | some memory =>
      by_cases hle : newSize ≤ memory.length
      · have hresize : (ByteBuffer.mk (some memory) externalDataSize (some data) hsize
            hcapacity).resizeData newSize = useExternalDataAgain data memory newSize hle :=
          dif_pos hle
        rw [hresize]
        exact .inl ⟨data, memory, rfl, rfl, hle, rfl, rfl, rfl⟩
      · have hresize : (ByteBuffer.mk (some memory) externalDataSize (some data) hsize
            hcapacity).resizeData newSize = ⟨some memory, externalDataSize,
              some (data.takeD newSize 0), hsize, fun data' memory' hdata hmemory => by
                obtain rfl := Option.some.inj hmemory
                obtain rfl := Option.some.inj hdata
                rw [List.takeD_length]
                omega⟩ := dif_neg hle
        rw [hresize]
        refine .inr (.inl ⟨data, rfl, fun memory' hmemory => ?_, rfl, rfl, rfl⟩)
        obtain rfl := Option.some.inj hmemory
        exact not_le.mp hle
  | none =>
    refine .inr (.inr ?_)
    by_cases hlt : newSize > (externalData.getD []).length
    · refine .inl ⟨rfl, hlt, ?_, ?_, ?_⟩ <;> rw [resizeData, dif_pos hlt]
    · refine .inr ⟨rfl, not_lt.mp hlt, ?_, ?_, ?_⟩ <;> rw [resizeData, dif_neg hlt]

/-- **A byte buffer gets the size that it is given**, and keeps the bytes that it has before and
afterwards. -/
lemma resizeData_keeps (b : ByteBuffer) (newSize : ℕ) : (b.resizeData newSize).size = newSize ∧
    ∀ k ≤ b.size, k ≤ newSize → (b.resizeData newSize).data.take k = b.data.take k := by
  rcases b.resizeData_cases newSize with ⟨data, memory, hdata, hmemory, hle, hexternal, hsize,
    hinternal⟩ | ⟨data, hdata, hlt, hexternal, hsize, hinternal⟩ |
    ⟨hdata, hlt, hexternal, hsize, hinternal⟩ | ⟨hdata, hle, hexternal, hsize, hinternal⟩
  · -- the vector has more bytes than the memory, so that all that is copied is there
    have hlength : (data.take newSize).length = newSize :=
      List.length_take_of_le (hle.trans (b.capacity_lt data memory hdata hmemory).le)
    refine ⟨by rw [size, hinternal, hsize], fun k _ hn => ?_⟩
    rw [ByteBuffer.data, ByteBuffer.data, hinternal, hdata]
    dsimp only
    rw [hexternal, hsize, Option.getD_some, overwrite, List.take_zero, List.nil_append,
      List.take_append_of_le_length hlength.ge, List.take_take, List.take_take]
    congr 1
    omega
  · refine ⟨?_, fun k hk hn => ?_⟩
    · rw [size, hinternal]
      exact List.takeD_length _ _ _
    · rw [size, hdata] at hk
      rw [ByteBuffer.data, ByteBuffer.data, hinternal, hdata]
      exact take_takeD hn hk
  · refine ⟨?_, fun k hk hn => ?_⟩
    · rw [size, hinternal]
      exact List.takeD_length _ _ _
    · rw [← length_data, ByteBuffer.data, hdata] at hk
      rw [ByteBuffer.data, ByteBuffer.data, hinternal, hdata]
      exact take_takeD hn hk
  · refine ⟨by rw [size, hinternal, hsize], fun k hk hn => ?_⟩
    rw [size, hdata] at hk
    rw [ByteBuffer.data, ByteBuffer.data, hinternal, hdata]
    dsimp only at hk ⊢
    rw [hexternal, hsize, List.take_take, List.take_take, min_eq_left hn, min_eq_left hk]

/-- The memory of the caller does not change its size. -/
lemma length_externalData_resizeData (b : ByteBuffer) (newSize : ℕ) :
    ((b.resizeData newSize).externalData.getD []).length = (b.externalData.getD []).length := by
  rcases b.resizeData_cases newSize with ⟨data, memory, _, hmemory, hle, hexternal, -, -⟩ |
    ⟨_, _, _, hexternal, -, -⟩ | ⟨_, _, hexternal, -, -⟩ | ⟨_, _, hexternal, -, -⟩
  · rw [hexternal, hmemory, Option.getD_some, Option.getD_some,
      length_overwrite (Nat.zero_le _), Nat.zero_add]
    exact max_eq_left ((List.length_take_le _ _).trans hle)
  · rw [hexternal]
  · rw [hexternal]
  · rw [hexternal]

/-- A byte buffer that grows has the size that it is given, and keeps its bytes. -/
lemma resizeData_spec (b : ByteBuffer) {newSize : ℕ} (h : b.size ≤ newSize) :
    (b.resizeData newSize).size = newSize ∧ (b.resizeData newSize).data.take b.size = b.data := by
  obtain ⟨hsize, htake⟩ := b.resizeData_keeps newSize
  refine ⟨hsize, (htake b.size le_rfl h).trans ?_⟩
  rw [← b.length_data, List.take_length]

/-- Bytes that are copied into a byte buffer are written over its bytes. -/
lemma data_copyN (b : ByteBuffer) {bytes : List UInt8} {offset : ℕ}
    (h : offset + bytes.length ≤ b.size) :
    (b.copyN bytes offset).data = overwrite b.data offset bytes := by
  rcases b with ⟨externalData, externalDataSize, internalData, hsize, hcapacity⟩
  cases internalData with
  | some data => rfl
  | none =>
    have h : offset + bytes.length ≤ externalDataSize := h
    cases externalData with
    | none =>
      obtain rfl : externalDataSize = 0 := Nat.le_zero.mp hsize
      obtain rfl : bytes = [] := List.length_eq_zero_iff.mp (by omega)
      show _ = overwrite (List.take 0 []) offset []
      rw [List.take_nil, overwrite, List.take_nil, List.drop_nil]
      rfl
    | some memory =>
      have hsize : externalDataSize ≤ memory.length := hsize
      show (overwrite memory offset bytes).take externalDataSize =
        overwrite (memory.take externalDataSize) offset bytes
      have hbytes : (memory.take offset ++ bytes).length = offset + bytes.length := by
        rw [List.length_append, List.length_take, min_eq_left (by omega)]
      rw [overwrite, overwrite, List.take_take, min_eq_left (by omega), List.take_append, hbytes,
        List.take_of_length_le (by omega), List.drop_take]

end ByteBuffer

/-! ### Buffers that may not get memory -/

/-- `std::vector<uint8_t>`. -/
structure ByteVector where
  bytes : List UInt8
  capacity : ℕ
  length_le : bytes.length ≤ capacity

namespace ByteVector

/-- The ways in which a call of `Resize` ends. -/
inductive Outcome where
  | done
  /-- The vector was asked for more bytes than it can have. -/
  | lengthError
  /-- There was no memory. -/
  | badAlloc
  /-- Bytes were read behind the end of the vector. -/
  | undefinedBehavior
deriving DecidableEq, Repr

/-- `max_size`. -/
def maxSize : ℕ := 2 ^ 63 - 1

/-- What comes of getting memory for some bytes, which may be available or not. -/
def allocation (numBytes : ℕ) (isAvailable : Bool) : Outcome :=
  if maxSize < numBytes then .lengthError else if isAvailable then .done else .badAlloc

/-- A vector without elements and memory. -/
def empty : ByteVector := ⟨[], 0, le_rfl⟩

/-- `resize`, when the memory is there. -/
def resize (newSize : ℕ) (v : ByteVector) : ByteVector :=
  ⟨v.bytes.takeD newSize 0, max v.capacity newSize, by simp⟩

/-- Bytes that are copied to an offset. -/
def copyN (bytes : List UInt8) (offset : ℕ) (v : ByteVector) : ByteVector :=
  ⟨overwrite v.bytes offset bytes, max v.capacity (overwrite v.bytes offset bytes).length,
    le_max_right _ _⟩

end ByteVector

namespace ByteBuffer

open ByteVector (Outcome allocation)

/-- The members of a byte buffer, whatever has happened to it. -/
structure Members where
  /-- `external_data_`, unless it is null, with as many bytes as `external_data_capacity_`. -/
  externalData : Option (List UInt8)
  /-- `external_data_size_`. -/
  externalDataSize : ℕ
  /-- `internal_data_`. -/
  internalData : Option ByteVector

namespace Members

/-- The constructor with memory, which may be null. -/
def ofMemory (memory : Option (List UInt8)) : Members := ⟨memory, (memory.getD []).length, none⟩

/-- The constructor without memory, which reserves space in the vector. -/
def ofInitialCapacity (initialCapacity : ℕ) : Members :=
  ⟨none, 0, some ⟨[], initialCapacity, Nat.zero_le _⟩⟩

/-- The bytes from `Data` on. -/
def data (m : Members) : List UInt8 :=
  match m.internalData with
  | some v => v.bytes
  | none => (m.externalData.getD []).take m.externalDataSize

/-- `Size`. -/
def size (m : Members) : ℕ :=
  match m.internalData with
  | some v => v.bytes.length
  | none => m.externalDataSize

/-- `external_data_capacity_`. -/
def externalDataCapacity (m : Members) : ℕ := (m.externalData.getD []).length

/-- `UseExternalDataAgain`. -/
def useExternalDataAgain (m : Members) (v : ByteVector) (newSize : ℕ) : Outcome × Members :=
  if v.bytes.length < newSize then
    (.undefinedBehavior, { m with externalDataSize := newSize })
  else
    (.done, ⟨m.externalData.map (overwrite · 0 (v.bytes.take newSize)), newSize, none⟩)

/-- `Resize`: how it ends, and the members after it. -/
def resize (m : Members) (newSize : ℕ) (isAvailable : Bool) : Outcome × Members :=
  match m.internalData with
  | some v =>
    if m.externalData.isSome ∧ newSize ≤ m.externalDataCapacity then
      m.useExternalDataAgain v newSize
    else
      -- `reserve`, after which there is room for the new size
      let outcome :=
        if v.capacity < newSize then allocation (max newSize (v.capacity * 2)) isAvailable
        else .done
      (outcome, if outcome = .done then { m with internalData := some (v.resize newSize) } else m)
  | none =>
    if m.externalDataCapacity < newSize then
      -- the empty vector is in place before it is resized
      let v := ByteVector.empty
      let outcome := allocation newSize isAvailable
      let source := (m.externalData.getD []).take m.externalDataSize
      let v := if outcome = .done then (v.resize newSize).copyN source 0 else v
      (outcome, { m with internalData := some v })
    else (.done, { m with externalDataSize := newSize })

/-- The caller writes bytes at an offset from `Data`. -/
def copyN (m : Members) (bytes : List UInt8) (offset : ℕ) : Members :=
  match m.internalData with
  | some v => { m with internalData := some (v.copyN bytes offset) }
  | none => { m with externalData := m.externalData.map (overwrite · offset bytes) }

/-- What happens to a buffer. -/
inductive Operation where
  /-- `Resize`, for which there is memory or not. -/
  | resize (newSize : ℕ) (isAvailable : Bool)
  /-- The caller writes bytes. -/
  | write (bytes : List UInt8) (offset : ℕ)

/-- The members after an operation.  Nothing is written behind the end. -/
def apply (m : Members) : Operation → Members
  | .resize newSize isAvailable => (m.resize newSize isAvailable).2
  | .write bytes offset => if offset + bytes.length ≤ m.size then m.copyN bytes offset else m

/-- What a call of `Resize` has to keep: the first bytes, and the vector is in use over memory of
the caller only if the buffer is larger than that. -/
def Keeps (m : Members) : Operation → Prop
  | .resize newSize isAvailable =>
    (m.resize newSize isAvailable).2.data.take (min m.size newSize) =
      m.data.take (min m.size newSize) ∧
      ((m.resize newSize isAvailable).2.internalData.isSome →
        (m.resize newSize isAvailable).2.externalData.isSome →
          m.externalDataCapacity < (m.resize newSize isAvailable).2.size)
  | .write _ _ => True

/-- Whether a call of `Resize` that leaves the memory of the caller gets the memory for its
vector. -/
def Fits (m : Members) : Operation → Prop
  | .resize newSize isAvailable =>
    m.internalData.isNone → m.externalData.isSome → m.externalDataCapacity < newSize →
      allocation newSize isAvailable = .done
  | .write _ _ => True

/-- A property of the members and the next operation holds at every operation. -/
def Throughout (P : Members → Operation → Prop) (m : Members) : List Operation → Prop
  | [] => True
  | operation :: operations => P m operation ∧ Throughout P (m.apply operation) operations

end Members

/-! ### Buffers that have got their memory -/

/-- Members that are those of a byte buffer whose vector has always got its memory. -/
structure Represents (m : Members) (b : ByteBuffer) : Prop where
  externalData : m.externalData = b.externalData
  externalDataSize : m.externalDataSize = b.externalDataSize
  internalData : m.internalData.map ByteVector.bytes = b.internalData

variable {m : Members} {b : ByteBuffer}

lemma Represents.size_eq (h : Represents m b) : m.size = b.size := by
  rw [Members.size, size, ← h.internalData, h.externalDataSize]
  cases m.internalData <;> rfl

lemma Represents.data_eq (h : Represents m b) : m.data = b.data := by
  rw [Members.data, data, ← h.internalData, h.externalDataSize, h.externalData]
  cases m.internalData <;> rfl

/-- While the vector is in use the buffer is larger than the memory of the caller. -/
lemma Represents.capacity_lt_size (h : Represents m b) (hinternal : m.internalData.isSome)
    (hexternal : m.externalData.isSome) : m.externalDataCapacity < m.size := by
  obtain ⟨v, hv⟩ := Option.isSome_iff_exists.mp hinternal
  obtain ⟨memory, hmemory⟩ := Option.isSome_iff_exists.mp hexternal
  have hdata : b.internalData = some v.bytes := by rw [← h.internalData, hv, Option.map_some]
  have hlt := b.capacity_lt v.bytes memory hdata (h.externalData.symm.trans hmemory)
  rwa [Members.externalDataCapacity, Members.size, hv, hmemory]

/-- The vector of a call that gets its memory has the bytes of the buffer, and zeros. -/
lemma copyN_resize_empty {source : List UInt8} {newSize : ℕ} (h : source.length ≤ newSize) :
    ((ByteVector.empty.resize newSize).copyN source 0).bytes = source.takeD newSize 0 := by
  show overwrite (List.takeD newSize [] 0) 0 source = source.takeD newSize 0
  rw [List.takeD_nil, overwrite, List.take_zero, List.nil_append, Nat.zero_add,
    List.drop_replicate]
  induction source generalizing newSize with
  | nil => rw [List.takeD_nil, List.nil_append, List.length_nil, Nat.sub_zero]
  | cons byte source ih =>
    obtain ⟨n, rfl⟩ : ∃ n, newSize = n + 1 := ⟨newSize - 1, by rw [List.length_cons] at h; omega⟩
    rw [List.length_cons, Nat.add_sub_add_right, List.cons_append,
      ih (Nat.le_of_succ_le_succ h)]
    rfl

/-- A call that gets its memory resizes the buffer. -/
lemma Represents.resize (h : Represents m b) {newSize : ℕ} {isAvailable : Bool}
    (hdone : (m.resize newSize isAvailable).1 = .done) :
    Represents (m.resize newSize isAvailable).2 (b.resizeData newSize) := by
  rcases m with ⟨externalData, externalDataSize, internalData⟩
  obtain ⟨rfl, rfl, hinternal⟩ := h
  rcases b.resizeData_cases newSize with ⟨data, memory, hdata, hmemory, hle, hexternal', hsize',
    hinternal'⟩ | ⟨data, hdata, hlt, hexternal', hsize', hinternal'⟩ |
    ⟨hdata, hlt, hexternal', hsize', hinternal'⟩ | ⟨hdata, hle, hexternal', hsize', hinternal'⟩
  · obtain ⟨v, rfl, rfl⟩ := Option.map_eq_some_iff.mp (hinternal.trans hdata)
    have hmore : ¬ v.bytes.length < newSize :=
      not_lt.mpr (hle.trans (b.capacity_lt v.bytes memory hdata hmemory).le)
    simp only [Members.resize, Members.externalDataCapacity, hmemory, Option.isSome_some, true_and,
      Option.getD_some, if_pos hle, Members.useExternalDataAgain, if_neg hmore]
    exact ⟨hexternal'.symm, hsize'.symm, hinternal'.symm⟩
  · obtain ⟨v, rfl, rfl⟩ := Option.map_eq_some_iff.mp (hinternal.trans hdata)
    have hstays : ¬ (b.externalData.isSome = true ∧ newSize ≤ (b.externalData.getD []).length) := by
      rintro ⟨hsome, hle⟩
      obtain ⟨memory, hmemory⟩ := Option.isSome_iff_exists.mp hsome
      rw [hmemory] at hle
      exact absurd hle (not_le.mpr (hlt memory hmemory))
    simp only [Members.resize, Members.externalDataCapacity, if_neg hstays] at hdone ⊢
    rw [if_pos hdone]
    exact ⟨hexternal'.symm, hsize'.symm, hinternal'.symm⟩
  · obtain rfl := Option.map_eq_none_iff.mp (hinternal.trans hdata)
    have hsource : ((b.externalData.getD []).take b.externalDataSize).length ≤ newSize :=
      (List.length_take_le' _ _).trans hlt.le
    simp only [Members.resize, Members.externalDataCapacity, if_pos hlt] at hdone ⊢
    rw [if_pos hdone]
    refine ⟨hexternal'.symm, hsize'.symm, ?_⟩
    rw [hinternal', Option.map_some, copyN_resize_empty hsource]
  · obtain rfl := Option.map_eq_none_iff.mp (hinternal.trans hdata)
    simp only [Members.resize, Members.externalDataCapacity, if_neg (not_lt.mpr hle)]
    exact ⟨hexternal'.symm, hsize'.symm, hinternal'.symm⟩

/-- A call that does not get its memory leaves the members as they are, unless the buffer leaves the
memory of the caller. -/
lemma Represents.resize_of_ne_done (h : Represents m b) {newSize : ℕ} {isAvailable : Bool}
    (hdone : (m.resize newSize isAvailable).1 ≠ .done) :
    m.internalData.isSome ∧ (m.resize newSize isAvailable).2 = m ∨
      m.internalData.isNone ∧ m.externalDataCapacity < newSize ∧
        allocation newSize isAvailable ≠ .done ∧
          (m.resize newSize isAvailable).2 = { m with internalData := some .empty } := by
  rw [Members.resize] at hdone ⊢
  cases hinternal : m.internalData with
  | some v =>
    simp only [hinternal] at hdone ⊢
    split at hdone
    · next hfits =>
      -- the vector is larger than the memory of the caller, so that all bytes are there
      have hlt := h.capacity_lt_size (by rw [hinternal]; rfl) hfits.1
      rw [Members.size, hinternal] at hlt
      have hmore : ¬ v.bytes.length < newSize := not_lt.mpr (hfits.2.trans hlt.le)
      rw [Members.useExternalDataAgain, if_neg hmore] at hdone
      exact absurd rfl hdone
    · rw [if_neg ‹_›, if_neg hdone]
      exact .inl ⟨rfl, rfl⟩
  | none =>
    simp only [hinternal] at hdone ⊢
    split at hdone
    · next hlt =>
      rw [if_pos hlt, if_neg hdone]
      exact .inr ⟨rfl, hlt, hdone, rfl⟩
    · exact absurd rfl hdone

/-- A call that gets the memory it needs keeps the bytes, and leaves a byte buffer. -/
lemma Represents.keeps (h : Represents m b) {operation : Members.Operation}
    (hfits : m.Fits operation) : m.Keeps operation ∧ ∃ b', Represents (m.apply operation) b' := by
  cases operation with
  | write bytes offset =>
    refine ⟨trivial, ?_⟩
    rw [Members.apply]
    split
    · refine ⟨b.copyN bytes offset, ?_⟩
      rcases m with ⟨externalData, externalDataSize, internalData⟩
      rcases b with ⟨externalData', externalDataSize', internalData', hsize, hcapacity⟩
      obtain ⟨rfl, rfl, rfl⟩ := h
      cases internalData <;> exact ⟨rfl, rfl, rfl⟩
    · exact ⟨b, h⟩
  | resize newSize isAvailable =>
    rw [Members.apply, Members.Keeps]
    by_cases hdone : (m.resize newSize isAvailable).1 = .done
    · have hresize := h.resize hdone
      obtain ⟨hsize, htake⟩ := b.resizeData_keeps newSize
      refine ⟨⟨?_, fun hinternal hexternal => ?_⟩, _, hresize⟩
      · rw [hresize.data_eq, h.data_eq, h.size_eq]
        exact htake _ (min_le_left _ _) (min_le_right _ _)
      · have hcapacity : (m.resize newSize isAvailable).2.externalDataCapacity =
            m.externalDataCapacity := by
          rw [Members.externalDataCapacity, hresize.externalData,
            b.length_externalData_resizeData, Members.externalDataCapacity, h.externalData]
        exact hcapacity ▸ hresize.capacity_lt_size hinternal hexternal
    · rcases h.resize_of_ne_done hdone with ⟨_, hsame⟩ | ⟨hnone, hlt, hmemory, hempty⟩
      · rw [hsame]
        exact ⟨⟨rfl, h.capacity_lt_size⟩, b, h⟩
      · -- without memory of the caller the buffer was empty before
        have hnull : m.externalData = none := by
          by_contra hsome
          exact hmemory (hfits hnone (Option.isSome_iff_ne_none.mpr hsome) hlt)
        have hzero : m.size = 0 := by
          rw [h.size_eq, size, ← h.internalData, Option.isNone_iff_eq_none.mp hnone]
          have hle := b.size_le
          rw [← h.externalData, hnull] at hle
          exact Nat.le_zero.mp hle
        rw [hempty, hzero, Nat.zero_min]
        refine ⟨⟨rfl, fun _ hexternal => ?_⟩, ⟨none, m.externalDataSize, some [], ?_, ?_⟩, hnull,
          rfl, rfl⟩
        · rw [hnull] at hexternal
          cases hexternal
        · rw [Members.size, Option.isNone_iff_eq_none.mp hnone] at hzero
          exact hzero.le
        · intro _ _ _ hmemory'
          cases hmemory'

/-- A call that leaves the memory of the caller and gets no memory loses the contents. -/
lemma Members.not_keeps {operation : Members.Operation}
    (hfits : ¬ m.Fits operation) : ¬ m.Keeps operation := by
  cases operation with
  | write bytes offset => exact absurd trivial hfits
  | resize newSize isAvailable =>
    rintro ⟨-, hplaced⟩
    simp only [Members.Fits, Classical.not_imp] at hfits
    obtain ⟨hnone, hsome, hlt, hmemory⟩ := hfits
    have hresize : (m.resize newSize isAvailable).2 =
        { m with internalData := some .empty } := by
      rw [Members.resize, Option.isNone_iff_eq_none.mp hnone]
      dsimp only
      rw [if_pos hlt, if_neg hmemory]
    rw [hresize] at hplaced
    exact Nat.not_lt_zero _ (hplaced rfl hsome)

/-- The buffers that are constructed. -/
inductive Members.Constructed : Members → Prop
  | ofMemory (memory : Option (List UInt8)) : Constructed (.ofMemory memory)
  | ofInitialCapacity (initialCapacity : ℕ) : Constructed (.ofInitialCapacity initialCapacity)

lemma Members.Constructed.represents (h : m.Constructed) : ∃ b, Represents m b := by
  cases h with
  | ofMemory memory =>
    exact ⟨⟨memory, (memory.getD []).length, none, le_rfl, fun _ _ hdata => by cases hdata⟩,
      rfl, rfl, rfl⟩
  | ofInitialCapacity initialCapacity => exact ⟨.empty, rfl, rfl, rfl⟩

/-- As long as every call gets the memory that it needs, all of them keep the contents. -/
lemma Represents.throughout_iff (h : Represents m b) (operations : List Members.Operation) :
    m.Throughout Members.Keeps operations ↔ m.Throughout Members.Fits operations := by
  induction operations generalizing m b with
  | nil => exact Iff.rfl
  | cons operation operations ih =>
    rw [Members.Throughout, Members.Throughout]
    by_cases hfits : m.Fits operation
    · obtain ⟨hkeeps, b', hb'⟩ := h.keeps hfits
      exact and_congr (iff_of_true hkeeps hfits) (ih hb')
    · exact iff_of_false (fun hand => Members.not_keeps hfits hand.1) fun hand => hfits hand.1

/-- **Every call of `Resize` keeps the contents, and returns to the memory of the caller, if and
only if every call that leaves the memory of the caller gets the memory for its vector.** -/
theorem throughout_keeps_iff (h : m.Constructed) (operations : List Members.Operation) :
    m.Throughout Members.Keeps operations ↔ m.Throughout Members.Fits operations := by
  obtain ⟨b, hb⟩ := h.represents
  exact hb.throughout_iff operations

/-- Memory of three bytes that the buffer leaves and returns to. -/
theorem throughout_keeps_threeBytes :
    (Members.ofMemory (some [1, 2, 3])).Throughout Members.Keeps
      [.resize 5 true, .write [4, 5] 3, .resize 2 true] := by
  refine (throughout_keeps_iff (.ofMemory _) _).mpr ⟨fun _ _ _ => by decide, trivial, ?_, trivial⟩
  intro hnone
  cases hnone

/-- A buffer that is asked for more bytes than a vector can have, and has none afterwards. -/
theorem not_throughout_keeps : ¬ ∀ (m : Members) (operations : List Members.Operation),
    m.Constructed → m.Throughout Members.Keeps operations := by
  intro hclaim
  have hkeeps := hclaim _ [.resize (2 ^ 63) true] (.ofMemory (some [1, 2, 3]))
  have hplaced := hkeeps.1.2 (by decide) (by decide)
  exact absurd hplaced (by decide)

end ByteBuffer

end Skyrise

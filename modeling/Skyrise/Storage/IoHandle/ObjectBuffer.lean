/-
Object buffers.

An object buffer holds parts of an object, each with its range, and reads from them as
from the object.  A read is served from one buffer if there is one that has all of it.
Otherwise the buffers that the read needs are copied into a result that is filled with
zeros, which reaches up to the end of the last of them: bytes that no buffer has stay
zero.
-/
import Mathlib.Data.Prod.Lex
import Skyrise.Storage.Backend.ObjectReader
import Skyrise.Utils.Intervals

namespace Skyrise

open Intervals

/-- `Range`: the first byte and the one behind the last. -/
abbrev Range : Type := ℕ × ℕ

/-- `std::copy_n` into a buffer. -/
def copyN (source destination : List UInt8) (position : ℕ) : List UInt8 :=
  destination.take position ++ source ++ destination.drop (position + source.length)

section

variable {source destination : List UInt8} {position i : ℕ}

lemma length_copyN (h : position + source.length ≤ destination.length) :
    (copyN source destination position).length = destination.length := by
  simp only [copyN, List.length_append, List.length_take, List.length_drop]
  omega

lemma getElem?_copyN_of_mem (h : position + source.length ≤ destination.length)
    (hi : position ≤ i) (hlt : i < position + source.length) :
    (copyN source destination position)[i]? = source[i - position]? := by
  have htake : (destination.take position).length = position := by
    rw [List.length_take]
    omega
  rw [copyN, List.append_assoc, List.getElem?_append_right (by omega), htake,
    List.getElem?_append_left (by omega)]

lemma getElem?_copyN_of_notMem (h : position + source.length ≤ destination.length)
    (hi : i < position ∨ position + source.length ≤ i) :
    (copyN source destination position)[i]? = destination[i]? := by
  have htake : (destination.take position).length = position := by
    rw [List.length_take]
    omega
  rw [copyN, List.append_assoc]
  rcases hi with hi | hi
  · rw [List.getElem?_append_left (by omega), List.getElem?_take_of_lt hi]
  · rw [List.getElem?_append_right (by omega), List.getElem?_append_right (by omega), htake,
      List.getElem?_drop]
    congr 1
    omega

end

/-- `ObjectBuffer`: buffers with their ranges, in the order of the ranges. -/
structure ObjectBuffer where
  /-- The entries of `request_buffer_`. -/
  requestBuffer : List (Range × List UInt8)
  sorted : requestBuffer.Pairwise fun a b => toLex a.1 < toLex b.1

namespace ObjectBuffer

/-- `emplace` of a map, which keeps a buffer that is there already. -/
def emplace (buffer : Range × List UInt8) : List (Range × List UInt8) → List (Range × List UInt8)
  | [] => [buffer]
  | other :: buffers =>
    if toLex buffer.1 < toLex other.1 then buffer :: other :: buffers
    else if buffer.1 = other.1 then other :: buffers
    else other :: emplace buffer buffers

lemma mem_of_mem_emplace {buffer other : Range × List UInt8} {buffers : List (Range × List UInt8)}
    (h : other ∈ emplace buffer buffers) : other = buffer ∨ other ∈ buffers := by
  induction buffers with
  | nil => exact .inl (List.mem_singleton.mp h)
  | cons b buffers ih =>
    rw [emplace] at h
    split at h
    · exact List.mem_cons.mp h
    · split at h
      · exact .inr h
      · rcases List.mem_cons.mp h with rfl | h
        · exact .inr List.mem_cons_self
        · rcases ih h with h | h
          · exact .inl h
          · exact .inr (List.mem_cons_of_mem b h)

/-- A range that is added is there, with its buffer or with an earlier one. -/
lemma mem_emplace (buffer : Range × List UInt8) (buffers : List (Range × List UInt8)) :
    buffer.1 ∈ (emplace buffer buffers).map Prod.fst ∧
      buffers ⊆ emplace buffer buffers := by
  induction buffers with
  | nil => exact ⟨by simp [emplace], List.nil_subset _⟩
  | cons b buffers ih =>
    rw [emplace]
    split
    · exact ⟨by simp, List.subset_cons_self _ _⟩
    · split
      · next heq => exact ⟨by simp [heq], List.Subset.refl _⟩
      · exact ⟨List.mem_cons_of_mem _ ih.1, List.cons_subset_cons b ih.2⟩

lemma pairwise_emplace {buffer : Range × List UInt8} {buffers : List (Range × List UInt8)}
    (h : buffers.Pairwise fun a b => toLex a.1 < toLex b.1) :
    (emplace buffer buffers).Pairwise fun a b => toLex a.1 < toLex b.1 := by
  induction buffers with
  | nil => exact List.pairwise_singleton _ _
  | cons b buffers ih =>
    obtain ⟨hb, hbuffers⟩ := List.pairwise_cons.mp h
    rw [emplace]
    split
    · next hlt =>
      refine List.pairwise_cons.mpr ⟨fun c hc => ?_, h⟩
      rcases List.mem_cons.mp hc with rfl | hc
      · exact hlt
      · exact hlt.trans (hb c hc)
    · next hge =>
      split
      · exact h
      · next hne =>
        refine List.pairwise_cons.mpr ⟨fun c hc => ?_, ih hbuffers⟩
        rcases mem_of_mem_emplace hc with rfl | hc
        · exact lt_of_le_of_ne (not_lt.mp hge) fun heq => hne (toLex_inj.mp heq.symm)
        · exact hb c hc

/-- An object buffer without buffers. -/
def empty : ObjectBuffer := ⟨[], List.Pairwise.nil⟩

/-- `AddBuffer`. -/
def addBuffer (objectBuffer : ObjectBuffer) (buffer : Range × List UInt8) : ObjectBuffer :=
  ⟨emplace buffer objectBuffer.requestBuffer, pairwise_emplace objectBuffer.sorted⟩

/-- `GetOrderedRangesView`. -/
def getOrderedRangesView (objectBuffer : ObjectBuffer) : List Range :=
  objectBuffer.requestBuffer.map Prod.fst

/-- The loop body of `MergeBuffers`.  A range begins before the end of the result, so the
differences do not wrap around. -/
def mergeBuffer (offset endOffset capacity : ℕ) (resultBuffer : List UInt8)
    (buffer : Range × List UInt8) : Except Exception (List UInt8) := do
  let range := buffer.1
  assert (buffer.2.length = range.2 - range.1) "Buffer size != than its declared range"
  assert (range.2 ≤ endOffset) "The ranges are not properly sorted by end position"
  let startOffset := if offset > range.1 then offset - range.1 else 0
  assert (startOffset < buffer.2.length) "Start offset must be within buffer"
  let writePosition := if offset > range.1 then 0 else range.1 - offset
  let bytesToWrite := min (buffer.2.length - startOffset) (capacity - writePosition)
  assert (writePosition + bytesToWrite ≤ capacity) "Write end position must be within buffer."
  assert (startOffset + bytesToWrite ≤ buffer.2.length)
    "Read end position must be within read buffer."
  return copyN ((buffer.2.drop startOffset).take bytesToWrite) resultBuffer writePosition

/-- `MergeBuffers`. -/
def mergeBuffers (buffersToMerge : List (Range × List UInt8)) (offset nBytes : ℕ) :
    Except Exception (List UInt8) :=
  match buffersToMerge with
  | [] => .ok []
  | front :: _ => do
    assert (offset ≥ front.1.1) "Offset must be >= first start."
    let endOffset := (buffersToMerge.map fun buffer => buffer.1.2).foldl max 0
    assert (endOffset ≥ offset) "End_offset must be >= last range offset"
    let capacity := min nBytes (endOffset - offset)
    buffersToMerge.foldlM (mergeBuffer offset endOffset capacity) (List.replicate capacity 0)

/-- A byte buffer over the memory of another one. -/
def view (buffer : List UInt8) (start length : ℕ) : Except Exception (List UInt8) :=
  if start + length ≤ buffer.length then .ok ((buffer.drop start).take length)
  else .error .undefinedBehavior

/-- The loop of `Read`, with the buffers to merge so far. -/
def readLoop (offset nBytes requestEnd : ℕ) (merge : List (Range × List UInt8)) :
    List (Range × List UInt8) → Except Exception (List UInt8)
  | [] => mergeBuffers merge offset nBytes
  | (range, requestBuffer) :: buffers =>
    if range.1 ≤ offset then
      if range.2 ≥ requestEnd then view requestBuffer (offset - range.1) nBytes
      else if range.2 > offset then
        readLoop offset nBytes requestEnd (merge ++ [(range, requestBuffer)]) buffers
      else readLoop offset nBytes requestEnd merge buffers
    else if merge ≠ [] ∧ ¬range.1 ≥ requestEnd then
      readLoop offset nBytes requestEnd (merge ++ [(range, requestBuffer)]) buffers
    else readLoop offset nBytes requestEnd merge buffers

/-- `Read`. -/
def read (objectBuffer : ObjectBuffer) (offset nBytes : UInt64) : Except Exception (List UInt8) :=
  readLoop offset.toNat nBytes.toNat (offset + nBytes).toNat [] objectBuffer.requestBuffer

end ObjectBuffer

end Skyrise

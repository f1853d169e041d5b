/-
What an object buffer reads.

The buffers of a loaded object hold the bytes of their ranges.  A read returns the bytes
from its offset on as far as they are loaded without a gap.  With a gap the result is
longer than that, and has zeros in the gap.  A range without bytes in the middle of a read
fails an assertion, and an end that wraps around makes any buffer before it look as if it
had all bytes.
-/
import Skyrise.Storage.IoHandle.ObjectBuffer

namespace Skyrise

open Intervals

/-- The parts of an object that are loaded. -/
structure LoadedBuffer (object : StoredObject) extends ObjectBuffer where
  /-- A buffer holds the bytes of its range. -/
  loaded : ∀ b ∈ requestBuffer, b.1.1 ≤ b.1.2 ∧ b.1.2 ≤ object.data.length ∧
    b.2 = (object.data.drop b.1.1).take (b.1.2 - b.1.1)

namespace LoadedBuffer

variable {object : StoredObject}

/-- The buffer of a range that is loaded. -/
def load (object : StoredObject) (range : Range) : Range × List UInt8 :=
  (range, (object.data.drop range.1).take (range.2 - range.1))

/-- A range that is loaded is added. -/
def add (buffer : LoadedBuffer object) (range : Range) (hle : range.1 ≤ range.2)
    (hsize : range.2 ≤ object.data.length) : LoadedBuffer object where
  toObjectBuffer := buffer.addBuffer (load object range)
  loaded := by
    intro b hb
    rcases ObjectBuffer.mem_of_mem_emplace hb with rfl | hb
    · exact ⟨hle, hsize, rfl⟩
    · exact buffer.loaded b hb

/-- The ranges. -/
def ranges (buffer : LoadedBuffer object) : List Range := buffer.getOrderedRangesView

/-- A buffer that holds the bytes of its range. -/
def Holds (object : StoredObject) (b : Range × List UInt8) : Prop :=
  b.1.1 ≤ b.1.2 ∧ b.1.2 ≤ object.data.length ∧
    b.2 = (object.data.drop b.1.1).take (b.1.2 - b.1.1)

lemma Holds.length_eq {b : Range × List UInt8} (h : Holds object b) :
    b.2.length = b.1.2 - b.1.1 := by
  obtain ⟨hle, hsize, heq⟩ := h
  rw [heq, List.length_take, List.length_drop]
  omega

/-- The bytes of a buffer are those of the object. -/
lemma Holds.getElem? {b : Range × List UInt8} (h : Holds object b) {i : ℕ}
    (hi : i < b.1.2 - b.1.1) : b.2[i]? = object.data[b.1.1 + i]? := by
  obtain ⟨-, -, heq⟩ := h
  rw [heq, List.getElem?_take_of_lt hi, List.getElem?_drop]

end LoadedBuffer

namespace ObjectBuffer

open LoadedBuffer

variable {object : StoredObject} {offset nBytes requestEnd endOffset capacity : ℕ}
  {buffers merge done : List (Range × List UInt8)} {b : Range × List UInt8}
  {result : List UInt8}

/-! ### Merging -/

/-- What has been copied after some buffers. -/
structure Filled (object : StoredObject) (offset capacity : ℕ) (done : List (Range × List UInt8))
    (result : List UInt8) : Prop where
  length_eq : result.length = capacity
  /-- The bytes of the buffers are in place. -/
  getElem?_eq : ∀ i < capacity, offset + i ∈ points (done.map Prod.fst) →
    result[i]? = object.data[offset + i]?

/-- Asking for the larger one is a difference that does not go below zero. -/
lemma ite_gt_sub (x y : ℕ) : (if x > y then x - y else 0) = x - y := by
  split <;> omega

lemma ite_gt_sub' (x y : ℕ) : (if x > y then 0 else y - x) = y - x := by
  split <;> omega

lemma assert_eq_ok_iff {condition : Bool} {message : String} :
    assert condition message = .ok () ↔ condition = true := by
  cases condition with
  | false => exact iff_of_false (fun h => (by cases h)) (by simp)
  | true => exact iff_of_true rfl rfl

/-- **One buffer.**  A buffer with a byte behind the offset is copied into place. -/
lemma mergeBuffer_eq_ok (h : Holds object b) (hdone : Filled object offset capacity done result)
    (hend : b.1.2 ≤ endOffset) (hcapacity : capacity = min nBytes (endOffset - offset))
    (hoffset : offset < b.1.2) (hstart : b.1.1 < b.1.2) (hrange : b.1.1 ≤ offset + nBytes) :
    ∃ result', mergeBuffer offset endOffset capacity result b = .ok result' ∧
      Filled object offset capacity (done ++ [b]) result' := by
  have hlength := h.length_eq
  have hbytes : min (b.2.length - (offset - b.1.1)) (capacity - (b.1.1 - offset)) =
      min (b.1.2 - max offset b.1.1) (capacity - (b.1.1 - offset)) := by omega
  have hsource : ((b.2.drop (offset - b.1.1)).take
      (min (b.2.length - (offset - b.1.1)) (capacity - (b.1.1 - offset)))).length =
      min (b.2.length - (offset - b.1.1)) (capacity - (b.1.1 - offset)) := by
    rw [List.length_take, List.length_drop]
    omega
  refine ⟨copyN ((b.2.drop (offset - b.1.1)).take
    (min (b.2.length - (offset - b.1.1)) (capacity - (b.1.1 - offset)))) result
    (b.1.1 - offset), ?_, ?_, ?_⟩
  · have h₁ : decide (b.2.length = b.1.2 - b.1.1) = true := decide_eq_true hlength
    have h₂ : decide (b.1.2 ≤ endOffset) = true := decide_eq_true hend
    have h₃ : decide (offset - b.1.1 < b.2.length) = true := decide_eq_true (by omega)
    have h₄ : decide (b.1.1 - offset + min (b.2.length - (offset - b.1.1))
        (capacity - (b.1.1 - offset)) ≤ capacity) = true := decide_eq_true (by omega)
    have h₅ : decide (offset - b.1.1 + min (b.2.length - (offset - b.1.1))
        (capacity - (b.1.1 - offset)) ≤ b.2.length) = true := decide_eq_true (by omega)
    simp only [mergeBuffer, ite_gt_sub, ite_gt_sub', h₁, h₂, h₃, h₄, h₅, assert_true]
    rfl
  · rw [length_copyN (by rw [hsource, hdone.length_eq]; omega), hdone.length_eq]
  · intro i hi hx
    have hfit : b.1.1 - offset + ((b.2.drop (offset - b.1.1)).take
        (min (b.2.length - (offset - b.1.1)) (capacity - (b.1.1 - offset)))).length ≤
        result.length := by
      rw [hsource, hdone.length_eq]
      omega
    by_cases hin : b.1.1 ≤ offset + i ∧ offset + i < b.1.2
    · -- a byte of this buffer
      rw [getElem?_copyN_of_mem hfit (by omega) (by rw [hsource]; omega),
        List.getElem?_take_of_lt (by omega), List.getElem?_drop, h.getElem? (by omega)]
      congr 1
      omega
    · -- a byte of an earlier one
      have hx' : offset + i ∈ points (done.map Prod.fst) := by
        rw [List.map_append, mem_points_append] at hx
        rcases hx with hx | hx
        · exact hx
        · obtain ⟨r, hr, hx⟩ := hx
          rw [List.map_singleton, List.mem_singleton] at hr
          exact absurd (hr ▸ hx) hin
      rw [getElem?_copyN_of_notMem hfit (by rw [hsource]; omega)]
      exact hdone.getElem?_eq i hi hx'

/-- A buffer that is copied has a byte behind the offset. -/
lemma of_mergeBuffer_eq_ok {result' : List UInt8} (hlength : result.length = capacity)
    (h : mergeBuffer offset endOffset capacity result b = .ok result') :
    offset - b.1.1 < b.2.length ∧ result'.length = capacity := by
  rw [mergeBuffer, ite_gt_sub, ite_gt_sub'] at h
  obtain ⟨_, -, h⟩ := exists_of_bind_eq_ok h
  obtain ⟨_, -, h⟩ := exists_of_bind_eq_ok h
  obtain ⟨_, hlt, h⟩ := exists_of_bind_eq_ok h
  obtain ⟨_, hwrite, h⟩ := exists_of_bind_eq_ok h
  obtain ⟨_, -, h⟩ := exists_of_bind_eq_ok h
  have hwrite := of_decide_eq_true (assert_eq_ok_iff.mp hwrite)
  obtain rfl := Except.ok.inj h
  refine ⟨of_decide_eq_true (assert_eq_ok_iff.mp hlt), ?_⟩
  rw [length_copyN, hlength]
  rw [hlength, List.length_take, List.length_drop]
  omega

/-- A run over the buffers copies all of them. -/
lemma foldlM_mergeBuffer_eq_ok (h : ∀ b ∈ buffers, Holds object b)
    (hdone : Filled object offset capacity done result)
    (hcapacity : capacity = min nBytes (endOffset - offset))
    (hbuffers : ∀ b ∈ buffers, b.1.2 ≤ endOffset ∧ offset < b.1.2 ∧ b.1.1 < b.1.2 ∧
      b.1.1 ≤ offset + nBytes) :
    ∃ result', buffers.foldlM (mergeBuffer offset endOffset capacity) result = .ok result' ∧
      Filled object offset capacity (done ++ buffers) result' := by
  induction buffers generalizing done result with
  | nil => exact ⟨result, rfl, by rwa [List.append_nil]⟩
  | cons b buffers ih =>
    rw [List.forall_mem_cons] at h hbuffers
    obtain ⟨⟨hend, hoffset, hstart, hrange⟩, hbuffers⟩ := hbuffers
    obtain ⟨result₁, hok, hfilled⟩ :=
      mergeBuffer_eq_ok h.1 hdone hend hcapacity hoffset hstart hrange
    obtain ⟨result', hrest, hfilled'⟩ := ih h.2 hfilled hbuffers
    refine ⟨result', ?_, by rwa [List.append_assoc, List.singleton_append] at hfilled'⟩
    rw [List.foldlM_cons, hok]
    exact hrest

lemma of_foldlM_mergeBuffer_eq_ok {result' : List UInt8} (hlength : result.length = capacity)
    (h : buffers.foldlM (mergeBuffer offset endOffset capacity) result = .ok result') :
    (∀ b ∈ buffers, offset - b.1.1 < b.2.length) ∧ result'.length = capacity := by
  induction buffers generalizing result with
  | nil =>
    obtain rfl := Except.ok.inj h
    exact ⟨fun b hb => absurd hb List.not_mem_nil, hlength⟩
  | cons b buffers ih =>
    rw [List.foldlM_cons] at h
    obtain ⟨result₁, hok, h⟩ := exists_of_bind_eq_ok h
    obtain ⟨hlt, hlength₁⟩ := of_mergeBuffer_eq_ok hlength hok
    obtain ⟨hrest, hlength'⟩ := ih hlength₁ h
    exact ⟨List.forall_mem_cons.mpr ⟨hlt, hrest⟩, hlength'⟩

/-! ### The end of the buffers -/

lemma le_foldl_max (xs : List ℕ) (a : ℕ) : a ≤ xs.foldl max a ∧ ∀ x ∈ xs, x ≤ xs.foldl max a := by
  induction xs generalizing a with
  | nil => exact ⟨le_rfl, fun x hx => absurd hx List.not_mem_nil⟩
  | cons y xs ih =>
    obtain ⟨hle, hall⟩ := ih (max a y)
    rw [List.foldl_cons]
    exact ⟨(le_max_left a y).trans hle, List.forall_mem_cons.mpr ⟨(le_max_right a y).trans hle, hall⟩⟩

lemma foldl_max_mem (xs : List ℕ) (a : ℕ) : xs.foldl max a = a ∨ xs.foldl max a ∈ xs := by
  induction xs generalizing a with
  | nil => exact .inl rfl
  | cons y xs ih =>
    rw [List.foldl_cons]
    rcases ih (max a y) with h | h
    · rcases max_choice a y with hmax | hmax
      · exact .inl (h.trans hmax)
      · exact .inr (by rw [h, hmax]; exact List.mem_cons_self)
    · exact .inr (List.mem_cons_of_mem y h)

/-- The end of the buffers that are merged. -/
def endOf (buffers : List (Range × List UInt8)) : ℕ :=
  (buffers.map fun buffer => buffer.1.2).foldl max 0

lemma le_endOf (hb : b ∈ buffers) : b.1.2 ≤ endOf buffers :=
  (le_foldl_max _ 0).2 _ (List.mem_map_of_mem hb)

lemma exists_endOf_eq (hpos : 0 < endOf buffers) : ∃ b ∈ buffers, endOf buffers = b.1.2 := by
  rcases foldl_max_mem (buffers.map fun buffer => buffer.1.2) 0 with h | h
  · exact absurd h hpos.ne'
  · obtain ⟨b, hb, heq⟩ := List.mem_map.mp h
    exact ⟨b, hb, heq.symm⟩

/-- **Merging buffers** of which the first one has the offset. -/
lemma mergeBuffers_eq (hb : b.1.1 ≤ offset) (hoffset : offset < b.1.2) :
    mergeBuffers (b :: buffers) offset nBytes =
      (b :: buffers).foldlM
        (mergeBuffer offset (endOf (b :: buffers))
          (min nBytes (endOf (b :: buffers) - offset)))
        (List.replicate (min nBytes (endOf (b :: buffers) - offset)) 0) := by
  have hend : b.1.2 ≤ endOf (b :: buffers) := le_endOf List.mem_cons_self
  have h₁ : decide (offset ≥ b.1.1) = true := decide_eq_true hb
  have h₂ : decide (endOf (b :: buffers) ≥ offset) = true := decide_eq_true (by omega)
  rw [mergeBuffers, h₁]
  change assert (decide (endOf (b :: buffers) ≥ offset)) _ >>= _ = _
  rw [h₂]
  rfl

/-! ### The loop -/

/-- A buffer that the read needs. -/
def needed (offset requestEnd : ℕ) (b : Range × List UInt8) : Bool :=
  if b.1.1 ≤ offset then offset < b.1.2 else b.1.1 < requestEnd

/-- A buffer that looks as if it had all bytes serves the read. -/
lemma readLoop_of_serves (nBytes : ℕ) (merge : List (Range × List UInt8)) (hb : b ∈ buffers)
    (hle : b.1.1 ≤ offset) (hend : requestEnd ≤ b.1.2) :
    ∃ b' ∈ buffers, (b'.1.1 ≤ offset ∧ requestEnd ≤ b'.1.2) ∧
      readLoop offset nBytes requestEnd merge buffers = view b'.2 (offset - b'.1.1) nBytes := by
  induction buffers generalizing merge with
  | nil => exact absurd hb List.not_mem_nil
  | cons c buffers ih =>
    have hrest : ∀ merge, ¬(c.1.1 ≤ offset ∧ requestEnd ≤ c.1.2) →
        ∃ b' ∈ c :: buffers, (b'.1.1 ≤ offset ∧ requestEnd ≤ b'.1.2) ∧
          readLoop offset nBytes requestEnd merge buffers = view b'.2 (offset - b'.1.1) nBytes := by
      intro merge hnot
      rcases List.mem_cons.mp hb with rfl | hb
      · exact absurd ⟨hle, hend⟩ hnot
      · obtain ⟨b', hb', h⟩ := ih merge hb
        exact ⟨b', List.mem_cons_of_mem c hb', h⟩
    rw [readLoop]
    split
    · next hc =>
      split
      · next hc' => exact ⟨c, List.mem_cons_self, ⟨hc, hc'⟩, rfl⟩
      · next hc' =>
        split
        · exact hrest _ fun h => hc' h.2
        · exact hrest _ fun h => hc' h.2
    · next hc =>
      split
      · exact hrest _ fun h => hc h.1
      · exact hrest _ fun h => hc h.1

/-- With a buffer to merge all that are needed are merged. -/
lemma readLoop_of_ne_nil (hmerge : merge ≠ [])
    (hserves : ∀ b ∈ buffers, b.1.1 ≤ offset → b.1.2 < requestEnd) :
    readLoop offset nBytes requestEnd merge buffers =
      mergeBuffers (merge ++ buffers.filter (needed offset requestEnd)) offset nBytes := by
  induction buffers generalizing merge with
  | nil => rw [readLoop, List.filter_nil, List.append_nil]
  | cons c buffers ih =>
    rw [List.forall_mem_cons] at hserves
    have happend : merge ++ [c] ≠ [] := List.append_ne_nil_of_right_ne_nil _ (List.cons_ne_nil _ _)
    rw [readLoop]
    by_cases hc : c.1.1 ≤ offset
    · rw [if_pos hc, if_neg (by simpa using hserves.1 hc)]
      by_cases hlt : c.1.2 > offset
      · rw [if_pos hlt, ih happend hserves.2, List.filter_cons_of_pos (by simp [needed, hc, hlt]),
          List.append_assoc, List.singleton_append]
      · rw [if_neg hlt, ih hmerge hserves.2, List.filter_cons_of_neg (by simpa [needed, hc] using hlt)]
    · rw [if_neg hc]
      by_cases hlt : c.1.1 < requestEnd
      · rw [if_pos ⟨hmerge, by simpa using hlt⟩, ih happend hserves.2,
          List.filter_cons_of_pos (by simp [needed, hc, hlt]), List.append_assoc,
          List.singleton_append]
      · rw [if_neg (by simpa using fun _ => not_lt.mp hlt), ih hmerge hserves.2,
          List.filter_cons_of_neg (by simpa [needed, hc] using hlt)]

/-- Without a buffer that has the offset nothing is read. -/
lemma readLoop_of_notMem (hserves : ∀ b ∈ buffers, b.1.1 ≤ offset → b.1.2 < requestEnd)
    (hoffset : offset ∉ points (buffers.map Prod.fst)) :
    readLoop offset nBytes requestEnd [] buffers = .ok [] := by
  induction buffers with
  | nil => rfl
  | cons c buffers ih =>
    rw [List.forall_mem_cons] at hserves
    rw [List.map_cons, mem_points_cons, not_or] at hoffset
    rw [readLoop]
    by_cases hc : c.1.1 ≤ offset
    · rw [if_pos hc, if_neg (by simpa using hserves.1 hc), if_neg fun hlt => hoffset.1 ⟨hc, hlt⟩]
      exact ih hserves.2 hoffset.2
    · rw [if_neg hc, if_neg fun h => h.1 rfl]
      exact ih hserves.2 hoffset.2

/-- With such a buffer the buffers that are needed are merged, and it comes first. -/
lemma readLoop_of_mem (nBytes : ℕ) (hsorted : buffers.Pairwise fun a b => a.1.1 ≤ b.1.1)
    (hserves : ∀ b ∈ buffers, b.1.1 ≤ offset → b.1.2 < requestEnd)
    (hoffset : offset ∈ points (buffers.map Prod.fst)) :
    readLoop offset nBytes requestEnd [] buffers =
        mergeBuffers (buffers.filter (needed offset requestEnd)) offset nBytes ∧
      ∃ c cs, buffers.filter (needed offset requestEnd) = c :: cs ∧ c.1.1 ≤ offset ∧
        offset < c.1.2 := by
  induction buffers with
  | nil =>
    rw [List.map_nil, points_nil] at hoffset
    exact absurd hoffset (Set.notMem_empty _)
  | cons c buffers ih =>
    rw [List.pairwise_cons] at hsorted
    rw [List.forall_mem_cons] at hserves
    rw [List.map_cons, mem_points_cons] at hoffset
    rw [readLoop]
    by_cases hc : c.1.1 ≤ offset
    · rw [if_pos hc, if_neg (by simpa using hserves.1 hc)]
      by_cases hlt : c.1.2 > offset
      · rw [if_pos hlt, List.nil_append, readLoop_of_ne_nil (List.cons_ne_nil _ _) hserves.2,
          List.filter_cons_of_pos (by simp [needed, hc, hlt])]
        exact ⟨rfl, c, _, rfl, hc, hlt⟩
      · rw [if_neg hlt, List.filter_cons_of_neg (by simpa [needed, hc] using hlt)]
        exact ih hsorted.2 hserves.2 (hoffset.resolve_left fun h => hlt h.2)
    · -- all later buffers begin behind the offset
      obtain ⟨r, hr, hle, -⟩ := hoffset.resolve_left fun h => hc h.1
      obtain ⟨b, hb, rfl⟩ := List.mem_map.mp hr
      exact absurd ((hsorted.1 b hb).trans hle) hc

end ObjectBuffer

namespace LoadedBuffer

open ObjectBuffer

variable {object : StoredObject}

/-- The bytes of the object from an offset on, up to a number of bytes or to the end of what is
loaded without a gap. -/
def IsLoadedPrefix (object : StoredObject) (ranges : List Range) (offset nBytes : ℕ)
    (result : List UInt8) : Prop :=
  ∃ length ≤ nBytes, (∀ x, offset ≤ x → x < offset + length → x ∈ points ranges) ∧
    (length = nBytes ∨ offset + length ∉ points ranges) ∧
    result = (object.data.drop offset).take length

/-- Reads that return loaded bytes only.  If the end does not wrap around, one range has all
bytes, or the offset is not loaded, or every range that begins in the middle of the read has a
byte and no gap before it.  If the end wraps around, no range that begins up to the offset may
reach it. -/
def CanRead (ranges : List Range) (offset nBytes : ℕ) : Prop :=
  if offset + nBytes < 2 ^ 64 then
    (∃ r ∈ ranges, r.1 ≤ offset ∧ offset + nBytes ≤ r.2) ∨ offset ∉ points ranges ∨
      ∀ r ∈ ranges, offset < r.1 → r.1 < offset + nBytes →
        r.1 < r.2 ∧ ∀ x, offset ≤ x → x < r.1 → x ∈ points ranges
  else ∀ r ∈ ranges, r.1 ≤ offset → r.2 < offset + nBytes - 2 ^ 64

lemma mem_ranges {buffer : LoadedBuffer object} {r : Range} :
    r ∈ buffer.ranges ↔ ∃ b ∈ buffer.requestBuffer, b.1 = r := List.mem_map

lemma pairwise_fst_le (buffer : LoadedBuffer object) :
    buffer.requestBuffer.Pairwise fun a b => a.1.1 ≤ b.1.1 := by
  refine buffer.sorted.imp fun {a b} hlt => ?_
  rcases Prod.Lex.lt_iff.mp hlt with h | h
  · exact h.le
  · exact h.1.le

/-- The buffers that a read needs. -/
def merged (buffer : LoadedBuffer object) (offset nBytes : ℕ) : List (Range × List UInt8) :=
  buffer.requestBuffer.filter (needed offset (offset + nBytes))

section

variable {buffer : LoadedBuffer object} {offset nBytes x : ℕ} {b : Range × List UInt8}

lemma mem_merged : b ∈ buffer.merged offset nBytes ↔ b ∈ buffer.requestBuffer ∧
    (b.1.1 ≤ offset ∧ offset < b.1.2 ∨ offset < b.1.1 ∧ b.1.1 < offset + nBytes) := by
  rw [merged, List.mem_filter, needed]
  refine and_congr_right fun _ => ?_
  split
  · next hle => rw [decide_eq_true_eq]; omega
  · next hgt => rw [decide_eq_true_eq]; omega

/-- A byte of the read that is loaded is in a buffer that is merged. -/
lemma mem_points_merged (hx : x ∈ points buffer.ranges) (hle : offset ≤ x)
    (hlt : x < offset + nBytes) : x ∈ points ((buffer.merged offset nBytes).map Prod.fst) := by
  obtain ⟨r, hr, hx⟩ := hx
  obtain ⟨b, hb, rfl⟩ := mem_ranges.mp hr
  refine ⟨b.1, List.mem_map_of_mem (mem_merged.mpr ⟨hb, ?_⟩), hx⟩
  omega

/-- **Reading without a gap.** -/
lemma exists_read_of_merge (buffer : LoadedBuffer object)
    (hserves : ∀ b ∈ buffer.requestBuffer, b.1.1 ≤ offset → b.1.2 < offset + nBytes)
    (hoffset : offset ∈ points buffer.ranges)
    (hgap : ∀ r ∈ buffer.ranges, offset < r.1 → r.1 < offset + nBytes →
      r.1 < r.2 ∧ ∀ x, offset ≤ x → x < r.1 → x ∈ points buffer.ranges) :
    ∃ result, readLoop offset nBytes (offset + nBytes) [] buffer.requestBuffer = .ok result ∧
      IsLoadedPrefix object buffer.ranges offset nBytes result := by
  obtain ⟨hread, c, cs, hcs, hc, hc'⟩ := readLoop_of_mem nBytes
    buffer.pairwise_fst_le hserves hoffset
  change buffer.merged offset nBytes = c :: cs at hcs
  have hend : c.1.2 ≤ endOf (buffer.merged offset nBytes) := by
    rw [hcs]
    exact le_endOf List.mem_cons_self
  have hneeded : ∀ b ∈ buffer.merged offset nBytes,
      b.1.2 ≤ endOf (buffer.merged offset nBytes) ∧ offset < b.1.2 ∧ b.1.1 < b.1.2 ∧
        b.1.1 ≤ offset + nBytes := by
    intro b hb
    have hle := le_endOf hb
    obtain ⟨hmem, hb | hb⟩ := mem_merged.mp hb
    · omega
    · have hne := (hgap b.1 (mem_ranges.mpr ⟨b, hmem, rfl⟩) hb.1 hb.2).1
      omega
  -- the bytes up to the end of the buffers are loaded
  have hloaded : ∀ x, offset ≤ x → x < endOf (buffer.merged offset nBytes) →
      x ∈ points buffer.ranges := by
    intro x hx hlt
    obtain ⟨d, hd, heq⟩ := exists_endOf_eq (by omega :
      0 < endOf (buffer.merged offset nBytes))
    obtain ⟨hmem, hd⟩ := mem_merged.mp hd
    by_cases hdx : d.1.1 ≤ x
    · exact ⟨d.1, mem_ranges.mpr ⟨d, hmem, rfl⟩, hdx, by omega⟩
    · exact (hgap d.1 (mem_ranges.mpr ⟨d, hmem, rfl⟩) (by omega) (by omega)).2 x hx (by omega)
  have hstart : Filled object offset
      (min nBytes (endOf (buffer.merged offset nBytes) - offset)) []
      (List.replicate (min nBytes (endOf (buffer.merged offset nBytes) - offset)) 0) :=
    ⟨List.length_replicate, fun i _ hx => absurd hx (by simp)⟩
  obtain ⟨result, hok, hlength, hbytes⟩ := foldlM_mergeBuffer_eq_ok
    (fun b hb => buffer.loaded b (mem_merged.mp hb).1) hstart rfl hneeded
  refine ⟨result, ?_, min nBytes (endOf (buffer.merged offset nBytes) - offset),
    min_le_left _ _, fun x hx hlt => hloaded x hx (by omega), ?_, ?_⟩
  · rw [hread]
    change mergeBuffers (buffer.merged offset nBytes) offset nBytes = _
    rw [hcs, mergeBuffers_eq hc hc', ← hcs]
    exact hok
  · by_cases hn : nBytes ≤ endOf (buffer.merged offset nBytes) - offset
    · exact .inl (min_eq_left hn)
    · refine .inr fun hx => ?_
      have hmerged : offset + min nBytes (endOf (buffer.merged offset nBytes) - offset) ∈
          points ((buffer.merged offset nBytes).map Prod.fst) :=
        mem_points_merged hx (by omega) (by omega)
      obtain ⟨r, hr, hx⟩ := hmerged
      obtain ⟨b, hb, rfl⟩ := List.mem_map.mp hr
      have hle := le_endOf hb
      omega
  · rw [List.nil_append] at hbytes
    refine List.ext_getElem? fun i => ?_
    by_cases hi : i < min nBytes (endOf (buffer.merged offset nBytes) - offset)
    · rw [List.getElem?_take_of_lt hi, List.getElem?_drop]
      exact hbytes i hi (mem_points_merged (hloaded _ (by omega) (by omega)) (by omega) (by omega))
    · rw [List.getElem?_eq_none (by omega), List.getElem?_eq_none]
      rw [List.length_take]
      omega

/-- A read that returns loaded bytes only has no gap. -/
lemma gap_of_isLoadedPrefix (buffer : LoadedBuffer object)
    (hserves : ∀ b ∈ buffer.requestBuffer, b.1.1 ≤ offset → b.1.2 < offset + nBytes)
    (hoffset : offset ∈ points buffer.ranges) {result : List UInt8}
    (hread : readLoop offset nBytes (offset + nBytes) [] buffer.requestBuffer = .ok result)
    (hbefore : IsLoadedPrefix object buffer.ranges offset nBytes result) :
    ∀ r ∈ buffer.ranges, offset < r.1 → r.1 < offset + nBytes →
      r.1 < r.2 ∧ ∀ x, offset ≤ x → x < r.1 → x ∈ points buffer.ranges := by
  obtain ⟨heq, c, cs, hcs, hc, hc'⟩ := readLoop_of_mem nBytes
    buffer.pairwise_fst_le hserves hoffset
  change _ = mergeBuffers (buffer.merged offset nBytes) offset nBytes at heq
  change buffer.merged offset nBytes = c :: cs at hcs
  rw [heq, hcs, mergeBuffers_eq hc hc', ← hcs] at hread
  obtain ⟨hall, hlength⟩ := of_foldlM_mergeBuffer_eq_ok List.length_replicate hread
  obtain ⟨length, -, hloaded, -, rfl⟩ := hbefore
  rw [List.length_take] at hlength
  intro r hr hlt hlt'
  obtain ⟨b, hb, rfl⟩ := mem_ranges.mp hr
  have hmem : b ∈ buffer.merged offset nBytes := mem_merged.mpr ⟨hb, .inr ⟨hlt, hlt'⟩⟩
  have hbytes := hall b hmem
  have hend := le_endOf hmem
  have hholds := Holds.length_eq (buffer.loaded b hb)
  exact ⟨by omega, fun x hx hxr => hloaded x hx (by omega)⟩

end

/-- Which reads return loaded bytes only. -/
lemma exists_read_iff_canRead (buffer : LoadedBuffer object) (offset nBytes : UInt64) :
    (∃ result, buffer.read offset nBytes = .ok result ∧
      IsLoadedPrefix object buffer.ranges offset.toNat nBytes.toNat result) ↔
      CanRead buffer.ranges offset.toNat nBytes.toNat := by
  have hoffsetLt := offset.toNat_lt
  have hnBytesLt := nBytes.toNat_lt
  have hsize := object.length_lt
  rw [ObjectBuffer.read, UInt64.toNat_add]
  generalize offset.toNat = start at *
  generalize nBytes.toNat = count at *
  rw [CanRead]
  by_cases hlt : start + count < 2 ^ 64
  · rw [if_pos hlt, Nat.mod_eq_of_lt hlt]
    by_cases hserves : ∃ r ∈ buffer.ranges, r.1 ≤ start ∧ start + count ≤ r.2
    · -- one buffer has all bytes
      refine iff_of_true ?_ (.inl hserves)
      obtain ⟨r, hr, hle, hend⟩ := hserves
      obtain ⟨b, hb, rfl⟩ := mem_ranges.mp hr
      obtain ⟨d, hd, ⟨hle', hend'⟩, hread⟩ := readLoop_of_serves count [] hb hle hend
      obtain ⟨-, hsize', heq⟩ := buffer.loaded d hd
      have hlength := Holds.length_eq (buffer.loaded d hd)
      refine ⟨_, hread.trans (if_pos (by omega)), count, le_rfl, fun x hx hx' =>
        ⟨d.1, mem_ranges.mpr ⟨d, hd, rfl⟩, by omega, by omega⟩, .inl rfl, ?_⟩
      rw [heq, List.drop_take, List.take_take, List.drop_drop]
      congr 1
      · omega
      · congr 1
        omega
    · have hnot : ∀ b ∈ buffer.requestBuffer, b.1.1 ≤ start → b.1.2 < start + count := by
        intro b hb hle
        by_contra! hend
        exact hserves ⟨b.1, mem_ranges.mpr ⟨b, hb, rfl⟩, hle, hend⟩
      rw [or_iff_right hserves]
      by_cases hoffset : start ∈ points buffer.ranges
      · rw [or_iff_right (not_not.mpr hoffset)]
        constructor
        · rintro ⟨result, hread, hbefore⟩
          exact gap_of_isLoadedPrefix buffer hnot hoffset hread hbefore
        · exact exists_read_of_merge buffer hnot hoffset
      · exact iff_of_true ⟨[], readLoop_of_notMem hnot hoffset, 0, Nat.zero_le _,
          fun x hx hx' => absurd hx (by omega), .inr hoffset, rfl⟩ (.inl hoffset)
  · -- the end wraps around
    have hmod : (start + count) % 2 ^ 64 = start + count - 2 ^ 64 := by omega
    rw [if_neg hlt, hmod]
    by_cases hserves : ∀ r ∈ buffer.ranges, r.1 ≤ start → r.2 < start + count - 2 ^ 64
    · have hnot : ∀ b ∈ buffer.requestBuffer, b.1.1 ≤ start →
          b.1.2 < start + count - 2 ^ 64 :=
        fun b hb => hserves b.1 (mem_ranges.mpr ⟨b, hb, rfl⟩)
      have hoffset : start ∉ points buffer.ranges := by
        rintro ⟨r, hr, hle, hlt'⟩
        have hend := hserves r hr hle
        omega
      exact iff_of_true ⟨[], readLoop_of_notMem hnot hoffset, 0, Nat.zero_le _,
        fun x hx hx' => absurd hx (by omega), .inr hoffset, rfl⟩ hserves
    · refine iff_of_false ?_ hserves
      push Not at hserves
      rintro ⟨result, hread, -⟩
      obtain ⟨r, hr, hle, hend⟩ := hserves
      obtain ⟨b, hb, rfl⟩ := mem_ranges.mp hr
      obtain ⟨d, hd, ⟨hle', -⟩, hview⟩ := readLoop_of_serves count [] hb hle hend
      have hlength := Holds.length_eq (buffer.loaded d hd)
      have hsize' := (buffer.loaded d hd).2.1
      rw [hview, view, if_neg (by omega)] at hread
      cases hread

/-- **Reading from loaded ranges.** -/
theorem read_iff (buffer : LoadedBuffer object) (offset nBytes : UInt64) :
    (∃ result, buffer.read offset nBytes = .ok result ∧
      IsLoadedPrefix object buffer.ranges offset.toNat nBytes.toNat result) ↔
      CanRead buffer.ranges offset.toNat nBytes.toNat :=
  exists_read_iff_canRead buffer offset nBytes

/-- An object of three bytes. -/
def threeBytes : StoredObject := ⟨[1, 2, 3], StoredObject.three.length_lt⟩

/-- The first and the last one of three bytes. -/
def firstAndLast : LoadedBuffer threeBytes where
  requestBuffer := [((0, 1), [1]), ((2, 3), [3])]
  sorted := by decide
  loaded := by decide

/-- The byte between the two is read as zero. -/
theorem not_isLoadedPrefix_gap : ¬∃ result, firstAndLast.read 0 3 = .ok result ∧
    IsLoadedPrefix threeBytes firstAndLast.ranges 0 3 result := by
  rintro ⟨result, hread, length, -, hloaded, -, hresult⟩
  have hzero : firstAndLast.read 0 3 = .ok [1, 0, 3] := by rfl
  obtain rfl := Except.ok.inj (hzero.symm.trans hread)
  have hlength : 3 ≤ length := by
    have hlength := congrArg List.length hresult
    rw [List.length_take] at hlength
    exact hlength.trans_le (min_le_left _ _)
  obtain ⟨r, hr, hx⟩ := hloaded 1 (by omega) (by omega)
  have hnot : ∀ r ∈ firstAndLast.ranges, ¬(r.1 ≤ 1 ∧ 1 < r.2) := by decide
  exact hnot r hr hx

end LoadedBuffer

end Skyrise

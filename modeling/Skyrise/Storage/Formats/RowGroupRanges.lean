/-
Ranges of row groups that are read as a whole.

Every byte of a row group is in a range, since a range is only cut where the next row
group begins.  The ranges follow each other if and only if the last request of every row
group begins no later than the next row group does: the padding of a row group can begin
a request behind it.  Without any range the program reads outside of its vector.
-/
import Mathlib.Data.List.Pairwise
import Skyrise.Storage.Formats.ParquetMetadataReader

namespace Skyrise

open Intervals

lemma truncateOverlaps_eq_cutAtNext (ranges : List Range) :
    truncateOverlaps ranges = cutAtNext ranges := by
  induction ranges using truncateOverlaps.induct with
  | case1 current next ranges ih =>
    rw [truncateOverlaps, cutAtNext_cons_cons, ih]
    congr 2
    split <;> omega
  | case2 ranges h =>
    cases ranges with
    | nil => rfl
    | cons r ranges =>
      cases ranges with
      | nil => rfl
      | cons s ranges => exact absurd rfl (h r s ranges)

lemma removeOverlaps_eq_ok {ranges : List Range} (hne : ranges ≠ []) :
    removeOverlaps ranges = .ok (nonempty (cutAtNext ranges)) := by
  rw [removeOverlaps, if_neg (by simpa using hne), truncateOverlaps_eq_cutAtNext]
  simp only [nonempty, not_le, ge_iff_le]

/-! ### The requests of a range -/

section Requests

variable {start «end» maxSize : ℕ}

/-- The start of the last request of a range. -/
def lastRequestStart (start «end» maxSize : ℕ) : ℕ :=
  start + maxSize * ((«end» - start - 1) / maxSize)

lemma addRangesSafe_of_lt (hlt : start < «end») (hmax : 0 < maxSize) :
    addRangesSafe start «end» maxSize = (start, min (start + maxSize) «end») ::
      addRangesSafe (min (start + maxSize) «end») «end» maxSize := by
  rw [addRangesSafe, if_pos ⟨hlt, hmax⟩]

lemma addRangesSafe_of_le (hle : «end» ≤ start) : addRangesSafe start «end» maxSize = [] := by
  rw [addRangesSafe, if_neg (by omega)]

lemma addRangesSafe_eq_nil_iff (hmax : 0 < maxSize) :
    addRangesSafe start «end» maxSize = [] ↔ «end» ≤ start := by
  refine ⟨fun h => ?_, addRangesSafe_of_le⟩
  by_contra! hlt
  rw [addRangesSafe_of_lt hlt hmax] at h
  cases h

lemma lastRequestStart_of_le (hle : «end» ≤ start + maxSize) (hlt : start < «end») :
    lastRequestStart start «end» maxSize = start := by
  rw [lastRequestStart, Nat.div_eq_of_lt (by omega), Nat.mul_zero, Nat.add_zero]

lemma lastRequestStart_add (hmax : 0 < maxSize) (hlt : start + maxSize < «end») :
    lastRequestStart (start + maxSize) «end» maxSize = lastRequestStart start «end» maxSize := by
  have h : «end» - start - 1 = («end» - (start + maxSize) - 1) + maxSize := by omega
  rw [lastRequestStart, lastRequestStart, h, Nat.add_div_right _ hmax, Nat.mul_succ]
  omega

/-- **The requests of a range**: all but the last one have the maximum size. -/
lemma exists_addRangesSafe_eq (hlt : start < «end») (hmax : 0 < maxSize) :
    ∃ requests : List Range,
      addRangesSafe start «end» maxSize =
        requests ++ [(lastRequestStart start «end» maxSize, «end»)] ∧
      (requests = [] ∧ lastRequestStart start «end» maxSize = start ∨
        ∃ requests' request, requests = requests' ++ [request] ∧ request.1 < request.2 ∧
          request.2 = lastRequestStart start «end» maxSize) := by
  induction h : «end» - start using Nat.strong_induction_on generalizing start with
  | _ n ih =>
    rw [addRangesSafe_of_lt hlt hmax]
    by_cases hle : «end» ≤ start + maxSize
    · rw [min_eq_right hle, addRangesSafe_of_le le_rfl, lastRequestStart_of_le hle hlt]
      exact ⟨[], rfl, .inl ⟨rfl, rfl⟩⟩
    · push Not at hle
      obtain ⟨requests, heq, hlast⟩ := ih («end» - (start + maxSize)) (by omega) hle rfl
      rw [min_eq_left hle.le, heq, lastRequestStart_add hmax hle]
      rw [lastRequestStart_add hmax hle] at hlast
      refine ⟨(start, start + maxSize) :: requests, rfl, .inr ?_⟩
      rcases hlast with ⟨rfl, hstart⟩ | ⟨requests', request, rfl, hrequest⟩
      · exact ⟨[], (start, start + maxSize), rfl, by dsimp only; omega, hstart.symm⟩
      · exact ⟨(start, start + maxSize) :: requests', request, rfl, hrequest⟩

/-- The requests lie in the range, and each has a byte. -/
lemma forall_mem_addRangesSafe :
    ∀ request ∈ addRangesSafe start «end» maxSize,
      start ≤ request.1 ∧ request.1 < request.2 ∧ request.2 ≤ «end» := by
  induction start using addRangesSafe.induct «end» maxSize with
  | case1 start h currentEnd ih =>
    rw [addRangesSafe_of_lt h.1 h.2, List.forall_mem_cons]
    refine ⟨⟨le_rfl, lt_min (by omega) h.1, min_le_right _ _⟩, fun request hrequest => ?_⟩
    obtain ⟨hle, hne, hend⟩ := ih request hrequest
    exact ⟨le_trans (by omega) hle, hne, hend⟩
  | case2 start h =>
    rw [addRangesSafe, if_neg h]
    exact fun request hrequest => absurd hrequest List.not_mem_nil

variable (start «end» maxSize) in
/-- The requests follow each other. -/
lemma pairwise_addRangesSafe :
    (addRangesSafe start «end» maxSize).Pairwise fun r s => r.2 ≤ s.1 := by
  induction start using addRangesSafe.induct «end» maxSize with
  | case1 start h currentEnd ih =>
    rw [addRangesSafe_of_lt h.1 h.2]
    exact List.pairwise_cons.mpr ⟨fun s hs => (forall_mem_addRangesSafe s hs).1, ih⟩
  | case2 start h =>
    rw [addRangesSafe, if_neg h]
    exact List.Pairwise.nil

/-- No request begins after the last one. -/
lemma fst_le_lastRequestStart (hmax : 0 < maxSize) {request : Range}
    (h : request ∈ addRangesSafe start «end» maxSize) :
    request.1 ≤ lastRequestStart start «end» maxSize := by
  have hlt : start < «end» := by
    by_contra! hle
    rw [addRangesSafe_of_le hle] at h
    exact absurd h List.not_mem_nil
  obtain ⟨requests, heq, -⟩ := exists_addRangesSafe_eq hlt hmax
  have hpairwise := pairwise_addRangesSafe start «end» maxSize
  have hmem := forall_mem_addRangesSafe request h
  rw [heq] at h hpairwise
  rcases List.mem_append.mp h with h | h
  · have hle := (List.pairwise_append.mp hpairwise).2.2 request h _ (List.mem_singleton_self _)
    dsimp only at hle
    omega
  · rw [List.mem_singleton.mp h]

/-- A byte of a range is in one of its requests, and the next request begins behind it. -/
lemma exists_request_of_mem {x : ℕ} (hmax : 0 < maxSize) (hx : start ≤ x ∧ x < «end») :
    ∃ pre request post, addRangesSafe start «end» maxSize = pre ++ request :: post ∧
      (request.1 ≤ x ∧ x < request.2) ∧ ∀ next ∈ post, x < next.1 := by
  induction start using addRangesSafe.induct «end» maxSize with
  | case1 start h currentEnd ih =>
    rw [addRangesSafe_of_lt h.1 h.2]
    by_cases hlt : x < currentEnd
    · refine ⟨[], _, _, rfl, ⟨hx.1, hlt⟩, fun next hnext => ?_⟩
      exact hlt.trans_le (forall_mem_addRangesSafe next hnext).1
    · obtain ⟨pre, request, post, heq, hrequest⟩ := ih ⟨not_lt.mp hlt, hx.2⟩
      exact ⟨_ :: pre, request, post, by rw [heq, List.cons_append], hrequest⟩
  | case2 start h => omega

lemma forall_head?_addRangesSafe {rest : List Range} {x : ℕ} (hmax : 0 < maxSize)
    (hlt : start < «end») :
    (∀ next ∈ (addRangesSafe start «end» maxSize ++ rest).head?, x < next.1) ↔ x < start := by
  rw [addRangesSafe_of_lt hlt hmax, List.cons_append, List.head?_cons]
  simp only [Option.mem_def, Option.some.injEq, forall_eq']

lemma le_lastRequestStart (start «end» maxSize : ℕ) :
    start ≤ lastRequestStart start «end» maxSize := Nat.le_add_right _ _

/-- **What is left of a range**: only its last request can be cut. -/
lemma mem_points_cutAtNext_addRangesSafe {rest : List Range} {x : ℕ} (hmax : 0 < maxSize)
    (hlt : start < «end») :
    x ∈ points (cutAtNext (addRangesSafe start «end» maxSize ++ rest)) ↔
      (start ≤ x ∧ x < «end» ∧
        (x < lastRequestStart start «end» maxSize ∨ ∀ next ∈ rest.head?, x < next.1)) ∨
      x ∈ points (cutAtNext rest) := by
  induction h : «end» - start using Nat.strong_induction_on generalizing start with
  | _ n ih =>
    rw [addRangesSafe_of_lt hlt hmax, List.cons_append, mem_points_cutAtNext_cons]
    dsimp only
    by_cases hle : «end» ≤ start + maxSize
    · rw [min_eq_right hle, addRangesSafe_of_le le_rfl, List.nil_append,
        lastRequestStart_of_le hle hlt]
      refine or_congr_left (and_congr_right fun hx => and_congr_right fun _ => ?_)
      rw [or_iff_right (not_lt.mpr hx)]
    · push Not at hle
      have hlast := le_lastRequestStart (start + maxSize) «end» maxSize
      rw [min_eq_left hle.le, ih («end» - (start + maxSize)) (by omega) hle rfl,
        forall_head?_addRangesSafe hmax hle, lastRequestStart_add hmax hle]
      rw [lastRequestStart_add hmax hle] at hlast
      rw [← or_assoc]
      refine or_congr_left ?_
      constructor
      · rintro (⟨hx, hlt', -⟩ | ⟨hx, hlt', hkept⟩)
        · exact ⟨hx, by omega, .inl (by omega)⟩
        · exact ⟨by omega, hlt', hkept⟩
      · rintro ⟨hx, hlt', hkept⟩
        by_cases hx' : x < start + maxSize
        · exact .inl ⟨hx, hx', hx'⟩
        · exact .inr ⟨by omega, hlt', hkept⟩

/-- Of two ranges whose requests are separated, the second one begins behind the start of the
last request of the first one. -/
lemma lastRequestStart_le_of_separated {before after : List Range} {start' end' : ℕ}
    (hmax : 0 < maxSize) (hlt : start < «end») (hlt' : start' < end') (hle : start ≤ start')
    (hne : ∀ r ∈ before ++ (addRangesSafe start «end» maxSize ++
      (addRangesSafe start' end' maxSize ++ after)), r.1 < r.2)
    (h : Separated (nonempty (cutAtNext (before ++ (addRangesSafe start «end» maxSize ++
      (addRangesSafe start' end' maxSize ++ after)))))) :
    lastRequestStart start «end» maxSize ≤ start' := by
  obtain ⟨rs, hrs, hlast⟩ := exists_addRangesSafe_eq hlt hmax
  rcases hlast with ⟨-, hlast⟩ | ⟨rs', r, rfl, hr, hreach⟩
  · exact hlast.trans_le hle
  · rw [hrs, addRangesSafe_of_lt hlt' hmax] at hne h
    have heq : ∀ (last next : Range) (rest : List Range),
        before ++ (rs' ++ [r] ++ [last] ++ (next :: rest ++ after)) =
          (before ++ rs') ++ r :: last :: next :: (rest ++ after) := by
      intro last next rest
      simp only [List.append_assoc, List.cons_append, List.nil_append]
    rw [heq] at hne h
    exact le_of_separated hne h (hr.trans_eq hreach) hreach.ge

end Requests

namespace ParquetFormatMetadataReader

/-! ### Row groups in file order -/

/-- Row groups in file order. -/
structure InFileOrder (rowGroups : List RowGroupMetaData) : Prop where
  /-- A size is a number of bytes. -/
  size_nonneg : ∀ g ∈ rowGroups, 0 ≤ g.size
  /-- A row group ends before the next one begins. -/
  end_le : rowGroups.IsChain fun g h => g.fileOffset + g.size ≤ h.fileOffset

variable {objectSize : ℕ} {g : RowGroupMetaData} {rowGroups : List RowGroupMetaData}
  {ranges : List Range}

lemma InFileOrder.of_cons (h : InFileOrder (g :: rowGroups)) : InFileOrder rowGroups :=
  ⟨fun g' hg' => h.size_nonneg g' (List.mem_cons_of_mem g hg'), h.end_le.tail⟩

lemma InFileOrder.pairwise (h : InFileOrder rowGroups) :
    rowGroups.Pairwise fun g h => g.fileOffset + g.size ≤ h.fileOffset := by
  induction rowGroups with
  | nil => exact List.Pairwise.nil
  | cons g rowGroups ih =>
    refine List.pairwise_cons.mpr ⟨fun g' hg' => ?_, ih h.of_cons⟩
    cases rowGroups with
    | nil => exact absurd hg' List.not_mem_nil
    | cons next rowGroups =>
      have hnext := (List.isChain_cons_cons.mp h.end_le).1
      rcases List.mem_cons.mp hg' with rfl | hg'
      · exact hnext
      · have hsize := h.size_nonneg next (by simp)
        have hle := (List.pairwise_cons.mp (ih h.of_cons)).1 g' hg'
        omega

/-- The range of a row group with the padding. -/
def paddedRange (objectSize : ℕ) (g : RowGroupMetaData) : Range :=
  (g.fileOffset.toNat, min (g.fileOffset + padding + g.size).toNat objectSize)

/-- All requests, before the ranges are cut. -/
def requests (objectSize : ℕ) (rowGroups : List RowGroupMetaData) : List Range :=
  rowGroups.flatMap fun g =>
    addRangesSafe (paddedRange objectSize g).1 (paddedRange objectSize g).2 kS3ReadRequestSizeBytes

/-- The start of the last request of a row group. -/
def lastRequest (objectSize : ℕ) (g : RowGroupMetaData) : ℕ :=
  lastRequestStart (paddedRange objectSize g).1 (paddedRange objectSize g).2
    kS3ReadRequestSizeBytes

/-- The row groups that begin in the object. -/
def inObject (objectSize : ℕ) (rowGroups : List RowGroupMetaData) : List RowGroupMetaData :=
  rowGroups.filter fun g => decide (g.fileOffset < (objectSize : ℤ))

/-- A range for every byte of every row group, and no byte twice. -/
structure ReadsRowGroups (rowGroups : List RowGroupMetaData) (ranges : List Range) : Prop where
  /-- Every byte of every row group lies in a range. -/
  covers : ∀ g ∈ rowGroups, ∀ x : ℕ, g.fileOffset ≤ x → x < g.fileOffset + g.size →
    x ∈ points ranges
  /-- A range ends before the next one begins. -/
  separated : Separated ranges

/-- Row groups whose requests follow each other. -/
structure HasRequests (objectSize : ℕ) (rowGroups : List RowGroupMetaData) : Prop where
  /-- The assertion holds. -/
  offset_pos : ∀ g ∈ rowGroups, 0 < g.fileOffset
  /-- With the padding the end is still a signed offset. -/
  end_lt : ∀ g ∈ rowGroups, g.fileOffset + padding + g.size < 2 ^ 63
  /-- The row groups lie in the object. -/
  end_le : ∀ g ∈ rowGroups, 0 < g.size → g.fileOffset + g.size ≤ objectSize
  /-- There is a request. -/
  exists_lt : ∃ g ∈ rowGroups, g.fileOffset < objectSize
  /-- The last request of a row group begins no later than the next row group. -/
  lastRequest_le : (inObject objectSize rowGroups).IsChain fun g h =>
    (lastRequest objectSize g : ℤ) ≤ h.fileOffset

lemma kS3ReadRequestSizeBytes_pos : 0 < kS3ReadRequestSizeBytes := by decide

lemma rowGroupRange_eq_ok_iff (hsize : 0 ≤ g.size) {range : Range} :
    rowGroupRange objectSize g = .ok range ↔
      (0 < g.fileOffset ∧ g.fileOffset + padding + g.size < 2 ^ 63) ∧
        range = paddedRange objectSize g := by
  have hpadding : padding = 1048576 := rfl
  rw [rowGroupRange, assert]
  by_cases hpos : 0 < g.fileOffset
  · rw [if_pos (decide_eq_true hpos)]
    by_cases hlt : g.fileOffset + padding + g.size < 2 ^ 63
    · have hstart : addInt64 g.fileOffset padding = .ok (g.fileOffset + padding) :=
        addInt64_eq_ok_iff.mpr ⟨⟨by omega, by omega⟩, rfl⟩
      have hend : addInt64 (g.fileOffset + padding) g.size =
          .ok (g.fileOffset + padding + g.size) :=
        addInt64_eq_ok_iff.mpr ⟨⟨by omega, by omega⟩, rfl⟩
      have hrange : (sizeT g.fileOffset,
          sizeT (min (g.fileOffset + padding + g.size) objectSize)) =
          paddedRange objectSize g := by
        rw [sizeT_of_nonneg (by omega) (by omega), sizeT_of_nonneg (by omega) (by omega),
          paddedRange]
        congr 1
        omega
      simp only [hstart, hend, bind, Except.bind, pure, Except.pure, hrange, Except.ok.injEq]
      exact ⟨fun h => ⟨⟨hpos, hlt⟩, h.symm⟩, fun h => h.2.symm⟩
    · refine iff_of_false (fun h => ?_) fun h => hlt h.1.2
      obtain ⟨-, -, h⟩ := exists_of_bind_eq_ok h
      obtain ⟨sum, hsum, h⟩ := exists_of_bind_eq_ok h
      obtain ⟨sum', hsum', h⟩ := exists_of_bind_eq_ok h
      obtain ⟨-, rfl⟩ := addInt64_eq_ok_iff.mp hsum
      exact hlt (addInt64_eq_ok_iff.mp hsum').1.2
  · rw [if_neg (by simpa using hpos)]
    exact iff_of_false (fun h => (by cases h)) fun h => hpos h.1.1

/-- A row group has requests if it begins in the object. -/
lemma paddedRange_lt_iff (hsize : 0 ≤ g.size) (hpos : 0 < g.fileOffset) :
    (paddedRange objectSize g).1 < (paddedRange objectSize g).2 ↔ g.fileOffset < objectSize := by
  have hpadding : padding = 1048576 := rfl
  rw [paddedRange, lt_min_iff]
  dsimp only
  omega

/-- **What the row groups are read with.** -/
lemma rowGroupRanges_eq_ok_iff (hsize : ∀ g ∈ rowGroups, 0 ≤ g.size) :
    rowGroupRanges objectSize rowGroups = .ok ranges ↔
      (∀ g ∈ rowGroups, 0 < g.fileOffset ∧ g.fileOffset + padding + g.size < 2 ^ 63) ∧
        (∃ g ∈ rowGroups, g.fileOffset < objectSize) ∧
        ranges = nonempty (cutAtNext (requests objectSize rowGroups)) := by
  by_cases hok : ∀ g ∈ rowGroups, 0 < g.fileOffset ∧ g.fileOffset + padding + g.size < 2 ^ 63
  · have hranges : rowGroups.mapM (rowGroupRange objectSize) =
        .ok (rowGroups.map (paddedRange objectSize)) :=
      mapM_eq_ok fun g hg => (rowGroupRange_eq_ok_iff (hsize g hg)).mpr ⟨hok g hg, rfl⟩
    have hrequests : (rowGroups.map (paddedRange objectSize)).flatMap (fun range =>
        addRangesSafe range.1 range.2 kS3ReadRequestSizeBytes) = requests objectSize rowGroups :=
      List.flatMap_map _ _ _
    have heq : rowGroupRanges objectSize rowGroups =
        removeOverlaps (requests objectSize rowGroups) := by
      rw [rowGroupRanges, hranges, ← hrequests]
      rfl
    have hnil : requests objectSize rowGroups = [] ↔ ¬∃ g ∈ rowGroups, g.fileOffset < objectSize := by
      rw [requests, List.flatMap_eq_nil_iff]
      push Not
      refine forall₂_congr fun g hg => ?_
      rw [addRangesSafe_eq_nil_iff kS3ReadRequestSizeBytes_pos, ← not_lt,
        paddedRange_lt_iff (hsize g hg) (hok g hg).1, not_lt]
    rw [heq]
    by_cases hne : requests objectSize rowGroups = []
    · refine iff_of_false (fun h => ?_) fun h => hnil.mp hne h.2.1
      rw [hne, removeOverlaps] at h
      cases h
    · rw [removeOverlaps_eq_ok hne, Except.ok.injEq]
      have hexists := not_not.mp (mt hnil.mpr hne)
      exact ⟨fun h => ⟨hok, hexists, h.symm⟩, fun h => h.2.2.symm⟩
  · refine iff_of_false (fun h => ?_) fun h => hok h.1
    obtain ⟨rs, hrs, -⟩ := exists_of_bind_eq_ok h
    refine hok fun g hg => ?_
    obtain ⟨r, hr⟩ := exists_mapM_eq_ok_iff.mp ⟨rs, hrs⟩ g hg
    exact ((rowGroupRange_eq_ok_iff (hsize g hg)).mp hr).1

/-! ### The ranges of the requests -/

lemma requests_append (as bs : List RowGroupMetaData) :
    requests objectSize (as ++ bs) = requests objectSize as ++ requests objectSize bs :=
  List.flatMap_append

lemma requests_cons : requests objectSize (g :: rowGroups) =
    addRangesSafe (paddedRange objectSize g).1 (paddedRange objectSize g).2
      kS3ReadRequestSizeBytes ++ requests objectSize rowGroups :=
  List.flatMap_cons

lemma mem_requests {request : Range} : request ∈ requests objectSize rowGroups ↔
    ∃ g ∈ rowGroups, request ∈ addRangesSafe (paddedRange objectSize g).1
      (paddedRange objectSize g).2 kS3ReadRequestSizeBytes :=
  List.mem_flatMap

lemma fst_lt_snd_of_mem_requests {request : Range} (h : request ∈ requests objectSize rowGroups) :
    request.1 < request.2 := by
  obtain ⟨g, -, hrequest⟩ := mem_requests.mp h
  exact (forall_mem_addRangesSafe request hrequest).2.1

lemma mem_inObject : g ∈ inObject objectSize rowGroups ↔ g ∈ rowGroups ∧ g.fileOffset < objectSize := by
  rw [inObject, List.mem_filter, decide_eq_true_eq]

/-- A row group behind the end of the object has no requests. -/
lemma requests_inObject (hsize : ∀ g ∈ rowGroups, 0 ≤ g.size)
    (hpos : ∀ g ∈ rowGroups, 0 < g.fileOffset) :
    requests objectSize (inObject objectSize rowGroups) = requests objectSize rowGroups := by
  rw [inObject]
  induction rowGroups with
  | nil => rfl
  | cons g rowGroups ih =>
    rw [List.forall_mem_cons] at hsize hpos
    have hrest := ih hsize.2 hpos.2
    by_cases hlt : g.fileOffset < objectSize
    · rw [List.filter_cons_of_pos (by simpa using hlt), requests_cons, requests_cons, hrest]
    · have hnil : addRangesSafe (paddedRange objectSize g).1 (paddedRange objectSize g).2
          kS3ReadRequestSizeBytes = [] := by
        rw [addRangesSafe_eq_nil_iff kS3ReadRequestSizeBytes_pos, ← not_lt,
          paddedRange_lt_iff hsize.1 hpos.1]
        exact hlt
      rw [List.filter_cons_of_neg (by simpa using hlt), hrest, requests_cons, hnil, List.nil_append]

/-- A byte that is read with row groups, which are cut where the next one begins: the last request
of a row group only up to there. -/
def IsKept (objectSize x : ℕ) : List RowGroupMetaData → Prop
  | [] => False
  | g :: rowGroups =>
    ((paddedRange objectSize g).1 ≤ x ∧ x < (paddedRange objectSize g).2 ∧
      (x < lastRequest objectSize g ∨ ∀ next ∈ rowGroups.head?, x < next.fileOffset)) ∨
    IsKept objectSize x rowGroups

/-- **The bytes that row groups are read with.** -/
lemma mem_points_requests_iff (hsize : ∀ g ∈ rowGroups, 0 ≤ g.size)
    (hpos : ∀ g ∈ rowGroups, 0 < g.fileOffset) {x : ℕ} :
    x ∈ points (nonempty (cutAtNext (requests objectSize rowGroups))) ↔
      IsKept objectSize x (inObject objectSize rowGroups) := by
  rw [points_nonempty, ← requests_inObject hsize hpos]
  have hall : ∀ g ∈ inObject objectSize rowGroups,
      (paddedRange objectSize g).1 < (paddedRange objectSize g).2 ∧ 0 < g.fileOffset := by
    intro g hg
    obtain ⟨hg, hlt⟩ := mem_inObject.mp hg
    exact ⟨(paddedRange_lt_iff (hsize g hg) (hpos g hg)).mpr hlt, hpos g hg⟩
  generalize inObject objectSize rowGroups = groups at hall
  induction groups with
  | nil => simp [requests, IsKept]
  | cons g groups ih =>
    rw [List.forall_mem_cons] at hall
    have hrest : x ∈ points (cutAtNext (requests objectSize groups)) ↔
        IsKept objectSize x groups := ih hall.2
    rw [requests_cons, mem_points_cutAtNext_addRangesSafe kS3ReadRequestSizeBytes_pos hall.1.1,
      hrest, IsKept, lastRequest]
    refine or_congr_left (and_congr_right fun _ => and_congr_right fun _ => or_congr_right ?_)
    -- the first request of the next row group begins with it
    cases groups with
    | nil => simp [requests]
    | cons next groups =>
      obtain ⟨hnext, hpos'⟩ := hall.2 next List.mem_cons_self
      rw [requests_cons, forall_head?_addRangesSafe kS3ReadRequestSizeBytes_pos hnext,
        List.head?_cons, paddedRange]
      simp only [Option.mem_def, Option.some.injEq, forall_eq']
      omega

/-- Every byte of a row group in the object is in a range. -/
lemma covers_requests (h : InFileOrder rowGroups) (hpos : ∀ g ∈ rowGroups, 0 < g.fileOffset)
    (hg : g ∈ rowGroups) {x : ℕ} (hx : g.fileOffset ≤ x) (hlt : x < g.fileOffset + g.size)
    (hobject : x < objectSize) :
    x ∈ points (nonempty (cutAtNext (requests objectSize rowGroups))) := by
  have hpadding : padding = 1048576 := rfl
  have hpairwise := h.pairwise
  obtain ⟨before, after, rfl⟩ := List.append_of_mem hg
  have hrange : (paddedRange objectSize g).1 ≤ x ∧ x < (paddedRange objectSize g).2 := by
    have hg' := hpos g hg
    rw [paddedRange, lt_min_iff]
    dsimp only
    omega
  obtain ⟨pre, request, post, heq, hrequest, hpost⟩ :=
    exists_request_of_mem kS3ReadRequestSizeBytes_pos hrange
  have hrequests : requests objectSize (before ++ g :: after) =
      (requests objectSize before ++ pre) ++ request :: (post ++ requests objectSize after) := by
    have hcons : requests objectSize (g :: after) =
        (pre ++ request :: post) ++ requests objectSize after := by
      rw [requests_cons, heq]
    rw [requests_append, hcons]
    simp only [List.append_assoc, List.cons_append]
  rw [points_nonempty, hrequests]
  refine mem_points_cutAtNext hrequest fun next hnext => ?_
  rcases List.mem_append.mp (List.mem_of_mem_head? hnext) with hnext | hnext
  · exact hpost next hnext
  · -- the request of a later row group
    obtain ⟨g', hg', hnext⟩ := mem_requests.mp hnext
    have hstart := (forall_mem_addRangesSafe next hnext).1
    have hle := (List.pairwise_cons.mp (List.pairwise_append.mp hpairwise).2.1).1 g' hg'
    have hpos' := hpos g' (by simp [hg'])
    rw [paddedRange] at hstart
    dsimp only at hstart
    omega

/-- Requests that begin in order are separated. -/
lemma separated_requests (h : InFileOrder rowGroups) (hpos : ∀ g ∈ rowGroups, 0 < g.fileOffset)
    (hlast : rowGroups.IsChain fun g h => (lastRequest objectSize g : ℤ) ≤ h.fileOffset) :
    Separated (nonempty (cutAtNext (requests objectSize rowGroups))) := by
  refine separated_cutAtNext ?_
  have hlast' : rowGroups.Pairwise fun g h => (lastRequest objectSize g : ℤ) ≤ h.fileOffset := by
    induction rowGroups with
    | nil => exact List.Pairwise.nil
    | cons g rowGroups ih =>
      rw [List.forall_mem_cons] at hpos
      refine List.pairwise_cons.mpr ⟨fun g' hg' => ?_, ih h.of_cons hpos.2 hlast.tail⟩
      cases rowGroups with
      | nil => exact absurd hg' List.not_mem_nil
      | cons next rowGroups =>
        have hnext := (List.isChain_cons_cons.mp hlast).1
        rcases List.mem_cons.mp hg' with rfl | hg'
        · exact hnext
        · have hle := (List.pairwise_cons.mp h.of_cons.pairwise).1 g' hg'
          have hsize := h.of_cons.size_nonneg next List.mem_cons_self
          omega
  refine List.pairwise_flatMap.mpr ⟨fun g _ => ?_, hlast'.imp_of_mem fun {g g'} _ hg' hle => ?_⟩
  · refine (pairwise_addRangesSafe _ _ _).imp_of_mem fun {r s} hr _ hle => ?_
    have hne := (forall_mem_addRangesSafe r hr).2.1
    omega
  · intro r hr s hs
    have hr' := fst_le_lastRequestStart kS3ReadRequestSizeBytes_pos hr
    have hs' := (forall_mem_addRangesSafe s hs).1
    have hpos' := hpos g' hg'
    rw [lastRequest] at hle
    rw [paddedRange] at hs'
    dsimp only at hs'
    omega

/-- Separated requests begin in order. -/
lemma lastRequest_le_of_separated (before : List Range)
    (h : InFileOrder rowGroups) (hpos : ∀ g ∈ rowGroups, 0 < g.fileOffset)
    (hlt : ∀ g ∈ rowGroups, g.fileOffset < objectSize)
    (hne : ∀ r ∈ before, r.1 < r.2)
    (hseparated : Separated (nonempty (cutAtNext (before ++ requests objectSize rowGroups)))) :
    rowGroups.IsChain fun g h => (lastRequest objectSize g : ℤ) ≤ h.fileOffset := by
  induction rowGroups generalizing before with
  | nil => exact List.IsChain.nil
  | cons g rowGroups ih =>
    cases rowGroups with
    | nil => exact List.isChain_singleton _
    | cons next rowGroups =>
      rw [List.forall_mem_cons] at hpos hlt
      have hrest := ih (before ++ addRangesSafe (paddedRange objectSize g).1
        (paddedRange objectSize g).2 kS3ReadRequestSizeBytes) h.of_cons hpos.2 hlt.2
      refine List.isChain_cons_cons.mpr ⟨?_, hrest ?_ ?_⟩
      · -- the last request of the row group and the first one of the next
        have hg := (paddedRange_lt_iff (h.size_nonneg g List.mem_cons_self) hpos.1).mpr hlt.1
        have hnext := (paddedRange_lt_iff (h.of_cons.size_nonneg next List.mem_cons_self)
          (hpos.2 next List.mem_cons_self)).mpr (hlt.2 next List.mem_cons_self)
        have hle := (List.isChain_cons_cons.mp h.end_le).1
        have hsize := h.size_nonneg g List.mem_cons_self
        have hstart : (paddedRange objectSize g).1 ≤ (paddedRange objectSize next).1 :=
          Int.toNat_le_toNat (by omega)
        have hall : ∀ r ∈ before ++ requests objectSize (g :: next :: rowGroups), r.1 < r.2 := by
          intro r hr
          rcases List.mem_append.mp hr with hr | hr
          · exact hne r hr
          · exact fst_lt_snd_of_mem_requests hr
        rw [requests_cons, requests_cons] at hseparated hall
        have hdescend := lastRequestStart_le_of_separated kS3ReadRequestSizeBytes_pos hg hnext
          hstart hall hseparated
        have hnextPos := hpos.2 next List.mem_cons_self
        have hfirst : (paddedRange objectSize next).1 = next.fileOffset.toNat := rfl
        rw [lastRequest]
        omega
      · intro r hr
        rcases List.mem_append.mp hr with hr | hr
        · exact hne r hr
        · exact (forall_mem_addRangesSafe r hr).2.1
      · rw [List.append_assoc, ← requests_cons]
        exact hseparated

lemma InFileOrder.inObject (h : InFileOrder rowGroups) : InFileOrder (inObject objectSize rowGroups) :=
  ⟨fun g hg => h.size_nonneg g (mem_inObject.mp hg).1, (h.pairwise.filter _).isChain⟩

/-- No range reaches behind the object. -/
lemma lt_of_mem_points {x : ℕ}
    (hx : x ∈ points (nonempty (cutAtNext (requests objectSize rowGroups)))) : x < objectSize := by
  rw [points_nonempty] at hx
  obtain ⟨r, hr, -, hlt⟩ := hx
  obtain ⟨request, hrequest, -, hle⟩ := exists_of_mem_cutAtNext hr
  obtain ⟨g, -, hrequest⟩ := mem_requests.mp hrequest
  have hend := (forall_mem_addRangesSafe request hrequest).2.2
  rw [paddedRange] at hend
  dsimp only at hend
  omega

end ParquetFormatMetadataReader

end Skyrise

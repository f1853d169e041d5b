/-
Ranges of column chunks.

The ranges are those of the column chunks, merged where they are close.  The code checks
that offsets and sizes are not negative, and nothing else: a chunk can reach behind the
end of the object, and the gap to the range before wraps around if the chunks are not in
the order of the file.  The length of the footer is not compared with the size of the
object either.  The checked arithmetic finds out when an offset leaves its type; where it
does not, the code computes the same.
-/
import Skyrise.Storage.Formats.ParquetMetadataReader

namespace Skyrise

/-! ### Checked and wrapping offsets -/

/-- A computation that does the same as a checked one that finds nothing. -/
def Agrees {α : Type} (checked wrapping : Except Exception α) : Prop :=
  checked ≠ .error .undefinedBehavior → wrapping = checked

namespace Agrees

variable {α β : Type} {x y : Except Exception α}

lemma refl (x : Except Exception α) : Agrees x x := fun _ => rfl

lemma bind {f g : α → Except Exception β} (h : Agrees x y) (hf : ∀ a, Agrees (f a) (g a)) :
    Agrees (x >>= f) (y >>= g) := by
  intro hne
  cases x with
  | error e =>
    rw [h fun heq => hne (by rw [heq]; rfl)]
    rfl
  | ok a =>
    rw [h fun heq => (by cases heq)]
    exact hf a hne

lemma mapM {f g : α → Except Exception β} (hf : ∀ a, Agrees (f a) (g a)) (xs : List α) :
    Agrees (xs.mapM f) (xs.mapM g) := by
  induction xs with
  | nil => exact refl _
  | cons a xs ih =>
    rw [List.mapM_cons, List.mapM_cons]
    exact (hf a).bind fun _ => ih.bind fun _ => refl _

end Agrees

lemma agrees_unsigned (bits : ℕ) (x : ℤ) :
    Agrees (OffsetArithmetic.checked.unsigned bits x) (OffsetArithmetic.wrapping.unsigned bits x) := by
  intro hne
  rw [OffsetArithmetic.unsigned] at hne ⊢
  split at hne
  · next h => rw [OffsetArithmetic.unsigned, if_pos h, Int.emod_eq_of_lt h.1 h.2]
  · exact absurd rfl hne

lemma unsigned_checked_eq_ok {bits : ℕ} {x : ℤ} (h : 0 ≤ x) (hlt : x < 2 ^ bits) :
    OffsetArithmetic.checked.unsigned bits x = .ok x.toNat := if_pos ⟨h, hlt⟩

lemma unsigned_checked_eq_error {bits : ℕ} {x : ℤ} (h : ¬(0 ≤ x ∧ x < 2 ^ bits)) :
    OffsetArithmetic.checked.unsigned bits x = .error .undefinedBehavior := if_neg h

namespace ParquetFormatMetadataReader

variable {R A : Type}

lemma agrees_mergeByteRange (start «end» : ℕ) (ranges : List Range) :
    Agrees (mergeByteRange .checked start «end» ranges)
      (mergeByteRange .wrapping start «end» ranges) := by
  rw [mergeByteRange, mergeByteRange]
  cases ranges.getLast? with
  | none => exact .refl _
  | some back => exact (agrees_unsigned 64 _).bind fun _ => .refl _

lemma agrees_computeByteRange (writtenBeforeParquet816 : Bool) (sourceSize : ℤ)
    (c : ColumnChunkMetaData) (ranges : List Range) :
    Agrees (computeByteRange .checked writtenBeforeParquet816 sourceSize c ranges)
      (computeByteRange .wrapping writtenBeforeParquet816 sourceSize c ranges) := by
  rw [computeByteRange, computeByteRange]
  split
  · exact .refl _
  · refine (Agrees.refl _).bind fun sum => ?_
    dsimp only
    split
    · exact .refl _
    · exact agrees_mergeByteRange _ _ _

lemma agrees_computeByteRanges (fileMetadata : FileMetaData) (sourceSize : ℤ)
    (requested : List (ℤ × ℤ)) (ranges : List Range) :
    Agrees (computeByteRanges .checked fileMetadata sourceSize requested ranges)
      (computeByteRanges .wrapping fileMetadata sourceSize requested ranges) := by
  induction requested generalizing ranges with
  | nil => exact .refl _
  | cons p requested ih =>
    exact (Agrees.refl _).bind fun c => (agrees_computeByteRange _ _ c ranges).bind fun rs => ih rs

lemma agrees_reserveBuffer (range : Range) :
    Agrees (reserveBuffer .checked range) (reserveBuffer .wrapping range) :=
  (agrees_unsigned 64 _).bind fun _ => .refl _

lemma agrees_calculatePageOffsetsForColumnIds (objectSize : ℕ) (fileMetadata : FileMetaData)
    (rowGroups : List ℤ) (configuration : ParquetFormatReaderOptions R A) (footer : Range) :
    Agrees
      (calculatePageOffsetsForColumnIds .checked objectSize fileMetadata rowGroups configuration footer)
      (calculatePageOffsetsForColumnIds .wrapping objectSize fileMetadata rowGroups configuration
        footer) := by
  refine Agrees.bind ?_ fun ranges => (Agrees.mapM agrees_reserveBuffer ranges).bind fun _ => .refl _
  generalize configuration.includeColumns = includeColumns
  cases includeColumns with
  | none => exact .refl _
  | some includeColumns =>
    rw [columnRanges, columnRanges]
    split
    · exact .refl _
    · exact agrees_computeByteRanges _ _ _ _

/-- **Where no offset leaves its type**, the code does what the check does. -/
lemma agrees_calculatePageOffsets (object : StoredObject)
    (fragment : List UInt8 → ParquetFileFragment)
    (configuration : ParquetFormatReaderOptions R A) :
    Agrees (calculatePageOffsets .checked object fragment configuration)
      (calculatePageOffsets .wrapping object fragment configuration) := by
  refine (Agrees.refl _).bind fun _ => Agrees.bind ?_ fun request => ?_
  · rw [footerRequest, footerRequest]
    split
    · exact agrees_unsigned _ _
    · exact .refl _
  · refine (Agrees.refl _).bind fun _ => (agrees_unsigned _ _).bind fun start => ?_
    cases (fragment (readTail object request)).metadata with
    | none => exact .refl _
    | some fileMetadata =>
      exact (Agrees.refl _).bind fun rowGroups =>
        agrees_calculatePageOffsetsForColumnIds _ _ _ _ _

/-! ### Merging -/

/-- Neither the start nor the size of a column chunk is negative. -/
def IsValid (c : ColumnChunkMetaData) : Prop := 0 ≤ c.columnStart ∧ 0 ≤ c.totalCompressedSize

instance : DecidablePred IsValid := fun _ => inferInstanceAs (Decidable (_ ∧ _))

/-- The end of a column chunk. -/
def chunkEnd (c : ColumnChunkMetaData) : ℤ := c.columnStart + c.totalCompressedSize

/-- The end of the range of a column chunk: in old files it includes a dictionary header. -/
def rangeEnd (writtenBeforeParquet816 : Bool) (objectSize : ℤ) (c : ColumnChunkMetaData) : ℤ :=
  if writtenBeforeParquet816 then min (chunkEnd c + kMaxDictionaryHeaderSize) objectSize
  else chunkEnd c

/-- What the ranges of some column chunks are. -/
structure Merged (before816 : Bool) (objectSize : ℤ) (chunks : List ColumnChunkMetaData)
    (ranges : List Range) : Prop where
  /-- The last range ends with the last chunk. -/
  last : ranges.getLast?.map (fun r => (r.2 : ℤ)) =
    chunks.getLast?.map (rangeEnd before816 objectSize)
  /-- Every chunk is covered. -/
  covers : ∀ c ∈ chunks, ∃ r ∈ ranges, (r.1 : ℤ) ≤ c.columnStart ∧
    rangeEnd before816 objectSize c ≤ r.2
  /-- A range starts with a chunk and ends with one. -/
  bounds : ∀ r ∈ ranges, (∃ c ∈ chunks, (r.1 : ℤ) = c.columnStart) ∧
    ∃ c ∈ chunks, (r.2 : ℤ) = rangeEnd before816 objectSize c
  /-- Without chunks that begin behind their end there are no such ranges. -/
  fst_le_snd : (∀ c ∈ chunks, c.columnStart ≤ rangeEnd before816 objectSize c) →
    ∀ r ∈ ranges, r.1 ≤ r.2

section

variable {before816 : Bool} {objectSize : ℤ} {c d : ColumnChunkMetaData}
  {chunks : List ColumnChunkMetaData} {ranges : List Range}

lemma Merged.nil (before816 : Bool) (objectSize : ℤ) : Merged before816 objectSize [] [] :=
  ⟨rfl, fun _ hc => absurd hc List.not_mem_nil, fun _ hr => absurd hr List.not_mem_nil,
    fun _ _ hr => absurd hr List.not_mem_nil⟩

/-- A chunk as a range of its own. -/
lemma Merged.push (h : Merged before816 objectSize chunks ranges) {start «end» : ℕ}
    (hstart : (start : ℤ) = c.columnStart) (hend : («end» : ℤ) = rangeEnd before816 objectSize c) :
    Merged before816 objectSize (chunks ++ [c]) (ranges ++ [(start, «end»)]) := by
  refine ⟨?_, fun c' hc' => ?_, fun r hr => ?_, fun hle r hr => ?_⟩
  · rw [List.getLast?_append_cons, List.getLast?_append_cons]
    exact congrArg some hend
  · rcases List.mem_append.mp hc' with hc' | hc'
    · obtain ⟨r, hr, hcover⟩ := h.covers c' hc'
      exact ⟨r, List.mem_append_left _ hr, hcover⟩
    · rw [List.mem_singleton.mp hc']
      exact ⟨(start, «end»), List.mem_append_right _ (List.mem_singleton_self _), hstart.le,
        hend.ge⟩
  · rcases List.mem_append.mp hr with hr | hr
    · obtain ⟨⟨a, ha, hra⟩, b, hb, hrb⟩ := h.bounds r hr
      exact ⟨⟨a, List.mem_append_left _ ha, hra⟩, b, List.mem_append_left _ hb, hrb⟩
    · rw [List.mem_singleton.mp hr]
      exact ⟨⟨c, List.mem_append_right _ (List.mem_singleton_self _), hstart⟩,
        c, List.mem_append_right _ (List.mem_singleton_self _), hend⟩
  · rw [List.forall_mem_append, List.forall_mem_singleton] at hle
    rcases List.mem_append.mp hr with hr | hr
    · exact h.fst_le_snd hle.1 r hr
    · rw [List.mem_singleton.mp hr]
      dsimp only
      omega

/-- A chunk that makes the last range longer. -/
lemma Merged.extend {back : Range} {pre : List Range}
    (h : Merged before816 objectSize chunks (pre ++ [back])) {«end» : ℕ}
    (hback : back.1 ≤ back.2) (hstart : (back.2 : ℤ) ≤ c.columnStart)
    (hle : back.2 ≤ «end») (hend : («end» : ℤ) = rangeEnd before816 objectSize c) :
    Merged before816 objectSize (chunks ++ [c]) (pre ++ [(back.1, «end»)]) := by
  have hmem : (back.1, «end») ∈ pre ++ [(back.1, «end»)] :=
    List.mem_append_right _ (List.mem_singleton_self _)
  refine ⟨?_, fun c' hc' => ?_, fun r hr => ?_, fun hall r hr => ?_⟩
  · rw [List.getLast?_append_cons, List.getLast?_append_cons]
    exact congrArg some hend
  · rcases List.mem_append.mp hc' with hc' | hc'
    · obtain ⟨r, hr, hcover⟩ := h.covers c' hc'
      rcases List.mem_append.mp hr with hr | hr
      · exact ⟨r, List.mem_append_left _ hr, hcover⟩
      · rw [List.mem_singleton.mp hr] at hcover
        exact ⟨_, hmem, hcover.1, hcover.2.trans (by exact_mod_cast hle)⟩
    · rw [List.mem_singleton.mp hc']
      refine ⟨_, hmem, ?_, hend.ge⟩
      dsimp only
      omega
  · rcases List.mem_append.mp hr with hr | hr
    · obtain ⟨⟨a, ha, hra⟩, b, hb, hrb⟩ := h.bounds r (List.mem_append_left _ hr)
      exact ⟨⟨a, List.mem_append_left _ ha, hra⟩, b, List.mem_append_left _ hb, hrb⟩
    · rw [List.mem_singleton.mp hr]
      obtain ⟨⟨a, ha, hra⟩, -⟩ := h.bounds back (List.mem_append_right _ (List.mem_singleton_self _))
      exact ⟨⟨a, List.mem_append_left _ ha, hra⟩,
        c, List.mem_append_right _ (List.mem_singleton_self _), hend⟩
  · rw [List.forall_mem_append, List.forall_mem_singleton] at hall
    rcases List.mem_append.mp hr with hr | hr
    · exact h.fst_le_snd hall.1 r (List.mem_append_left _ hr)
    · rw [List.mem_singleton.mp hr]
      exact hback.trans hle

lemma rangeEnd_nonneg (before816 : Bool) (hobject : 0 ≤ objectSize) (hc : IsValid c) :
    0 ≤ rangeEnd before816 objectSize c := by
  obtain ⟨hstart, hlength⟩ := hc
  have hheader : kMaxDictionaryHeaderSize = 100 := rfl
  rw [rangeEnd, chunkEnd]
  split <;> omega

lemma rangeEnd_lt (before816 : Bool) (hc : chunkEnd c < 2 ^ 63) (hobject : objectSize < 2 ^ 63) :
    rangeEnd before816 objectSize c < 2 ^ 63 := by
  rw [rangeEnd]
  split <;> omega

/-- The ends of ranges that follow each other ascend. -/
lemma rangeEnd_le_rangeEnd (hc : IsValid c)
    (h : rangeEnd before816 objectSize d ≤ c.columnStart) :
    rangeEnd before816 objectSize d ≤ rangeEnd before816 objectSize c := by
  have hlength := hc.2
  have hheader : kMaxDictionaryHeaderSize = 100 := rfl
  have hend : chunkEnd c = c.columnStart + c.totalCompressedSize := rfl
  cases before816 with
  | true =>
    rw [rangeEnd, if_pos rfl] at h
    rw [rangeEnd, rangeEnd, if_pos rfl, if_pos rfl]
    omega
  | false =>
    rw [rangeEnd, if_neg (by decide)] at h
    rw [rangeEnd, rangeEnd, if_neg (by decide), if_neg (by decide)]
    omega

/-! ### One column chunk -/

lemma computeByteRange_of_not_isValid (arithmetic : OffsetArithmetic) (hc : ¬IsValid c) :
    computeByteRange arithmetic before816 objectSize c ranges =
      .error (.logicError "Invalid column metadata (corrupt file?)") := by
  rw [IsValid, not_and_or, not_le, not_le] at hc
  rw [computeByteRange, if_pos hc]

lemma computeByteRange_of_overflow (arithmetic : OffsetArithmetic) (hc : IsValid c)
    (hlt : ¬chunkEnd c < 2 ^ 63) :
    computeByteRange arithmetic before816 objectSize c ranges = .error .undefinedBehavior := by
  obtain ⟨hstart, hlength⟩ := hc
  rw [chunkEnd] at hlt
  rw [computeByteRange, if_neg (by omega), addInt64, if_neg (by omega)]
  rfl

lemma computeByteRange_of_isValid (arithmetic : OffsetArithmetic) (hobject : 0 ≤ objectSize)
    (hobject' : objectSize < 2 ^ 63) (hc : IsValid c) (hlt : chunkEnd c < 2 ^ 63) :
    computeByteRange arithmetic before816 objectSize c ranges =
      mergeByteRange arithmetic c.columnStart.toNat (rangeEnd before816 objectSize c).toNat
        ranges := by
  have hend := rangeEnd_nonneg before816 hobject hc
  have hend' := rangeEnd_lt before816 hlt hobject'
  have hrangeEnd : c.columnStart + (if before816 then c.totalCompressedSize +
      min kMaxDictionaryHeaderSize (objectSize - (c.columnStart + c.totalCompressedSize))
      else c.totalCompressedSize) = rangeEnd before816 objectSize c := by
    rw [rangeEnd, chunkEnd]
    split <;> omega
  obtain ⟨hstart, hlength⟩ := hc
  rw [chunkEnd] at hlt
  have hsum : addInt64 c.columnStart c.totalCompressedSize =
      .ok (c.columnStart + c.totalCompressedSize) :=
    addInt64_eq_ok_iff.mpr ⟨⟨by omega, by omega⟩, rfl⟩
  rw [computeByteRange, if_neg (by omega), hsum]
  show (if c.columnStart + c.totalCompressedSize > 2 ^ 63 - 1 ∨ 0 > objectSize then _ else _) = _
  rw [if_neg (by omega), hrangeEnd, sizeT_of_nonneg hstart (by omega),
    sizeT_of_nonneg hend (by omega)]

/-- **One more column chunk.**  It is merged if it does not begin before the end of the last
range; otherwise the gap wraps around. -/
lemma computeByteRange_checked (hobject : 0 ≤ objectSize) (hobject' : objectSize < 2 ^ 63)
    (h : Merged before816 objectSize chunks ranges)
    (hchunks : ∀ d ∈ chunks, IsValid d ∧ chunkEnd d < 2 ^ 63) (hc : IsValid c)
    (hlt : chunkEnd c < 2 ^ 63) :
    ((∀ d ∈ chunks.getLast?, rangeEnd before816 objectSize d ≤ c.columnStart) →
      ∃ ranges', computeByteRange .checked before816 objectSize c ranges = .ok ranges' ∧
        Merged before816 objectSize (chunks ++ [c]) ranges') ∧
    ((∃ d ∈ chunks.getLast?, c.columnStart < rangeEnd before816 objectSize d) →
      computeByteRange .checked before816 objectSize c ranges = .error .undefinedBehavior) := by
  have hstart : ((c.columnStart.toNat : ℕ) : ℤ) = c.columnStart := Int.toNat_of_nonneg hc.1
  have hend : (((rangeEnd before816 objectSize c).toNat : ℕ) : ℤ) =
      rangeEnd before816 objectSize c := Int.toNat_of_nonneg (rangeEnd_nonneg before816 hobject hc)
  have hstartLt : c.columnStart < 2 ^ 63 := by
    have := hc.2
    rw [chunkEnd] at hlt
    omega
  rw [computeByteRange_of_isValid .checked hobject hobject' hc hlt, mergeByteRange]
  have hlast := h.last
  cases hback : ranges.getLast? with
  | none =>
    rw [List.getLast?_eq_none_iff] at hback
    subst hback
    refine ⟨fun _ => ⟨_, rfl, h.push hstart hend⟩, fun ⟨d, hd, _⟩ => ?_⟩
    rw [List.getLast?_nil, Option.map_none] at hlast
    rw [Option.mem_def.mp hd] at hlast
    cases hlast
  | some back =>
    rw [hback, Option.map_some] at hlast
    cases hd : chunks.getLast? with
    | none =>
      rw [hd] at hlast
      cases hlast
    | some d =>
      rw [hd, Option.map_some, Option.some_inj] at hlast
      dsimp only
      constructor
      · intro hle
        have hle := hle d rfl
        rw [unsigned_checked_eq_ok (by omega) (by omega)]
        simp only [bind, Except.bind, pure, Except.pure]
        split
        · exact ⟨_, rfl, h.push hstart hend⟩
        · next hmerge =>
          refine ⟨_, rfl, ?_⟩
          obtain ⟨pre, rfl⟩ : ∃ pre, ranges = pre ++ [back] :=
            ⟨_, (List.dropLast_append_getLast? back hback).symm⟩
          obtain ⟨⟨a, ha, hra⟩, -⟩ := h.bounds back (List.mem_append_right _ (List.mem_singleton_self _))
          have hsize : kS3ReadRequestSizeBytes = 16777216 := rfl
          have hback' : back.1 ≤ back.2 := by
            by_contra! hgt
            have hlt' := (hchunks a ha).2
            have hlength := (hchunks a ha).1.2
            rw [chunkEnd] at hlt'
            refine hmerge (.inr ?_)
            rw [sizeT, hsize]
            omega
          rw [List.dropLast_concat]
          refine h.extend hback' (by omega) ?_ hend
          have hd' : rangeEnd before816 objectSize d ≤ rangeEnd before816 objectSize c :=
            rangeEnd_le_rangeEnd hc hle
          omega
      · rintro ⟨d', hd', hgt⟩
        obtain rfl := Option.some.inj hd'
        rw [unsigned_checked_eq_error (by omega)]
        rfl

end

/-! ### All column chunks -/

/-- The column chunks before the first one that does not exist or is not valid. -/
def validChunks (fileMetadata : FileMetaData) : List (ℤ × ℤ) → List ColumnChunkMetaData
  | [] => []
  | (rowGroupIndex, columnIndex) :: requested =>
    match columnChunk fileMetadata rowGroupIndex columnIndex with
    | .ok c => if IsValid c then c :: validChunks fileMetadata requested else []
    | .error _ => []

/-- Column chunks whose ends are signed offsets and whose ranges follow each other. -/
structure Fits (before816 : Bool) (objectSize : ℤ) (chunks : List ColumnChunkMetaData) : Prop where
  end_lt : ∀ c ∈ chunks, chunkEnd c < 2 ^ 63
  rangeEnd_le : chunks.IsChain fun c d => rangeEnd before816 objectSize c ≤ d.columnStart

section

variable {fileMetadata : FileMetaData} {objectSize : ℤ} {chunks : List ColumnChunkMetaData}
  {ranges : List Range} {requested : List (ℤ × ℤ)}

lemma isValid_of_mem_validChunks {c : ColumnChunkMetaData}
    (hc : c ∈ validChunks fileMetadata requested) : IsValid c := by
  induction requested with
  | nil => exact absurd hc List.not_mem_nil
  | cons p requested ih =>
    rw [validChunks] at hc
    split at hc
    · next c' _ =>
      split at hc
      · next hvalid =>
        rcases List.mem_cons.mp hc with rfl | hc
        · exact hvalid
        · exact ih hc
      · exact absurd hc List.not_mem_nil
    · exact absurd hc List.not_mem_nil

lemma exists_of_mem_validChunks {c : ColumnChunkMetaData}
    (hc : c ∈ validChunks fileMetadata requested) :
    ∃ p ∈ requested, columnChunk fileMetadata p.1 p.2 = .ok c := by
  induction requested with
  | nil => exact absurd hc List.not_mem_nil
  | cons p requested ih =>
    rw [validChunks] at hc
    split at hc
    · next c' hc' =>
      split at hc
      · rcases List.mem_cons.mp hc with rfl | hc
        · exact ⟨p, List.mem_cons_self, hc'⟩
        · obtain ⟨q, hq, hqc⟩ := ih hc
          exact ⟨q, List.mem_cons_of_mem p hq, hqc⟩
      · exact absurd hc List.not_mem_nil
    · exact absurd hc List.not_mem_nil

/-- If no column chunk is left out, then all of them exist. -/
lemma exists_of_length_validChunks
    (h : (validChunks fileMetadata requested).length = requested.length) {p : ℤ × ℤ}
    (hp : p ∈ requested) :
    ∃ c ∈ validChunks fileMetadata requested, columnChunk fileMetadata p.1 p.2 = .ok c := by
  induction requested with
  | nil => exact absurd hp List.not_mem_nil
  | cons q requested ih =>
    rw [validChunks] at h ⊢
    split at h
    · next c hc =>
      split at h
      · next hvalid =>
        rw [List.length_cons, List.length_cons, Nat.succ_inj] at h
        rw [if_pos hvalid]
        rcases List.mem_cons.mp hp with rfl | hp
        · exact ⟨c, List.mem_cons_self, hc⟩
        · obtain ⟨d, hd, hpd⟩ := ih h hp
          exact ⟨d, List.mem_cons_of_mem c hd, hpd⟩
      · cases h
    · cases h

lemma columnChunk_ne_undefinedBehavior {rowGroupIndex columnIndex : ℤ} :
    columnChunk fileMetadata rowGroupIndex columnIndex ≠ .error .undefinedBehavior := by
  have hat : ∀ {α : Type} (xs : List α) (index : ℤ),
      parquetAt xs index ≠ .error .undefinedBehavior := by
    intro α xs index h
    rw [parquetAt] at h
    split at h <;> cases h
  rw [columnChunk]
  cases hgroup : parquetAt fileMetadata.rowGroups rowGroupIndex with
  | error e =>
    intro h
    cases h
    exact hat _ _ hgroup
  | ok g => exact hat _ _

lemma fits_append_cons {before816 : Bool} {last : Option ColumnChunkMetaData}
    {c : ColumnChunkMetaData} (hlast : ∀ d ∈ last, chunkEnd d < 2 ^ 63) :
    Fits before816 objectSize (last.toList ++ c :: chunks) ↔
      (∀ d ∈ last, rangeEnd before816 objectSize d ≤ c.columnStart) ∧
        Fits before816 objectSize (c :: chunks) := by
  cases last with
  | none => simp
  | some d =>
    have hd := hlast d rfl
    constructor
    · rintro ⟨hlt, hchain⟩
      obtain ⟨hle, hchain⟩ := List.isChain_cons_cons.mp hchain
      refine ⟨fun d' hd' => ?_, fun c' hc' => hlt c' (List.mem_cons_of_mem d hc'), hchain⟩
      obtain rfl := Option.some.inj hd'
      exact hle
    · rintro ⟨hle, hlt, hchain⟩
      exact ⟨List.forall_mem_cons.mpr ⟨hd, hlt⟩, List.isChain_cons_cons.mpr ⟨hle d rfl, hchain⟩⟩

/-- **A run over column chunks.**  The check finds nothing if and only if the chunks before the
first one that is not valid fit; the run fails if there is such a chunk. -/
lemma computeByteRanges_checked (requested : List (ℤ × ℤ)) (hobject : 0 ≤ objectSize)
    (hobject' : objectSize < 2 ^ 63)
    (h : Merged fileMetadata.writtenBeforeParquet816 objectSize chunks ranges)
    (hchunks : ∀ c ∈ chunks, IsValid c ∧ chunkEnd c < 2 ^ 63) :
    (Fits fileMetadata.writtenBeforeParquet816 objectSize
        (chunks.getLast?.toList ++ validChunks fileMetadata requested) →
      ((validChunks fileMetadata requested).length = requested.length →
        ∃ ranges', computeByteRanges .checked fileMetadata objectSize requested ranges =
            .ok ranges' ∧ Merged fileMetadata.writtenBeforeParquet816 objectSize
              (chunks ++ validChunks fileMetadata requested) ranges') ∧
      ((validChunks fileMetadata requested).length ≠ requested.length →
        ∃ e, e ≠ .undefinedBehavior ∧
          computeByteRanges .checked fileMetadata objectSize requested ranges = .error e)) ∧
    (¬Fits fileMetadata.writtenBeforeParquet816 objectSize
        (chunks.getLast?.toList ++ validChunks fileMetadata requested) →
      computeByteRanges .checked fileMetadata objectSize requested ranges =
        .error .undefinedBehavior) := by
  have hfits : Fits fileMetadata.writtenBeforeParquet816 objectSize chunks.getLast?.toList := by
    refine ⟨fun c hc => ?_, ?_⟩
    · exact (hchunks c (List.mem_of_mem_getLast? (Option.mem_toList.mp hc))).2
    · cases chunks.getLast? with
      | none => exact List.IsChain.nil
      | some d => exact List.isChain_singleton _
  induction requested generalizing chunks ranges with
  | nil =>
    rw [validChunks, List.append_nil, List.append_nil]
    exact ⟨fun _ => ⟨fun _ => ⟨ranges, rfl, h⟩, fun hne => absurd rfl hne⟩, fun hnot => absurd hfits hnot⟩
  | cons p requested ih =>
    rw [computeByteRanges, validChunks]
    cases hcolumn : columnChunk fileMetadata p.1 p.2 with
    | error e =>
      have hne : e ≠ .undefinedBehavior := by
        rintro rfl
        exact columnChunk_ne_undefinedBehavior hcolumn
      dsimp only
      rw [List.append_nil]
      exact ⟨fun _ => ⟨fun hlength => (by cases hlength), fun _ => ⟨e, hne, rfl⟩⟩,
        fun hnot => absurd hfits hnot⟩
    | ok c =>
      dsimp only
      by_cases hc : IsValid c
      · rw [if_pos hc, fits_append_cons fun d hd => hfits.end_lt d (Option.mem_toList.mpr hd),
          List.length_cons, List.length_cons]
        by_cases hlt : chunkEnd c < 2 ^ 63
        · have hstep := computeByteRange_checked hobject hobject' h hchunks hc hlt
          by_cases hle : ∀ d ∈ chunks.getLast?,
              rangeEnd fileMetadata.writtenBeforeParquet816 objectSize d ≤ c.columnStart
          · obtain ⟨ranges', hok, hmerged⟩ := hstep.1 hle
            have hrun := ih hmerged (by
              rw [List.forall_mem_append, List.forall_mem_singleton]
              exact ⟨hchunks, hc, hlt⟩) ?_
            · rw [List.getLast?_concat, Option.toList_some, List.append_assoc,
                List.singleton_append] at hrun
              simp only [bind, Except.bind, hok]
              refine ⟨fun hfits' => ⟨fun hlength => ?_, fun hlength => ?_⟩, fun hnot => ?_⟩
              · exact (hrun.1 hfits'.2).1 (Nat.succ.inj hlength)
              · exact (hrun.1 hfits'.2).2 fun heq => hlength (congrArg _ heq)
              · exact hrun.2 fun hfits' => hnot ⟨hle, hfits'⟩
            · rw [List.getLast?_concat]
              exact ⟨List.forall_mem_singleton.mpr hlt, List.isChain_singleton _⟩
          · -- the gap to the last range wraps around
            refine ⟨fun hfits' => absurd hfits'.1 hle, fun _ => ?_⟩
            push Not at hle
            simp only [bind, Except.bind, hstep.2 hle]
        · refine ⟨fun hfits' => absurd (hfits'.2.end_lt c List.mem_cons_self) hlt, fun _ => ?_⟩
          simp only [bind, Except.bind, computeByteRange_of_overflow .checked hc hlt]
      · -- the run ends with an error
        rw [if_neg hc, List.append_nil]
        refine ⟨fun _ => ⟨fun hlength => (by cases hlength), fun _ =>
          ⟨.logicError "Invalid column metadata (corrupt file?)", by simp, ?_⟩⟩,
          fun hnot => absurd hfits hnot⟩
        simp only [bind, Except.bind, computeByteRange_of_not_isValid .checked hc]

end

/-! ### The ranges of the requested columns -/

/-- Ranges in an object that cover the requested column chunks. -/
structure CoversColumns (objectSize : ℕ) (fileMetadata : FileMetaData) (requested : List (ℤ × ℤ))
    (ranges : List Range) : Prop where
  /-- The ranges lie in the object. -/
  le_size : ∀ r ∈ ranges, r.1 ≤ r.2 ∧ r.2 ≤ objectSize
  /-- Every requested column chunk exists and lies in a range. -/
  covers : ∀ p ∈ requested, ∃ c, columnChunk fileMetadata p.1 p.2 = .ok c ∧
    ∃ r ∈ ranges, (r.1 : ℤ) ≤ c.columnStart ∧ chunkEnd c ≤ r.2

/-- Column chunks that fit, and that lie in the object if none is refused. -/
structure SafeColumns (objectSize : ℤ) (fileMetadata : FileMetaData) (requested : List (ℤ × ℤ)) :
    Prop where
  fits : Fits fileMetadata.writtenBeforeParquet816 objectSize (validChunks fileMetadata requested)
  end_le : (validChunks fileMetadata requested).length = requested.length →
    ∀ c ∈ validChunks fileMetadata requested, chunkEnd c ≤ objectSize

lemma reserveBuffer_checked_eq_ok {range : Range} (hle : range.1 ≤ range.2)
    (hlt : range.2 < 2 ^ 63) : reserveBuffer .checked range = .ok range := by
  rw [reserveBuffer, unsigned_checked_eq_ok (by omega) (by omega)]
  simp only [bind, Except.bind, pure, Except.pure]
  rw [if_pos (by omega)]

lemma reserveBuffer_checked_eq_error {range : Range} (hlt : range.2 < range.1) :
    reserveBuffer .checked range = .error .undefinedBehavior := by
  rw [reserveBuffer, unsigned_checked_eq_error (by omega)]
  rfl

/-- A loop whose body returns the element or always the same error. -/
lemma mapM_eq_ok_or_error {α : Type} {f : α → Except Exception α} {e : Exception} {xs : List α}
    (h : ∀ x ∈ xs, f x = .ok x ∨ f x = .error e) : xs.mapM f = .ok xs ∨ xs.mapM f = .error e := by
  induction xs with
  | nil => exact .inl rfl
  | cons x xs ih =>
    rw [List.forall_mem_cons] at h
    rw [List.mapM_cons]
    rcases h.1 with hx | hx
    · rcases ih h.2 with hxs | hxs
      · exact .inl (by rw [hx, hxs]; rfl)
      · exact .inr (by rw [hx, hxs]; rfl)
    · exact .inr (by rw [hx]; rfl)

section

variable {objectSize : ℕ} {fileMetadata : FileMetaData} {requested : List (ℤ × ℤ)}
  {ranges : List Range}

lemma rangeEnd_le (before816 : Bool) {objectSize : ℤ} {c : ColumnChunkMetaData}
    (hc : chunkEnd c ≤ objectSize) : rangeEnd before816 objectSize c ≤ objectSize := by
  rw [rangeEnd]
  split <;> omega

lemma chunkEnd_le_rangeEnd (before816 : Bool) {objectSize : ℤ} {c : ColumnChunkMetaData}
    (hc : chunkEnd c ≤ objectSize) : chunkEnd c ≤ rangeEnd before816 objectSize c := by
  have hheader : kMaxDictionaryHeaderSize = 100 := rfl
  rw [rangeEnd]
  split <;> omega

/-- The run over all requested columns. -/
lemma computeByteRanges_nil (hobject : objectSize < 2 ^ 63) (fileMetadata : FileMetaData)
    (requested : List (ℤ × ℤ)) :
    (Fits fileMetadata.writtenBeforeParquet816 objectSize (validChunks fileMetadata requested) →
      ((validChunks fileMetadata requested).length = requested.length →
        ∃ ranges, computeByteRanges .checked fileMetadata objectSize requested [] = .ok ranges ∧
          Merged fileMetadata.writtenBeforeParquet816 objectSize
            (validChunks fileMetadata requested) ranges) ∧
      ((validChunks fileMetadata requested).length ≠ requested.length →
        ∃ e, e ≠ .undefinedBehavior ∧
          computeByteRanges .checked fileMetadata objectSize requested [] = .error e)) ∧
    (¬Fits fileMetadata.writtenBeforeParquet816 objectSize (validChunks fileMetadata requested) →
      computeByteRanges .checked fileMetadata objectSize requested [] =
        .error .undefinedBehavior) :=
  computeByteRanges_checked requested (by omega) (by omega)
    (Merged.nil fileMetadata.writtenBeforeParquet816 objectSize)
    fun c hc => absurd hc List.not_mem_nil

/-- **The ranges of the requested columns.**  Safe columns are refused or covered. -/
lemma computeByteRanges_safe (hobject : objectSize < 2 ^ 63)
    (h : SafeColumns objectSize fileMetadata requested) :
    (∃ e, e ≠ .undefinedBehavior ∧
      computeByteRanges .checked fileMetadata objectSize requested [] = .error e) ∨
    ∃ ranges, computeByteRanges .checked fileMetadata objectSize requested [] = .ok ranges ∧
      ranges.mapM (reserveBuffer .checked) = .ok ranges ∧
      CoversColumns objectSize fileMetadata requested ranges := by
  have hrun := computeByteRanges_nil hobject fileMetadata requested
  obtain ⟨hok, herror⟩ := hrun.1 h.fits
  by_cases hlength : (validChunks fileMetadata requested).length = requested.length
  · obtain ⟨ranges, hranges, hmerged⟩ := hok hlength
    have hend := h.end_le hlength
    have hle : ∀ r ∈ ranges, r.1 ≤ r.2 ∧ r.2 ≤ objectSize := by
      intro r hr
      refine ⟨hmerged.fst_le_snd (fun c hc => ?_) r hr, ?_⟩
      · have hvalid := isValid_of_mem_validChunks hc
        have hlength := hvalid.2
        have hchunk := chunkEnd_le_rangeEnd fileMetadata.writtenBeforeParquet816 (hend c hc)
        rw [chunkEnd] at hchunk
        omega
      · obtain ⟨-, c, hc, hrc⟩ := hmerged.bounds r hr
        have hle := rangeEnd_le fileMetadata.writtenBeforeParquet816 (hend c hc)
        omega
    refine .inr ⟨ranges, hranges, ?_, hle, fun p hp => ?_⟩
    · have hreserve : ∀ r ∈ ranges, reserveBuffer .checked r = .ok (id r) := by
        intro r hr
        obtain ⟨hr, hr'⟩ := hle r hr
        exact reserveBuffer_checked_eq_ok hr (by omega)
      rw [mapM_eq_ok hreserve, List.map_id]
    · obtain ⟨c, hc, hpc⟩ := exists_of_length_validChunks hlength hp
      obtain ⟨r, hr, hstart, hend'⟩ := hmerged.covers c hc
      exact ⟨c, hpc, r, hr, hstart, (chunkEnd_le_rangeEnd _ (hend c hc)).trans hend'⟩
  · exact .inl (herror hlength)

/-- Columns whose ranges are safe are safe. -/
lemma safeColumns_of_computeByteRanges (hobject : objectSize < 2 ^ 63)
    (hne : (computeByteRanges .checked fileMetadata objectSize requested [] >>= fun ranges =>
      ranges.mapM (reserveBuffer .checked)) ≠ .error .undefinedBehavior)
    (hend : ∀ ranges, computeByteRanges .checked fileMetadata objectSize requested [] =
      .ok ranges → ranges.mapM (reserveBuffer .checked) = .ok ranges →
        ∀ p ∈ requested, ∃ c, columnChunk fileMetadata p.1 p.2 = .ok c ∧
          chunkEnd c ≤ objectSize) :
    SafeColumns objectSize fileMetadata requested := by
  have hrun := computeByteRanges_nil hobject fileMetadata requested
  have hfits : Fits fileMetadata.writtenBeforeParquet816 objectSize
      (validChunks fileMetadata requested) := by
    by_contra hnot
    exact hne (by rw [hrun.2 hnot]; rfl)
  refine ⟨hfits, fun hlength c hc => ?_⟩
  obtain ⟨ranges, hranges, hmerged⟩ := (hrun.1 hfits).1 hlength
  have hreserve : ranges.mapM (reserveBuffer .checked) = .ok ranges ∨
      ranges.mapM (reserveBuffer .checked) = .error .undefinedBehavior := by
    refine mapM_eq_ok_or_error fun r hr => ?_
    obtain ⟨-, d, hd, hrd⟩ := hmerged.bounds r hr
    have hlt := rangeEnd_lt fileMetadata.writtenBeforeParquet816 (hfits.end_lt d hd)
      (by omega : (objectSize : ℤ) < 2 ^ 63)
    rcases Nat.lt_or_ge r.2 r.1 with hgt | hle
    · exact .inr (reserveBuffer_checked_eq_error hgt)
    · exact .inl (reserveBuffer_checked_eq_ok hle (by omega))
  rcases hreserve with hreserve | hreserve
  · obtain ⟨p, hp, hpc⟩ := exists_of_mem_validChunks hc
    obtain ⟨d, hpd, hd⟩ := hend ranges hranges hreserve p hp
    rwa [Except.ok.inj (hpc.symm.trans hpd)]
  · refine absurd ?_ hne
    rw [hranges]
    exact hreserve

end

/-! ### Footers that cannot be trusted -/

/-- The size of the metadata that a footer states. -/
def footerSize (object : StoredObject) : ℕ :=
  readUInt32 ((readTail object (min object.data.length kParquetFooterSizeBytes)).drop
    (min object.data.length kParquetFooterSizeBytes - kParquetFooterMetadataOffsetBytes))

/-- The number of bytes of the footer that is parsed. -/
def footerRequestSize (object : StoredObject) : ℕ :=
  if footerSize object > min object.data.length kParquetFooterSizeBytes -
      kParquetFooterMetadataOffsetBytes then
    footerSize object + kParquetFooterMetadataOffsetBytes
  else min object.data.length kParquetFooterSizeBytes

/-- What the library makes of the footer. -/
def footerFragment (object : StoredObject) (fragment : List UInt8 → ParquetFileFragment) :
    ParquetFileFragment :=
  fragment (readTail object (footerRequestSize object))

/-- The row groups that are read. -/
def partitions (fileMetadata : FileMetaData) (rowGroupIds : Option (List Int32)) : List ℤ :=
  match rowGroupIds with
  | none => (List.range fileMetadata.rowGroups.length).map Int.ofNat
  | some rowGroupIds => rowGroupIds.map Int32.toInt

/-- A partition is asked for that the file does not have. -/
def MissesPartition (metadata : Option FileMetaData) (rowGroupIds : Option (List Int32)) : Prop :=
  ∃ ids, rowGroupIds = some ids ∧ ∀ fileMetadata, metadata = some fileMetadata →
    ∃ id ∈ ids, ¬(0 ≤ id.toInt ∧ id.toInt < fileMetadata.rowGroups.length)

/-- An error, or ranges in the object that cover the columns and the footer, without an offset
that leaves its type. -/
structure IsSafe (object : StoredObject) (fragment : List UInt8 → ParquetFileFragment)
    (configuration : ParquetFormatReaderOptions R A) (includeColumns : List UInt32) : Prop where
  /-- No offset leaves its type. -/
  checked : calculatePageOffsets .checked object fragment configuration ≠
    .error .undefinedBehavior
  /-- The ranges lie in the object and cover the columns and the footer. -/
  ranges : ∀ ranges, calculatePageOffsets .wrapping object fragment configuration = .ok ranges →
    ∃ fileMetadata, (footerFragment object fragment).metadata = some fileMetadata ∧
      CoversColumns object.data.length fileMetadata
        (requestedColumns (partitions fileMetadata configuration.rowGroupIds) includeColumns)
        ranges ∧
      ∃ r ∈ ranges, r.1 + (footerSize object + kParquetFooterMetadataOffsetBytes) ≤
        object.data.length ∧ object.data.length ≤ r.2

/-- Footers with which the ranges are safe: their size fits into 32 bits and the object, and so
do the columns, unless the reader is refused. -/
def HasSafeFooter (object : StoredObject) (fragment : List UInt8 → ParquetFileFragment)
    (rowGroupIds : Option (List Int32)) (includeColumns : List UInt32) : Prop :=
  object.data.length < 8 ∨
    footerSize object + kParquetFooterMetadataOffsetBytes < 2 ^ 32 ∧
      (MissesPartition (footerFragment object fragment).metadata rowGroupIds ∨
        footerSize object + kParquetFooterMetadataOffsetBytes ≤ object.data.length ∧
          ∀ fileMetadata, (footerFragment object fragment).metadata = some fileMetadata →
            SafeColumns object.data.length fileMetadata
              (requestedColumns (partitions fileMetadata rowGroupIds) includeColumns))

section

variable {object : StoredObject} {fragment : List UInt8 → ParquetFileFragment}
  {configuration : ParquetFormatReaderOptions R A} {includeColumns : List UInt32}

lemma rowGroupSubset_of_not_missesPartition {f : ParquetFileFragment} {fileMetadata : FileMetaData}
    {rowGroupIds : Option (List Int32)} (hmetadata : f.metadata = some fileMetadata)
    (h : ¬MissesPartition f.metadata rowGroupIds) :
    rowGroupSubset f fileMetadata rowGroupIds = .ok (partitions fileMetadata rowGroupIds) := by
  cases rowGroupIds with
  | none => rfl
  | some ids =>
    have hall : ids.all (fun id => decide (0 ≤ id.toInt ∧
        id.toInt < fileMetadata.rowGroups.length)) = true := by
      rw [List.all_eq_true]
      intro id hid
      rw [decide_eq_true_eq]
      by_contra hnot
      refine h ⟨ids, rfl, fun fileMetadata' h' => ⟨id, hid, ?_⟩⟩
      rw [hmetadata] at h'
      rwa [← Option.some.inj h']
    rw [rowGroupSubset, hall]
    rfl

lemma openFragment_of_not_missesPartition {f : ParquetFileFragment}
    {rowGroupIds : Option (List Int32)} (h : ¬MissesPartition f.metadata rowGroupIds) :
    openFragment f rowGroupIds = .ok () := by
  cases rowGroupIds with
  | none => rw [openFragment]
  | some ids =>
    cases hmetadata : f.metadata with
    | none =>
      refine absurd ⟨ids, rfl, fun fileMetadata h' => ?_⟩ h
      rw [hmetadata] at h'
      cases h'
    | some fileMetadata =>
      rw [openFragment.eq_def, hmetadata]
      dsimp only
      rw [rowGroupSubset_of_not_missesPartition hmetadata h]
      rfl

lemma openFragment_of_missesPartition {f : ParquetFileFragment}
    {rowGroupIds : Option (List Int32)} (h : MissesPartition f.metadata rowGroupIds) :
    openFragment f rowGroupIds = .error (.assertionFailed f.subsetStatus) := by
  obtain ⟨ids, rfl, hids⟩ := h
  cases hmetadata : f.metadata with
  | none => rw [openFragment.eq_def, hmetadata]
  | some fileMetadata =>
    obtain ⟨id, hid, hnot⟩ := hids fileMetadata hmetadata
    have hall : ids.all (fun id => decide (0 ≤ id.toInt ∧
        id.toInt < fileMetadata.rowGroups.length)) = false := by
      rw [List.all_eq_false]
      exact ⟨id, hid, by simpa using hnot⟩
    rw [openFragment.eq_def, hmetadata]
    dsimp only
    rw [rowGroupSubset, hall]
    rfl

lemma isSafe_of_error {e : Exception} (hne : e ≠ .undefinedBehavior)
    (h : calculatePageOffsets .checked object fragment configuration = .error e) :
    IsSafe object fragment configuration includeColumns := by
  have hchecked : calculatePageOffsets .checked object fragment configuration ≠
      .error .undefinedBehavior := by
    rw [h]
    exact fun heq => hne (Except.error.inj heq)
  refine ⟨hchecked, fun ranges hranges => ?_⟩
  rw [agrees_calculatePageOffsets _ _ _ hchecked, h] at hranges
  cases hranges

lemma footerRequest_checked (h : footerSize object + kParquetFooterMetadataOffsetBytes < 2 ^ 32) :
    footerRequest .checked (footerSize object) (min object.data.length kParquetFooterSizeBytes) =
      .ok (footerRequestSize object) := by
  rw [footerRequest, footerRequestSize]
  split
  · rw [unsigned_checked_eq_ok (by omega) (by exact_mod_cast h)]
    rfl
  · rfl

lemma footerRequest_checked_error
    (h : ¬footerSize object + kParquetFooterMetadataOffsetBytes < 2 ^ 32) :
    footerRequest .checked (footerSize object) (min object.data.length kParquetFooterSizeBytes) =
      .error .undefinedBehavior := by
  have hoffset : kParquetFooterMetadataOffsetBytes = 8 := rfl
  have hfooter : kParquetFooterSizeBytes = 65536 := rfl
  rw [footerRequest, if_pos (by omega), unsigned_checked_eq_error (by omega)]

/-- The footer that is read lies in the object if the footer does. -/
lemma footerRequestSize_le_iff (h : 8 ≤ object.data.length) :
    footerRequestSize object ≤ object.data.length ↔
      footerSize object + kParquetFooterMetadataOffsetBytes ≤ object.data.length := by
  have hoffset : kParquetFooterMetadataOffsetBytes = 8 := rfl
  have hfooter : kParquetFooterSizeBytes = 65536 := rfl
  rw [footerRequestSize]
  split <;> omega

lemma le_footerRequestSize (h : 8 ≤ object.data.length) :
    footerSize object + kParquetFooterMetadataOffsetBytes ≤ footerRequestSize object := by
  have hoffset : kParquetFooterMetadataOffsetBytes = 8 := rfl
  have hfooter : kParquetFooterSizeBytes = 65536 := rfl
  rw [footerRequestSize]
  split <;> omega

lemma calculatePageOffsets_eq (arithmetic : OffsetArithmetic) (h : 8 ≤ object.data.length) :
    calculatePageOffsets arithmetic object fragment configuration =
      footerRequest arithmetic (footerSize object)
        (min object.data.length kParquetFooterSizeBytes) >>= fun request =>
      openFragment (fragment (readTail object request)) configuration.rowGroupIds >>= fun _ =>
      arithmetic.unsigned 64 (object.data.length - request) >>= fun footerStart =>
      match (fragment (readTail object request)).metadata with
      | none => .error (.assertionFailed "Unable to extract metadata.")
      | some fileMetadata =>
        rowGroupSubset (fragment (readTail object request)) fileMetadata
          configuration.rowGroupIds >>= fun rowGroups =>
        calculatePageOffsetsForColumnIds arithmetic object.data.length fileMetadata rowGroups
          configuration (footerStart, object.data.length) := by
  have hfooter : kParquetFooterSizeBytes = 65536 := rfl
  have hassert : decide (min object.data.length kParquetFooterSizeBytes ≥ 8) = true :=
    decide_eq_true (by omega)
  rw [calculatePageOffsets]
  dsimp only
  rw [hassert]
  rfl

/-- Without a partition that is asked for there are no ranges. -/
lemma calculatePageOffsets_of_missesPartition {arithmetic : OffsetArithmetic}
    (h : 8 ≤ object.data.length)
    (hrequest : footerRequest arithmetic (footerSize object)
      (min object.data.length kParquetFooterSizeBytes) = .ok (footerRequestSize object))
    (hmiss : MissesPartition (footerFragment object fragment).metadata configuration.rowGroupIds) :
    calculatePageOffsets arithmetic object fragment configuration =
      .error (.assertionFailed (footerFragment object fragment).subsetStatus) := by
  rw [calculatePageOffsets_eq arithmetic h, hrequest]
  change openFragment (footerFragment object fragment) configuration.rowGroupIds >>= _ = _
  rw [openFragment_of_missesPartition hmiss]
  rfl

section

variable {arithmetic : OffsetArithmetic}

/-- Without metadata there are no ranges. -/
lemma calculatePageOffsets_of_metadata_eq_none {footerStart : ℕ} (h : 8 ≤ object.data.length)
    (hrequest : footerRequest arithmetic (footerSize object)
      (min object.data.length kParquetFooterSizeBytes) = .ok (footerRequestSize object))
    (hmiss : ¬MissesPartition (footerFragment object fragment).metadata configuration.rowGroupIds)
    (hstart : arithmetic.unsigned 64 (object.data.length - footerRequestSize object) =
      .ok footerStart)
    (hmetadata : (footerFragment object fragment).metadata = none) :
    calculatePageOffsets arithmetic object fragment configuration =
      .error (.assertionFailed "Unable to extract metadata.") := by
  rw [calculatePageOffsets_eq arithmetic h, hrequest]
  change openFragment (footerFragment object fragment) configuration.rowGroupIds >>= (fun _ =>
    arithmetic.unsigned 64 (object.data.length - footerRequestSize object) >>= fun _ =>
    match (footerFragment object fragment).metadata with
    | none => _
    | some fileMetadata => _) = _
  rw [openFragment_of_not_missesPartition hmiss, hstart, hmetadata]
  rfl

/-- With metadata and all partitions, the ranges of the columns come before the footer. -/
lemma calculatePageOffsets_of_metadata {fileMetadata : FileMetaData} (h : 8 ≤ object.data.length)
    (hrequest : footerRequest arithmetic (footerSize object)
      (min object.data.length kParquetFooterSizeBytes) = .ok (footerRequestSize object))
    (hmiss : ¬MissesPartition (footerFragment object fragment).metadata configuration.rowGroupIds)
    (hstart : arithmetic.unsigned 64 (object.data.length - footerRequestSize object) =
      .ok (object.data.length - footerRequestSize object))
    (hmetadata : (footerFragment object fragment).metadata = some fileMetadata) :
    calculatePageOffsets arithmetic object fragment configuration =
      columnRanges arithmetic object.data.length fileMetadata
        (partitions fileMetadata configuration.rowGroupIds) configuration.includeColumns >>=
      fun ranges => ranges.mapM (reserveBuffer arithmetic) >>= fun ranges =>
      .ok (ranges ++ [(object.data.length - footerRequestSize object, object.data.length)]) := by
  rw [calculatePageOffsets_eq arithmetic h, hrequest]
  change openFragment (footerFragment object fragment) configuration.rowGroupIds >>= (fun _ =>
    arithmetic.unsigned 64 (object.data.length - footerRequestSize object) >>= fun _ =>
    match (footerFragment object fragment).metadata with
    | none => _
    | some fileMetadata => rowGroupSubset (footerFragment object fragment) fileMetadata
        configuration.rowGroupIds >>= _) = _
  rw [openFragment_of_not_missesPartition hmiss, hstart, hmetadata]
  change rowGroupSubset (footerFragment object fragment) fileMetadata _ >>= _ = _
  rw [rowGroupSubset_of_not_missesPartition hmetadata hmiss]
  rfl

end

/-- The ranges of columns are safe if the columns are. -/
lemma isSafe_iff_safeColumns {fileMetadata : FileMetaData} (h : 8 ≤ object.data.length)
    (hsize : footerRequestSize object ≤ object.data.length)
    (hmetadata : (footerFragment object fragment).metadata = some fileMetadata)
    (hrun : calculatePageOffsets .checked object fragment configuration =
      computeByteRanges .checked fileMetadata object.data.length
        (requestedColumns (partitions fileMetadata configuration.rowGroupIds) includeColumns) [] >>=
      fun ranges => ranges.mapM (reserveBuffer .checked) >>= fun ranges =>
      .ok (ranges ++ [(object.data.length - footerRequestSize object, object.data.length)])) :
    IsSafe object fragment configuration includeColumns ↔
      SafeColumns object.data.length fileMetadata
        (requestedColumns (partitions fileMetadata configuration.rowGroupIds) includeColumns) := by
  have hlength := object.length_lt
  constructor
  · intro hsafe
    refine safeColumns_of_computeByteRanges hlength (fun herror => hsafe.checked ?_)
      fun ranges hok hreserve p hp => ?_
    · rw [hrun, ← bind_assoc, herror]
      rfl
    · rw [hok] at hrun
      have hwrapping := agrees_calculatePageOffsets _ _ _ hsafe.checked
      change _ = ranges.mapM (reserveBuffer .checked) >>= _ at hrun
      rw [hreserve] at hrun
      obtain ⟨_, h', hcovers, -⟩ := hsafe.ranges _ (hwrapping.trans hrun)
      obtain rfl := Option.some.inj (h'.symm.trans hmetadata)
      obtain ⟨c, hpc, r, hr, -, hend⟩ := hcovers.covers p hp
      have hle := (hcovers.le_size r hr).2
      exact ⟨c, hpc, by omega⟩
  · intro hsafe
    rcases computeByteRanges_safe hlength hsafe with
      ⟨e, hne, herror⟩ | ⟨ranges, hok, hreserve, hcovers⟩
    · rw [herror] at hrun
      exact isSafe_of_error hne hrun
    · rw [hok] at hrun
      change _ = ranges.mapM (reserveBuffer .checked) >>= _ at hrun
      rw [hreserve] at hrun
      have hchecked : calculatePageOffsets .checked object fragment configuration ≠
          .error .undefinedBehavior := by
        rw [hrun]
        exact fun heq => (by cases heq)
      refine ⟨hchecked, fun ranges' hranges' => ?_⟩
      rw [agrees_calculatePageOffsets _ _ _ hchecked, hrun] at hranges'
      obtain rfl := Except.ok.inj hranges'
      have hfooter := le_footerRequestSize h
      refine ⟨fileMetadata, hmetadata, ⟨fun r hr => ?_, fun p hp => ?_⟩,
        _, List.mem_append_right _ (List.mem_singleton_self _), ?_, le_rfl⟩
      · rcases List.mem_append.mp hr with hr | hr
        · exact hcovers.le_size r hr
        · rw [List.mem_singleton.mp hr]
          exact ⟨Nat.sub_le _ _, le_rfl⟩
      · obtain ⟨c, hpc, r, hr, hcover⟩ := hcovers.covers p hp
        exact ⟨c, hpc, r, List.mem_append_left _ hr, hcover⟩
      · dsimp only
        omega

end

/-- A file of sixteen bytes whose footer states that its metadata is empty. -/
def smallObject : StoredObject where
  data := [80, 65, 82, 49, 0, 0, 0, 0, 0, 0, 0, 0, 80, 65, 82, 49]
  length_lt := by decide

/-- A fragment with one row group of two columns, the first with some size. -/
def twoColumns (totalCompressedSize : ℤ) : ParquetFileFragment where
  metadata := some ⟨2, [⟨4, 0, 8, [⟨4, none, totalCompressedSize⟩, ⟨8, none, 0⟩]⟩], false⟩
  subsetStatus := ""

end ParquetFormatMetadataReader

end Skyrise

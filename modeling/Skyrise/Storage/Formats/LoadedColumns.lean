/-
What a reader of a Parquet file finds loaded.

A reader needs the footer and the column chunks of the columns and row groups that it
asks for.  The footer request always has the footer.  The column chunks are loaded one by
one, if fewer columns are asked for than there are: then it is enough that they exist.  If
as many are asked for, row groups are loaded as a whole, and cut where the one that is
asked for next begins, wherever that is in the file.  If the reader asks for no columns in
particular, which means all of them, then only the footer request is loaded.
-/
import Skyrise.Storage.Formats.ColumnChunkRanges
import Skyrise.Storage.Formats.RowGroupRanges
import Skyrise.Utils.List

namespace Skyrise

open Intervals

namespace ParquetFormatMetadataReader

/-! ### Column chunks in any order -/

section

variable {before816 : Bool} {objectSize : ℤ} {c : ColumnChunkMetaData}
  {chunks : List ColumnChunkMetaData} {ranges : List Range} {fileMetadata : FileMetaData}

/-- One more column chunk.  If it begins before the end of the last range, then the gap wraps
around, and the column chunk becomes a range of its own. -/
lemma computeByteRange_wrapping (hobject : 0 ≤ objectSize) (hobject' : objectSize < 2 ^ 63)
    (h : Merged before816 objectSize chunks ranges)
    (hchunks : ∀ d ∈ chunks, IsValid d ∧ chunkEnd d < 2 ^ 63) (hc : IsValid c)
    (hlt : chunkEnd c < 2 ^ 63) :
    ∃ ranges', computeByteRange .wrapping before816 objectSize c ranges = .ok ranges' ∧
      Merged before816 objectSize (chunks ++ [c]) ranges' := by
  by_cases hle : ∀ d ∈ chunks.getLast?, rangeEnd before816 objectSize d ≤ c.columnStart
  · obtain ⟨ranges', hok, hmerged⟩ :=
      (computeByteRange_checked hobject hobject' h hchunks hc hlt).1 hle
    refine ⟨ranges', ?_, hmerged⟩
    rw [agrees_computeByteRange before816 objectSize c ranges (by rw [hok]; simp), hok]
  · push Not at hle
    obtain ⟨d, hd, hgt⟩ := hle
    have hstart : ((c.columnStart.toNat : ℕ) : ℤ) = c.columnStart := Int.toNat_of_nonneg hc.1
    have hend : (((rangeEnd before816 objectSize c).toNat : ℕ) : ℤ) =
        rangeEnd before816 objectSize c :=
      Int.toNat_of_nonneg (rangeEnd_nonneg before816 hobject hc)
    have hlast := h.last
    rw [Option.mem_def.mp hd, Option.map_some] at hlast
    obtain ⟨back, hback, hbackEnd⟩ := Option.map_eq_some_iff.mp hlast
    have hd' := hchunks d (List.mem_of_mem_getLast? hd)
    have hbackLt : (back.2 : ℤ) < 2 ^ 63 := hbackEnd ▸ rangeEnd_lt before816 hd'.2 hobject'
    have hgap : (((c.columnStart.toNat : ℤ) - back.2) % 2 ^ 64).toNat >
        kReadRequestPaddingSizeBytes := by
      have hpadding : kReadRequestPaddingSizeBytes = 1048576 := rfl
      omega
    rw [computeByteRange_of_isValid .wrapping hobject hobject' hc hlt, mergeByteRange, hback]
    refine ⟨_, ?_, h.push hstart hend⟩
    simp only [OffsetArithmetic.unsigned, bind, Except.bind, pure, Except.pure]
    rw [if_pos (.inl hgap)]

/-- **Column chunks in any order** are covered. -/
lemma computeByteRanges_wrapping (hobject : 0 ≤ objectSize) (hobject' : objectSize < 2 ^ 63)
    (requested : List (ℤ × ℤ))
    (hrequested : ∀ p ∈ requested, ∃ c, columnChunk fileMetadata p.1 p.2 = .ok c ∧ IsValid c ∧
      chunkEnd c ≤ objectSize)
    (h : Merged fileMetadata.writtenBeforeParquet816 objectSize chunks ranges)
    (hchunks : ∀ c ∈ chunks, IsValid c ∧ chunkEnd c ≤ objectSize) :
    ∃ chunks' ranges', computeByteRanges .wrapping fileMetadata objectSize requested ranges =
        .ok ranges' ∧
      Merged fileMetadata.writtenBeforeParquet816 objectSize (chunks ++ chunks') ranges' ∧
      List.Forall₂ (fun p c => columnChunk fileMetadata p.1 p.2 = .ok c ∧ IsValid c ∧
        chunkEnd c ≤ objectSize) requested chunks' := by
  induction requested generalizing chunks ranges with
  | nil => exact ⟨[], ranges, rfl, by rwa [List.append_nil], .nil⟩
  | cons p requested ih =>
    rw [List.forall_mem_cons] at hrequested
    obtain ⟨⟨c, hpc, hc, hend⟩, hrest⟩ := hrequested
    have hlt : ∀ d ∈ chunks, IsValid d ∧ chunkEnd d < 2 ^ 63 := fun d hd =>
      ⟨(hchunks d hd).1, (hchunks d hd).2.trans_lt hobject'⟩
    obtain ⟨ranges', hok, hmerged⟩ :=
      computeByteRange_wrapping hobject hobject' h hlt hc (hend.trans_lt hobject')
    obtain ⟨chunks', ranges'', hok', hmerged', hchunks'⟩ := ih hrest hmerged (by
      rw [List.forall_mem_append, List.forall_mem_singleton]
      exact ⟨hchunks, hc, hend⟩)
    refine ⟨c :: chunks', ranges'', ?_, by simpa using hmerged', .cons ⟨hpc, hc, hend⟩ hchunks'⟩
    rw [computeByteRanges, hpc]
    simp only [bind, Except.bind, hok, hok']

/-- Column chunks with ranges exist and are valid. -/
lemma isValid_of_computeByteRanges (arithmetic : OffsetArithmetic) {requested : List (ℤ × ℤ)}
    {ranges' : List Range}
    (h : computeByteRanges arithmetic fileMetadata objectSize requested ranges = .ok ranges') :
    ∀ p ∈ requested, ∃ c, columnChunk fileMetadata p.1 p.2 = .ok c ∧ IsValid c := by
  induction requested generalizing ranges with
  | nil => exact fun p hp => absurd hp List.not_mem_nil
  | cons p requested ih =>
    rw [computeByteRanges] at h
    obtain ⟨c, hpc, h⟩ := exists_of_bind_eq_ok h
    obtain ⟨ranges₁, hok, h⟩ := exists_of_bind_eq_ok h
    refine List.forall_mem_cons.mpr ⟨⟨c, hpc, ?_⟩, ih h⟩
    by_contra hc
    rw [computeByteRange_of_not_isValid arithmetic hc] at hok
    cases hok

end

lemma reserveBuffer_wrapping_eq_ok {range : Range} (hle : range.1 ≤ range.2)
    (hlt : range.2 < 2 ^ 63) : reserveBuffer .wrapping range = .ok range := by
  have hchecked := reserveBuffer_checked_eq_ok hle hlt
  rw [agrees_reserveBuffer range (by rw [hchecked]; simp), hchecked]

lemma eq_of_reserveBuffer {arithmetic : OffsetArithmetic} {range range' : Range}
    (h : reserveBuffer arithmetic range = .ok range') : range' = range := by
  obtain ⟨capacity, -, h⟩ := exists_of_bind_eq_ok h
  split at h
  · exact (Except.ok.inj h).symm
  · cases h

lemma mapM_reserveBuffer_wrapping {ranges : List Range}
    (h : ∀ r ∈ ranges, r.1 ≤ r.2 ∧ r.2 < 2 ^ 63) :
    ranges.mapM (reserveBuffer .wrapping) = .ok ranges := by
  have hreserve : ∀ r ∈ ranges, reserveBuffer .wrapping r = .ok (id r) := fun r hr =>
    reserveBuffer_wrapping_eq_ok (h r hr).1 (h r hr).2
  rw [mapM_eq_ok hreserve, List.map_id]

lemma eq_of_mapM_reserveBuffer {arithmetic : OffsetArithmetic} {ranges ranges' : List Range}
    (h : ranges.mapM (reserveBuffer arithmetic) = .ok ranges') : ranges' = ranges := by
  rw [mapM_eq_ok_iff] at h
  induction h with
  | nil => rfl
  | cons hr _ ih => rw [eq_of_reserveBuffer hr, ih]

/-! ### What a reader needs -/

variable {R A : Type}

/-- The column chunks that a reader asks for; without a list of columns it is all of them. -/
def requestedChunks (fileMetadata : FileMetaData) (rowGroupIds : Option (List Int32)) :
    Option (List UInt32) → List (ℤ × ℤ)
  | some includeColumns => requestedColumns (partitions fileMetadata rowGroupIds) includeColumns
  | none => (partitions fileMetadata rowGroupIds).flatMap fun rowGroup =>
    (List.range fileMetadata.numColumns).map fun column => (rowGroup, (column : ℤ))

/-- Column chunks that lie in the object, with all their bytes in a set. -/
def ChunksIn (objectSize : ℕ) (fileMetadata : FileMetaData) (requested : List (ℤ × ℤ))
    (loaded : Set ℕ) : Prop :=
  ∀ p ∈ requested, ∀ c, columnChunk fileMetadata p.1 p.2 = .ok c →
    (0 ≤ c.columnStart ∧ chunkEnd c ≤ objectSize) ∧
      ∀ x : ℕ, c.columnStart ≤ x → x < chunkEnd c → x ∈ loaded

/-- The row groups of the partitions. -/
def requestedRowGroups (fileMetadata : FileMetaData) (rowGroupIds : Option (List Int32)) :
    List RowGroupMetaData :=
  (partitions fileMetadata rowGroupIds).filterMap fun p => fileMetadata.rowGroups[p.toNat]?

/-- When the requested columns are loaded. -/
def ColumnsAreLoaded (objectSize footerStart : ℕ) (fileMetadata : FileMetaData)
    (rowGroupIds : Option (List Int32)) : Option (List UInt32) → Prop
  -- only the footer request is loaded
  | none => ChunksIn objectSize fileMetadata (requestedChunks fileMetadata rowGroupIds none)
      {x | footerStart ≤ x}
  | some includeColumns =>
    if fileMetadata.numColumns = includeColumns.length then
      -- row groups are loaded as a whole
      (∀ g ∈ requestedRowGroups fileMetadata rowGroupIds,
        0 < g.fileOffset ∧ g.fileOffset + padding + g.size < 2 ^ 63) ∧
      (∃ g ∈ requestedRowGroups fileMetadata rowGroupIds, g.fileOffset < objectSize) ∧
      ChunksIn objectSize fileMetadata
        (requestedChunks fileMetadata rowGroupIds (some includeColumns))
        {x | IsKept objectSize x (inObject objectSize (requestedRowGroups fileMetadata rowGroupIds)) ∨
          footerStart ≤ x}
    else
      -- column chunks are loaded one by one
      ∀ p ∈ requestedChunks fileMetadata rowGroupIds (some includeColumns),
        ∃ c, columnChunk fileMetadata p.1 p.2 = .ok c ∧ IsValid c ∧ chunkEnd c ≤ objectSize

section

variable {objectSize footerStart : ℕ} {fileMetadata : FileMetaData}
  {rowGroupIds : Option (List Int32)} {includeColumns : Option (List UInt32)}

lemma chunksIn_congr {requested : List (ℤ × ℤ)} {loaded loaded' : Set ℕ}
    (h : ∀ x < objectSize, x ∈ loaded ↔ x ∈ loaded') :
    ChunksIn objectSize fileMetadata requested loaded ↔
      ChunksIn objectSize fileMetadata requested loaded' := by
  refine forall₄_congr fun p _ c _ => and_congr_right fun hc =>
    forall₃_congr fun x _ hx => h x ?_
  have hend := hc.2
  omega

lemma mem_points_footer {ranges : List Range} {x : ℕ} (hx : x < objectSize) :
    x ∈ points (ranges ++ [(footerStart, objectSize)]) ↔ x ∈ points ranges ∨ footerStart ≤ x := by
  rw [mem_points_append]
  refine or_congr_right ⟨fun ⟨r, hr, hle, _⟩ => ?_, fun hle => ⟨_, List.mem_singleton_self _, hle, hx⟩⟩
  rw [List.mem_singleton.mp hr] at hle
  exact hle

lemma mapM_parquetAt {α : Type} {xs : List α} {indices : List ℤ}
    (h : ∀ i ∈ indices, 0 ≤ i ∧ i < xs.length) :
    indices.mapM (parquetAt xs) = .ok (indices.filterMap fun i => xs[i.toNat]?) := by
  induction indices with
  | nil => rfl
  | cons i indices ih =>
    rw [List.forall_mem_cons] at h
    have hlt : i.toNat < xs.length := by omega
    have hget : xs[i.toNat]? = some xs[i.toNat] := List.getElem?_eq_getElem hlt
    have hfilter : (i :: indices).filterMap (fun i => xs[i.toNat]?) =
        xs[i.toNat] :: indices.filterMap fun i => xs[i.toNat]? := List.filterMap_cons_some hget
    rw [List.mapM_cons, ih h.2, parquetAt, if_pos h.1.1, hget, hfilter]
    rfl

/-- The partitions that are read are row groups of the file. -/
lemma mem_partitions_bounds (h : ¬MissesPartition (some fileMetadata) rowGroupIds) {p : ℤ}
    (hp : p ∈ partitions fileMetadata rowGroupIds) :
    0 ≤ p ∧ p < fileMetadata.rowGroups.length := by
  cases rowGroupIds with
  | none =>
    obtain ⟨i, hi, rfl⟩ := List.mem_map.mp hp
    have hlt := List.mem_range.mp hi
    exact ⟨Int.natCast_nonneg i, Int.ofNat_lt.mpr hlt⟩
  | some ids =>
    obtain ⟨id, hid, rfl⟩ := List.mem_map.mp hp
    by_contra hnot
    refine h ⟨ids, rfl, fun fileMetadata' h' => ⟨id, hid, ?_⟩⟩
    rwa [← Option.some.inj h']

lemma mem_of_mem_requestedRowGroups {g : RowGroupMetaData}
    (hg : g ∈ requestedRowGroups fileMetadata rowGroupIds) : g ∈ fileMetadata.rowGroups := by
  obtain ⟨p, -, hp⟩ := List.mem_filterMap.mp hg
  exact List.mem_of_getElem? hp

/-- Row groups that are loaded as a whole. -/
lemma chunksIn_rowGroupRanges_iff {groups : List RowGroupMetaData} {requested : List (ℤ × ℤ)}
    (hobject : objectSize < 2 ^ 63) (hsize : ∀ g ∈ groups, 0 ≤ g.size) :
    (∃ ranges, rowGroupRanges objectSize groups = .ok ranges ∧
        ranges.mapM (reserveBuffer .wrapping) = .ok ranges ∧
        ChunksIn objectSize fileMetadata requested
          (points (ranges ++ [(footerStart, objectSize)]))) ↔
      (∀ g ∈ groups, 0 < g.fileOffset ∧ g.fileOffset + padding + g.size < 2 ^ 63) ∧
      (∃ g ∈ groups, g.fileOffset < objectSize) ∧
      ChunksIn objectSize fileMetadata requested
        {x | IsKept objectSize x (inObject objectSize groups) ∨ footerStart ≤ x} := by
  have hpoints : (∀ g ∈ groups, 0 < g.fileOffset ∧ g.fileOffset + padding + g.size < 2 ^ 63) →
      ∀ x < objectSize, x ∈ points (nonempty (cutAtNext (requests objectSize groups)) ++
          [(footerStart, objectSize)]) ↔
        x ∈ {x | IsKept objectSize x (inObject objectSize groups) ∨ footerStart ≤ x} := by
    intro hpos x hx
    rw [mem_points_footer hx, mem_points_requests_iff hsize fun g hg => (hpos g hg).1]
    rfl
  constructor
  · rintro ⟨ranges, hranges, -, hchunks⟩
    obtain ⟨hpos, hexists, rfl⟩ := (rowGroupRanges_eq_ok_iff hsize).mp hranges
    exact ⟨hpos, hexists, (chunksIn_congr (hpoints hpos)).mp hchunks⟩
  · rintro ⟨hpos, hexists, hchunks⟩
    refine ⟨_, (rowGroupRanges_eq_ok_iff hsize).mpr ⟨hpos, hexists, rfl⟩,
      mapM_reserveBuffer_wrapping fun r hr => ?_, (chunksIn_congr (hpoints hpos)).mpr hchunks⟩
    -- the last byte of a range lies in the object
    have hlt : r.1 < r.2 := of_decide_eq_true (List.mem_filter.mp hr).2
    have hlast : r.2 - 1 < objectSize := lt_of_mem_points ⟨r, hr, by omega, by omega⟩
    omega

/-- Column chunks that are loaded one by one. -/
lemma chunksIn_computeByteRanges_iff {requested : List (ℤ × ℤ)} (hobject : objectSize < 2 ^ 63) :
    (∃ ranges, computeByteRanges .wrapping fileMetadata objectSize requested [] = .ok ranges ∧
        ranges.mapM (reserveBuffer .wrapping) = .ok ranges ∧
        ChunksIn objectSize fileMetadata requested
          (points (ranges ++ [(footerStart, objectSize)]))) ↔
      ∀ p ∈ requested, ∃ c, columnChunk fileMetadata p.1 p.2 = .ok c ∧ IsValid c ∧
        chunkEnd c ≤ objectSize := by
  constructor
  · rintro ⟨ranges, hranges, -, hchunks⟩ p hp
    obtain ⟨c, hpc, hc⟩ := isValid_of_computeByteRanges .wrapping hranges p hp
    exact ⟨c, hpc, hc, (hchunks p hp c hpc).1.2⟩
  · intro hrequested
    obtain ⟨chunks, ranges, hranges, hmerged, hchunks⟩ :=
      computeByteRanges_wrapping (Int.natCast_nonneg objectSize) (by omega) _ hrequested
        (Merged.nil fileMetadata.writtenBeforeParquet816 objectSize)
        fun c hc => absurd hc List.not_mem_nil
    rw [List.nil_append] at hmerged
    have hvalid : ∀ c ∈ chunks, IsValid c ∧ chunkEnd c ≤ objectSize :=
      hchunks.forall_mem_right fun p _ c hc => hc.2
    have hle : ∀ r ∈ ranges, r.1 ≤ r.2 := hmerged.fst_le_snd fun c hc => by
      obtain ⟨⟨-, hlength⟩, hend⟩ := hvalid c hc
      have hchunk := chunkEnd_le_rangeEnd fileMetadata.writtenBeforeParquet816 hend
      rw [chunkEnd] at hchunk
      omega
    refine ⟨ranges, hranges, mapM_reserveBuffer_wrapping fun r hr => ⟨hle r hr, ?_⟩,
      fun p hp c hpc => ?_⟩
    · obtain ⟨-, c, hc, hrc⟩ := hmerged.bounds r hr
      have hend := rangeEnd_le fileMetadata.writtenBeforeParquet816 (hvalid c hc).2
      omega
    · obtain ⟨d, hd, hpd, hvalid', hend⟩ := hchunks.exists_of_mem hp
      obtain rfl := Except.ok.inj (hpc.symm.trans hpd)
      refine ⟨⟨hvalid'.1, hend⟩, fun x hx hlt => ?_⟩
      obtain ⟨r, hr, hstart, hend'⟩ := hmerged.covers c hd
      have hchunk := chunkEnd_le_rangeEnd fileMetadata.writtenBeforeParquet816 hend
      exact ⟨r, List.mem_append_left _ hr, by omega, by omega⟩

/-- **The ranges of the columns.**  They are computed, with room for their buffers, and have the
bytes of the requested column chunks together with the footer request. -/
lemma columnsAreLoaded_iff (hobject : objectSize < 2 ^ 63)
    (hsize : ∀ g ∈ fileMetadata.rowGroups, 0 ≤ g.size)
    (hmiss : ¬MissesPartition (some fileMetadata) rowGroupIds) :
    (∃ ranges, columnRanges .wrapping objectSize fileMetadata (partitions fileMetadata rowGroupIds)
        includeColumns = .ok ranges ∧ ranges.mapM (reserveBuffer .wrapping) = .ok ranges ∧
      ChunksIn objectSize fileMetadata (requestedChunks fileMetadata rowGroupIds includeColumns)
        (points (ranges ++ [(footerStart, objectSize)]))) ↔
      ColumnsAreLoaded objectSize footerStart fileMetadata rowGroupIds includeColumns := by
  cases includeColumns with
  | none =>
    have hpoints : ∀ x < objectSize, x ∈ points ([] ++ [(footerStart, objectSize)]) ↔
        x ∈ {x | footerStart ≤ x} := by
      intro x hx
      rw [mem_points_footer hx, points_nil, or_iff_right (Set.notMem_empty x)]
      rfl
    rw [ColumnsAreLoaded, ← chunksIn_congr hpoints]
    constructor
    · rintro ⟨ranges, hranges, -, hchunks⟩
      rwa [← Except.ok.inj hranges] at hchunks
    · exact fun hchunks => ⟨[], rfl, rfl, hchunks⟩
  | some includeColumns =>
    rw [ColumnsAreLoaded, columnRanges]
    by_cases hcount : fileMetadata.numColumns = includeColumns.length
    · rw [if_pos hcount, if_pos hcount,
        mapM_parquetAt fun p hp => mem_partitions_bounds hmiss hp]
      exact chunksIn_rowGroupRanges_iff hobject fun g hg => hsize g (mem_of_mem_requestedRowGroups hg)
    · rw [if_neg hcount, if_neg hcount]
      exact chunksIn_computeByteRanges_iff hobject

end

/-! ### The footer -/

/-- What the Parquet library makes of the end of a file. -/
structure ParquetLibrary where
  fragment : List UInt8 → ParquetFileFragment
  /-- Metadata that is longer than what there is of the file is refused. -/
  footer_le : ∀ bytes fileMetadata, (fragment bytes).metadata = some fileMetadata →
    readUInt32 (bytes.drop (bytes.length - kParquetFooterMetadataOffsetBytes)) +
      kParquetFooterMetadataOffsetBytes ≤ bytes.length
  /-- The size of a row group is a number of bytes. -/
  size_nonneg : ∀ bytes fileMetadata, (fragment bytes).metadata = some fileMetadata →
    ∀ g ∈ fileMetadata.rowGroups, 0 ≤ g.size

/-- A library that finds some metadata whenever there is a footer. -/
def ParquetLibrary.ofMetadata (fileMetadata : FileMetaData)
    (hsize : ∀ g ∈ fileMetadata.rowGroups, 0 ≤ g.size) : ParquetLibrary where
  fragment bytes :=
    if readUInt32 (bytes.drop (bytes.length - kParquetFooterMetadataOffsetBytes)) +
        kParquetFooterMetadataOffsetBytes ≤ bytes.length then
      ⟨some fileMetadata, ""⟩
    else ⟨none, ""⟩
  footer_le bytes fileMetadata' h := by
    split at h
    · assumption
    · cases h
  size_nonneg bytes fileMetadata' h := by
    split at h
    · obtain rfl := Option.some.inj h
      exact hsize
    · cases h

/-- Ranges that have the footer and the column chunks that a reader asks for. -/
def CoversFile (library : ParquetLibrary) (object : StoredObject)
    (rowGroupIds : Option (List Int32)) (includeColumns : Option (List UInt32))
    (ranges : List Range) : Prop :=
  (∀ x < object.data.length, object.data.length ≤
    x + (footerSize object + kParquetFooterMetadataOffsetBytes) → x ∈ points ranges) ∧
  ∃ fileMetadata, (footerFragment object library.fragment).metadata = some fileMetadata ∧
    ChunksIn object.data.length fileMetadata
      (requestedChunks fileMetadata rowGroupIds includeColumns) (points ranges)

/-- When a reader finds what it asks for. -/
def FileIsLoaded (library : ParquetLibrary) (object : StoredObject)
    (rowGroupIds : Option (List Int32)) (includeColumns : Option (List UInt32)) : Prop :=
  footerSize object + kParquetFooterMetadataOffsetBytes < 2 ^ 32 ∧
  ∃ fileMetadata, (footerFragment object library.fragment).metadata = some fileMetadata ∧
    ¬MissesPartition (some fileMetadata) rowGroupIds ∧
    ColumnsAreLoaded object.data.length (object.data.length - footerRequestSize object)
      fileMetadata rowGroupIds includeColumns

section

variable {library : ParquetLibrary} {object : StoredObject} {fileMetadata : FileMetaData}
  {configuration : ParquetFormatReaderOptions R A} {request : ℕ}

lemma readUInt32_lt (bytes : List UInt8) : readUInt32 bytes < 2 ^ 32 := by
  have hlt : ∀ bytes : List UInt8,
      bytes.foldr (fun byte number => byte.toNat + 256 * number) 0 < 256 ^ bytes.length := by
    intro bytes
    induction bytes with
    | nil => exact Nat.one_pos
    | cons byte bytes ih =>
      have hbyte := byte.toNat_lt
      rw [List.foldr_cons, List.length_cons, pow_succ]
      omega
  refine (hlt (bytes.take 4)).trans_le ?_
  rw [show 2 ^ 32 = 256 ^ 4 by norm_num]
  exact Nat.pow_le_pow_right (by norm_num) (List.length_take_le 4 bytes)

lemma readUInt32_replicate (n : ℕ) : readUInt32 (List.replicate n 0) = 0 := by
  rw [readUInt32, List.take_replicate]
  induction min 4 n with
  | zero => rfl
  | succ n ih => rw [List.replicate_succ, List.foldr_cons, ih]; rfl

lemma length_readTail (object : StoredObject) (request : ℕ) :
    (readTail object request).length = min request object.data.length := by
  rw [readTail, List.length_drop]
  omega

/-- The library finds metadata only if all of the footer is there. -/
lemma footerSize_le_of_metadata (h8 : 8 ≤ object.data.length)
    (h : (library.fragment (readTail object request)).metadata = some fileMetadata) :
    footerSize object + kParquetFooterMetadataOffsetBytes ≤ min request object.data.length := by
  have hoffset : kParquetFooterMetadataOffsetBytes = 8 := rfl
  have hfooter : kParquetFooterSizeBytes = 65536 := rfl
  have hle := library.footer_le _ _ h
  have hlength := length_readTail object request
  have hdrop : (readTail object request).drop
      ((readTail object request).length - kParquetFooterMetadataOffsetBytes) =
      (readTail object (min object.data.length kParquetFooterSizeBytes)).drop
        (min object.data.length kParquetFooterSizeBytes - kParquetFooterMetadataOffsetBytes) := by
    rw [hlength, readTail, readTail, List.drop_drop, List.drop_drop]
    congr 1
    omega
  rw [hdrop, hlength] at hle
  exact hle

lemma footerRequest_wrapping (h : footerSize object + kParquetFooterMetadataOffsetBytes < 2 ^ 32) :
    footerRequest .wrapping (footerSize object) (min object.data.length kParquetFooterSizeBytes) =
      .ok (footerRequestSize object) := by
  rw [footerRequest, footerRequestSize]
  split
  · rw [OffsetArithmetic.unsigned, Except.ok.injEq]
    omega
  · rfl

lemma footerRequest_wrapping_of_not_lt
    (h : ¬footerSize object + kParquetFooterMetadataOffsetBytes < 2 ^ 32) :
    footerRequest .wrapping (footerSize object) (min object.data.length kParquetFooterSizeBytes) =
      .ok (footerSize object + kParquetFooterMetadataOffsetBytes - 2 ^ 32) := by
  have hoffset : kParquetFooterMetadataOffsetBytes = 8 := rfl
  have hfooter : kParquetFooterSizeBytes = 65536 := rfl
  have hlt : footerSize object < 2 ^ 32 := readUInt32_lt _
  rw [footerRequest, if_pos (by omega), OffsetArithmetic.unsigned, Except.ok.injEq]
  omega

/-- **The ranges of a file.** -/
lemma calculatePageOffsets_eq_ok_iff (h8 : 8 ≤ object.data.length) {ranges : List Range} :
    calculatePageOffsets .wrapping object library.fragment configuration = .ok ranges ↔
      footerSize object + kParquetFooterMetadataOffsetBytes < 2 ^ 32 ∧
      ∃ fileMetadata, (footerFragment object library.fragment).metadata = some fileMetadata ∧
        ¬MissesPartition (some fileMetadata) configuration.rowGroupIds ∧
        ∃ columns, columnRanges .wrapping object.data.length fileMetadata
            (partitions fileMetadata configuration.rowGroupIds) configuration.includeColumns =
              .ok columns ∧
          columns.mapM (reserveBuffer .wrapping) = .ok columns ∧
          ranges = columns ++
            [(object.data.length - footerRequestSize object, object.data.length)] := by
  have hlength := object.length_lt
  by_cases h32 : footerSize object + kParquetFooterMetadataOffsetBytes < 2 ^ 32
  · have hrequest := footerRequest_wrapping h32
    rw [and_iff_right h32]
    by_cases hmiss : MissesPartition (footerFragment object library.fragment).metadata
      configuration.rowGroupIds
    · rw [calculatePageOffsets_of_missesPartition h8 hrequest hmiss]
      refine iff_of_false (fun h => (by cases h)) fun ⟨fileMetadata, h, hnot, _⟩ => ?_
      rw [h] at hmiss
      exact hnot hmiss
    · cases hmetadata : (footerFragment object library.fragment).metadata with
      | none =>
        rw [calculatePageOffsets_of_metadata_eq_none h8 hrequest hmiss rfl hmetadata]
        exact iff_of_false (fun h => (by cases h)) fun ⟨_, h, _⟩ => (by cases h)
      | some fileMetadata =>
        have hfooter := footerSize_le_of_metadata h8 hmetadata
        have hle := (footerRequestSize_le_iff h8).mpr (hfooter.trans (min_le_right _ _))
        have hstart : OffsetArithmetic.wrapping.unsigned 64
            (object.data.length - footerRequestSize object) =
              .ok (object.data.length - footerRequestSize object) := by
          rw [OffsetArithmetic.unsigned]
          congr 1
          omega
        rw [calculatePageOffsets_of_metadata h8 hrequest hmiss hstart hmetadata]
        rw [hmetadata] at hmiss
        constructor
        · intro h
          obtain ⟨columns, hcolumns, h⟩ := exists_of_bind_eq_ok h
          obtain ⟨columns', hreserve, hranges⟩ := exists_of_bind_eq_ok h
          obtain rfl := eq_of_mapM_reserveBuffer hreserve
          exact ⟨fileMetadata, rfl, hmiss, _, hcolumns, hreserve, (Except.ok.inj hranges).symm⟩
        · rintro ⟨fileMetadata', h, -, columns, hcolumns, hreserve, rfl⟩
          obtain rfl := Option.some.inj h
          simp only [bind, Except.bind, hcolumns, hreserve]
  · -- the size of the footer request wraps around, and too little is left of the footer
    rw [calculatePageOffsets_eq .wrapping h8, footerRequest_wrapping_of_not_lt h32]
    refine iff_of_false (fun h => ?_) fun h => h32 h.1
    obtain ⟨request, hrequest, h⟩ := exists_of_bind_eq_ok h
    obtain rfl := Except.ok.inj hrequest
    obtain ⟨-, -, h⟩ := exists_of_bind_eq_ok h
    obtain ⟨footerStart, -, h⟩ := exists_of_bind_eq_ok h
    cases hmetadata : (library.fragment (readTail object (footerSize object +
        kParquetFooterMetadataOffsetBytes - 2 ^ 32))).metadata with
    | none =>
      rw [hmetadata] at h
      cases h
    | some fileMetadata =>
      have hfooter := footerSize_le_of_metadata h8 hmetadata
      omega

/-- The footer request has the footer. -/
lemma mem_points_of_footer (h8 : 8 ≤ object.data.length) {ranges : List Range} {x : ℕ}
    (hx : x < object.data.length) (hfooter : object.data.length ≤
      x + (footerSize object + kParquetFooterMetadataOffsetBytes)) :
    x ∈ points (ranges ++
      [(object.data.length - footerRequestSize object, object.data.length)]) := by
  have hrequest := le_footerRequestSize h8
  rw [mem_points_footer hx]
  omega

/-- **When a reader finds what it asks for.** -/
lemma fileIsLoaded_iff (configuration : ParquetFormatReaderOptions R A)
    (h8 : 8 ≤ object.data.length) :
    (∃ ranges, calculatePageOffsets .wrapping object library.fragment configuration = .ok ranges ∧
      CoversFile library object configuration.rowGroupIds configuration.includeColumns ranges) ↔
      FileIsLoaded library object configuration.rowGroupIds configuration.includeColumns := by
  have hsize : ∀ fileMetadata, (footerFragment object library.fragment).metadata =
      some fileMetadata → ∀ g ∈ fileMetadata.rowGroups, 0 ≤ g.size := library.size_nonneg _
  constructor
  · rintro ⟨ranges, hranges, -, fileMetadata, hmetadata, hchunks⟩
    obtain ⟨h32, fileMetadata', hmetadata', hmiss, columns, hcolumns, hreserve, rfl⟩ :=
      (calculatePageOffsets_eq_ok_iff h8).mp hranges
    obtain rfl := Option.some.inj (hmetadata.symm.trans hmetadata')
    exact ⟨h32, fileMetadata, hmetadata, hmiss,
      (columnsAreLoaded_iff object.length_lt (hsize _ hmetadata) hmiss).mp
        ⟨columns, hcolumns, hreserve, hchunks⟩⟩
  · rintro ⟨h32, fileMetadata, hmetadata, hmiss, hloaded⟩
    obtain ⟨columns, hcolumns, hreserve, hchunks⟩ :=
      (columnsAreLoaded_iff object.length_lt (hsize _ hmetadata) hmiss).mpr hloaded
    exact ⟨_, (calculatePageOffsets_eq_ok_iff h8).mpr
      ⟨h32, fileMetadata, hmetadata, hmiss, columns, hcolumns, hreserve, rfl⟩,
      fun x hx hfooter => mem_points_of_footer h8 hx hfooter, fileMetadata, hmetadata, hchunks⟩

end

end ParquetFormatMetadataReader

end Skyrise

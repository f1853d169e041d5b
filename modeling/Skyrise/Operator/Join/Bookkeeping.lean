/-
The bookkeeping of the join operators.

Which rows have a partner is kept in several places: in the position lists, in
the flags and the counter of table A, and in the offsets and the counter of
table B.  `JoinState.Bookkeeping` says that they agree.  Both algorithms leave
them so, the merge also on chunks that are not sorted: whatever pairs it records,
it updates all places for each of them.

The segments of an output chunk are sized by different ones of these places, and
have one length because they agree.
-/
import Skyrise.Operator.Join.SortedMergeJoin

namespace Skyrise

variable {R : Type}

/-! ### Counters, offsets and position lists -/

/-- The counters are the numbers of the flags that are set and of the offsets that are recorded, and
a row of table B has an entry in the position list or among the offsets of its chunk, and not in
both. -/
structure JoinState.Bookkeeping (st : JoinState) (tableA tableB : Table R) : Prop where
  length_positionLists : st.positionLists.length = tableB.chunkCount
  length_danglingB : st.danglingTuplesTableBOffsets.length = tableB.chunkCount
  danglingACount : st.danglingTuplesTableACount = (tableA.rowIds.filter st.isDanglingA).length
  danglingBCount : st.danglingTuplesTableBCount =
    (st.danglingTuplesTableBOffsets.map List.length).sum
  matched_iff : ∀ b ∈ tableB.rowIds,
    b.chunkOffset ∈ (st.positionLists.getD b.chunkId []).map Prod.snd ↔
      b.chunkOffset ∉ st.danglingTuplesTableBOffsets.getD b.chunkId []

namespace JoinState

variable {st : JoinState} {tableA tableB : Table R}

lemma mem_map_snd_pairs {b : RowId} : b ∈ st.pairs.map Prod.snd ↔
    b.chunkOffset ∈ (st.positionLists.getD b.chunkId []).map Prod.snd := by
  rw [pairs, List.zipIdx_eq_map_range _ [], List.flatMap_map, List.map_flatMap]
  simp only [List.map_map, Function.comp_def, List.mem_flatMap, List.mem_range, List.mem_map]
  constructor
  · rintro ⟨i, -, position, hposition, rfl⟩
    exact ⟨position, hposition, rfl⟩
  · rintro ⟨position, hposition, hoffset⟩
    refine ⟨b.chunkId, ?_, position, hposition, by rw [hoffset]⟩
    by_contra hle
    rw [List.getD_eq_getElem?_getD, List.getElem?_eq_none (not_lt.mp hle)] at hposition
    cases hposition

lemma mem_danglingB {b : RowId} : b ∈ st.danglingB ↔
    b.chunkOffset ∈ st.danglingTuplesTableBOffsets.getD b.chunkId [] := by
  rw [danglingB, List.zipIdx_eq_map_range _ [], List.flatMap_map]
  simp only [List.mem_flatMap, List.mem_range, List.mem_map]
  constructor
  · rintro ⟨i, -, offset, hoffset, rfl⟩
    exact hoffset
  · intro hoffset
    refine ⟨b.chunkId, ?_, b.chunkOffset, hoffset, rfl⟩
    by_contra hle
    rw [List.getD_eq_getElem?_getD, List.getElem?_eq_none (not_lt.mp hle)] at hoffset
    cases hoffset

lemma length_danglingB (st : JoinState) :
    st.danglingB.length = (st.danglingTuplesTableBOffsets.map List.length).sum := by
  rw [danglingB, List.length_flatMap]
  simp only [List.length_map]
  rw [List.zipIdx_eq_map_range _ [], List.map_map]
  congr 1
  refine List.ext_getElem (by simp) fun i h _ => ?_
  have hi : i < st.danglingTuplesTableBOffsets.length := by simpa using h
  simp [hi]

/-- The bookkeeping in terms of rows. -/
lemma bookkeeping_of_rows (hlists : st.positionLists.length = tableB.chunkCount)
    (hoffsets : st.danglingTuplesTableBOffsets.length = tableB.chunkCount)
    (hcountA : st.danglingTuplesTableACount = (tableA.rowIds.filter st.isDanglingA).length)
    (hcountB : st.danglingTuplesTableBCount = st.danglingB.length)
    (hmatched : ∀ b ∈ tableB.rowIds, b ∈ st.pairs.map Prod.snd ↔ b ∉ st.danglingB) :
    st.Bookkeeping tableA tableB := by
  refine ⟨hlists, hoffsets, hcountA, hcountB.trans st.length_danglingB, fun b hb => ?_⟩
  rw [← mem_map_snd_pairs, ← mem_danglingB]
  exact hmatched b hb

/-- Position lists that are filled keep the books. -/
lemma Filled.bookkeeping {p : RowId → RowId → Bool} (h : st.Filled tableA tableB p) :
    st.Bookkeeping tableA tableB := by
  refine bookkeeping_of_rows h.length_positionLists h.length_danglingB ?_ ?_ fun b hb => ?_
  · rw [h.danglingA]
    exact h.danglingACount
  · rw [h.danglingB]
    exact h.danglingBCount
  · rw [(h.pairs.map Prod.snd).mem_iff, h.danglingB, Relational.mem_danglingRight, List.mem_map]
    constructor
    · rintro ⟨ab, hab, rfl⟩ ⟨-, hnone⟩
      obtain ⟨ha, -, hp⟩ := Relational.mem_innerJoin.mp hab
      rw [hnone ab.1 ha] at hp
      cases hp
    · intro hdangling
      by_contra hnone
      refine hdangling ⟨hb, fun a ha => ?_⟩
      by_contra hp
      exact hnone ⟨(a, b), Relational.mem_innerJoin.mpr ⟨ha, hb, by simpa using hp⟩, rfl⟩

end JoinState

/-! ### The hash join -/

namespace HashJoin

variable [Zero R] [DecidableEq R] {op : AbstractJoinOperator} {left right : Table R}

/-- The hash join keeps the books, whichever input is the build side. -/
lemma bookkeeping_fillPositionLists (multimap : UnorderedMultimap (Value R) RowId)
    (hleft : left.WellFormed) (hright : right.WellFormed)
    (hcolLeft : op.predicate.columnIdLeft < left.getColumnCount)
    (hcolRight : op.predicate.columnIdRight < right.getColumnCount) :
    (fillPositionLists multimap op left right).tableAMatchesLeft = buildsLeft op left right ∧
      (fillPositionLists multimap op left right).Bookkeeping
        ((fillPositionLists multimap op left right).tableA left right)
        ((fillPositionLists multimap op left right).tableB left right) := by
  cases hside : buildsLeft op left right with
  | true =>
    have hrun := probed_probePhase multimap true hleft hright hcolLeft hcolRight
    rw [show probePhase _ _ _ _ _ = fillPositionLists multimap op left right by
      rw [fillPositionLists, hside]; rfl] at hrun
    have hflag : (fillPositionLists multimap op left right).tableAMatchesLeft = true := hrun.side
    rw [JoinState.tableA, JoinState.tableB, if_pos hflag, if_pos hflag]
    exact ⟨hflag, hrun.filled.bookkeeping⟩
  | false =>
    have hrun := probed_probePhase multimap false hright hleft hcolRight hcolLeft
    rw [show probePhase _ _ _ _ _ = fillPositionLists multimap op left right by
      rw [fillPositionLists, hside]; rfl] at hrun
    have hside' : (fillPositionLists multimap op left right).tableAMatchesLeft = false := hrun.side
    have hflag : ¬ (fillPositionLists multimap op left right).tableAMatchesLeft = true := by
      rw [hside']
      exact Bool.false_ne_true
    rw [JoinState.tableA, JoinState.tableB, if_neg hflag, if_neg hflag]
    exact ⟨hside', hrun.filled.bookkeeping⟩

end HashJoin

/-! ### The sorted merge join -/

namespace SortedMergeJoin

section Merge

variable {α σ : Type*} [LinearOrder α] {left right : List α} {first i : ℕ}

/-- The run that is reached starts before its end, whether or not the values are sorted. -/
lemma skipSmaller_le (v : α) (h : first ≤ i) :
    (skipSmaller left v first i).1 ≤ (skipSmaller left v first i).2 := by
  fun_induction skipSmaller left v first i with
  | case1 first i hlt hbelow ih =>
    refine ih ?_
    split
    · exact le_refl _
    · exact h.trans (Nat.le_succ i)
  | case2 => exact h
  | case3 => exact h

lemma le_endOfRun (left : List α) (i : ℕ) : i ≤ endOfRun left i := by
  fun_induction endOfRun left i with
  | case1 i hlt heq ih => exact (Nat.le_succ i).trans ih
  | case2 => exact le_refl _
  | case3 => exact le_refl _

/-- A merge keeps what recording a run of at least one left value keeps. -/
lemma mergeSegments_keeps {P : σ → Prop} {emit : List ℕ → ℕ → σ → σ}
    (hemit : ∀ offsets k s, offsets ≠ [] → P s → P (emit offsets k s)) {k : ℕ} {s s' : σ}
    (hle : first ≤ i) (hs : P s) (h : mergeSegments left right emit first i k s = .ok s') :
    P s' := by
  fun_induction mergeSegments left right emit first i k s with
  | case1 =>
    obtain rfl := Except.ok.inj h
    exact hs
  | case2 => cases h
  | case3 first i k s hlt run hno last v hv ih =>
    have hlast : run.1 ≤ last := (skipSmaller_le right[k] hle).trans (le_endOfRun left run.2)
    refine ih hlast ?_ h
    split
    · refine hemit _ _ _ ?_ hs
      rw [Ne, List.range'_eq_nil_iff]
      omega
    · exact hs
  | case4 =>
    obtain rfl := Except.ok.inj h
    exact hs

end Merge

variable [LinearOrder R] {op : AbstractJoinOperator} {left right : Table R}

/-- Some pairs of a row of the first `n` left chunks and a right row are recorded. -/
def SomeMerged (right : Table R) (n : ℕ) (ids : List RowId) (rest : ℕ) (s : MergeState) : Prop :=
  ∃ recorded, Merged right n ids rest recorded s ∧ ∀ ab ∈ recorded, ab.1.chunkId < n

lemma SomeMerged.mergeChunks {n rest i j : ℕ} {ids : List RowId} {s s' : MergeState}
    (h : SomeMerged right n ids rest s) (hnodup : ids.Nodup) (hi : i < n)
    (hj : j < right.chunkCount) (hok : mergeChunks op left right i s j = .ok s') :
    SomeMerged right n ids rest s' := by
  refine mergeSegments_keeps (fun offsets k s hne hs => ?_) (le_refl 0) h hok
  obtain ⟨recorded, hmerged, hids⟩ := hs
  refine ⟨_, hmerged.recordRun hnodup hj k hne, fun ab hab => ?_⟩
  rcases List.mem_append.mp hab with hab | hab
  · exact hids ab hab
  · simp only [List.map_map, List.mem_map] at hab
    obtain ⟨offset, -, rfl⟩ := hab
    exact hi

lemma SomeMerged.mergeLeftChunk {i rest : ℕ} {s s' : MergeState}
    (h : SomeMerged right i ((List.range i).flatMap left.chunkRowIds)
      (rest + (left.getChunk i).size) s) (hi : i < left.chunkCount)
    (hok : mergeLeftChunk op left right s i = .ok s') :
    SomeMerged right (i + 1) ((List.range (i + 1)).flatMap left.chunkRowIds) rest s' := by
  obtain ⟨recorded, hmerged, hrecorded⟩ := h
  have hchunks : (List.range (i + 1)).flatMap left.chunkRowIds =
      (List.range i).flatMap left.chunkRowIds ++
        (List.range (left.getChunk i).size).map (RowId.mk i) := by
    simp [List.range_succ, Table.chunkRowIds]
  have hstart := hmerged.appendChunk (chunkId_lt_of_mem_flatMap left i) hrecorded
  rw [← hchunks] at hstart
  refine of_foldlM_range_eq_ok
    (fun _ s => SomeMerged right (i + 1) ((List.range (i + 1)).flatMap left.chunkRowIds) rest s) hok
    ⟨recorded, hstart, fun ab hab => (hrecorded ab hab).trans (Nat.lt_succ_self i)⟩
    fun j hj s s' hs hstep => ?_
  exact hs.mergeChunks (nodup_flatMap_chunkRowIds hi) (Nat.lt_succ_self i) hj hstep

/-- The merge of all chunks, sorted or not, if it completes. -/
lemma someMerged_of_eq_ok {s : MergeState} (hok : (List.range left.chunkCount).foldlM
    (mergeLeftChunk op left right) (initialState left right) = .ok s) :
    SomeMerged right left.chunkCount left.rowIds 0 s := by
  have hstart : Merged right 0 [] left.rowCount [] (initialState left right) :=
    merged_initialState left right
  have hrun := of_foldlM_range_eq_ok
    (fun i s => SomeMerged right i ((List.range i).flatMap left.chunkRowIds)
      (((List.range' i (left.chunkCount - i)).map fun i => (left.getChunk i).size).sum) s) hok
    ⟨[], by simpa [left.rowCount_eq_sum_range, List.range_eq_range'] using hstart, by simp⟩
    fun i hi s s' hs hstep => by
      rw [show left.chunkCount - i = left.chunkCount - (i + 1) + 1 by omega, List.range'_succ,
        List.map_cons, List.sum_cons, Nat.add_comm] at hs
      exact hs.mergeLeftChunk hi hstep
  rw [← Table.rowIds_eq_flatMap_range] at hrun
  simpa using hrun

/-- The merge join keeps the books. -/
lemma bookkeeping_fillPositionLists {st : JoinState} (h : fillPositionLists op left right = .ok st) :
    st.tableAMatchesLeft = true ∧ st.Bookkeeping left right := by
  cases hs : (List.range left.chunkCount).foldlM (mergeLeftChunk op left right)
      (initialState left right) with
  | error e =>
    rw [fillPositionLists, hs] at h
    cases h
  | ok s =>
    rw [fillPositionLists, hs] at h
    obtain rfl := Except.ok.inj h
    obtain ⟨recorded, hmerged, -⟩ := someMerged_of_eq_ok hs
    have hoffsets := danglingB_danglingOffsets (d := s.danglingRight) hmerged.shape
    have hlen : (danglingOffsets s.danglingTuplesRight).length = right.chunkCount := by
      simpa [danglingOffsets] using congrArg List.length hmerged.shape
    have hdanglingB : JoinState.danglingB { s.joinState with
        danglingTuplesTableBOffsets := danglingOffsets s.danglingTuplesRight } =
          right.rowIds.filter s.danglingRight.isDangling := hoffsets
    refine ⟨hmerged.side, JoinState.bookkeeping_of_rows hmerged.joinState.length_positionLists hlen
      hmerged.joinState.danglingA.count ?_ fun b hb => ?_⟩
    · exact hmerged.danglingRight.count.trans (congrArg List.length hdanglingB.symm)
    · have hpairs : b ∈ s.joinState.pairs.map Prod.snd ↔ b ∈ recorded.map Prod.snd :=
        (hmerged.joinState.pairs.map Prod.snd).mem_iff
      have hdangling : b ∈ right.rowIds.filter s.danglingRight.isDangling ↔
          b ∉ recorded.map Prod.snd := by
        rw [List.mem_filter, hmerged.danglingRight.isDangling_iff]
        tauto
      refine hpairs.trans ?_
      rw [hdanglingB, hdangling, not_not]

end SortedMergeJoin

/-! ### The lengths of the output segments -/

/-- The segments of a chunk have one length. -/
def Chunk.EqualLengths (c : Chunk R) : Prop :=
  ∃ length, ∀ segment ∈ c.segments, segment.size = length

namespace JoinState

variable [Zero R] {st : JoinState} {left right : Table R}

omit [Zero R] in
lemma forall_size_ofValues {π : Type*} (m : ℕ) (type : ℕ → DataType) (ps : List π)
    (f : ℕ → π → Value R) : ∀ segment ∈ (List.range m).map fun i =>
      ValueSegment.ofValues (type i) (ps.map (f i)), segment.size = ps.length := by
  intro segment hsegment
  obtain ⟨i, -, rfl⟩ := List.mem_map.mp hsegment
  rw [ValueSegment.size_ofValues, List.length_map]

lemma forall_size_nullFilledSegments (table : Table R) (rowCount : ℕ) :
    ∀ segment ∈ nullFilledSegmentsForRowsOfTable table rowCount, segment.size = rowCount := by
  intro segment hsegment
  obtain ⟨i, -, rfl⟩ := List.mem_map.mp hsegment
  rw [ValueSegment.size_ofNullable, List.length_replicate]

/-- The segments of either table have an entry for every match. -/
lemma equalLengths_materializeMatches (hcol : 0 < left.getColumnCount)
    (hst : st.Bookkeeping (st.tableA left right) (st.tableB left right)) {rowCount : ℤ}
    {c : Chunk R} (h : materializeMatches left right st rowCount = .ok c) : c.EqualLengths := by
  by_cases hcount : 0 ≤ rowCount
  · rw [materializeMatches, hst.length_danglingB, beq_self_eq_true, assert_true,
      materializeLeftSideOfMatchedTuples_eq hst.length_positionLists hcount,
      materializeRightSideOfMatchedTuples_eq hst.length_positionLists hcount] at h
    obtain rfl := Except.ok.inj h
    exact ⟨st.matchedRows.length, List.forall_mem_append.mpr
      ⟨forall_size_ofValues _ _ st.matchedRows fun i lr => left.storedAt i lr.1,
        forall_size_ofValues _ _ st.matchedRows fun i lr => right.storedAt i lr.2⟩⟩
  · rw [materializeMatches_eq_error hcol hst.length_danglingB (not_le.mp hcount)] at h
    cases h

/-- The segments of the left table have an entry for every flag that is set, and there are as many
NULLs as the counter says. -/
lemma equalLengths_materializeDanglingTuplesOfLeftTable (hflag : st.tableAMatchesLeft = true)
    (hst : st.Bookkeeping left right) :
    (materializeDanglingTuplesOfLeftTable left right st).EqualLengths := by
  refine ⟨(left.rowIds.filter st.isDanglingA).length, ?_⟩
  rw [materializeDanglingTuplesOfLeftTable, if_pos hflag, materializeDanglingTuplesOfTableA,
    hst.danglingACount]
  simp only [hflag, if_true, flatMap_storedAt_danglingA, List.nil_append]
  exact List.forall_mem_append.mpr ⟨forall_size_ofValues _ _ _ left.storedAt,
    forall_size_nullFilledSegments _ _⟩

/-- The segments of the right table have an entry for every offset, and there are as many NULLs as
the counter says. -/
lemma equalLengths_materializeDanglingTuplesOfRightTable (hflag : st.tableAMatchesLeft = true)
    (hst : st.Bookkeeping left right) :
    (materializeDanglingTuplesOfRightTable left right st).EqualLengths := by
  refine ⟨st.danglingB.length, ?_⟩
  rw [materializeDanglingTuplesOfRightTable, if_pos hflag, materializeDanglingTuplesOfTableB,
    hst.danglingBCount, ← st.length_danglingB]
  simp only [hflag, if_true, flatMap_storedAt_danglingB hst.length_danglingB, List.append_nil]
  exact List.forall_mem_append.mpr ⟨forall_size_nullFilledSegments _ _,
    forall_size_ofValues _ _ _ right.storedAt⟩

/-- The chunks of the result of a join operator whose algorithm keeps the books. -/
lemma equalLengths_onExecute {op : AbstractJoinOperator}
    {fill : Table R → Table R → Except Exception JoinState} (hfill : fill left right = .ok st)
    (hst : st.Bookkeeping (st.tableA left right) (st.tableB left right))
    (hside : st.tableAMatchesLeft = true ∨ op.joinMode = .inner) (hcol : 0 < left.getColumnCount)
    {t : Table R} (h : op.onExecute fill left right = .ok t) : ∀ c ∈ t.chunks, c.EqualLengths := by
  obtain ⟨matched, hmatched, hchunks⟩ := of_onExecute_eq_ok hfill h
  have hdangling : op.joinMode ≠ .inner → st.Bookkeeping left right ∧
      st.tableAMatchesLeft = true := by
    intro hmode
    have hflag := hside.resolve_right hmode
    rw [tableA, tableB, if_pos hflag, if_pos hflag] at hst
    exact ⟨hst, hflag⟩
  intro c hc
  rw [hchunks, List.mem_cons, List.mem_append] at hc
  rcases hc with rfl | hc | hc
  · exact equalLengths_materializeMatches hcol hst hmatched
  · split at hc
    · next hmode =>
      obtain ⟨hbooks, hflag⟩ := hdangling (by rintro heq; rw [heq] at hmode; cases hmode)
      obtain rfl := List.mem_singleton.mp hc
      exact equalLengths_materializeDanglingTuplesOfLeftTable hflag hbooks
    · cases hc
  · split at hc
    · next hmode =>
      obtain ⟨hbooks, hflag⟩ := hdangling (by rintro heq; rw [heq] at hmode; cases hmode)
      obtain rfl := List.mem_singleton.mp hc
      exact equalLengths_materializeDanglingTuplesOfRightTable hflag hbooks
    · cases hc

end JoinState

/-! ### Both operators -/

/-- **After either operator has filled the position lists, the counters are the numbers of the flags
and of the offsets, every row of table B has a match or is dangling and not both, and the segments
of an output chunk have one length.** -/
theorem fillPositionLists_bookkeeping [Zero R] [LinearOrder R]
    (multimap : UnorderedMultimap (Value R) RowId) (op : AbstractJoinOperator)
    {left right : Table R} (hleft : left.WellFormed) (hright : right.WellFormed)
    (hcolLeft : op.predicate.columnIdLeft < left.getColumnCount)
    (hcolRight : op.predicate.columnIdRight < right.getColumnCount) :
    (∀ st, st = HashJoin.fillPositionLists multimap op left right →
      st.Bookkeeping (st.tableA left right) (st.tableB left right)) ∧
    (∀ st, SortedMergeJoin.fillPositionLists op left right = .ok st →
      st.Bookkeeping (st.tableA left right) (st.tableB left right)) ∧
    ∀ t, (HashJoin.hashJoin multimap op left right = .ok t ∨
      SortedMergeJoin.sortedMergeJoin op left right = .ok t) → ∀ c ∈ t.chunks, c.EqualLengths := by
  have hbuilt := HashJoin.bookkeeping_fillPositionLists multimap hleft hright hcolLeft hcolRight
  have hpos : 0 < left.getColumnCount := Nat.zero_lt_of_lt hcolLeft
  refine ⟨?_, ?_, ?_⟩
  · rintro st rfl
    exact hbuilt.2
  · intro st hst
    obtain ⟨hflag, hbooks⟩ := SortedMergeJoin.bookkeeping_fillPositionLists hst
    rw [JoinState.tableA, JoinState.tableB, if_pos hflag, if_pos hflag]
    exact hbooks
  · rintro t (ht | ht)
    · refine JoinState.equalLengths_onExecute rfl hbuilt.2 ?_ hpos ht
      rw [hbuilt.1]
      exact HashJoin.buildsLeft_or_inner op left right
    · obtain ⟨st, hst⟩ := exists_of_onExecute_eq_ok ht
      obtain ⟨hflag, hbooks⟩ := SortedMergeJoin.bookkeeping_fillPositionLists hst
      refine JoinState.equalLengths_onExecute hst ?_ (.inl hflag) hpos ht
      rw [JoinState.tableA, JoinState.tableB, if_pos hflag, if_pos hflag]
      exact hbooks

/-- Unsorted chunks with repeated keys, an empty right chunk, and keys without a partner. -/
theorem fillPositionLists_bookkeeping_unsorted :
    let op := AbstractJoinOperator.onFirstColumns .fullOuter rfl
    let left : Table ℚ := .ofInts "a" [[2, 1, 2], [3]]
    let right : Table ℚ := .ofInts "b" [[2, 4, 2], [], [3]]
    ∀ st, (st = HashJoin.fillPositionLists (.insertionOrder _ _) op left right ∨
        SortedMergeJoin.fillPositionLists op left right = .ok st) →
      st.Bookkeeping (st.tableA left right) (st.tableB left right) := by
  intro op left right st hst
  have hleft : left.WellFormed := Table.wellFormed_ofInts
  have hright : right.WellFormed := Table.wellFormed_ofInts
  obtain ⟨hhash, hmerge, -⟩ := fillPositionLists_bookkeeping (.insertionOrder _ _) op hleft hright
    (by decide) (by decide)
  exact hst.elim (hhash st) (hmerge st)

end Skyrise

/-
The hash join.

`fillPositionLists` is the algorithm of `HashJoinOperator`: the rows of the build
side, which is table A, are entered into a multimap by the value of the join
column, and every row of the probe side, table B, is looked up.  The build side
is the left input unless the join is an inner join and the left input has more
rows.

The result is the SQL join if and only if the number of matches, as a C++ `int`,
is not negative: the operator reserves space for so many rows.
-/
import Skyrise.Operator.Join.Matching

namespace Skyrise

variable {R : Type}

/-- `std::unordered_multimap`.  The entries are listed in the order in which they were inserted; in
which order `equal_range` runs through those with one key is left open, as in the library. -/
structure UnorderedMultimap (κ ν : Type) [DecidableEq κ] where
  equalRange : List (κ × ν) → κ → List ν
  perm : ∀ entries key, (equalRange entries key).Perm
    ((entries.filter fun entry => entry.1 = key).map Prod.snd)

/-- The multimap that keeps the order of insertion. -/
def UnorderedMultimap.insertionOrder (κ ν : Type) [DecidableEq κ] : UnorderedMultimap κ ν where
  equalRange entries key := (entries.filter fun entry => entry.1 = key).map Prod.snd
  perm _ _ := List.Perm.refl _

namespace HashJoin

/-- The entries of the build table: for every row of the build side the value in the join column
and the position. -/
def buildTable (buildSideTable : Table R) (columnId : ℕ) : List (Value R × RowId) :=
  (List.range buildSideTable.chunkCount).flatMap fun i =>
    ((buildSideTable.getChunk i).getSegment columnId).values.zipIdx.map fun vj =>
      (vj.1, RowId.mk i vj.2)

/-- The look-up of one row of the probe side: without a match it is noted as dangling, else all
matches are recorded. -/
def probeRow (chunkId offset : ℕ) (found : List RowId) (s : JoinState × List ℕ) :
    JoinState × List ℕ :=
  if found.isEmpty then
    ({ s.1 with danglingTuplesTableBCount := s.1.danglingTuplesTableBCount + 1 }, s.2 ++ [offset])
  else (found.foldl (fun st rowId => st.recordMatch chunkId offset rowId) s.1, s.2)

section Fill

variable [DecidableEq R] (multimap : UnorderedMultimap (Value R) RowId)

/-- The look-up of all rows of one chunk of the probe side. -/
def probeChunk (entries : List (Value R × RowId)) (chunkId : ℕ) (values : List (Value R))
    (st : JoinState) : JoinState :=
  let s := values.zipIdx.foldl
    (fun s vj => probeRow chunkId vj.2 (multimap.equalRange entries vj.1) s) (st, [])
  { s.1 with danglingTuplesTableBOffsets := s.1.danglingTuplesTableBOffsets ++ [s.2] }

/-- Whether the left input is the build side. -/
def buildsLeft (op : AbstractJoinOperator) (left right : Table R) : Bool :=
  !(decide (left.rowCount > right.rowCount) && op.joinMode == .inner)

/-- The state in which the build table is complete and no row was looked up. -/
def initialState (leftIsBuildSide : Bool) (buildSideTable probeSideTable : Table R) : JoinState where
  tableAMatchesLeft := leftIsBuildSide
  positionLists := List.replicate probeSideTable.chunkCount []
  danglingTuplesTableA := (DanglingTuples.allOf buildSideTable).flags
  danglingTuplesTableACount := (DanglingTuples.allOf buildSideTable).count
  danglingTuplesTableBOffsets := []
  danglingTuplesTableBCount := 0

/-- The look-up of all rows of the probe side, chunk by chunk. -/
def probePhase (entries : List (Value R × RowId)) (probeSideTable : Table R) (columnId : ℕ)
    (st : JoinState) : JoinState :=
  (List.range probeSideTable.chunkCount).foldl
    (fun st i => probeChunk multimap entries i
      ((probeSideTable.getChunk i).getSegment columnId).values st) st

/-- `HashJoinOperator::FillPositionLists`. -/
def fillPositionLists (op : AbstractJoinOperator) (left right : Table R) : JoinState :=
  let tableAMatchesLeft := buildsLeft op left right
  let buildSideJoinColumnId :=
    if tableAMatchesLeft then op.predicate.columnIdLeft else op.predicate.columnIdRight
  let probeSideJoinColumnId :=
    if tableAMatchesLeft then op.predicate.columnIdRight else op.predicate.columnIdLeft
  let buildSideTable := if tableAMatchesLeft then left else right
  let probeSideTable := if tableAMatchesLeft then right else left
  probePhase multimap (buildTable buildSideTable buildSideJoinColumnId) probeSideTable
    probeSideJoinColumnId (initialState tableAMatchesLeft buildSideTable probeSideTable)

end Fill

/-- `HashJoinOperator`. -/
def hashJoin [Zero R] [DecidableEq R] (multimap : UnorderedMultimap (Value R) RowId)
    (op : AbstractJoinOperator) (left right : Table R) : Except Exception (Table R) :=
  op.onExecute (fun left right => .ok (fillPositionLists multimap op left right)) left right

/-! ### The probe phase -/

variable {tableA tableB : Table R} {p : RowId → RowId → Bool} {st : JoinState} {isLeft : Bool}

/-- The state in which the given rows of table B were looked up; the second component are the
dangling offsets of the current chunk, the one with the id `chunkId`. -/
structure Probed (tableA tableB : Table R) (p : RowId → RowId → Bool) (leftIsBuildSide : Bool)
    (chunkId : ℕ) (probed : List RowId) (s : JoinState × List ℕ) : Prop where
  side : s.1.tableAMatchesLeft = leftIsBuildSide
  recorded : s.1.Recorded tableB.chunkCount tableA.rowIds 0
    (Relational.innerJoin p tableA.rowIds probed)
  length_offsets : s.1.danglingTuplesTableBOffsets.length = chunkId
  danglingB : s.1.danglingB ++ s.2.map (RowId.mk chunkId) =
    Relational.danglingRight p tableA.rowIds probed
  count : s.1.danglingTuplesTableBCount =
    (Relational.danglingRight p tableA.rowIds probed).length

/-- One look-up. -/
lemma Probed.probeRow {chunkId : ℕ} {probed : List RowId} {s : JoinState × List ℕ}
    (h : Probed tableA tableB p isLeft chunkId probed s) (hchunk : chunkId < tableB.chunkCount)
    {offset : ℕ} {found : List RowId}
    (hfound : found.Perm (tableA.rowIds.filter fun a => p a ⟨chunkId, offset⟩)) :
    Probed tableA tableB p isLeft chunkId (probed ++ [⟨chunkId, offset⟩])
      (HashJoin.probeRow chunkId offset found s) := by
  have hdangling := Relational.danglingRight_append_singleton p tableA.rowIds probed
    ⟨chunkId, offset⟩
  have hjoin := Relational.innerJoin_append_singleton p tableA.rowIds probed ⟨chunkId, offset⟩
  cases found with
  | nil =>
    have hnil : tableA.rowIds.filter (fun a => p a ⟨chunkId, offset⟩) = [] := hfound.nil_eq.symm
    have hany : (tableA.rowIds.any fun a => p a ⟨chunkId, offset⟩) = false := by
      simpa [List.filter_eq_nil_iff] using hnil
    rw [hnil, List.map_nil, List.append_nil] at hjoin
    rw [hany, if_neg Bool.false_ne_true] at hdangling
    have hrec := h.recorded.perm hjoin
    refine ⟨h.side, ⟨hrec.length_positionLists, hrec.pairs, hrec.danglingA⟩, h.length_offsets, ?_,
      ?_⟩
    · rw [hdangling, ← h.danglingB, List.append_assoc]
      simp [HashJoin.probeRow, JoinState.danglingB]
    · rw [hdangling, List.length_append, ← h.count]
      rfl
  | cons a as =>
    have hany : (tableA.rowIds.any fun a => p a ⟨chunkId, offset⟩) = true := by
      obtain ⟨ha, hpa⟩ := List.mem_filter.mp (hfound.mem_iff.mp List.mem_cons_self)
      exact List.any_eq_true.mpr ⟨a, ha, hpa⟩
    rw [hany, if_pos rfl, List.append_nil] at hdangling
    rw [HashJoin.probeRow, List.isEmpty_cons, if_neg Bool.false_ne_true]
    obtain ⟨hside, hoffsets, hcount⟩ :=
      JoinState.foldl_recordMatch_frame s.1 chunkId offset (a :: as)
    refine ⟨hside.trans h.side, ?_, hoffsets ▸ h.length_offsets, ?_, ?_⟩
    · exact (h.recorded.foldl_recordMatch tableA.nodup_rowIds hchunk offset (a :: as)).perm
        (((hfound.map _).append_left _).trans hjoin)
    · rw [hdangling, ← h.danglingB, JoinState.danglingB, hoffsets, JoinState.danglingB]
    · rw [hdangling, ← h.count, hcount]

/-- The look-ups of the first `n` rows of a chunk. -/
lemma Probed.foldl_probeRow {chunkId : ℕ} {probed : List RowId} (hst : Probed tableA tableB p
    isLeft chunkId probed (st, [])) (hchunk : chunkId < tableB.chunkCount) (found : ℕ → List RowId) {n : ℕ}
    (hfound : ∀ k < n, (found k).Perm (tableA.rowIds.filter fun a => p a ⟨chunkId, k⟩)) :
    Probed tableA tableB p isLeft chunkId (probed ++ (List.range n).map (RowId.mk chunkId))
      ((List.range n).foldl (fun s k => HashJoin.probeRow chunkId k (found k) s) (st, [])) := by
  induction n with
  | zero => simpa using hst
  | succ n ih =>
    have hprev := ih fun k hk => hfound k (Nat.lt_succ_of_lt hk)
    rw [List.range_succ, List.foldl_append, List.map_append, ← List.append_assoc]
    exact hprev.probeRow hchunk (hfound n (Nat.lt_succ_self n))

/-- After the last row of a chunk its dangling offsets are complete. -/
lemma Probed.nextChunk {chunkId : ℕ} {probed : List RowId} {s : JoinState × List ℕ}
    (h : Probed tableA tableB p isLeft chunkId probed s) :
    Probed tableA tableB p isLeft (chunkId + 1) probed
      ({ s.1 with danglingTuplesTableBOffsets := s.1.danglingTuplesTableBOffsets ++ [s.2] }, []) := by
  refine ⟨h.side, ⟨h.recorded.length_positionLists, h.recorded.pairs, h.recorded.danglingA⟩,
    by simp [h.length_offsets], ?_, h.count⟩
  rw [← h.danglingB]
  simp [JoinState.danglingB, List.zipIdx_append, h.length_offsets]

section Run

variable [Zero R] {columnIdA columnIdB : ℕ}

lemma buildTable_eq (hA : tableA.WellFormed) (hcol : columnIdA < tableA.getColumnCount) :
    buildTable tableA columnIdA = tableA.rowIds.map fun a => (tableA.storedAt columnIdA a, a) := by
  rw [buildTable, Table.rowIds_eq_flatMap_range, List.map_flatMap]
  refine List.flatMap_congr fun i hi => ?_
  rw [hA.values_eq_map_storedAt (List.mem_range.mp hi) hcol,
    List.zipIdx_eq_map_range _ (tableA.storedAt columnIdA ⟨i, 0⟩)]
  simp only [Table.chunkRowIds, List.length_map, List.length_range, List.map_map]
  refine List.map_congr_left fun k hk => ?_
  simp [List.mem_range.mp hk]

variable [DecidableEq R] (multimap : UnorderedMultimap (Value R) RowId)

/-- A look-up finds the rows of the build side with the value. -/
lemma equalRange_buildTable (hA : tableA.WellFormed) (hcol : columnIdA < tableA.getColumnCount)
    (v : Value R) : (multimap.equalRange (buildTable tableA columnIdA) v).Perm
      (tableA.rowIds.filter fun a => decide (tableA.storedAt columnIdA a = v)) := by
  refine (multimap.perm _ _).trans (List.Perm.of_eq ?_)
  rw [buildTable_eq hA hcol, List.filter_map, List.map_map]
  simp [Function.comp_def]

/-- The look-ups of one chunk. -/
lemma Probed.probeChunk {chunkId : ℕ} {probed : List RowId} (hA : tableA.WellFormed)
    (hB : tableB.WellFormed) (hcolA : columnIdA < tableA.getColumnCount)
    (hcolB : columnIdB < tableB.getColumnCount)
    (h : Probed tableA tableB
      (fun a b => decide (tableA.storedAt columnIdA a = tableB.storedAt columnIdB b)) isLeft chunkId
      probed (st, [])) (hchunk : chunkId < tableB.chunkCount) :
    Probed tableA tableB
      (fun a b => decide (tableA.storedAt columnIdA a = tableB.storedAt columnIdB b)) isLeft
      (chunkId + 1)
      (probed ++ tableB.chunkRowIds chunkId)
      (HashJoin.probeChunk multimap (buildTable tableA columnIdA) chunkId
        ((tableB.getChunk chunkId).getSegment columnIdB).values st, []) := by
  have hvalues := hB.values_eq_map_storedAt hchunk hcolB
  have hidx : ((tableB.getChunk chunkId).getSegment columnIdB).values.zipIdx =
      (List.range (tableB.getChunk chunkId).size).map fun k =>
        (tableB.storedAt columnIdB ⟨chunkId, k⟩, k) := by
    rw [hvalues, List.zipIdx_eq_map_range _ (tableB.storedAt columnIdB ⟨chunkId, 0⟩)]
    simp only [List.length_map, List.length_range]
    refine List.map_congr_left fun k hk => ?_
    simp [List.mem_range.mp hk]
  have hrows := h.foldl_probeRow hchunk
    (fun k => multimap.equalRange (buildTable tableA columnIdA)
      (tableB.storedAt columnIdB ⟨chunkId, k⟩))
    (n := (tableB.getChunk chunkId).size) fun k _ => equalRange_buildTable multimap hA hcolA _
  rw [HashJoin.probeChunk, hidx, List.foldl_map]
  exact hrows.nextChunk

/-- The whole probe phase. -/
lemma probed_probePhase (isLeft : Bool) (hA : tableA.WellFormed) (hB : tableB.WellFormed)
    (hcolA : columnIdA < tableA.getColumnCount) (hcolB : columnIdB < tableB.getColumnCount) :
    Probed tableA tableB
      (fun a b => decide (tableA.storedAt columnIdA a = tableB.storedAt columnIdB b)) isLeft
      tableB.chunkCount tableB.rowIds
      (probePhase multimap (buildTable tableA columnIdA) tableB columnIdB
        (initialState isLeft tableA tableB), []) := by
  have hrun : ∀ n ≤ tableB.chunkCount, Probed tableA tableB
      (fun a b => decide (tableA.storedAt columnIdA a = tableB.storedAt columnIdB b)) isLeft n
      ((List.range n).flatMap tableB.chunkRowIds)
      ((List.range n).foldl (fun st i =>
        HashJoin.probeChunk multimap (buildTable tableA columnIdA) i
          ((tableB.getChunk i).getSegment columnIdB).values st)
        (initialState isLeft tableA tableB), []) := by
    intro n
    induction n with
    | zero =>
      intro _
      have hrec : (initialState isLeft tableA tableB).Recorded tableB.chunkCount tableA.rowIds 0 [] :=
        JoinState.recorded_nil rfl (DanglingTuples.without_allOf tableA)
      exact ⟨rfl, by simpa using hrec, rfl, rfl, rfl⟩
    | succ n ih =>
      intro hn
      rw [List.range_succ, List.foldl_append, List.flatMap_append]
      simpa using (ih (Nat.le_of_succ_le hn)).probeChunk multimap hA hB hcolA hcolB hn
  rw [Table.rowIds_eq_flatMap_range tableB]
  exact hrun tableB.chunkCount (le_refl _)

omit [Zero R] [DecidableEq R] in
/-- What the probe phase leaves is what the materialisation needs. -/
lemma Probed.filled (h : Probed tableA tableB p isLeft tableB.chunkCount tableB.rowIds (st, [])) :
    st.Filled tableA tableB p := by
  exact ⟨h.recorded.length_positionLists, h.length_offsets, h.recorded.pairs,
    h.recorded.danglingA.filter_left, h.recorded.danglingA.count_left, by simpa using h.danglingB,
    h.count⟩

end Run

/-! ### Correctness -/

variable {op : AbstractJoinOperator} {left right : Table R}

/-- Only an inner join exchanges the sides. -/
lemma buildsLeft_or_inner (op : AbstractJoinOperator) (left right : Table R) :
    buildsLeft op left right = true ∨ op.joinMode = .inner := by
  by_cases hmode : op.joinMode = .inner
  · exact Or.inr hmode
  · refine Or.inl ?_
    simp [buildsLeft, hmode]

variable [Zero R] [DecidableEq R]

/-- The position lists of the hash join are filled as the materialisation needs them. -/
lemma filled_fillPositionLists (multimap : UnorderedMultimap (Value R) RowId)
    (h : op.Accepts left right) {st : JoinState}
    (hst : fillPositionLists multimap op left right = st) :
    st.Filled (st.tableA left right) (st.tableB left right)
      (st.keysEqual op.predicate left right) ∧ st.tableAMatchesLeft = buildsLeft op left right := by
  cases hside : buildsLeft op left right with
  | true =>
    have hrun := probed_probePhase multimap true h.left_wellFormed h.right_wellFormed
      h.left_column h.right_column
    rw [show probePhase _ _ _ _ _ = st by rw [← hst, fillPositionLists, hside]; rfl] at hrun
    have hflag : st.tableAMatchesLeft = true := hrun.side
    rw [JoinState.keysEqual_of_left hflag, JoinState.tableA, JoinState.tableB, if_pos hflag,
      if_pos hflag]
    exact ⟨hrun.filled, hflag⟩
  | false =>
    have hrun := probed_probePhase multimap false h.right_wellFormed h.left_wellFormed
      h.right_column h.left_column
    rw [show probePhase _ _ _ _ _ = st by rw [← hst, fillPositionLists, hside]; rfl] at hrun
    have hflag : ¬ st.tableAMatchesLeft = true := by
      rw [show st.tableAMatchesLeft = false from hrun.side]
      exact Bool.false_ne_true
    have hcomm : (fun a b => joinKeysEqual op.predicate left right b a) = fun a b =>
        decide (right.storedAt op.predicate.columnIdRight a =
          left.storedAt op.predicate.columnIdLeft b) :=
      funext₂ fun a b => decide_eq_decide.mpr eq_comm
    rw [JoinState.keysEqual_of_right hflag, JoinState.tableA, JoinState.tableB, if_neg hflag,
      if_neg hflag, hcomm]
    exact ⟨hrun.filled, hrun.side⟩

lemma hashJoin_eq_ok (multimap : UnorderedMultimap (Value R) RowId) (h : op.Accepts left right)
    (hcount : matchCount op.predicate left.rows right.rows % 2 ^ 32 < 2 ^ 31) :
    ∃ t, hashJoin multimap op left right = .ok t ∧ t.rows.Perm
      (equiJoin op.predicate op.joinMode left.getColumnCount right.getColumnCount left.rows
        right.rows) := by
  obtain ⟨hfilled, hflag⟩ := filled_fillPositionLists multimap h rfl
  exact onExecute_eq_ok h rfl hfilled (hflag ▸ buildsLeft_or_inner op left right) hcount

lemma hashJoin_eq_error (multimap : UnorderedMultimap (Value R) RowId) (h : op.Accepts left right)
    (hcount : 2 ^ 31 ≤ matchCount op.predicate left.rows right.rows % 2 ^ 32) :
    hashJoin multimap op left right = .error .lengthError :=
  onExecute_eq_error h rfl (filled_fillPositionLists multimap h rfl).1 hcount

/-- If the operator succeeds, then the number of matches is as it should be. -/
lemma count_of_eq_ok {multimap : UnorderedMultimap (Value R) RowId} (h : op.Accepts left right)
    {t : Table R} (ht : hashJoin multimap op left right = .ok t) :
    matchCount op.predicate left.rows right.rows % 2 ^ 32 < 2 ^ 31 := by
  by_contra hcount
  rw [hashJoin_eq_error multimap h (not_lt.mp hcount)] at ht
  cases ht

/-- **The hash join** returns the SQL join of its inputs if and only if the number of matching
pairs, as a signed 32-bit number, is not negative. -/
theorem hashJoin_isEquiJoin_iff (multimap : UnorderedMultimap (Value R) RowId)
    (h : op.Accepts left right) :
    (∃ t, hashJoin multimap op left right = .ok t ∧ t.rows.Perm
      (equiJoin op.predicate op.joinMode left.getColumnCount right.getColumnCount left.rows
        right.rows)) ↔
    matchCount op.predicate left.rows right.rows % 2 ^ 32 < 2 ^ 31 := by
  constructor
  · rintro ⟨t, ht, -⟩
    exact count_of_eq_ok h ht
  · exact hashJoin_eq_ok multimap h

/-- A full outer join of tables with several chunks, an empty one among them, and repeated keys. -/
theorem hashJoin_isEquiJoin_outer :
    ∃ t, hashJoin (R := ℚ) (.insertionOrder _ _) (.onFirstColumns .fullOuter rfl)
        (.ofInts "a" [[1, 2], [], [2]]) (.ofInts "b" [[2, 3], [2]]) = .ok t ∧
      t.rows.Perm (equiJoin (AbstractJoinOperator.onFirstColumns .fullOuter rfl).predicate
        .fullOuter 1 1 (Table.ofInts "a" [[1, 2], [], [2]] : Table ℚ).rows
        (Table.ofInts "b" [[2, 3], [2]]).rows) :=
  (hashJoin_isEquiJoin_iff _ (accepts_ofInts rfl)).mpr (by decide +kernel)

/-- The inner join of `2 ^ 16` with `2 ^ 15` rows that all have the same key has no result. -/
theorem hashJoin_not_equiJoin_of_repeated_keys :
    let op := AbstractJoinOperator.onFirstColumns .inner rfl
    let left : Table ℚ := .ofInts "a" [List.replicate (2 ^ 16) 0]
    let right : Table ℚ := .ofInts "b" [List.replicate (2 ^ 15) 0]
    op.Accepts left right ∧
      ¬ ∃ t, hashJoin (.insertionOrder _ _) op left right = .ok t ∧ t.rows.Perm
        (equiJoin op.predicate op.joinMode left.getColumnCount right.getColumnCount left.rows
          right.rows) := by
  intro op left right
  have hacc : op.Accepts left right := accepts_ofInts rfl
  have hcount : matchCount op.predicate left.rows right.rows = 2 ^ 16 * 2 ^ 15 :=
    matchCount_replicate rfl 0 (2 ^ 16) (2 ^ 15)
  refine ⟨hacc, ?_⟩
  rintro ⟨t, ht, -⟩
  rw [hashJoin_eq_error _ hacc (by rw [hcount]; decide)] at ht
  cases ht

end HashJoin

end Skyrise

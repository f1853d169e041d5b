/-
Recording matches.

Which rows of a table are still without a partner is kept in vectors of flags,
one for every chunk, and in a counter.  Both join algorithms record a match in
the same way: the pair is appended to the position list of the chunk of table B,
and the flag of the row of table A is cleared if it was set.
`JoinState.Recorded` is what then holds of the position lists and of the flags,
for the list of the pairs that were recorded, whatever their order.
-/
import Skyrise.Operator.Join.AbstractJoin

namespace Skyrise

variable {R : Type}

/-! ### Flags for the rows without a partner -/

/-- For every row of a table whether it is without a partner, and how many rows are. -/
structure DanglingTuples where
  flags : List (List Bool)
  count : ℕ
deriving DecidableEq, Repr

namespace DanglingTuples

/-- Whether a row is without a partner. -/
def isDangling (d : DanglingTuples) (id : RowId) : Bool :=
  (d.flags.getD id.chunkId []).getD id.chunkOffset false

/-- Clears the flag of a row if it is set. -/
def markMatched (d : DanglingTuples) (id : RowId) : DanglingTuples :=
  if d.isDangling id then
    { flags := d.flags.modify id.chunkId fun row => row.set id.chunkOffset false
      count := d.count - 1 }
  else d

@[simp] lemma isDangling_markMatched (d : DanglingTuples) (a id : RowId) :
    (d.markMatched a).isDangling id = (!decide (id = a) && d.isDangling id) := by
  by_cases h : d.isDangling a = true
  · rw [markMatched, if_pos h]
    obtain ⟨i, j⟩ := a
    obtain ⟨i', j'⟩ := id
    simp only [isDangling, RowId.mk.injEq, List.getD_eq_getElem?_getD, List.getElem?_modify]
    by_cases hi : i = i'
    · subst hi
      cases hrow : d.flags[i]? with
      | none => simp
      | some row =>
        by_cases hj : j = j'
        · subst hj
          have hset : (row.set j false)[j]?.getD false = false := by
            rw [List.getElem?_set_self']
            cases row[j]? <;> rfl
          simp [hset]
        · simp [hj, Ne.symm hj]
    · simp [hi, Ne.symm hi]
  · rw [markMatched, if_neg h]
    by_cases hid : id = a
    · subst hid
      simpa using h
    · simp [hid]

/-- How many flags there are does not change. -/
lemma shape_markMatched (d : DanglingTuples) (a : RowId) :
    (d.markMatched a).flags.map List.length = d.flags.map List.length := by
  rw [markMatched]
  split
  · apply List.ext_getElem
    · simp
    · intro i h₁ h₂
      by_cases hi : a.chunkId = i <;> simp [hi]
  · rfl

/-- The flags are set for those of the rows `ids` that are not among the rows `matched`.  The
counter is ahead of the flags by `rest`, the number of rows whose flags are not there yet. -/
structure Without (d : DanglingTuples) (ids : List RowId) (rest : ℕ) (matched : List RowId) :
    Prop where
  isDangling_iff : ∀ id, d.isDangling id = true ↔ id ∈ ids ∧ id ∉ matched
  count : d.count = (ids.filter d.isDangling).length + rest

namespace Without

variable {d : DanglingTuples} {ids matched : List RowId} {rest : ℕ}

lemma congr (h : d.Without ids rest matched) {matched' : List RowId}
    (hm : ∀ id, id ∈ matched ↔ id ∈ matched') : d.Without ids rest matched' :=
  ⟨fun id => by rw [h.isDangling_iff, hm id], h.count⟩

lemma markMatched (h : d.Without ids rest matched) (hnodup : ids.Nodup) (a : RowId) :
    (d.markMatched a).Without ids rest (a :: matched) := by
  refine ⟨fun id => ?_, ?_⟩
  · rw [isDangling_markMatched, Bool.and_eq_true, h.isDangling_iff]
    simp only [Bool.not_eq_true', decide_eq_false_iff_not, List.mem_cons, not_or]
    exact and_left_comm
  by_cases ha : d.isDangling a = true
  · -- one flag less is set, and it is the flag of one row only
    have hmem : a ∈ ids := ((h.isDangling_iff a).mp ha).1
    have hperm := List.perm_cons_erase hmem
    have hnot : a ∉ ids.erase a := hnodup.not_mem_erase
    have hbefore : (ids.filter d.isDangling).length =
        ((ids.erase a).filter d.isDangling).length + 1 := by
      rw [(hperm.filter _).length_eq, List.filter_cons_of_pos ha, List.length_cons]
    have hafter : (ids.filter (d.markMatched a).isDangling).length =
        ((ids.erase a).filter d.isDangling).length := by
      rw [(hperm.filter _).length_eq, List.filter_cons_of_neg (by simp)]
      refine congrArg _ (List.filter_congr fun id hid => ?_)
      have hne : id ≠ a := by
        rintro rfl
        exact hnot hid
      simp [hne]
    have hcount := h.count
    rw [hafter, DanglingTuples.markMatched, if_pos ha]
    simp only
    omega
  · rw [DanglingTuples.markMatched, if_neg ha]
    exact h.count

/-- The flags of one more chunk, none of whose rows was matched so far. -/
lemma appendChunk {n size : ℕ} (h : d.Without ids (rest + size) matched) (hlen : d.flags.length = n)
    (hids : ∀ id ∈ ids, id.chunkId < n) (hmatched : ∀ id ∈ matched, id.chunkId < n) :
    (DanglingTuples.mk (d.flags ++ [List.replicate size true]) d.count).Without
      (ids ++ (List.range size).map (RowId.mk n)) rest matched := by
  have hold : ∀ id : RowId, id.chunkId < n →
      (DanglingTuples.mk (d.flags ++ [List.replicate size true]) d.count).isDangling id =
        d.isDangling id := by
    intro id hid
    simp [isDangling, List.getD_eq_getElem?_getD, List.getElem?_append_left (hlen ▸ hid)]
  have hnew : ∀ k, (DanglingTuples.mk (d.flags ++ [List.replicate size true]) d.count).isDangling
      ⟨n, k⟩ = decide (k < size) := by
    intro k
    by_cases hk : k < size <;> simp [isDangling, List.getD_eq_getElem?_getD, ← hlen, hk]
  refine ⟨fun id => ?_, ?_⟩
  · rcases lt_trichotomy id.chunkId n with hlt | heq | hgt
    · rw [hold id hlt, h.isDangling_iff, List.mem_append]
      refine and_congr_left fun _ => (or_iff_left ?_).symm
      rintro hmem
      obtain ⟨k, -, rfl⟩ := List.mem_map.mp hmem
      exact lt_irrefl _ hlt
    · obtain ⟨i, k⟩ := id
      obtain rfl : i = n := heq
      have hnot : (⟨i, k⟩ : RowId) ∉ ids := fun hmem => lt_irrefl _ (hids _ hmem)
      have hnot' : (⟨i, k⟩ : RowId) ∉ matched := fun hmem => lt_irrefl _ (hmatched _ hmem)
      simp [hnew, hnot, hnot']
    · have hlen' : (d.flags ++ [List.replicate size true]).length ≤ id.chunkId := by
        rw [List.length_append, hlen]
        exact hgt
      have hnot : id ∉ ids := fun hmem => absurd (hids id hmem) (by omega)
      have hnot' : id ∉ (List.range size).map (RowId.mk n) := by
        intro hmem
        obtain ⟨k, -, rfl⟩ := List.mem_map.mp hmem
        exact lt_irrefl _ hgt
      simp only [isDangling, List.getD_eq_getElem?_getD, List.getElem?_eq_none hlen', List.mem_append,
        hnot, hnot']
      simp
  · have holdIds : ids.filter
        (DanglingTuples.mk (d.flags ++ [List.replicate size true]) d.count).isDangling =
          ids.filter d.isDangling := List.filter_congr fun id hid => hold id (hids id hid)
    have hnewIds : ((List.range size).map (RowId.mk n)).filter
        (DanglingTuples.mk (d.flags ++ [List.replicate size true]) d.count).isDangling =
          (List.range size).map (RowId.mk n) := by
      refine List.filter_eq_self.mpr fun id hid => ?_
      obtain ⟨k, hk, rfl⟩ := List.mem_map.mp hid
      rw [hnew, decide_eq_true (List.mem_range.mp hk)]
    rw [List.filter_append, holdIds, hnewIds, List.length_append, List.length_map, List.length_range]
    have hcount := h.count
    simp only
    omega

end Without

/-- For every row of a table a flag, all of them set. -/
def allOf (table : Table R) : DanglingTuples where
  flags := (List.range table.chunkCount).map fun i => List.replicate (table.getChunk i).size true
  count := table.rowCount

lemma isDangling_allOf (table : Table R) (id : RowId) :
    (allOf table).isDangling id = true ↔ id ∈ table.rowIds := by
  rw [isDangling, allOf, Table.mem_rowIds]
  by_cases hi : id.chunkId < table.chunkCount
  · by_cases hk : id.chunkOffset < (table.getChunk id.chunkId).size <;>
      simp [List.getD_eq_getElem?_getD, hi, hk]
  · simp [List.getD_eq_getElem?_getD, hi]

lemma without_allOf (table : Table R) : (allOf table).Without table.rowIds 0 [] := by
  refine ⟨fun id => by simp [isDangling_allOf], ?_⟩
  rw [List.filter_eq_self.mpr fun id hid => (isDangling_allOf table id).mpr hid,
    Table.length_rowIds]
  rfl

end DanglingTuples

/-! ### Recording a match -/

namespace JoinState

variable {st : JoinState}

/-- The rows of table A without a partner. -/
def danglingA (st : JoinState) : DanglingTuples :=
  ⟨st.danglingTuplesTableA, st.danglingTuplesTableACount⟩

/-- Records a row of table A and an offset in a chunk of table B as a match. -/
def recordMatch (st : JoinState) (chunkId offset : ℕ) (a : RowId) : JoinState :=
  { st with
    positionLists := st.positionLists.modify chunkId fun positions => positions ++ [(a, offset)]
    danglingTuplesTableA := (st.danglingA.markMatched a).flags
    danglingTuplesTableACount := (st.danglingA.markMatched a).count }

@[simp] lemma danglingA_recordMatch (i k : ℕ) (a : RowId) :
    (st.recordMatch i k a).danglingA = st.danglingA.markMatched a := rfl

/-- A position that is appended to one of the lists is one more pair. -/
lemma pairs_modify_perm (lists : List (List (RowId × ℕ))) (n i k : ℕ) (a : RowId)
    (hi : i < lists.length) :
    ((lists.modify i fun positions => positions ++ [(a, k)]).zipIdx n |>.flatMap fun pl =>
      pl.1.map fun position => (position.1, RowId.mk pl.2 position.2)).Perm
    ((a, RowId.mk (n + i) k) :: (lists.zipIdx n).flatMap fun pl =>
      pl.1.map fun position => (position.1, RowId.mk pl.2 position.2)) := by
  induction lists generalizing n i with
  | nil => simp at hi
  | cons positions lists ih =>
    cases i with
    | zero =>
      simp only [List.modify_zero_cons, List.zipIdx_cons, List.flatMap_cons, List.map_append,
        List.map_cons, List.map_nil, Nat.add_zero, List.append_assoc]
      exact List.perm_middle
    | succ i =>
      simp only [List.modify_succ_cons, List.zipIdx_cons, List.flatMap_cons]
      have hrest := ih (n + 1) i (by simpa using hi)
      rw [show n + 1 + i = n + (i + 1) by omega] at hrest
      exact (hrest.append_left _).trans List.perm_middle

lemma pairs_recordMatch {i k : ℕ} {a : RowId} (hi : i < st.positionLists.length) :
    (st.recordMatch i k a).pairs.Perm ((a, ⟨i, k⟩) :: st.pairs) := by
  have h := pairs_modify_perm st.positionLists 0 i k a hi
  rw [Nat.zero_add] at h
  simpa [pairs, recordMatch] using h

/-- The state in which the given pairs are recorded: `n` is the number of chunks of table B, and
the flags are those of the rows `ids` of table A, with `rest` rows still to come. -/
structure Recorded (st : JoinState) (n : ℕ) (ids : List RowId) (rest : ℕ)
    (recorded : List (RowId × RowId)) : Prop where
  length_positionLists : st.positionLists.length = n
  pairs : st.pairs.Perm recorded
  danglingA : st.danglingA.Without ids rest (recorded.map Prod.fst)

namespace Recorded

variable {n rest : ℕ} {ids : List RowId} {recorded : List (RowId × RowId)}

/-- Only the recorded pairs matter, not their order. -/
lemma perm (h : st.Recorded n ids rest recorded) {recorded' : List (RowId × RowId)}
    (hperm : recorded.Perm recorded') : st.Recorded n ids rest recorded' :=
  ⟨h.length_positionLists, h.pairs.trans hperm,
    h.danglingA.congr fun _ => (hperm.map Prod.fst).mem_iff⟩

/-- Recording one match. -/
lemma recordMatch (h : st.Recorded n ids rest recorded) (hnodup : ids.Nodup) {i : ℕ} (hi : i < n)
    (k : ℕ) (a : RowId) :
    (st.recordMatch i k a).Recorded n ids rest ((a, ⟨i, k⟩) :: recorded) where
  length_positionLists := by simpa [JoinState.recordMatch] using h.length_positionLists
  pairs := (pairs_recordMatch (h.length_positionLists ▸ hi)).trans (h.pairs.cons _)
  danglingA := h.danglingA.markMatched hnodup a

/-- Recording several rows of table A as the partners of one row of table B. -/
lemma foldl_recordMatch (h : st.Recorded n ids rest recorded) (hnodup : ids.Nodup) {i : ℕ}
    (hi : i < n) (k : ℕ) (as : List RowId) :
    (as.foldl (fun st a => st.recordMatch i k a) st).Recorded n ids rest
      (recorded ++ as.map fun a => (a, RowId.mk i k)) := by
  induction as generalizing st recorded with
  | nil => simpa using h
  | cons a as ih =>
    rw [List.foldl_cons, List.map_cons]
    exact (ih (h.recordMatch hnodup hi k a)).perm List.perm_middle.symm

end Recorded

/-- What recording matches leaves alone. -/
lemma foldl_recordMatch_frame (st : JoinState) (i k : ℕ) (as : List RowId) :
    (as.foldl (fun st a => st.recordMatch i k a) st).tableAMatchesLeft = st.tableAMatchesLeft ∧
    (as.foldl (fun st a => st.recordMatch i k a) st).danglingTuplesTableBOffsets =
      st.danglingTuplesTableBOffsets ∧
    (as.foldl (fun st a => st.recordMatch i k a) st).danglingTuplesTableBCount =
      st.danglingTuplesTableBCount := by
  induction as generalizing st with
  | nil => exact ⟨rfl, rfl, rfl⟩
  | cons a as ih => exact ih (st.recordMatch i k a)

/-- At the start no pair is recorded. -/
lemma recorded_nil {n : ℕ} (hlists : st.positionLists = List.replicate n []) {ids : List RowId}
    {rest : ℕ} (hdangling : st.danglingA.Without ids rest []) : st.Recorded n ids rest [] := by
  refine ⟨by simp [hlists], ?_, hdangling⟩
  have hnil : st.pairs = [] := by
    rw [JoinState.pairs, hlists, List.flatMap_eq_nil_iff]
    rintro ⟨positions, i⟩ hmem
    have hpositions := List.fst_mem_of_mem_zipIdx hmem
    obtain rfl : positions = [] := List.eq_of_mem_replicate hpositions
    rfl
  rw [hnil]

end JoinState

/-! ### The rows without a partner in a join -/

namespace DanglingTuples.Without

variable {d : DanglingTuples} {l r : List RowId} {p : RowId → RowId → Bool}

/-- If the matched rows are the left rows of the inner join, then the flags are those of the left
rows without a partner. -/
lemma filter_left (h : d.Without l 0 ((Relational.innerJoin p l r).map Prod.fst)) :
    l.filter d.isDangling = Relational.danglingLeft p l r := by
  refine List.filter_congr fun a ha => ?_
  rw [Bool.eq_iff_iff, h.isDangling_iff]
  simp only [List.mem_map, Relational.mem_innerJoin, Bool.not_eq_true', List.any_eq_false]
  constructor
  · rintro ⟨-, hnot⟩ b hb hp
    exact hnot ⟨(a, b), ⟨ha, hb, hp⟩, rfl⟩
  · rintro hall
    refine ⟨ha, ?_⟩
    rintro ⟨⟨a', b⟩, ⟨-, hb, hp⟩, rfl⟩
    exact hall b hb hp

lemma count_left (h : d.Without l 0 ((Relational.innerJoin p l r).map Prod.fst)) :
    d.count = (Relational.danglingLeft p l r).length := by
  rw [h.count, h.filter_left, Nat.add_zero]

/-- The same for the right rows. -/
lemma filter_right (h : d.Without r 0 ((Relational.innerJoin p l r).map Prod.snd)) :
    r.filter d.isDangling = Relational.danglingRight p l r := by
  have hswap : d.Without r 0 ((Relational.innerJoin (fun b a => p a b) r l).map Prod.fst) := by
    refine h.congr fun id => ?_
    rw [← ((Relational.innerJoin_swap p l r).map Prod.snd).mem_iff, List.map_map]
    rfl
  exact hswap.filter_left

lemma count_right (h : d.Without r 0 ((Relational.innerJoin p l r).map Prod.snd)) :
    d.count = (Relational.danglingRight p l r).length := by
  rw [h.count, h.filter_right, Nat.add_zero]

end DanglingTuples.Without

end Skyrise

/-
The sorted merge join.

`fillPositionLists` is the algorithm of `SortedMergeJoinOperator`: every chunk of
the left input is merged with every chunk of the right input.  For a right value
the merge first skips the smaller left values, then moves to the end of the run
of equal left values it has reached, and records the run if it has the value.

On chunks that are sorted by the join column the operator returns the same rows
as the hash join if and only if no empty left chunk meets a right chunk with
rows, where the merge reads the first left value, and the number of matching
pairs is not negative as a C++ `int`.
-/
import Skyrise.Operator.Join.HashJoin

namespace Skyrise

variable {R : Type}

namespace SortedMergeJoin

/-! ### Merging two segments -/

section Merge

variable {α σ : Type*} [LinearOrder α]

/-- Skips left values below `v`.  `first` is the first index of the run of equal values that the
index `i` belongs to. -/
def skipSmaller (left : List α) (v : α) (first i : ℕ) : ℕ × ℕ :=
  if h : i + 1 < left.length then
    if left[i] < v then skipSmaller left v (if left[i] ≠ left[i + 1] then i + 1 else first) (i + 1)
    else (first, i)
  else (first, i)
termination_by left.length - i

/-- The last index of the run of equal values that `i` belongs to. -/
def endOfRun (left : List α) (i : ℕ) : ℕ :=
  if h : i + 1 < left.length then
    if left[i + 1] = left[i] then endOfRun left (i + 1) else i
  else i
termination_by left.length - i

/-- Whether `i` is the last index and its value is still below `v`. -/
def noFurtherMatches (left : List α) (v : α) (i : ℕ) : Bool :=
  if h : i + 1 = left.length then decide (left[i] < v) else false

/-- The merge of two segments from the right index `k` on.  For every right value that has partners
`emit` is called with their indices. -/
def mergeSegments (left right : List α) (emit : List ℕ → ℕ → σ → σ) (first i k : ℕ) (s : σ) :
    Except Exception σ :=
  if h : k < right.length then
    let run := skipSmaller left right[k] first i
    if noFurtherMatches left right[k] run.2 then .ok s
    else
      let last := endOfRun left run.2
      match left[last]? with
      | none => .error .outOfRange
      | some v => mergeSegments left right emit run.1 last (k + 1)
          (if v = right[k] then emit (List.range' run.1 (last + 1 - run.1)) k s else s)
  else .ok s
termination_by right.length - k

end Merge

/-! ### Filling the position lists -/

/-- The join state, and for every row of the right input whether it is without a partner. -/
structure MergeState where
  joinState : JoinState
  danglingTuplesRight : List (List Bool)
deriving DecidableEq, Repr

/-- The rows of the right input without a partner. -/
def MergeState.danglingRight (s : MergeState) : DanglingTuples :=
  ⟨s.danglingTuplesRight, s.joinState.danglingTuplesTableBCount⟩

/-- Records the rows of a left chunk with the given offsets as the partners of a right row. -/
def recordRun (leftChunkId rightChunkId : ℕ) (offsets : List ℕ) (k : ℕ) (s : MergeState) :
    MergeState :=
  let right := s.danglingRight.markMatched ⟨rightChunkId, k⟩
  { joinState :=
      { (offsets.map (RowId.mk leftChunkId)).foldl
          (fun st a => st.recordMatch rightChunkId k a) s.joinState with
        danglingTuplesTableBCount := right.count }
    danglingTuplesRight := right.flags }

section Fill

variable [LinearOrder R]

/-- The merge of a left and a right chunk. -/
def mergeChunks (op : AbstractJoinOperator) (left right : Table R) (leftChunkId : ℕ) (s : MergeState)
    (rightChunkId : ℕ) : Except Exception MergeState :=
  mergeSegments ((left.getChunk leftChunkId).getSegment op.predicate.columnIdLeft).values
    ((right.getChunk rightChunkId).getSegment op.predicate.columnIdRight).values
    (recordRun leftChunkId rightChunkId) 0 0 0 s

/-- The merge of a left chunk with all right chunks, after its flags were appended. -/
def mergeLeftChunk (op : AbstractJoinOperator) (left right : Table R) (s : MergeState)
    (leftChunkId : ℕ) : Except Exception MergeState :=
  (List.range right.chunkCount).foldlM (mergeChunks op left right leftChunkId)
    { s with joinState :=
      { s.joinState with
        danglingTuplesTableA := s.joinState.danglingTuplesTableA ++
          [List.replicate (left.getChunk leftChunkId).size true] } }

/-- The state before the first merge. -/
def initialState (left right : Table R) : MergeState where
  joinState :=
    { tableAMatchesLeft := true
      positionLists := List.replicate right.chunkCount []
      danglingTuplesTableA := []
      danglingTuplesTableACount := left.rowCount
      danglingTuplesTableBOffsets := []
      danglingTuplesTableBCount := (DanglingTuples.allOf right).count }
  danglingTuplesRight := (DanglingTuples.allOf right).flags

/-- The offsets of the right rows without a partner, chunk by chunk. -/
def danglingOffsets (flags : List (List Bool)) : List (List ℕ) :=
  flags.map fun row => (List.range row.length).filter fun k => row.getD k false

/-- `SortedMergeJoinOperator::FillPositionLists`. -/
def fillPositionLists (op : AbstractJoinOperator) (left right : Table R) :
    Except Exception JoinState := do
  let s ← (List.range left.chunkCount).foldlM (mergeLeftChunk op left right) (initialState left right)
  return { s.joinState with danglingTuplesTableBOffsets := danglingOffsets s.danglingTuplesRight }

end Fill

/-- `SortedMergeJoinOperator`. -/
def sortedMergeJoin [Zero R] [LinearOrder R] (op : AbstractJoinOperator) (left right : Table R) :
    Except Exception (Table R) :=
  op.onExecute (fillPositionLists op) left right

/-! ### Runs of equal values -/

section Merge

variable {α σ : Type*} [LinearOrder α] {left right : List α} {first i : ℕ} {v : α}

/-- `first` and `i` are indices of one run of equal values. -/
structure RunAt (left : List α) (first i : ℕ) : Prop where
  le : first ≤ i
  lt : i < left.length
  eq : ∀ m (hm : m < left.length), first ≤ m → m ≤ i → left[m] = left[i]

/-- Skipping smaller values keeps the run and passes only values below `v`; it stops at the last
index or at a value that is not below `v`. -/
lemma skipSmaller_spec (hrun : RunAt left first i)
    (hbelow : ∀ m (hm : m < left.length), m < first → left[m] < v) :
    RunAt left (skipSmaller left v first i).1 (skipSmaller left v first i).2 ∧
    (∀ m (hm : m < left.length), m < (skipSmaller left v first i).1 → left[m] < v) ∧
    ((skipSmaller left v first i).2 + 1 = left.length ∨
      ∀ h : (skipSmaller left v first i).2 < left.length,
        ¬ left[(skipSmaller left v first i).2] < v) := by
  fun_induction skipSmaller left v first i with
  | case1 first i h hlt ih =>
    refine ih ?_ ?_
    · by_cases hne : left[i] ≠ left[i + 1]
      · rw [dif_pos hne]
        refine ⟨le_refl _, h, fun m hm h₁ h₂ => ?_⟩
        obtain rfl : m = i + 1 := le_antisymm h₂ h₁
        rfl
      · rw [dif_neg hne]
        refine ⟨hrun.le.trans (Nat.le_succ i), h, fun m hm h₁ h₂ => ?_⟩
        rcases Nat.lt_or_eq_of_le h₂ with hlt' | rfl
        · rw [hrun.eq m hm h₁ (Nat.lt_succ_iff.mp hlt'), not_not.mp hne]
        · rfl
    · by_cases hne : left[i] ≠ left[i + 1]
      · rw [dif_pos hne]
        intro m hm hmi
        by_cases hmf : m < first
        · exact hbelow m hm hmf
        · rwa [hrun.eq m hm (not_lt.mp hmf) (Nat.lt_succ_iff.mp hmi)]
      · rw [dif_neg hne]
        exact hbelow
  | case2 first i h hlt => exact ⟨hrun, hbelow, Or.inr fun _ => hlt⟩
  | case3 first i h =>
    exact ⟨hrun, hbelow, Or.inl (le_antisymm hrun.lt (not_lt.mp h))⟩

/-- Moving to the end of a run keeps the run; the next value, if there is one, is another. -/
lemma endOfRun_spec (hrun : RunAt left first i) :
    RunAt left first (endOfRun left i) ∧ left[endOfRun left i]? = left[i]? ∧
    (endOfRun left i + 1 < left.length → left[endOfRun left i + 1]? ≠ left[endOfRun left i]?) := by
  fun_induction endOfRun left i with
  | case1 i h heq ih =>
    have hnext : RunAt left first (i + 1) := by
      refine ⟨hrun.le.trans (Nat.le_succ i), h, fun m hm h₁ h₂ => ?_⟩
      rcases Nat.lt_or_eq_of_le h₂ with hlt | rfl
      · rw [hrun.eq m hm h₁ (Nat.lt_succ_iff.mp hlt), heq]
      · rfl
    obtain ⟨h₁, h₂, h₃⟩ := ih hnext
    refine ⟨h₁, h₂.trans ?_, h₃⟩
    rw [List.getElem?_eq_getElem h, heq, List.getElem?_eq_getElem hrun.lt]
  | case2 i h hne =>
    refine ⟨hrun, rfl, fun _ => ?_⟩
    rwa [List.getElem?_eq_getElem h, List.getElem?_eq_getElem hrun.lt, Ne, Option.some_inj]
  | case3 i h => exact ⟨hrun, rfl, fun h' => absurd h' h⟩

/-- The indices of the left values that are equal to `v`. -/
def indicesOf (left : List α) (v : α) : List ℕ :=
  (List.range left.length).filter fun m => decide (left[m]? = some v)

/-- An interval of indices with the value `v`, between smaller and larger values, is all of the
indices with this value. -/
lemma indicesOf_eq_range' {last : ℕ} (hrun : RunAt left first last) (hv : left[last]? = some v)
    (hbelow : ∀ m (hm : m < left.length), m < first → left[m] < v)
    (habove : ∀ m (hm : m < left.length), last < m → v < left[m]) :
    indicesOf left v = List.range' first (last + 1 - first) := by
  have hle := hrun.le
  have hlt := hrun.lt
  have hsplit : List.range left.length = List.range' 0 first ++
      (List.range' first (last + 1 - first) ++
        List.range' (last + 1) (left.length - (last + 1))) := by
    rw [List.range_eq_range', show left.length =
      first + ((last + 1 - first) + (left.length - (last + 1))) by omega, ← List.range'_append_1,
      ← List.range'_append_1]
    congr 3 <;> omega
  have hnone : ∀ l : List ℕ, (∀ m ∈ l, ∀ hm : m < left.length, left[m] ≠ v) →
      l.filter (fun m => decide (left[m]? = some v)) = [] := by
    intro l hl
    refine List.filter_eq_nil_iff.mpr fun m hm => ?_
    rw [decide_eq_true_eq, List.getElem?_eq_some_iff]
    rintro ⟨hm', heq⟩
    exact hl m hm hm' heq
  have hall : ∀ m ∈ List.range' first (last + 1 - first), decide (left[m]? = some v) = true := by
    intro m hm
    rw [List.mem_range'_1] at hm
    have hm' : m < left.length := by omega
    rw [List.getElem?_eq_getElem hlt, Option.some_inj] at hv
    rw [decide_eq_true_eq, List.getElem?_eq_getElem hm', hrun.eq m hm' hm.1 (by omega), hv]
  rw [indicesOf, hsplit, List.filter_append, List.filter_append, List.filter_eq_self.mpr hall,
    hnone, hnone, List.nil_append, List.append_nil]
  · intro m hm hm'
    rw [List.mem_range'_1] at hm
    exact (habove m hm' (by omega)).ne'
  · intro m hm hm'
    rw [List.mem_range'_1] at hm
    exact (hbelow m hm' (by omega)).ne

/-- Between smaller and larger values there is no index with the value `v`. -/
lemma indicesOf_eq_nil (hne : ∀ m (hm : m < left.length), left[m] ≠ v) : indicesOf left v = [] := by
  refine List.filter_eq_nil_iff.mpr fun m _ => ?_
  rw [decide_eq_true_eq, List.getElem?_eq_some_iff]
  rintro ⟨hm, heq⟩
  exact hne m hm heq

lemma getElem_le_of_sorted {l : List α} (hl : l.Pairwise (· ≤ ·)) {m n : ℕ} (hmn : m ≤ n)
    (hn : n < l.length) : l[m] ≤ l[n] := by
  rcases Nat.lt_or_eq_of_le hmn with hlt | rfl
  · exact List.pairwise_iff_getElem.mp hl m n _ hn hlt
  · exact le_refl _

/-- What a merge does for one right value. -/
def emitMatches (left right : List α) (emit : List ℕ → ℕ → σ → σ) (s : σ) (k : ℕ) : σ :=
  match right[k]? with
  | none => s
  | some v => if indicesOf left v = [] then s else emit (indicesOf left v) k s

lemma emitMatches_of_lt {emit : List ℕ → ℕ → σ → σ} {s : σ} {k : ℕ} (h : k < right.length) :
    emitMatches left right emit s k =
      if indicesOf left right[k] = [] then s else emit (indicesOf left right[k]) k s := by
  rw [emitMatches, List.getElem?_eq_getElem h]

/-- The merge of sorted segments, the left one not empty, emits for every right value the indices of
all equal left values.  The invariant is that the left values before the current run are below all
remaining right values. -/
lemma mergeSegments_eq (hleft : left.Pairwise (· ≤ ·)) (hright : right.Pairwise (· ≤ ·))
    (emit : List ℕ → ℕ → σ → σ) {first i k : ℕ} {s : σ} (hrun : RunAt left first i)
    (hbelow : ∀ m (hm : m < left.length), m < first →
      ∀ k' (hk' : k' < right.length), k ≤ k' → left[m] < right[k']) :
    mergeSegments left right emit first i k s =
      .ok ((List.range' k (right.length - k)).foldl (emitMatches left right emit) s) := by
  fun_induction mergeSegments left right emit first i k s with
  | case1 first i k s h run hno =>
    obtain ⟨hrun', -, -⟩ := skipSmaller_spec hrun fun m hm hmf =>
      hbelow m hm hmf k h (le_refl k)
    -- the last left value is below the right value, hence all left values are below all the rest
    have hlast : ∀ m (hm : m < left.length), left[m] < right[k] := by
      intro m hm
      rw [noFurtherMatches] at hno
      split at hno
      · next hend =>
        refine lt_of_le_of_lt (getElem_le_of_sorted hleft ?_ _) (of_decide_eq_true hno)
        omega
      · exact absurd hno Bool.false_ne_true
    congr 1
    refine (List.foldl_eq_self fun k' hk' => ?_).symm
    rw [List.mem_range'_1] at hk'
    have hk'' : k' < right.length := by omega
    have hnone : indicesOf left right[k'] = [] := indicesOf_eq_nil fun m hm =>
      (lt_of_lt_of_le (hlast m hm) (getElem_le_of_sorted hright hk'.1 hk'')).ne
    rw [emitMatches_of_lt hk'', if_pos hnone]
  | case2 first i k s h run hno last hnone =>
    obtain ⟨hrun', -, -⟩ := skipSmaller_spec hrun fun m hm hmf =>
      hbelow m hm hmf k h (le_refl k)
    have hlt := (endOfRun_spec hrun').1.lt
    exact absurd (List.getElem?_eq_none_iff.mp hnone) (not_le.mpr hlt)
  | case3 first i k s h run hno last v hv ih =>
    obtain ⟨hrun', hbelow', hstop⟩ := skipSmaller_spec hrun fun m hm hmf =>
      hbelow m hm hmf k h (le_refl k)
    obtain ⟨hrunLast, hsame, hnext⟩ := endOfRun_spec hrun'
    have hge : right[k] ≤ v := by
      rw [hsame, List.getElem?_eq_getElem hrun'.lt, Option.some_inj] at hv
      rw [← hv]
      rcases hstop with hend | hstop
      · rw [noFurtherMatches, dif_pos hend] at hno
        exact not_lt.mp fun hlt => hno (decide_eq_true hlt)
      · exact not_lt.mp (hstop hrun'.lt)
    have habove : ∀ m (hm : m < left.length), last < m → v < left[m] := by
      intro m hm hlm
      have hlen : last + 1 < left.length := by omega
      have hlt : last < left.length := by omega
      rw [List.getElem?_eq_getElem hlt, Option.some_inj] at hv
      have hle : left[last] ≤ left[last + 1] := getElem_le_of_sorted hleft (Nat.le_succ _) hlen
      have hne : left[last + 1] ≠ left[last] := by
        have := hnext hlen
        rwa [List.getElem?_eq_getElem hlen, List.getElem?_eq_getElem hlt, Ne, Option.some_inj] at this
      rw [← hv]
      exact lt_of_lt_of_le (lt_of_le_of_ne hle hne.symm) (getElem_le_of_sorted hleft hlm hm)
    have hstep : emitMatches left right emit s k =
        if v = right[k] then emit (List.range' run.1 (last + 1 - run.1)) k s else s := by
      rw [emitMatches_of_lt h]
      by_cases heq : v = right[k]
      · have hindices : indicesOf left right[k] = List.range' run.1 (last + 1 - run.1) :=
          indicesOf_eq_range' hrunLast (heq ▸ hv) hbelow' (heq ▸ habove)
        have hle : run.1 ≤ last := hrunLast.le
        have hne : List.range' run.1 (last + 1 - run.1) ≠ [] := by
          rw [Ne, List.range'_eq_nil_iff]
          omega
        rw [hindices, if_neg hne, if_pos heq]
      · have hgt : right[k] < v := lt_of_le_of_ne hge fun h' => heq h'.symm
        have hnone : indicesOf left right[k] = [] := by
          refine indicesOf_eq_nil fun m hm => ?_
          by_cases hmf : m < run.1
          · exact (hbelow' m hm hmf).ne
          · refine (lt_of_lt_of_le hgt ?_).ne'
            by_cases hml : m ≤ last
            · rw [List.getElem?_eq_getElem hrunLast.lt, Option.some_inj] at hv
              rw [hrunLast.eq m hm (not_lt.mp hmf) hml, ← hv]
            · exact (habove m hm (not_le.mp hml)).le
        rw [if_pos hnone, if_neg heq]
    rw [show right.length - k = right.length - (k + 1) + 1 by omega, List.range'_succ,
      List.foldl_cons, hstep]
    simp only [dite_eq_ite] at ih
    refine ih hrunLast fun m hm hmf k' hk' hkk' => ?_
    exact lt_of_lt_of_le (hbelow' m hm hmf) (getElem_le_of_sorted hright (by omega) hk')
  | case4 first i k s h =>
    rw [Nat.sub_eq_zero_of_le (not_lt.mp h)]
    rfl

/-- The merge of an empty left segment with a right segment that has values fails. -/
lemma mergeSegments_nil (hright : right ≠ []) (emit : List ℕ → ℕ → σ → σ) (s : σ) :
    mergeSegments [] right emit 0 0 0 s = .error .outOfRange := by
  have hpos : 0 < right.length := List.length_pos_iff.mpr hright
  rw [mergeSegments, dif_pos hpos]
  simp [noFurtherMatches]

end Merge

/-! ### Merging two chunks -/

variable {left right : Table R} {n rest : ℕ} {ids : List RowId}
  {recorded : List (RowId × RowId)} {s : MergeState}

/-- The state in which the given pairs are recorded; the flags of the first `n` left chunks, those
of the rows `ids`, are there. -/
structure Merged (right : Table R) (n : ℕ) (ids : List RowId) (rest : ℕ)
    (recorded : List (RowId × RowId)) (s : MergeState) : Prop where
  side : s.joinState.tableAMatchesLeft = true
  joinState : s.joinState.Recorded right.chunkCount ids rest recorded
  length_flags : s.joinState.danglingTuplesTableA.length = n
  danglingRight : s.danglingRight.Without right.rowIds 0 (recorded.map Prod.snd)
  shape : s.danglingTuplesRight.map List.length =
    (List.range right.chunkCount).map fun j => (right.getChunk j).size

lemma Merged.perm (h : Merged right n ids rest recorded s) {recorded' : List (RowId × RowId)}
    (hperm : recorded.Perm recorded') : Merged right n ids rest recorded' s :=
  ⟨h.side, h.joinState.perm hperm, h.length_flags,
    h.danglingRight.congr fun _ => (hperm.map Prod.snd).mem_iff, h.shape⟩

lemma length_flags_foldl_recordMatch (st : JoinState) (i k : ℕ) (as : List RowId) :
    (as.foldl (fun st a => st.recordMatch i k a) st).danglingTuplesTableA.length =
      st.danglingTuplesTableA.length := by
  induction as generalizing st with
  | nil => rfl
  | cons a as ih =>
    have hshape := congrArg List.length (st.danglingA.shape_markMatched a)
    rw [List.length_map, List.length_map] at hshape
    exact (ih (st.recordMatch i k a)).trans hshape

/-- Recording a run. -/
lemma Merged.recordRun (h : Merged right n ids rest recorded s) (hnodup : ids.Nodup) {i j : ℕ}
    (hj : j < right.chunkCount) (k : ℕ) {offsets : List ℕ} (hne : offsets ≠ []) :
    Merged right n ids rest
      (recorded ++ (offsets.map (RowId.mk i)).map fun a => (a, RowId.mk j k))
      (SortedMergeJoin.recordRun i j offsets k s) := by
  have hrec := h.joinState.foldl_recordMatch hnodup hj k (offsets.map (RowId.mk i))
  obtain ⟨hside, -, -⟩ := s.joinState.foldl_recordMatch_frame j k (offsets.map (RowId.mk i))
  refine ⟨hside.trans h.side, ⟨hrec.length_positionLists, hrec.pairs, hrec.danglingA⟩,
    (length_flags_foldl_recordMatch _ _ _ _).trans h.length_flags, ?_, ?_⟩
  · refine (h.danglingRight.markMatched right.nodup_rowIds ⟨j, k⟩).congr fun id => ?_
    obtain ⟨m, ms, rfl⟩ := List.exists_cons_of_ne_nil hne
    simp only [List.map_append, List.map_map, List.mem_cons, List.mem_append, Function.comp_def,
      List.map_cons]
    rw [List.map_const', List.mem_replicate]
    tauto
  · exact (s.danglingRight.shape_markMatched ⟨j, k⟩).trans h.shape

variable [LinearOrder R] [Zero R] {op : AbstractJoinOperator}

/-- A table whose chunks are sorted by a column. -/
def SortedWithinChunks (t : Table R) (columnId : ℕ) : Prop :=
  ∀ chunkId < t.chunkCount, ((t.getChunk chunkId).getSegment columnId).values.Pairwise (· ≤ ·)

/-- The offsets that the merge finds for a right row are those of the left rows with its value. -/
lemma map_indicesOf (hleft : left.WellFormed) {i : ℕ} (hi : i < left.chunkCount) {columnId : ℕ}
    (hcol : columnId < left.getColumnCount) (v : Value R) :
    (indicesOf ((left.getChunk i).getSegment columnId).values v).map (RowId.mk i) =
      (left.chunkRowIds i).filter fun a => decide (left.storedAt columnId a = v) := by
  rw [indicesOf, hleft.values_eq_map_storedAt hi hcol, Table.chunkRowIds, List.filter_map,
    List.length_map, List.length_range]
  congr 1
  refine List.filter_congr fun k hk => ?_
  simp [List.mem_range.mp hk]

/-- The merge of two chunks records their inner join, unless the left chunk is empty and the right
one is not. -/
lemma Merged.mergeChunks (h : Merged right n ids rest recorded s) (hacc : op.Accepts left right)
    (hsortedLeft : SortedWithinChunks left op.predicate.columnIdLeft)
    (hsortedRight : SortedWithinChunks right op.predicate.columnIdRight) (hnodup : ids.Nodup)
    {i j : ℕ} (hi : i < left.chunkCount) (hj : j < right.chunkCount)
    (hempty : (left.getChunk i).size = 0 → (right.getChunk j).size = 0) :
    ∃ s', mergeChunks op left right i s j = .ok s' ∧ Merged right n ids rest
      (recorded ++ Relational.innerJoin (joinKeysEqual op.predicate left right) (left.chunkRowIds i)
        (right.chunkRowIds j)) s' := by
  set ls := ((left.getChunk i).getSegment op.predicate.columnIdLeft).values with hls
  set rs := ((right.getChunk j).getSegment op.predicate.columnIdRight).values with hrs
  have hlsize : ls.length = (left.getChunk i).size := by
    rw [hls, hacc.left_wellFormed.values_eq_map_storedAt hi hacc.left_column]
    simp
  have hrsize : rs.length = (right.getChunk j).size := by
    rw [hrs, hacc.right_wellFormed.values_eq_map_storedAt hj hacc.right_column]
    simp
  -- the effect of the merge is that of a loop over the right rows
  have hloop : SortedMergeJoin.mergeChunks op left right i s j =
      .ok ((List.range rs.length).foldl (emitMatches ls rs (SortedMergeJoin.recordRun i j)) s) := by
    rw [SortedMergeJoin.mergeChunks, ← hls, ← hrs]
    by_cases hzero : ls.length = 0
    · have hrs0 : rs.length = 0 := by rw [hrsize, hempty (hlsize ▸ hzero)]
      rw [mergeSegments, dif_neg (by omega), hrs0]
      rfl
    · have hrun : RunAt ls 0 0 := by
        refine ⟨le_refl 0, Nat.pos_of_ne_zero hzero, fun m hm _ hm0 => ?_⟩
        obtain rfl := Nat.le_zero.mp hm0
        rfl
      rw [mergeSegments_eq (hsortedLeft i hi) (hsortedRight j hj) _ hrun
        fun m _ hm => absurd hm (Nat.not_lt_zero m), Nat.sub_zero, ← List.range_eq_range']
  -- and every pass of it records the partners of one right row
  have hrows : ∀ m ≤ rs.length, Merged right n ids rest
      (recorded ++ Relational.innerJoin (joinKeysEqual op.predicate left right) (left.chunkRowIds i)
        ((List.range m).map (RowId.mk j)))
      ((List.range m).foldl (emitMatches ls rs (SortedMergeJoin.recordRun i j)) s) := by
    intro m
    induction m with
    | zero =>
      intro _
      simpa using h
    | succ m ih =>
      intro hm
      have hprev := ih (Nat.le_of_succ_le hm)
      have hfilter := map_indicesOf hacc.left_wellFormed hi hacc.left_column rs[m]
      have hvalue : rs[m] = right.storedAt op.predicate.columnIdRight ⟨j, m⟩ := by
        simp [hrs, hacc.right_wellFormed.values_eq_map_storedAt hj hacc.right_column]
      have hjoin := Relational.innerJoin_append_singleton
        (joinKeysEqual op.predicate left right) (left.chunkRowIds i)
        ((List.range m).map (RowId.mk j)) ⟨j, m⟩
      have hfilter' : (indicesOf ls rs[m]).map (RowId.mk i) = (left.chunkRowIds i).filter
          fun a => joinKeysEqual op.predicate left right a ⟨j, m⟩ := by
        rw [hfilter, hvalue]
        rfl
      rw [List.range_succ, List.map_append, List.foldl_append, List.foldl_cons, List.foldl_nil,
        emitMatches_of_lt hm]
      by_cases hnil : indicesOf ls rs[m] = []
      · rw [if_pos hnil]
        rw [← hfilter', hnil, List.map_nil, List.map_nil, List.append_nil] at hjoin
        exact hprev.perm (hjoin.append_left _)
      · rw [if_neg hnil]
        refine (hprev.recordRun hnodup hj m hnil).perm ?_
        rw [hfilter', List.append_assoc]
        exact hjoin.append_left _
  refine ⟨_, hloop, ?_⟩
  have hall := hrows rs.length (le_refl _)
  rwa [hrsize] at hall ⊢

/-! ### Merging all chunks -/

/-- No empty left chunk meets a right chunk with rows. -/
def NoEmptyLeftChunk (left right : Table R) : Prop :=
  ∀ i < left.chunkCount, ∀ j < right.chunkCount,
    (left.getChunk i).size = 0 → (right.getChunk j).size = 0

omit [LinearOrder R] [Zero R] in
/-- The flags of one more left chunk. -/
lemma Merged.appendChunk {size : ℕ} (h : Merged right n ids (rest + size) recorded s)
    (hids : ∀ id ∈ ids, id.chunkId < n) (hrec : ∀ ab ∈ recorded, ab.1.chunkId < n) :
    Merged right (n + 1) (ids ++ (List.range size).map (RowId.mk n)) rest recorded
      { s with joinState := { s.joinState with
        danglingTuplesTableA := s.joinState.danglingTuplesTableA ++ [List.replicate size true] } } := by
  refine ⟨h.side, ⟨h.joinState.length_positionLists, h.joinState.pairs, ?_⟩,
    by simp [h.length_flags], h.danglingRight, h.shape⟩
  refine h.joinState.danglingA.appendChunk h.length_flags hids fun id hid => ?_
  obtain ⟨ab, hab, rfl⟩ := List.mem_map.mp hid
  exact hrec ab hab

omit [LinearOrder R] [Zero R] in
/-- The rows of the first chunks are rows of these chunks. -/
lemma chunkId_lt_of_mem_flatMap (left : Table R) (n : ℕ) :
    ∀ id ∈ (List.range n).flatMap left.chunkRowIds, id.chunkId < n := by
  intro id hid
  obtain ⟨i, hi, hmem⟩ := List.mem_flatMap.mp hid
  rw [(Table.mem_chunkRowIds.mp hmem).1]
  exact List.mem_range.mp hi

omit [LinearOrder R] [Zero R] in
/-- The rows of the first chunks are different rows. -/
lemma nodup_flatMap_chunkRowIds {n : ℕ} (h : n ≤ left.chunkCount) :
    ((List.range n).flatMap left.chunkRowIds).Nodup := by
  have hall := left.nodup_rowIds
  rw [left.rowIds_eq_flatMap_range, show left.chunkCount = n + (left.chunkCount - n) by omega,
    List.range_add, List.flatMap_append] at hall
  exact hall.of_append_left

/-- The merge of a left chunk with all right chunks records its inner join with the right table. -/
lemma Merged.mergeLeftChunk {i rest : ℕ} (hacc : op.Accepts left right)
    (h : Merged right i ((List.range i).flatMap left.chunkRowIds)
      (rest + (left.getChunk i).size)
      (Relational.innerJoin (joinKeysEqual op.predicate left right)
        ((List.range i).flatMap left.chunkRowIds) right.rowIds) s)
    (hsortedLeft : SortedWithinChunks left op.predicate.columnIdLeft)
    (hsortedRight : SortedWithinChunks right op.predicate.columnIdRight)
    (hi : i < left.chunkCount) (hempty : NoEmptyLeftChunk left right) :
    ∃ s', mergeLeftChunk op left right s i = .ok s' ∧
      Merged right (i + 1) ((List.range (i + 1)).flatMap left.chunkRowIds) rest
        (Relational.innerJoin (joinKeysEqual op.predicate left right)
          ((List.range (i + 1)).flatMap left.chunkRowIds) right.rowIds) s' := by
  have hchunks : (List.range (i + 1)).flatMap left.chunkRowIds =
      (List.range i).flatMap left.chunkRowIds ++ left.chunkRowIds i := by
    simp [List.range_succ]
  have hstart := h.appendChunk (chunkId_lt_of_mem_flatMap left i) fun ab hab =>
    chunkId_lt_of_mem_flatMap left i _ (Relational.mem_innerJoin.mp hab).1
  rw [show (List.range (left.getChunk i).size).map (RowId.mk i) = left.chunkRowIds i from rfl,
    ← hchunks] at hstart
  have hloop := foldlM_range_ok (f := SortedMergeJoin.mergeChunks op left right i) (n := right.chunkCount)
    (fun j s => Merged right (i + 1) ((List.range (i + 1)).flatMap left.chunkRowIds) rest
      (Relational.innerJoin (joinKeysEqual op.predicate left right)
        ((List.range i).flatMap left.chunkRowIds) right.rowIds ++
        Relational.innerJoin (joinKeysEqual op.predicate left right) (left.chunkRowIds i)
          ((List.range j).flatMap right.chunkRowIds)) s)
    (by simpa using hstart) fun j hj s hs => by
      obtain ⟨s', hs', hmerged⟩ := hs.mergeChunks hacc hsortedLeft hsortedRight
        (nodup_flatMap_chunkRowIds hi) hi hj
        (hempty i hi j hj)
      refine ⟨s', hs', hmerged.perm ?_⟩
      rw [List.append_assoc, List.range_succ, List.flatMap_append, List.flatMap_singleton]
      exact (Relational.innerJoin_append_right _ _ _ _).append_left _
  obtain ⟨s', hs', hmerged⟩ := hloop
  refine ⟨s', hs', ?_⟩
  rw [← Table.rowIds_eq_flatMap_range, ← Relational.innerJoin_append_left, ← hchunks] at hmerged
  exact hmerged

omit [LinearOrder R] [Zero R] in
/-- At the start no pair is recorded. -/
lemma merged_initialState (left right : Table R) :
    Merged right 0 [] left.rowCount [] (initialState left right) :=
  ⟨rfl, JoinState.recorded_nil rfl ⟨fun id => by simp [JoinState.danglingA, initialState,
    DanglingTuples.isDangling], (Nat.zero_add _).symm⟩, rfl, DanglingTuples.without_allOf right,
    by simp [initialState, DanglingTuples.allOf, Function.comp_def]⟩

/-- The merge of all chunks records the inner join of the two tables. -/
lemma exists_merged (hacc : op.Accepts left right)
    (hsortedLeft : SortedWithinChunks left op.predicate.columnIdLeft)
    (hsortedRight : SortedWithinChunks right op.predicate.columnIdRight)
    (hempty : NoEmptyLeftChunk left right) :
    ∃ s, (List.range left.chunkCount).foldlM (mergeLeftChunk op left right)
        (initialState left right) = .ok s ∧
      Merged right left.chunkCount left.rowIds 0
        (Relational.innerJoin (joinKeysEqual op.predicate left right) left.rowIds right.rowIds)
        s := by
  have hstart := merged_initialState left right
  obtain ⟨s, hs, hmerged⟩ := foldlM_range_ok (f := SortedMergeJoin.mergeLeftChunk op left right)
    (n := left.chunkCount) (s := initialState left right)
    (fun i s => Merged right i ((List.range i).flatMap left.chunkRowIds)
      (((List.range' i (left.chunkCount - i)).map fun i => (left.getChunk i).size).sum)
      (Relational.innerJoin (joinKeysEqual op.predicate left right)
        ((List.range i).flatMap left.chunkRowIds) right.rowIds) s)
    (by simpa [left.rowCount_eq_sum_range, List.range_eq_range'] using hstart)
    fun i hi s hs => by
      rw [show left.chunkCount - i = left.chunkCount - (i + 1) + 1 by omega, List.range'_succ,
        List.map_cons, List.sum_cons, Nat.add_comm] at hs
      exact hs.mergeLeftChunk hacc hsortedLeft hsortedRight hi hempty
  refine ⟨s, hs, ?_⟩
  rw [← Table.rowIds_eq_flatMap_range] at hmerged
  simpa using hmerged

omit [LinearOrder R] [Zero R] in
/-- The offsets that are collected in the end are the positions whose flags are set. -/
lemma danglingB_danglingOffsets {d : DanglingTuples} (hshape : d.flags.map List.length =
    (List.range right.chunkCount).map fun j => (right.getChunk j).size) :
    (danglingOffsets d.flags).zipIdx.flatMap (fun offsets => offsets.1.map (RowId.mk offsets.2)) =
      right.rowIds.filter d.isDangling := by
  have hlen : d.flags.length = right.chunkCount := by simpa using congrArg List.length hshape
  rw [danglingOffsets, List.zipIdx_eq_map_range _ [], List.length_map, hlen, List.flatMap_map,
    Table.rowIds_eq_flatMap_range, List.filter_flatMap]
  refine List.flatMap_congr fun j hj => ?_
  have hj' : j < d.flags.length := hlen ▸ List.mem_range.mp hj
  have hrow : d.flags[j].length = (right.getChunk j).size := by
    have := List.getElem_of_eq hshape (by simpa using hj' : j < _)
    simpa using this
  simp [Table.chunkRowIds, List.filter_map, Function.comp_def, DanglingTuples.isDangling, hj', hrow]

lemma fillPositionLists_eq_ok (hacc : op.Accepts left right)
    (hsortedLeft : SortedWithinChunks left op.predicate.columnIdLeft)
    (hsortedRight : SortedWithinChunks right op.predicate.columnIdRight)
    (hempty : NoEmptyLeftChunk left right) :
    ∃ st, fillPositionLists op left right = .ok st ∧ st.tableAMatchesLeft = true ∧
      st.Filled left right (joinKeysEqual op.predicate left right) := by
  obtain ⟨s, hs, hmerged⟩ := exists_merged hacc hsortedLeft hsortedRight hempty
  have hoffsets := danglingB_danglingOffsets (d := s.danglingRight) hmerged.shape
  have hlen : (danglingOffsets s.danglingTuplesRight).length = right.chunkCount := by
    simpa [danglingOffsets] using congrArg List.length hmerged.shape
  refine ⟨{ s.joinState with danglingTuplesTableBOffsets := danglingOffsets s.danglingTuplesRight },
    ?_, hmerged.side, ?_⟩
  · rw [fillPositionLists, hs]
    rfl
  · exact ⟨hmerged.joinState.length_positionLists, hlen, hmerged.joinState.pairs,
      hmerged.joinState.danglingA.filter_left, hmerged.joinState.danglingA.count_left,
      hoffsets.trans hmerged.danglingRight.filter_right, hmerged.danglingRight.count_right⟩

/-- If the merge succeeds, then no empty left chunk has met a right chunk with rows. -/
lemma noEmptyLeftChunk_of_eq_ok (hacc : op.Accepts left right) {st : JoinState}
    (h : fillPositionLists op left right = .ok st) : NoEmptyLeftChunk left right := by
  intro i hi j hj hzero
  by_contra hne
  cases hs : (List.range left.chunkCount).foldlM (mergeLeftChunk op left right)
      (initialState left right) with
  | error e =>
    rw [fillPositionLists, hs] at h
    cases h
  | ok s =>
    obtain ⟨s₁, s₂, hchunk⟩ := exists_of_foldlM_eq_ok hs (List.mem_range.mpr hi)
    obtain ⟨s₃, s₄, hmerge⟩ := exists_of_foldlM_eq_ok hchunk (List.mem_range.mpr hj)
    have hleft : ((left.getChunk i).getSegment op.predicate.columnIdLeft).values = [] := by
      rw [hacc.left_wellFormed.values_eq_map_storedAt hi hacc.left_column, hzero]
      rfl
    have hright : ((right.getChunk j).getSegment op.predicate.columnIdRight).values ≠ [] := by
      rw [hacc.right_wellFormed.values_eq_map_storedAt hj hacc.right_column]
      simpa using hne
    rw [mergeChunks, hleft, mergeSegments_nil hright] at hmerge
    cases hmerge

/-! ### Correctness -/

lemma sortedMergeJoin_eq_ok (hacc : op.Accepts left right)
    (hsortedLeft : SortedWithinChunks left op.predicate.columnIdLeft)
    (hsortedRight : SortedWithinChunks right op.predicate.columnIdRight)
    (hempty : NoEmptyLeftChunk left right)
    (hcount : matchCount op.predicate left.rows right.rows % 2 ^ 32 < 2 ^ 31) :
    ∃ t, sortedMergeJoin op left right = .ok t ∧ t.rows.Perm
      (equiJoin op.predicate op.joinMode left.getColumnCount right.getColumnCount left.rows
        right.rows) := by
  obtain ⟨st, hst, hflag, hfilled⟩ := fillPositionLists_eq_ok hacc hsortedLeft hsortedRight hempty
  refine onExecute_eq_ok hacc hst ?_ (Or.inl hflag) hcount
  rw [JoinState.keysEqual_of_left hflag, JoinState.tableA, JoinState.tableB, if_pos hflag,
    if_pos hflag]
  exact hfilled

/-- If the operator succeeds, then both conditions hold. -/
lemma of_sortedMergeJoin_eq_ok (hacc : op.Accepts left right)
    (hsortedLeft : SortedWithinChunks left op.predicate.columnIdLeft)
    (hsortedRight : SortedWithinChunks right op.predicate.columnIdRight) {t : Table R}
    (h : sortedMergeJoin op left right = .ok t) :
    NoEmptyLeftChunk left right ∧
      matchCount op.predicate left.rows right.rows % 2 ^ 32 < 2 ^ 31 := by
  have hempty : NoEmptyLeftChunk left right := by
    cases hst : fillPositionLists op left right with
    | error e =>
      rw [sortedMergeJoin, AbstractJoinOperator.onExecute, hacc.left_not_nullable,
        hacc.right_not_nullable, hacc.same_type, beq_self_eq_true, hst] at h
      cases h
    | ok st => exact noEmptyLeftChunk_of_eq_ok hacc hst
  refine ⟨hempty, ?_⟩
  by_contra hcount
  obtain ⟨st, hst, hflag, hfilled⟩ := fillPositionLists_eq_ok hacc hsortedLeft hsortedRight hempty
  have hst' : st.Filled (st.tableA left right) (st.tableB left right)
      (st.keysEqual op.predicate left right) := by
    rw [JoinState.keysEqual_of_left hflag, JoinState.tableA, JoinState.tableB, if_pos hflag,
      if_pos hflag]
    exact hfilled
  have herr := onExecute_eq_error hacc hst hst' (not_lt.mp hcount)
  rw [sortedMergeJoin, herr] at h
  cases h

/-- **The sorted merge join** succeeds and returns the rows of the hash join if and only if no empty
left chunk meets a right chunk with rows and the number of matching pairs, as a signed 32-bit
number, is not negative. -/
theorem sortedMergeJoin_isHashJoin_iff (multimap : UnorderedMultimap (Value R) RowId)
    (hacc : op.Accepts left right)
    (hsortedLeft : SortedWithinChunks left op.predicate.columnIdLeft)
    (hsortedRight : SortedWithinChunks right op.predicate.columnIdRight) :
    (∃ t t', sortedMergeJoin op left right = .ok t ∧
      HashJoin.hashJoin multimap op left right = .ok t' ∧ t.rows.Perm t'.rows) ↔
    NoEmptyLeftChunk left right ∧
      matchCount op.predicate left.rows right.rows % 2 ^ 32 < 2 ^ 31 := by
  constructor
  · rintro ⟨t, t', ht, -, -⟩
    exact of_sortedMergeJoin_eq_ok hacc hsortedLeft hsortedRight ht
  · rintro ⟨hempty, hcount⟩
    obtain ⟨t, ht, hrows⟩ := sortedMergeJoin_eq_ok hacc hsortedLeft hsortedRight hempty hcount
    obtain ⟨t', ht', hrows'⟩ := HashJoin.hashJoin_eq_ok multimap hacc hcount
    exact ⟨t, t', ht, ht', hrows.trans hrows'.symm⟩

omit [Zero R] in
lemma sortedWithinChunks_ofInts {name : String} {chunks : List (List Int32)}
    (h : ∀ values ∈ chunks, values.Pairwise fun a b => a.toInt ≤ b.toInt) :
    SortedWithinChunks (Table.ofInts name chunks : Table R) 0 := by
  intro i hi
  have hi' : i < chunks.length := by simpa [Table.chunkCount, Table.ofInts] using hi
  have hsorted := h chunks[i] (List.getElem_mem hi')
  simpa [Table.ofInts, Table.getChunk, Chunk.getSegment, hi', List.pairwise_map] using hsorted

/-- Chunks with repeated keys on both sides, an empty right chunk, and keys without a partner. -/
theorem sortedMergeJoin_isHashJoin_outer :
    ∃ t t', sortedMergeJoin (R := ℚ) (.onFirstColumns .fullOuter rfl)
        (.ofInts "a" [[1, 2, 2], [3]]) (.ofInts "b" [[2, 2, 4], [], [3]]) = .ok t ∧
      HashJoin.hashJoin (.insertionOrder _ _) (.onFirstColumns .fullOuter rfl)
        (.ofInts "a" [[1, 2, 2], [3]]) (.ofInts "b" [[2, 2, 4], [], [3]]) = .ok t' ∧
      t.rows.Perm t'.rows :=
  (sortedMergeJoin_isHashJoin_iff _ (accepts_ofInts rfl) (sortedWithinChunks_ofInts (by decide))
    (sortedWithinChunks_ofInts (by decide))).mpr
    ⟨by unfold NoEmptyLeftChunk; decide +kernel, by decide +kernel⟩

/-- The join of a table with one empty chunk and a table with one row fails, where the hash join
has no rows. -/
theorem sortedMergeJoin_fails_on_empty_chunk :
    let op := AbstractJoinOperator.onFirstColumns .inner rfl
    let left : Table ℚ := .ofInts "a" [[]]
    let right : Table ℚ := .ofInts "b" [[1]]
    op.Accepts left right ∧ SortedWithinChunks left op.predicate.columnIdLeft ∧
      SortedWithinChunks right op.predicate.columnIdRight ∧
      ¬ ∃ t t', sortedMergeJoin op left right = .ok t ∧
        HashJoin.hashJoin (.insertionOrder _ _) op left right = .ok t' ∧ t.rows.Perm t'.rows := by
  intro op left right
  have hacc : op.Accepts left right := accepts_ofInts rfl
  have hleft : SortedWithinChunks left op.predicate.columnIdLeft :=
    sortedWithinChunks_ofInts (by decide)
  have hright : SortedWithinChunks right op.predicate.columnIdRight :=
    sortedWithinChunks_ofInts (by decide)
  refine ⟨hacc, hleft, hright, ?_⟩
  rintro ⟨t, t', ht, -⟩
  have hempty := (of_sortedMergeJoin_eq_ok hacc hleft hright ht).1 0 Nat.zero_lt_one 0
    Nat.zero_lt_one rfl
  cases hempty

end SortedMergeJoin

end Skyrise

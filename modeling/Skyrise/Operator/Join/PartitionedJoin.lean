/-
The partitioned join.

Both inputs of a join are partitioned by the join column, and partition `i` of the
left input is joined with partition `i` of the right input.  Matching rows hash to
the same partition, so the results together are the join of the whole inputs.
-/
import Skyrise.Operator.Join.HashJoin
import Skyrise.Operator.Partition

namespace Skyrise

variable {R : Type}

namespace PartitionedJoin

open HashPartitioningFunction PartitionOperator

/-- A partition as a table: one chunk of the result of the partition operator. -/
def partitionTable (partitioned : Table R) (i : ℕ) : Table R :=
  ⟨partitioned.columnDefinitions, [partitioned.getChunk i]⟩

/-- The joins of the partitions.  The flags say whether the partitions of the left and of the right
input are sorted. -/
def partitionedJoin [Zero R] [LinearOrder R] (multimap : UnorderedMultimap (Value R) RowId)
    (hashCombine : ℕ → Value R → ℕ) (op : AbstractJoinOperator) (p : ℕ)
    (sortLeft sortRight : Bool) (left right : Table R) : Except Exception (List (Table R)) := do
  let leftPartitions ←
    partitionOperator hashCombine ⟨[op.predicate.columnIdLeft], p⟩ sortLeft left
  let rightPartitions ←
    partitionOperator hashCombine ⟨[op.predicate.columnIdRight], p⟩ sortRight right
  (List.range p).mapM fun i =>
    HashJoin.hashJoin multimap op (partitionTable leftPartitions i)
      (partitionTable rightPartitions i)

/-! ### The partitions of the rows -/

/-- The partition of a row: the hash of its value in a column, modulo the number of partitions. -/
def partitionOfRow (hashCombine : ℕ → Value R → ℕ) (p columnId : ℕ) (row : List (AllTypeVariant R)) :
    ℕ :=
  match row.getD columnId none with
  | none => 0
  | some value => hashCombine 0 value % p

/-- The rows of a table in a partition. -/
def partitionRows (hashCombine : ℕ → Value R → ℕ) (p columnId : ℕ) (table : Table R) (i : ℕ) :
    List (List (AllTypeVariant R)) :=
  table.rows.filter fun row => partitionOfRow hashCombine p columnId row = i

variable {hashCombine : ℕ → Value R → ℕ} {p columnId : ℕ} {op : AbstractJoinOperator}
  {left right : Table R}

lemma partitionOfRow_lt (hp : 0 < p) (row : List (AllTypeVariant R)) :
    partitionOfRow hashCombine p columnId row < p := by
  rw [partitionOfRow]
  split
  · exact hp
  · exact Nat.mod_lt _ hp

/-- Rows that match are in the same partition. -/
lemma partitionOfRow_eq_of_rowsMatch [DecidableEq R] {predicate : JoinOperatorPredicate}
    {l r : List (AllTypeVariant R)} (h : rowsMatch predicate l r = true) :
    partitionOfRow hashCombine p predicate.columnIdLeft l =
      partitionOfRow hashCombine p predicate.columnIdRight r := by
  rw [rowsMatch, Bool.and_eq_true, decide_eq_true_eq] at h
  rw [partitionOfRow, partitionOfRow, h.2]

/-- The SQL joins of the partitions make up the SQL join of the tables. -/
lemma equiJoin_partition [DecidableEq R] (hashCombine : ℕ → Value R → ℕ)
    (predicate : JoinOperatorPredicate) (mode : JoinMode) (m n : ℕ)
    (hp : 0 < p) (left right : Table R) :
    ((List.range p).flatMap fun i => equiJoin predicate mode m n
      (partitionRows hashCombine p predicate.columnIdLeft left i)
      (partitionRows hashCombine p predicate.columnIdRight right i)).Perm
    (equiJoin predicate mode m n left.rows right.rows) :=
  Relational.outerJoin_partition _ _ _ _ _ List.nodup_range
    (fun l _ => List.mem_range.mpr (partitionOfRow_lt hp l))
    (fun r _ => List.mem_range.mpr (partitionOfRow_lt hp r))
    fun _ _ _ _ h => partitionOfRow_eq_of_rowsMatch h

variable [Zero R]

/-- The rows of a partition are those at its positions. -/
lemma partitionRows_eq {table : Table R} (ht : table.WellFormed) (hnn : table.NonNull)
    (hcol : columnId < table.getColumnCount) (i : ℕ) :
    partitionRows hashCombine p columnId table i =
      (partitionRowIds hashCombine p table columnId i).map table.storedRow := by
  have hrow : ∀ id ∈ table.rowIds, partitionOfRow hashCombine p columnId (table.storedRow id) =
      partitionOf hashCombine p table columnId id := by
    intro id _
    simp [partitionOfRow, partitionOf, Table.storedRow, hcol]
  rw [partitionRows, ht.rows_eq_map_storedRow hnn, List.filter_map, partitionRowIds]
  congr 1
  refine List.filter_congr fun id hid => ?_
  simp [hrow id hid]

/-- The operator accepts the partitions of inputs that it accepts. -/
lemma accepts_partitions (h : op.Accepts left right) {lids rids : List RowId} {lt rt : Table R}
    {i : ℕ} (hl : Holds left lids (lt.getChunk i)) (hr : Holds right rids (rt.getChunk i))
    (hlt : lt.columnDefinitions = left.columnDefinitions)
    (hrt : rt.columnDefinitions = right.columnDefinitions) :
    op.Accepts (partitionTable lt i) (partitionTable rt i) := by
  rw [partitionTable, partitionTable, hlt, hrt]
  exact ⟨hl.wellFormed, hr.wellFormed, hl.nonNull, hr.nonNull, h.left_column, h.right_column,
    h.left_not_nullable, h.right_not_nullable, h.same_type⟩

/-! ### Correctness -/

variable [LinearOrder R] {multimap : UnorderedMultimap (Value R) RowId} {sortLeft sortRight : Bool}

/-- The condition under which the partitioned join and the join of the whole inputs succeed: no
number of matching pairs, neither that of the whole inputs nor that of a partition, is negative as
a signed 32-bit number, and no empty partition is sorted. -/
structure Succeeds (hashCombine : ℕ → Value R → ℕ) (op : AbstractJoinOperator) (p : ℕ)
    (sortLeft sortRight : Bool) (left right : Table R) : Prop where
  whole : matchCount op.predicate left.rows right.rows % 2 ^ 32 < 2 ^ 31
  parts : ∀ i < p, matchCount op.predicate
    (partitionRows hashCombine p op.predicate.columnIdLeft left i)
    (partitionRows hashCombine p op.predicate.columnIdRight right i) % 2 ^ 32 < 2 ^ 31
  left : sortLeft = true →
    ∀ i < p, partitionRows hashCombine p op.predicate.columnIdLeft left i ≠ []
  right : sortRight = true →
    ∀ i < p, partitionRows hashCombine p op.predicate.columnIdRight right i ≠ []

/-- The partitions of both inputs. -/
structure Partitioned (hashCombine : ℕ → Value R → ℕ) (op : AbstractJoinOperator) (p : ℕ)
    (left right lt rt : Table R) : Prop where
  left_definitions : lt.columnDefinitions = left.columnDefinitions
  right_definitions : rt.columnDefinitions = right.columnDefinitions
  left_holds : ∀ i < p, Holds left
    (partitionRowIds hashCombine p left op.predicate.columnIdLeft i) (lt.getChunk i)
  right_holds : ∀ i < p, Holds right
    (partitionRowIds hashCombine p right op.predicate.columnIdRight i) (rt.getChunk i)

namespace Partitioned

variable {lt rt : Table R} {i : ℕ}

omit [LinearOrder R] in
lemma left_rows (h : Partitioned hashCombine op p left right lt rt) (hacc : op.Accepts left right)
    (hi : i < p) : (partitionTable lt i).rows.Perm
      (partitionRows hashCombine p op.predicate.columnIdLeft left i) := by
  rw [partitionTable, Table.rows_singleton,
    partitionRows_eq hacc.left_wellFormed hacc.left_nonNull hacc.left_column]
  exact (h.left_holds i hi).rows

omit [LinearOrder R] in
lemma right_rows (h : Partitioned hashCombine op p left right lt rt) (hacc : op.Accepts left right)
    (hi : i < p) : (partitionTable rt i).rows.Perm
      (partitionRows hashCombine p op.predicate.columnIdRight right i) := by
  rw [partitionTable, Table.rows_singleton,
    partitionRows_eq hacc.right_wellFormed hacc.right_nonNull hacc.right_column]
  exact (h.right_holds i hi).rows

omit [LinearOrder R] in
lemma accepts (h : Partitioned hashCombine op p left right lt rt) (hacc : op.Accepts left right)
    (hi : i < p) : op.Accepts (partitionTable lt i) (partitionTable rt i) :=
  accepts_partitions hacc (h.left_holds i hi) (h.right_holds i hi) h.left_definitions
    h.right_definitions

lemma matchCount (h : Partitioned hashCombine op p left right lt rt) (hacc : op.Accepts left right)
    (hi : i < p) :
    Skyrise.matchCount op.predicate (partitionTable lt i).rows (partitionTable rt i).rows =
      Skyrise.matchCount op.predicate
        (partitionRows hashCombine p op.predicate.columnIdLeft left i)
        (partitionRows hashCombine p op.predicate.columnIdRight right i) :=
  matchCount_perm (h.left_rows hacc hi) (h.right_rows hacc hi)

/-- The join of a partition is the SQL join of its rows. -/
lemma hashJoin_eq_ok (multimap : UnorderedMultimap (Value R) RowId)
    (h : Partitioned hashCombine op p left right lt rt)
    (hacc : op.Accepts left right) (hi : i < p)
    (hcount : Skyrise.matchCount op.predicate
      (partitionRows hashCombine p op.predicate.columnIdLeft left i)
      (partitionRows hashCombine p op.predicate.columnIdRight right i) % 2 ^ 32 < 2 ^ 31) :
    ∃ t, HashJoin.hashJoin multimap op (partitionTable lt i) (partitionTable rt i) = .ok t ∧
      t.rows.Perm (equiJoin op.predicate op.joinMode left.getColumnCount right.getColumnCount
        (partitionRows hashCombine p op.predicate.columnIdLeft left i)
        (partitionRows hashCombine p op.predicate.columnIdRight right i)) := by
  rw [← h.matchCount hacc hi] at hcount
  obtain ⟨t, ht, hrows⟩ := HashJoin.hashJoin_eq_ok multimap (h.accepts hacc hi) hcount
  have hl : (partitionTable lt i).getColumnCount = left.getColumnCount :=
    congrArg List.length h.left_definitions
  have hr : (partitionTable rt i).getColumnCount = right.getColumnCount :=
    congrArg List.length h.right_definitions
  rw [hl, hr] at hrows
  exact ⟨t, ht, hrows.trans (equiJoin_perm (h.left_rows hacc hi) (h.right_rows hacc hi))⟩

end Partitioned

omit [LinearOrder R] in
lemma partitionable_of_ne_nil {table : Table R} {sort : Bool} (ht : table.WellFormed)
    (hnn : table.NonNull) (hcol : columnId < table.getColumnCount) (hne : NoEmptyChunks table)
    (hsort : sort = true → ∀ i < p, partitionRows hashCombine p columnId table i ≠ []) :
    Partitionable hashCombine sort ⟨[columnId], p⟩ table := by
  refine ⟨hne.emptyChunksLast, fun hflag => ⟨by simp, fun i hi hnil => hsort hflag i hi ?_⟩⟩
  have hnil' : partitionRowIds hashCombine p table columnId i = [] := hnil
  rw [partitionRows_eq ht hnn hcol, hnil']
  rfl

omit [LinearOrder R] in
lemma partitionRows_ne_nil {table : Table R} {sort : Bool} (ht : table.WellFormed)
    (hnn : table.NonNull) (hcol : columnId < table.getColumnCount)
    (h : Partitionable hashCombine sort ⟨[columnId], p⟩ table) (hsort : sort = true) {i : ℕ}
    (hi : i < p) : partitionRows hashCombine p columnId table i ≠ [] := by
  intro hnil
  rw [partitionRows_eq ht hnn hcol] at hnil
  exact (h.sorted hsort).2 i hi (List.map_eq_nil_iff.mp hnil)

/-- The partitions of both inputs are as they should be, unless an empty one is to be sorted. -/
lemma exists_partitioned (hacc : op.Accepts left right) (hl : NoEmptyChunks left)
    (hr : NoEmptyChunks right) (hp : 0 < p)
    (hsortLeft : sortLeft = true →
      ∀ i < p, partitionRows hashCombine p op.predicate.columnIdLeft left i ≠ [])
    (hsortRight : sortRight = true →
      ∀ i < p, partitionRows hashCombine p op.predicate.columnIdRight right i ≠ []) :
    ∃ lt rt,
      partitionOperator hashCombine ⟨[op.predicate.columnIdLeft], p⟩ sortLeft left = .ok lt ∧
      partitionOperator hashCombine ⟨[op.predicate.columnIdRight], p⟩ sortRight right = .ok rt ∧
      Partitioned hashCombine op p left right lt rt := by
  have hpartL : Partitionable hashCombine sortLeft ⟨[op.predicate.columnIdLeft], p⟩ left :=
    partitionable_of_ne_nil hacc.left_wellFormed hacc.left_nonNull hacc.left_column hl hsortLeft
  have hpartR : Partitionable hashCombine sortRight ⟨[op.predicate.columnIdRight], p⟩ right :=
    partitionable_of_ne_nil hacc.right_wellFormed hacc.right_nonNull hacc.right_column hr hsortRight
  obtain ⟨lt, hlt, hldef, -, hlholds⟩ := partitionOperator_eq_ok hacc.left_wellFormed
    (accepts_singleton hacc.left_column hacc.left_not_nullable) hp hpartL
  obtain ⟨rt, hrt, hrdef, -, hrholds⟩ := partitionOperator_eq_ok hacc.right_wellFormed
    (accepts_singleton hacc.right_column hacc.right_not_nullable) hp hpartR
  exact ⟨lt, rt, hlt, hrt, hldef, hrdef, hlholds, hrholds⟩

lemma of_partitionedJoin_eq_ok {ts : List (Table R)}
    (h : partitionedJoin multimap hashCombine op p sortLeft sortRight left right = .ok ts) :
    ∃ lt rt,
      partitionOperator hashCombine ⟨[op.predicate.columnIdLeft], p⟩ sortLeft left = .ok lt ∧
      partitionOperator hashCombine ⟨[op.predicate.columnIdRight], p⟩ sortRight right = .ok rt ∧
      ∀ i < p, ∃ t, HashJoin.hashJoin multimap op (partitionTable lt i) (partitionTable rt i) =
        .ok t := by
  simp only [partitionedJoin, bind, Except.bind] at h
  split at h
  · cases h
  · next lt hlt =>
    split at h
    · cases h
    · next rt hrt =>
      refine ⟨lt, rt, hlt, hrt, fun i hi => ?_⟩
      have hall := mapM_eq_ok_iff.mp h
      have hi' : i < ts.length := by rwa [← hall.length_eq, List.length_range]
      have hget := (List.forall₂_iff_get.mp hall).2 i (by simpa using hi) hi'
      exact ⟨_, by simpa using hget⟩

/-- **The partitioned join** has the same rows as the join of the whole inputs if and only if no
number of matching pairs is negative as a signed 32-bit number and no empty partition is sorted. -/
theorem partitionedJoin_isHashJoin_iff (hacc : op.Accepts left right) (hl : NoEmptyChunks left)
    (hr : NoEmptyChunks right) (hp : 0 < p) :
    (∃ ts t, partitionedJoin multimap hashCombine op p sortLeft sortRight left right = .ok ts ∧
      HashJoin.hashJoin multimap op left right = .ok t ∧ (ts.flatMap Table.rows).Perm t.rows) ↔
    Succeeds hashCombine op p sortLeft sortRight left right := by
  constructor
  · rintro ⟨ts, t, hts, ht, -⟩
    obtain ⟨lt, rt, hlt, hrt, hjoins⟩ := of_partitionedJoin_eq_ok hts
    have hsortLeft : sortLeft = true →
        ∀ i < p, partitionRows hashCombine p op.predicate.columnIdLeft left i ≠ [] := by
      have hpart := partitionable_of_eq_ok hacc.left_wellFormed
        (accepts_singleton hacc.left_column hacc.left_not_nullable) hp hlt
      exact fun hflag i hi => partitionRows_ne_nil hacc.left_wellFormed hacc.left_nonNull
        hacc.left_column hpart hflag hi
    have hsortRight : sortRight = true →
        ∀ i < p, partitionRows hashCombine p op.predicate.columnIdRight right i ≠ [] := by
      have hpart := partitionable_of_eq_ok hacc.right_wellFormed
        (accepts_singleton hacc.right_column hacc.right_not_nullable) hp hrt
      exact fun hflag i hi => partitionRows_ne_nil hacc.right_wellFormed hacc.right_nonNull
        hacc.right_column hpart hflag hi
    obtain ⟨lt', rt', hlt', hrt', hparts⟩ := exists_partitioned hacc hl hr hp hsortLeft hsortRight
    obtain rfl : lt = lt' := Except.ok.inj (hlt.symm.trans hlt')
    obtain rfl : rt = rt' := Except.ok.inj (hrt.symm.trans hrt')
    refine ⟨HashJoin.count_of_eq_ok hacc ht, fun i hi => ?_, hsortLeft, hsortRight⟩
    rw [← hparts.matchCount hacc hi]
    obtain ⟨t', ht'⟩ := hjoins i hi
    exact HashJoin.count_of_eq_ok (hparts.accepts hacc hi) ht'
  · intro h
    obtain ⟨lt, rt, hlt, hrt, hparts⟩ := exists_partitioned hacc hl hr hp h.left h.right
    obtain ⟨t, ht, hrows⟩ := HashJoin.hashJoin_eq_ok multimap hacc h.whole
    obtain ⟨ts, hts, hall⟩ := exists_mapM_eq_ok (List.range p)
      (f := fun i => HashJoin.hashJoin multimap op (partitionTable lt i) (partitionTable rt i))
      fun i hi => hparts.hashJoin_eq_ok multimap hacc (List.mem_range.mp hi)
        (h.parts i (List.mem_range.mp hi))
    refine ⟨ts, t, ?_, ht, ?_⟩
    · simp only [partitionedJoin, hlt, hrt, bind, Except.bind, hts]
    · have hunion := equiJoin_partition hashCombine op.predicate op.joinMode
        left.getColumnCount right.getColumnCount hp left right
      exact (List.flatMap_perm_of_forall₂ hall).trans (hunion.trans hrows.symm)

/-- Two partitions, those of the left input sorted, with a key that only one side has. -/
theorem partitionedJoin_isHashJoin_outer :
    ∃ ts t, partitionedJoin (.insertionOrder _ _) addInt (.onFirstColumns .fullOuter rfl) 2 true
        false (.ofInts "a" [[2, 1], [2]]) (.ofInts "b" [[2, 4]]) = .ok ts ∧
      HashJoin.hashJoin (.insertionOrder _ _) (.onFirstColumns .fullOuter rfl)
        (.ofInts "a" [[2, 1], [2]]) (.ofInts "b" [[2, 4]]) = .ok t ∧
      (ts.flatMap Table.rows).Perm t.rows :=
  (partitionedJoin_isHashJoin_iff (accepts_ofInts rfl) (noEmptyChunks_ofInts (by decide))
    (noEmptyChunks_ofInts (by decide)) (by decide)).mpr
    ⟨by decide +kernel, by decide +kernel, fun _ => by decide +kernel, fun h => nomatch h⟩

/-- With one partition, neither join of `2 ^ 16` with `2 ^ 15` rows that all have the same key has a
result. -/
theorem partitionedJoin_fails_on_repeated_keys :
    let op := AbstractJoinOperator.onFirstColumns .inner rfl
    let left : Table ℚ := .ofInts "a" [List.replicate (2 ^ 16) 0]
    let right : Table ℚ := .ofInts "b" [List.replicate (2 ^ 15) 0]
    op.Accepts left right ∧ NoEmptyChunks left ∧ NoEmptyChunks right ∧
      ¬ ∃ ts t, partitionedJoin (.insertionOrder _ _) addInt op 1 false false left right = .ok ts ∧
        HashJoin.hashJoin (.insertionOrder _ _) op left right = .ok t ∧
        (ts.flatMap Table.rows).Perm t.rows := by
  intro op left right
  have hacc : op.Accepts left right := accepts_ofInts rfl
  have hcount : matchCount op.predicate left.rows right.rows = 2 ^ 16 * 2 ^ 15 :=
    matchCount_replicate rfl 0 (2 ^ 16) (2 ^ 15)
  have hreplicate : ∀ n : ℕ, n ≠ 0 → [] ∉ [List.replicate n (0 : Int32)] := by
    intro n hn hmem
    have hlen := congrArg List.length (List.mem_singleton.mp hmem)
    rw [List.length_nil, List.length_replicate] at hlen
    exact hn hlen.symm
  refine ⟨hacc, noEmptyChunks_ofInts (hreplicate _ (by decide)),
    noEmptyChunks_ofInts (hreplicate _ (by decide)), ?_⟩
  rintro ⟨ts, t, -, ht, -⟩
  have hlt := HashJoin.count_of_eq_ok hacc ht
  rw [hcount] at hlt
  exact absurd hlt (by decide)

end PartitionedJoin

end Skyrise

/-
The common part of the join operators.

A join operator first fills position lists: for every chunk of table B the pairs
of a row of table A and an offset in the chunk that match, and the rows of either
table without a partner.  Of the two tables A and B one is the left and one the
right input; which one is up to the algorithm that fills the lists.  From the
lists the result is materialised column by column: one chunk with the matches
and, for the outer joins, one chunk for each side that is preserved.

The algorithms differ in how they fill the lists only.  `JoinState.Filled` says
what they have to achieve, and `onExecute_of_filled` that then the result is the
SQL join `equiJoin` of the two inputs, unless the number of matches is one that a
C++ `int` holds as a negative number.
-/
import Skyrise.Relational.Join
import Skyrise.Storage.Table
import Skyrise.Types
import Skyrise.Utils.Assert
import Skyrise.Utils.List

namespace Skyrise

variable {R : Type}

/-! ### Modes, predicates and operators -/

/-- The kind of a join. -/
inductive JoinMode where
  | antiNullAsFalse
  | antiNullAsTrue
  | cross
  | fullOuter
  | inner
  | leftOuter
  | rightOuter
  | semi
deriving DecidableEq, Repr

namespace JoinMode

/-- The modes that the join operators implement. -/
def isSupported (mode : JoinMode) : Bool :=
  mode == inner || mode == leftOuter || mode == rightOuter || mode == fullOuter

/-- Whether the rows of the left table without a partner are part of the result. -/
def preservesLeft (mode : JoinMode) : Bool := mode == leftOuter || mode == fullOuter

/-- Whether the rows of the right table without a partner are part of the result. -/
def preservesRight (mode : JoinMode) : Bool := mode == rightOuter || mode == fullOuter

end JoinMode

/-- The columns of the two inputs that are compared, and how. -/
structure JoinOperatorPredicate where
  columnIdLeft : ℕ
  columnIdRight : ℕ
  predicateCondition : PredicateCondition
deriving DecidableEq, Repr

/-- A join operator that was constructed, so that it passed the assertions of the constructor. -/
structure AbstractJoinOperator where
  predicate : JoinOperatorPredicate
  joinMode : JoinMode
  condition_eq : predicate.predicateCondition = .equals
  mode_supported : joinMode.isSupported = true
deriving DecidableEq, Repr

/-- The constructor of the join operators. -/
def AbstractJoinOperator.make (predicate : JoinOperatorPredicate) (joinMode : JoinMode) :
    Except Exception AbstractJoinOperator :=
  if hcond : predicate.predicateCondition = .equals then
    if hmode : joinMode.isSupported = true then .ok ⟨predicate, joinMode, hcond, hmode⟩
    else .error (.assertionFailed
      "JoinOperator only supports Inner, LeftOuter, RightOuter, and FullOuter Joins.")
  else .error (.assertionFailed "JoinOperator only supports Equi-Joins.")

/-! ### Position lists -/

/-- What a join operator keeps while it runs.  `positionLists` has an entry for every chunk of
table B, a list of pairs of a row of table A and an offset in the chunk.  `danglingTuplesTableA`
says for every row of table A whether it is still without a partner, and
`danglingTuplesTableBOffsets` lists for every chunk of table B the offsets of the rows without a
partner. -/
structure JoinState where
  tableAMatchesLeft : Bool
  positionLists : List (List (RowId × ℕ))
  danglingTuplesTableA : List (List Bool)
  danglingTuplesTableACount : ℕ
  danglingTuplesTableBOffsets : List (List ℕ)
  danglingTuplesTableBCount : ℕ
deriving DecidableEq, Repr

namespace JoinState

/-- Table A of the two inputs. -/
def tableA (st : JoinState) (left right : Table R) : Table R :=
  if st.tableAMatchesLeft then left else right

/-- Table B of the two inputs. -/
def tableB (st : JoinState) (left right : Table R) : Table R :=
  if st.tableAMatchesLeft then right else left

/-- Whether a row of table A has no partner so far. -/
def isDanglingA (st : JoinState) (id : RowId) : Bool :=
  (st.danglingTuplesTableA.getD id.chunkId []).getD id.chunkOffset false

/-- The matching rows of table A and table B. -/
def pairs (st : JoinState) : List (RowId × RowId) :=
  st.positionLists.zipIdx.flatMap fun pl => pl.1.map fun position =>
    (position.1, RowId.mk pl.2 position.2)

/-- The rows of table B without a partner. -/
def danglingB (st : JoinState) : List RowId :=
  st.danglingTuplesTableBOffsets.zipIdx.flatMap fun offsets => offsets.1.map (RowId.mk offsets.2)

end JoinState

/-! ### Materialisation -/

/-- The values of a column of table A in the matches. -/
def tableASideOfMatchedTuples [Zero R] (tableA : Table R) (st : JoinState) (columnId : ℕ) :
    List (Value R) :=
  st.positionLists.flatMap fun positionList =>
    positionList.map fun position => tableA.storedAt columnId position.1

/-- The values of a column of table B in the matches. -/
def tableBSideOfMatchedTuples [Zero R] (tableB : Table R) (st : JoinState) (columnId : ℕ) :
    List (Value R) :=
  (List.range tableB.chunkCount).flatMap fun j =>
    (st.positionLists.getD j []).map fun position => tableB.storedAt columnId ⟨j, position.2⟩

/-- `reserve` with a capacity that was an `int`: as a `size_t`, a negative one is beyond every
maximum. -/
def reserve (rowCount : ℤ) : Except Exception Unit :=
  if rowCount < 0 then .error .lengthError else .ok ()

/-- The columns of one table in the matches.  Every column reserves its space first. -/
def materializeSideOfMatchedTuples (table : Table R) (resultRowCount : ℤ)
    (values : ℕ → List (Value R)) : Except Exception (List (ValueSegment R)) :=
  (List.range table.getColumnCount).mapM fun i => do
    reserve resultRowCount
    return .ofValues (table.columnDataType i) (values i)

/-- The columns of table A in the matches. -/
def materializeTableASideOfMatchedTuples [Zero R] (tableA : Table R) (st : JoinState)
    (resultRowCount : ℤ) : Except Exception (List (ValueSegment R)) :=
  materializeSideOfMatchedTuples tableA resultRowCount (tableASideOfMatchedTuples tableA st)

/-- The columns of table B in the matches. -/
def materializeTableBSideOfMatchedTuples [Zero R] (tableB : Table R) (st : JoinState)
    (resultRowCount : ℤ) : Except Exception (List (ValueSegment R)) :=
  materializeSideOfMatchedTuples tableB resultRowCount (tableBSideOfMatchedTuples tableB st)

/-- The columns of the left input in the matches. -/
def materializeLeftSideOfMatchedTuples [Zero R] (left right : Table R) (st : JoinState)
    (resultRowCount : ℤ) : Except Exception (List (ValueSegment R)) :=
  if st.tableAMatchesLeft then
    materializeTableASideOfMatchedTuples (st.tableA left right) st resultRowCount
  else materializeTableBSideOfMatchedTuples (st.tableB left right) st resultRowCount

/-- The columns of the right input in the matches. -/
def materializeRightSideOfMatchedTuples [Zero R] (left right : Table R) (st : JoinState)
    (resultRowCount : ℤ) : Except Exception (List (ValueSegment R)) :=
  if st.tableAMatchesLeft then
    materializeTableBSideOfMatchedTuples (st.tableB left right) st resultRowCount
  else materializeTableASideOfMatchedTuples (st.tableA left right) st resultRowCount

/-- The chunk of the matches. -/
def materializeMatches [Zero R] (left right : Table R) (st : JoinState) (resultRowCount : ℤ) :
    Except Exception (Chunk R) := do
  assert (st.danglingTuplesTableBOffsets.length == (st.tableB left right).chunkCount)
    "PositionLists must be filled before materialization."
  let leftSegments ← materializeLeftSideOfMatchedTuples left right st resultRowCount
  let rightSegments ← materializeRightSideOfMatchedTuples left right st resultRowCount
  return ⟨leftSegments ++ rightSegments⟩

/-- For every column of the table a segment of NULLs. -/
def nullFilledSegmentsForRowsOfTable [Zero R] (table : Table R) (rowCount : ℕ) :
    List (ValueSegment R) :=
  (List.range table.getColumnCount).map fun i =>
    .ofNullable (table.columnDataType i)
      (List.replicate rowCount (table.columnDataType i).defaultValue)
      (List.replicate rowCount true)

/-- The chunk of the rows of table A without a partner.  The values are read from the left input,
which is table A whenever this is called. -/
def materializeDanglingTuplesOfTableA [Zero R] (left right : Table R) (st : JoinState) : Chunk R :=
  let nulls := nullFilledSegmentsForRowsOfTable (st.tableB left right) st.danglingTuplesTableACount
  let dangling := (List.range left.getColumnCount).map fun i =>
    .ofValues (left.columnDataType i) <| (List.range left.chunkCount).flatMap fun j =>
      ((List.range (left.getChunk j).size).filter fun k => st.isDanglingA ⟨j, k⟩).map fun k =>
        left.storedAt i ⟨j, k⟩
  ⟨(if st.tableAMatchesLeft then [] else nulls) ++ dangling ++
    (if st.tableAMatchesLeft then nulls else [])⟩

/-- The chunk of the rows of table B without a partner.  The values are read from the right input,
which is table B whenever this is called. -/
def materializeDanglingTuplesOfTableB [Zero R] (left right : Table R) (st : JoinState) : Chunk R :=
  let nulls := nullFilledSegmentsForRowsOfTable (st.tableA left right) st.danglingTuplesTableBCount
  let dangling := (List.range right.getColumnCount).map fun i =>
    .ofValues (right.columnDataType i) <| (List.range right.chunkCount).flatMap fun k =>
      (st.danglingTuplesTableBOffsets.getD k []).map fun offset => right.storedAt i ⟨k, offset⟩
  ⟨(if st.tableAMatchesLeft then nulls else []) ++ dangling ++
    (if st.tableAMatchesLeft then [] else nulls)⟩

/-- The chunk of the rows of the left input without a partner. -/
def materializeDanglingTuplesOfLeftTable [Zero R] (left right : Table R) (st : JoinState) :
    Chunk R :=
  if st.tableAMatchesLeft then materializeDanglingTuplesOfTableA left right st
  else materializeDanglingTuplesOfTableB left right st

/-- The chunk of the rows of the right input without a partner. -/
def materializeDanglingTuplesOfRightTable [Zero R] (left right : Table R) (st : JoinState) :
    Chunk R :=
  if st.tableAMatchesLeft then materializeDanglingTuplesOfTableB left right st
  else materializeDanglingTuplesOfTableA left right st

/-- The number of matches.  The sum is accumulated in an `int`. -/
def computeResultRowCount (positionLists : List (List (RowId × ℕ))) : ℤ :=
  positionLists.foldl (fun sum positionList => (sum + positionList.length).bmod (2 ^ 32)) 0

namespace AbstractJoinOperator

/-- The column definitions of the left input, nullable if the right input is preserved. -/
def buildLeftSchema (op : AbstractJoinOperator) (left : Table R) : List TableColumnDefinition :=
  if op.joinMode == .rightOuter || op.joinMode == .fullOuter then
    left.columnDefinitions.map fun column => { column with nullable := true }
  else left.columnDefinitions

/-- The column definitions of the right input, nullable if the left input is preserved. -/
def buildRightSchema (op : AbstractJoinOperator) (right : Table R) : List TableColumnDefinition :=
  if op.joinMode == .leftOuter || op.joinMode == .fullOuter then
    right.columnDefinitions.map fun column => { column with nullable := true }
  else right.columnDefinitions

/-- The run of a join operator, with the algorithm that fills the position lists as a parameter. -/
def onExecute [Zero R] (op : AbstractJoinOperator)
    (fillPositionLists : Table R → Table R → Except Exception JoinState) (left right : Table R) :
    Except Exception (Table R) := do
  assert (!left.columnIsNullable op.predicate.columnIdLeft &&
      !right.columnIsNullable op.predicate.columnIdRight)
    "JoinOperator does not support nullable columns."
  assert (left.columnDataType op.predicate.columnIdLeft ==
      right.columnDataType op.predicate.columnIdRight)
    "Left and right join column must have the same type."
  let st ← fillPositionLists left right
  let matched ← materializeMatches left right st (computeResultRowCount st.positionLists)
  let danglingLeft :=
    if op.joinMode == .leftOuter || op.joinMode == .fullOuter then
      [materializeDanglingTuplesOfLeftTable left right st]
    else []
  let danglingRight :=
    if op.joinMode == .rightOuter || op.joinMode == .fullOuter then
      [materializeDanglingTuplesOfRightTable left right st]
    else []
  return ⟨op.buildLeftSchema left ++ op.buildRightSchema right,
    matched :: (danglingLeft ++ danglingRight)⟩

end AbstractJoinOperator

/-! ### The SQL join -/

section EquiJoin

variable [DecidableEq R]

/-- Whether two rows agree in the join columns; NULL agrees with nothing. -/
def rowsMatch (predicate : JoinOperatorPredicate) (l r : List (AllTypeVariant R)) : Bool :=
  (l.getD predicate.columnIdLeft none).isSome &&
    decide (l.getD predicate.columnIdLeft none = r.getD predicate.columnIdRight none)

/-- The SQL join of two lists of rows with `leftColumnCount` and `rightColumnCount` columns: the
matching rows side by side, and each row of a preserved side without a partner once, with NULLs for
the columns of the other side. -/
def equiJoin (predicate : JoinOperatorPredicate) (mode : JoinMode)
    (leftColumnCount rightColumnCount : ℕ) (l r : List (List (AllTypeVariant R))) :
    List (List (AllTypeVariant R)) :=
  Relational.outerJoin mode.preservesLeft mode.preservesRight (rowsMatch predicate)
    (fun a b => a ++ b) (fun a => a ++ List.replicate rightColumnCount none)
    (fun b => List.replicate leftColumnCount none ++ b) l r

/-- The number of pairs of a left and a right row that match. -/
def matchCount (predicate : JoinOperatorPredicate) (l r : List (List (AllTypeVariant R))) : ℕ :=
  (Relational.innerJoin (rowsMatch predicate) l r).length

lemma equiJoin_perm {predicate : JoinOperatorPredicate} {mode : JoinMode} {m n : ℕ}
    {l l' r r' : List (List (AllTypeVariant R))} (hl : l.Perm l') (hr : r.Perm r') :
    (equiJoin predicate mode m n l r).Perm (equiJoin predicate mode m n l' r') :=
  Relational.outerJoin_perm hl hr

lemma matchCount_perm {predicate : JoinOperatorPredicate}
    {l l' r r' : List (List (AllTypeVariant R))} (hl : l.Perm l') (hr : r.Perm r') :
    matchCount predicate l r = matchCount predicate l' r' :=
  (Relational.innerJoin_perm hl hr).length_eq

end EquiJoin

/-- Two inputs that the operator accepts: well-formed tables without NULLs, whose join columns
exist, are not declared nullable and have the same type. -/
structure AbstractJoinOperator.Accepts (op : AbstractJoinOperator) (left right : Table R) :
    Prop where
  left_wellFormed : left.WellFormed
  right_wellFormed : right.WellFormed
  left_nonNull : left.NonNull
  right_nonNull : right.NonNull
  left_column : op.predicate.columnIdLeft < left.getColumnCount
  right_column : op.predicate.columnIdRight < right.getColumnCount
  left_not_nullable : left.columnIsNullable op.predicate.columnIdLeft = false
  right_not_nullable : right.columnIsNullable op.predicate.columnIdRight = false
  same_type : left.columnDataType op.predicate.columnIdLeft =
    right.columnDataType op.predicate.columnIdRight

/-! ### Correctness of the materialisation -/

section Materialization

lemma materializeSideOfMatchedTuples_eq_ok {π : Type*} (table : Table R) {rowCount : ℤ}
    (h : 0 ≤ rowCount) (ps : List π) (f : ℕ → π → Value R) :
    materializeSideOfMatchedTuples table rowCount (fun i => ps.map (f i)) =
      .ok ((List.range table.getColumnCount).map fun i =>
        .ofValues (table.columnDataType i) (ps.map (f i))) := by
  refine mapM_eq_ok fun i _ => ?_
  rw [reserve, if_neg (not_lt.mpr h)]
  rfl

lemma materializeSideOfMatchedTuples_eq_error {table : Table R} (hcol : 0 < table.getColumnCount)
    {rowCount : ℤ} (h : rowCount < 0) (values : ℕ → List (Value R)) :
    materializeSideOfMatchedTuples table rowCount values = .error .lengthError := by
  refine mapM_eq_error (by simpa using hcol.ne') fun i _ => ?_
  rw [reserve, if_pos h]
  rfl

/-- The number of matches, as the program counts it. -/
lemma computeResultRowCount_eq (st : JoinState) :
    computeResultRowCount st.positionLists = (st.pairs.length : ℤ).bmod (2 ^ 32) := by
  have h := List.foldl_bmod List.length (2 ^ 32) st.positionLists 0
  rw [Int.zero_bmod, zero_add] at h
  rw [computeResultRowCount, h, JoinState.pairs, List.length_flatMap]
  simp only [List.length_map]
  conv_lhs => rw [← List.zipIdx_map_fst 0 st.positionLists]
  rw [List.map_map]
  rfl

/-- The rows of a chunk that has, for every column of two tables, the cells that a function of the
column gives along one list of positions. -/
lemma Chunk.rows_eq_of_append {π : Type*} {c : Chunk R} (ps : List π) {m n : ℕ} (hm : 0 < m)
    {f g : ℕ → π → AllTypeVariant R}
    (h : c.segments.map ValueSegment.cells = ((List.range m).map fun i => ps.map (f i)) ++
      (List.range n).map fun i => ps.map (g i)) :
    c.rows = ps.map fun p => ((List.range m).map fun i => f i p) ++
      (List.range n).map fun i => g i p := by
  have hne : (List.range m).map f ++ (List.range n).map g ≠ [] := by
    simp [hm.ne']
  rw [Chunk.rows_eq_map_of_cells ps hne (by simpa [Function.comp_def] using h)]
  simp [Function.comp_def]

variable [Zero R]

lemma tableASideOfMatchedTuples_eq (tableA : Table R) (st : JoinState) (i : ℕ) :
    tableASideOfMatchedTuples tableA st i = st.pairs.map fun ab => tableA.storedAt i ab.1 := by
  rw [tableASideOfMatchedTuples, ← List.flatMap_zipIdx, JoinState.pairs, List.map_flatMap]
  simp [Function.comp_def]

lemma tableBSideOfMatchedTuples_eq {tableB : Table R} {st : JoinState}
    (h : st.positionLists.length = tableB.chunkCount) (i : ℕ) :
    tableBSideOfMatchedTuples tableB st i = st.pairs.map fun ab => tableB.storedAt i ab.2 := by
  rw [tableBSideOfMatchedTuples, JoinState.pairs, List.zipIdx_eq_map_range st.positionLists [], h,
    List.flatMap_map, List.map_flatMap]
  simp [Function.comp_def]

/-- The matching rows of the left and the right input. -/
def JoinState.matchedRows (st : JoinState) : List (RowId × RowId) :=
  if st.tableAMatchesLeft then st.pairs else st.pairs.map Prod.swap

lemma materializeLeftSideOfMatchedTuples_eq {left right : Table R} {st : JoinState} {rowCount : ℤ}
    (hlen : st.positionLists.length = (st.tableB left right).chunkCount) (h : 0 ≤ rowCount) :
    materializeLeftSideOfMatchedTuples left right st rowCount =
      .ok ((List.range left.getColumnCount).map fun i => .ofValues (left.columnDataType i)
        (st.matchedRows.map fun lr => left.storedAt i lr.1)) := by
  by_cases hflag : st.tableAMatchesLeft = true
  · have hA : st.tableA left right = left := if_pos hflag
    rw [materializeLeftSideOfMatchedTuples, JoinState.matchedRows, if_pos hflag, if_pos hflag, hA,
      materializeTableASideOfMatchedTuples, funext (tableASideOfMatchedTuples_eq left st)]
    rw [materializeSideOfMatchedTuples_eq_ok left h st.pairs fun i ab => left.storedAt i ab.1]
  · have hB : st.tableB left right = left := if_neg hflag
    rw [hB] at hlen
    rw [materializeLeftSideOfMatchedTuples, JoinState.matchedRows, if_neg hflag, if_neg hflag, hB,
      materializeTableBSideOfMatchedTuples, funext (tableBSideOfMatchedTuples_eq hlen)]
    rw [materializeSideOfMatchedTuples_eq_ok left h st.pairs fun i ab => left.storedAt i ab.2]
    simp only [List.map_map, Function.comp_def, Prod.fst_swap]

lemma materializeRightSideOfMatchedTuples_eq {left right : Table R} {st : JoinState} {rowCount : ℤ}
    (hlen : st.positionLists.length = (st.tableB left right).chunkCount) (h : 0 ≤ rowCount) :
    materializeRightSideOfMatchedTuples left right st rowCount =
      .ok ((List.range right.getColumnCount).map fun i => .ofValues (right.columnDataType i)
        (st.matchedRows.map fun lr => right.storedAt i lr.2)) := by
  by_cases hflag : st.tableAMatchesLeft = true
  · have hB : st.tableB left right = right := if_pos hflag
    rw [hB] at hlen
    rw [materializeRightSideOfMatchedTuples, JoinState.matchedRows, if_pos hflag, if_pos hflag, hB,
      materializeTableBSideOfMatchedTuples, funext (tableBSideOfMatchedTuples_eq hlen)]
    rw [materializeSideOfMatchedTuples_eq_ok right h st.pairs fun i ab => right.storedAt i ab.2]
  · have hA : st.tableA left right = right := if_neg hflag
    rw [materializeRightSideOfMatchedTuples, JoinState.matchedRows, if_neg hflag, if_neg hflag, hA,
      materializeTableASideOfMatchedTuples, funext (tableASideOfMatchedTuples_eq right st)]
    rw [materializeSideOfMatchedTuples_eq_ok right h st.pairs fun i ab => right.storedAt i ab.1]
    simp only [List.map_map, Function.comp_def, Prod.snd_swap]

lemma materializeLeftSideOfMatchedTuples_eq_error {left right : Table R} (st : JoinState)
    {rowCount : ℤ} (hcol : 0 < left.getColumnCount) (h : rowCount < 0) :
    materializeLeftSideOfMatchedTuples left right st rowCount = .error .lengthError := by
  unfold materializeLeftSideOfMatchedTuples
  split
  · next hflag =>
    have hA : st.tableA left right = left := if_pos hflag
    rw [hA]
    exact materializeSideOfMatchedTuples_eq_error hcol h _
  · next hflag =>
    have hB : st.tableB left right = left := if_neg hflag
    rw [hB]
    exact materializeSideOfMatchedTuples_eq_error hcol h _

/-- The chunk of the matches has the matching rows side by side. -/
lemma materializeMatches_eq_ok {left right : Table R} {st : JoinState} {rowCount : ℤ}
    (hcol : 0 < left.getColumnCount)
    (hlen : st.positionLists.length = (st.tableB left right).chunkCount)
    (hdangling : st.danglingTuplesTableBOffsets.length = (st.tableB left right).chunkCount)
    (h : 0 ≤ rowCount) : ∃ c, materializeMatches left right st rowCount = .ok c ∧
      c.rows = st.matchedRows.map fun lr => left.storedRow lr.1 ++ right.storedRow lr.2 := by
  refine ⟨⟨((List.range left.getColumnCount).map fun i => .ofValues (left.columnDataType i)
      (st.matchedRows.map fun lr => left.storedAt i lr.1)) ++
    (List.range right.getColumnCount).map fun i => .ofValues (right.columnDataType i)
      (st.matchedRows.map fun lr => right.storedAt i lr.2)⟩, ?_, ?_⟩
  · rw [materializeMatches, materializeLeftSideOfMatchedTuples_eq hlen h,
      materializeRightSideOfMatchedTuples_eq hlen h, hdangling, beq_self_eq_true, assert_true]
    rfl
  · refine Chunk.rows_eq_of_append _ hcol (f := fun i (lr : RowId × RowId) => some (left.storedAt i lr.1))
      (g := fun i lr => some (right.storedAt i lr.2)) ?_
    simp [ValueSegment.cells_ofValues, Function.comp_def]

lemma materializeMatches_eq_error {left right : Table R} {st : JoinState} {rowCount : ℤ}
    (hcol : 0 < left.getColumnCount)
    (hdangling : st.danglingTuplesTableBOffsets.length = (st.tableB left right).chunkCount)
    (h : rowCount < 0) : materializeMatches left right st rowCount = .error .lengthError := by
  rw [materializeMatches, materializeLeftSideOfMatchedTuples_eq_error st hcol h, hdangling,
    beq_self_eq_true, assert_true]
  rfl

/-- A state whose position lists fit the chunks of table B and name rows of both inputs. -/
structure JoinState.Fits (st : JoinState) (left right : Table R) : Prop where
  length_positionLists : st.positionLists.length = (st.tableB left right).chunkCount
  length_danglingB : st.danglingTuplesTableBOffsets.length = (st.tableB left right).chunkCount
  matchedRows : ∀ lr ∈ st.matchedRows, lr.1 ∈ left.rowIds ∧ lr.2 ∈ right.rowIds

/-- The chunk of the matches has the matching rows if and only if none of them has a NULL, and the
number of matches is not counted as a negative one. -/
lemma materializeMatches_eq_ok_iff {left right : Table R} {st : JoinState}
    (hl : left.WellFormed) (hr : right.WellFormed) (hcol : 0 < left.getColumnCount)
    (hst : st.Fits left right) :
    (∃ c, materializeMatches left right st (computeResultRowCount st.positionLists) = .ok c ∧
        c.rows = st.matchedRows.map fun lr => left.rowAt lr.1 ++ right.rowAt lr.2) ↔
      0 ≤ computeResultRowCount st.positionLists ∧
        ∀ lr ∈ st.matchedRows, left.NonNullAt lr.1 ∧ right.NonNullAt lr.2 := by
  -- side by side, the stored rows are the rows if and only if both of them are
  have hrow : ∀ lr ∈ st.matchedRows,
      left.storedRow lr.1 ++ right.storedRow lr.2 = left.rowAt lr.1 ++ right.rowAt lr.2 ↔
        left.NonNullAt lr.1 ∧ right.NonNullAt lr.2 := by
    intro lr hlr
    obtain ⟨hlmem, hrmem⟩ := hst.matchedRows lr hlr
    rw [← hl.rowAt_eq_storedRow_iff hlmem, ← hr.rowAt_eq_storedRow_iff hrmem]
    have hlen : (left.storedRow lr.1).length = (left.rowAt lr.1).length := by
      rw [hl.rowAt_eq hlmem, Table.storedRow, List.length_map, List.length_map]
    constructor
    · intro heq
      obtain ⟨hleft, hright⟩ := List.append_inj heq hlen
      exact ⟨hleft.symm, hright.symm⟩
    · rintro ⟨hleft, hright⟩
      rw [hleft, hright]
  by_cases hcount : 0 ≤ computeResultRowCount st.positionLists
  · obtain ⟨c, hc, hrows⟩ :=
      materializeMatches_eq_ok hcol hst.length_positionLists hst.length_danglingB hcount
    constructor
    · rintro ⟨c', hc', hrows'⟩
      obtain rfl : c = c' := Except.ok.inj (hc.symm.trans hc')
      rw [hrows, List.map_inj_left] at hrows'
      exact ⟨hcount, fun lr hlr => (hrow lr hlr).mp (hrows' lr hlr)⟩
    · rintro ⟨-, hnn⟩
      refine ⟨c, hc, hrows.trans (List.map_congr_left fun lr hlr => ?_)⟩
      exact (hrow lr hlr).mpr (hnn lr hlr)
  · have herror : materializeMatches left right st (computeResultRowCount st.positionLists) =
        .error .lengthError :=
      materializeMatches_eq_error hcol hst.length_danglingB (not_le.mp hcount)
    refine iff_of_false ?_ fun h => hcount h.1
    rintro ⟨c, hc, -⟩
    rw [herror] at hc
    cases hc

lemma cells_nullFilledSegments {π : Type*} (table : Table R) (ps : List π) :
    (nullFilledSegmentsForRowsOfTable table ps.length).map ValueSegment.cells =
      (List.range table.getColumnCount).map fun _ => ps.map fun _ => none := by
  simp only [nullFilledSegmentsForRowsOfTable, ← List.map_const', List.map_map]
  refine List.map_congr_left fun i _ => ?_
  exact ValueSegment.cells_ofNullable_map _ ps (fun _ => _) fun _ => true

/-- The values that are collected along the flags are those of the rows without a partner. -/
lemma flatMap_storedAt_danglingA (left : Table R) (st : JoinState) (i : ℕ) :
    ((List.range left.chunkCount).flatMap fun j =>
      ((List.range (left.getChunk j).size).filter fun k => st.isDanglingA ⟨j, k⟩).map fun k =>
        left.storedAt i ⟨j, k⟩) = (left.rowIds.filter st.isDanglingA).map (left.storedAt i) := by
  rw [Table.rowIds_eq_flatMap_range, List.filter_flatMap, List.map_flatMap]
  simp [Table.chunkRowIds, List.filter_map, Function.comp_def]

/-- The values that are collected along the offsets are those of the rows without a partner. -/
lemma flatMap_storedAt_danglingB {right : Table R} {st : JoinState}
    (hlen : st.danglingTuplesTableBOffsets.length = right.chunkCount) (i : ℕ) :
    ((List.range right.chunkCount).flatMap fun k =>
      (st.danglingTuplesTableBOffsets.getD k []).map fun offset => right.storedAt i ⟨k, offset⟩) =
        st.danglingB.map (right.storedAt i) := by
  rw [JoinState.danglingB, List.zipIdx_eq_map_range _ [], hlen, List.flatMap_map,
    List.map_flatMap]
  simp [Function.comp_def]

/-- The chunk of the left rows without a partner. -/
lemma rows_materializeDanglingTuplesOfLeftTable {left : Table R} (right : Table R) {st : JoinState}
    (hflag : st.tableAMatchesLeft = true) (hcol : 0 < left.getColumnCount)
    (hcount : st.danglingTuplesTableACount = (left.rowIds.filter st.isDanglingA).length) :
    (materializeDanglingTuplesOfLeftTable left right st).rows =
      (left.rowIds.filter st.isDanglingA).map fun id =>
        left.storedRow id ++ List.replicate right.getColumnCount none := by
  have hB : st.tableB left right = right := if_pos hflag
  rw [materializeDanglingTuplesOfLeftTable, if_pos hflag, materializeDanglingTuplesOfTableA, hB,
    hcount]
  simp only [hflag, if_true, flatMap_storedAt_danglingA, List.nil_append]
  rw [Chunk.rows_eq_of_append (left.rowIds.filter st.isDanglingA) hcol
    (f := fun i id => some (left.storedAt i id))
    (g := fun (_ : ℕ) _ => none) (n := right.getColumnCount)]
  · simp [Table.storedRow]
  · rw [List.map_append, cells_nullFilledSegments]
    simp [ValueSegment.cells_ofValues, Function.comp_def]

/-- The chunk of the right rows without a partner. -/
lemma rows_materializeDanglingTuplesOfRightTable {left right : Table R} {st : JoinState}
    (hflag : st.tableAMatchesLeft = true) (hcol : 0 < left.getColumnCount)
    (hlen : st.danglingTuplesTableBOffsets.length = right.chunkCount)
    (hcount : st.danglingTuplesTableBCount = st.danglingB.length) :
    (materializeDanglingTuplesOfRightTable left right st).rows =
      st.danglingB.map fun id =>
        List.replicate left.getColumnCount none ++ right.storedRow id := by
  have hA : st.tableA left right = left := if_pos hflag
  rw [materializeDanglingTuplesOfRightTable, if_pos hflag, materializeDanglingTuplesOfTableB, hA,
    hcount]
  simp only [hflag, if_true, flatMap_storedAt_danglingB hlen, List.append_nil]
  rw [Chunk.rows_eq_of_append st.danglingB hcol (f := fun (_ : ℕ) _ => none)
    (g := fun i id => some (right.storedAt i id)) (n := right.getColumnCount)]
  · simp [Table.storedRow]
  · rw [List.map_append, cells_nullFilledSegments]
    simp [ValueSegment.cells_ofValues, Function.comp_def]

/-! ### Correctness of the join operators -/

/-- Whether a left and a right row, given by their positions, have the same value in the join
columns. -/
def joinKeysEqual [DecidableEq R] (predicate : JoinOperatorPredicate) (left right : Table R)
    (l r : RowId) : Bool :=
  decide (left.storedAt predicate.columnIdLeft l = right.storedAt predicate.columnIdRight r)

/-- What the algorithms that fill the position lists have to achieve, for tables A and B and the
predicate on their rows: the position lists hold every matching pair once, and the rows without a
partner are known and counted. -/
structure JoinState.Filled (st : JoinState) (tableA tableB : Table R) (p : RowId → RowId → Bool) :
    Prop where
  length_positionLists : st.positionLists.length = tableB.chunkCount
  length_danglingB : st.danglingTuplesTableBOffsets.length = tableB.chunkCount
  pairs : st.pairs.Perm (Relational.innerJoin p tableA.rowIds tableB.rowIds)
  danglingA : tableA.rowIds.filter st.isDanglingA =
    Relational.danglingLeft p tableA.rowIds tableB.rowIds
  danglingACount : st.danglingTuplesTableACount =
    (Relational.danglingLeft p tableA.rowIds tableB.rowIds).length
  danglingB : st.danglingB = Relational.danglingRight p tableA.rowIds tableB.rowIds
  danglingBCount : st.danglingTuplesTableBCount =
    (Relational.danglingRight p tableA.rowIds tableB.rowIds).length

variable {op : AbstractJoinOperator} {left right : Table R} {st : JoinState}
  {fill : Table R → Table R → Except Exception JoinState}

/-- Once the position lists are filled, only the materialisation of the matches can fail. -/
lemma onExecute_eq_bind (hacc : op.Accepts left right) (hfill : fill left right = .ok st) :
    op.onExecute fill left right =
      (materializeMatches left right st (computeResultRowCount st.positionLists)).map fun matched =>
        ⟨op.buildLeftSchema left ++ op.buildRightSchema right, matched ::
          ((if op.joinMode.preservesLeft then [materializeDanglingTuplesOfLeftTable left right st]
            else []) ++
          (if op.joinMode.preservesRight then [materializeDanglingTuplesOfRightTable left right st]
            else []))⟩ := by
  rw [AbstractJoinOperator.onExecute, hacc.left_not_nullable, hacc.right_not_nullable,
    hacc.same_type, beq_self_eq_true, hfill]
  rfl

/-- A join operator that succeeds has filled the position lists. -/
lemma exists_of_onExecute_eq_ok {t : Table R} (h : op.onExecute fill left right = .ok t) :
    ∃ st, fill left right = .ok st := by
  rw [AbstractJoinOperator.onExecute] at h
  obtain ⟨-, -, h⟩ := exists_of_bind_eq_ok h
  obtain ⟨-, -, h⟩ := exists_of_bind_eq_ok h
  obtain ⟨st, hst, -⟩ := exists_of_bind_eq_ok h
  exact ⟨st, hst⟩

/-- The chunks of a result. -/
lemma of_onExecute_eq_ok (hfill : fill left right = .ok st) {t : Table R}
    (h : op.onExecute fill left right = .ok t) : ∃ matched,
      materializeMatches left right st (computeResultRowCount st.positionLists) = .ok matched ∧
        t.chunks = matched ::
          ((if op.joinMode.preservesLeft then [materializeDanglingTuplesOfLeftTable left right st]
            else []) ++
          (if op.joinMode.preservesRight then [materializeDanglingTuplesOfRightTable left right st]
            else [])) := by
  rw [AbstractJoinOperator.onExecute] at h
  obtain ⟨-, -, h⟩ := exists_of_bind_eq_ok h
  obtain ⟨-, -, h⟩ := exists_of_bind_eq_ok h
  rw [hfill] at h
  obtain ⟨matched, hmatched, h⟩ := exists_of_bind_eq_ok (x := materializeMatches _ _ _ _) h
  obtain rfl := Except.ok.inj h
  exact ⟨matched, hmatched, rfl⟩

/-- The predicate on the rows of tables A and B. -/
def JoinState.keysEqual [DecidableEq R] (st : JoinState) (predicate : JoinOperatorPredicate)
    (left right : Table R) (a b : RowId) : Bool :=
  if st.tableAMatchesLeft then joinKeysEqual predicate left right a b
  else joinKeysEqual predicate left right b a

variable [DecidableEq R]

lemma JoinState.keysEqual_of_left {predicate : JoinOperatorPredicate}
    (h : st.tableAMatchesLeft = true) :
    st.keysEqual predicate left right = joinKeysEqual predicate left right :=
  funext₂ fun _ _ => if_pos h

lemma JoinState.keysEqual_of_right {predicate : JoinOperatorPredicate}
    (h : ¬ st.tableAMatchesLeft = true) :
    st.keysEqual predicate left right = fun a b => joinKeysEqual predicate left right b a :=
  funext₂ fun _ _ => if_neg h

namespace AbstractJoinOperator.Accepts

lemma rowsMatch_rowAt (h : op.Accepts left right) {l r : RowId} (hl : l ∈ left.rowIds)
    (hr : r ∈ right.rowIds) : rowsMatch op.predicate (left.rowAt l) (right.rowAt r) =
      joinKeysEqual op.predicate left right l r := by
  have hcl := h.left_wellFormed.cellAt_eq_some_storedAt hl h.left_column
    (h.left_nonNull l hl _ h.left_column)
  have hcr := h.right_wellFormed.cellAt_eq_some_storedAt hr h.right_column
    (h.right_nonNull r hr _ h.right_column)
  rw [rowsMatch, h.left_wellFormed.getD_rowAt hl h.left_column,
    h.right_wellFormed.getD_rowAt hr h.right_column, hcl, hcr]
  simp [joinKeysEqual]

/-- The SQL join, in terms of the positions of the rows. -/
lemma equiJoin_rows (h : op.Accepts left right) :
    equiJoin op.predicate op.joinMode left.getColumnCount right.getColumnCount left.rows right.rows =
      Relational.outerJoin op.joinMode.preservesLeft op.joinMode.preservesRight
        (joinKeysEqual op.predicate left right) (fun l r => left.storedRow l ++ right.storedRow r)
        (fun l => left.storedRow l ++ List.replicate right.getColumnCount none)
        (fun r => List.replicate left.getColumnCount none ++ right.storedRow r)
        left.rowIds right.rowIds := by
  have hl : ∀ l ∈ left.rowIds, left.rowAt l = left.storedRow l := fun l =>
    h.left_wellFormed.rowAt_eq_storedRow h.left_nonNull
  have hr : ∀ r ∈ right.rowIds, right.rowAt r = right.storedRow r := fun r =>
    h.right_wellFormed.rowAt_eq_storedRow h.right_nonNull
  rw [equiJoin, Table.rows_eq_map_rowAt, Table.rows_eq_map_rowAt, Relational.outerJoin_map]
  refine Relational.outerJoin_congr (fun a ha b hb => h.rowsMatch_rowAt ha hb) ?_ ?_ ?_
  · intro a ha b hb
    rw [hl a ha, hr b hb]
  · intro a ha
    rw [hl a ha]
  · intro b hb
    rw [hr b hb]

lemma matchCount_rows (h : op.Accepts left right) :
    matchCount op.predicate left.rows right.rows =
      (Relational.innerJoin (joinKeysEqual op.predicate left right) left.rowIds
        right.rowIds).length := by
  rw [matchCount, Table.rows_eq_map_rowAt, Table.rows_eq_map_rowAt, Relational.innerJoin_map,
    List.length_map, Relational.innerJoin_congr fun a ha b hb => h.rowsMatch_rowAt ha hb]

end AbstractJoinOperator.Accepts

namespace JoinState.Filled

/-- The matching rows, with the left row first, are the inner join. -/
lemma matchedRows_perm (hst : st.Filled (st.tableA left right) (st.tableB left right)
    (st.keysEqual op.predicate left right)) :
    st.matchedRows.Perm (Relational.innerJoin (joinKeysEqual op.predicate left right) left.rowIds
      right.rowIds) := by
  have hpairs := hst.pairs
  by_cases hflag : st.tableAMatchesLeft = true
  · rw [tableA, tableB, if_pos hflag, if_pos hflag, keysEqual_of_left hflag] at hpairs
    rwa [matchedRows, if_pos hflag]
  · rw [tableA, tableB, if_neg hflag, if_neg hflag, keysEqual_of_right hflag] at hpairs
    rw [matchedRows, if_neg hflag]
    exact (hpairs.map Prod.swap).trans (Relational.innerJoin_swap _ _ _)

lemma length_pairs (hacc : op.Accepts left right)
    (hst : st.Filled (st.tableA left right) (st.tableB left right)
      (st.keysEqual op.predicate left right)) :
    st.pairs.length = matchCount op.predicate left.rows right.rows := by
  rw [hacc.matchCount_rows, ← hst.matchedRows_perm.length_eq, matchedRows]
  split <;> simp

end JoinState.Filled

lemma onExecute_eq_error (hacc : op.Accepts left right) (hfill : fill left right = .ok st)
    (hst : st.Filled (st.tableA left right) (st.tableB left right)
      (st.keysEqual op.predicate left right))
    (hcount : 2 ^ 31 ≤ matchCount op.predicate left.rows right.rows % 2 ^ 32) :
    op.onExecute fill left right = .error .lengthError := by
  have hneg : computeResultRowCount st.positionLists < 0 := by
    rw [computeResultRowCount_eq, hst.length_pairs hacc]
    exact (Nat.bmod_neg_iff _).mpr hcount
  rw [onExecute_eq_bind hacc hfill, materializeMatches_eq_error
    (Nat.zero_lt_of_lt hacc.left_column) hst.length_danglingB hneg]
  rfl

/-- Filled position lists give the SQL join. -/
lemma onExecute_eq_ok (hacc : op.Accepts left right) (hfill : fill left right = .ok st)
    (hst : st.Filled (st.tableA left right) (st.tableB left right)
      (st.keysEqual op.predicate left right))
    (hside : st.tableAMatchesLeft = true ∨ op.joinMode = .inner)
    (hcount : matchCount op.predicate left.rows right.rows % 2 ^ 32 < 2 ^ 31) :
    ∃ t, op.onExecute fill left right = .ok t ∧ t.rows.Perm
      (equiJoin op.predicate op.joinMode left.getColumnCount right.getColumnCount left.rows
        right.rows) := by
  have hcol : 0 < left.getColumnCount := Nat.zero_lt_of_lt hacc.left_column
  have hpos : 0 ≤ computeResultRowCount st.positionLists := by
    rw [computeResultRowCount_eq, hst.length_pairs hacc]
    exact not_lt.mp fun h => absurd ((Nat.bmod_neg_iff _).mp h) (not_le.mpr hcount)
  obtain ⟨c, hc, hrows⟩ := materializeMatches_eq_ok hcol hst.length_positionLists
    hst.length_danglingB hpos
  rw [onExecute_eq_bind hacc hfill, hc]
  refine ⟨_, rfl, ?_⟩
  rw [hacc.equiJoin_rows, Table.rows_mk_cons, hrows, Relational.outerJoin]
  refine (hst.matchedRows_perm.map _).append (List.Perm.of_eq ?_)
  rcases hside with hflag | hinner
  · -- table A is the left input, so that both dangling chunks are as in the definition of the join
    rw [JoinState.tableA, JoinState.tableB, if_pos hflag, if_pos hflag,
      JoinState.keysEqual_of_left hflag] at hst
    have hA := rows_materializeDanglingTuplesOfLeftTable right hflag hcol
      (hst.danglingACount.trans (congrArg List.length hst.danglingA).symm)
    have hB := rows_materializeDanglingTuplesOfRightTable hflag hcol hst.length_danglingB
      (hst.danglingBCount.trans (congrArg List.length hst.danglingB).symm)
    rw [hst.danglingA] at hA
    rw [hst.danglingB] at hB
    split <;> split <;> simp [Table.rows_mk_cons, hA, hB]
  · simp [hinner, JoinMode.preservesLeft, JoinMode.preservesRight]

end Materialization

/-! ### Joining tables of integers -/

/-- The equi-join of the first columns. -/
def AbstractJoinOperator.onFirstColumns (mode : JoinMode) (h : mode.isSupported = true) :
    AbstractJoinOperator :=
  ⟨⟨0, 0, .equals⟩, mode, rfl, h⟩

lemma accepts_ofInts {mode : JoinMode} (h : mode.isSupported = true) {m n : String}
    {ls rs : List (List Int32)} :
    (AbstractJoinOperator.onFirstColumns mode h).Accepts (Table.ofInts m ls : Table R)
      (Table.ofInts n rs) :=
  ⟨Table.wellFormed_ofInts, Table.wellFormed_ofInts, Table.nonNull_ofInts, Table.nonNull_ofInts,
    Nat.zero_lt_one, Nat.zero_lt_one, rfl, rfl, rfl⟩

/-- Where all rows have the same key, every pair of rows matches. -/
lemma matchCount_replicate [DecidableEq R] {mode : JoinMode} (h : mode.isSupported = true)
    {m n : String} (v : Int32) (k l : ℕ) :
    matchCount (AbstractJoinOperator.onFirstColumns mode h).predicate
      (Table.ofInts m [List.replicate k v] : Table R).rows
      (Table.ofInts n [List.replicate l v] : Table R).rows = k * l := by
  have hp : ∀ x ∈ List.replicate k v, ∀ y ∈ List.replicate l v,
      rowsMatch (AbstractJoinOperator.onFirstColumns mode h).predicate
        [some (Value.int (R := R) x)] [some (.int y)] = true := by
    intro x hx y hy
    rw [List.eq_of_mem_replicate hx, List.eq_of_mem_replicate hy]
    simp [rowsMatch, AbstractJoinOperator.onFirstColumns]
  rw [matchCount, Table.rows_ofInts, Table.rows_ofInts, Relational.innerJoin_map, List.length_map,
    List.flatten_singleton, List.flatten_singleton,
    Relational.innerJoin_congr (q := fun _ _ => true) hp, Relational.innerJoin]
  simp

end Skyrise

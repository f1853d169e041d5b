/-
Shuffles: rows that move from the fragments of one pipeline to those of another.

A producer partitions its rows and exports the partitions, one row group each.  A
consumer imports from the objects of all producers the row group that has the
number of its fragment.  The objects are read in the order in which they are
listed; the operator reads them concurrently, so only the bag of the rows matters.
-/
import Skyrise.Compiler.PipelineGenerator
import Skyrise.Operator.Partition
import Skyrise.Storage.Formats.ParquetWriter

namespace Skyrise

namespace Shuffle

open HashPartitioningFunction PartitionOperator PipelineGenerator

variable {R : Type}

/-- What a producer is given: the rows, and how they are partitioned. -/
structure Producer (R : Type) where
  table : Table R
  partitioningFunction : HashPartitioningFunction
  sortWithinPartition : Bool

section Run

variable [Zero R] [LinearOrder R] (memoryUsage : ValueSegment R → ℕ) (hashCombine : ℕ → Value R → ℕ)

/-- The row groups that a producer exports. -/
def Producer.export (p : Producer R) : Except Exception (List (RowGroup R)) := do
  let partitioned ←
    partitionOperator hashCombine p.partitioningFunction p.sortWithinPartition p.table
  return ParquetFormatWriter.writeRowGroups memoryUsage {} partitioned.chunks

end Run

/-- The rows of a row group. -/
def rowGroupRows (rowGroup : RowGroup R) : List (List (AllTypeVariant R)) :=
  rowGroup.flatMap Chunk.rows

/-- The rows that a reader returns, restricted to row groups if numbers of row groups are given.
Where there is no such row group, the message is the status that the library returns. -/
def readRows (rowGroups : List (RowGroup R)) (rowGroupIds : Option (List Int32)) :
    Except Exception (List (List (AllTypeVariant R))) :=
  match rowGroupIds with
  | none => .ok (rowGroups.flatMap rowGroupRows)
  | some ids => do
    let parts ← ids.mapM fun id =>
      if id < 0 then Except.error (.assertionFailed "Invalid row group")
      else match rowGroups[id.toNatClampNeg]? with
        | some rowGroup => .ok rowGroup
        | none => .error (.assertionFailed "Invalid row group")
    return parts.flatMap rowGroupRows

/-- Whether an object key ends with a file extension that is not all of it. -/
def specifiesFormat (objectKey fileExtension : Bytes) : Bool :=
  decide (fileExtension.length < objectKey.length) &&
    objectKey.drop (objectKey.length - fileExtension.length) == fileExtension

/-- The format of an object, by its key. -/
def importFormat (objectKey : Bytes) : Except Exception FileFormat :=
  if specifiesFormat objectKey ".csv" then .ok .csv
  else if specifiesFormat objectKey ".orc" then .ok .orc
  else if specifiesFormat objectKey ".parquet" then .ok .parquet
  else .error (.assertionFailed
    "Object key expected to have one of the following file extensions: .csv, .orc or .parquet.")

/-- The numbers of the row groups to which an import restricts its readers: the partitions of the
first object. -/
def rowGroupIds (objectReferences : List ObjectReference) : Except Exception (Option (List Int32)) :=
  match objectReferences with
  | [] => .error (.assertionFailed "ImportOperatorProxy must specify at least one object.")
  | r :: _ => do
    let format ← importFormat r.identifier
    return if format = .parquet then r.partitions else none

/-- The rows that an import reads. -/
def importRows (store : Bytes → Bytes → Except Exception (List (RowGroup R)))
    (objectReferences : List ObjectReference) : Except Exception (List (List (AllTypeVariant R))) := do
  let ids ← rowGroupIds objectReferences
  let parts ← objectReferences.mapM fun r => do
    let rowGroups ← store r.bucketName r.identifier
    readRows rowGroups ids
  return parts.flatten

/-! ### What a fragment imports -/

variable {rowGroups : List (RowGroup R)} {f n : ℕ} {objects : List ObjectReference}
  {store : Bytes → Bytes → Except Exception (List (RowGroup R))}

lemma readRows_partition (hf : f < 2 ^ 31) {rowGroup : RowGroup R}
    (h : rowGroups[f]? = some rowGroup) :
    readRows rowGroups (some [Int32.ofNat f]) = .ok (rowGroupRows rowGroup) := by
  have hnotneg : ¬ Int32.ofNat f < 0 := by
    rw [Int32.lt_iff_toInt_lt, Int32.toInt_ofNat_of_lt hf, Int32.toInt_zero]
    omega
  simp only [readRows, List.mapM_cons, List.mapM_nil, if_neg hnotneg,
    Int32.toNatClampNeg_ofNat_of_lt hf, h, bind, Except.bind, pure, Except.pure,
    List.flatMap_cons, List.flatMap_nil, List.append_nil]

lemma rowGroupIds_partitions (hparquet : ∀ o ∈ objects, importFormat o.identifier = .ok .parquet)
    (hne : objects ≠ []) :
    rowGroupIds (objects.map (partitionReference f)) = .ok (some [Int32.ofNat f]) := by
  obtain ⟨o, os, rfl⟩ := List.exists_cons_of_ne_nil hne
  have hformat : importFormat (partitionReference f o).identifier = .ok .parquet :=
    hparquet o List.mem_cons_self
  rw [List.map_cons, rowGroupIds, hformat]
  rfl

/-- A fragment imports the row groups with its number. -/
lemma importRows_partitions (hparquet : ∀ o ∈ objects, importFormat o.identifier = .ok .parquet)
    (hne : objects ≠ []) (hf : f < 2 ^ 31) {rowGroup : ObjectReference → RowGroup R}
    (hstore : ∀ o ∈ objects, ∃ rowGroups, store o.bucketName o.identifier = .ok rowGroups ∧
      rowGroups[f]? = some (rowGroup o)) :
    importRows store (objects.map (partitionReference f)) =
      .ok (objects.flatMap fun o => rowGroupRows (rowGroup o)) := by
  have hparts : (objects.map (partitionReference f)).mapM (fun r => do
      let rowGroups ← store r.bucketName r.identifier
      readRows rowGroups (some [Int32.ofNat f])) =
        Except.ok (objects.map fun o => rowGroupRows (rowGroup o)) := by
    refine mapM_eq_ok_iff.mpr (List.forall₂_map_left_iff.mpr (List.forall₂_map_right_iff.mpr ?_))
    refine List.forall₂_same.mpr fun o ho => ?_
    obtain ⟨rowGroups, hread, hget⟩ := hstore o ho
    simp only [partitionReference, hread, bind, Except.bind]
    exact readRows_partition hf hget
  rw [importRows, rowGroupIds_partitions hparquet hne]
  simp only [bind, Except.bind, pure, Except.pure] at hparts ⊢
  rw [hparts, List.flatMap_def]

/-- If a fragment imports rows, then its objects could be read. -/
lemma exists_store_of_importRows_eq_ok {rows : List (List (AllTypeVariant R))}
    (h : importRows store objects = .ok rows) {o : ObjectReference} (ho : o ∈ objects) :
    ∃ rowGroups, store o.bucketName o.identifier = .ok rowGroups := by
  simp only [importRows, bind, Except.bind] at h
  split at h
  · cases h
  · next ids hids =>
    split at h
    · cases h
    · next parts hparts =>
      obtain ⟨hlen, hget⟩ := List.forall₂_iff_get.mp (mapM_eq_ok_iff.mp hparts)
      obtain ⟨k, hk, rfl⟩ := List.getElem_of_mem ho
      have hread := hget k hk (hlen ▸ hk)
      cases hstore : store objects[k].bucketName objects[k].identifier with
      | ok rowGroups => exact ⟨rowGroups, rfl⟩
      | error e =>
        rw [List.get_eq_getElem] at hread
        simp only [hstore] at hread
        cases hread

/-! ### The rows of the producers -/

variable [Zero R] [LinearOrder R] {memoryUsage : ValueSegment R → ℕ} {hashCombine : ℕ → Value R → ℕ}
  {p : Producer R}

/-- The inputs that a producer's own assertions admit. -/
structure Producer.Accepted (n : ℕ) (p : Producer R) : Prop where
  wellFormed : p.table.WellFormed
  columns : p.partitioningFunction.Accepts p.table
  partitionCount : p.partitioningFunction.partitionCount = n

/-- What has to hold of the rows of a producer for them to arrive: they can be partitioned, and have
no NULLs. -/
structure Producer.Deliverable (hashCombine : ℕ → Value R → ℕ) (p : Producer R) : Prop where
  partitionable : Partitionable hashCombine p.sortWithinPartition p.partitioningFunction p.table
  nonNull : p.table.NonNull

/-- The row group with a number that a producer exports. -/
def Producer.part (memoryUsage : ValueSegment R → ℕ) (hashCombine : ℕ → Value R → ℕ)
    (p : Producer R) (f : ℕ) : RowGroup R :=
  match p.export memoryUsage hashCombine with
  | .ok rowGroups => rowGroups.getD f []
  | .error _ => []

/-- The row groups of a producer whose rows can be partitioned are the partitions. -/
lemma Producer.export_eq_ok (hacc : p.Accepted n) (hn : 0 < n)
    (h : Partitionable hashCombine p.sortWithinPartition p.partitioningFunction p.table) :
    ∃ rowGroups, p.export memoryUsage hashCombine = .ok rowGroups ∧ ∀ f < n,
      rowGroups[f]? = some (p.part memoryUsage hashCombine f) ∧
      (rowGroupRows (p.part memoryUsage hashCombine f)).Perm
        ((rowIdsOf hashCombine p.partitioningFunction p.table f).map p.table.storedRow) := by
  have hcount := hacc.partitionCount
  obtain ⟨t, ht, -, hlen, hholds⟩ :=
    partitionOperator_eq_ok hacc.wellFormed hacc.columns (hcount ▸ hn) h
  have hexport : p.export memoryUsage hashCombine = .ok (t.chunks.map fun chunk => [chunk]) := by
    simp only [Producer.export, ht, bind, Except.bind, pure, Except.pure]
    rw [ParquetFormatWriter.writeRowGroups_of_not_consolidate rfl]
  refine ⟨_, hexport, fun f hf => ?_⟩
  have hf' : f < t.chunks.length := by
    rw [← hcount, ← hlen] at hf
    exact hf
  have hpart : p.part memoryUsage hashCombine f = [t.getChunk f] := by
    simp [Producer.part, hexport, Table.getChunk, hf']
  rw [hpart]
  refine ⟨by simp [Table.getChunk, hf'], ?_⟩
  simpa [rowGroupRows] using (hholds f (hcount ▸ hf)).rows

lemma Producer.partitionable_of_export_eq_ok (hacc : p.Accepted n) (hn : 0 < n)
    {rowGroups : List (RowGroup R)} (h : p.export memoryUsage hashCombine = .ok rowGroups) :
    Partitionable hashCombine p.sortWithinPartition p.partitioningFunction p.table := by
  cases ht : partitionOperator hashCombine p.partitioningFunction p.sortWithinPartition p.table with
  | error e =>
    rw [Producer.export, ht] at h
    cases h
  | ok t => exact partitionable_of_eq_ok hacc.wellFormed hacc.columns (hacc.partitionCount ▸ hn) ht

omit [LinearOrder R] in
/-- The partitions together have all rows. -/
lemma Producer.flatMap_rowIdsOf_perm (hashCombine : ℕ → Value R → ℕ) (hacc : p.Accepted n) (hn : 0 < n) :
    ((List.range n).flatMap fun f =>
      (rowIdsOf hashCombine p.partitioningFunction p.table f).map p.table.storedRow).Perm
        (p.table.rowIds.map p.table.storedRow) := by
  rw [← List.map_flatMap]
  refine List.Perm.map _ (Relational.flatMap_filter_perm List.nodup_range fun id _ => ?_)
  rw [List.mem_range, hacc.partitionCount]
  exact Nat.mod_lt _ hn

omit [Zero R] [LinearOrder R] in
lemma Producer.nonNull_iff (hacc : p.Accepted n) :
    p.table.NonNull ↔ ∀ row ∈ p.table.rows, none ∉ row := by
  rw [Table.rows_eq_map_rowAt]
  constructor
  · intro h row hrow hnone
    obtain ⟨id, hid, rfl⟩ := List.mem_map.mp hrow
    rw [hacc.wellFormed.rowAt_eq hid] at hnone
    obtain ⟨i, hi, hcell⟩ := List.mem_map.mp hnone
    exact h id hid i (List.mem_range.mp hi) hcell
  · intro h id hid i hi hcell
    refine h _ (List.mem_map_of_mem hid) (List.mem_of_getElem? (i := i) ?_)
    rw [hacc.wellFormed.getElem?_rowAt hid hi, hcell]

omit [Zero R] [LinearOrder R] in
/-- Two loops can be exchanged. -/
lemma flatMap_flatMap_perm {α β γ : Type} (as : List α) (bs : List β) (g : α → β → List γ) :
    (as.flatMap fun a => bs.flatMap fun b => g a b).Perm
      (bs.flatMap fun b => as.flatMap fun a => g a b) := by
  induction bs with
  | nil => simp
  | cons b bs ih =>
    simp only [List.flatMap_cons]
    exact (List.flatMap_append_perm as (fun a => g a b) _).symm.trans (ih.append_left _)

/-! ### Delivery -/

/-- Every fragment imports its rows for an input, and what all fragments import together are the
rows of the producers that wrote the objects of the input. -/
def Delivers (memoryUsage : ValueSegment R → ℕ) (hashCombine : ℕ → Value R → ℕ)
    (producer : Bytes → Bytes → Producer R) (fragments : List IdentityMap) (input : PipelineInput) :
    Prop :=
  ∃ rows : ℕ → List (List (AllTypeVariant R)),
    (∀ f m, fragments[f]? = some m →
      importRows (fun bucketName identifier =>
        (producer bucketName identifier).export memoryUsage hashCombine)
          (m.objectsOf input.inputId) = .ok (rows f)) ∧
    ((List.range fragments.length).flatMap rows).Perm
      (input.inputObjects.flatMap fun o => (producer o.bucketName o.identifier).table.rows)

variable {producer : Bytes → Bytes → Producer R} {fragments : List IdentityMap}
  {input : PipelineInput}

/-- What the fragments import if all rows can be partitioned. -/
lemma importRows_perm (memoryUsage : ValueSegment R → ℕ) (hn : 0 < n) (hlt : n ≤ 2 ^ 31)
    (hparquet : ∀ o ∈ objects, importFormat o.identifier = .ok .parquet) (hne : objects ≠ [])
    (hacc : ∀ o ∈ objects, (producer o.bucketName o.identifier).Accepted n)
    (hpart : ∀ o ∈ objects, let p := producer o.bucketName o.identifier
      Partitionable hashCombine p.sortWithinPartition p.partitioningFunction p.table) :
    ∃ rows : ℕ → List (List (AllTypeVariant R)),
      (∀ f < n, importRows (fun bucketName identifier =>
        (producer bucketName identifier).export memoryUsage hashCombine)
          (objects.map (partitionReference f)) = .ok (rows f)) ∧
      ((List.range n).flatMap rows).Perm (objects.flatMap fun o =>
        let p := producer o.bucketName o.identifier
        p.table.rowIds.map p.table.storedRow) := by
  refine ⟨fun f => objects.flatMap fun o => rowGroupRows
    ((producer o.bucketName o.identifier).part memoryUsage hashCombine f), fun f hf => ?_, ?_⟩
  · refine importRows_partitions hparquet hne (by omega) fun o ho => ?_
    obtain ⟨rowGroups, hexport, hall⟩ :=
      Producer.export_eq_ok (hacc o ho) hn (hpart o ho)
    exact ⟨rowGroups, hexport, (hall f hf).1⟩
  · refine (flatMap_flatMap_perm _ _ _).trans (List.Perm.flatMap_left _ fun o ho => ?_)
    obtain ⟨rowGroups, -, hall⟩ := Producer.export_eq_ok (hacc o ho) hn (hpart o ho)
    refine (List.Perm.flatMap_left _ fun f hf => ?_).trans
      (Producer.flatMap_rowIdsOf_perm hashCombine (hacc o ho) hn)
    exact (hall f (List.mem_range.mp hf)).2

lemma delivers_iff (hn : 0 < n) (hlt : n ≤ 2 ^ 31) (hlen : fragments.length = n)
    (htiles : ∀ (f : ℕ) (m : IdentityMap), fragments[f]? = some m →
      m.objectsOf input.inputId = input.inputObjects.map (partitionReference f))
    (hparquet : ∀ o ∈ input.inputObjects, importFormat o.identifier = .ok .parquet)
    (hacc : ∀ o ∈ input.inputObjects, (producer o.bucketName o.identifier).Accepted n) :
    (input.inputObjects ≠ [] → Delivers memoryUsage hashCombine producer fragments input) ↔
      ∀ o ∈ input.inputObjects, (producer o.bucketName o.identifier).Deliverable hashCombine := by
  subst hlen
  have hget : ∀ f < fragments.length, ∃ m, fragments[f]? = some m := fun f hf =>
    ⟨fragments[f], List.getElem?_eq_getElem hf⟩
  constructor
  · intro h o₀ ho₀
    have hne : input.inputObjects ≠ [] := List.ne_nil_of_mem ho₀
    obtain ⟨rows, hrows, hperm⟩ := h hne
    obtain ⟨m, hm⟩ := hget 0 hn
    -- the first fragment could read all objects, so they were all written
    have hpart : ∀ o ∈ input.inputObjects, let p := producer o.bucketName o.identifier
        Partitionable hashCombine p.sortWithinPartition p.partitioningFunction p.table := by
      intro o ho
      have himport := hrows 0 m hm
      rw [htiles 0 m hm] at himport
      obtain ⟨rowGroups, hexport⟩ :=
        exists_store_of_importRows_eq_ok himport (List.mem_map_of_mem ho)
      exact Producer.partitionable_of_export_eq_ok (hacc o ho) hn hexport
    obtain ⟨rows', hrows', hperm'⟩ :=
      importRows_perm memoryUsage hn hlt hparquet hne hacc hpart
    refine ⟨hpart o₀ ho₀, (Producer.nonNull_iff (hacc o₀ ho₀)).mpr fun row hrow hnone => ?_⟩
    -- a row with a NULL would have been imported, but all rows are filled with values
    have hsame : (List.range fragments.length).flatMap rows =
        (List.range fragments.length).flatMap rows' := by
      refine List.flatMap_congr fun f hf => ?_
      obtain ⟨m, hm⟩ := hget f (List.mem_range.mp hf)
      have himport := hrows f m hm
      rw [htiles f m hm, hrows' f (List.mem_range.mp hf)] at himport
      exact (Except.ok.inj himport).symm
    rw [hsame] at hperm
    have hmem := (hperm.symm.trans hperm').mem_iff.mp (List.mem_flatMap.mpr ⟨o₀, ho₀, hrow⟩)
    obtain ⟨o, -, hstored⟩ := List.mem_flatMap.mp hmem
    obtain ⟨id, -, rfl⟩ := List.mem_map.mp hstored
    obtain ⟨i, -, hcell⟩ := List.mem_map.mp hnone
    cases hcell
  · intro h hne
    obtain ⟨rows, hrows, hperm⟩ := importRows_perm memoryUsage hn hlt hparquet hne
      hacc fun o ho => (h o ho).partitionable
    refine ⟨rows, fun f m hm => ?_, hperm.trans (List.Perm.flatMap_left _ fun o ho => ?_)⟩
    · rw [htiles f m hm]
      exact hrows f (List.getElem?_eq_some_iff.mp hm).1
    · exact List.Perm.of_eq ((hacc o ho).wellFormed.rows_eq_map_storedRow (h o ho).nonNull).symm

/-- An input that is read partition by partition, from one object. -/
def sharedInput : PipelineInput :=
  ⟨"import", .partitionedRead, [⟨"bucket", "object.parquet", [], none⟩]⟩

/-- A producer of integers, which are partitioned without being sorted. -/
def producerOf (chunks : List (List Int32)) (n : ℕ) : Producer ℚ :=
  ⟨.ofInts "a" chunks, ⟨[0], n⟩, false⟩

lemma accepted_producerOf (chunks : List (List Int32)) (n : ℕ) :
    (producerOf chunks n).Accepted n :=
  ⟨Table.wellFormed_ofInts, accepts_singleton Nat.one_pos rfl, rfl⟩

end Shuffle

end Skyrise

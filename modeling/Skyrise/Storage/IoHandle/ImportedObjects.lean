/-
Which objects an import reads.

The input handler opens every referenced object in its bucket and keeps the object
readers by identifier.  A reference whose identifier was opened before, in another
bucket, is read with the reader of that one.  The reader of the format is made by one
factory for all references, whose partitions are those of the options, or of the first
reference if there are no options.

The tasks run one after the other, those that open objects in any order.  A reference
has the partitions that it names, or none, which stands for the whole object.
-/
import Mathlib.Data.List.Perm.Basic
import Skyrise.Compiler.OperatorProxy.OperatorProxies
import Skyrise.Compiler.Shuffle
import Skyrise.Storage.IoHandle.InputHandler

namespace Skyrise

open Intervals ParquetFormatMetadataReader

/-! ### The options of an import -/

namespace ImportOptions

variable {R A : Type}

/-- The constructor with a format, columns and partitions. -/
def ofFormat (format : FileFormat) (columns : List UInt32) (partitions : Option (List Int32)) :
    ImportOptions R A :=
  match format with
  | .csv => csv { readBufferSize := .ofNat kS3ReadRequestSizeBytes }
  | .orc => orc { includeColumns := some columns }
  | .parquet => parquet { includeColumns := some columns, rowGroupIds := partitions }

/-- `GetImportFormat`. -/
def importFormat : ImportOptions R A → ImportFormat
  | csv _ => .csv
  | orc _ => .orc
  | parquet _ => .parquet

/-- The partitions to which the readers of the factory are restricted. -/
def rowGroupIds : ImportOptions R A → Option (List Int32)
  | csv _ => none
  | orc _ => none
  | parquet options => options.rowGroupIds

end ImportOptions

/-- The options with which `CreateOperatorInstanceRecursively` makes an import. -/
def ImportOperatorProxy.operatorOptions {R A : Type} (p : ImportOperatorProxy R A) :
    Except Exception (ImportOptions R A) := do
  assert (!p.columnIds.isEmpty) "ImportOperatorProxy must specify at least one column id."
  match p.objectReferences, p.importOptions with
  | [], _ => .error (.assertionFailed "ImportOperatorProxy must specify at least one object.")
  | _, some options => return options
  | first :: _, none =>
    let format ← Shuffle.importFormat first.identifier
    return .ofFormat format p.columnIds first.partitions

namespace InputHandler

/-! ### The readers of the objects -/

/-- The objects of the buckets, with what the storage says about them. -/
structure Storage where
  object : Bytes → Bytes → StoredObject
  checksum : Bytes → Bytes → Bytes
  error : Bytes → Bytes → Option String

/-- An object reader: the bucket and the name it was opened with. -/
structure OpenedObject where
  bucketName : Bytes
  identifier : Bytes
deriving DecidableEq

/-- The object readers by identifier. -/
abbrev ObjectReaders := List (Bytes × OpenedObject)

/-- `insert` of a map, which keeps an entry that is there already. -/
def ObjectReaders.insert (objectReaders : ObjectReaders) (identifier : Bytes)
    (objectReader : OpenedObject) : ObjectReaders :=
  if (objectReaders.lookup identifier).isSome then objectReaders
  else (identifier, objectReader) :: objectReaders

/-- The task of `InitializeObjectReaders` for a reference. -/
def initializeObjectReader (storage : Storage) (objectReaders : ObjectReaders)
    (r : ObjectReference) : Except Exception ObjectReaders := do
  if r.etag ≠ [] then
    assert (decide (storage.checksum r.bucketName r.identifier = r.etag))
      ("The Etag does not match for object " ++ Bytes.toText r.identifier ++ ".")
  match storage.error r.bucketName r.identifier with
  | some message => .error (.assertionFailed message)
  | none => return objectReaders.insert r.identifier ⟨r.bucketName, r.identifier⟩

/-- `InitializeObjectReaders`. -/
def initializeObjectReaders (storage : Storage) (references : List ObjectReference) :
    Except Exception ObjectReaders :=
  references.foldlM (initializeObjectReader storage) []

/-- The object reader of a reference. -/
def findObjectReader (objectReaders : ObjectReaders) (r : ObjectReference) :
    Except Exception (ObjectReference × OpenedObject) :=
  match objectReaders.lookup r.identifier with
  | some objectReader => .ok (r, objectReader)
  | none => .error .undefinedBehavior

/-- The object that an object reader reads. -/
def Storage.read (storage : Storage) (objectReader : OpenedObject) : StoredObject :=
  storage.object objectReader.bucketName objectReader.identifier

/-- What an import has done: the tasks with their object readers, the readers that were made and
the partitions to which the factory restricts them. -/
structure ImportedObjects where
  tasks : List (ObjectReference × OpenedObject)
  formatReaders : List LazyReaderConstructor
  rowGroupIds : Option (List Int32)

/-- An import with options, as long as the storage reads without errors; `order` is the order in
which the objects are opened. -/
def importObjects {R A : Type} (library : ParquetLibrary) (storage : Storage)
    (options : ImportOptions R A) (columnIds : List UInt32) (order references : List ObjectReference) :
    Except Exception ImportedObjects := do
  let objectReaders ← initializeObjectReaders storage order
  let tasks ← references.mapM (findObjectReader objectReaders)
  let handler ← createBufferedFormatReaders library (fun _ => false) options.importFormat
    (some columnIds) ⟨0, []⟩ (tasks.map fun task => (task.1, storage.read task.2))
  return ⟨tasks, handler.formatReaders, options.rowGroupIds⟩

/-! ### The objects are opened -/

/-- What the storage says about the object of a reference is as it should be. -/
def Storage.Available (storage : Storage) (r : ObjectReference) : Prop :=
  storage.error r.bucketName r.identifier = none ∧
    (r.etag ≠ [] → storage.checksum r.bucketName r.identifier = r.etag)

section

variable {storage : Storage} {objectReaders : ObjectReaders} {r : ObjectReference}
  {references : List ObjectReference}

lemma initializeObjectReader_eq_ok (h : storage.Available r) :
    initializeObjectReader storage objectReaders r =
      .ok (objectReaders.insert r.identifier ⟨r.bucketName, r.identifier⟩) := by
  rw [initializeObjectReader, h.1]
  split
  · next hetag =>
    rw [decide_eq_true (h.2 hetag)]
    rfl
  · rfl

/-- Every identifier is found with the reader of some reference that has it. -/
def Found (objectReaders : ObjectReaders) (references : List ObjectReference) : Prop :=
  (∀ r ∈ references, (objectReaders.lookup r.identifier).isSome) ∧
    ∀ identifier objectReader, objectReaders.lookup identifier = some objectReader →
      ∃ r ∈ references, r.identifier = identifier ∧ objectReader = ⟨r.bucketName, r.identifier⟩

lemma lookup_insert (objectReaders : ObjectReaders) (identifier key : Bytes)
    (objectReader : OpenedObject) :
    (objectReaders.insert identifier objectReader).lookup key =
      (objectReaders.lookup key).or (if key = identifier then some objectReader else none) := by
  rw [ObjectReaders.insert]
  split
  · next hsome =>
    by_cases hkey : key = identifier
    · subst hkey
      obtain ⟨found, hfound⟩ := Option.isSome_iff_exists.mp hsome
      rw [hfound]
      rfl
    · rw [if_neg hkey, Option.or_none]
  · next hnone =>
    rw [List.lookup_cons]
    by_cases hkey : key = identifier
    · subst hkey
      rw [Option.not_isSome_iff_eq_none.mp hnone, if_pos rfl, beq_self_eq_true]
      rfl
    · rw [if_neg hkey, Option.or_none, beq_false_of_ne hkey]

/-- One more object is opened. -/
lemma Found.insert (h : Found objectReaders references) (r : ObjectReference) :
    Found (objectReaders.insert r.identifier ⟨r.bucketName, r.identifier⟩) (references ++ [r]) := by
  refine ⟨?_, ?_⟩
  · intro r' hr'
    rw [lookup_insert, Option.isSome_or]
    rcases List.mem_append.mp hr' with hr' | hr'
    · rw [h.1 r' hr', Bool.true_or]
    · obtain rfl := List.mem_singleton.mp hr'
      rw [if_pos rfl, Option.isSome_some, Bool.or_true]
  · intro identifier objectReader hlookup
    rw [lookup_insert] at hlookup
    rcases Option.or_eq_some_iff.mp hlookup with hold | ⟨-, hnew⟩
    · obtain ⟨r', hr', hfound⟩ := h.2 identifier objectReader hold
      exact ⟨r', List.mem_append_left _ hr', hfound⟩
    · split at hnew
      · next hkey =>
        exact ⟨r, List.mem_append_right _ (List.mem_singleton_self r), hkey.symm,
          (Option.some.inj hnew).symm⟩
      · cases hnew

/-- All objects are opened. -/
lemma exists_initializeObjectReaders (storage : Storage) (references : List ObjectReference)
    (h : ∀ r ∈ references, storage.Available r) :
    ∃ objectReaders, initializeObjectReaders storage references = .ok objectReaders ∧
      Found objectReaders references := by
  have hfoldl : ∀ objectReaders before, Found objectReaders before →
      ∃ objectReaders', references.foldlM (initializeObjectReader storage) objectReaders =
        .ok objectReaders' ∧ Found objectReaders' (before ++ references) := by
    induction references with
    | nil =>
      intro objectReaders before hfound
      rw [List.append_nil]
      exact ⟨objectReaders, rfl, hfound⟩
    | cons r references ih =>
      intro objectReaders before hfound
      rw [List.forall_mem_cons] at h
      obtain ⟨objectReaders', hok, hfound'⟩ := ih h.2 _ _ (hfound.insert r)
      rw [List.append_assoc] at hfound'
      refine ⟨objectReaders', ?_, hfound'⟩
      rw [List.foldlM_cons, initializeObjectReader_eq_ok h.1]
      exact hok
  refine hfoldl [] [] ⟨?_, ?_⟩
  · intro r hr
    cases hr
  · intro identifier objectReader hlookup
    cases hlookup

/-- The tasks have the readers that are found. -/
lemma mapM_findObjectReader {order : List ObjectReference} (hperm : order.Perm references)
    (h : Found objectReaders order) :
    ∃ tasks, references.mapM (findObjectReader objectReaders) = .ok tasks ∧
      List.Forall₂ (fun (r : ObjectReference) task => task.1 = r ∧
        objectReaders.lookup r.identifier = some task.2) references tasks := by
  refine exists_mapM_eq_ok references ?_
  intro r hr
  obtain ⟨objectReader, hlookup⟩ := Option.isSome_iff_exists.mp (h.1 r (hperm.mem_iff.mpr hr))
  refine ⟨(r, objectReader), ?_, rfl, hlookup⟩
  rw [findObjectReader, hlookup]

/-- Two references with an identifier are in one bucket. -/
def SameBuckets (references : List ObjectReference) : Prop :=
  ∀ r ∈ references, ∀ r' ∈ references, r.identifier = r'.identifier → r.bucketName = r'.bucketName

instance (references : List ObjectReference) : Decidable (SameBuckets references) :=
  inferInstanceAs (Decidable (∀ r ∈ references, ∀ r' ∈ references,
    r.identifier = r'.identifier → r.bucketName = r'.bucketName))

/-- The tasks read the referenced objects if and only if an identifier names one bucket. -/
lemma tasks_eq_iff {order : List ObjectReference} (hperm : order.Perm references)
    (h : Found objectReaders order) {tasks : List (ObjectReference × OpenedObject)}
    (htasks : List.Forall₂ (fun (r : ObjectReference) task => task.1 = r ∧
      objectReaders.lookup r.identifier = some task.2) references tasks) :
    tasks = references.map (fun r => (r, ⟨r.bucketName, r.identifier⟩)) ↔
      SameBuckets references := by
  constructor
  · rintro rfl
    rw [List.forall₂_map_right_iff, List.forall₂_same] at htasks
    intro r hr r' hr' hsame
    have hlookup := (htasks r hr).2
    rw [hsame, (htasks r' hr').2] at hlookup
    exact (OpenedObject.mk.inj (Option.some.inj hlookup)).1.symm
  · intro hsame
    have hopened : List.Forall₂ (fun r task => (r, OpenedObject.mk r.bucketName r.identifier) = task)
        references tasks := by
      refine htasks.imp_of_mem ?_
      rintro r hr ⟨r', objectReader⟩ ⟨heq, hlookup⟩
      subst heq
      obtain ⟨r', hr', hid, rfl⟩ := h.2 _ _ hlookup
      rw [hid, hsame r' (hperm.mem_iff.mp hr') _ hr hid]
    have hmap := List.map_eq_map_of_forall₂ (g := id)
      (f := fun r : ObjectReference => (r, OpenedObject.mk r.bucketName r.identifier)) hopened
    rw [hmap, List.map_id]

end

/-! ### The objects are read -/

/-- The object buffer of a task. -/
def taskBuffer (library : ParquetLibrary) (importFormat : ImportFormat)
    (columns : Option (List UInt32)) (task : ObjectReference × StoredObject) :
    Except Exception ObjectBuffer :=
  if task.2.data.length < kS3ReadRequestSizeBytes then
    .ok (ObjectBuffer.ofRanges task.2 [(0, task.2.data.length)])
  else do
    match ← precomputeByteRanges library importFormat task.2 columns task.1.partitions with
    | none => .error .badOptionalAccess
    | some ranges => return ObjectBuffer.ofRanges task.2 ranges

section

variable {library : ParquetLibrary} {importFormat : ImportFormat} {columns : Option (List UInt32)}
  {handler handler' : InputHandler} {tasks : List (ObjectReference × StoredObject)}

lemma readObject_eq (task : ObjectReference × StoredObject) :
    readObject library (fun _ => false) importFormat columns handler task =
      (taskBuffer library importFormat columns task).map fun objectBuffer =>
        { bytesRead := handler.bytesRead + readSize objectBuffer.getOrderedRangesView
          formatReaders := handler.formatReaders ++ [⟨objectBuffer, task.2.data.length⟩] } := by
  rw [readObject, taskBuffer]
  split
  · exact emplaceReader_eq _ _ _ _ _
  · rw [readObjectAsyncTask]
    cases precomputeByteRanges library importFormat task.2 columns task.1.partitions with
    | error e => rfl
    | ok ranges? =>
      cases ranges? with
      | none => rfl
      | some ranges =>
        exact emplaceReader_eq handler (fun _ => false) task.2 task.1.identifier
          (ObjectBuffer.ofRanges task.2 ranges)

/-- The tasks make one reader each. -/
lemma createBufferedFormatReaders_eq_ok
    (h : createBufferedFormatReaders library (fun _ => false) importFormat columns handler tasks =
      .ok handler') :
    ∃ readers, handler'.formatReaders = handler.formatReaders ++ readers ∧
      List.Forall₂ (fun task (reader : LazyReaderConstructor) =>
        reader.objectSize = task.2.data.length ∧
          taskBuffer library importFormat columns task = .ok reader.objectBuffer) tasks readers := by
  induction tasks generalizing handler with
  | nil =>
    obtain rfl := Except.ok.inj h
    exact ⟨[], (List.append_nil _).symm, .nil⟩
  | cons task tasks ih =>
    rw [createBufferedFormatReaders, List.foldlM_cons, readObject_eq] at h
    cases hbuffer : taskBuffer library importFormat columns task with
    | error e =>
      rw [hbuffer] at h
      cases h
    | ok objectBuffer =>
      rw [hbuffer] at h
      obtain ⟨readers, hreaders, hforall⟩ := ih h
      refine ⟨⟨objectBuffer, task.2.data.length⟩ :: readers, ?_, .cons ⟨rfl, hbuffer⟩ hforall⟩
      rw [hreaders, List.append_assoc]
      rfl

/-- The tasks succeed if each does. -/
lemma exists_createBufferedFormatReaders (h : ∀ task ∈ tasks, ∃ objectBuffer,
    taskBuffer library importFormat columns task = .ok objectBuffer) :
    ∃ handler', createBufferedFormatReaders library (fun _ => false) importFormat columns handler
      tasks = .ok handler' := by
  induction tasks generalizing handler with
  | nil => exact ⟨handler, rfl⟩
  | cons task tasks ih =>
    rw [List.forall_mem_cons] at h
    obtain ⟨objectBuffer, hbuffer⟩ := h.1
    obtain ⟨handler', hok⟩ := @ih ⟨handler.bytesRead + readSize objectBuffer.getOrderedRangesView,
      handler.formatReaders ++ [⟨objectBuffer, task.2.data.length⟩]⟩ h.2
    refine ⟨handler', ?_⟩
    rw [createBufferedFormatReaders, List.foldlM_cons, readObject_eq, hbuffer]
    exact hok

/-- A large object has the buffer that its reader needs. -/
lemma taskBuffer_covers_iff {r : ObjectReference} {object : StoredObject}
    (hsize : kS3ReadRequestSizeBytes ≤ object.data.length) :
    (∃ objectBuffer, taskBuffer library importFormat columns (r, object) = .ok objectBuffer ∧
      Covers library importFormat object columns r.partitions objectBuffer.getOrderedRangesView) ↔
      importFormat = .parquet ∧ FileIsLoaded library object r.partitions columns := by
  rw [← @loadsForReader_iff_fileIsLoaded ⟨0, []⟩ _ _ _ r.identifier _ _ hsize]
  have hlarge := Nat.not_lt_of_le hsize
  have htask : ∀ isError, readObjectAsyncTask ⟨0, []⟩ library isError importFormat object
      r.identifier columns r.partitions = taskBuffer library importFormat columns (r, object) >>=
        fun objectBuffer => emplaceReader ⟨0, []⟩ isError object r.identifier objectBuffer := by
    intro isError
    rw [readObjectAsyncTask, taskBuffer, if_neg hlarge]
    cases precomputeByteRanges library importFormat object columns r.partitions with
    | error e => rfl
    | ok ranges? => cases ranges? <;> rfl
  constructor
  · rintro ⟨objectBuffer, hbuffer, hcovers⟩
    refine ⟨objectBuffer, hcovers, ?_⟩
    intro isError
    rw [htask, hbuffer, ← emplaceReader_eq]
    rfl
  · intro h
    obtain ⟨objectBuffer, bytesRead, hcovers, hok⟩ := h.exists_eq_ok
    rw [htask] at hok
    cases hbuffer : taskBuffer library importFormat columns (r, object) with
    | error e =>
      rw [hbuffer] at hok
      cases hok
    | ok objectBuffer' =>
      rw [hbuffer] at hok
      change emplaceReader ⟨0, []⟩ (fun _ => false) object r.identifier objectBuffer' = _ at hok
      rw [emplaceReader_eq, if_neg Bool.false_ne_true, Except.ok.injEq, InputHandler.mk.injEq,
        List.append_cancel_left_eq, List.cons.injEq, LazyReaderConstructor.mk.injEq] at hok
      obtain rfl : objectBuffer' = objectBuffer := hok.2.1.1
      exact ⟨objectBuffer', rfl, hcovers⟩

end

/-! ### Every reference is read from where it lives -/

/-- A reader has a small object as a whole, and of a large one what it needs for the columns and
partitions. -/
def HasOwnPart (library : ParquetLibrary) (importFormat : ImportFormat) (object : StoredObject)
    (columns : Option (List UInt32)) (partitions : Option (List Int32))
    (reader : LazyReaderConstructor) : Prop :=
  reader.objectSize = object.data.length ∧
    if object.data.length < kS3ReadRequestSizeBytes then
      ∀ x < object.data.length, x ∈ points reader.objectBuffer.getOrderedRangesView
    else Covers library importFormat object columns partitions
      reader.objectBuffer.getOrderedRangesView

/-- Every reference has one task, which reads its object in its bucket, and one reader, which has
what the reference needs and is restricted to its partitions. -/
structure ReadsOwnObjects (library : ParquetLibrary) (storage : Storage)
    (importFormat : ImportFormat) (columns : Option (List UInt32))
    (references : List ObjectReference) (imported : ImportedObjects) : Prop where
  tasks : imported.tasks = references.map fun r => (r, ⟨r.bucketName, r.identifier⟩)
  readers : List.Forall₂ (fun (r : ObjectReference) reader => HasOwnPart library importFormat
    (storage.object r.bucketName r.identifier) columns r.partitions reader) references
    imported.formatReaders
  partitions : ∀ r ∈ references, r.partitions = imported.rowGroupIds

/-- The import of a proxy reads all that is referenced from where it is. -/
def ImportsOwnObjects {R A : Type} (library : ParquetLibrary) (storage : Storage)
    (p : ImportOperatorProxy R A) (order : List ObjectReference) : Prop :=
  ∃ options imported, p.operatorOptions = .ok options ∧
    importObjects library storage options p.columnIds order p.objectReferences = .ok imported ∧
    ReadsOwnObjects library storage options.importFormat (some p.columnIds) p.objectReferences
      imported

section

variable {R A : Type} {library : ParquetLibrary} {storage : Storage} {options : ImportOptions R A}
  {columnIds : List UInt32} {order references : List ObjectReference}

/-- An import of available objects makes the readers of its tasks. -/
lemma exists_importObjects_eq (library : ParquetLibrary) (options : ImportOptions R A)
    (columnIds : List UInt32) (havailable : ∀ r ∈ references, storage.Available r)
    (hperm : order.Perm references) :
    ∃ tasks, (tasks = references.map (fun r => (r, ⟨r.bucketName, r.identifier⟩)) ↔
        SameBuckets references) ∧
      importObjects library storage options columnIds order references =
        (createBufferedFormatReaders library (fun _ => false) options.importFormat (some columnIds)
          ⟨0, []⟩ (tasks.map fun task => (task.1, storage.read task.2))).map
            fun handler => ⟨tasks, handler.formatReaders, options.rowGroupIds⟩ := by
  obtain ⟨objectReaders, hopened, hfound⟩ := exists_initializeObjectReaders storage order
    fun r hr => havailable r (hperm.mem_iff.mp hr)
  obtain ⟨tasks, hok, htasks⟩ := mapM_findObjectReader hperm hfound
  refine ⟨tasks, tasks_eq_iff hperm hfound htasks, ?_⟩
  rw [importObjects, hopened]
  show (references.mapM (findObjectReader objectReaders) >>= _) = _
  rw [hok]
  rfl

/-- The reader of a task has what its reference needs. -/
lemma hasOwnPart_of_taskBuffer {importFormat : ImportFormat} {columns : Option (List UInt32)}
    {r : ObjectReference} {object : StoredObject} {reader : LazyReaderConstructor}
    (hlarge : kS3ReadRequestSizeBytes ≤ object.data.length →
      importFormat = .parquet ∧ FileIsLoaded library object r.partitions columns)
    (hsize : reader.objectSize = object.data.length)
    (hbuffer : taskBuffer library importFormat columns (r, object) = .ok reader.objectBuffer) :
    HasOwnPart library importFormat object columns r.partitions reader := by
  refine ⟨hsize, ?_⟩
  split
  · next hlt =>
    rw [taskBuffer, if_pos hlt] at hbuffer
    intro x hx
    rw [← Except.ok.inj hbuffer, ObjectBuffer.points_ofRanges]
    exact ⟨_, List.mem_singleton_self _, Nat.zero_le x, hx⟩
  · next hge =>
    obtain ⟨objectBuffer, hok, hcovers⟩ :=
      (taskBuffer_covers_iff (Nat.le_of_not_lt hge)).mpr (hlarge (Nat.le_of_not_lt hge))
    rw [hbuffer] at hok
    rwa [← Except.ok.inj hok] at hcovers

/-- A task for a reference succeeds. -/
lemma exists_taskBuffer {importFormat : ImportFormat} {columns : Option (List UInt32)}
    {r : ObjectReference} {object : StoredObject}
    (hlarge : kS3ReadRequestSizeBytes ≤ object.data.length →
      importFormat = .parquet ∧ FileIsLoaded library object r.partitions columns) :
    ∃ objectBuffer, taskBuffer library importFormat columns (r, object) = .ok objectBuffer := by
  by_cases hlt : object.data.length < kS3ReadRequestSizeBytes
  · exact ⟨_, if_pos hlt⟩
  · obtain ⟨objectBuffer, hok, -⟩ :=
      (taskBuffer_covers_iff (Nat.le_of_not_lt hlt)).mpr (hlarge (Nat.le_of_not_lt hlt))
    exact ⟨objectBuffer, hok⟩

/-- What an import with options reads. -/
lemma readsOwnObjects_iff (havailable : ∀ r ∈ references, storage.Available r)
    (hperm : order.Perm references) :
    (∃ imported, importObjects library storage options columnIds order references = .ok imported ∧
        ReadsOwnObjects library storage options.importFormat (some columnIds) references imported) ↔
      SameBuckets references ∧ (∀ r ∈ references, r.partitions = options.rowGroupIds) ∧
      ∀ r ∈ references,
        kS3ReadRequestSizeBytes ≤ (storage.object r.bucketName r.identifier).data.length →
          options.importFormat = .parquet ∧ FileIsLoaded library
            (storage.object r.bucketName r.identifier) r.partitions (some columnIds) := by
  obtain ⟨tasks, hsame, heq⟩ := exists_importObjects_eq library options columnIds
    havailable hperm
  rw [heq]
  constructor
  · rintro ⟨imported, hok, hreads⟩
    cases hhandler : createBufferedFormatReaders library (fun _ => false) options.importFormat
        (some columnIds) ⟨0, []⟩ (tasks.map fun task => (task.1, storage.read task.2)) with
    | error e =>
      rw [hhandler] at hok
      cases hok
    | ok handler =>
      rw [hhandler] at hok
      obtain rfl := Except.ok.inj hok
      obtain rfl := hreads.tasks
      refine ⟨hsame.mp rfl, hreads.partitions, ?_⟩
      intro r hr hsize
      obtain ⟨readers, hreaders, hforall⟩ := createBufferedFormatReaders_eq_ok hhandler
      have hboth : List.Forall₂ _ references handler.formatReaders := hreads.readers
      rw [show handler.formatReaders = readers from hreaders] at hboth
      rw [List.map_map, List.forall₂_map_left_iff] at hforall
      obtain ⟨reader, -, hreader, hpart⟩ := (hforall.mp (S := fun r reader => _ ∧ _)
        (fun _ _ h h' => ⟨h, h'⟩) hboth).exists_of_mem hr
      refine (taskBuffer_covers_iff hsize).mp ⟨reader.objectBuffer, hreader.2, ?_⟩
      have hcovers := hpart.2
      rwa [if_neg (Nat.not_lt_of_le hsize)] at hcovers
  · rintro ⟨hbuckets, hpartitions, hlarge⟩
    obtain rfl := hsame.mpr hbuckets
    rw [List.map_map]
    have htasks : ∀ task ∈ references.map fun r => (r, storage.object r.bucketName r.identifier),
        ∃ objectBuffer, taskBuffer library options.importFormat (some columnIds) task =
          .ok objectBuffer := by
      intro task htask
      obtain ⟨r, hr, rfl⟩ := List.mem_map.mp htask
      exact exists_taskBuffer (hlarge r hr)
    obtain ⟨handler, hok⟩ := @exists_createBufferedFormatReaders _ _ _ ⟨0, []⟩ _
      htasks
    refine ⟨_, congrArg _ hok, rfl, ?_, hpartitions⟩
    obtain ⟨readers, hreaders, hforall⟩ := createBufferedFormatReaders_eq_ok hok
    show List.Forall₂ _ references handler.formatReaders
    rw [hreaders, List.nil_append]
    rw [List.forall₂_map_left_iff] at hforall
    refine hforall.imp_of_mem ?_
    rintro r hr reader ⟨hsize, hbuffer⟩
    exact hasOwnPart_of_taskBuffer (hlarge r hr) hsize hbuffer

end

/-- A storage whose objects are the names of their buckets. -/
def bucketNames : Storage where
  object bucketName _ := ⟨bucketName.take 8, by rw [List.length_take]; omega⟩
  checksum _ _ := []
  error _ _ := none

/-- The import of two CSV files. -/
def importTwo (first second : ObjectReference) : ImportOperatorProxy ℚ Unit where
  objectReferences := [first, second]
  columnIds := [0]

end InputHandler

end Skyrise

/-
The input handler, which loads objects for their readers.

An object that is smaller than a request is read as a whole.  Of a larger one the ranges
that its reader needs are computed from its format, and read.  Only a Parquet file has
such ranges; for the other formats there are none, and the task takes the value of an
empty optional.
-/
import Skyrise.Compiler.ObjectReference
import Skyrise.Json.Text
import Skyrise.Storage.Formats.LoadedColumns
import Skyrise.Storage.IoHandle.ObjectBufferReads

namespace Skyrise

open Intervals ParquetFormatMetadataReader

/-- `ImportFormat`. -/
inductive ImportFormat where
  | csv
  | orc
  | parquet
deriving DecidableEq, Repr

/-- `LazyReaderConstructor`: what the factory makes a reader of. -/
structure LazyReaderConstructor where
  objectBuffer : ObjectBuffer
  objectSize : ℕ

/-! ### Object buffers of ranges -/

namespace ObjectBuffer

lemma mem_getOrderedRangesView_addBuffer {objectBuffer : ObjectBuffer}
    {buffer : Range × List UInt8} {range : Range} :
    range ∈ (objectBuffer.addBuffer buffer).getOrderedRangesView ↔
      range ∈ objectBuffer.getOrderedRangesView ∨ range = buffer.1 := by
  rw [getOrderedRangesView, getOrderedRangesView, addBuffer]
  obtain ⟨hadded, hkept⟩ := mem_emplace buffer objectBuffer.requestBuffer
  constructor
  · intro h
    obtain ⟨other, hother, rfl⟩ := List.mem_map.mp h
    rcases mem_of_mem_emplace hother with rfl | hother
    · exact .inr rfl
    · exact .inl (List.mem_map_of_mem hother)
  · rintro (h | rfl)
    · exact List.map_subset _ hkept h
    · exact hadded

/-- The object buffer of some ranges, with what the storage has read. -/
def ofRanges (object : StoredObject) (ranges : List Range) : ObjectBuffer :=
  ranges.foldl (fun objectBuffer range => objectBuffer.addBuffer (LoadedBuffer.load object range))
    empty

/-- An object buffer has the ranges that were added. -/
lemma mem_getOrderedRangesView_ofRanges (object : StoredObject) (ranges : List Range)
    {range : Range} : range ∈ (ofRanges object ranges).getOrderedRangesView ↔ range ∈ ranges := by
  have hfoldl : ∀ objectBuffer : ObjectBuffer,
      range ∈ (ranges.foldl (fun objectBuffer range =>
        objectBuffer.addBuffer (LoadedBuffer.load object range)) objectBuffer).getOrderedRangesView ↔
        range ∈ objectBuffer.getOrderedRangesView ∨ range ∈ ranges := by
    induction ranges with
    | nil => simp
    | cons first ranges ih =>
      intro objectBuffer
      rw [List.foldl_cons, ih, mem_getOrderedRangesView_addBuffer, LoadedBuffer.load, or_assoc,
        List.mem_cons]
  rw [ofRanges, hfoldl, or_iff_right]
  exact List.not_mem_nil

lemma points_ofRanges (object : StoredObject) (ranges : List Range) :
    points (ofRanges object ranges).getOrderedRangesView = points ranges := by
  ext x
  simp only [mem_points, mem_getOrderedRangesView_ofRanges]

/-- Ranges of the object make a loaded buffer. -/
lemma exists_loadedBuffer_ofRanges {object : StoredObject} {ranges : List Range}
    (h : ∀ r ∈ ranges, r.1 ≤ r.2 ∧ r.2 ≤ object.data.length) :
    ∃ buffer : LoadedBuffer object, buffer.toObjectBuffer = ofRanges object ranges := by
  have hfoldl : ∀ buffer : LoadedBuffer object, ∃ buffer' : LoadedBuffer object,
      buffer'.toObjectBuffer = ranges.foldl (fun objectBuffer range =>
        objectBuffer.addBuffer (LoadedBuffer.load object range)) buffer.toObjectBuffer := by
    induction ranges with
    | nil => exact fun buffer => ⟨buffer, rfl⟩
    | cons first ranges ih =>
      intro buffer
      rw [List.forall_mem_cons] at h
      exact ih h.2 (buffer.add first h.1.1 h.1.2)
  exact hfoldl ⟨empty, fun b hb => absurd hb List.not_mem_nil⟩

end ObjectBuffer

/-! ### The tasks -/

/-- `InputHandler`, with the queue of reader constructors. -/
structure InputHandler where
  bytesRead : UInt64
  formatReaders : List LazyReaderConstructor

namespace InputHandler

variable {R A : Type}

/-- `PrecomputeByteRanges`: the ranges of the object buffer. -/
def precomputeByteRanges (library : ParquetLibrary) (importFormat : ImportFormat)
    (object : StoredObject) (columns : Option (List UInt32)) (partitions : Option (List Int32)) :
    Except Exception (Option (List Range)) :=
  match importFormat with
  | .csv | .orc => .ok none
  | .parquet =>
    let options : ParquetFormatReaderOptions Unit Unit :=
      { includeColumns := columns, rowGroupIds := partitions }
    some <$> calculatePageOffsets .wrapping object library.fragment options

/-- The number of bytes of some ranges. -/
def readSize (ranges : List Range) : UInt64 :=
  ranges.foldl (fun readSize range => readSize + (.ofNat range.2 - .ofNat range.1)) 0

/-- What both tasks do when the storage has answered. -/
def emplaceReader (handler : InputHandler) (isError : ObjectBuffer → Bool) (object : StoredObject)
    (identifier : Bytes) (objectBuffer : ObjectBuffer) : Except Exception InputHandler := do
  assert (!isError objectBuffer) ("Error while loading object " ++ Bytes.toText identifier)
  return { bytesRead := handler.bytesRead + readSize objectBuffer.getOrderedRangesView
           formatReaders := handler.formatReaders ++ [⟨objectBuffer, object.data.length⟩] }

/-- `ReadObjectAsyncTask`.  Whether the storage reports an error is a parameter. -/
def readObjectAsyncTask (handler : InputHandler) (library : ParquetLibrary)
    (isError : ObjectBuffer → Bool) (importFormat : ImportFormat) (object : StoredObject)
    (identifier : Bytes) (columns : Option (List UInt32)) (partitions : Option (List Int32)) :
    Except Exception InputHandler := do
  match ← precomputeByteRanges library importFormat object columns partitions with
  | none => .error .badOptionalAccess
  | some ranges =>
    handler.emplaceReader isError object identifier (ObjectBuffer.ofRanges object ranges)

/-- `ReadObjectSyncTask`. -/
def readObjectSyncTask (handler : InputHandler) (isError : ObjectBuffer → Bool)
    (object : StoredObject) (identifier : Bytes) : Except Exception InputHandler :=
  handler.emplaceReader isError object identifier
    (ObjectBuffer.ofRanges object [(0, object.data.length)])

/-- The task of `CreateBufferedFormatReaders` for an object. -/
def readObject (library : ParquetLibrary) (isError : ObjectBuffer → Bool)
    (importFormat : ImportFormat) (columns : Option (List UInt32)) (handler : InputHandler)
    (task : ObjectReference × StoredObject) : Except Exception InputHandler :=
  if task.2.data.length < kS3ReadRequestSizeBytes then
    handler.readObjectSyncTask isError task.2 task.1.identifier
  else
    handler.readObjectAsyncTask library isError importFormat task.2 task.1.identifier columns
      task.1.partitions

/-- `CreateBufferedFormatReaders`, with the tasks in the order in which they run. -/
def createBufferedFormatReaders (library : ParquetLibrary) (isError : ObjectBuffer → Bool)
    (importFormat : ImportFormat) (columns : Option (List UInt32)) (handler : InputHandler)
    (tasks : List (ObjectReference × StoredObject)) : Except Exception InputHandler :=
  tasks.foldlM (readObject library isError importFormat columns) handler

/-! ### What is loaded -/

/-- Ranges that have what a reader of a format needs. -/
def Covers (library : ParquetLibrary) (importFormat : ImportFormat) (object : StoredObject)
    (columns : Option (List UInt32)) (partitions : Option (List Int32)) (ranges : List Range) :
    Prop :=
  match importFormat with
  | .csv | .orc => ∀ x < object.data.length, x ∈ points ranges
  | .parquet => CoversFile library object partitions columns ranges

/-- The task has an object buffer with what the reader needs, and enqueues the constructor of a
reader of it, unless the storage reports an error. -/
def LoadsForReader (handler : InputHandler) (library : ParquetLibrary)
    (importFormat : ImportFormat) (object : StoredObject) (identifier : Bytes)
    (columns : Option (List UInt32)) (partitions : Option (List Int32)) : Prop :=
  ∃ objectBuffer : ObjectBuffer,
    Covers library importFormat object columns partitions objectBuffer.getOrderedRangesView ∧
    ∀ isError : ObjectBuffer → Bool,
      handler.readObjectAsyncTask library isError importFormat object identifier columns
        partitions =
      if isError objectBuffer then
        .error (.assertionFailed ("Error while loading object " ++ Bytes.toText identifier))
      else .ok {
        bytesRead := handler.bytesRead + readSize objectBuffer.getOrderedRangesView
        formatReaders := handler.formatReaders ++ [⟨objectBuffer, object.data.length⟩] }

section

variable {handler : InputHandler} {library : ParquetLibrary} {isError : ObjectBuffer → Bool}
  {importFormat : ImportFormat} {object : StoredObject} {identifier : Bytes}
  {columns : Option (List UInt32)} {partitions : Option (List Int32)}

lemma emplaceReader_eq (handler : InputHandler) (isError : ObjectBuffer → Bool)
    (object : StoredObject) (identifier : Bytes) (objectBuffer : ObjectBuffer) :
    handler.emplaceReader isError object identifier objectBuffer =
      if isError objectBuffer then
        .error (.assertionFailed ("Error while loading object " ++ Bytes.toText identifier))
      else .ok {
        bytesRead := handler.bytesRead + readSize objectBuffer.getOrderedRangesView
        formatReaders := handler.formatReaders ++ [⟨objectBuffer, object.data.length⟩] } := by
  rw [emplaceReader]
  cases isError objectBuffer <;> rfl

/-- A task that ends with a reader constructor in the queue. -/
lemma LoadsForReader.exists_eq_ok (h : LoadsForReader handler library importFormat object identifier
    columns partitions) :
    ∃ objectBuffer bytesRead,
      Covers library importFormat object columns partitions objectBuffer.getOrderedRangesView ∧
      handler.readObjectAsyncTask library (fun _ => false) importFormat object identifier columns
        partitions =
        .ok ⟨bytesRead, handler.formatReaders ++ [⟨objectBuffer, object.data.length⟩]⟩ := by
  obtain ⟨objectBuffer, hcovers, htask⟩ := h
  exact ⟨objectBuffer, _, hcovers, htask fun _ => false⟩

/-- For a format without ranges the task throws. -/
lemma not_loadsForReader (hformat : importFormat ≠ .parquet) :
    ¬LoadsForReader handler library importFormat object identifier columns partitions := by
  intro h
  obtain ⟨objectBuffer, bytesRead, -, htask⟩ := h.exists_eq_ok
  cases importFormat with
  | csv => cases htask
  | orc => cases htask
  | parquet => exact hformat rfl

/-- What a large object that is loaded is, for every handler and identifier. -/
lemma loadsForReader_iff_fileIsLoaded (hsize : kS3ReadRequestSizeBytes ≤ object.data.length) :
    LoadsForReader handler library importFormat object identifier columns partitions ↔
      importFormat = .parquet ∧ FileIsLoaded library object partitions columns := by
  have h8 : 8 ≤ object.data.length := le_trans (by decide) hsize
  by_cases hformat : importFormat = .parquet
  swap
  · exact iff_of_false (not_loadsForReader hformat) fun h => hformat h.1
  subst hformat
  rw [and_iff_right rfl]
  refine Iff.trans ?_ (fileIsLoaded_iff
    ({ includeColumns := columns, rowGroupIds := partitions } : ParquetFormatReaderOptions Unit Unit)
    h8)
  constructor
  · intro h
    obtain ⟨objectBuffer, bytesRead, hcovers, htask⟩ := h.exists_eq_ok
    obtain ⟨ranges?, hranges?, htask⟩ := exists_of_bind_eq_ok htask
    cases hranges : calculatePageOffsets .wrapping object library.fragment
        ({ includeColumns := columns, rowGroupIds := partitions } :
          ParquetFormatReaderOptions Unit Unit) with
    | error e =>
      rw [precomputeByteRanges, hranges] at hranges?
      cases hranges?
    | ok ranges =>
      rw [precomputeByteRanges, hranges] at hranges?
      obtain rfl := Except.ok.inj hranges?
      refine ⟨ranges, rfl, ?_⟩
      change handler.emplaceReader (fun _ => false) object identifier
        (ObjectBuffer.ofRanges object ranges) = _ at htask
      rw [emplaceReader_eq, if_neg Bool.false_ne_true, Except.ok.injEq, InputHandler.mk.injEq,
        List.append_cancel_left_eq, List.cons.injEq, LazyReaderConstructor.mk.injEq] at htask
      obtain rfl : ObjectBuffer.ofRanges object ranges = objectBuffer := htask.2.1.1
      rw [Covers, CoversFile, ObjectBuffer.points_ofRanges] at hcovers
      exact hcovers
  · rintro ⟨ranges, hranges, hcovers⟩
    refine ⟨ObjectBuffer.ofRanges object ranges, ?_, fun isError => ?_⟩
    · rw [Covers, CoversFile, ObjectBuffer.points_ofRanges]
      exact hcovers
    · rw [← emplaceReader_eq, readObjectAsyncTask, precomputeByteRanges, hranges]
      rfl

/-- A reader constructor whose object buffer has all of an object. -/
def HasWhole (object : StoredObject) (reader : LazyReaderConstructor) : Prop :=
  reader.objectSize = object.data.length ∧
    ∀ x < object.data.length, x ∈ points reader.objectBuffer.getOrderedRangesView

/-- One task for a small object. -/
lemma readObject_of_lt (library : ParquetLibrary) (importFormat : ImportFormat)
    (columns : Option (List UInt32)) (handler : InputHandler)
    {task : ObjectReference × StoredObject}
    (hlt : task.2.data.length < kS3ReadRequestSizeBytes)
    (hread : ∀ objectBuffer, isError objectBuffer = false) :
    ∃ bytesRead reader, readObject library isError importFormat columns handler task =
      .ok ⟨bytesRead, handler.formatReaders ++ [reader]⟩ ∧ HasWhole task.2 reader := by
  have hok := emplaceReader_eq handler isError task.2 task.1.identifier
    (ObjectBuffer.ofRanges task.2 [(0, task.2.data.length)])
  rw [hread, if_neg Bool.false_ne_true] at hok
  rw [readObject, if_pos hlt, readObjectSyncTask, hok]
  refine ⟨_, _, rfl, rfl, fun x hx => ?_⟩
  rw [ObjectBuffer.points_ofRanges]
  exact ⟨_, List.mem_singleton_self _, Nat.zero_le x, hx⟩

/-- **Loading small objects.**  In every format, for any columns and partitions, there is a reader
with all of each object. -/
theorem createBufferedFormatReaders_of_lt {tasks : List (ObjectReference × StoredObject)}
    (hlt : ∀ task ∈ tasks, task.2.data.length < kS3ReadRequestSizeBytes)
    (hread : ∀ objectBuffer, isError objectBuffer = false) :
    ∃ bytesRead readers,
      createBufferedFormatReaders library isError importFormat columns handler tasks =
        .ok ⟨bytesRead, handler.formatReaders ++ readers⟩ ∧
      List.Forall₂ (fun task reader => HasWhole task.2 reader) tasks readers := by
  induction tasks generalizing handler with
  | nil =>
    refine ⟨handler.bytesRead, [], ?_, .nil⟩
    rw [createBufferedFormatReaders, List.foldlM_nil, List.append_nil]
    rfl
  | cons task tasks ih =>
    rw [List.forall_mem_cons] at hlt
    obtain ⟨bytesRead, reader, hok, hwhole⟩ :=
      readObject_of_lt library importFormat columns handler hlt.1 hread
    obtain ⟨bytesRead', readers, hrest, hreaders⟩ :=
      @ih ⟨bytesRead, handler.formatReaders ++ [reader]⟩ hlt.2
    refine ⟨bytesRead', reader :: readers, ?_, .cons hwhole hreaders⟩
    rw [createBufferedFormatReaders, List.foldlM_cons, hok]
    change createBufferedFormatReaders library isError importFormat columns _ tasks = _
    rw [hrest, List.append_assoc, List.singleton_append]

end

/-- An object of one request, with zeros. -/
def largeObject : StoredObject where
  data := List.replicate kS3ReadRequestSizeBytes 0
  length_lt := by
    rw [List.length_replicate]
    decide

lemma length_largeObject : largeObject.data.length = kS3ReadRequestSizeBytes :=
  List.length_replicate

/-- The metadata of a file with one row group of two columns. -/
def twoColumnsMetaData : FileMetaData :=
  ⟨2, [⟨4, 8, 8, [⟨4, none, 4⟩, ⟨8, none, 4⟩]⟩], false⟩

end InputHandler

end Skyrise

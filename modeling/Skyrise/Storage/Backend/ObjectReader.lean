/-
Reading a range of an object.

`Read` of an object reader returns the bytes from the first to the last of a range,
both included; the maximum of `size_t` stands for the last byte of the object.
Every storage backend computes the number of bytes, or the range header of its
request, in 64-bit arithmetic.  The HTTP server is a parameter: a header
`bytes=a-b` includes both ends, and one whose ends are in the wrong order is not
satisfied.
-/
import Mathlib.Algebra.Group.Nat.Defs
import Skyrise.Utils.Assert

namespace Skyrise

/-- An object of a storage; its size is a signed file offset. -/
structure StoredObject where
  /-- The bytes. -/
  data : List UInt8
  length_lt : data.length < 2 ^ 63

/-- The size of an object. -/
def StoredObject.size (object : StoredObject) : UInt64 := .ofNat object.data.length

lemma StoredObject.size_toNat (object : StoredObject) : object.size.toNat = object.data.length := by
  have hlt := object.length_lt
  rw [size, UInt64.toNat_ofNat']
  omega

/-- Why a range is not read. -/
inductive ReadError where
  /-- The reader reports an I/O error. -/
  | ioError
  /-- The service refuses the request. -/
  | invalidRange
  /-- The reader throws. -/
  | thrown (exception : Exception)
deriving DecidableEq, Repr

namespace ObjectReader

/-- The last byte of any object. -/
def kLastByteInFile : UInt64 := 0xFFFFFFFFFFFFFFFF

/-- The bytes of a range that includes both ends, up to the end of the object. -/
def bytes (object : StoredObject) (firstByte lastByte : ℕ) : List UInt8 :=
  (object.data.drop firstByte).take (min lastByte (object.data.length - 1) - firstByte + 1)

end ObjectReader

open ObjectReader

/-! ### The filesystem -/

/-- `Resize` of a byte buffer, whose vector has a maximum size. -/
def ByteBuffer.resize (newSize : UInt64) : Except ReadError Unit :=
  if newSize.toNat < 2 ^ 63 then .ok () else .error (.thrown .lengthError)

/-- The number of bytes that `FilesystemReader::Read` wants to read. -/
def FilesystemReader.bytesLeft (object : StoredObject) (firstByte lastByte : UInt64) : UInt64 :=
  let bytesLeft := lastByte - firstByte + 1
  let bytesLeft := if lastByte = kLastByteInFile then kLastByteInFile else bytesLeft
  -- The file has no more bytes than its size.
  let fileSize := object.size
  if firstByte + bytesLeft > fileSize then fileSize - firstByte else bytesLeft

/-- `FilesystemReader::Read`. -/
def FilesystemReader.read (object : StoredObject) (firstByte lastByte : UInt64) :
    Except ReadError (List UInt8) := do
  let bytesLeft := FilesystemReader.bytesLeft object firstByte lastByte
  ByteBuffer.resize bytesLeft
  let buffer := (object.data.drop firstByte.toNat).take bytesLeft.toNat
  if buffer.length ≠ bytesLeft.toNat then .error .ioError else pure buffer

/-! ### DynamoDB -/

/-- `DynamoDbObjectReader::Read`. -/
def DynamoDbObjectReader.read (object : StoredObject) (firstByte lastByte : UInt64) :
    Except ReadError (List UInt8) :=
  if firstByte < object.size then
    let lastByte := min lastByte (object.size - 1)
    let readLength := lastByte - firstByte + 1
    .ok ((object.data.drop firstByte.toNat).take readLength.toNat)
  else .error (.thrown (.assertionFailed "First byte read is out of bounds."))

/-! ### S3 -/

/-- The range header `bytes=first-last` of a request; without a last byte it ends with the object. -/
structure RangeHeader where
  /-- The first byte. -/
  first : ℕ
  /-- The last byte. -/
  last : Option ℕ
deriving DecidableEq, Repr

/-- An HTTP server that serves ranges of objects. -/
structure RangeServer where
  /-- The answer to a request for an object, with or without a range header. -/
  getObject : StoredObject → Option RangeHeader → Except ReadError (List UInt8)
  getObject_none : ∀ object, getObject object none = .ok object.data
  getObject_open : ∀ object first, first < object.data.length →
    getObject object (some ⟨first, none⟩) = .ok (object.data.drop first)
  getObject_closed : ∀ object first last, first < object.data.length → first ≤ last →
    getObject object (some ⟨first, some last⟩) = .ok (bytes object first last)
  /-- A header with the last byte before the first is ignored or refused. -/
  getObject_invalid : ∀ object first last, last < first →
    getObject object (some ⟨first, some last⟩) = .ok object.data ∨
      getObject object (some ⟨first, some last⟩) = .error .invalidRange

/-- `GetRangeString`. -/
def S3ObjectReader.getRangeString (firstByte lastByte : UInt64) : RangeHeader :=
  ⟨firstByte.toNat, if lastByte ≠ kLastByteInFile then some (lastByte - 1).toNat else none⟩

/-- `S3ObjectReader::Read`. -/
def S3ObjectReader.read (server : RangeServer) (object : StoredObject)
    (firstByte lastByte : UInt64) : Except ReadError (List UInt8) :=
  let readEntireObject := firstByte = 0 ∧ lastByte = kLastByteInFile
  server.getObject object
    (if readEntireObject then none else some (getRangeString firstByte lastByte))

/-! ### Which ranges are read -/

section Ranges

variable {object : StoredObject} {firstByte lastByte : UInt64}

lemma kLastByteInFile_toNat : kLastByteInFile.toNat = 2 ^ 64 - 1 := rfl

lemma toNat_lt_of_ne_kLastByteInFile (h : lastByte ≠ kLastByteInFile) :
    lastByte.toNat < 2 ^ 64 - 1 := by
  have hlt := lastByte.toNat_lt
  have hne : lastByte.toNat ≠ 2 ^ 64 - 1 := fun heq => h (UInt64.toNat_inj.mp heq)
  omega

/-- The bytes from the first on, up to a number of bytes that the object has. -/
lemma take_eq_bytes {first last count : ℕ} (hfirst : first < object.data.length)
    (hlast : first ≤ last) (hcount : count = min (last + 1) object.data.length - first) :
    (object.data.drop first).take count = bytes object first last := by
  rw [bytes, hcount]
  congr 1
  omega

/-- A file is read if the number of bytes is that of the range. -/
lemma FilesystemReader.read_eq_ok (hfirst : firstByte.toNat < object.data.length)
    (hle : firstByte.toNat ≤ lastByte.toNat)
    (hcount : (FilesystemReader.bytesLeft object firstByte lastByte).toNat =
      min (lastByte.toNat + 1) object.data.length - firstByte.toNat) :
    FilesystemReader.read object firstByte lastByte =
      .ok (bytes object firstByte.toNat lastByte.toNat) := by
  have hlength := object.length_lt
  have hresize : ByteBuffer.resize (FilesystemReader.bytesLeft object firstByte lastByte) =
      .ok () := if_pos (by omega)
  have htake : ((object.data.drop firstByte.toNat).take
      (FilesystemReader.bytesLeft object firstByte lastByte).toNat).length =
        (FilesystemReader.bytesLeft object firstByte lastByte).toNat := by
    rw [List.length_take, List.length_drop]
    omega
  rw [FilesystemReader.read, hresize, ← take_eq_bytes hfirst hle hcount]
  exact if_neg (not_not.mpr htake)

/-- The number of bytes, except from a later byte on to the end. -/
lemma FilesystemReader.bytesLeft_toNat (hfirst : firstByte.toNat < object.data.length)
    (hle : firstByte ≤ lastByte) (hlast : lastByte = kLastByteInFile → firstByte = 0) :
    (FilesystemReader.bytesLeft object firstByte lastByte).toNat =
      min (lastByte.toNat + 1) object.data.length - firstByte.toNat := by
  have hle' : firstByte.toNat ≤ lastByte.toNat := UInt64.le_iff_toNat_le.mp hle
  have hlength := object.length_lt
  have hsize := object.size_toNat
  have hrest : (object.size - firstByte).toNat = object.data.length - firstByte.toNat := by
    rw [UInt64.toNat_sub_of_le _ _ (by rw [UInt64.le_iff_toNat_le, hsize]; omega), hsize]
  by_cases hend : lastByte = kLastByteInFile
  · obtain rfl := hlast hend
    have hgt : (0 : UInt64) + kLastByteInFile > object.size := by
      rw [UInt64.zero_add, gt_iff_lt, UInt64.lt_iff_toNat_lt, kLastByteInFile_toNat, hsize]
      omega
    rw [FilesystemReader.bytesLeft, if_pos hend, if_pos hgt, hrest, hend, kLastByteInFile_toNat]
    omega
  · have hlt := toNat_lt_of_ne_kLastByteInFile hend
    have hcount : (lastByte - firstByte + 1).toNat = lastByte.toNat - firstByte.toNat + 1 := by
      rw [UInt64.toNat_add, UInt64.toNat_sub_of_le _ _ hle, UInt64.toNat_one]
      omega
    have hsum : (firstByte + (lastByte - firstByte + 1)).toNat = lastByte.toNat + 1 := by
      rw [UInt64.toNat_add, hcount]
      omega
    rw [FilesystemReader.bytesLeft, if_neg hend]
    split
    · next hgt =>
      rw [gt_iff_lt, UInt64.lt_iff_toNat_lt, hsum, hsize] at hgt
      rw [hrest]
      omega
    · next hgt =>
      rw [gt_iff_lt, UInt64.lt_iff_toNat_lt, hsum, hsize] at hgt
      rw [hcount]
      omega

/-- From a later byte on to the end the sum of the number and the first byte wraps around, and the
buffer cannot be as large. -/
lemma FilesystemReader.read_kLastByteInFile (hfirst : firstByte.toNat < object.data.length)
    (hne : firstByte ≠ 0) :
    FilesystemReader.read object firstByte kLastByteInFile = .error (.thrown .lengthError) := by
  have hlength := object.length_lt
  have hpos : 0 < firstByte.toNat :=
    Nat.pos_of_ne_zero fun hzero => hne (UInt64.toNat_inj.mp hzero)
  have hnot : ¬ firstByte + kLastByteInFile > object.size := by
    rw [gt_iff_lt, UInt64.lt_iff_toNat_lt, UInt64.toNat_add, kLastByteInFile_toNat,
      object.size_toNat]
    omega
  have hcount : FilesystemReader.bytesLeft object firstByte kLastByteInFile = kLastByteInFile := by
    rw [FilesystemReader.bytesLeft, if_pos rfl, if_neg hnot]
  rw [FilesystemReader.read, hcount]
  rfl

/-- A file is read as documented, except from a later byte on to its end. -/
lemma FilesystemReader.read_eq_ok_iff (hfirst : firstByte.toNat < object.data.length)
    (hle : firstByte ≤ lastByte) :
    FilesystemReader.read object firstByte lastByte =
        .ok (bytes object firstByte.toNat lastByte.toNat) ↔
      (lastByte = kLastByteInFile → firstByte = 0) := by
  refine ⟨fun hread hlast => ?_, fun hlast => ?_⟩
  · by_contra hne
    rw [hlast, FilesystemReader.read_kLastByteInFile hfirst hne] at hread
    cases hread
  · exact FilesystemReader.read_eq_ok hfirst (UInt64.le_iff_toNat_le.mp hle)
      (FilesystemReader.bytesLeft_toNat hfirst hle hlast)

/-- An item is read as documented. -/
lemma DynamoDbObjectReader.read_eq_ok (hfirst : firstByte.toNat < object.data.length)
    (hle : firstByte ≤ lastByte) :
    DynamoDbObjectReader.read object firstByte lastByte =
      .ok (bytes object firstByte.toNat lastByte.toNat) := by
  have hle' : firstByte.toNat ≤ lastByte.toNat := UInt64.le_iff_toNat_le.mp hle
  have hsize := object.size_toNat
  have hone : (object.size - 1).toNat = object.data.length - 1 := by
    rw [UInt64.toNat_sub_of_le _ _ (by rw [UInt64.le_iff_toNat_le, hsize, UInt64.toNat_one]; omega),
      hsize, UInt64.toNat_one]
  have hmin : (min lastByte (object.size - 1)).toNat =
      min lastByte.toNat (object.data.length - 1) := by
    show (if lastByte ≤ object.size - 1 then lastByte else object.size - 1).toNat = _
    split
    · next hmin =>
      rw [UInt64.le_iff_toNat_le, hone] at hmin
      omega
    · next hmin =>
      rw [UInt64.le_iff_toNat_le, hone] at hmin
      omega
  have hlength := object.length_lt
  rw [DynamoDbObjectReader.read, if_pos (by rwa [UInt64.lt_iff_toNat_lt, hsize]), bytes]
  show Except.ok (((object.data.drop firstByte.toNat).take
    (min lastByte (object.size - 1) - firstByte + 1).toNat)) = _
  congr 2
  rw [UInt64.toNat_add, UInt64.toNat_sub_of_le _ _ (by rw [UInt64.le_iff_toNat_le, hmin]; omega),
    hmin, UInt64.toNat_one]
  omega

/-- The whole of an object is the range up to its last byte or beyond. -/
lemma drop_eq_bytes {first last : ℕ} (hfirst : first < object.data.length) (hle : first ≤ last)
    (hlast : object.data.length ≤ last + 1) : object.data.drop first = bytes object first last := by
  rw [← take_eq_bytes hfirst hle rfl, List.take_of_length_le]
  rw [List.length_drop]
  omega

lemma bytes_length {first last : ℕ} (hfirst : first < object.data.length) (hle : first ≤ last) :
    (bytes object first last).length = min (last + 1) object.data.length - first := by
  rw [← take_eq_bytes hfirst hle rfl, List.length_take, List.length_drop]
  omega

/-- An S3 object is read as documented only up to its end or beyond, and not up to an earlier last
byte, which the request leaves out. -/
lemma S3ObjectReader.read_eq_ok_iff (server : RangeServer)
    (hfirst : firstByte.toNat < object.data.length) (hle : firstByte ≤ lastByte) :
    S3ObjectReader.read server object firstByte lastByte =
        .ok (bytes object firstByte.toNat lastByte.toNat) ↔
      object.data.length ≤ lastByte.toNat ∨ lastByte = 0 ∧ object.data.length = 1 := by
  have hle' : firstByte.toNat ≤ lastByte.toNat := UInt64.le_iff_toNat_le.mp hle
  have hlength := object.length_lt
  by_cases hend : lastByte = kLastByteInFile
  · refine iff_of_true ?_ (.inl (by rw [hend, kLastByteInFile_toNat]; omega))
    rw [S3ObjectReader.read]
    split
    · next hentire =>
      rw [server.getObject_none, ← drop_eq_bytes hfirst hle']
      · rw [hentire.1]
        rfl
      · rw [hend, kLastByteInFile_toNat]
        omega
    · rw [getRangeString, if_neg (not_not.mpr hend), server.getObject_open _ _ hfirst,
        drop_eq_bytes hfirst hle']
      rw [hend, kLastByteInFile_toNat]
      omega
  · rw [S3ObjectReader.read, if_neg fun h => hend h.2, getRangeString, if_pos hend]
    by_cases hzero : lastByte = 0
    · -- the header wraps around to the end
      subst hzero
      have hfirst0 : firstByte.toNat = 0 := by simpa using hle'
      rw [hfirst0] at hfirst ⊢
      rw [server.getObject_closed _ _ _ hfirst (Nat.zero_le _), Except.ok.injEq]
      constructor
      · intro heq
        have hcongr := congrArg List.length heq
        rw [bytes_length hfirst (Nat.zero_le _), bytes_length hfirst (Nat.zero_le _)] at hcongr
        right
        refine ⟨rfl, ?_⟩
        have hmax : ((0 : UInt64) - 1).toNat = 2 ^ 64 - 1 := rfl
        rw [hmax, UInt64.toNat_zero] at hcongr
        omega
      · rintro (hlast | ⟨-, hone⟩)
        · rw [UInt64.toNat_zero] at hlast
          omega
        · rw [bytes, bytes, hone]
          simp
    · have hpos : 0 < lastByte.toNat :=
        Nat.pos_of_ne_zero fun h0 => hzero (UInt64.toNat_inj.mp h0)
      have hpred : (lastByte - 1).toNat = lastByte.toNat - 1 := by
        rw [UInt64.toNat_sub_of_le _ _ (by rw [UInt64.le_iff_toNat_le, UInt64.toNat_one]; omega),
          UInt64.toNat_one]
      rw [hpred, or_iff_left fun h => hzero h.1]
      have hlen := bytes_length hfirst hle'
      rcases Nat.lt_or_ge (lastByte.toNat - 1) firstByte.toNat with hlt | hge
      · -- a single byte: the ends of the header are in the wrong order
        refine iff_of_false (fun heq => ?_) (by omega)
        rcases server.getObject_invalid object _ _ hlt with hall | herror
        · rw [hall, Except.ok.injEq] at heq
          rw [← heq] at hlen
          omega
        · rw [herror] at heq
          cases heq
      · rw [server.getObject_closed _ _ _ hfirst hge, Except.ok.injEq]
        constructor
        · intro heq
          rw [← heq, bytes_length hfirst hge] at hlen
          omega
        · intro hlast
          rw [← drop_eq_bytes hfirst hge (by omega), drop_eq_bytes hfirst hle' (by omega)]

end Ranges

/-- **Range reads**: DynamoDB returns the bytes of every range, the filesystem those of every range
but the ones from a later byte to the end of the object, and S3 those of the ranges to the end and
not of any other, except the only byte of an object. -/
theorem ObjectReader.read_ranges (server : RangeServer) (object : StoredObject)
    (firstByte lastByte : UInt64) (hfirst : firstByte.toNat < object.data.length)
    (hle : firstByte ≤ lastByte) :
    (DynamoDbObjectReader.read object firstByte lastByte =
      .ok (bytes object firstByte.toNat lastByte.toNat)) ∧
    (FilesystemReader.read object firstByte lastByte =
        .ok (bytes object firstByte.toNat lastByte.toNat) ↔
      (lastByte = kLastByteInFile → firstByte = 0)) ∧
    (S3ObjectReader.read server object firstByte lastByte =
        .ok (bytes object firstByte.toNat lastByte.toNat) ↔
      object.data.length ≤ lastByte.toNat ∨ lastByte = 0 ∧ object.data.length = 1) :=
  ⟨DynamoDbObjectReader.read_eq_ok hfirst hle, FilesystemReader.read_eq_ok_iff hfirst hle,
    S3ObjectReader.read_eq_ok_iff server hfirst hle⟩

/-- A server that ignores a range header with its ends in the wrong order. -/
def RangeServer.ignoring : RangeServer where
  getObject object
    | none => .ok object.data
    | some ⟨first, none⟩ => .ok (object.data.drop first)
    | some ⟨first, some last⟩ => .ok (if last < first then object.data else bytes object first last)
  getObject_none _ := rfl
  getObject_open _ _ _ := rfl
  getObject_closed _ _ _ _ hle := congrArg Except.ok (if_neg (Nat.not_lt.mpr hle))
  getObject_invalid _ _ _ hlt := .inl (congrArg Except.ok (if_pos hlt))

/-- An object of three bytes. -/
def StoredObject.three : StoredObject := ⟨[1, 2, 3], by decide⟩

theorem ObjectReader.read_ranges_three :
    DynamoDbObjectReader.read .three 1 1 = .ok [2] ∧
    FilesystemReader.read .three 1 1 = .ok [2] ∧
    S3ObjectReader.read .ignoring .three 1 3 = .ok [2, 3] := by
  obtain ⟨hdynamo, hfile, -⟩ := ObjectReader.read_ranges .ignoring .three 1 1 (by decide) (by decide)
  obtain ⟨-, -, hs3⟩ := ObjectReader.read_ranges .ignoring .three 1 3 (by decide) (by decide)
  exact ⟨hdynamo, hfile.mpr (by decide), hs3.mpr (by decide)⟩

/-- A middle byte is not what S3 returns, and the bytes from a later one to the end of a file
cannot be read. -/
theorem ObjectReader.not_read_ranges :
    ¬ (∀ (server : RangeServer) (object : StoredObject) (firstByte lastByte : UInt64),
      firstByte.toNat < object.data.length → firstByte ≤ lastByte →
        S3ObjectReader.read server object firstByte lastByte =
          .ok (bytes object firstByte.toNat lastByte.toNat)) ∧
    ¬ (∀ (object : StoredObject) (firstByte lastByte : UInt64),
      firstByte.toNat < object.data.length → firstByte ≤ lastByte →
        FilesystemReader.read object firstByte lastByte =
          .ok (bytes object firstByte.toNat lastByte.toNat)) := by
  refine ⟨fun h => ?_, fun h => ?_⟩
  · exact absurd (h .ignoring .three 0 1 (by decide) (by decide)) (by decide)
  · exact absurd (h .three 1 kLastByteInFile (by decide) (by decide)) (by decide)

end Skyrise

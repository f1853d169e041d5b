/-
The schema of a table in binary form.

A stream takes bytes at its end and gives them back from its start.  Numbers have eight
bytes, flags one, and a text is its length and its bytes.  A column is its name, the name
of its type and a flag, and a schema is the number of its columns and the columns.

A read that finds too few bytes takes what there is, and then the stream is not good any
more and gives nothing.
-/
import Skyrise.Expression.AbstractExpression
import Skyrise.Utils.Assert
import Skyrise.Utils.LittleEndian

namespace Skyrise

open MagicEnum Bytes

/-- `TableColumnDefinition`, with a name of any bytes. -/
structure ColumnDefinition where
  name : Bytes
  dataType : DataType
  nullable : Bool
deriving DecidableEq, Repr

/-- `BinarySerializationStream`: the bytes that were written and not read. -/
structure BinarySerializationStream where
  unread : Bytes := []
  good : Bool := true
deriving DecidableEq, Repr

namespace BinarySerializationStream

/-- The bytes of an `int64_t`. -/
def int64Bytes (value : Int64) : Bytes := LittleEndian.bytes 8 value.toUInt64.toNat

/-- The `int64_t` with some bytes. -/
def int64OfBytes (bytes : Bytes) : Int64 := (UInt64.ofNat (LittleEndian.value bytes)).toInt64

/-! ### Writing -/

/-- `write` of the stream. -/
def write (bytes : Bytes) (s : BinarySerializationStream) : BinarySerializationStream :=
  if s.good then { s with unread := s.unread ++ bytes } else s

/-- `operator<<` of a number. -/
def writeInt64 (value : Int64) (s : BinarySerializationStream) : BinarySerializationStream :=
  s.write (int64Bytes value)

/-- `operator<<` of a flag. -/
def writeBool (value : Bool) (s : BinarySerializationStream) : BinarySerializationStream :=
  s.write [if value then 1 else 0]

/-- `operator<<` of a text. -/
def writeString (value : Bytes) (s : BinarySerializationStream) : BinarySerializationStream :=
  (s.writeInt64 (.ofNat value.length)).write value

/-- `operator<<` of a column. -/
def writeDefinition (value : ColumnDefinition) (s : BinarySerializationStream) :
    BinarySerializationStream :=
  ((s.writeString value.name).writeString (enumName value.dataType : Bytes)).writeBool value.nullable

/-- `operator<<` of a schema. -/
def writeDefinitions (values : List ColumnDefinition) (s : BinarySerializationStream) :
    BinarySerializationStream :=
  values.foldl (fun s value => s.writeDefinition value) (s.writeInt64 (.ofNat values.length))

/-! ### Reading -/

/-- `read` of the stream. -/
def read (n : ℕ) (s : BinarySerializationStream) : Bytes × BinarySerializationStream :=
  if s.good then
    (s.unread.take n, { unread := s.unread.drop n, good := decide (n ≤ s.unread.length) })
  else ([], s)

/-- `operator>>` of a number, which is zero before; the bytes that are read replace the lowest. -/
def readInt64 (s : BinarySerializationStream) : Int64 × BinarySerializationStream :=
  let (bytes, s) := s.read 8
  (int64OfBytes (bytes ++ (int64Bytes 0).drop bytes.length), s)

/-- `operator>>` of a flag. -/
def readBool (s : BinarySerializationStream) : Bool × BinarySerializationStream :=
  let (bytes, s) := s.read 1
  (bytes.headD 0 = 1, s)

/-- `operator>>` of a text, which is empty before.  It gets its length before its bytes. -/
def readString (s : BinarySerializationStream) :
    Except Exception (Bytes × BinarySerializationStream) :=
  let (stringLength, s) := s.readInt64
  if stringLength < 0 then .error .lengthError
  else
    let (bytes, s) := s.read stringLength.toInt.toNat
    .ok (bytes ++ List.replicate (stringLength.toInt.toNat - bytes.length) 0, s)

/-- `operator>>` of a column. -/
def readDefinition (s : BinarySerializationStream) :
    Except Exception (ColumnDefinition × BinarySerializationStream) := do
  let (name, s) ← s.readString
  let (enumValue, s) ← s.readString
  let (nullable, s) := s.readBool
  match enumCast enumValue with
  | some dataType => return (⟨name, dataType, nullable⟩, s)
  | none => .error .badOptionalAccess

/-- The loop of `operator>>` of a schema. -/
def readDefinitionsLoop : ℕ → BinarySerializationStream →
    Except Exception (List ColumnDefinition × BinarySerializationStream)
  | 0, s => .ok ([], s)
  | n + 1, s => do
    let (value, s) ← s.readDefinition
    let (values, s) ← readDefinitionsLoop n s
    return (value :: values, s)

/-- `operator>>` of a schema, which is empty before. -/
def readDefinitions (s : BinarySerializationStream) :
    Except Exception (List ColumnDefinition × BinarySerializationStream) :=
  let (numberOfDefinitions, s) := s.readInt64
  if numberOfDefinitions < 0 then .error .lengthError
  else readDefinitionsLoop numberOfDefinitions.toInt.toNat s

/-! ### What is written -/

variable {s : BinarySerializationStream} {bytes rest : Bytes}

/-- The bytes of a text. -/
def stringBytes (value : Bytes) : Bytes := int64Bytes (.ofNat value.length) ++ value

/-- The bytes of a flag. -/
def boolBytes (value : Bool) : Bytes := [if value then 1 else 0]

/-- The bytes of a column. -/
def definitionBytes (value : ColumnDefinition) : Bytes :=
  stringBytes value.name ++ stringBytes (enumName value.dataType : Bytes) ++
    boolBytes value.nullable

/-- The bytes of a schema. -/
def definitionsBytes (values : List ColumnDefinition) : Bytes :=
  int64Bytes (.ofNat values.length) ++ values.flatMap definitionBytes

lemma write_unread (bytes bytes' : Bytes) :
    write bytes { unread := bytes' } = { unread := bytes' ++ bytes } := rfl

lemma writeDefinition_unread (value : ColumnDefinition) (bytes : Bytes) :
    writeDefinition value { unread := bytes } = { unread := bytes ++ definitionBytes value } := by
  simp only [writeDefinition, writeString, writeInt64, writeBool, write_unread, definitionBytes,
    stringBytes, boolBytes, List.append_assoc]

lemma writeDefinitions_unread (values : List ColumnDefinition) (bytes : Bytes) :
    writeDefinitions values { unread := bytes } =
      { unread := bytes ++ definitionsBytes values } := by
  have hloop : ∀ bytes : Bytes, values.foldl (fun s value => writeDefinition value s)
      { unread := bytes } = { unread := bytes ++ values.flatMap definitionBytes } := by
    induction values with
    | nil => exact fun bytes => by rw [List.flatMap_nil, List.append_nil]; rfl
    | cons value values ih =>
      intro bytes
      rw [List.foldl_cons, writeDefinition_unread, ih, List.flatMap_cons, List.append_assoc]
  rw [writeDefinitions, writeInt64, write_unread, hloop, definitionsBytes, List.append_assoc]

/-! ### Reading it back -/

lemma read_append (bytes rest : Bytes) :
    read bytes.length { unread := bytes ++ rest } = (bytes, { unread := rest }) := by
  rw [read, if_pos rfl, List.take_left, List.drop_left]
  simp

lemma length_int64Bytes (value : Int64) : (int64Bytes value).length = 8 :=
  LittleEndian.length_bytes _ _

lemma int64OfBytes_int64Bytes (value : Int64) : int64OfBytes (int64Bytes value) = value := by
  rw [int64OfBytes, int64Bytes, LittleEndian.value_bytes]
  have hlt : value.toUInt64.toNat < 256 ^ 8 := value.toUInt64.toNat_lt
  rw [Nat.mod_eq_of_lt hlt, UInt64.ofNat_toNat]
  rfl

/-- A number is read back. -/
lemma readInt64_append (value : Int64) (rest : Bytes) :
    readInt64 { unread := int64Bytes value ++ rest } = (value, { unread := rest }) := by
  have hread := read_append (int64Bytes value) rest
  rw [length_int64Bytes] at hread
  rw [readInt64, hread]
  dsimp only
  rw [length_int64Bytes, List.drop_eq_nil_of_le (length_int64Bytes 0).le, List.append_nil,
    int64OfBytes_int64Bytes]

/-- A length is not negative. -/
lemma ofNat_spec {n : ℕ} (h : n < 2 ^ 63) :
    ¬ Int64.ofNat n < 0 ∧ (Int64.ofNat n).toInt.toNat = n := by
  have hn : (Int64.ofNat n).toInt = n := Int64.toInt_ofNat_of_lt h
  rw [Int64.lt_iff_toInt_lt, hn]
  exact ⟨by simp, by simp⟩

/-- A text is read back. -/
lemma readString_append {value : Bytes} (h : value.length < 2 ^ 63) (rest : Bytes) :
    readString { unread := stringBytes value ++ rest } = .ok (value, { unread := rest }) := by
  obtain ⟨hnonneg, hlength⟩ := ofNat_spec h
  rw [readString, stringBytes, List.append_assoc, readInt64_append]
  dsimp only
  rw [if_neg hnonneg, hlength, read_append]
  dsimp only
  rw [Nat.sub_self, List.replicate_zero, List.append_nil]

/-- A flag is read back. -/
lemma readBool_append (value : Bool) (rest : Bytes) :
    readBool { unread := boolBytes value ++ rest } = (value, { unread := rest }) := by
  have hread := read_append (boolBytes value) rest
  rw [readBool, show read 1 _ = _ from hread]
  cases value <;> rfl

/-- The name of a type is a short text. -/
lemma length_enumName (dataType : DataType) : (enumName dataType : Bytes).length < 2 ^ 63 := by
  cases dataType <;> decide

/-- A column is read back. -/
lemma readDefinition_append {value : ColumnDefinition} (h : value.name.length < 2 ^ 63)
    (rest : Bytes) :
    readDefinition { unread := definitionBytes value ++ rest } =
      .ok (value, { unread := rest }) := by
  rw [readDefinition, definitionBytes, List.append_assoc, List.append_assoc, readString_append h]
  dsimp only [bind, Except.bind]
  rw [readString_append (length_enumName value.dataType)]
  dsimp only
  rw [readBool_append, enumCast_enumName]
  rfl

lemma readDefinitionsLoop_append {values : List ColumnDefinition}
    (h : ∀ value ∈ values, value.name.length < 2 ^ 63) (rest : Bytes) :
    readDefinitionsLoop values.length { unread := values.flatMap definitionBytes ++ rest } =
      .ok (values, { unread := rest }) := by
  induction values with
  | nil => rfl
  | cons value values ih =>
    rw [List.forall_mem_cons] at h
    rw [List.length_cons, readDefinitionsLoop, List.flatMap_cons, List.append_assoc,
      readDefinition_append h.1]
    dsimp only [bind, Except.bind]
    rw [ih h.2]
    rfl

/-- **The round trip of a schema**, whose lengths are those of vectors and texts: what follows it
is left unread. -/
theorem readDefinitions_writeDefinitions (values : List ColumnDefinition) (rest : Bytes)
    (hlength : values.length < 2 ^ 63) (hnames : ∀ value ∈ values, value.name.length < 2 ^ 63) :
    readDefinitions (write rest (writeDefinitions values {})) =
      .ok (values, { unread := rest }) := by
  obtain ⟨hnonneg, hcount⟩ := ofNat_spec hlength
  rw [writeDefinitions_unread, List.nil_append, write_unread, readDefinitions, definitionsBytes,
    List.append_assoc, readInt64_append]
  dsimp only
  rw [if_neg hnonneg, hcount, readDefinitionsLoop_append hnames]

/-- Two columns in front of three bytes. -/
theorem readDefinitions_writeDefinitions_two :
    readDefinitions (write [7, 8, 9] (writeDefinitions [⟨"id", .int, false⟩, ⟨[], .string, true⟩] {})) =
      .ok ([⟨"id", .int, false⟩, ⟨[], .string, true⟩], { unread := [7, 8, 9] }) :=
  readDefinitions_writeDefinitions _ _ (by decide) (by decide)

end BinarySerializationStream

end Skyrise

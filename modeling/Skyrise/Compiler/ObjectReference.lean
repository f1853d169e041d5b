/-
References to objects of a storage.

A reference names a bucket, an object in it, the tag of its content and possibly
partitions, which are the parts of the object that are to be read.  The constructor
asserts that bucket and object are named.
-/
import Skyrise.Json.Value
import Skyrise.Utils.Assert

namespace Skyrise

open JsonValue

/-- The formats of files. -/
inductive FileFormat where
  | csv
  | orc
  | parquet
deriving DecidableEq, Repr

instance : MagicEnum FileFormat where
  values := [.csv, .orc, .parquet]
  enumName
    | .csv => "kCsv"
    | .orc => "kOrc"
    | .parquet => "kParquet"
  mem_values a := by cases a <;> simp
  enumName_injective a b h := by cases a <;> cases b <;> simp_all

/-- `magic_enum::enum_cast` and `value`. -/
def enumValue {α : Type} [MagicEnum α] (name : Bytes) : Except Exception α :=
  match MagicEnum.enumCast name with
  | some a => .ok a
  | none => .error .badOptionalAccess

@[simp] lemma enumValue_enumName {α : Type} [MagicEnum α] (a : α) :
    enumValue (MagicEnum.enumName a : Bytes) = .ok a := by
  rw [enumValue, MagicEnum.enumCast_enumName]

/-- A reference to an object. -/
structure ObjectReference where
  /-- The name of the bucket. -/
  bucketName : Bytes
  /-- The name of the object. -/
  identifier : Bytes
  /-- The tag of the content. -/
  etag : Bytes := []
  /-- The partitions. -/
  partitions : Option (List Int32) := none
deriving DecidableEq

/-- `VectorToJsonArray` of integers. -/
def vectorToJsonArray {R : Type} (vector : List Int32) : List (JsonValue R) :=
  vector.map fun n => .integer n.toInt

/-- `JsonArrayToVector` of integers. -/
def jsonArrayToVector {R : Type} (array : List (JsonValue R)) : List Int32 :=
  array.map fun json => .ofInt json.asInteger

@[simp] lemma jsonArrayToVector_vectorToJsonArray {R : Type} (vector : List Int32) :
    jsonArrayToVector (vectorToJsonArray vector : List (JsonValue R)) = vector := by
  rw [jsonArrayToVector, vectorToJsonArray, List.map_map]
  exact (List.map_congr_left fun n _ => Int32.ofInt_toInt n).trans (List.map_id _)

namespace ObjectReference

variable {R : Type}

/-- The constructor. -/
def make (bucketName identifier etag : Bytes) (partitions : Option (List Int32)) :
    Except Exception ObjectReference := do
  assert (!bucketName.isEmpty) "ObjectReference requires a non-empty bucket name."
  assert (!identifier.isEmpty) "ObjectReference requires a non-empty object identifier."
  pure ⟨bucketName, identifier, etag, partitions⟩

lemma make_eq_ok_iff {bucketName identifier etag : Bytes} {partitions : Option (List Int32)}
    {r : ObjectReference} : make bucketName identifier etag partitions = .ok r ↔
      bucketName ≠ [] ∧ identifier ≠ [] ∧ r = ⟨bucketName, identifier, etag, partitions⟩ := by
  cases bucketName <;> cases identifier <;>
    simp [make, bind, Except.bind, pure, Except.pure, eq_comm]

/-- The partitions that a member of an object lists, if there is the member. -/
def partitionsFromJson (json : JsonValue R) (key : Bytes) : Option (List Int32) :=
  if json.keyExists key then some (jsonArrayToVector (json.getArray key)) else none

/-- An object with the partitions as a member, if there are any. -/
def partitionsToJson (json : JsonValue R) (key : Bytes) (partitions : Option (List Int32)) :
    JsonValue R :=
  match partitions with
  | some partitions => json.withArray key (vectorToJsonArray partitions)
  | none => json

lemma partitionsFromJson_partitionsToJson {json : JsonValue R} {key : Bytes}
    {partitions : Option (List Int32)} (hnew : json.find key = none) :
    partitionsFromJson (partitionsToJson json key partitions) key = partitions := by
  cases partitions with
  | none => simp [partitionsToJson, partitionsFromJson, keyExists, hnew]
  | some partitions =>
    simp [partitionsToJson, partitionsFromJson, keyExists, getArray, getObject, asArray]

@[simp] lemma find_partitionsToJson {json : JsonValue R} {key key' : Bytes}
    {partitions : Option (List Int32)} (hne : key ≠ key') :
    (partitionsToJson json key partitions).find key' = json.find key' := by
  cases partitions <;> simp [partitionsToJson, hne]

/-- `ToJson`. -/
def toJson (r : ObjectReference) : JsonValue R :=
  partitionsToJson (((JsonValue.empty.withString "bucket_name" r.bucketName).withString
    "identifier" r.identifier).withString "etag" r.etag) "partitions" r.partitions

/-- `FromJson`. -/
def fromJson (json : JsonValue R) : Except Exception ObjectReference :=
  make (json.getString "bucket_name") (json.getString "identifier") (json.getString "etag")
    (partitionsFromJson json "partitions")

/-- A reference is read back if it could be constructed. -/
lemma fromJson_toJson (r : ObjectReference) :
    fromJson (r.toJson : JsonValue R) = make r.bucketName r.identifier r.etag r.partitions := by
  rw [fromJson, toJson, partitionsFromJson_partitionsToJson]
  · simp [getString, getObject, asString]
  · simp

end ObjectReference

end Skyrise

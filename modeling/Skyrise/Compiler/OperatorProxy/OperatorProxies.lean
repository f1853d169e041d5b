/-
The proxies of the operators.

Every class of proxies has attributes of its own, which it writes into the object of
the proxy and reads from there.  A partition count is written as a 32-bit number;
the partitions of an object reference and the output object count of an import are
not written.
-/
import Skyrise.Compiler.OperatorProxy.ImportOptions
import Skyrise.Operator.Join.AbstractJoin
import Skyrise.Operator.Partition

namespace Skyrise

open JsonValue MagicEnum Bytes

/-! ### Enumerations -/

/-- The types of operators. -/
inductive OperatorType where
  | aggregate
  | alias
  | exchange
  | export
  | filter
  | import
  | hashJoin
  | limit
  | partition
  | projection
  | sort
  | sortMergeJoin
  | union
deriving DecidableEq, Repr

instance : MagicEnum OperatorType where
  values := [.aggregate, .alias, .exchange, .export, .filter, .import, .hashJoin, .limit,
    .partition, .projection, .sort, .sortMergeJoin, .union]
  enumName
    | .aggregate => "kAggregate"
    | .alias => "kAlias"
    | .exchange => "kExchange"
    | .export => "kExport"
    | .filter => "kFilter"
    | .import => "kImport"
    | .hashJoin => "kHashJoin"
    | .limit => "kLimit"
    | .partition => "kPartition"
    | .projection => "kProjection"
    | .sort => "kSort"
    | .sortMergeJoin => "kSortMergeJoin"
    | .union => "kUnion"
  mem_values a := by cases a <;> simp
  enumName_injective a b h := by cases a <;> cases b <;> simp_all

/-- The set operations. -/
inductive SetOperationMode where
  | all
  | unique
deriving DecidableEq, Repr

instance : MagicEnum SetOperationMode where
  values := [.all, .unique]
  enumName
    | .all => "kAll"
    | .unique => "kUnique"
  mem_values a := by cases a <;> simp
  enumName_injective a b h := by cases a <;> cases b <;> simp_all

instance : MagicEnum JoinMode where
  values := [.antiNullAsFalse, .antiNullAsTrue, .cross, .fullOuter, .inner, .leftOuter, .rightOuter,
    .semi]
  enumName
    | .antiNullAsFalse => "kAntiNullAsFalse"
    | .antiNullAsTrue => "kAntiNullAsTrue"
    | .cross => "kCross"
    | .fullOuter => "kFullOuter"
    | .inner => "kInner"
    | .leftOuter => "kLeftOuter"
    | .rightOuter => "kRightOuter"
    | .semi => "kSemi"
  mem_values a := by cases a <;> simp
  enumName_injective a b h := by cases a <;> cases b <;> simp_all

instance : MagicEnum SortMode where
  values := [.ascending, .descending]
  enumName
    | .ascending => "kAscending"
    | .descending => "kDescending"
  mem_values a := by cases a <;> simp
  enumName_injective a b h := by cases a <;> cases b <;> simp_all

/-- The types of partitioning functions. -/
inductive PartitioningFunctionType where
  | hash
  | range
deriving DecidableEq, Repr

instance : MagicEnum PartitioningFunctionType where
  values := [.hash, .range]
  enumName
    | .hash => "kHash"
    | .range => "kRange"
  mem_values a := by cases a <;> simp
  enumName_injective a b h := by cases a <;> cases b <;> simp_all

variable {R A : Type}

/-- An array of expressions that were read back. -/
def deserializeExpressions [FloatingPoint R] (array : List (JsonValue R)) :
    Except Exception (List (Expression R)) :=
  array.mapM deserializeExpression

lemma deserializeExpressions_eq [FloatingPoint R] {expressions : List (Expression R)}
    (h : ∀ e ∈ expressions, e.Constructible) :
    deserializeExpressions (expressions.map serializeExpression) =
      .ok (expressions.map Expression.decoded) := by
  rw [deserializeExpressions, mapM_eq_ok_iff, List.forall₂_map_left_iff, List.forall₂_map_right_iff,
    List.forall₂_same]
  exact fun e he => deserializeExpression_serializeExpression (h e he)

lemma map_decoded_eq_self_iff {expressions : List (Expression R)} :
    expressions.map Expression.decoded = expressions ↔ ∀ e ∈ expressions, e.NoStringAgg := by
  induction expressions with
  | nil => simp
  | cons e expressions ih =>
    rw [List.map_cons, List.cons.injEq, ih, Expression.decoded_eq_self_iff, List.forall_mem_cons]

/-! ### Aggregate, alias, export and filter -/

/-- `AggregateOperatorProxy`. -/
structure AggregateOperatorProxy (R : Type) where
  groupbyColumnIds : List UInt32
  aggregates : List (Expression R)
  isPipelineBreaker : Bool := true

namespace AggregateOperatorProxy

/-- `ToJson`. -/
def toJson (base : JsonValue R) (p : AggregateOperatorProxy R) : JsonValue R :=
  ((base.withArray "aggregates" (p.aggregates.map serializeExpression)).withArray
    "group_by_column_ids" (columnIdsToJsonArray p.groupbyColumnIds)).withBool "is_pipeline_breaker"
    p.isPipelineBreaker

/-- The expression of an aggregate. -/
def deserializeAggregate [FloatingPoint R] (json : JsonValue R) :
    Except Exception (Expression R) := do
  let deserializedExpression ← deserializeExpression json
  assert (deserializedExpression.root.expressionType = .aggregate)
    "Expected type AggregateExpression."
  return deserializedExpression

/-- `FromJson`. -/
def fromJson [FloatingPoint R] (json : JsonValue R) :
    Except Exception (AggregateOperatorProxy R) := do
  let aggregates ← (json.getArray "aggregates").mapM deserializeAggregate
  return {
    groupbyColumnIds := columnIdsFromJsonArray (json.getArray "group_by_column_ids")
    aggregates
    isPipelineBreaker := (json.getObject "is_pipeline_breaker").asBool }

/-- The aggregates are aggregate expressions that can be constructed. -/
def Constructible [FloatingPoint R] (p : AggregateOperatorProxy R) : Prop :=
  ∀ e ∈ p.aggregates, e.Constructible

/-- The aggregates are of the type of aggregates, and none of them is a string aggregate. -/
def Transferable (p : AggregateOperatorProxy R) : Prop :=
  ∀ e ∈ p.aggregates, e.root.expressionType = .aggregate ∧ e.NoStringAgg

/-- What is read back: the aggregates that are read back, if all are of the type of aggregates. -/
def decoded (p : AggregateOperatorProxy R) : Except Exception (AggregateOperatorProxy R) := do
  assert (p.aggregates.all fun e => e.root.expressionType = .aggregate)
    "Expected type AggregateExpression."
  return { p with aggregates := p.aggregates.map Expression.decoded }

lemma deserializeAggregate_eq [FloatingPoint R] {e : Expression R} (he : e.Constructible) :
    deserializeAggregate (serializeExpression e) =
      if e.root.expressionType = .aggregate then .ok e.decoded
      else .error (.assertionFailed "Expected type AggregateExpression.") := by
  have htype : e.decoded.root.expressionType = e.root.expressionType := by
    obtain ⟨n, arguments⟩ := e
    rw [Expression.decoded_node]
    cases n <;> rfl
  rw [deserializeAggregate, deserializeExpression_serializeExpression he]
  by_cases h : e.root.expressionType = .aggregate
  · simp [bind, Except.bind, pure, Except.pure, htype, h]
  · simp [bind, Except.bind, htype, h]

lemma mapM_deserializeAggregate [FloatingPoint R] {aggregates : List (Expression R)}
    (h : ∀ e ∈ aggregates, e.Constructible) :
    (aggregates.map serializeExpression).mapM deserializeAggregate =
      if aggregates.all fun e => e.root.expressionType = .aggregate then
        .ok (aggregates.map Expression.decoded)
      else .error (.assertionFailed "Expected type AggregateExpression.") := by
  induction aggregates with
  | nil => rfl
  | cons e aggregates ih =>
    rw [List.forall_mem_cons] at h
    rw [List.map_cons, List.mapM_cons, deserializeAggregate_eq h.1, ih h.2, List.all_cons]
    by_cases htype : e.root.expressionType = .aggregate
    · by_cases hall : aggregates.all fun e => e.root.expressionType = .aggregate
      · simp [htype, hall, bind, Except.bind, pure, Except.pure]
      · simp [htype, hall, bind, Except.bind]
    · simp [htype, bind, Except.bind]

lemma fromJson_toJson [FloatingPoint R] {p : AggregateOperatorProxy R} {base : JsonValue R}
    (hp : p.Constructible) : fromJson (p.toJson base) = p.decoded := by
  have hread := mapM_deserializeAggregate hp
  rw [decoded]
  by_cases h : p.aggregates.all fun e => e.root.expressionType = .aggregate
  · rw [if_pos h] at hread
    simp [fromJson, toJson, getArray, getObject, asArray, asBool, hread, h, bind, Except.bind, pure,
      Except.pure]
  · rw [if_neg h] at hread
    simp [fromJson, toJson, getArray, getObject, asArray, hread, h, bind, Except.bind]

lemma decoded_eq_ok_self_iff {p : AggregateOperatorProxy R} : p.decoded = .ok p ↔ p.Transferable := by
  obtain ⟨groupbyColumnIds, aggregates, isPipelineBreaker⟩ := p
  have hsplit : (Transferable ⟨groupbyColumnIds, aggregates, isPipelineBreaker⟩) ↔
      (aggregates.all fun e => e.root.expressionType = .aggregate) ∧
        ∀ e ∈ aggregates, e.NoStringAgg := by
    rw [List.all_eq_true]
    simp only [Transferable, decide_eq_true_eq]
    exact forall₂_and
  rw [hsplit, ← map_decoded_eq_self_iff]
  by_cases h : aggregates.all fun e => e.root.expressionType = .aggregate
  · simp [decoded, h, bind, Except.bind, pure, Except.pure]
  · simp [decoded, h, bind, Except.bind]

end AggregateOperatorProxy

/-- `AliasOperatorProxy`. -/
structure AliasOperatorProxy where
  columnIds : List UInt32
  aliases : List Bytes

namespace AliasOperatorProxy

/-- The constructor. -/
def make (columnIds : List UInt32) (aliases : List Bytes) : Except Exception AliasOperatorProxy := do
  assert (columnIds.length = aliases.length) "Expected as many aliases as columns."
  return ⟨columnIds, aliases⟩

/-- `ToJson`. -/
def toJson (base : JsonValue R) (p : AliasOperatorProxy) : JsonValue R :=
  (base.withArray "column_ids" (columnIdsToJsonArray p.columnIds)).withArray "aliases"
    (p.aliases.map .string)

/-- `FromJson`. -/
def fromJson (json : JsonValue R) : Except Exception AliasOperatorProxy :=
  make (columnIdsFromJsonArray (json.getArray "column_ids"))
    ((json.getArray "aliases").map asString)

/-- There are as many aliases as columns. -/
def Constructible (p : AliasOperatorProxy) : Prop := p.columnIds.length = p.aliases.length

lemma fromJson_toJson {p : AliasOperatorProxy} {base : JsonValue R} (hp : p.Constructible) :
    fromJson (p.toJson base) = .ok p := by
  have haliases : (p.aliases.map (.string : Bytes → JsonValue R)).map asString = p.aliases := by
    rw [List.map_map]
    exact List.map_id _
  have hlen : p.columnIds.length = p.aliases.length := hp
  simp [fromJson, toJson, make, getArray, getObject, asArray, haliases, hlen, bind, Except.bind,
    pure, Except.pure]

end AliasOperatorProxy

/-- `ExportOperatorProxy`. -/
structure ExportOperatorProxy where
  targetObject : ObjectReference
  exportFormat : FileFormat
  consolidateRowGroups : Bool

namespace ExportOperatorProxy

/-- The constructor. -/
def make (targetObject : ObjectReference) (exportFormat : FileFormat) (consolidateRowGroups : Bool) :
    Except Exception ExportOperatorProxy := do
  assert targetObject.etag.isEmpty "Target ObjectReference should not specify an ETag attribute."
  return ⟨targetObject, exportFormat, consolidateRowGroups⟩

/-- `ToJson`. -/
def toJson (base : JsonValue R) (p : ExportOperatorProxy) : JsonValue R :=
  (((base.withString "bucket_name" p.targetObject.bucketName).withString "target_object_key"
    p.targetObject.identifier).withString "export_format" (enumName p.exportFormat : Bytes)).withBool
    "consolidate_row_groups" p.consolidateRowGroups

/-- `FromJson`. -/
def fromJson (json : JsonValue R) : Except Exception ExportOperatorProxy := do
  -- the optional is dereferenced without a check
  let some exportFormat := enumCast (json.getString "export_format")
    | .error .undefinedBehavior
  let targetObject ← ObjectReference.make (json.getString "bucket_name")
    (json.getString "target_object_key") [] none
  make targetObject exportFormat (json.getBool "consolidate_row_groups")

/-- The target names a bucket and an object in it, without a tag, and there are no partitions of
what is written. -/
def Constructible (p : ExportOperatorProxy) : Prop :=
  p.targetObject.bucketName ≠ [] ∧ p.targetObject.identifier ≠ [] ∧ p.targetObject.etag = []

/-- The target has no partitions. -/
def Transferable (p : ExportOperatorProxy) : Prop := p.targetObject.partitions = none

/-- What is read back: the target without partitions. -/
def decoded (p : ExportOperatorProxy) : ExportOperatorProxy :=
  { p with targetObject := { p.targetObject with partitions := none } }

lemma fromJson_toJson {p : ExportOperatorProxy} {base : JsonValue R} (hp : p.Constructible) :
    fromJson (p.toJson base) = .ok p.decoded := by
  obtain ⟨⟨bucketName, identifier, etag, partitions⟩, exportFormat, consolidateRowGroups⟩ := p
  obtain ⟨hbucket, hidentifier, rfl⟩ := hp
  have hmake : ObjectReference.make bucketName identifier [] none =
      .ok ⟨bucketName, identifier, [], none⟩ :=
    ObjectReference.make_eq_ok_iff.mpr ⟨hbucket, hidentifier, rfl⟩
  simp [fromJson, toJson, make, decoded, getString, getBool, getObject, asString, asBool,
    hmake, bind, Except.bind, pure, Except.pure]

lemma decoded_eq_self_iff {p : ExportOperatorProxy} : p.decoded = p ↔ p.Transferable := by
  obtain ⟨⟨bucketName, identifier, etag, partitions⟩, exportFormat, consolidateRowGroups⟩ := p
  simp [decoded, Transferable, eq_comm]

end ExportOperatorProxy

/-- `FilterOperatorProxy`. -/
structure FilterOperatorProxy (R : Type) where
  predicate : Expression R

namespace FilterOperatorProxy

/-- `ToJson`. -/
def toJson (base : JsonValue R) (p : FilterOperatorProxy R) : JsonValue R :=
  base.withObject "predicate" (serializeExpression p.predicate)

/-- `FromJson`. -/
def fromJson [FloatingPoint R] (json : JsonValue R) : Except Exception (FilterOperatorProxy R) :=
  FilterOperatorProxy.mk <$> deserializeExpression (json.getObject "predicate")

lemma fromJson_toJson [FloatingPoint R] {p : FilterOperatorProxy R} {base : JsonValue R}
    (hp : p.predicate.Constructible) : fromJson (p.toJson base) = .ok ⟨p.predicate.decoded⟩ := by
  have hread := deserializeExpression_serializeExpression hp
  simp [fromJson, toJson, getObject, hread]

end FilterOperatorProxy

/-! ### Import -/

/-- `ImportOperatorProxy`. -/
structure ImportOperatorProxy (R A : Type) where
  objectReferences : List ObjectReference
  columnIds : List UInt32
  importOptions : Option (ImportOptions R A) := none
  outputObjectsCount : ℕ := 2 ^ 64 - 1

namespace ImportOperatorProxy

/-- The constructor. -/
def make (objectReferences : List ObjectReference) (columnIds : List UInt32) :
    Except Exception (ImportOperatorProxy R A) := do
  assert (columnIds ≠ []) "Import must involve at least one ColumnId."
  return { objectReferences, columnIds }

/-- An object reference as an object. -/
def objectReferenceToJson (r : ObjectReference) : JsonValue R :=
  ((JsonValue.empty.withString "bucket" r.bucketName).withString "key" r.identifier).withString
    "etag" r.etag

/-- An object reference from an object. -/
def objectReferenceFromJson (json : JsonValue R) : Except Exception ObjectReference :=
  ObjectReference.make (json.getString "bucket") (json.getString "key") (json.getString "etag") none

/-- `ToJson`. -/
def toJson (base : JsonValue R) (p : ImportOperatorProxy R A) : JsonValue R :=
  ((base.withArray "column_ids" (columnIdsToJsonArray p.columnIds)).withArray "import_references"
    (p.objectReferences.map objectReferenceToJson)).withOptional "import_options"
    (p.importOptions.map ImportOptions.toJson)

/-- `FromJson`. -/
def fromJson [FloatingPoint R] (createArrowExpression : Expression R → Except Exception A)
    (json : JsonValue R) : Except Exception (ImportOperatorProxy R A) := do
  let objectReferences ← (json.getArray "import_references").mapM objectReferenceFromJson
  let importProxy ← make objectReferences (columnIdsFromJsonArray (json.getArray "column_ids"))
  if json.keyExists "import_options" then
    let importOptions ← ImportOptions.fromJson createArrowExpression (json.getObject "import_options")
    return { importProxy with importOptions := some importOptions }
  else return importProxy

/-- There are columns to import, every object reference names a bucket and an object, and the
options can be constructed. -/
structure Constructible [FloatingPoint R] (p : ImportOperatorProxy R A) : Prop where
  columnIds_ne : p.columnIds ≠ []
  objectReferences : ∀ r ∈ p.objectReferences, r.bucketName ≠ [] ∧ r.identifier ≠ []
  importOptions : ∀ options ∈ p.importOptions, options.Constructible

/-- The object references have no partitions, there is no limit for the number of output objects,
and the options are transferable. -/
structure Transferable (createArrowExpression : Expression R → Except Exception A)
    (p : ImportOperatorProxy R A) : Prop where
  partitions : ∀ r ∈ p.objectReferences, r.partitions = none
  outputObjectsCount : p.outputObjectsCount = 2 ^ 64 - 1
  importOptions : ∀ options ∈ p.importOptions, options.Transferable createArrowExpression

/-- The proxy with the part of its options that determines how objects are read. -/
def determining (p : ImportOperatorProxy R A) : ImportOperatorProxy R A :=
  { p with importOptions := p.importOptions.map ImportOptions.determining }

lemma mapM_objectReferenceFromJson {objectReferences : List ObjectReference}
    (h : ∀ r ∈ objectReferences, r.bucketName ≠ [] ∧ r.identifier ≠ []) :
    (objectReferences.map (objectReferenceToJson (R := R))).mapM objectReferenceFromJson =
      .ok (objectReferences.map fun r => { r with partitions := none }) := by
  rw [mapM_eq_ok_iff, List.forall₂_map_left_iff, List.forall₂_map_right_iff, List.forall₂_same]
  intro r hr
  have hmake : ObjectReference.make r.bucketName r.identifier r.etag none =
      .ok ⟨r.bucketName, r.identifier, r.etag, none⟩ :=
    ObjectReference.make_eq_ok_iff.mpr ⟨(h r hr).1, (h r hr).2, rfl⟩
  simp [objectReferenceFromJson, objectReferenceToJson, getString, getObject, asString, hmake]

lemma map_partitions_eq_self_iff {objectReferences : List ObjectReference} :
    objectReferences.map (fun r => { r with partitions := none }) = objectReferences ↔
      ∀ r ∈ objectReferences, r.partitions = none := by
  induction objectReferences with
  | nil => simp
  | cons r objectReferences ih =>
    rw [List.map_cons, List.cons.injEq, ih, List.forall_mem_cons]
    refine and_congr_left fun _ => ?_
    obtain ⟨bucketName, identifier, etag, partitions⟩ := r
    simp [eq_comm]

/-- What is read back: object references without partitions, no limit for the output objects, and
the options that are read back. -/
def decoded [FloatingPoint R] (createArrowExpression : Expression R → Except Exception A)
    (p : ImportOperatorProxy R A) : Except Exception (ImportOperatorProxy R A) := do
  let objectReferences := p.objectReferences.map fun r => { r with partitions := none }
  match p.importOptions with
  | some options =>
    let importOptions ← ImportOptions.fromJson createArrowExpression options.toJson
    return { objectReferences, columnIds := p.columnIds, importOptions := some importOptions }
  | none => return { objectReferences, columnIds := p.columnIds }

lemma fromJson_toJson [FloatingPoint R] {createArrowExpression : Expression R → Except Exception A}
    {p : ImportOperatorProxy R A} {base : JsonValue R} (hp : p.Constructible)
    (hbase : base.find "import_options" = none) :
    fromJson createArrowExpression (p.toJson base) = p.decoded createArrowExpression := by
  obtain ⟨objectReferences, columnIds, importOptions, outputObjectsCount⟩ := p
  obtain ⟨hne, hreferences, -⟩ := hp
  have hread := mapM_objectReferenceFromJson (R := R) hreferences
  simp only at hne hread
  rcases importOptions with - | options
  · simp [fromJson, toJson, make, decoded, getArray, getObject, asArray, keyExists, hread, hne,
      hbase, bind, Except.bind, pure, Except.pure]
  · simp [fromJson, toJson, make, decoded, getArray, getObject, asArray, keyExists, hread, hne,
      bind, Except.bind, pure, Except.pure]

/-- An import is read back, as far as it determines what is read, if and only if it is
transferable. -/
lemma decoded_determining_iff [FloatingPoint R]
    {createArrowExpression : Expression R → Except Exception A} {p : ImportOperatorProxy R A}
    (hp : p.Constructible) :
    (∃ p', p.decoded createArrowExpression = .ok p' ∧ p'.determining = p.determining) ↔
      p.Transferable createArrowExpression := by
  obtain ⟨objectReferences, columnIds, importOptions, outputObjectsCount⟩ := p
  have htransferable : (Transferable createArrowExpression
      ⟨objectReferences, columnIds, importOptions, outputObjectsCount⟩) ↔
        objectReferences.map (fun r => { r with partitions := none }) = objectReferences ∧
          outputObjectsCount = 2 ^ 64 - 1 ∧
            ∀ options ∈ importOptions, options.Transferable createArrowExpression := by
    rw [map_partitions_eq_self_iff]
    exact ⟨fun h => ⟨h.1, h.2, h.3⟩, fun h => ⟨h.1, h.2.1, h.2.2⟩⟩
  rw [htransferable]
  rcases importOptions with - | options
  · simp [decoded, pure, Except.pure, determining, eq_comm]
  · have hiff := ImportOptions.fromJson_toJson_determining_iff createArrowExpression
      (hp.importOptions options rfl)
    cases hcreate : ImportOptions.fromJson createArrowExpression options.toJson with
    | error exception =>
      rw [hcreate] at hiff
      have hnot : ¬ options.Transferable createArrowExpression := fun h => by
        obtain ⟨o', ho', -⟩ := hiff.mpr h
        cases ho'
      simp [decoded, hcreate, hnot, bind, Except.bind]
    | ok options' =>
      rw [hcreate] at hiff
      simp [decoded, hcreate, ← hiff, bind, Except.bind, pure, Except.pure, determining, eq_comm,
        and_comm]

end ImportOperatorProxy

/-! ### Joins -/

lemma toNat_ofInt {n : ℕ} (h : n < 2 ^ 32) : (UInt32.ofInt (n : ℤ)).toNat = n := by
  have hmod : ((n : ℤ) % 2 ^ 32).toNat = n := by omega
  rw [UInt32.ofInt, hmod, UInt32.toNat_ofNat_of_lt' h]

/-- `SerializePredicate`. -/
def JoinOperatorPredicate.serialize (predicate : JoinOperatorPredicate) : JsonValue R :=
  ((JsonValue.empty.withInteger "column_id_left" predicate.columnIdLeft).withInteger
    "column_id_right" predicate.columnIdRight).withString "predicate_condition"
    (enumName predicate.predicateCondition : Bytes)

/-- `DeserializePredicate`. -/
def JoinOperatorPredicate.deserialize (json : JsonValue R) :
    Except Exception JoinOperatorPredicate := do
  assert (json.keyExists "column_id_left") "Predicate must contain a left column id."
  assert (json.keyExists "column_id_right") "Predicate must contain a right column id."
  assert (json.keyExists "predicate_condition") "Predicate must contain a predicate condition."
  let predicateCondition ← enumValue (json.getString "predicate_condition")
  return {
    columnIdLeft := (UInt32.ofInt (json.getInteger "column_id_left")).toNat
    columnIdRight := (UInt32.ofInt (json.getInteger "column_id_right")).toNat
    predicateCondition }

lemma JoinOperatorPredicate.deserialize_serialize {predicate : JoinOperatorPredicate}
    (h : predicate.columnIdLeft < 2 ^ 32 ∧ predicate.columnIdRight < 2 ^ 32) :
    deserialize (predicate.serialize : JsonValue R) = .ok predicate := by
  obtain ⟨columnIdLeft, columnIdRight, predicateCondition⟩ := predicate
  simp [deserialize, serialize, keyExists, getString, getInteger, getObject, asString, asInteger,
    toNat_ofInt h.1, toNat_ofInt h.2, bind, Except.bind, pure, Except.pure]

/-- The implementations of joins. -/
inductive JoinImplementation where
  | hashJoin
  | sortMergeJoin
deriving DecidableEq, Repr

/-- The type of an operator that is implemented. -/
def JoinImplementation.operatorType : JoinImplementation → OperatorType
  | hashJoin => .hashJoin
  | sortMergeJoin => .sortMergeJoin

/-- The implementation of a type of operators. -/
def OperatorType.joinImplementation : OperatorType → Except Exception JoinImplementation
  | .hashJoin => .ok .hashJoin
  | .sortMergeJoin => .ok .sortMergeJoin
  | _ => .error (.assertionFailed "The given operator type is not a valid join implementation.")

/-- `JoinOperatorProxy`. -/
structure JoinOperatorProxy where
  mode : JoinMode
  primaryPredicate : Option JoinOperatorPredicate
  secondaryPredicates : List JoinOperatorPredicate
  implementation : JoinImplementation

namespace JoinOperatorProxy

/-- `ToJson`. -/
def toJson (base : JsonValue R) (p : JoinOperatorProxy) : JsonValue R :=
  ((base.withString "join_mode" (enumName p.mode : Bytes)).withOptional "primary_predicate"
    (p.primaryPredicate.map JoinOperatorPredicate.serialize)).withOptional "secondary_predicates"
    (if p.secondaryPredicates = [] then none
      else some (.array (p.secondaryPredicates.map JoinOperatorPredicate.serialize)))

/-- `FromJson`. -/
def fromJson (json : JsonValue R) : Except Exception JoinOperatorProxy := do
  assert (json.keyExists "join_mode") "JoinOperatorProxy must have a join mode."
  let mode ← enumValue (json.getString "join_mode")
  let primaryPredicate ← if json.keyExists "primary_predicate" then
      some <$> JoinOperatorPredicate.deserialize (json.getObject "primary_predicate")
    else .ok none
  let secondaryPredicates ← if json.keyExists "secondary_predicates" then
      (json.getArray "secondary_predicates").mapM JoinOperatorPredicate.deserialize
    else .ok []
  let operatorType : OperatorType ← enumValue (json.getString "operator_type")
  let implementation ← operatorType.joinImplementation
  return { mode, primaryPredicate, secondaryPredicates, implementation }

/-- The columns of the predicates have 32-bit ids. -/
def Constructible (p : JoinOperatorProxy) : Prop :=
  (∀ predicate ∈ p.primaryPredicate,
    predicate.columnIdLeft < 2 ^ 32 ∧ predicate.columnIdRight < 2 ^ 32) ∧
  ∀ predicate ∈ p.secondaryPredicates,
    predicate.columnIdLeft < 2 ^ 32 ∧ predicate.columnIdRight < 2 ^ 32

lemma fromJson_toJson {p : JoinOperatorProxy} {base : JsonValue R} (hp : p.Constructible)
    (htype : base.find "operator_type" =
      some (.string (enumName p.implementation.operatorType : Bytes)))
    (hprimary : base.find "primary_predicate" = none)
    (hsecondary : base.find "secondary_predicates" = none) :
    fromJson (p.toJson base) = .ok p := by
  obtain ⟨mode, primaryPredicate, secondaryPredicates, implementation⟩ := p
  have hcast : ∀ implementation : JoinImplementation,
      implementation.operatorType.joinImplementation = .ok implementation := by
    intro implementation
    cases implementation <;> rfl
  have hread : (secondaryPredicates.map JoinOperatorPredicate.serialize).mapM
      (JoinOperatorPredicate.deserialize (R := R)) = .ok secondaryPredicates := by
    rw [mapM_eq_ok_iff, List.forall₂_map_left_iff, List.forall₂_same]
    exact fun predicate hpredicate => JoinOperatorPredicate.deserialize_serialize (hp.2 _ hpredicate)
  rcases primaryPredicate with - | predicate
  · rcases secondaryPredicates with - | ⟨secondary, secondaryPredicates⟩
    · simp [fromJson, toJson, keyExists, getString, getObject, asString, htype, hprimary, hsecondary,
        hcast, bind, Except.bind, pure, Except.pure]
    · rw [List.map_cons] at hread
      simp [fromJson, toJson, keyExists, getString, getArray, getObject, asString, asArray, htype,
        hprimary, hcast, hread, bind, Except.bind, pure, Except.pure]
  · have hpredicate := JoinOperatorPredicate.deserialize_serialize (R := R) (hp.1 predicate rfl)
    rcases secondaryPredicates with - | ⟨secondary, secondaryPredicates⟩
    · simp [fromJson, toJson, keyExists, getString, getObject, asString, htype, hsecondary,
        hpredicate, hcast, bind, Except.bind, pure, Except.pure, Functor.map, Except.map]
    · rw [List.map_cons] at hread
      simp [fromJson, toJson, keyExists, getString, getArray, getObject, asString, asArray, htype,
        hpredicate, hcast, hread, bind, Except.bind, pure, Except.pure, Functor.map, Except.map]

end JoinOperatorProxy

/-! ### Limit, partition, projection, sort and union -/

/-- `LimitOperatorProxy`. -/
structure LimitOperatorProxy (R : Type) where
  rowCount : Expression R

namespace LimitOperatorProxy

/-- `ToJson`. -/
def toJson (base : JsonValue R) (p : LimitOperatorProxy R) : JsonValue R :=
  base.withObject "row_count" (serializeExpression p.rowCount)

/-- `FromJson`. -/
def fromJson [FloatingPoint R] (json : JsonValue R) : Except Exception (LimitOperatorProxy R) :=
  LimitOperatorProxy.mk <$> deserializeExpression (json.getObject "row_count")

lemma fromJson_toJson [FloatingPoint R] {p : LimitOperatorProxy R} {base : JsonValue R}
    (hp : p.rowCount.Constructible) : fromJson (p.toJson base) = .ok ⟨p.rowCount.decoded⟩ := by
  have hread := deserializeExpression_serializeExpression hp
  simp [fromJson, toJson, getObject, hread]

end LimitOperatorProxy

namespace HashPartitioningFunction

/-- `ToJson`: the partition count is narrowed to a signed 32-bit number. -/
def toJson (f : HashPartitioningFunction) : JsonValue R :=
  ((JsonValue.empty.withString "type" (enumName PartitioningFunctionType.hash : Bytes)).withArray
    "partition_column_ids" (f.partitionColumnIds.map fun (columnId : ℕ) =>
      .integer (columnId : ℤ))).withInteger "partition_count" ((f.partitionCount : ℤ).bmod (2 ^ 32))

/-- `AbstractPartitioningFunction::FromJson`: the partition count is widened to an unsigned 64-bit
number. -/
def fromJson (json : JsonValue R) : Except Exception HashPartitioningFunction := do
  let type : PartitioningFunctionType ← enumValue (json.getString "type")
  match type with
  | .hash =>
    let partitionColumnIds := (json.getArray "partition_column_ids").map fun columnId =>
      (UInt32.ofInt columnId.asInteger).toNat
    return {
      partitionColumnIds := (partitionColumnIds.mergeSort (· ≤ ·)).dedup
      partitionCount := (json.getInteger "partition_count" % 2 ^ 64).toNat }
  | .range => .error (.assertionFailed "PartitioningFunctionType not supported.")

end HashPartitioningFunction

/-- `PartitionOperatorProxy`. -/
structure PartitionOperatorProxy where
  partitioningFunction : HashPartitioningFunction
  sortWithinPartition : Bool

namespace PartitionOperatorProxy

/-- `ToJson`. -/
def toJson (base : JsonValue R) (p : PartitionOperatorProxy) : JsonValue R :=
  (base.withObject "partitioning_function" p.partitioningFunction.toJson).withBool
    "sort_within_partition" p.sortWithinPartition

/-- `FromJson`. -/
def fromJson (json : JsonValue R) : Except Exception PartitionOperatorProxy := do
  let partitioningFunction ←
    HashPartitioningFunction.fromJson (json.getObject "partitioning_function")
  return ⟨partitioningFunction, json.getBool "sort_within_partition"⟩

/-- The partition columns are a set of 32-bit ids, and the partition count is a 64-bit number. -/
structure Constructible (p : PartitionOperatorProxy) : Prop where
  sorted : p.partitioningFunction.partitionColumnIds.Pairwise (· < ·)
  columnId_lt : ∀ columnId ∈ p.partitioningFunction.partitionColumnIds, columnId < 2 ^ 32
  partitionCount_lt : p.partitioningFunction.partitionCount < 2 ^ 64

/-- The partition count survives being narrowed to a signed 32-bit number. -/
def Transferable (p : PartitionOperatorProxy) : Prop :=
  p.partitioningFunction.partitionCount < 2 ^ 31 ∨
    2 ^ 64 - 2 ^ 31 ≤ p.partitioningFunction.partitionCount

lemma toNat_bmod_emod_eq_self_iff {n : ℕ} (h : n < 2 ^ 64) :
    ((n : ℤ).bmod (2 ^ 32) % 2 ^ 64).toNat = n ↔ n < 2 ^ 31 ∨ 2 ^ 64 - 2 ^ 31 ≤ n := by
  rw [Int.bmod_def]
  omega

/-- What is read back of a partitioning function. -/
lemma fromJson_toJson_partitioningFunction {p : PartitionOperatorProxy} (hp : p.Constructible) :
    HashPartitioningFunction.fromJson (p.partitioningFunction.toJson : JsonValue R) =
      .ok ⟨p.partitioningFunction.partitionColumnIds,
        ((p.partitioningFunction.partitionCount : ℤ).bmod (2 ^ 32) % 2 ^ 64).toNat⟩ := by
  obtain ⟨⟨partitionColumnIds, partitionCount⟩, sortWithinPartition⟩ := p
  obtain ⟨hsorted, hlt, -⟩ := hp
  simp only at hsorted hlt
  have hcolumnIds : ((partitionColumnIds.map fun (columnId : ℕ) =>
      (JsonValue.integer (columnId : ℤ) : JsonValue R)).map fun columnId =>
        (UInt32.ofInt columnId.asInteger).toNat) = partitionColumnIds := by
    rw [List.map_map]
    exact (List.map_congr_left fun columnId h => toNat_ofInt (hlt columnId h)).trans (List.map_id _)
  have hsort : (partitionColumnIds.mergeSort (· ≤ ·)).dedup = partitionColumnIds := by
    rw [List.mergeSort_of_pairwise (hsorted.imp fun h => decide_eq_true h.le)]
    exact List.dedup_eq_self.mpr (hsorted.imp fun h => h.ne)
  have htype : (HashPartitioningFunction.toJson ⟨partitionColumnIds, partitionCount⟩ :
      JsonValue R).getString "type" = (enumName PartitioningFunctionType.hash : Bytes) := by
    simp [HashPartitioningFunction.toJson, getString, getObject, asString]
  have harray : (HashPartitioningFunction.toJson ⟨partitionColumnIds, partitionCount⟩ :
      JsonValue R).getArray "partition_column_ids" =
        partitionColumnIds.map fun (columnId : ℕ) => .integer (columnId : ℤ) := by
    simp [HashPartitioningFunction.toJson, getArray, getObject, asArray]
  have hcount : (HashPartitioningFunction.toJson ⟨partitionColumnIds, partitionCount⟩ :
      JsonValue R).getInteger "partition_count" = (partitionCount : ℤ).bmod (2 ^ 32) := by
    rw [HashPartitioningFunction.toJson, getInteger, getObject, find_withInteger, if_pos rfl,
      Option.getD_some, asInteger]
  rw [HashPartitioningFunction.fromJson, htype, harray, hcount, enumValue_enumName]
  simp only [bind, Except.bind, pure, Except.pure, hcolumnIds, hsort]

/-- What is read back: the partition count may be another one. -/
def decoded (p : PartitionOperatorProxy) : PartitionOperatorProxy :=
  { p with partitioningFunction := ⟨p.partitioningFunction.partitionColumnIds,
      ((p.partitioningFunction.partitionCount : ℤ).bmod (2 ^ 32) % 2 ^ 64).toNat⟩ }

lemma fromJson_toJson {p : PartitionOperatorProxy} {base : JsonValue R} (hp : p.Constructible) :
    fromJson (p.toJson base) = .ok p.decoded := by
  have hread := fromJson_toJson_partitioningFunction (R := R) hp
  have hsort : (p.toJson base).getBool "sort_within_partition" = p.sortWithinPartition := by
    simp [toJson, getBool, getObject, asBool]
  have hfunction : (p.toJson base).getObject "partitioning_function" =
      p.partitioningFunction.toJson := by
    simp [toJson, getObject]
  rw [fromJson, hfunction, hread, hsort]
  rfl

/-- Only the partition count may be another one. -/
lemma exists_decoded_eq (p : PartitionOperatorProxy) : ∃ count, p.decoded =
    { p with partitioningFunction := ⟨p.partitioningFunction.partitionColumnIds, count⟩ } :=
  ⟨_, by rw [decoded]⟩

lemma decoded_eq_self_iff {p : PartitionOperatorProxy} (hp : p.Constructible) :
    p.decoded = p ↔ p.Transferable := by
  refine Iff.trans ?_ (toNat_bmod_emod_eq_self_iff hp.partitionCount_lt)
  rw [decoded]
  generalize ((p.partitioningFunction.partitionCount : ℤ).bmod (2 ^ 32) % 2 ^ 64).toNat = count
  obtain ⟨⟨partitionColumnIds, partitionCount⟩, sortWithinPartition⟩ := p
  simp

end PartitionOperatorProxy

/-- `ProjectionOperatorProxy`. -/
structure ProjectionOperatorProxy (R : Type) where
  expressions : List (Expression R)

namespace ProjectionOperatorProxy

/-- `ToJson`. -/
def toJson (base : JsonValue R) (p : ProjectionOperatorProxy R) : JsonValue R :=
  base.withArray "expressions" (p.expressions.map serializeExpression)

/-- `FromJson`. -/
def fromJson [FloatingPoint R] (json : JsonValue R) :
    Except Exception (ProjectionOperatorProxy R) :=
  ProjectionOperatorProxy.mk <$> deserializeExpressions (json.getArray "expressions")

lemma fromJson_toJson [FloatingPoint R] {p : ProjectionOperatorProxy R} {base : JsonValue R}
    (hp : ∀ e ∈ p.expressions, e.Constructible) :
    fromJson (p.toJson base) = .ok ⟨p.expressions.map Expression.decoded⟩ := by
  have hread := deserializeExpressions_eq hp
  simp [fromJson, toJson, getArray, getObject, asArray, hread]

end ProjectionOperatorProxy

/-- A sort definition as an object. -/
def SortColumnDefinition.toJson (definition : SortColumnDefinition) : JsonValue R :=
  (JsonValue.empty.withInteger "sort_column_id" definition.columnId.toNat).withString "sort_mode"
    (enumName definition.sortMode : Bytes)

/-- A sort definition from an object. -/
def SortColumnDefinition.fromJson (json : JsonValue R) : Except Exception SortColumnDefinition := do
  let sortMode ← enumValue (json.getString "sort_mode")
  return ⟨.ofInt (json.getInteger "sort_column_id"), sortMode⟩

/-- `SortOperatorProxy`. -/
structure SortOperatorProxy where
  sortDefinitions : List SortColumnDefinition

namespace SortOperatorProxy

/-- The constructor. -/
def make (sortDefinitions : List SortColumnDefinition) : Except Exception SortOperatorProxy := do
  assert (sortDefinitions ≠ []) "Expected at least one sort definition."
  return ⟨sortDefinitions⟩

/-- `ToJson`. -/
def toJson (base : JsonValue R) (p : SortOperatorProxy) : JsonValue R :=
  base.withArray "sort_definitions" (p.sortDefinitions.map SortColumnDefinition.toJson)

/-- `FromJson`. -/
def fromJson (json : JsonValue R) : Except Exception SortOperatorProxy := do
  let sortDefinitions ← (json.getArray "sort_definitions").mapM SortColumnDefinition.fromJson
  make sortDefinitions

lemma fromJson_toJson {p : SortOperatorProxy} {base : JsonValue R} (hp : p.sortDefinitions ≠ []) :
    fromJson (p.toJson base) = .ok p := by
  have hread : (p.sortDefinitions.map SortColumnDefinition.toJson).mapM
      (SortColumnDefinition.fromJson (R := R)) = .ok p.sortDefinitions := by
    rw [mapM_eq_ok_iff, List.forall₂_map_left_iff, List.forall₂_same]
    rintro ⟨columnId, sortMode⟩ -
    simp [SortColumnDefinition.fromJson, SortColumnDefinition.toJson, getString, getInteger,
      getObject, asString, asInteger, ofInt_toNat, bind, Except.bind, pure, Except.pure]
  simp [fromJson, toJson, make, getArray, getObject, asArray, hread, hp, bind, Except.bind, pure,
    Except.pure]

end SortOperatorProxy

/-- `UnionOperatorProxy`. -/
structure UnionOperatorProxy where
  mode : SetOperationMode

namespace UnionOperatorProxy

/-- `ToJson`. -/
def toJson (base : JsonValue R) (p : UnionOperatorProxy) : JsonValue R :=
  base.withString "set_operation_mode" (enumName p.mode : Bytes)

/-- `FromJson`. -/
def fromJson (json : JsonValue R) : Except Exception UnionOperatorProxy := do
  let mode ← enumValue (json.getString "set_operation_mode")
  return ⟨mode⟩

lemma fromJson_toJson {p : UnionOperatorProxy} {base : JsonValue R} :
    fromJson (p.toJson base) = .ok p := by
  simp [fromJson, toJson, getString, getObject, asString, bind, Except.bind, pure, Except.pure]

end UnionOperatorProxy

end Skyrise

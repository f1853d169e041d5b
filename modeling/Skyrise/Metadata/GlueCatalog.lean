/-
The catalog of tables.

`GlueCatalog` registers tables with the Glue service and reads them from it.  What it
has read of a table it keeps until the table is deleted through it, also if the table
gets a manifest in the meantime.
-/
import Skyrise.Metadata.GlueTable

namespace Skyrise

/-- The JSON texts of key constraints and of references, and the messages of failed requests. -/
structure GlueTexts where
  writeConstraints : List TableKeyConstraint → Bytes
  readConstraints : Bytes → Except Exception (List TableKeyConstraint)
  writeReference : ObjectReference → Bytes
  readReference : Bytes → Except Exception ObjectReference
  alreadyExists : String
  entityNotFound : String

/-! ### Reading tables -/

/-- The parameter of the service that names the manifest. -/
def kManifestRootKey : String := "SkyriseManifestRoot"

/-- The parameter of the service that lists the key constraints. -/
def kKeyConstraintRootKey : String := "SkyriseKeyConstraintRoot"

/-- The parameter of a column that tells whether it is nullable. -/
def kNullableKey : String := "Nullable"

/-- `DeriveGlueDataType`. -/
def deriveGlueDataType : DataType → Except Exception String
  | .double => .ok "double"
  | .float => .ok "float"
  | .int => .ok "int"
  | .long => .ok "bigint"
  | .string => .ok "string"
  | .null => .error (.assertionFailed "Missing mapping to Glue data type for: kNull")

/-- `DeriveDataType`. -/
def deriveDataType (glueDataType : String) : Except Exception DataType :=
  if glueDataType ∈ ["tinyint", "smallint", "int"] then .ok .int
  else if glueDataType = "bigint" then .ok .long
  else if glueDataType = "float" then .ok .float
  else if glueDataType = "double" then .ok .double
  else if glueDataType ∈ ["char", "string", "varchar"] then .ok .string
  else .error (.assertionFailed
    ("Missing mapping to data type for Glue data type: " ++ glueDataType))

/-- A character of the name of a bucket: `[\w-]`. -/
def isBucketByte (b : UInt8) : Bool :=
  (48 ≤ b && b ≤ 57) || (65 ≤ b && b ≤ 90) || (97 ≤ b && b ≤ 122) || b = 95 || b = 45

/-- The constructor of `ObjectReference` from a URI, which has to match
`^s3://([\w-]+)/(.*)$`. -/
def ObjectReference.ofS3Uri (s3Uri : Bytes) : Except Exception ObjectReference :=
  let fail : Except Exception ObjectReference := .error (.assertionFailed
    ("Unable to extract the S3 bucket and prefix from \"" ++ Bytes.toText s3Uri ++ "\"."))
  if ("s3://" : Bytes).isPrefixOf s3Uri then
    let rest := s3Uri.drop 5
    let bucketName := rest.takeWhile isBucketByte
    match rest.dropWhile isBucketByte with
    | 47 :: identifier =>
      if bucketName ≠ [] ∧ 10 ∉ identifier ∧ 13 ∉ identifier then
        .ok ⟨bucketName, identifier, [], none⟩
      else fail
    | _ => fail
  else fail

/-- `S3Uri`. -/
def ObjectReference.s3Uri (r : ObjectReference) : Bytes :=
  ("s3://" : Bytes) ++ r.bucketName ++ ("/" : Bytes) ++ r.identifier

namespace GlueCatalog

variable (texts : GlueTexts)

/-- A column definition from a column of the service. -/
def columnDefinition (column : GlueColumn) : Except Exception TableColumnDefinition := do
  let dataType ← deriveDataType column.type
  match column.parameters.lookup kNullableKey with
  | none => throw .outOfRange
  | some nullable => return ⟨column.name, dataType, nullable ≠ "0"⟩

/-- `TableSchemaFromGlueTable`. -/
def tableSchemaFromGlueTable (columns : List GlueColumn) (constraints : Option Bytes) :
    Except Exception TableSchema := do
  let columnDefinitions ← columns.mapM columnDefinition
  let tableSchema ← TableSchema.make columnDefinitions
  match constraints with
  | none => return tableSchema
  | some text => (← texts.readConstraints text).foldlM TableSchema.addKeyConstraint tableSchema

/-- `ToTableMetadata`. -/
def toTableMetadata (table : GlueTable) : Except Exception TableMetadata := do
  let tableSchema ←
    tableSchemaFromGlueTable texts table.columns (table.parameters.lookup kKeyConstraintRootKey)
  let location ← ObjectReference.ofS3Uri table.location
  match table.parameters.lookup kManifestRootKey with
  | none => return ⟨table.name, tableSchema, location, none⟩
  | some text => return ⟨table.name, tableSchema, location, some (← texts.readReference text)⟩

/-- `GlueTableSchema`: the table of the name, or what a result holds if the request failed. -/
def glueTableSchema (glue : GlueService) (name : Bytes) : GlueTable :=
  (glue.getTable name).getD ⟨[], [], [], []⟩

/-! ### The operations -/

end GlueCatalog

/-- A catalog: the service, and what was read of tables so far. -/
structure GlueCatalog where
  glue : GlueService
  cache : Bytes → Option TableMetadata

namespace GlueCatalog

/-- `emplace`, which keeps an entry that is there. -/
def emplace (cache : Bytes → Option TableMetadata) (name : Bytes) (table : TableMetadata) :
    Bytes → Option TableMetadata :=
  if (cache name).isSome then cache else Function.update cache name (some table)

/-- The operations of a catalog. -/
inductive Operation where
  | addTableMetadata (tableName : Bytes) (tableSchema : TableSchema) (metadata : ObjectReference)
  | deleteTableMetadata (tableName : Bytes)
  | addTableManifest (tableName : Bytes) (manifest : ObjectReference)
  | tableExists (tableName : Bytes)
  | getTableSchema (tableName : Bytes)
  | tableManifest (tableName : Bytes)
  | tableBucketName (tableName : Bytes)
  | tables

/-- What an operation returns. -/
inductive Response where
  | done
  | exists (tableExists : Bool)
  | schema (tableSchema : TableSchema)
  | manifest (reference : Option ObjectReference)
  | bucketName (name : Bytes)
  | names (tableNames : List Bytes)
deriving DecidableEq

section

variable (texts : GlueTexts)

/-- `LoadTableMetadata`. -/
def loadTableMetadata (s : GlueCatalog) (tableName : Bytes) :
    Except Exception TableMetadata × GlueCatalog :=
  let lcTableName := toLowerCase tableName
  match s.cache lcTableName with
  | some table => (.ok table, s)
  | none =>
    match toTableMetadata texts (glueTableSchema s.glue lcTableName) with
    | .error e => (.error e, s)
    | .ok table =>
      (.ok ((s.cache table.tableName).getD table),
        { s with cache := emplace s.cache table.tableName table })

/-- A read of one table. -/
def readTable (s : GlueCatalog) (tableName : Bytes) (response : TableMetadata → Response) :
    Except Exception Response × GlueCatalog :=
  let (table, s') := s.loadTableMetadata texts tableName
  (table.map response, s')

/-- The loop of `Tables`, which stops at a table that cannot be read. -/
def cacheTables : List GlueTable → (Bytes → Option TableMetadata) →
    Except Exception (List Bytes) × (Bytes → Option TableMetadata)
  | [], cache => (.ok [], cache)
  | glueTable :: glueTables, cache =>
    match toTableMetadata texts glueTable with
    | .error e => (.error e, cache)
    | .ok table =>
      let (names, cache') := cacheTables glueTables (emplace cache table.tableName table)
      (names.map (table.tableName :: ·), cache')

/-- The table that `AddTableMetadata` creates. -/
def newTable (tableName : Bytes) (tableSchema : TableSchema) (metadata : ObjectReference) :
    Except Exception GlueTable := do
  let columns ← tableSchema.columnDefinitions.mapM fun column => do
    let type ← deriveGlueDataType column.dataType
    pure (⟨column.name, type, [(kNullableKey, if column.nullable then "1" else "0")]⟩ : GlueColumn)
  let parameters := if tableSchema.keyConstraints.isEmpty then []
    else [(kKeyConstraintRootKey, texts.writeConstraints tableSchema.keyConstraints)]
  return ⟨tableName, columns, metadata.s3Uri, parameters⟩

/-- `AddParameters`, which keeps a parameter that is there. -/
def addParameter (parameters : List (String × Bytes)) (key : String) (value : Bytes) :
    List (String × Bytes) :=
  if (parameters.lookup key).isSome then parameters else parameters ++ [(key, value)]

/-- `TableExists`. -/
def tableExists (s : GlueCatalog) (tableName : Bytes) : Bool :=
  (s.cache (toLowerCase tableName)).isSome || (s.glue.getTable (toLowerCase tableName)).isSome

/-- One operation: what it returns or throws, and the catalog after it. -/
def step (s : GlueCatalog) : Operation → Except Exception Response × GlueCatalog
  | .addTableMetadata tableName tableSchema metadata =>
    match newTable texts tableName tableSchema metadata with
    | .error e => (.error e, s)
    | .ok table =>
      match s.glue.createTable table with
      | none => (.error (.assertionFailed texts.alreadyExists), s)
      | some glue => (.ok .done, { s with glue := glue })
  | .deleteTableMetadata tableName =>
    match s.glue.deleteTable (toLowerCase tableName) with
    | none => (.error (.assertionFailed texts.entityNotFound), s)
    | some glue =>
      (.ok .done, ⟨glue, Function.update s.cache (toLowerCase tableName) none⟩)
  | .addTableManifest tableName manifest =>
    if s.tableExists tableName then
      let table := glueTableSchema s.glue tableName
      let parameters :=
        addParameter table.parameters kManifestRootKey (texts.writeReference manifest)
      (.ok .done, { s with glue := s.glue.updateParameters table.name parameters })
    else (.error (.assertionFailed "The table does not exist."), s)
  | .tableExists tableName => (.ok (.exists (s.tableExists tableName)), s)
  | .getTableSchema tableName => s.readTable texts tableName fun table => .schema table.tableSchema
  | .tableManifest tableName => s.readTable texts tableName fun table => .manifest table.manifest
  | .tableBucketName tableName =>
    s.readTable texts tableName fun table => .bucketName table.location.bucketName
  | .tables =>
    let (names, cache) := cacheTables texts s.glue.tables s.cache
    (names.map .names, { s with cache := cache })

/-! ### What the service holds -/

/-- The operations so far, the last one first, and what the service held at each of them. -/
abbrev History := List (Operation × GlueService)

/-- A catalog after some operations, and their history. -/
def run (operations : List Operation) (glue : GlueService) : GlueCatalog × History :=
  operations.foldl (fun (s, history) operation =>
    ((s.step texts operation).2, (operation, s.glue) :: history)) (⟨glue, fun _ => none⟩, [])

/-- What the service holds of a table. -/
def held (glue : GlueService) (name : Bytes) : Except Exception TableMetadata :=
  toTableMetadata texts (glueTableSchema glue name)

/-- Whether an operation reads a table.  `Tables` reads the tables in front of the first one that
cannot be read. -/
def reads (glue : GlueService) (name : Bytes) : Operation → Bool
  | .getTableSchema tableName => toLowerCase tableName = name
  | .tableManifest tableName => toLowerCase tableName = name
  | .tableBucketName tableName => toLowerCase tableName = name
  | .tables => name ∈ (glue.tables.takeWhile fun t => (toTableMetadata texts t).isOk).map
      GlueTable.name
  | _ => false

/-- Whether an operation deletes a table. -/
def deletes (name : Bytes) : Operation → Bool
  | .deleteTableMetadata tableName => toLowerCase tableName = name
  | _ => false

/-- What the service held of a table when it was read for the first time since it was last
deleted. -/
def firstRead (name : Bytes) : History → Option TableMetadata
  | [] => none
  | (operation, glue) :: history =>
    if deletes name operation then none
    else (firstRead name history).or
      (if reads texts glue name operation then (held texts glue name).toOption else none)

/-- What a read has to return: what the service holds, but the manifest of a table that was read
before is the one that the service held then. -/
def expected (s : GlueService) (history : History) : Operation → Option (Except Exception Response)
  | .tableExists tableName => some (.ok (.exists (s.getTable tableName).isSome))
  | .getTableSchema tableName =>
    some ((held texts s (toLowerCase tableName)).map fun table => .schema table.tableSchema)
  | .tableManifest tableName =>
    some (((firstRead texts (toLowerCase tableName) history).elim
      (held texts s (toLowerCase tableName)) .ok).map fun table => .manifest table.manifest)
  | .tableBucketName tableName =>
    some ((held texts s (toLowerCase tableName)).map fun table =>
      .bucketName table.location.bucketName)
  | .tables => some ((s.tables.mapM (toTableMetadata texts)).map fun tables =>
      .names (tables.map TableMetadata.tableName))
  | _ => none

end

end GlueCatalog

end Skyrise

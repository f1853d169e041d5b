/-
Import options.

The options of the readers, one record for each format, are written as the member
of an object that names the format, and read back from the first such member.  An
expected schema is only read back if it has columns.  Of a Parquet filter the
Skyrise expression is written, and what is read back is the Arrow expression that
`CreateArrowExpression` makes of it.
-/
import Skyrise.Expression.Serialization
import Skyrise.Storage.Table

namespace Skyrise

open JsonValue MagicEnum Bytes

/-- `CsvFormatReaderOptions`. -/
structure CsvFormatReaderOptions where
  readBufferSize : UInt64
  delimiter : UInt8 := 44
  guessDelimiter : Bool := true
  guessHasHeader : Bool := true
  guessHasTypes : Bool := true
  hasHeader : Bool := false
  hasTypes : Bool := false
  expectedSchema : Option (List TableColumnDefinition) := none

/-- `OrcFormatReaderOptions`. -/
structure OrcFormatReaderOptions where
  parseDatesAsString : Bool := false
  includeColumns : Option (List UInt32) := none
  expectedSchema : Option (List TableColumnDefinition) := none

/-- `ParquetFormatReaderOptions`, with Arrow expressions from `A`. -/
structure ParquetFormatReaderOptions (R A : Type) where
  parseDatesAsString : Bool := false
  expectedSchema : Option (List TableColumnDefinition) := none
  includeColumns : Option (List UInt32) := none
  rowGroupIds : Option (List Int32) := none
  /-- The filter that the reader applies. -/
  arrowExpression : Option A := none
  /-- The filter that is written. -/
  skyriseExpression : Option (Expression R) := none

/-- `ImportOptions`: the options of the reader of a format. -/
inductive ImportOptions (R A : Type) where
  | csv (options : CsvFormatReaderOptions)
  | orc (options : OrcFormatReaderOptions)
  | parquet (options : ParquetFormatReaderOptions R A)

variable {R A : Type}

/-! ### Column ids and schemas -/

/-- `VectorToJsonArray` of column ids. -/
def columnIdsToJsonArray (columnIds : List UInt32) : List (JsonValue R) :=
  columnIds.map fun columnId => .integer columnId.toNat

/-- `JsonArrayToVector` of column ids. -/
def columnIdsFromJsonArray (array : List (JsonValue R)) : List UInt32 :=
  array.map fun json => .ofInt json.asInteger

@[simp] lemma columnIdsFromJsonArray_columnIdsToJsonArray (columnIds : List UInt32) :
    columnIdsFromJsonArray (columnIdsToJsonArray columnIds : List (JsonValue R)) = columnIds := by
  rw [columnIdsFromJsonArray, columnIdsToJsonArray, List.map_map]
  exact (List.map_congr_left fun n _ => ofInt_toNat n).trans (List.map_id _)

/-- The definition of a column as an object. -/
def TableColumnDefinition.toJson (definition : TableColumnDefinition) : JsonValue R :=
  ((JsonValue.empty.withString "name" definition.name).withString "data_type"
    (enumName definition.dataType : Bytes)).withBool "nullable" definition.nullable

/-- The definition of a column from an object. -/
def TableColumnDefinition.fromJson (json : JsonValue R) : Except Exception TableColumnDefinition := do
  assert (json.keyExists "name") "Expected JSON value name"
  let columnName := json.getString "name"
  assert (json.keyExists "data_type") "Expected JSON value data_type"
  let dataType ← enumValue (json.getString "data_type")
  assert (json.keyExists "nullable") "Expected JSON value nullable"
  return ⟨columnName.toText, dataType, json.getBool "nullable"⟩

lemma TableColumnDefinition.fromJson_toJson (definition : TableColumnDefinition) :
    fromJson (definition.toJson : JsonValue R) = .ok definition := by
  simp [fromJson, toJson, keyExists, getString, getBool, getObject, asString, asBool, bind,
    Except.bind, pure, Except.pure]

/-- `TableColumnDefinitionsToJsonArray`. -/
def tableColumnDefinitionsToJsonArray (definitions : List TableColumnDefinition) :
    List (JsonValue R) :=
  definitions.map TableColumnDefinition.toJson

/-- `TableColumnDefinitionsFromJsonArray`. -/
def tableColumnDefinitionsFromJsonArray (array : List (JsonValue R)) :
    Except Exception (List TableColumnDefinition) := do
  assert (array ≠ []) "Expected JSON array with at least one entry."
  array.mapM TableColumnDefinition.fromJson

/-- The schema of which there is a member. -/
def expectedSchemaFromJson (json : JsonValue R) :
    Except Exception (Option (List TableColumnDefinition)) :=
  if json.keyExists "expected_schema" then
    some <$> tableColumnDefinitionsFromJsonArray (json.getArray "expected_schema")
  else .ok none

/-- The column ids of which there is a member. -/
def includeColumnsFromJson (json : JsonValue R) : Option (List UInt32) :=
  if json.keyExists "include_columns" then
    some (columnIdsFromJsonArray (json.getArray "include_columns"))
  else none

lemma includeColumnsFromJson_eq {json : JsonValue R} (columnIds : Option (List UInt32))
    (h : json.find "include_columns" =
      columnIds.map fun columnIds => .array (columnIdsToJsonArray columnIds)) :
    includeColumnsFromJson json = columnIds := by
  cases columnIds with
  | none => simp [includeColumnsFromJson, keyExists, h]
  | some columnIds => simp [includeColumnsFromJson, keyExists, getArray, getObject, asArray, h]

/-- A schema is read back if it has columns. -/
lemma expectedSchemaFromJson_eq {json : JsonValue R} (schema : Option (List TableColumnDefinition))
    (h : json.find "expected_schema" =
      schema.map fun schema => .array (tableColumnDefinitionsToJsonArray schema)) :
    expectedSchemaFromJson json = if schema = some [] then
      .error (.assertionFailed "Expected JSON array with at least one entry.") else .ok schema := by
  rcases schema with - | schema
  · simp [expectedSchemaFromJson, keyExists, h]
  · have hread : (tableColumnDefinitionsToJsonArray schema : List (JsonValue R)).mapM
        TableColumnDefinition.fromJson = .ok schema := by
      rw [mapM_eq_ok_iff, tableColumnDefinitionsToJsonArray, List.forall₂_map_left_iff,
        List.forall₂_same]
      exact fun definition _ => definition.fromJson_toJson
    cases schema with
    | nil =>
      simp [expectedSchemaFromJson, keyExists, getArray, getObject, asArray, h,
        tableColumnDefinitionsFromJsonArray, tableColumnDefinitionsToJsonArray, bind, Except.bind,
        Functor.map, Except.map]
    | cons definition schema =>
      have hne : (tableColumnDefinitionsToJsonArray (definition :: schema) : List (JsonValue R)) ≠ [] :=
        List.cons_ne_nil _ _
      simp [expectedSchemaFromJson, keyExists, getArray, getObject, asArray, h,
        tableColumnDefinitionsFromJsonArray, hread, hne, bind, Except.bind, Functor.map, Except.map]

/-! ### The options of each format -/

/-- The options as an object. -/
def CsvFormatReaderOptions.toJson (o : CsvFormatReaderOptions) : JsonValue R :=
  (((((((JsonValue.empty.withInteger "read_buffer_size" o.readBufferSize.toInt64.toInt).withString
    "delimiter" [o.delimiter]).withBool "guess_delimiter" o.guessDelimiter).withBool
    "guess_has_header" o.guessHasHeader).withBool "guess_has_types" o.guessHasTypes).withBool
    "has_header" o.hasHeader).withBool "has_types" o.hasTypes).withOptional "expected_schema"
    (o.expectedSchema.map fun schema => .array (tableColumnDefinitionsToJsonArray schema))

/-- The options from an object. -/
def CsvFormatReaderOptions.fromJson (json : JsonValue R) :
    Except Exception CsvFormatReaderOptions := do
  let expectedSchema ← expectedSchemaFromJson json
  return {
    readBufferSize := .ofInt (json.getInteger "read_buffer_size")
    delimiter := (json.getString "delimiter").headD 0
    guessDelimiter := (json.getObject "guess_delimiter").asBool
    guessHasHeader := (json.getObject "guess_has_header").asBool
    guessHasTypes := (json.getObject "guess_has_types").asBool
    hasHeader := (json.getObject "has_header").asBool
    hasTypes := (json.getObject "has_types").asBool
    expectedSchema }

/-- The options as an object: either the schema or the columns are written. -/
def OrcFormatReaderOptions.toJson (o : OrcFormatReaderOptions) : JsonValue R :=
  let json := JsonValue.empty.withBool "parse_dates_as_string" o.parseDatesAsString
  match o.expectedSchema with
  | some schema => json.withArray "expected_schema" (tableColumnDefinitionsToJsonArray schema)
  | none => json.withOptional "include_columns"
      (o.includeColumns.map fun columnIds => .array (columnIdsToJsonArray columnIds))

/-- The options from an object. -/
def OrcFormatReaderOptions.fromJson (json : JsonValue R) :
    Except Exception OrcFormatReaderOptions := do
  let expectedSchema ← expectedSchemaFromJson json
  return {
    parseDatesAsString := (json.getObject "parse_dates_as_string").asBool
    includeColumns :=
      if json.keyExists "expected_schema" then none else includeColumnsFromJson json
    expectedSchema }

/-- The options as an object. -/
def ParquetFormatReaderOptions.toJson (o : ParquetFormatReaderOptions R A) : JsonValue R :=
  ((((JsonValue.empty.withBool "parse_dates_as_string" o.parseDatesAsString).withOptional
    "include_columns" (o.includeColumns.map fun columnIds =>
      .array (columnIdsToJsonArray columnIds))).withOptional
    "expected_schema" (o.expectedSchema.map fun schema =>
      .array (tableColumnDefinitionsToJsonArray schema))).withOptional
    "row_group_ids" (o.rowGroupIds.map fun rowGroupIds =>
      .array (vectorToJsonArray rowGroupIds))).withOptional
    "skyrise_expression" (o.skyriseExpression.map serializeExpression)

section Read

variable [FloatingPoint R] (createArrowExpression : Expression R → Except Exception A)

/-- The Arrow expression of which there is a Skyrise expression. -/
def arrowExpressionFromJson (json : JsonValue R) : Except Exception (Option A) :=
  if json.keyExists "skyrise_expression" then do
    let skyriseExpression ← deserializeExpression (json.getObject "skyrise_expression")
    some <$> createArrowExpression skyriseExpression
  else .ok none

/-- The options from an object. -/
def ParquetFormatReaderOptions.fromJson (json : JsonValue R) :
    Except Exception (ParquetFormatReaderOptions R A) := do
  let expectedSchema ← expectedSchemaFromJson json
  let arrowExpression ← arrowExpressionFromJson createArrowExpression json
  return {
    parseDatesAsString := (json.getObject "parse_dates_as_string").asBool
    expectedSchema
    includeColumns := includeColumnsFromJson json
    arrowExpression
    rowGroupIds := ObjectReference.partitionsFromJson json "row_group_ids" }

namespace ImportOptions

omit [FloatingPoint R] in
/-- `ToJson`. -/
def toJson : ImportOptions R A → JsonValue R
  | csv options => JsonValue.empty.withObject "csv_format_reader_options" options.toJson
  | orc options => JsonValue.empty.withObject "orc_format_reader_options" options.toJson
  | parquet options => JsonValue.empty.withObject "parquet_format_reader_options" options.toJson

/-- `FromJson`. -/
def fromJson (json : JsonValue R) : Except Exception (ImportOptions R A) :=
  if json.keyExists "csv_format_reader_options" then
    csv <$> CsvFormatReaderOptions.fromJson (json.getObject "csv_format_reader_options")
  else if json.keyExists "orc_format_reader_options" then
    orc <$> OrcFormatReaderOptions.fromJson (json.getObject "orc_format_reader_options")
  else if json.keyExists "parquet_format_reader_options" then
    parquet <$> ParquetFormatReaderOptions.fromJson createArrowExpression
      (json.getObject "parquet_format_reader_options")
  else .error (.assertionFailed "Failed to create ImportOptions because JSON values are missing.")

end ImportOptions

/-! ### The round trip -/

variable {createArrowExpression}

/-- A size that was written as a signed number. -/
lemma ofInt_toInt64 (n : UInt64) : UInt64.ofInt n.toInt64.toInt = n := by
  have hbmod : n.toInt64.toInt = (n.toNat : ℤ).bmod (2 ^ 64) := BitVec.toInt_eq_toNat_bmod _
  have hlt := n.toNat_lt
  have hmod : ((n.toNat : ℤ).bmod (2 ^ 64) % 2 ^ 64).toNat = n.toNat := by
    rw [Int.bmod_def]
    omega
  rw [hbmod, UInt64.ofInt, hmod, UInt64.ofNat_toNat]

omit [FloatingPoint R] in
lemma CsvFormatReaderOptions.fromJson_toJson (o : CsvFormatReaderOptions) :
    fromJson (o.toJson : JsonValue R) = if o.expectedSchema = some [] then
      .error (.assertionFailed "Expected JSON array with at least one entry.") else .ok o := by
  rw [fromJson, expectedSchemaFromJson_eq o.expectedSchema (by simp [toJson])]
  split
  · rfl
  · simp [toJson, getInteger, getString, getObject, asInteger, asString, asBool, bind, Except.bind,
      pure, Except.pure, ofInt_toInt64]

omit [FloatingPoint R] in
/-- What is read back of options for ORC files. -/
lemma OrcFormatReaderOptions.fromJson_toJson (o : OrcFormatReaderOptions) :
    fromJson (o.toJson : JsonValue R) = if o.expectedSchema = some [] then
      .error (.assertionFailed "Expected JSON array with at least one entry.") else
      .ok { o with includeColumns := if o.expectedSchema = none then o.includeColumns else none } := by
  obtain ⟨parseDatesAsString, includeColumns, expectedSchema⟩ := o
  rcases expectedSchema with - | schema
  · rw [fromJson, expectedSchemaFromJson_eq none (by simp [toJson]),
      includeColumnsFromJson_eq includeColumns (by simp [toJson])]
    simp [toJson, keyExists, getObject, asBool, bind, Except.bind, pure, Except.pure]
  · rw [fromJson, expectedSchemaFromJson_eq (some schema) (by simp [toJson])]
    split
    · rfl
    · simp [toJson, keyExists, getObject, asBool, bind, Except.bind, pure, Except.pure]

/-- The Arrow expression is made of the Skyrise expression that is read back. -/
lemma arrowExpressionFromJson_eq {json : JsonValue R} (skyriseExpression : Option (Expression R))
    (h : json.find "skyrise_expression" = skyriseExpression.map serializeExpression)
    (hconstructible : ∀ e ∈ skyriseExpression, e.Constructible) :
    arrowExpressionFromJson createArrowExpression json = match skyriseExpression with
      | some e => some <$> createArrowExpression e.decoded
      | none => .ok none := by
  cases skyriseExpression with
  | none => simp [arrowExpressionFromJson, keyExists, h]
  | some e =>
    have hread := deserializeExpression_serializeExpression (hconstructible e rfl)
    simp [arrowExpressionFromJson, keyExists, getObject, h, hread, bind, Except.bind]

namespace ParquetFormatReaderOptions

/-- The filter of the reader is the one that is made of the filter that is written. -/
def FilterTransferable (createArrowExpression : Expression R → Except Exception A)
    (o : ParquetFormatReaderOptions R A) : Prop :=
  match o.skyriseExpression with
  | some e => ∃ a, createArrowExpression e.decoded = .ok a ∧ o.arrowExpression = some a
  | none => o.arrowExpression = none

variable (createArrowExpression) in
/-- Options for Parquet files are read back, up to the filter that is written, if and only if the
schema is not empty and the filter is transferable. -/
lemma fromJson_toJson_determining_iff {o : ParquetFormatReaderOptions R A}
    (hconstructible : ∀ e ∈ o.skyriseExpression, e.Constructible) :
    fromJson createArrowExpression o.toJson = .ok { o with skyriseExpression := none } ↔
      o.expectedSchema ≠ some [] ∧ o.FilterTransferable createArrowExpression := by
  rw [fromJson, expectedSchemaFromJson_eq o.expectedSchema (by simp [toJson]),
    arrowExpressionFromJson_eq o.skyriseExpression (by simp [toJson])
      hconstructible,
    includeColumnsFromJson_eq o.includeColumns (by simp [toJson])]
  have hrowGroupIds : ObjectReference.partitionsFromJson (o.toJson : JsonValue R) "row_group_ids" =
      o.rowGroupIds := by
    cases h : o.rowGroupIds with
    | none => simp [toJson, h, ObjectReference.partitionsFromJson, keyExists]
    | some rowGroupIds =>
      simp [toJson, h, ObjectReference.partitionsFromJson, keyExists, getArray, getObject, asArray]
  have hparse : ((o.toJson : JsonValue R).getObject "parse_dates_as_string").asBool =
      o.parseDatesAsString := by simp [toJson, getObject, asBool]
  rw [hrowGroupIds, hparse]
  split
  · next hempty => exact iff_of_false (fun h => by cases h) fun h => h.1 hempty
  · next hne =>
    obtain ⟨parse, schema, columns, rowGroupIds, arrowExpression, skyriseExpression⟩ := o
    -- with a filter the Arrow expression may not exist or be another one
    rcases skyriseExpression with - | e
    · simp [FilterTransferable, hne, bind, Except.bind, pure, Except.pure, eq_comm]
    · cases hcreate : createArrowExpression e.decoded with
      | error exception =>
        simp [FilterTransferable, hcreate, bind, Except.bind, Functor.map, Except.map]
      | ok a =>
        simp [FilterTransferable, hcreate, hne, bind, Except.bind, Functor.map, Except.map, pure,
          Except.pure, eq_comm]

/-- What is read back has no filter that is written. -/
lemma skyriseExpression_fromJson {json : JsonValue R} {o : ParquetFormatReaderOptions R A}
    (h : fromJson createArrowExpression json = .ok o) : o.skyriseExpression = none := by
  rw [fromJson] at h
  cases hschema : expectedSchemaFromJson json with
  | error exception =>
    rw [hschema] at h
    cases h
  | ok schema =>
    cases harrow : arrowExpressionFromJson createArrowExpression json with
    | error exception =>
      rw [hschema, harrow] at h
      cases h
    | ok arrowExpression =>
      rw [hschema, harrow] at h
      cases h
      rfl

end ParquetFormatReaderOptions

namespace ImportOptions

/-- What determines how objects are read: of a Parquet filter, the Arrow expression. -/
def determining : ImportOptions R A → ImportOptions R A
  | csv options => csv options
  | orc options => orc options
  | parquet options => parquet { options with skyriseExpression := none }

/-- Any filter that is written is an expression that can be constructed. -/
def Constructible : ImportOptions R A → Prop
  | parquet options => ∀ e ∈ options.skyriseExpression, e.Constructible
  | _ => True

/-- No expected schema is empty, options for ORC files do not have both a schema and columns, and
the filter of options for Parquet files is transferable. -/
def Transferable (createArrowExpression : Expression R → Except Exception A) :
    ImportOptions R A → Prop
  | csv options => options.expectedSchema ≠ some []
  | orc options => options.expectedSchema ≠ some [] ∧
      (options.expectedSchema = none ∨ options.includeColumns = none)
  | parquet options => options.expectedSchema ≠ some [] ∧
      options.FilterTransferable createArrowExpression

variable (createArrowExpression) in
/-- Import options are read back if and only if they are transferable. -/
lemma fromJson_toJson_determining_iff {o : ImportOptions R A} (hconstructible : o.Constructible) :
    (∃ o', fromJson createArrowExpression o.toJson = .ok o' ∧ o'.determining = o.determining) ↔
      o.Transferable createArrowExpression := by
  cases o with
  | csv options =>
    have hread := CsvFormatReaderOptions.fromJson_toJson (R := R) options
    have hself : (csv options : ImportOptions R A).determining = csv options := rfl
    by_cases h : options.expectedSchema = some []
    · simp [fromJson, toJson, keyExists, getObject, Transferable, hread, h, Functor.map, Except.map]
    · simp [fromJson, toJson, keyExists, getObject, Transferable, hread, h, Functor.map, Except.map,
        hself]
  | orc options =>
    have hread := OrcFormatReaderOptions.fromJson_toJson (R := R) options
    obtain ⟨parse, columns, schema⟩ := options
    by_cases h : schema = some []
    · subst h
      simp [fromJson, toJson, keyExists, getObject, Transferable, hread, Functor.map, Except.map]
    · by_cases hnone : schema = none
      · subst hnone
        simp [fromJson, toJson, keyExists, getObject, Transferable, hread, Functor.map, Except.map]
      · simp [fromJson, toJson, keyExists, getObject, Transferable, hread, h, hnone, Functor.map,
          Except.map, determining, eq_comm]
  | parquet options =>
    have hiff := ParquetFormatReaderOptions.fromJson_toJson_determining_iff createArrowExpression
      hconstructible
    rw [show Transferable createArrowExpression (parquet options) ↔ _ from hiff.symm]
    have hfrom : fromJson createArrowExpression (parquet options).toJson = parquet <$>
        ParquetFormatReaderOptions.fromJson createArrowExpression options.toJson := by
      simp [fromJson, toJson, keyExists, getObject]
    rw [hfrom]
    constructor
    · rintro ⟨o', hread, hdetermining⟩
      cases hparquet : ParquetFormatReaderOptions.fromJson createArrowExpression options.toJson with
      | error exception =>
        rw [hparquet] at hread
        cases hread
      | ok options' =>
        rw [hparquet] at hread
        cases hread
        have hnone := ParquetFormatReaderOptions.skyriseExpression_fromJson hparquet
        obtain ⟨parse, schema, columns, rowGroupIds, arrowExpression, skyriseExpression⟩ := options'
        obtain rfl : skyriseExpression = none := hnone
        exact congrArg Except.ok (parquet.inj hdetermining)
    · intro hread
      refine ⟨parquet { options with skyriseExpression := none }, ?_, rfl⟩
      rw [hread]
      rfl

/-! ### Repeated round trips -/

variable (createArrowExpression) in
/-- What is read back after some round trips. -/
def afterRoundTrips : ℕ → ImportOptions R A → Except Exception (ImportOptions R A)
  | 0, o => .ok o
  | n + 1, o => do
    let o ← fromJson createArrowExpression o.toJson
    afterRoundTrips n o

omit [FloatingPoint R] in
/-- No expected schema is empty, options for ORC files do not have both a schema and columns, and
options for Parquet files have no filter. -/
def Lasting : ImportOptions R A → Prop
  | csv options => options.expectedSchema ≠ some []
  | orc options => options.expectedSchema ≠ some [] ∧
      (options.expectedSchema = none ∨ options.includeColumns = none)
  | parquet options => options.expectedSchema ≠ some [] ∧
      options.arrowExpression = none ∧ options.skyriseExpression = none

lemma Lasting.fromJson_toJson {o : ImportOptions R A} (h : o.Lasting) :
    fromJson createArrowExpression o.toJson = .ok o := by
  cases o with
  | csv options =>
    have hread := CsvFormatReaderOptions.fromJson_toJson (R := R) options
    rw [if_neg h] at hread
    simp [fromJson, toJson, keyExists, getObject, hread, Functor.map, Except.map]
  | orc options =>
    have hread := OrcFormatReaderOptions.fromJson_toJson (R := R) options
    rw [if_neg h.1] at hread
    have hself : (if options.expectedSchema = none then options.includeColumns else none) =
        options.includeColumns := by
      split
      · rfl
      · next hsome => exact (h.2.resolve_left hsome).symm
    rw [hself] at hread
    simp [fromJson, toJson, keyExists, getObject, hread, Functor.map, Except.map]
  | parquet options =>
    obtain ⟨hschema, harrow, hskyrise⟩ := h
    have htransferable : options.FilterTransferable createArrowExpression := by
      rw [ParquetFormatReaderOptions.FilterTransferable, hskyrise]
      exact harrow
    have hread := (ParquetFormatReaderOptions.fromJson_toJson_determining_iff
      createArrowExpression fun e he => by simp [hskyrise] at he).mpr ⟨hschema, htransferable⟩
    have hself : { options with skyriseExpression := none } = options := by rw [← hskyrise]
    rw [hself] at hread
    simp [fromJson, toJson, keyExists, getObject, hread, Functor.map, Except.map]

lemma Lasting.afterRoundTrips {o : ImportOptions R A} (h : o.Lasting) (n : ℕ) :
    afterRoundTrips createArrowExpression n o = .ok o := by
  induction n with
  | zero => rfl
  | succ n ih =>
    rw [ImportOptions.afterRoundTrips, h.fromJson_toJson]
    exact ih

end ImportOptions

namespace ParquetFormatReaderOptions

/-- A filter that is written is read back as an Arrow expression. -/
lemma arrowExpression_ne_none {json : JsonValue R} {o : ParquetFormatReaderOptions R A}
    (h : fromJson createArrowExpression json = .ok o)
    (hkey : json.keyExists "skyrise_expression" = true) : o.arrowExpression ≠ none := by
  rw [fromJson] at h
  obtain ⟨schema, -, h⟩ := exists_of_bind_eq_ok h
  obtain ⟨arrowExpression, harrow, h⟩ := exists_of_bind_eq_ok h
  cases h
  rw [arrowExpressionFromJson, if_pos hkey] at harrow
  obtain ⟨e, -, harrow⟩ := exists_of_bind_eq_ok harrow
  cases hcreate : createArrowExpression e with
  | error exception =>
    rw [hcreate] at harrow
    cases harrow
  | ok a =>
    rw [hcreate] at harrow
    cases harrow
    exact Option.some_ne_none a

end ParquetFormatReaderOptions

namespace ImportOptions

/-- Options for Parquet files that are read back twice have no filter. -/
lemma lasting_of_twice {options : ParquetFormatReaderOptions R A}
    (hfirst : ∃ o', fromJson createArrowExpression (parquet options).toJson = .ok o' ∧
      o'.determining = (parquet options : ImportOptions R A).determining)
    (hsecond : ∃ o', (do
        let o ← fromJson createArrowExpression (parquet options).toJson
        fromJson createArrowExpression o.toJson) = .ok o' ∧
      o'.determining = (parquet options : ImportOptions R A).determining) :
    (parquet options : ImportOptions R A).Lasting := by
  obtain ⟨o', hread, hdetermining⟩ := hfirst
  obtain ⟨o'', hread'', hdetermining''⟩ := hsecond
  have hfrom : fromJson createArrowExpression (parquet options).toJson = parquet <$>
      ParquetFormatReaderOptions.fromJson createArrowExpression options.toJson := by
    simp [fromJson, toJson, keyExists, getObject]
  cases hparquet : ParquetFormatReaderOptions.fromJson createArrowExpression options.toJson with
  | error exception =>
    rw [hfrom, hparquet] at hread
    cases hread
  | ok options' =>
    rw [hfrom, hparquet] at hread hread''
    cases hread
    -- what is read back has no filter that could be written again
    have hnone := ParquetFormatReaderOptions.skyriseExpression_fromJson hparquet
    have hself : options' = { options with skyriseExpression := none } := by
      obtain ⟨parse, schema, columns, rowGroupIds, arrowExpression, skyriseExpression⟩ := options'
      obtain rfl : skyriseExpression = none := hnone
      exact parquet.inj hdetermining
    subst hself
    obtain ⟨hschema, harrow⟩ := (fromJson_toJson_determining_iff createArrowExpression
      (o := parquet { options with skyriseExpression := none }) fun e he => by cases he).mp
        ⟨o'', hread'', hdetermining''⟩
    refine ⟨hschema, harrow, ?_⟩
    by_contra hskyrise
    obtain ⟨e, he⟩ := Option.ne_none_iff_exists'.mp hskyrise
    refine ParquetFormatReaderOptions.arrowExpression_ne_none hparquet ?_ harrow
    simp [ParquetFormatReaderOptions.toJson, keyExists, he]

/-- Options for Parquet files with a filter, on which the Arrow expressions are units. -/
def filtered : ImportOptions ℚ Unit :=
  parquet {
    arrowExpression := some ()
    skyriseExpression := some (.node (.value (some (.int 1))) []) }

end ImportOptions

end Read

end Skyrise

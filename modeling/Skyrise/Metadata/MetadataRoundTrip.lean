/-
Reading back the metadata of a table.

The columns of a schema are stored one by one with their types, its key
constraints as a JSON text, and the location of the table as a URI.  The JSON
library is code that is not part of the repository; of it the two functions that
write and read a text are parameters.  The order in which a set of column ids is
listed is left open, too.

Schemas are read back always.  A location is read back if the URI has a bucket
that the regular expression accepts, and nothing in the reference is left out of
the URI.
-/
import Mathlib.Data.List.Dedup
import Mathlib.Data.List.TakeWhile
import Skyrise.Metadata.CatalogReads

namespace Skyrise

open JsonValue

/-! ### Key constraints as JSON -/

instance : MagicEnum KeyConstraintType where
  values := [.primaryKey, .unique]
  enumName
    | .primaryKey => "kPrimaryKey"
    | .unique => "kUnique"
  mem_values a := by cases a <;> simp
  enumName_injective a b h := by cases a <;> cases b <;> simp_all

/-- `std::unordered_set` of column ids, made from a vector. -/
structure UnorderedSet where
  ofVector : List UInt32 → List UInt32
  mem_ofVector : ∀ ids id, id ∈ ofVector ids ↔ id ∈ ids
  nodup_ofVector : ∀ ids, (ofVector ids).Nodup

/-- The set that lists its elements in the order of their last occurrences. -/
def UnorderedSet.lastOccurrences : UnorderedSet where
  ofVector := List.dedup
  mem_ofVector _ _ := List.mem_dedup
  nodup_ofVector := List.nodup_dedup

namespace TableKeyConstraint

variable {R : Type}

/-- The JSON object of a constraint. -/
def toJson (c : TableKeyConstraint) : JsonValue R :=
  (JsonValue.empty.withString "type" (MagicEnum.enumName c.keyType : Bytes)).withArray "columnIds"
    (c.columnIds.map fun columnId => .integer columnId.toNat)

/-- The constraint of a JSON object. -/
def fromJson (set : UnorderedSet) (json : JsonValue R) : Except Exception TableKeyConstraint := do
  let columnIds := (json.getArray "columnIds").map fun json =>
    UInt32.ofNat (json.asInteger % 2 ^ 32).toNat
  let keyType ← enumValue (json.getString "type")
  return ⟨set.ofVector columnIds, keyType⟩

/-- Two constraints of one kind for the same set of columns. -/
structure Same (c d : TableKeyConstraint) : Prop where
  keyType : c.keyType = d.keyType
  mem_columnIds : ∀ columnId, columnId ∈ c.columnIds ↔ columnId ∈ d.columnIds

lemma fromJson_toJson (set : UnorderedSet) (c : TableKeyConstraint) :
    fromJson set (c.toJson : JsonValue R) = .ok ⟨set.ofVector c.columnIds, c.keyType⟩ := by
  have hids : ((c.toJson : JsonValue R).getArray "columnIds").map (fun json =>
      UInt32.ofNat (json.asInteger % 2 ^ 32).toNat) = c.columnIds := by
    simp only [toJson, getArray, getObject, withArray, find_withMember, if_true, Option.getD_some,
      asArray, List.map_map]
    refine (List.map_congr_left fun columnId _ => ?_).trans (List.map_id _)
    have hlt : ((columnId.toNat : ℤ) % 2 ^ 32).toNat = columnId.toNat := by
      have := columnId.toNat_lt
      omega
    show UInt32.ofNat ((columnId.toNat : ℤ) % 2 ^ 32).toNat = columnId
    rw [hlt, UInt32.ofNat_toNat]
  have htype : (c.toJson : JsonValue R).getString "type" =
      (MagicEnum.enumName c.keyType : Bytes) := by
    simp [toJson, getString, getObject, withArray, withString, asString]
  rw [fromJson, hids, htype, enumValue_enumName]
  rfl

end TableKeyConstraint

variable {R : Type}

/-- The texts of a catalog, with what the JSON library writes and reads. -/
def glueTexts (write : JsonValue R → Bytes) (parse : Bytes → JsonValue R) (set : UnorderedSet)
    (alreadyExists entityNotFound : String) : GlueTexts where
  writeConstraints constraints := write (.array (constraints.map TableKeyConstraint.toJson))
  readConstraints text := (parse text).asArray.mapM (TableKeyConstraint.fromJson set)
  writeReference r := write r.toJson
  readReference text := ObjectReference.fromJson (parse text)
  alreadyExists := alreadyExists
  entityNotFound := entityNotFound

/-! ### Schemas -/

namespace TableSchema

/-- The schemas that the constructor and `AddKeyConstraint` build. -/
inductive Built : TableSchema → Prop
  | make {columnDefinitions tableSchema} : make columnDefinitions = .ok tableSchema →
      Built tableSchema
  | addKeyConstraint {tableSchema constraint tableSchema'} : Built tableSchema →
      tableSchema.addKeyConstraint constraint = .ok tableSchema' → Built tableSchema'

/-- Two schemas with the same columns and the same constraints. -/
structure Same (s t : TableSchema) : Prop where
  columnDefinitions : s.columnDefinitions = t.columnDefinitions
  keyConstraints : List.Forall₂ TableKeyConstraint.Same s.keyConstraints t.keyConstraints

variable {s s' t : TableSchema} {c d : TableKeyConstraint}

lemma make_eq_ok_iff {columnDefinitions : List TableColumnDefinition} :
    make columnDefinitions = .ok s ↔ columnDefinitions ≠ [] ∧ s = ⟨columnDefinitions, []⟩ := by
  cases columnDefinitions with
  | nil =>
    constructor
    · intro h
      cases h
    · exact fun h => absurd rfl h.1
  | cons column columns =>
    refine ⟨fun h => ⟨List.cons_ne_nil _ _, (Except.ok.inj h).symm⟩, ?_⟩
    rintro ⟨-, rfl⟩
    rfl

lemma addKeyConstraint_eq_ok_iff : s.addKeyConstraint c = .ok s' ↔
    (∀ columnId ∈ c.columnIds, s.checkColumn c.keyType columnId = .ok ()) ∧
      (∀ existing ∈ s.keyConstraints, checkConstraint c existing = .ok ()) ∧
        s' = { s with keyConstraints := s.keyConstraints ++ [c] } := by
  rw [addKeyConstraint, ← forM_eq_ok_iff, ← forM_eq_ok_iff]
  constructor
  · intro h
    obtain ⟨⟨⟩, hcolumns, h⟩ := exists_of_bind_eq_ok h
    obtain ⟨⟨⟩, hconstraints, h⟩ := exists_of_bind_eq_ok h
    exact ⟨hcolumns, hconstraints, (Except.ok.inj h).symm⟩
  · intro ⟨hcolumns, hconstraints, heq⟩
    rw [hcolumns, heq]
    show (s.keyConstraints.forM (checkConstraint c)).bind _ = _
    rw [hconstraints]
    rfl

lemma checkConstraint_congr {existing existing' : TableKeyConstraint} (hc : c.Same d)
    (hexisting : existing.Same existing') :
    checkConstraint c existing = checkConstraint d existing' := by
  have hsame : existing.sameColumns c = existing'.sameColumns d := by
    rw [Bool.eq_iff_iff]
    simp only [TableKeyConstraint.sameColumns, Bool.and_eq_true, List.all_eq_true,
      decide_eq_true_eq, hc.mem_columnIds, hexisting.mem_columnIds]
  rw [checkConstraint, checkConstraint, hc.keyType, hexisting.keyType, hsame]

/-- A constraint can be added to a schema if the same constraint was added to the same schema. -/
lemma Same.addKeyConstraint (h : s.Same t) (hc : c.Same d) (hs : s.addKeyConstraint c = .ok s') :
    ∃ t', t.addKeyConstraint d = .ok t' ∧ s'.Same t' := by
  obtain ⟨hcolumns, hconstraints, rfl⟩ := addKeyConstraint_eq_ok_iff.mp hs
  refine ⟨_, addKeyConstraint_eq_ok_iff.mpr ⟨fun columnId hid => ?_, fun existing hmem => ?_, rfl⟩,
    h.columnDefinitions, List.rel_append h.keyConstraints (.cons hc .nil)⟩
  · rw [← hcolumns columnId ((hc.mem_columnIds columnId).mpr hid), checkColumn, checkColumn,
      h.columnDefinitions, hc.keyType]
  · obtain ⟨existing', hmem', hexisting⟩ := List.Forall₂.exists_of_mem h.keyConstraints.flip hmem
    rw [← hconstraints existing' hmem']
    exact (checkConstraint_congr hc hexisting).symm

/-- The constraints of a schema that was built can be added to its columns again. -/
lemma Built.exists_foldlM (reread : TableKeyConstraint → TableKeyConstraint)
    (hreread : ∀ c : TableKeyConstraint, c.Same (reread c)) (h : s.Built) :
    ∃ empty t, TableSchema.make s.columnDefinitions = .ok empty ∧
      (s.keyConstraints.map reread).foldlM TableSchema.addKeyConstraint empty = .ok t ∧
        s.Same t := by
  induction h with
  | make hmake =>
    obtain ⟨hne, rfl⟩ := make_eq_ok_iff.mp hmake
    exact ⟨_, _, hmake, rfl, rfl, .nil⟩
  | @addKeyConstraint s c s' _ hadd ih =>
    obtain ⟨empty, t, hmake, hfold, hsame⟩ := ih
    obtain ⟨t', hadd', hsame'⟩ := hsame.addKeyConstraint (hreread c) hadd
    obtain ⟨-, -, rfl⟩ := addKeyConstraint_eq_ok_iff.mp hadd
    refine ⟨empty, t', hmake, ?_, hsame'⟩
    rw [List.map_append, List.foldlM_append, hfold]
    show (TableSchema.addKeyConstraint t (reread c)).bind _ = _
    rw [hadd']
    rfl

end TableSchema

/-! ### Locations -/

namespace ObjectReference

/-- Whether a reference is what its URI says. -/
def IsUri (r : ObjectReference) : Prop :=
  (∀ b ∈ r.bucketName, isBucketByte b) ∧ 10 ∉ r.identifier ∧ 13 ∉ r.identifier ∧ r.etag = [] ∧
    r.partitions = none

/-- What is read from a URI. -/
lemma ofS3Uri_eq_ok {r r' : ObjectReference} (h : ofS3Uri r.s3Uri = .ok r') : r'.IsUri := by
  rw [ofS3Uri] at h
  split at h
  · dsimp only at h
    split at h
    · split at h
      · next hmatch =>
        obtain rfl := Except.ok.inj h
        exact ⟨fun b hb => List.mem_takeWhile_imp hb, hmatch.2.1, hmatch.2.2, rfl, rfl⟩
      · cases h
    · cases h
  · cases h

lemma ofS3Uri_s3Uri {r : ObjectReference} (hbucket : r.bucketName ≠ []) (h : r.IsUri) :
    ofS3Uri r.s3Uri = .ok r := by
  obtain ⟨hall, hline, hreturn, hetag, hpartitions⟩ := h
  have huri : r.s3Uri = ("s3://" : Bytes) ++ (r.bucketName ++ 47 :: r.identifier) := by
    rw [s3Uri, List.append_assoc, List.append_assoc]
    rfl
  have hpre : ("s3://" : Bytes).isPrefixOf r.s3Uri := by
    rw [huri, List.isPrefixOf_iff_prefix]
    exact List.prefix_append _ _
  have hdrop : r.s3Uri.drop 5 = r.bucketName ++ 47 :: r.identifier := by
    rw [huri]
    rfl
  have hslash : isBucketByte 47 = false := by decide
  have htake : (r.s3Uri.drop 5).takeWhile isBucketByte = r.bucketName := by
    rw [hdrop, List.takeWhile_append_of_pos hall, List.takeWhile_cons, hslash]
    simp
  have hrest : (r.s3Uri.drop 5).dropWhile isBucketByte = 47 :: r.identifier := by
    rw [hdrop, List.dropWhile_append_of_pos hall, List.dropWhile_cons, hslash]
    simp
  rw [ofS3Uri, if_pos hpre]
  simp only [htake, hrest, hbucket, ne_eq, not_false_eq_true, hline, hreturn, and_self, if_true]
  rw [← hetag, ← hpartitions]

end ObjectReference

/-! ### Tables -/

namespace GlueCatalog

lemma exists_deriveGlueDataType {dataType : DataType} (h : dataType ≠ .null) :
    ∃ type, deriveGlueDataType dataType = .ok type ∧ deriveDataType type = .ok dataType := by
  cases dataType with
  | null => exact absurd rfl h
  | _ => exact ⟨_, rfl, by decide⟩

variable {write : JsonValue R → Bytes} {parse : Bytes → JsonValue R} {set : UnorderedSet}
  {alreadyExists entityNotFound : String} {texts : GlueTexts}

variable (texts) in
/-- The new table of a schema, and what is read of its columns. -/
lemma exists_newTable (tableName : Bytes) {tableSchema : TableSchema} (location : ObjectReference)
    (htypes : ∀ column ∈ tableSchema.columnDefinitions, column.dataType ≠ .null) :
    ∃ table, newTable texts tableName tableSchema location = .ok table ∧ table.name = tableName ∧
      table.columns.mapM columnDefinition = .ok tableSchema.columnDefinitions ∧
      table.location = location.s3Uri ∧
      table.parameters = if tableSchema.keyConstraints.isEmpty then []
        else [(kKeyConstraintRootKey, texts.writeConstraints tableSchema.keyConstraints)] := by
  obtain ⟨columns, hcolumns, hread⟩ := exists_mapM_eq_ok
    (f := fun column : TableColumnDefinition => do
      let type ← deriveGlueDataType column.dataType
      pure (⟨column.name, type, [(kNullableKey, if column.nullable then "1" else "0")]⟩ :
        GlueColumn))
    (P := fun definition column => columnDefinition column = .ok definition)
    tableSchema.columnDefinitions fun definition hmem => by
      obtain ⟨type, htype, hback⟩ := exists_deriveGlueDataType (htypes definition hmem)
      refine ⟨_, congrArg (· >>= _) htype, ?_⟩
      rw [columnDefinition, List.lookup_cons_self, hback]
      cases definition with
      | mk name dataType nullable => cases nullable <;> rfl
  refine ⟨_, congrArg (· >>= _) hcolumns, rfl, mapM_eq_ok_iff.mpr hread.flip, rfl, rfl⟩

/-- The JSON texts of the key constraints of a schema. -/
def constraintsJson (tableSchema : TableSchema) : JsonValue R :=
  .array (tableSchema.keyConstraints.map TableKeyConstraint.toJson)

variable (set alreadyExists entityNotFound) in
/-- The schema that is read of a new table. -/
lemma exists_tableSchemaFromGlueTable {tableSchema : TableSchema} {columns : List GlueColumn}
    {parameters : List (String × Bytes)} (hbuilt : tableSchema.Built)
    (hcolumns : columns.mapM columnDefinition = .ok tableSchema.columnDefinitions)
    (hjson : parse (write (constraintsJson tableSchema)) = constraintsJson tableSchema)
    (hparameters : parameters = if tableSchema.keyConstraints.isEmpty then []
      else [(kKeyConstraintRootKey, write (constraintsJson tableSchema))]) :
    ∃ read, tableSchema.Same read ∧ tableSchemaFromGlueTable
      (glueTexts write parse set alreadyExists entityNotFound) columns
      (parameters.lookup kKeyConstraintRootKey) = .ok read := by
  obtain ⟨empty, read, hmake, hfold, hsame⟩ := hbuilt.exists_foldlM
    (fun c => ⟨set.ofVector c.columnIds, c.keyType⟩)
    fun c => ⟨rfl, fun columnId => (set.mem_ofVector c.columnIds columnId).symm⟩
  refine ⟨read, hsame, ?_⟩
  rw [tableSchemaFromGlueTable, hcolumns, hparameters]
  show (TableSchema.make tableSchema.columnDefinitions).bind _ = _
  rw [hmake]
  cases hconstraints : tableSchema.keyConstraints with
  | nil =>
    rw [hconstraints] at hfold
    exact hfold
  | cons c cs =>
    have hread : (parse (write (constraintsJson tableSchema))).asArray.mapM
        (TableKeyConstraint.fromJson set) =
          .ok (tableSchema.keyConstraints.map fun c => ⟨set.ofVector c.columnIds, c.keyType⟩) := by
      rw [hjson, constraintsJson, asArray, mapM_eq_ok_iff, List.forall₂_map_left_iff,
        List.forall₂_map_right_iff, List.forall₂_same]
      exact fun c _ => TableKeyConstraint.fromJson_toJson set c
    rw [List.isEmpty_cons, if_neg Bool.false_ne_true, List.lookup_cons_self]
    show ((parse (write (constraintsJson tableSchema))).asArray.mapM
      (TableKeyConstraint.fromJson set)).bind _ = _
    rw [hread]
    exact hfold

/-- The location that is read of a table, if its schema can be read and it has no manifest. -/
lemma exists_toTableMetadata_iff {t : GlueTable} {tableSchema read : TableSchema}
    {location : ObjectReference} (hsame : tableSchema.Same read)
    (hread : tableSchemaFromGlueTable texts t.columns
      (t.parameters.lookup kKeyConstraintRootKey) = .ok read)
    (huri : t.location = location.s3Uri) (hmanifest : t.parameters.lookup kManifestRootKey = none)
    (hbucket : location.bucketName ≠ []) :
    (∃ table, toTableMetadata texts t = .ok table ∧ tableSchema.Same table.tableSchema ∧
      table.location = location) ↔ location.IsUri := by
  rw [toTableMetadata, hread, huri, hmanifest]
  constructor
  · rintro ⟨table, htable, -, rfl⟩
    obtain ⟨_, -, htable⟩ := exists_of_bind_eq_ok htable
    obtain ⟨location, hlocation, htable⟩ := exists_of_bind_eq_ok htable
    obtain rfl := Except.ok.inj htable
    exact ObjectReference.ofS3Uri_eq_ok hlocation
  · intro h
    refine ⟨⟨t.name, read, location, none⟩, ?_, hsame, rfl⟩
    show (ObjectReference.ofS3Uri location.s3Uri).bind _ = _
    rw [ObjectReference.ofS3Uri_s3Uri hbucket h]
    rfl

/-- **A table that is added to the catalog under a new name is read back with its schema and its
location if and only if its location is what its URI says**: the bucket has no character but
letters, digits, `_` and `-`, the identifier has no line break, and the reference has no tag and no
partitions. -/
theorem loadTableMetadata_addTableMetadata (write : JsonValue R → Bytes) (parse : Bytes → JsonValue R)
    (set : UnorderedSet) (alreadyExists entityNotFound : String) (texts : GlueTexts)
    (htexts : texts = glueTexts write parse set alreadyExists entityNotFound)
    (operations : List Operation) (hreadable : ∀ operation ∈ operations, operation.Readable texts)
    (glue : GlueService) (s : GlueCatalog) (hs : s = (run texts operations glue).1)
    (tableName : Bytes) (hnew : s.glue.getTable tableName = none)
    (tableSchema : TableSchema) (hbuilt : tableSchema.Built)
    (htypes : ∀ column ∈ tableSchema.columnDefinitions, column.dataType ≠ .null)
    (hjson : parse (write (constraintsJson tableSchema)) = constraintsJson tableSchema)
    (location : ObjectReference) (hbucket : location.bucketName ≠ []) :
    ∃ s', s.step texts (.addTableMetadata tableName tableSchema location) = (.ok .done, s') ∧
      ((∃ table, (s'.loadTableMetadata texts tableName).1 = .ok table ∧
          tableSchema.Same table.tableSchema ∧ table.location = location) ↔
        (∀ b ∈ location.bucketName, isBucketByte b) ∧ 10 ∉ location.identifier ∧
          13 ∉ location.identifier ∧ location.etag = [] ∧ location.partitions = none) := by
  subst htexts
  obtain ⟨table, htable, rfl, hcolumns, huri, hparameters⟩ := exists_newTable
    (glueTexts write parse set alreadyExists entityNotFound) tableName location htypes
  obtain ⟨glue', hcreate⟩ := GlueService.exists_createTable hnew
  refine ⟨{ s with glue := glue' }, ?_, ?_⟩
  · rw [step, htable]
    dsimp only
    rw [hcreate]
  -- nothing is stored of a table that does not exist
  have hcache : s.cache (toLowerCase table.name) = none := by
    cases hcache : s.cache (toLowerCase table.name) with
    | none => rfl
    | some m =>
      have hinv := inv_run hreadable glue
      rw [← hs] at hinv
      obtain ⟨t, ht⟩ := hinv.getTable_of_cached hcache
      rw [GlueService.getTable_toLowerCase, hnew] at ht
      cases ht
  have hget := GlueService.getTable_createTable (n := toLowerCase table.name) hcreate
  rw [toLowerCase_toLowerCase, if_pos rfl] at hget
  obtain ⟨read, hsame, hread⟩ := exists_tableSchemaFromGlueTable set alreadyExists entityNotFound
    hbuilt hcolumns hjson hparameters
  have hmanifest : table.parameters.lookup kManifestRootKey = none := by
    rw [hparameters]
    cases tableSchema.keyConstraints <;> rfl
  rw [(loadTableMetadata_spec _ _ table.name).1, hcache]
  show (∃ table', held _ glue' _ = .ok table' ∧ _) ↔ location.IsUri
  rw [held_of_getTable hget]
  exact exists_toTableMetadata_iff hsame hread huri hmanifest hbucket

/-- A schema with a primary key. -/
def keySchema : TableSchema := ⟨[⟨"id", .long, false⟩], [⟨[0], .primaryKey⟩]⟩

/-- The text of its constraints. -/
def keyText : Bytes := "[\x7b\"type\":\"kPrimaryKey\",\"columnIds\":[0]\x7d]"

/-- The text is written for the constraints. -/
def writeKey (_ : JsonValue Unit) : Bytes := keyText

/-- The constraints are read from the text. -/
def parseKey (text : Bytes) : JsonValue Unit :=
  if text = keyText then constraintsJson keySchema else .empty

/-- The texts of a catalog of tables with that schema. -/
def keyTexts : GlueTexts :=
  glueTexts writeKey parseKey .lastOccurrences "Table already exists." "Table not found."

lemma built_keySchema : keySchema.Built := by
  have hmake : TableSchema.make [⟨"id", .long, false⟩] = .ok ⟨[⟨"id", .long, false⟩], []⟩ := rfl
  have hadd : TableSchema.addKeyConstraint ⟨[⟨"id", .long, false⟩], []⟩ ⟨[0], .primaryKey⟩ =
      .ok keySchema := rfl
  exact .addKeyConstraint (.make hmake) hadd

/-- A table with that schema, in a bucket, is added to an empty catalog. -/
def addOrders (bucketName : Bytes) : Except Exception Response × GlueCatalog :=
  (run keyTexts [] noTables).1.step keyTexts
    (.addTableMetadata "orders" keySchema ⟨bucketName, "orders/", [], none⟩)

/-- A table in a bucket whose name has a hyphen is read back. -/
theorem loadTableMetadata_addTableMetadata_hyphen :
    ∃ s', addOrders "my-bucket" = (.ok .done, s') ∧
      ∃ table, (s'.loadTableMetadata keyTexts "orders").1 = .ok table ∧
        keySchema.Same table.tableSchema ∧ table.location = ⟨"my-bucket", "orders/", [], none⟩ := by
  obtain ⟨s', hstep, hiff⟩ := loadTableMetadata_addTableMetadata writeKey parseKey .lastOccurrences
    "Table already exists." "Table not found." keyTexts rfl [] (by simp) noTables _ rfl "orders" rfl
    keySchema built_keySchema (by decide) (if_pos rfl) ⟨"my-bucket", "orders/", [], none⟩ (by decide)
  exact ⟨s', hstep, hiff.mpr (by decide +kernel)⟩

/-- **A table in a bucket whose name has a dot is added, but nothing can be read of it.** -/
theorem not_loadTableMetadata_dot : (addOrders "my.bucket").1 = .ok .done ∧
    ∀ table, ((addOrders "my.bucket").2.loadTableMetadata keyTexts "orders").1 ≠ .ok table := by
  refine ⟨rfl, fun table htable => ?_⟩
  have hfail : ((addOrders "my.bucket").2.loadTableMetadata keyTexts "orders").1.isOk = false := by
    decide +kernel
  rw [htable] at hfail
  cases hfail

end GlueCatalog

end Skyrise

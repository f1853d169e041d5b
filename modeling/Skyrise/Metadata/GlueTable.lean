/-
Tables of the Glue service.

The service is a map from lower-case names to tables.  A table has columns, which
name their type and whether they are nullable, the place of its data, and
parameters, in which key constraints and a manifest are stored as texts.
`toTableMetadata` reads what the catalog uses of a table.
-/
import Skyrise.Compiler.ObjectReference
import Skyrise.Storage.Table

namespace Skyrise

/-- `KeyConstraintType`. -/
inductive KeyConstraintType where
  | primaryKey
  | unique
deriving DecidableEq, Repr

/-- `TableKeyConstraint`. -/
structure TableKeyConstraint where
  columnIds : List UInt32
  keyType : KeyConstraintType
deriving DecidableEq, Repr

/-- Whether two constraints are for the same set of columns. -/
def TableKeyConstraint.sameColumns (c d : TableKeyConstraint) : Bool :=
  c.columnIds.all (· ∈ d.columnIds) && d.columnIds.all (· ∈ c.columnIds)

/-- `TableSchema`. -/
structure TableSchema where
  columnDefinitions : List TableColumnDefinition
  keyConstraints : List TableKeyConstraint
deriving DecidableEq, Repr

namespace TableSchema

/-- The constructor. -/
def make (columnDefinitions : List TableColumnDefinition) : Except Exception TableSchema := do
  assert (!columnDefinitions.isEmpty) "At least one column definition is required."
  return ⟨columnDefinitions, []⟩

/-- `AddKeyConstraint`: the checks of a column. -/
def checkColumn (tableSchema : TableSchema) (keyType : KeyConstraintType) (columnId : UInt32) :
    Except Exception Unit :=
  match tableSchema.columnDefinitions[columnId.toNat]? with
  | none => .error (.assertionFailed "ColumnId out of range.")
  | some column =>
    assert (!(keyType == .primaryKey && column.nullable))
      "Column must be non-nullable to comply with PRIMARY KEY."

/-- `AddKeyConstraint`: the checks against a constraint that is there. -/
def checkConstraint (constraint existing : TableKeyConstraint) : Except Exception Unit := do
  assert (existing.keyType == .unique || constraint.keyType == .unique)
    "Another primary key already exists for this table."
  assert (!existing.sameColumns constraint)
    "Another key constraint for the same column set has already been defined."

/-- `AddKeyConstraint`. -/
def addKeyConstraint (tableSchema : TableSchema) (constraint : TableKeyConstraint) :
    Except Exception TableSchema := do
  constraint.columnIds.forM (tableSchema.checkColumn constraint.keyType)
  tableSchema.keyConstraints.forM (checkConstraint constraint)
  return { tableSchema with keyConstraints := tableSchema.keyConstraints ++ [constraint] }

end TableSchema

/-- A column of a table of the service. -/
structure GlueColumn where
  name : String
  type : String
  parameters : List (String × String)
deriving DecidableEq, Repr

/-- A table of the service. -/
structure GlueTable where
  name : Bytes
  columns : List GlueColumn
  location : Bytes
  parameters : List (String × Bytes)
deriving DecidableEq, Repr

/-- What the catalog stores of a table. -/
structure TableMetadata where
  tableName : Bytes
  tableSchema : TableSchema
  location : ObjectReference
  manifest : Option ObjectReference
deriving DecidableEq

/-- `std::tolower`. -/
def toLowerByte (b : UInt8) : UInt8 := if 65 ≤ b ∧ b ≤ 90 then b + 32 else b

/-- `ToLowerCase`. -/
def toLowerCase (s : Bytes) : Bytes := s.map toLowerByte

lemma toLowerByte_toLowerByte (b : UInt8) : toLowerByte (toLowerByte b) = toLowerByte b := by
  by_cases h : 65 ≤ b ∧ b ≤ 90
  · have hupper : ¬ (65 ≤ b + 32 ∧ b + 32 ≤ 90) := by
      obtain ⟨h₁, h₂⟩ := h
      rw [UInt8.le_iff_toNat_le] at h₁ h₂
      rintro ⟨-, h₃⟩
      rw [UInt8.le_iff_toNat_le, UInt8.toNat_add] at h₃
      simp at h₁ h₂ h₃
      omega
    simp only [toLowerByte, h, and_self, if_true, hupper, if_false]
  · simp only [toLowerByte, h, if_false]

@[simp] lemma toLowerCase_toLowerCase (s : Bytes) : toLowerCase (toLowerCase s) = toLowerCase s := by
  rw [toLowerCase, toLowerCase, List.map_map]
  exact List.map_congr_left fun b _ => toLowerByte_toLowerByte b

/-! ### The service -/

/-- The tables of a database: their names are lower-case, and no two tables have the same one. -/
structure GlueService where
  tables : List GlueTable
  lowerCase : ∀ t ∈ tables, toLowerCase t.name = t.name
  nodup : (tables.map GlueTable.name).Nodup

namespace GlueService

/-- `GetTable`.  Names are folded to lower case by the service. -/
def getTable (glue : GlueService) (name : Bytes) : Option GlueTable :=
  glue.tables.find? fun t => t.name = toLowerCase name

/-- `CreateTable`, which fails if there is a table of the name. -/
def createTable (glue : GlueService) (table : GlueTable) : Option GlueService :=
  if h : ∃ t ∈ glue.tables, t.name = toLowerCase table.name then none
  else some {
    tables := glue.tables ++ [{ table with name := toLowerCase table.name }]
    lowerCase := by
      intro t ht
      rcases List.mem_append.mp ht with ht | ht
      · exact glue.lowerCase t ht
      · rw [List.mem_singleton.mp ht]
        exact toLowerCase_toLowerCase _
    nodup := by
      rw [List.map_append, List.nodup_append]
      refine ⟨glue.nodup, List.nodup_singleton _, ?_⟩
      intro name hname name' hname' heq
      obtain ⟨t, ht, rfl⟩ := List.mem_map.mp hname
      rw [List.mem_singleton.mp hname'] at heq
      exact h ⟨t, ht, heq⟩ }

/-- `DeleteTable`, which fails if there is no table of the name. -/
def deleteTable (glue : GlueService) (name : Bytes) : Option GlueService :=
  if (glue.getTable name).isSome then
    some {
      tables := glue.tables.filter fun t => t.name ≠ toLowerCase name
      lowerCase := fun t ht => glue.lowerCase t (List.mem_of_mem_filter ht)
      nodup := glue.nodup.sublist (List.filter_sublist.map _) }
  else none

/-- A table with other parameters, if it has the name. -/
def setParameters (name : Bytes) (parameters : List (String × Bytes)) (t : GlueTable) : GlueTable :=
  if t.name = name then { t with parameters := parameters } else t

lemma name_setParameters (name : Bytes) (parameters : List (String × Bytes)) (t : GlueTable) :
    (setParameters name parameters t).name = t.name := by
  rw [setParameters]
  split <;> rfl

/-- `UpdateTable` of the parameters of a table. -/
def updateParameters (glue : GlueService) (name : Bytes) (parameters : List (String × Bytes)) :
    GlueService where
  tables := glue.tables.map (setParameters name parameters)
  lowerCase := by
    intro t ht
    obtain ⟨t', ht', rfl⟩ := List.mem_map.mp ht
    rw [name_setParameters]
    exact glue.lowerCase t' ht'
  nodup := by
    rw [List.map_map, Function.comp_def]
    simp only [name_setParameters]
    exact glue.nodup

variable {glue : GlueService} {name n : Bytes} {t : GlueTable}

lemma getTable_toLowerCase (glue : GlueService) (name : Bytes) :
    glue.getTable (toLowerCase name) = glue.getTable name := by
  rw [getTable, getTable, toLowerCase_toLowerCase]

lemma getTable_eq_some_iff :
    glue.getTable name = some t ↔ t ∈ glue.tables ∧ t.name = toLowerCase name := by
  constructor
  · intro h
    exact ⟨List.mem_of_find?_eq_some h, by simpa using List.find?_some h⟩
  · rintro ⟨hmem, hname⟩
    rw [getTable, List.find?_eq_some_iff_append]
    obtain ⟨before, after, hsplit⟩ := List.append_of_mem hmem
    refine ⟨by simpa using hname, before, after, hsplit, fun t' ht' => ?_⟩
    have hnodup := glue.nodup
    rw [hsplit, List.map_append, List.nodup_append] at hnodup
    have hne := hnodup.2.2 t'.name (List.mem_map_of_mem ht') t.name (by simp)
    simpa [← hname] using hne

lemma getTable_eq_none_iff :
    glue.getTable name = none ↔ ∀ t ∈ glue.tables, t.name ≠ toLowerCase name := by
  simp [getTable]

/-- A new table is found by its name, other tables as before. -/
lemma getTable_createTable {glue' : GlueService} (h : glue.createTable t = some glue') :
    glue'.getTable n = if toLowerCase n = toLowerCase t.name then
      some { t with name := toLowerCase t.name } else glue.getTable n := by
  rw [createTable] at h
  split at h
  · cases h
  · next hnew =>
    obtain rfl := Option.some.inj h
    rw [getTable, List.find?_append]
    split
    · next heq =>
      have hnone : glue.tables.find? (fun t => t.name = toLowerCase n) = none := by
        rw [heq]
        simpa using hnew
      rw [hnone]
      simp [heq]
    · next hne =>
      rw [getTable]
      have hlast : [{ t with name := toLowerCase t.name }].find?
          (fun t => t.name = toLowerCase n) = none := by
        simpa using fun h => hne h.symm
      rw [hlast, Option.or_none]

/-- A table can be created if there is none of its name. -/
lemma exists_createTable (h : glue.getTable t.name = none) :
    ∃ glue', glue.createTable t = some glue' := by
  rw [getTable_eq_none_iff] at h
  rw [createTable, dif_neg]
  · exact ⟨_, rfl⟩
  · rintro ⟨t', ht', heq⟩
    exact h t' ht' heq

lemma getTable_eq_none_of_createTable {glue' : GlueService} (h : glue.createTable t = some glue') :
    glue.getTable t.name = none := by
  rw [createTable] at h
  split at h
  · cases h
  · next hnew =>
    rw [getTable_eq_none_iff]
    exact fun t' ht' heq => hnew ⟨t', ht', heq⟩

lemma getTable_eq_none_of_deleteTable (h : glue.deleteTable name = none) :
    glue.getTable name = none := by
  rw [deleteTable] at h
  split at h
  · cases h
  · next hnone => exact Option.not_isSome_iff_eq_none.mp hnone

/-- A deleted table is not found any more, other tables as before. -/
lemma getTable_deleteTable {glue' : GlueService} (h : glue.deleteTable name = some glue') :
    glue'.getTable n =
      if toLowerCase n = toLowerCase name then none else glue.getTable n := by
  rw [deleteTable] at h
  split at h
  · obtain rfl := Option.some.inj h
    rw [getTable, List.find?_filter]
    split
    · next heq =>
      refine List.find?_eq_none.mpr fun t _ => ?_
      simp [heq]
    · next hne =>
      rw [getTable]
      congr 1
      funext t
      by_cases ht : t.name = toLowerCase n
      · simp [ht, hne]
      · simp [ht]
  · cases h

variable (glue) (name n) in
/-- Only the parameters of the table of the name change. -/
lemma getTable_updateParameters (parameters : List (String × Bytes)) :
    (glue.updateParameters name parameters).getTable n =
      (glue.getTable n).map (setParameters name parameters) := by
  rw [getTable, updateParameters, List.find?_map, getTable]
  congr 2
  funext t
  simp [name_setParameters]

end GlueService

end Skyrise

/-
Definitions of pipeline fragments.

A definition maps the identity of every import to the objects that it reads, and
names the object to be written.  `ToJson` writes the bucket, the first part of the
identifiers and the partitions of the first object of an identity once for all of
its objects, and `FromJson` puts the identifiers together again.
-/
import Mathlib.Data.Rat.Init
import Skyrise.Compiler.ObjectReference

namespace Skyrise

open JsonValue Bytes

/-- A map from identities to the objects of each. -/
structure IdentityMap where
  /-- The entries. -/
  entries : List (Bytes × List ObjectReference)
  nodup : (entries.map Prod.fst).Nodup

namespace IdentityMap

/-- The map without entries. -/
def empty : IdentityMap := ⟨[], List.nodup_nil⟩

/-- The objects of an identity. -/
def find (m : IdentityMap) (identity : Bytes) : Option (List ObjectReference) :=
  (m.entries.find? fun entry => entry.1 = identity).map Prod.snd

/-- One more object in a list of entries. -/
def emplace (entries : List (Bytes × List ObjectReference)) (identity : Bytes)
    (r : ObjectReference) : List (Bytes × List ObjectReference) :=
  match entries with
  | [] => [(identity, [r])]
  | entry :: entries =>
    if entry.1 = identity then (entry.1, entry.2 ++ [r]) :: entries
    else entry :: emplace entries identity r

lemma mem_keys_emplace {entries : List (Bytes × List ObjectReference)} {identity key : Bytes}
    {r : ObjectReference} : key ∈ (emplace entries identity r).map Prod.fst ↔
      key = identity ∨ key ∈ entries.map Prod.fst := by
  induction entries with
  | nil => simp [emplace]
  | cons entry entries ih =>
    rw [emplace]
    split
    · next heq =>
      subst heq
      simp
    · rw [List.map_cons, List.mem_cons, ih, List.map_cons, List.mem_cons]
      exact or_left_comm

lemma emplace_nodup {entries : List (Bytes × List ObjectReference)} {identity : Bytes}
    {r : ObjectReference} (h : (entries.map Prod.fst).Nodup) :
    ((emplace entries identity r).map Prod.fst).Nodup := by
  induction entries with
  | nil => simp [emplace]
  | cons entry entries ih =>
    rw [List.map_cons, List.nodup_cons] at h
    rw [emplace]
    split
    · exact List.nodup_cons.mpr h
    · next hne =>
      rw [List.map_cons, List.nodup_cons, mem_keys_emplace]
      exact ⟨fun hmem => hmem.elim hne h.1, ih h.2⟩

/-- `emplace_back` of an object to the list of an identity. -/
def emplaceBack (m : IdentityMap) (identity : Bytes) (r : ObjectReference) : IdentityMap :=
  ⟨emplace m.entries identity r, emplace_nodup m.nodup⟩

@[simp] lemma find_empty {identity : Bytes} : empty.find identity = none := rfl

@[simp] lemma find_emplaceBack {m : IdentityMap} {identity key : Bytes} {r : ObjectReference} :
    (m.emplaceBack identity r).find key =
      if identity = key then some ((m.find identity).getD [] ++ [r]) else m.find key := by
  obtain ⟨entries, nodup⟩ := m
  simp only [find, emplaceBack]
  clear nodup
  induction entries with
  | nil =>
    by_cases h : identity = key
    · simp [emplace, h]
    · simp [emplace, h]
  | cons entry entries ih =>
    rw [emplace]
    by_cases hentry : entry.1 = identity
    · rw [if_pos hentry]
      by_cases h : identity = key
      · subst h
        simp [hentry]
      · have hne : ¬ entry.1 = key := fun heq => h (hentry.symm.trans heq)
        simp [hne, h]
    · rw [if_neg hentry]
      by_cases hkey : entry.1 = key
      · have hne : ¬ identity = key := fun heq => hentry (hkey.trans heq.symm)
        simp [hkey, hne]
      · simp only [List.find?_cons, hkey, hentry, decide_false, ih]

lemma mem_entries_iff {m : IdentityMap} {entry : Bytes × List ObjectReference} :
    entry ∈ m.entries ↔ m.find entry.1 = some entry.2 := by
  obtain ⟨entries, nodup⟩ := m
  obtain ⟨key, objects⟩ := entry
  simp only [find]
  induction entries with
  | nil => simp
  | cons entry entries ih =>
    rw [List.map_cons, List.nodup_cons] at nodup
    rw [List.mem_cons]
    by_cases hkey : entry.1 = key
    · subst hkey
      have hnot : (entry.1, objects) ∉ entries := fun hmem =>
        nodup.1 (List.mem_map.mpr ⟨_, hmem, rfl⟩)
      rw [or_iff_left hnot]
      obtain ⟨k, objects'⟩ := entry
      simp [eq_comm]
    · have hne : (key, objects) ≠ entry := fun heq => hkey (heq ▸ rfl)
      simp only [List.find?_cons, hkey, decide_false, or_iff_right hne]
      exact ih nodup.2

end IdentityMap

/-- A definition of a pipeline fragment. -/
structure PipelineFragmentDefinition where
  /-- The objects that the import with an identity reads. -/
  identityToObjects : IdentityMap
  /-- The object that is written. -/
  targetObject : ObjectReference
  /-- The format in which it is written. -/
  targetFormat : FileFormat

namespace PipelineFragmentDefinition

variable {R : Type}

/-- `operator==`. -/
def Equals (d d' : PipelineFragmentDefinition) : Prop :=
  d.targetFormat = d'.targetFormat ∧ d.targetObject = d'.targetObject ∧
    ∀ identity, d.identityToObjects.find identity = d'.identityToObjects.find identity

/-- The byte `/`. -/
def separator : UInt8 := 47

/-- The part of an identifier before the second-to-last separator. -/
def sourcePrefix (identifier : Bytes) : Bytes :=
  before (findSecondLastOf separator identifier) identifier

/-- The part of an identifier after the second-to-last separator. -/
def sourceSuffix (identifier : Bytes) : Bytes :=
  after (findSecondLastOf separator identifier) identifier

/-- What `ToJson` keeps of the first object of an identity. -/
structure Common where
  bucket : Bytes := []
  commonPrefix : Bytes := []
  partitions : Option (List Int32) := none

/-- What is kept after the objects of an identity. -/
def Common.update (common : Common) (objects : List ObjectReference) : Common :=
  match objects.head? with
  | some r => ⟨r.bucketName, sourcePrefix r.identifier, r.partitions⟩
  | none => common

/-- The objects of an identity as JSON. -/
def inputToJson (common : Common) (objects : List ObjectReference) : JsonValue R :=
  let objectsArray := objects.map fun r =>
    (JsonValue.empty.withString "source_suffix" (sourceSuffix r.identifier)).withString "etag" r.etag
  ObjectReference.partitionsToJson
    (((JsonValue.empty.withArray "objects" objectsArray).withString "source_bucket"
      common.bucket).withString "source_prefix" common.commonPrefix)
    "source_partitions" common.partitions

/-- The loop of `ToJson` over the identities. -/
def inputsToJson (entries : List (Bytes × List ObjectReference)) : JsonValue R :=
  (entries.foldl (fun (state : Common × JsonValue R) entry =>
    let common := state.1.update entry.2
    (common, state.2.withObject entry.1 (inputToJson common entry.2))) ({}, JsonValue.empty)).2

/-- `ToJson`. -/
def toJson (d : PipelineFragmentDefinition) : JsonValue R :=
  ((JsonValue.empty.withObject "inputs" (inputsToJson d.identityToObjects.entries)).withObject
    "target_object" d.targetObject.toJson).withString
    "target_format" (MagicEnum.enumName d.targetFormat : Bytes)

/-- An object of an identity from JSON. -/
def objectFromJson (jsonInputs json : JsonValue R) : Except Exception ObjectReference :=
  ObjectReference.make (jsonInputs.getString "source_bucket")
    (jsonInputs.getString "source_prefix" ++ separator :: json.getString "source_suffix")
    (json.getString "etag") (ObjectReference.partitionsFromJson jsonInputs "source_partitions")

/-- The loop of `FromJson` over the objects of an identity. -/
def inputFromJson (m : IdentityMap) (id : Bytes) (jsonInputs : JsonValue R) :
    Except Exception IdentityMap :=
  (jsonInputs.getArray "objects").foldlM (fun m json => do
    let r ← objectFromJson jsonInputs json
    pure (m.emplaceBack id r)) m

/-- `FromJson`. -/
def fromJson (json : JsonValue R) : Except Exception PipelineFragmentDefinition := do
  let identityToObjects ← (json.getObject "inputs").getAllObjects.foldlM
    (fun m member => inputFromJson m member.1 member.2) IdentityMap.empty
  let targetObject ← ObjectReference.fromJson (json.getObject "target_object")
  let targetFormat ← enumValue (json.getString "target_format")
  pure ⟨identityToObjects, targetObject, targetFormat⟩

/-! ### What is read of the objects of an identity -/

section Input

variable {common : Common} {objects : List ObjectReference} {m : IdentityMap} {id key : Bytes}

/-- An object as it is put together again. -/
def Common.assemble (common : Common) (r : ObjectReference) : ObjectReference :=
  ⟨common.bucket, common.commonPrefix ++ separator :: sourceSuffix r.identifier, r.etag,
    common.partitions⟩

lemma objectFromJson_eq (r : ObjectReference) :
    objectFromJson (inputToJson common objects : JsonValue R)
        ((JsonValue.empty.withString "source_suffix" (sourceSuffix r.identifier)).withString
          "etag" r.etag) =
      if common.bucket = [] then
        .error (.assertionFailed "ObjectReference requires a non-empty bucket name.")
      else .ok (common.assemble r) := by
  have hpartitions : ObjectReference.partitionsFromJson (inputToJson common objects : JsonValue R)
      "source_partitions" = common.partitions :=
    ObjectReference.partitionsFromJson_partitionsToJson (by simp)
  have hbucket : (inputToJson common objects : JsonValue R).getString "source_bucket" =
      common.bucket := by
    simp [inputToJson, getString, getObject, asString]
  have hbefore : (inputToJson common objects : JsonValue R).getString "source_prefix" =
      common.commonPrefix := by
    simp [inputToJson, getString, getObject, asString]
  have hidentifier : (common.commonPrefix ++ separator :: sourceSuffix r.identifier).isEmpty =
      false := List.isEmpty_eq_false_iff.mpr (List.append_ne_nil_of_right_ne_nil _ (by simp))
  have hsuffix : ((JsonValue.empty.withString "source_suffix"
      (sourceSuffix r.identifier)).withString "etag" r.etag : JsonValue R).getString
        "source_suffix" = sourceSuffix r.identifier := by
    simp [getString, getObject, asString]
  have hetag : ((JsonValue.empty.withString "source_suffix"
      (sourceSuffix r.identifier)).withString "etag" r.etag : JsonValue R).getString "etag" =
        r.etag := by
    simp [getString, getObject, asString]
  rw [objectFromJson, hpartitions, hbucket, hbefore, hsuffix, hetag, ObjectReference.make,
    hidentifier]
  cases hempty : common.bucket <;>
    simp [Common.assemble, hempty, bind, Except.bind, pure, Except.pure]

lemma getArray_inputToJson : (inputToJson common objects : JsonValue R).getArray "objects" =
    objects.map fun r => (JsonValue.empty.withString "source_suffix"
      (sourceSuffix r.identifier)).withString "etag" r.etag := by
  simp [inputToJson, getArray, getObject, asArray]

/-- With a bucket the objects of an identity are put together and stored. -/
lemma inputFromJson_eq_ok (hbucket : objects ≠ [] → common.bucket ≠ []) :
    ∃ m', inputFromJson m id (inputToJson common objects : JsonValue R) = .ok m' ∧
      ∀ key, m'.find key = if id = key ∧ objects ≠ [] then
        some ((m.find id).getD [] ++ objects.map common.assemble) else m.find key := by
  rw [inputFromJson, getArray_inputToJson]
  -- the array is that of all objects, the loop runs over those that are left
  suffices hloop : ∀ (left : List ObjectReference) (m : IdentityMap),
      (left ≠ [] → common.bucket ≠ []) → ∃ m',
      (left.map fun r : ObjectReference => (JsonValue.empty.withString "source_suffix"
        (sourceSuffix r.identifier)).withString "etag" r.etag).foldlM (fun m json => do
          let r ← objectFromJson (inputToJson common objects : JsonValue R) json
          pure (m.emplaceBack id r)) m = Except.ok m' ∧
      ∀ key, m'.find key = if id = key ∧ left ≠ [] then
        some ((m.find id).getD [] ++ left.map common.assemble) else m.find key by
    exact hloop objects m hbucket
  intro left
  induction left with
  | nil => exact fun m _ => ⟨m, rfl, fun key => by simp⟩
  | cons r left ih =>
    intro m hne
    obtain ⟨m', hm', hfind⟩ := ih (m.emplaceBack id (common.assemble r))
      fun _ => hne (List.cons_ne_nil r left)
    refine ⟨m', ?_, fun key => ?_⟩
    · rw [List.map_cons, List.foldlM_cons, objectFromJson_eq,
        if_neg (hne (List.cons_ne_nil r left))]
      exact hm'
    · rw [hfind, IdentityMap.find_emplaceBack, IdentityMap.find_emplaceBack, if_pos rfl]
      by_cases hkey : id = key
      · cases left <;> simp [hkey]
      · simp [hkey]

/-- Without a bucket they are not. -/
lemma inputFromJson_ne_ok (hobjects : objects ≠ []) (hbucket : common.bucket = [])
    (m' : IdentityMap) : inputFromJson m id (inputToJson common objects : JsonValue R) ≠ .ok m' := by
  rw [inputFromJson, getArray_inputToJson]
  obtain ⟨r, rest, rfl⟩ := List.exists_cons_of_ne_nil hobjects
  rw [List.map_cons, List.foldlM_cons, objectFromJson_eq, if_pos hbucket]
  intro h
  cases h

/-- The loop over the identities. -/
lemma foldlM_inputFromJson {members : List (Bytes × JsonValue R)}
    {content : Bytes → Common × List ObjectReference} (hnodup : (members.map Prod.fst).Nodup)
    (hcontent : ∀ member ∈ members,
      member.2 = inputToJson (content member.1).1 (content member.1).2 ∧
        ((content member.1).2 ≠ [] → (content member.1).1.bucket ≠ []))
    (hnew : ∀ key ∈ members.map Prod.fst, m.find key = none) :
    ∃ m', members.foldlM (fun m member => inputFromJson m member.1 member.2) m = .ok m' ∧
      ∀ key, m'.find key = if key ∈ members.map Prod.fst ∧ (content key).2 ≠ [] then
        some ((content key).2.map (content key).1.assemble) else m.find key := by
  induction members generalizing m with
  | nil => exact ⟨m, rfl, fun key => by simp⟩
  | cons member members ih =>
    obtain ⟨id, json⟩ := member
    rw [List.map_cons, List.nodup_cons] at hnodup
    obtain ⟨hjson, hbucket⟩ := hcontent _ List.mem_cons_self
    have hone : ∃ m', inputFromJson m id (inputToJson (content id).1 (content id).2 :
        JsonValue R) = .ok m' ∧ ∀ key, m'.find key = if id = key ∧ (content id).2 ≠ [] then
          some ((m.find id).getD [] ++ (content id).2.map (content id).1.assemble)
          else m.find key :=
      inputFromJson_eq_ok hbucket
    obtain ⟨m₁, hm₁, hfind₁⟩ := hone
    have hold : ∀ key ∈ members.map Prod.fst, m₁.find key = none := by
      intro key hkey
      have hne : id ≠ key := fun heq => hnodup.1 (heq ▸ hkey)
      rw [hfind₁, if_neg fun h => hne h.1]
      exact hnew key (List.mem_cons_of_mem _ hkey)
    obtain ⟨m₂, hm₂, hfind₂⟩ := ih hnodup.2 (fun member hmem =>
      hcontent member (List.mem_cons_of_mem _ hmem)) hold
    refine ⟨m₂, ?_, fun key => ?_⟩
    · rw [List.foldlM_cons, hjson, hm₁]
      exact hm₂
    · have hid : (m.find id).getD [] = [] := by
        rw [hnew id List.mem_cons_self]
        rfl
      rw [hfind₂, hfind₁, hid, List.nil_append]
      simp only [List.map_cons, List.mem_cons]
      by_cases hkey : id = key
      · subst hkey
        rw [if_neg fun h => hnodup.1 h.1]
        simp
      · have hne : ¬ key = id := fun heq => hkey heq.symm
        simp only [hkey, hne, false_and, false_or, if_false]

end Input

/-! ### Definitions that are read back -/

/-- What is kept of an object. -/
def Common.ofObject (r : ObjectReference) : Common :=
  ⟨r.bucketName, sourcePrefix r.identifier, r.partitions⟩

/-- The objects that were written for the identities; what was kept is that of the first of the
objects, if there are any. -/
lemma exists_content (entries : List (Bytes × List ObjectReference)) (common : Common)
    (json : JsonValue R) (hnodup : (entries.map Prod.fst).Nodup) :
    ∃ content : Bytes → Common × List ObjectReference,
      (∀ entry ∈ entries, (content entry.1).2 = entry.2 ∧
        ∀ r, entry.2.head? = some r → (content entry.1).1 = Common.ofObject r) ∧
      ∀ key, (entries.foldl (fun (state : Common × JsonValue R) entry =>
          let common := state.1.update entry.2
          (common, state.2.withObject entry.1 (inputToJson common entry.2))) (common, json)).2.find
          key = if key ∈ entries.map Prod.fst then
            some (inputToJson (content key).1 (content key).2) else json.find key := by
  induction entries generalizing common json with
  | nil => exact ⟨fun _ => ({}, []), by simp, by simp⟩
  | cons entry entries ih =>
    rw [List.map_cons, List.nodup_cons] at hnodup
    obtain ⟨content, hcontent, hfind⟩ := ih (common.update entry.2)
      (json.withObject entry.1 (inputToJson (common.update entry.2) entry.2)) hnodup.2
    refine ⟨fun key => if key = entry.1 then (common.update entry.2, entry.2) else content key,
      fun entry' hentry' => ?_, fun key => ?_⟩
    · rcases List.mem_cons.mp hentry' with rfl | hmem
      · refine ⟨by simp, fun r hr => ?_⟩
        simp only [if_true, Common.update, hr]
        rfl
      · have hne : entry'.1 ≠ entry.1 := fun heq =>
          hnodup.1 (heq ▸ List.mem_map_of_mem (f := Prod.fst) hmem)
        simp only [hne, if_false]
        exact hcontent entry' hmem
    · rw [List.foldl_cons]
      refine (hfind key).trans ?_
      simp only [List.map_cons, List.mem_cons, find_withObject]
      by_cases hkey : key = entry.1
      · subst hkey
        simp [hnodup.1]
      · have hne : ¬ entry.1 = key := fun heq => hkey heq.symm
        simp only [hkey, hne, false_or, if_false]

/-- Every object of an identity lies with the first in one bucket and in one part of it, and lists
the same partitions, and the identities have objects. -/
structure Encodable (d : PipelineFragmentDefinition) : Prop where
  target : d.targetObject.bucketName ≠ [] ∧ d.targetObject.identifier ≠ []
  inputs : ∀ entry ∈ d.identityToObjects.entries, ∃ first, entry.2.head? = some first ∧
    ∀ r ∈ entry.2, r.bucketName ≠ [] ∧ r.bucketName = first.bucketName ∧
      r.partitions = first.partitions ∧ 2 ≤ r.identifier.count separator ∧
        sourcePrefix r.identifier = sourcePrefix first.identifier

/-- An object is put together again if and only if it lies with the first. -/
lemma Common.assemble_ofObject_eq_iff {first r : ObjectReference} :
    (Common.ofObject first).assemble r = r ↔
      r.bucketName = first.bucketName ∧ r.partitions = first.partitions ∧
        2 ≤ r.identifier.count separator ∧
          sourcePrefix r.identifier = sourcePrefix first.identifier := by
  obtain ⟨bucket, identifier, etag, partitions⟩ := r
  simp only [Common.assemble, Common.ofObject, ObjectReference.mk.injEq, true_and,
    sourceSuffix, append_after_eq_iff]
  constructor
  · rintro ⟨hbucket, ⟨hcount, hbefore⟩, hpartitions⟩
    exact ⟨hbucket.symm, hpartitions.symm, hcount, hbefore.symm⟩
  · rintro ⟨hbucket, hpartitions, hcount, hbefore⟩
    exact ⟨hbucket.symm, ⟨hcount, hbefore.symm⟩, hpartitions.symm⟩

variable {d : PipelineFragmentDefinition}

/-- What `FromJson` does with what `ToJson` wrote. -/
lemma fromJson_toJson (d : PipelineFragmentDefinition) :
    fromJson (d.toJson : JsonValue R) = (do
      let identityToObjects ← (inputsToJson d.identityToObjects.entries :
        JsonValue R).getAllObjects.foldlM
          (fun m member => inputFromJson m member.1 member.2) IdentityMap.empty
      let targetObject ← ObjectReference.make d.targetObject.bucketName d.targetObject.identifier
        d.targetObject.etag d.targetObject.partitions
      pure ⟨identityToObjects, targetObject, d.targetFormat⟩) := by
  have hinputs : (d.toJson : JsonValue R).getObject "inputs" =
      inputsToJson d.identityToObjects.entries := by
    simp [toJson, getObject]
  have htarget : (d.toJson : JsonValue R).getObject "target_object" = d.targetObject.toJson := by
    simp [toJson, getObject]
  have hformat : (d.toJson : JsonValue R).getString "target_format" =
      (MagicEnum.enumName d.targetFormat : Bytes) := by
    simp [toJson, getString, getObject, asString]
  rw [fromJson, hinputs, htarget, hformat, ObjectReference.fromJson_toJson, enumValue_enumName]
  rfl

/-- The members of the inputs are the identities with what was written for them, and reading them
succeeds if and only if every identity with objects has a bucket. -/
lemma exists_foldlM_inputFromJson (d : PipelineFragmentDefinition) :
    ∃ content : Bytes → Common × List ObjectReference,
      (∀ entry ∈ d.identityToObjects.entries, (content entry.1).2 = entry.2 ∧
        ∀ r, entry.2.head? = some r → (content entry.1).1 = Common.ofObject r) ∧
      (∀ m, (inputsToJson d.identityToObjects.entries : JsonValue R).getAllObjects.foldlM
          (fun m member => inputFromJson m member.1 member.2) IdentityMap.empty = .ok m →
        ∀ entry ∈ d.identityToObjects.entries, entry.2 ≠ [] → (content entry.1).1.bucket ≠ []) ∧
      ((∀ entry ∈ d.identityToObjects.entries, entry.2 ≠ [] → (content entry.1).1.bucket ≠ []) →
        ∃ m, (inputsToJson d.identityToObjects.entries : JsonValue R).getAllObjects.foldlM
            (fun m member => inputFromJson m member.1 member.2) IdentityMap.empty = .ok m ∧
          ∀ key, m.find key =
            if key ∈ d.identityToObjects.entries.map Prod.fst ∧ (content key).2 ≠ [] then
              some ((content key).2.map (content key).1.assemble) else none) := by
  obtain ⟨content, hcontent, hfind⟩ := exists_content (R := R) d.identityToObjects.entries {}
    JsonValue.empty d.identityToObjects.nodup
  have hmem : ∀ member, member ∈ (inputsToJson d.identityToObjects.entries :
      JsonValue R).getAllObjects ↔ member.1 ∈ d.identityToObjects.entries.map Prod.fst ∧
        member.2 = inputToJson (content member.1).1 (content member.1).2 := by
    intro member
    rw [mem_getAllObjects, inputsToJson, hfind, find_empty]
    split
    · next hkey => simp [hkey, eq_comm]
    · next hkey => simp [hkey]
  have hkeys : ∀ key, key ∈ (inputsToJson d.identityToObjects.entries :
      JsonValue R).getAllObjects.map Prod.fst ↔
        key ∈ d.identityToObjects.entries.map Prod.fst := by
    intro key
    constructor
    · intro hkey
      obtain ⟨member, hmember, rfl⟩ := List.mem_map.mp hkey
      exact ((hmem member).mp hmember).1
    · intro hkey
      exact List.mem_map.mpr
        ⟨(key, _), (hmem (key, inputToJson (content key).1 (content key).2)).mpr ⟨hkey, rfl⟩, rfl⟩
  refine ⟨content, hcontent, fun m hm entry hentry hne hbucket => ?_, fun hbucket => ?_⟩
  · -- the loop read the member of the identity
    have hmember :=
      (hmem (entry.1, inputToJson (content entry.1).1 (content entry.1).2)).mpr
        ⟨List.mem_map_of_mem hentry, rfl⟩
    obtain ⟨m₁, m₂, hread⟩ := exists_of_foldlM_eq_ok hm hmember
    rw [← (hcontent entry hentry).1] at hne
    exact inputFromJson_ne_ok hne hbucket m₂ hread
  · have hmembers : ∀ member ∈ (inputsToJson d.identityToObjects.entries :
        JsonValue R).getAllObjects, member.2 = inputToJson (content member.1).1
          (content member.1).2 ∧
          ((content member.1).2 ≠ [] → (content member.1).1.bucket ≠ []) := by
      intro member hmember
      obtain ⟨hkey, hvalue⟩ := (hmem member).mp hmember
      obtain ⟨entry, hentry, heq⟩ := List.mem_map.mp hkey
      refine ⟨hvalue, fun hne => ?_⟩
      rw [← heq] at hne ⊢
      rw [(hcontent entry hentry).1] at hne
      exact hbucket entry hentry hne
    obtain ⟨m, hm, hfind'⟩ := foldlM_inputFromJson (m := IdentityMap.empty)
      JsonValue.getAllObjects_nodup hmembers fun _ _ => rfl
    refine ⟨m, hm, fun key => ?_⟩
    rw [hfind' key]
    simp only [hkeys, IdentityMap.find_empty]

/-- **Round trip**: a definition is read back if and only if the objects of every identity lie
together. -/
theorem fromJson_toJson_iff (d : PipelineFragmentDefinition) :
    (∃ d', fromJson (d.toJson : JsonValue R) = .ok d' ∧ d'.Equals d) ↔ d.Encodable := by
  obtain ⟨content, hcontent, hbuckets, hread⟩ := exists_foldlM_inputFromJson (R := R) d
  rw [fromJson_toJson]
  constructor
  · rintro ⟨d', hd', hformat, htarget, hequal⟩
    cases hloop : (inputsToJson d.identityToObjects.entries : JsonValue R).getAllObjects.foldlM
        (fun m member => inputFromJson m member.1 member.2) IdentityMap.empty with
    | error e =>
      rw [hloop] at hd'
      cases hd'
    | ok m =>
      rw [hloop] at hd'
      cases hmake : ObjectReference.make d.targetObject.bucketName d.targetObject.identifier
          d.targetObject.etag d.targetObject.partitions with
      | error e =>
        rw [hmake] at hd'
        cases hd'
      | ok r =>
        rw [hmake] at hd'
        obtain rfl := Except.ok.inj hd'
        obtain ⟨hbucket, hidentifier, -⟩ := ObjectReference.make_eq_ok_iff.mp hmake
        refine ⟨⟨hbucket, hidentifier⟩, fun entry hentry => ?_⟩
        obtain ⟨m', hm', hfind⟩ := hread (hbuckets m hloop)
        obtain rfl := Except.ok.inj (hloop.symm.trans hm')
        have hentry' : m.find entry.1 = some entry.2 :=
          (hequal entry.1).trans (IdentityMap.mem_entries_iff.mp hentry)
        rw [hfind] at hentry'
        split at hentry'
        · next hne =>
          obtain ⟨hobjects, hcommon⟩ := hcontent entry hentry
          rw [hobjects] at hne hentry'
          obtain ⟨first, left, hcons⟩ := List.exists_cons_of_ne_nil hne.2
          have hhead : entry.2.head? = some first := by rw [hcons]; rfl
          have hmap := Option.some.inj hentry'
          rw [hcommon first hhead] at hmap
          refine ⟨first, hhead, fun r hr => ?_⟩
          have hassemble : (Common.ofObject first).assemble r = r :=
            List.map_eq_map_iff.mp (hmap.trans (List.map_id _).symm) r hr
          have hlie := Common.assemble_ofObject_eq_iff.mp hassemble
          refine ⟨?_, hlie⟩
          rw [hlie.1]
          have hfirst := hbuckets m hloop entry hentry hne.2
          rwa [hcommon first hhead] at hfirst
        · cases hentry'
  · intro h
    have hbucket : ∀ entry ∈ d.identityToObjects.entries, entry.2 ≠ [] →
        (content entry.1).1.bucket ≠ [] := by
      intro entry hentry _
      obtain ⟨first, hhead, hall⟩ := h.inputs entry hentry
      rw [(hcontent entry hentry).2 first hhead]
      exact (hall first (List.mem_of_head? hhead)).1
    obtain ⟨m, hm, hfind⟩ := hread hbucket
    have hmake : ObjectReference.make d.targetObject.bucketName d.targetObject.identifier
        d.targetObject.etag d.targetObject.partitions = .ok d.targetObject :=
      ObjectReference.make_eq_ok_iff.mpr ⟨h.target.1, h.target.2, rfl⟩
    refine ⟨⟨m, d.targetObject, d.targetFormat⟩, ?_, rfl, rfl, fun identity => ?_⟩
    · rw [hm, hmake]
      rfl
    · show m.find identity = d.identityToObjects.find identity
      rw [hfind]
      cases hd : d.identityToObjects.find identity with
      | none =>
        refine if_neg fun hkey => ?_
        obtain ⟨entry, hentry, rfl⟩ := List.mem_map.mp hkey.1
        rw [IdentityMap.mem_entries_iff.mp hentry] at hd
        cases hd
      | some objects =>
        have hentry : (identity, objects) ∈ d.identityToObjects.entries :=
          IdentityMap.mem_entries_iff.mpr hd
        obtain ⟨first, hhead, hall⟩ := h.inputs _ hentry
        obtain ⟨hobjects, hcommon⟩ := hcontent _ hentry
        have hne : objects ≠ [] := by
          rintro rfl
          cases hhead
        rw [if_pos ⟨List.mem_map_of_mem (f := Prod.fst) hentry, by rwa [hobjects]⟩, hobjects,
          hcommon first hhead]
        congr 1
        refine (List.map_congr_left fun r hr => ?_).trans (List.map_id _)
        exact Common.assemble_ofObject_eq_iff.mpr (hall r hr).2

/-- A definition with one object, whose identifier has no separator. -/
def flat : PipelineFragmentDefinition where
  identityToObjects := IdentityMap.empty.emplaceBack "import" ⟨"bucket", "object", [], none⟩
  targetObject := ⟨"bucket", "target", [], none⟩
  targetFormat := .orc

/-- The identifier of the only object is read back twice. -/
theorem not_fromJson_toJson_flat :
    ¬ ∃ d', fromJson (flat.toJson : JsonValue ℚ) = .ok d' ∧ d'.Equals flat := by
  rintro ⟨d', hd', -, -, hequal⟩
  have hread : (fromJson (flat.toJson : JsonValue ℚ)).map (fun d' =>
      d'.identityToObjects.find "import") =
        .ok (some [⟨"bucket", "object/object", [], none⟩]) := by
    rfl
  rw [hd'] at hread
  have hwritten : flat.identityToObjects.find "import" =
      some [⟨"bucket", "object", [], none⟩] := rfl
  have heq := (Except.ok.inj hread).symm.trans ((hequal "import").trans hwritten)
  exact absurd heq (by decide)

end PipelineFragmentDefinition

end Skyrise

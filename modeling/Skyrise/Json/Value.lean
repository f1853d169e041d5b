/-
JSON values.

An object is a list of members, of which the first with a key counts; setting a
member replaces the one with its key.  A getter returns the value that was set, and
an empty value if there is none of the type.  Writing a value as a text and reading
it back is assumed to return the value, so there are no texts here.  The numbers
that are not integers are elements of `R`.
-/
import Mathlib.Data.Int.Notation
import Mathlib.Data.List.Nodup
import Mathlib.Data.List.Dedup
import Skyrise.Json.Text

/-- A JSON value. -/
inductive JsonValue (R : Type) where
  | string (s : Bytes)
  | integer (n : ℤ)
  | double (x : R)
  | bool (b : Bool)
  | array (elements : List (JsonValue R))
  | object (members : List (Bytes × JsonValue R))

namespace JsonValue

variable {R : Type} {json v : JsonValue R} {key key' : Bytes}

/-- The object without members. -/
def empty : JsonValue R := object []

/-- The members of an object. -/
def members : JsonValue R → List (Bytes × JsonValue R)
  | object members => members
  | _ => []

/-- The value of a key. -/
def find (json : JsonValue R) (key : Bytes) : Option (JsonValue R) :=
  (json.members.find? fun member => member.1 = key).map Prod.snd

/-- The object with a member that replaces the one with the same key. -/
def withMember (json : JsonValue R) (key : Bytes) (v : JsonValue R) : JsonValue R :=
  object ((json.members.filter fun member => member.1 ≠ key) ++ [(key, v)])

@[simp] lemma find_empty : (empty : JsonValue R).find key = none := rfl

/-- The members with other keys hold no value of a key, and all values of another. -/
lemma find?_filter_ne (members : List (Bytes × JsonValue R)) :
    (members.filter fun member => member.1 ≠ key).find? (fun member => member.1 = key') =
      if key = key' then none else members.find? fun member => member.1 = key' := by
  induction members with
  | nil => simp
  | cons member members ih =>
    by_cases hkey : member.1 = key
    · rw [List.filter_cons_of_neg (by simpa using hkey), ih]
      split
      · rfl
      · next hne => rw [List.find?_cons_of_neg (by rw [hkey]; simpa using hne)]
    · rw [List.filter_cons_of_pos (by simpa using hkey)]
      by_cases hkey' : member.1 = key'
      · rw [List.find?_cons_of_pos (by simpa using hkey'),
          List.find?_cons_of_pos (by simpa using hkey'), if_neg]
        exact fun heq => hkey (hkey'.trans heq.symm)
      · rw [List.find?_cons_of_neg (by simpa using hkey'),
          List.find?_cons_of_neg (by simpa using hkey'), ih]

@[simp] lemma find_withMember :
    (json.withMember key v).find key' = if key = key' then some v else json.find key' := by
  rw [find, withMember, members, List.find?_append, find?_filter_ne]
  by_cases h : key = key'
  · simp [h]
  · simp [h, find]

/-! ### Setters and getters -/

/-- `WithString`. -/
def withString (json : JsonValue R) (key : Bytes) (s : Bytes) : JsonValue R :=
  json.withMember key (string s)

/-- `WithInteger` and `WithInt64`. -/
def withInteger (json : JsonValue R) (key : Bytes) (n : ℤ) : JsonValue R :=
  json.withMember key (integer n)

/-- `WithDouble`. -/
def withDouble (json : JsonValue R) (key : Bytes) (x : R) : JsonValue R :=
  json.withMember key (double x)

/-- `WithBool`. -/
def withBool (json : JsonValue R) (key : Bytes) (b : Bool) : JsonValue R :=
  json.withMember key (bool b)

/-- `WithArray`. -/
def withArray (json : JsonValue R) (key : Bytes) (elements : List (JsonValue R)) : JsonValue R :=
  json.withMember key (array elements)

/-- `WithObject`. -/
def withObject (json : JsonValue R) (key : Bytes) (v : JsonValue R) : JsonValue R :=
  json.withMember key v

/-- The object with a member if there is a value for it. -/
def withOptional (json : JsonValue R) (key : Bytes) (v : Option (JsonValue R)) : JsonValue R :=
  match v with
  | some v => json.withMember key v
  | none => json

/-- `KeyExists`. -/
def keyExists (json : JsonValue R) (key : Bytes) : Bool := (json.find key).isSome

/-- `AsString`. -/
def asString : JsonValue R → Bytes
  | string s => s
  | _ => []

/-- `AsInteger` and `AsInt64`. -/
def asInteger : JsonValue R → ℤ
  | integer n => n
  | _ => 0

/-- `AsDouble`. -/
def asDouble [Zero R] : JsonValue R → R
  | double x => x
  | _ => 0

/-- `AsBool`. -/
def asBool : JsonValue R → Bool
  | bool b => b
  | _ => false

/-- `AsArray`. -/
def asArray : JsonValue R → List (JsonValue R)
  | array elements => elements
  | _ => []

/-- `GetObject`. -/
def getObject (json : JsonValue R) (key : Bytes) : JsonValue R := (json.find key).getD empty

/-- `GetString`. -/
def getString (json : JsonValue R) (key : Bytes) : Bytes := (json.getObject key).asString

/-- `GetInteger` and `GetInt64`. -/
def getInteger (json : JsonValue R) (key : Bytes) : ℤ := (json.getObject key).asInteger

/-- `GetDouble`. -/
def getDouble [Zero R] (json : JsonValue R) (key : Bytes) : R := (json.getObject key).asDouble

/-- `GetBool`. -/
def getBool (json : JsonValue R) (key : Bytes) : Bool := (json.getObject key).asBool

/-- `GetArray`. -/
def getArray (json : JsonValue R) (key : Bytes) : List (JsonValue R) :=
  (json.getObject key).asArray

/-- `GetAllObjects`: every key once, with its value. -/
def getAllObjects (json : JsonValue R) : List (Bytes × JsonValue R) :=
  (json.members.map Prod.fst).dedup.filterMap fun key => (json.find key).map (Prod.mk key)

section Find

variable {s : Bytes} {n : ℤ} {x : R} {b : Bool} {elements : List (JsonValue R)}

@[simp] lemma find_withString : (json.withString key s).find key' =
    if key = key' then some (string s) else json.find key' := find_withMember

@[simp] lemma find_withInteger : (json.withInteger key n).find key' =
    if key = key' then some (integer n) else json.find key' := find_withMember

@[simp] lemma find_withDouble : (json.withDouble key x).find key' =
    if key = key' then some (double x) else json.find key' := find_withMember

@[simp] lemma find_withBool : (json.withBool key b).find key' =
    if key = key' then some (bool b) else json.find key' := find_withMember

@[simp] lemma find_withArray : (json.withArray key elements).find key' =
    if key = key' then some (array elements) else json.find key' := find_withMember

@[simp] lemma find_withObject : (json.withObject key v).find key' =
    if key = key' then some v else json.find key' := find_withMember

@[simp] lemma find_withOptional {v : Option (JsonValue R)} : (json.withOptional key v).find key' =
    if key = key' then v.or (json.find key') else json.find key' := by
  cases v with
  | none => simp [withOptional]
  | some v => simp [withOptional]

end Find

lemma getInteger_of_find {n : ℤ} (h : json.find key = some (integer n)) :
    json.getInteger key = n := by
  rw [getInteger, getObject, h]
  rfl

lemma keyExists_iff : json.keyExists key ↔ ∃ v, json.find key = some v := Option.isSome_iff_exists

lemma mem_getAllObjects {member : Bytes × JsonValue R} :
    member ∈ json.getAllObjects ↔ json.find member.1 = some member.2 := by
  obtain ⟨k, w⟩ := member
  rw [getAllObjects, List.mem_filterMap]
  constructor
  · rintro ⟨key, -, hkey⟩
    obtain ⟨v, hv, heq⟩ := Option.map_eq_some_iff.mp hkey
    obtain ⟨rfl, rfl⟩ := Prod.mk.inj heq
    exact hv
  · intro h
    refine ⟨k, List.mem_dedup.mpr ?_, by rw [show json.find k = some w from h]; rfl⟩
    obtain ⟨member, hmember, -⟩ := Option.map_eq_some_iff.mp h
    obtain ⟨hmem, hkey⟩ := And.intro (List.mem_of_find?_eq_some hmember) (List.find?_some hmember)
    exact List.mem_map.mpr ⟨member, hmem, of_decide_eq_true hkey⟩

lemma getAllObjects_nodup : (json.getAllObjects.map Prod.fst).Nodup := by
  rw [getAllObjects, List.map_filterMap]
  have hsub : List.Sublist ((json.members.map Prod.fst).dedup.filterMap fun key =>
      ((json.find key).map (Prod.mk key)).map Prod.fst) (json.members.map Prod.fst).dedup := by
    generalize (json.members.map Prod.fst).dedup = keys
    induction keys with
    | nil => exact List.Sublist.slnil
    | cons key keys ih =>
      rw [List.filterMap_cons]
      cases json.find key with
      | none => exact ih.cons key
      | some v => exact ih.cons_cons key
  exact (List.nodup_dedup _).sublist hsub

/-- A member of a value is smaller than the value. -/
lemma sizeOf_lt_of_find (h : json.find key = some v) : sizeOf v < sizeOf json := by
  obtain ⟨member, hmember, rfl⟩ := Option.map_eq_some_iff.mp h
  have hmem := List.mem_of_find?_eq_some hmember
  cases json with
  | object members =>
    have hlt := List.sizeOf_lt_of_mem (show member ∈ members from hmem)
    obtain ⟨k, w⟩ := member
    simp only [Prod.mk.sizeOf_spec, object.sizeOf_spec] at hlt ⊢
    omega
  | _ => cases hmem

/-- An element of an array of a value is smaller than the value. -/
lemma sizeOf_lt_of_mem_getArray (h : v ∈ json.getArray key) : sizeOf v < sizeOf json := by
  rw [getArray, getObject] at h
  cases hfind : json.find key with
  | none =>
    rw [hfind] at h
    cases h
  | some w =>
    rw [hfind, Option.getD_some] at h
    refine Nat.lt_trans ?_ (sizeOf_lt_of_find hfind)
    cases w with
    | array elements =>
      have hlt := List.sizeOf_lt_of_mem (show v ∈ elements from h)
      rw [array.sizeOf_spec]
      omega
    | _ => cases h

end JsonValue

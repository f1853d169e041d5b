/-
Columns that are filled line by line.

The fields of a line are added to the columns from the first one on, and a column is
made where there is none yet.  A column gets one field of every line that is long
enough, so that its fields are those of all lines if and only if all lines are.  A
field may carry the number of its line, which the filling does not look at.
-/
import Mathlib.Data.List.Basic
import Mathlib.Data.Nat.Basic
import Mathlib.Order.MinMax

namespace FieldColumns

variable {α β : Type*}

/-- A field with its index is added to the column with this index, which is new if there are just as
many columns. -/
def addField (columns : List (List α)) (field : α × ℕ) : List (List α) :=
  let columns := if columns.length = field.2 then columns ++ [[]] else columns
  columns.modify field.2 (· ++ [field.1])

/-- The fields of a line are added. -/
def addFields (columns : List (List α)) (fields : List α) : List (List α) :=
  fields.zipIdx.foldl addField columns

/-- The columns of some lines. -/
def ofLines (lines : List (List α)) : List (List α) := lines.foldl addFields []

variable {columns : List (List α)} {lines : List (List α)} {k : ℕ}

/-! ### The fields of a column -/

/-- A field is added to its column. -/
lemma addField_spec (field : α) (i : ℕ) (hk : k ≤ columns.length) :
    (addField columns (field, k)).length = max columns.length (k + 1) ∧
      (addField columns (field, k)).getD i [] =
        columns.getD i [] ++ if i = k then [field] else [] := by
  rw [addField]
  dsimp only
  split
  · next hlength =>
    subst hlength
    constructor
    · simp
    · rw [List.getD_eq_getElem?_getD, List.getElem?_modify, List.getElem?_append,
        List.getD_eq_getElem?_getD]
      rcases lt_trichotomy i columns.length with hlt | heq | hgt
      · simp [hlt, hlt.ne, hlt.ne']
      · simp [heq]
      · have hnone : ([[]] : List (List α))[i - columns.length]? = none := by
          rw [List.getElem?_eq_none_iff, List.length_singleton]
          omega
        simp [hgt.ne, hgt.ne', Nat.not_lt.mpr hgt.le, hnone]
  · next hlength =>
    constructor
    · simp only [List.length_modify]
      omega
    · rw [List.getD_eq_getElem?_getD, List.getElem?_modify, List.getD_eq_getElem?_getD]
      by_cases hi : i = k
      · subst hi
        have hlt : i < columns.length := by omega
        simp [List.getElem?_eq_getElem hlt]
      · simp [hi, Ne.symm hi]

/-- The fields of a line are added to the first columns. -/
lemma foldl_addField_spec (fields : List α) (i : ℕ) (hk : k ≤ columns.length) :
    ((fields.zipIdx k).foldl addField columns).length = max columns.length (k + fields.length) ∧
      ((fields.zipIdx k).foldl addField columns).getD i [] =
        columns.getD i [] ++ if k ≤ i then (fields[i - k]?).toList else [] := by
  induction fields generalizing columns k with
  | nil => simp [hk]
  | cons field fields ih =>
    obtain ⟨hlength, hget⟩ := addField_spec field i hk
    have hk' : k + 1 ≤ (addField columns (field, k)).length := by omega
    obtain ⟨hlength', hget'⟩ := ih hk'
    rw [List.zipIdx_cons, List.foldl_cons]
    refine ⟨by rw [hlength', hlength, List.length_cons]; omega, ?_⟩
    rw [hget', hget, List.append_assoc]
    congr 1
    rcases lt_trichotomy i k with hlt | rfl | hgt
    · rw [if_neg hlt.ne, if_neg (by omega), if_neg (by omega)]
      rfl
    · rw [if_pos rfl, if_neg (by omega), if_pos (le_refl i), Nat.sub_self]
      rfl
    · rw [if_neg hgt.ne', if_pos (show k + 1 ≤ i from hgt), if_pos hgt.le, List.nil_append,
        show i - k = (i - (k + 1)) + 1 by omega, List.getElem?_cons_succ]

lemma length_addFields (columns : List (List α)) (fields : List α) :
    (addFields columns fields).length = max columns.length fields.length := by
  rw [addFields, (foldl_addField_spec fields 0 (Nat.zero_le columns.length)).1, Nat.zero_add]

lemma getD_addFields (columns : List (List α)) (fields : List α) (i : ℕ) :
    (addFields columns fields).getD i [] = columns.getD i [] ++ (fields[i]?).toList := by
  rw [addFields, (foldl_addField_spec fields i (Nat.zero_le columns.length)).2,
    if_pos (Nat.zero_le i), Nat.sub_zero]

/-- The columns of more lines. -/
lemma foldl_addFields_spec (columns : List (List α)) (lines : List (List α)) (i : ℕ) :
    (i < (lines.foldl addFields columns).length ↔
        i < columns.length ∨ ∃ fields ∈ lines, i < fields.length) ∧
      (lines.foldl addFields columns).getD i [] =
        columns.getD i [] ++ lines.flatMap fun fields => (fields[i]?).toList := by
  induction lines generalizing columns with
  | nil => simp
  | cons fields lines ih =>
    obtain ⟨hlength, hget⟩ := ih (addFields columns fields)
    rw [List.foldl_cons]
    constructor
    · rw [hlength, length_addFields, lt_max_iff, List.exists_mem_cons_iff, or_assoc]
    · rw [hget, getD_addFields, List.flatMap_cons, List.append_assoc]

/-- There is a column if some line has a field for it. -/
lemma lt_length_ofLines {i : ℕ} :
    i < (ofLines lines).length ↔ ∃ fields ∈ lines, i < fields.length := by
  rw [ofLines, (foldl_addFields_spec [] lines i).1, List.length_nil, or_iff_right (Nat.not_lt_zero i)]

/-- A column has a field of every line that is long enough. -/
lemma getD_ofLines (lines : List (List α)) (i : ℕ) :
    (ofLines lines).getD i [] = lines.flatMap fun fields => (fields[i]?).toList := by
  rw [ofLines, (foldl_addFields_spec [] lines i).2, List.getD_nil, List.nil_append]

/-! ### Fields that carry something -/

/-- What the fields carry makes no difference. -/
lemma map_ofLines (f : α → β) (lines : List (List α)) :
    (ofLines lines).map (List.map f) = ofLines (lines.map (List.map f)) := by
  have hlength : ∀ i, i < ((ofLines lines).map (List.map f)).length ↔
      i < (ofLines (lines.map (List.map f))).length := by
    intro i
    rw [List.length_map, lt_length_ofLines, lt_length_ofLines]
    simp
  have hget : ∀ i, ((ofLines lines).map (List.map f)).getD i [] =
      (ofLines (lines.map (List.map f))).getD i [] := by
    intro i
    have hmap : ((ofLines lines).map (List.map f)).getD i [] =
        ((ofLines lines).getD i []).map f := by
      rw [List.getD_eq_getElem?_getD, List.getElem?_map, List.getD_eq_getElem?_getD]
      cases (ofLines lines)[i]? <;> rfl
    rw [hmap, getD_ofLines, getD_ofLines, List.map_flatMap, List.flatMap_map]
    refine List.flatMap_congr ?_
    intro fields _
    rw [List.getElem?_map]
    cases fields[i]? <;> rfl
  apply List.ext_getElem?
  intro i
  by_cases hi : i < (ofLines (lines.map (List.map f))).length
  · have heq := hget i
    rw [List.getD_eq_getElem?_getD, List.getD_eq_getElem?_getD,
      List.getElem?_eq_getElem ((hlength i).mpr hi), List.getElem?_eq_getElem hi] at heq
    rw [List.getElem?_eq_getElem ((hlength i).mpr hi), List.getElem?_eq_getElem hi]
    exact congrArg some heq
  · rw [List.getElem?_eq_none (Nat.le_of_not_lt fun h => hi ((hlength i).mp h)),
      List.getElem?_eq_none (Nat.le_of_not_lt hi)]

/-- The fields of the lines with the numbers of their lines. -/
def numbered (lines : List (List α)) : List (List (α × ℕ)) :=
  lines.zipIdx.map fun line => line.1.map fun field => (field, line.2)

/-- The numbers of the lines from which a column has its fields. -/
def lineNumbers (lines : List (List α)) (i : ℕ) : List ℕ :=
  ((ofLines (numbered lines)).getD i []).map Prod.snd

/-- The numbers are carried by the fields of the columns. -/
lemma map_fst_ofLines_numbered (lines : List (List α)) :
    (ofLines (numbered lines)).map (List.map Prod.fst) = ofLines lines := by
  rw [map_ofLines, numbered, List.map_map]
  conv_rhs => rw [← List.zipIdx_map_fst 0 lines]
  refine congrArg ofLines (List.map_congr_left ?_)
  intro line _
  show (line.1.map fun field => (field, line.2)).map Prod.fst = line.1
  rw [List.map_map]
  exact List.map_id _

/-- The fields of a column without the numbers. -/
lemma map_fst_getD_ofLines_numbered (lines : List (List α)) (i : ℕ) :
    ((ofLines (numbered lines)).getD i []).map Prod.fst = (ofLines lines).getD i [] := by
  rw [← map_fst_ofLines_numbered lines, List.getD_eq_getElem?_getD, List.getD_eq_getElem?_getD,
    List.getElem?_map]
  cases (ofLines (numbered lines))[i]? <;> rfl

/-- A field is the one of the line whose number it carries. -/
lemma getD_of_mem_numbered {i : ℕ} {field : α × ℕ} (d : α)
    (h : field ∈ (ofLines (numbered lines)).getD i []) :
    (lines.getD field.2 []).getD i d = field.1 := by
  rw [getD_ofLines, numbered, List.flatMap_map, List.mem_flatMap] at h
  obtain ⟨line, hline, hfield⟩ := h
  rw [List.getElem?_map, Option.mem_toList, Option.map_eq_some_iff] at hfield
  obtain ⟨x, hx, rfl⟩ := hfield
  have hget := List.mem_zipIdx_iff_getElem?.mp hline
  rw [List.getD_eq_getElem?_getD (l := lines), hget, Option.getD_some,
    List.getD_eq_getElem?_getD, hx, Option.getD_some]

/-- A column has the fields of the lines with its numbers. -/
lemma map_lineNumbers (lines : List (List α)) (i : ℕ) (d : α) :
    (lineNumbers lines i).map (fun n => (lines.getD n []).getD i d) =
      (ofLines lines).getD i [] := by
  rw [lineNumbers, List.map_map, ← map_fst_getD_ofLines_numbered lines]
  refine List.map_congr_left ?_
  intro field hfield
  exact getD_of_mem_numbered d hfield

/-- A column has the numbers of the lines that are long enough. -/
lemma lineNumbers_eq (lines : List (List α)) (i : ℕ) :
    lineNumbers lines i =
      (lines.zipIdx.filter fun line => decide (i < line.1.length)).map Prod.snd := by
  rw [lineNumbers, getD_ofLines, numbered, List.flatMap_map, List.map_flatMap]
  induction lines.zipIdx with
  | nil => rfl
  | cons line rest ih =>
    rw [List.flatMap_cons, ih, List.getElem?_map]
    by_cases hi : i < line.1.length
    · rw [List.filter_cons_of_pos (by simpa using hi), List.getElem?_eq_getElem hi]
      rfl
    · rw [List.filter_cons_of_neg (by simpa using hi), List.getElem?_eq_none (Nat.le_of_not_lt hi)]
      rfl

lemma length_lineNumbers_le (lines : List (List α)) (i : ℕ) :
    (lineNumbers lines i).length ≤ lines.length := by
  rw [lineNumbers_eq, List.length_map]
  exact (List.length_filter_le _ _).trans_eq (List.length_zipIdx ..)

/-- All lines are long enough. -/
lemma lineNumbers_of_forall {i : ℕ} (h : ∀ fields ∈ lines, i < fields.length) :
    lineNumbers lines i = List.range lines.length := by
  rw [lineNumbers_eq, List.filter_eq_self.mpr, List.zipIdx_map_snd, List.range_eq_range']
  intro line hline
  exact decide_eq_true (h line.1 (List.fst_mem_of_mem_zipIdx hline))

/-- **A column has a field of every line** behind the first ones if and only if all lines are long
enough, unless there are only the first ones. -/
lemma drop_lineNumbers_eq_iff {i k : ℕ} (hk : k < lines.length) :
    (lineNumbers lines i).drop k = (List.range lines.length).drop k ↔
      ∀ fields ∈ lines, i < fields.length := by
  constructor
  · intro h
    have hlength := congrArg List.length h
    rw [List.length_drop, List.length_drop, List.length_range, lineNumbers_eq,
      List.length_map] at hlength
    have hall : lines.zipIdx.filter (fun line => decide (i < line.1.length)) = lines.zipIdx := by
      refine List.filter_sublist.eq_of_length_le ?_
      rw [List.length_zipIdx]
      omega
    intro fields hfields
    obtain ⟨n, hn, rfl⟩ := List.getElem_of_mem hfields
    have hmem : (lines[n], n) ∈ lines.zipIdx :=
      List.mk_mem_zipIdx_iff_getElem?.mpr (List.getElem?_eq_getElem hn)
    exact of_decide_eq_true (List.filter_eq_self.mp hall _ hmem)
  · intro h
    rw [lineNumbers_of_forall h]

end FieldColumns

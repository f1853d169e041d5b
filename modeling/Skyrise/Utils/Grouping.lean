/-
Grouping in two phases.

Rows are grouped by a key, and every group makes up one row.  If the rows come in
parts, each of which is grouped by itself, then the rows of the groups of all parts
can be grouped by their keys again.  This results in the rows of all groups, as soon
as the result of a group can be computed from those of its parts.
-/
import Mathlib.Data.List.Dedup
import Mathlib.Data.List.Perm.Basic

namespace Grouping

variable {ρ κ σ τ : Type*} [DecidableEq κ]

/-- The results of the groups, one for every key that occurs. -/
def grouped (key : ρ → κ) (result : κ → List ρ → σ) (rows : List ρ) : List σ :=
  (rows.map key).dedup.map fun k => result k (rows.filter fun row => key row = k)

variable {key : ρ → κ} {result : κ → List ρ → σ}

/-- The order of the rows does not matter, if it does not within the groups. -/
lemma grouped_perm (hresult : ∀ k {rows rows' : List ρ}, rows.Perm rows' →
    result k rows = result k rows') {rows rows' : List ρ} (h : rows.Perm rows') :
    (grouped key result rows).Perm (grouped key result rows') := by
  have heq : ∀ k, result k (rows.filter fun row => key row = k) =
      result k (rows'.filter fun row => key row = k) := fun k => hresult k (h.filter _)
  rw [grouped, grouped]
  simp only [heq]
  exact ((h.map key).dedup).map _

lemma filter_eq_of_nodup {l : List κ} (h : l.Nodup) (k : κ) :
    l.filter (fun k' => k' = k) = if k ∈ l then [k] else [] := by
  rw [List.filter_eq, h.count]
  split <;> rfl

section

variable {key₂ : σ → κ} (hkey : ∀ k rows, (∃ row ∈ rows, key row = k) → key₂ (result k rows) = k)

include hkey

/-- The keys of the results are those of the rows. -/
lemma map_grouped (rows : List ρ) :
    (grouped key result rows).map key₂ = (rows.map key).dedup := by
  rw [grouped, List.map_map]
  conv_rhs => rw [← List.map_id (rows.map key).dedup]
  refine List.map_congr_left fun k hk => ?_
  obtain ⟨row, hrow, rfl⟩ := List.mem_map.mp (List.mem_dedup.mp hk)
  exact hkey _ _ ⟨row, List.mem_filter.mpr ⟨hrow, decide_eq_true rfl⟩, rfl⟩

/-- The result with a key, if the key occurs. -/
lemma filter_grouped (rows : List ρ) (k : κ) :
    (grouped key result rows).filter (fun row => key₂ row = k) =
      if (rows.filter fun row => key row = k) = [] then []
      else [result k (rows.filter fun row => key row = k)] := by
  have hresult : ∀ k' ∈ (rows.map key).dedup,
      key₂ (result k' (rows.filter fun row => key row = k')) = k' := by
    intro k' hk'
    obtain ⟨row, hrow, rfl⟩ := List.mem_map.mp (List.mem_dedup.mp hk')
    exact hkey _ _ ⟨row, List.mem_filter.mpr ⟨hrow, decide_eq_true rfl⟩, rfl⟩
  have hfilter : (rows.map key).dedup.filter (fun k' =>
      key₂ (result k' (rows.filter fun row => key row = k')) = k) =
        if k ∈ rows.map key then [k] else [] := by
    rw [List.filter_congr fun k' hk' => by rw [hresult k' hk'],
      filter_eq_of_nodup (List.nodup_dedup _)]
    simp only [List.mem_dedup]
  have hempty : (rows.filter fun row => key row = k) = [] ↔ k ∉ rows.map key := by
    simp [List.filter_eq_nil_iff]
  rw [grouped, List.filter_map]
  change List.map _ ((rows.map key).dedup.filter fun k' =>
    decide (key₂ (result k' (rows.filter fun row => key row = k')) = k)) = _
  rw [hfilter]
  by_cases hmem : k ∈ rows.map key
  · rw [if_pos hmem, if_neg (mt hempty.mp (not_not_intro hmem))]
    rfl
  · rw [if_neg hmem, if_pos (hempty.mpr hmem)]
    rfl

/-- **Grouping in two phases** has the results of grouping at once, for any parts. -/
theorem grouped_grouped {combine : κ → List σ → τ} {whole : κ → List ρ → τ}
    (hcombine : ∀ row (parts : List (List ρ)), parts ≠ [] →
      combine (key row) (parts.map (result (key row))) = whole (key row) parts.flatten)
    (parts : List (List ρ)) :
    (grouped key₂ combine (parts.flatMap (grouped key result))).Perm
      (grouped key whole parts.flatten) := by
  have hkeys : ((parts.flatMap (grouped key result)).map key₂).dedup.Perm
      (parts.flatten.map key).dedup := by
    refine (List.perm_ext_iff_of_nodup (List.nodup_dedup _) (List.nodup_dedup _)).mpr fun k => ?_
    rw [List.mem_dedup, List.mem_dedup, List.map_flatMap]
    simp only [map_grouped hkey, List.mem_flatMap, List.mem_dedup, List.mem_map, List.mem_flatten]
    constructor
    · rintro ⟨part, hpart, row, hrow, rfl⟩
      exact ⟨row, ⟨part, hpart, hrow⟩, rfl⟩
    · rintro ⟨row, ⟨part, hpart, hrow⟩, rfl⟩
      exact ⟨part, hpart, row, hrow, rfl⟩
  rw [grouped, grouped]
  refine (hkeys.map _).trans (List.Perm.of_eq (List.map_congr_left fun k hk => ?_))
  -- the parts in which the key occurs
  set occurring := (parts.map (List.filter fun row => key row = k)).filter (· ≠ [])
    with hoccurring
  have hrows : parts.flatten.filter (fun row => key row = k) = occurring.flatten := by
    rw [List.filter_flatten, hoccurring]
    exact (List.flatten_filter_ne_nil).symm
  have hresults : (parts.flatMap (grouped key result)).filter (fun row => key₂ row = k) =
      occurring.map (result k) := by
    rw [List.filter_flatMap, hoccurring]
    simp only [filter_grouped hkey]
    clear hrows hoccurring occurring hkeys hk
    induction parts with
    | nil => rfl
    | cons part parts ih =>
      rw [List.flatMap_cons, List.map_cons, List.filter_cons, ih]
      by_cases hnil : part.filter (fun row => key row = k) = []
      · simp [hnil]
      · simp [hnil]
  have hne : occurring ≠ [] := by
    intro hnil
    obtain ⟨row, hrow, rfl⟩ := List.mem_map.mp (List.mem_dedup.mp hk)
    have hmem : row ∈ parts.flatten.filter fun row' => key row' = key row :=
      List.mem_filter.mpr ⟨hrow, decide_eq_true rfl⟩
    rw [hrows, hnil] at hmem
    cases hmem
  obtain ⟨row, -, rfl⟩ := List.mem_map.mp (List.mem_dedup.mp hk)
  rw [hresults, hrows, hcombine row occurring hne]

end

/-! ### Extremal elements -/

section

variable {α : Type*} {r : α → α → Prop} {pick : List α → Option α}
  (hpick : ∀ {l m}, pick l = some m ↔ m ∈ l ∧ ∀ x ∈ l, r m x)

include hpick

/-- The order of the elements does not matter for an extremal one. -/
lemma pick_perm {l l' : List α} (h : l.Perm l') : pick l = pick l' := by
  ext m
  rw [hpick, hpick, h.mem_iff]
  simp only [h.mem_iff]

/-- The extremal element of the extremal elements of some parts. -/
lemma pick_filterMap [Std.Antisymm r] [IsTrans α r] (hnil : ∀ {l}, pick l = none ↔ l = [])
    (parts : List (List α)) : pick (parts.filterMap pick) = pick parts.flatten := by
  have hsome : ∀ {l x}, x ∈ l → ∃ m, pick l = some m ∧ r m x := by
    intro l x hx
    obtain ⟨m, hm⟩ := Option.ne_none_iff_exists'.mp (mt hnil.mp (List.ne_nil_of_mem hx))
    exact ⟨m, hm, (hpick.mp hm).2 x hx⟩
  ext m
  rw [hpick, hpick]
  simp only [List.mem_filterMap, List.mem_flatten]
  constructor
  · rintro ⟨⟨part, hpart, hm⟩, hleast⟩
    refine ⟨⟨part, hpart, (hpick.mp hm).1⟩, ?_⟩
    rintro x ⟨part', hpart', hx⟩
    obtain ⟨m', hm', hle⟩ := hsome hx
    exact IsTrans.trans _ _ _ (hleast m' ⟨part', hpart', hm'⟩) hle
  · rintro ⟨⟨part, hpart, hm⟩, hleast⟩
    obtain ⟨m', hm', hle⟩ := hsome hm
    obtain rfl : m = m' := Std.Antisymm.antisymm _ _ (hleast m' ⟨part, hpart, (hpick.mp hm').1⟩) hle
    refine ⟨⟨part, hpart, hm'⟩, ?_⟩
    rintro x ⟨part', hpart', hx⟩
    exact hleast x ⟨part', hpart', (hpick.mp hx).1⟩

end

end Grouping

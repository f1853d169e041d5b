/-
Texts that are split at a delimiter.

A sequence is split at every occurrence of a delimiter.  The elements are those of
the part before an occurrence and those of the part after it.  The nonempty elements
are what remains if delimiters in a row, and those at either end, count as one.
-/
import Mathlib.Data.List.DropRight

namespace Lines

variable {α : Type*} [DecidableEq α] {d : α} {s t : List α}

/-- The elements between the occurrences of a delimiter. -/
def split (d : α) : List α → List (List α)
  | [] => [[]]
  | x :: s => if x = d then [] :: split d s else (split d s).modifyHead (x :: ·)

@[simp] lemma split_nil : split d [] = [[]] := rfl

@[simp] lemma split_cons_self : split d (d :: s) = [] :: split d s := by
  rw [split, if_pos rfl]

lemma split_cons_ne {x : α} (h : x ≠ d) : split d (x :: s) = (split d s).modifyHead (x :: ·) := by
  rw [split, if_neg h]

lemma split_ne_nil (d : α) (s : List α) : split d s ≠ [] := by
  cases s with
  | nil => exact List.cons_ne_nil _ _
  | cons x s =>
    rw [split]
    split
    · exact List.cons_ne_nil _ _
    · rw [ne_eq, List.modifyHead_eq_nil_iff]
      exact split_ne_nil d s

/-- The elements of a sequence with an occurrence of the delimiter. -/
lemma split_append_cons (s t : List α) : split d (s ++ d :: t) = split d s ++ split d t := by
  induction s with
  | nil => rw [List.nil_append, split_cons_self, split_nil, List.singleton_append]
  | cons x s ih =>
    by_cases hx : x = d
    · subst hx
      rw [List.cons_append, split_cons_self, split_cons_self, ih, List.cons_append]
    · rw [List.cons_append, split_cons_ne hx, split_cons_ne hx, ih]
      obtain ⟨first, rest, hsplit⟩ := List.exists_cons_of_ne_nil (split_ne_nil d s)
      rw [hsplit]
      rfl

/-- A sequence without the delimiter is one element. -/
lemma split_of_notMem (h : d ∉ s) : split d s = [s] := by
  induction s with
  | nil => rfl
  | cons x s ih =>
    rw [List.mem_cons, not_or] at h
    rw [split_cons_ne (Ne.symm h.1), ih h.2]
    rfl

omit [DecidableEq α] in
lemma intercalate_cons_cons (d : α) (e e' : List α) (elements : List (List α)) :
    [d].intercalate (e :: e' :: elements) = e ++ d :: [d].intercalate (e' :: elements) := by
  rw [List.intercalate_cons_cons, List.append_assoc, List.singleton_append]

/-- The elements of elements without the delimiter that are joined by it. -/
lemma split_intercalate {elements : List (List α)} (hne : elements ≠ [])
    (h : ∀ e ∈ elements, d ∉ e) : split d ([d].intercalate elements) = elements := by
  induction elements with
  | nil => exact absurd rfl hne
  | cons e elements ih =>
    rw [List.forall_mem_cons] at h
    cases elements with
    | nil => simpa [List.intercalate] using split_of_notMem h.1
    | cons e' elements =>
      rw [intercalate_cons_cons, split_append_cons, split_of_notMem h.1, ih (List.cons_ne_nil _ _) h.2,
        List.singleton_append]

/-- Joining elements gives at least as many elements. -/
lemma length_le_length_split_intercalate (d : α) (elements : List (List α)) :
    elements.length ≤ (split d ([d].intercalate elements)).length := by
  induction elements with
  | nil => exact Nat.zero_le _
  | cons e elements ih =>
    cases elements with
    | nil => exact List.length_pos_iff.mpr (split_ne_nil d _)
    | cons e' elements =>
      have hpos := List.length_pos_iff.mpr (split_ne_nil d e)
      rw [intercalate_cons_cons, split_append_cons, List.length_append, List.length_cons]
      omega

omit [DecidableEq α] in
lemma notMem_intercalate {x : α} {elements : List (List α)} (hx : x ≠ d)
    (h : ∀ e ∈ elements, x ∉ e) : x ∉ [d].intercalate elements := by
  induction elements with
  | nil => simp [List.intercalate]
  | cons e elements ih =>
    rw [List.forall_mem_cons] at h
    cases elements with
    | nil => simpa [List.intercalate] using h.1
    | cons e' elements =>
      rw [intercalate_cons_cons, List.mem_append, List.mem_cons, not_or, not_or]
      exact ⟨h.1, hx, ih h.2⟩

/-! ### Nonempty elements -/

/-- The elements that are not empty. -/
def nonempty (d : α) (s : List α) : List (List α) := (split d s).filter (· ≠ [])

@[simp] lemma nonempty_nil : nonempty d [] = [] := rfl

lemma nonempty_append_cons (s t : List α) :
    nonempty d (s ++ d :: t) = nonempty d s ++ nonempty d t := by
  rw [nonempty, split_append_cons, List.filter_append]
  rfl

@[simp] lemma nonempty_cons_self : nonempty d (d :: s) = nonempty d s := by
  simpa using nonempty_append_cons (d := d) [] s

lemma nonempty_of_notMem (h : d ∉ s) (hne : s ≠ []) : nonempty d s = [s] := by
  rw [nonempty, split_of_notMem h, List.filter_cons_of_pos (by simpa using hne), List.filter_nil]

/-- A sequence that goes on with the delimiter or ends. -/
def AtDelimiter (d : α) (s : List α) : Prop := s = [] ∨ ∃ t, s = d :: t

lemma nonempty_append (h : AtDelimiter d t) : nonempty d (s ++ t) = nonempty d s ++ nonempty d t := by
  rcases h with rfl | ⟨t, rfl⟩
  · rw [List.append_nil, nonempty_nil, List.append_nil]
  · rw [nonempty_append_cons, nonempty_cons_self]

lemma nonempty_of_forall (h : ∀ x ∈ s, x = d) : nonempty d s = [] := by
  induction s with
  | nil => rfl
  | cons x s ih =>
    rw [List.forall_mem_cons] at h
    rw [h.1, nonempty_cons_self, ih h.2]

omit [DecidableEq α] in
/-- Delimiters in a row are a place where a sequence can be cut. -/
lemma atDelimiter_of_forall (h : ∀ x ∈ s, x = d) : AtDelimiter d s := by
  cases s with
  | nil => exact .inl rfl
  | cons x s => exact .inr ⟨s, by rw [h x List.mem_cons_self]⟩

/-- The nonempty elements of elements that are all terminated by the delimiter. -/
lemma nonempty_flatMap {elements : List (List α)} (h : ∀ e ∈ elements, d ∉ e) :
    nonempty d (elements.flatMap (· ++ [d])) = elements.filter fun e => decide (e ≠ []) := by
  induction elements with
  | nil => rfl
  | cons e elements ih =>
    rw [List.forall_mem_cons] at h
    rw [List.flatMap_cons, List.append_assoc, List.singleton_append, nonempty_append_cons, ih h.2,
      nonempty, split_of_notMem h.1, ← List.filter_append]
    rfl

/-! ### Windows -/

/-- What a window of `n` entries keeps of a sequence: an element that may go on behind the window is
dropped, and so are the delimiters at the end. -/
def kept (d : α) (n : ℕ) (s : List α) : List α :=
  let window := s.take n
  let window :=
    if window.length = n ∧ d ∈ window then window.rdropWhile (fun x => decide (x ≠ d)) else window
  window.rdropWhile fun x => decide (x = d)

/-- What follows what a window keeps. -/
def rest (d : α) (n : ℕ) (s : List α) : List α := s.drop (kept d n s).length

/-- A window that ends in an element that goes on behind it has to hold a delimiter. -/
def Holds (d : α) (n : ℕ) (s : List α) : Prop := n < s.length → d ∈ s.take n

variable {n : ℕ}

lemma kept_prefix_take (d : α) (n : ℕ) (s : List α) : kept d n s <+: s.take n := by
  rw [kept]
  refine (List.rdropWhile_prefix _ _).trans ?_
  split
  · exact List.rdropWhile_prefix _ _
  · exact List.prefix_rfl

lemma kept_isPrefix (d : α) (n : ℕ) (s : List α) : kept d n s <+: s :=
  (kept_prefix_take d n s).trans (List.take_prefix n s)

lemma kept_append_rest (d : α) (n : ℕ) (s : List α) : kept d n s ++ rest d n s = s :=
  List.prefix_iff_eq_append.mp (kept_isPrefix d n s)

lemma rest_eq (h : kept d n s ++ t = s) : rest d n s = t :=
  List.append_cancel_left ((kept_append_rest d n s).trans h.symm)

/-- What is dropped at the end are delimiters. -/
lemma exists_append_delimiters (d : α) (s : List α) :
    ∃ t, s.rdropWhile (fun x => decide (x = d)) ++ t = s ∧ ∀ x ∈ t, x = d :=
  ⟨_, List.rdropWhile_append_rtakeWhile .., fun x hx => by
    simpa using List.mem_rtakeWhile_imp hx⟩

/-- A sequence is only cut where it goes on with a delimiter. -/
lemma atDelimiter_rest (h : Holds d n s) : AtDelimiter d (rest d n s) := by
  by_cases hfull : (s.take n).length = n ∧ d ∈ s.take n
  · -- the window ends behind a delimiter, which is dropped
    set u := (s.take n).rdropWhile fun x => decide (x ≠ d) with hu
    have hkept : kept d n s = u.rdropWhile fun x => decide (x = d) := by
      rw [kept, if_pos hfull]
    obtain ⟨t, ht, hall⟩ := exists_append_delimiters d u
    obtain ⟨v, hv⟩ : u <+: s := (List.rdropWhile_prefix _ _).trans (List.take_prefix n s)
    have hrest : rest d n s = t ++ v := by
      apply rest_eq
      rw [hkept, ← List.append_assoc, ht, hv]
    have hne : u ≠ [] := by
      rw [hu, ne_eq, List.rdropWhile_eq_nil_iff]
      intro hnone
      simpa using hnone d hfull.2
    have hlast : u.getLast hne = d := by
      have hnot : ¬ decide (u.getLast hne ≠ d) = true :=
        List.rdropWhile_last_not (fun x => decide (x ≠ d)) (s.take n) hne
      simpa using hnot
    rw [hrest]
    cases t with
    | nil =>
      exfalso
      rw [List.append_nil] at ht
      have hnot := List.rdropWhile_eq_self_iff.mp ht hne
      rw [hlast] at hnot
      simp at hnot
    | cons x t =>
      obtain rfl := hall x List.mem_cons_self
      exact .inr ⟨t ++ v, rfl⟩
  · -- nothing follows the window
    have hshort : s.length ≤ n := by
      by_contra hlong
      have hlength : (s.take n).length = n := by
        rw [List.length_take]
        omega
      exact hfull ⟨hlength, h (by omega)⟩
    rw [List.take_of_length_le hshort] at hfull
    have hkept : kept d n s = s.rdropWhile fun x => decide (x = d) := by
      rw [kept, List.take_of_length_le hshort, if_neg hfull]
    obtain ⟨t, ht, hall⟩ := exists_append_delimiters d s
    rw [rest_eq (t := t) (by rw [hkept, ht])]
    exact atDelimiter_of_forall hall

omit [DecidableEq α] in
/-- A sequence that goes on with a delimiter is never cut within an element. -/
lemma holds_of_atDelimiter (hn : 0 < n) (h : AtDelimiter d s) : Holds d n s := by
  intro hlong
  rcases h with rfl | ⟨t, rfl⟩
  · simp at hlong
  · obtain ⟨m, rfl⟩ := Nat.exists_eq_succ_of_ne_zero hn.ne'
    rw [List.take_succ_cons]
    exact List.mem_cons_self

/-- Every element fits into a window, with the delimiter behind it if there is one. -/
structure Fits (d : α) (n : ℕ) (s : List α) : Prop where
  terminated : ∀ e ∈ (split d s).dropLast, e.length + 1 ≤ n
  last : ∀ e ∈ (split d s).getLast?, e.length ≤ n

lemma Fits.holds (h : Fits d n s) : Holds d n s := by
  intro hlong
  by_cases hmem : d ∈ s
  · obtain ⟨l, r, rfl, hl⟩ := List.eq_append_cons_of_mem hmem
    have hfirst : l ∈ (split d (l ++ d :: r)).dropLast := by
      rw [split_append_cons, split_of_notMem hl, List.singleton_append,
        List.dropLast_cons_of_ne_nil (split_ne_nil d r)]
      exact List.mem_cons_self
    have hlength := h.terminated l hfirst
    refine List.mem_take_iff_getElem.mpr ⟨l.length, ?_, ?_⟩
    · rw [List.length_append, List.length_cons]
      omega
    · rw [List.getElem_append_right (le_refl _)]
      simp
  · have hlength := h.last s (by rw [split_of_notMem hmem]; rfl)
    omega

/-- An empty window keeps nothing. -/
lemma pos_of_kept_ne_nil (h : kept d n s ≠ []) : 0 < n := by
  refine Nat.pos_of_ne_zero ?_
  rintro rfl
  refine h (List.prefix_nil.mp ?_)
  simpa using kept_prefix_take d 0 s

/-- A window that keeps two elements holds a delimiter. -/
lemma holds_of_one_lt (h : 1 < (nonempty d (kept d n s)).length) : Holds d n s := by
  intro _
  by_contra hnot
  have hkept : d ∉ kept d n s := fun hmem => hnot ((kept_prefix_take d n s).subset hmem)
  by_cases hnil : kept d n s = []
  · rw [hnil] at h
    exact absurd h (Nat.not_lt_zero _)
  · rw [nonempty_of_notMem hkept hnil] at h
    exact absurd h (lt_irrefl _)

lemma nonempty_kept_append (h : Holds d n s) :
    nonempty d s = nonempty d (kept d n s) ++ nonempty d (rest d n s) := by
  rw [← nonempty_append (atDelimiter_rest h), kept_append_rest]

lemma length_rest_lt (h : kept d n s ≠ []) : (rest d n s).length < s.length := by
  have hlength := congrArg List.length (kept_append_rest d n s)
  have hpos := List.length_pos_iff.mpr h
  rw [List.length_append] at hlength
  omega

/-- Only delimiters follow a window that is not full. -/
lemma nonempty_rest_of_length_lt (h : s.length < n) : nonempty d (rest d n s) = [] := by
  have hnot : ¬ ((s.take n).length = n ∧ d ∈ s.take n) := by
    rw [List.length_take]
    omega
  obtain ⟨t, ht, hall⟩ := exists_append_delimiters d s
  have hkept : kept d n s = s.rdropWhile fun x => decide (x = d) := by
    rw [kept, if_neg hnot, List.take_of_length_le h.le]
  rw [rest_eq (t := t) (by rw [hkept, ht])]
  exact nonempty_of_forall hall

lemma forall_of_nonempty_eq_nil (h : nonempty d s = []) : ∀ x ∈ s, x = d := by
  induction s with
  | nil => exact fun x hx => absurd hx List.not_mem_nil
  | cons x s ih =>
    by_cases hx : x = d
    · subst hx
      rw [nonempty_cons_self] at h
      exact List.forall_mem_cons.mpr ⟨rfl, ih h⟩
    · -- the first element starts with an entry that is no delimiter
      obtain ⟨first, others, hsplit⟩ := List.exists_cons_of_ne_nil (split_ne_nil d s)
      rw [nonempty, split_cons_ne hx, hsplit, List.modifyHead_cons,
        List.filter_cons_of_pos (by simp)] at h
      cases h

/-- What a window keeps does not end with a delimiter. -/
lemma nonempty_kept_ne_nil (h : kept d n s ≠ []) : nonempty d (kept d n s) ≠ [] := by
  intro hnil
  have hall := forall_of_nonempty_eq_nil hnil
  have hlast := List.rdropWhile_last_not (fun x => decide (x = d)) _ h
  exact hlast (decide_eq_true (hall _ (List.getLast_mem h)))

/-! ### Reading window by window -/

/-- The nonempty elements that are read window by window, until a window keeps nothing. -/
def readInWindows (d : α) (n : ℕ) (s : List α) : List (List α) :=
  if kept d n s = [] then [] else nonempty d (kept d n s) ++ readInWindows d n (rest d n s)
termination_by s.length
decreasing_by exact length_rest_lt (by assumption)

/-- As long as there are nonempty elements, every window keeps something. -/
inductive Aligned (d : α) (n : ℕ) : List α → Prop
  /-- Only delimiters are left. -/
  | done {s : List α} (h : nonempty d s = []) : Aligned d n s
  /-- The window keeps something, and so do the following ones. -/
  | more {s : List α} (hkept : kept d n s ≠ []) (h : Aligned d n (rest d n s)) : Aligned d n s

/-- What is read comes first among the nonempty elements. -/
lemma readInWindows_isPrefix (hn : 0 < n) (h : Holds d n s) :
    readInWindows d n s <+: nonempty d s := by
  induction s using readInWindows.induct d n with
  | case1 s hkept =>
    rw [readInWindows, if_pos hkept]
    exact List.nil_prefix
  | case2 s hkept ih =>
    rw [readInWindows, if_neg hkept, nonempty_kept_append h]
    exact (List.prefix_append_right_inj _).mpr (ih (holds_of_atDelimiter hn (atDelimiter_rest h)))

/-- Everything is read if and only if the windows are aligned. -/
lemma readInWindows_eq_iff (hn : 0 < n) (h : Holds d n s) :
    readInWindows d n s = nonempty d s ↔ Aligned d n s := by
  induction s using readInWindows.induct d n with
  | case1 s hkept =>
    rw [readInWindows, if_pos hkept]
    constructor
    · intro hnil
      exact .done hnil.symm
    · intro haligned
      cases haligned with
      | done hnil => exact hnil.symm
      | more hne => exact absurd hkept hne
  | case2 s hkept ih =>
    rw [readInWindows, if_neg hkept, nonempty_kept_append h, List.append_cancel_left_eq,
      ih (holds_of_atDelimiter hn (atDelimiter_rest h))]
    constructor
    · intro haligned
      exact .more hkept haligned
    · intro haligned
      cases haligned with
      | done hnil =>
        rw [nonempty_kept_append h, List.append_eq_nil_iff] at hnil
        exact .done hnil.2
      | more _ haligned => exact haligned

end Lines

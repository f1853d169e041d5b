/-
Byte strings and the names of enumerators.

A byte string may hold any bytes; constants are given as texts, and two of them
are equal if and only if the texts are.  Searching for the last occurrence of a
byte and taking the part before or after it are the operations with which a path
is split.  A number is written in decimal digits.  The enumerators of an enumeration
have names, and casting the name of one gives it back.
-/
import Mathlib.Data.List.Basic
import Mathlib.Data.List.Count

/-- A string of bytes. -/
abbrev Bytes := List UInt8

instance : LawfulBEq Bytes := inferInstance

namespace Bytes

/-- The bytes of a text. -/
def ofString (s : String) : Bytes := s.toByteArray.data.toList

instance : Coe String Bytes := ⟨ofString⟩

@[simp] lemma ofString_inj {s t : String} : ofString s = ofString t ↔ s = t := by
  refine ⟨fun h => String.toByteArray_inj.mp ?_, fun h => h ▸ rfl⟩
  exact ByteArray.ext (Array.toList_inj.mp h)

/-- The text with the bytes, if they are the encoding of one. -/
def toText (s : Bytes) : String := (String.fromUTF8? ⟨s.toArray⟩).getD ""

@[simp] lemma toText_ofString (s : String) : toText (ofString s) = s := by
  have h : (⟨(ofString s).toArray⟩ : ByteArray) = s.toByteArray := by
    rw [ofString, Array.toArray_toList]
  rw [toText, h, String.fromUTF8?, dif_pos s.isValidUTF8]
  rfl

/-- The position of the last occurrence of a byte. -/
def findLastOf (c : UInt8) : Bytes → Option ℕ
  | [] => none
  | x :: s =>
    match findLastOf c s with
    | some i => some (i + 1)
    | none => if x = c then some 0 else none

variable {c : UInt8} {s : Bytes} {i : ℕ}

lemma findLastOf_eq_none_iff : findLastOf c s = none ↔ c ∉ s := by
  induction s with
  | nil => simp [findLastOf]
  | cons x s ih =>
    rw [findLastOf, List.mem_cons, not_or]
    cases h : findLastOf c s with
    | some i =>
      rw [h] at ih
      refine iff_of_false (by simp) fun hnot => ?_
      exact absurd (ih.mpr hnot.2) (by simp)
    | none =>
      rw [h] at ih
      rcases eq_or_ne x c with rfl | hne
      · simp
      · simp [hne, hne.symm, ih.mp rfl]

/-- The parts before and after the last occurrence. -/
lemma exists_of_findLastOf_eq_some (h : findLastOf c s = some i) :
    ∃ p q, s = p ++ c :: q ∧ p.length = i ∧ c ∉ q := by
  induction s generalizing i with
  | nil => cases h
  | cons x s ih =>
    rw [findLastOf] at h
    split at h
    · next j hj =>
      obtain rfl := Option.some.inj h
      obtain ⟨p, q, rfl, rfl, hq⟩ := ih hj
      exact ⟨x :: p, q, rfl, rfl, hq⟩
    · next hnone =>
      split at h
      · next hx =>
        obtain rfl := Option.some.inj h
        subst hx
        exact ⟨[], s, rfl, rfl, findLastOf_eq_none_iff.mp hnone⟩
      · cases h

/-- What stands before a position; without a position, everything. -/
def before (i : Option ℕ) (s : Bytes) : Bytes :=
  match i with
  | some i => s.take i
  | none => s

/-- What stands after a position; without a position, everything. -/
def after (i : Option ℕ) (s : Bytes) : Bytes :=
  match i with
  | some i => s.drop (i + 1)
  | none => s

/-- The second occurrence of a byte from the end. -/
def findSecondLastOf (c : UInt8) (s : Bytes) : Option ℕ :=
  findLastOf c (before (findLastOf c s) s)

/-- With two occurrences the second from the end splits the string. -/
lemma before_append_after (h : 2 ≤ s.count c) :
    before (findSecondLastOf c s) s ++ c :: after (findSecondLastOf c s) s = s := by
  cases hlast : findLastOf c s with
  | none =>
    rw [List.count_eq_zero.mpr (findLastOf_eq_none_iff.mp hlast)] at h
    omega
  | some i =>
    obtain ⟨p, q, rfl, rfl, hq⟩ := exists_of_findLastOf_eq_some hlast
    have hbefore : before (some p.length) (p ++ c :: q) = p := List.take_left
    rw [findSecondLastOf, hlast, hbefore]
    cases hsecond : findLastOf c p with
    | none =>
      rw [List.count_append, List.count_cons_self, List.count_eq_zero.mpr hq,
        List.count_eq_zero.mpr (findLastOf_eq_none_iff.mp hsecond)] at h
      omega
    | some j =>
      obtain ⟨p', q', rfl, rfl, -⟩ := exists_of_findLastOf_eq_some hsecond
      rw [before, after, List.append_assoc, List.take_left, List.drop_append]
      simp

/-- With fewer than two occurrences nothing is split. -/
lemma findSecondLastOf_eq_none (h : s.count c < 2) : findSecondLastOf c s = none := by
  cases hlast : findLastOf c s with
  | none => rwa [findSecondLastOf, hlast]
  | some i =>
    obtain ⟨p, q, rfl, rfl, hq⟩ := exists_of_findLastOf_eq_some hlast
    have hbefore : before (some p.length) (p ++ c :: q) = p := List.take_left
    rw [findSecondLastOf, hlast, hbefore]
    rw [List.count_append, List.count_cons_self, List.count_eq_zero.mpr hq] at h
    exact findLastOf_eq_none_iff.mpr (List.count_eq_zero.mp (by omega))

/-- Another string before the second part gives the string itself if and only if there is such a
part and it is the first. -/
lemma append_after_eq_iff {p : Bytes} :
    p ++ c :: after (findSecondLastOf c s) s = s ↔
      2 ≤ s.count c ∧ p = before (findSecondLastOf c s) s := by
  constructor
  · intro h
    have hcount : 2 ≤ s.count c := by
      by_contra hlt
      rw [findSecondLastOf_eq_none (by omega)] at h
      have hlen := congrArg List.length h
      rw [List.length_append, List.length_cons, after] at hlen
      omega
    refine ⟨hcount, ?_⟩
    exact List.append_cancel_right (h.trans (before_append_after hcount).symm)
  · rintro ⟨hcount, rfl⟩
    exact before_append_after hcount

/-! ### Numbers -/

lemma ofString_append (s t : String) : ofString (s ++ t) = ofString s ++ ofString t := by
  simp [ofString]

/-- `std::to_string` of a number without sign. -/
def decimal (n : ℕ) : Bytes := ofString (toString n)

lemma toList_toString (n : ℕ) : (toString n).toList = Nat.toDigits 10 n := by
  rw [Nat.toString_eq_repr, Nat.toList_repr]

lemma toDigits_injective : Function.Injective (Nat.toDigits 10) := by
  intro m n h
  have hparsed := congrArg (fun digits => Nat.ofDigitChars 10 digits 0) h
  simpa using hparsed

lemma decimal_injective : Function.Injective decimal := by
  intro m n h
  have hlist := congrArg String.toList (ofString_inj.mp h)
  rw [toList_toString, toList_toString] at hlist
  exact toDigits_injective hlist

/-- A dash is no digit. -/
lemma dash_notMem_toDigits (n : ℕ) : '-' ∉ Nat.toDigits 10 n := by
  intro hmem
  have hdigit := Nat.isDigit_of_mem_toDigits (by decide) (by decide) hmem
  exact absurd hdigit (by decide)

/-- Two numbers around a dash are found again. -/
lemma decimal_dash_inj {m n m' n' : ℕ}
    (h : decimal m ++ (ofString "-" ++ decimal n) = decimal m' ++ (ofString "-" ++ decimal n')) :
    m = m' ∧ n = n' := by
  have hlist : Nat.toDigits 10 m ++ '-' :: Nat.toDigits 10 n =
      Nat.toDigits 10 m' ++ '-' :: Nat.toDigits 10 n' := by
    simp only [decimal, ← ofString_append, ofString_inj] at h
    simpa [toList_toString] using congrArg String.toList h
  obtain ⟨hm, -, hn⟩ := (List.append_cons_inj_of_notMem (dash_notMem_toDigits m)
    (dash_notMem_toDigits _)).mp hlist
  exact ⟨toDigits_injective hm, toDigits_injective hn⟩

/-- A number is no number with a dash. -/
lemma decimal_ne_dash {m m' n' : ℕ} : decimal m ≠ decimal m' ++ (ofString "-" ++ decimal n') := by
  intro h
  have hlist : Nat.toDigits 10 m = Nat.toDigits 10 m' ++ '-' :: Nat.toDigits 10 n' := by
    simp only [decimal, ← ofString_append, ofString_inj] at h
    simpa [toList_toString] using congrArg String.toList h
  exact dash_notMem_toDigits m (hlist ▸ List.mem_append_right _ List.mem_cons_self)

end Bytes

/-! ### Names of enumerators -/

/-- An enumeration whose enumerators have different names. -/
class MagicEnum (α : Type) where
  /-- The enumerators. -/
  values : List α
  /-- The name of an enumerator. -/
  enumName : α → String
  mem_values : ∀ a, a ∈ values
  enumName_injective : Function.Injective enumName

namespace MagicEnum

variable {α : Type} [MagicEnum α]

/-- The enumerator with a name. -/
def enumCast (name : Bytes) : Option α := values.find? fun a => (enumName a : Bytes) = name

@[simp] lemma enumCast_enumName (a : α) : enumCast (enumName a : Bytes) = some a := by
  cases h : enumCast (α := α) (enumName a : Bytes) with
  | none => exact absurd (List.find?_eq_none.mp h a (mem_values a)) (by simp)
  | some b =>
    have hname := List.find?_some h
    rw [decide_eq_true_eq, Bytes.ofString_inj] at hname
    rw [enumName_injective hname]

end MagicEnum

/-
Input streams over a stream buffer.

A stream asks its buffer for bytes and for positions, and keeps two flags: the end of the
input has been hit, and an operation has failed.  A stream whose flags are not clear does
nothing; a seek forgets the end of the input first.  The stream over given contents is the
one whose buffer is a position in them.  Two buffers that answer alike make streams that
do.
-/
import Mathlib.Data.List.Basic
import Mathlib.Data.Int.ModEq

namespace InputStream

/-- The position that an offset is relative to. -/
inductive SeekDir where
  | beg
  | cur
  | «end»
deriving DecidableEq

/-- The functions of a stream buffer, with states from `σ`. -/
structure StreamBuffer (σ : Type) where
  /-- The next byte, which is consumed. -/
  sbumpc : σ → Option UInt8 × σ
  /-- Goes to a position; none if it does not exist. -/
  seekpos : σ → Int64 → Option ℕ × σ
  /-- Goes to a relative position. -/
  seekoff : σ → Int64 → SeekDir → Option ℕ × σ

/-- The operations of a stream. -/
inductive StreamCall where
  | read (n : ℕ)
  | seekg (pos : Int64)
  | seekgFrom (off : Int64) (dir : SeekDir)
  | tellg
  | clear
deriving DecidableEq

/-- A stream. -/
structure StreamState (σ : Type) where
  buffer : σ
  eofbit : Bool := false
  failbit : Bool := false

/-- What can be seen of an operation: the bytes read, the position reported, and the flags. -/
structure StreamResult where
  bytes : List UInt8 := []
  position : Option ℕ := none
  eofbit : Bool
  failbit : Bool
deriving DecidableEq

section

variable {σ τ : Type} (b : StreamBuffer σ)

/-- Bytes up to a number, or to the end of the input. -/
def sgetn : ℕ → σ → List UInt8 × σ
  | 0, s => ([], s)
  | n + 1, s =>
    match b.sbumpc s with
    | (none, s) => ([], s)
    | (some byte, s) => (byte :: (sgetn n s).1, (sgetn n s).2)

/-- A stream with another buffer state and other flags, and a result with these flags. -/
def result (s : σ) (eofbit failbit : Bool) (bytes : List UInt8) (position : Option ℕ) :
    StreamResult × StreamState σ :=
  (⟨bytes, position, eofbit, failbit⟩, ⟨s, eofbit, failbit⟩)

/-- A seek of a stream that has not failed. -/
def seek (answer : Option ℕ × σ) : StreamResult × StreamState σ :=
  result answer.2 false answer.1.isNone [] none

/-- One operation. -/
def call (s : StreamState σ) : StreamCall → StreamResult × StreamState σ
  | .read n =>
    if s.eofbit || s.failbit then result s.buffer s.eofbit true [] none
    else
      let bytes := sgetn b n s.buffer
      let short := decide (bytes.1.length < n)
      result bytes.2 short short bytes.1 none
  | .seekg pos =>
    if s.failbit then result s.buffer false true [] none else seek (b.seekpos s.buffer pos)
  | .seekgFrom off dir =>
    if s.failbit then result s.buffer false true [] none else seek (b.seekoff s.buffer off dir)
  | .tellg =>
    if s.eofbit || s.failbit then result s.buffer s.eofbit true [] none
    else
      let answer := b.seekoff s.buffer 0 .cur
      result answer.2 false false [] answer.1
  | .clear => result s.buffer false false [] none

/-- A sequence of operations. -/
def run : StreamState σ → List StreamCall → List StreamResult
  | _, [] => []
  | s, c :: calls => (call b s c).1 :: run (call b s c).2 calls

/-! ### The stream over given contents -/

/-- Goes to a position in the contents, or stays. -/
def goTo (contents : List UInt8) (position : ℕ) (target : ℤ) : Option ℕ × ℕ :=
  if 0 ≤ target ∧ target ≤ contents.length then (some target.toNat, target.toNat)
  else (none, position)

/-- The buffer of a stream over given contents. -/
def ofContents (contents : List UInt8) : StreamBuffer ℕ where
  sbumpc position :=
    match contents[position]? with
    | some byte => (some byte, position + 1)
    | none => (none, position)
  seekpos position pos := goTo contents position pos.toInt
  seekoff position off dir :=
    match dir with
    | .beg => goTo contents position off.toInt
    | .cur => goTo contents position (position + off.toInt)
    | .end => goTo contents position (contents.length + off.toInt)

/-! ### Simulation -/

/-- States from which a buffer takes bytes as it should. -/
def ReadsWell (good : σ → Prop) : ℕ → σ → Prop
  | 0, _ => True
  | n + 1, s =>
    good s ∧
      match b.sbumpc s with
      | (none, _) => True
      | (some _, s) => ReadsWell good n s

/-- Operations that ask a buffer only what it answers well: bytes in good states, and positions
that are relative to one in states that know theirs. -/
def CallsWell (good knows : σ → Prop) (s : StreamState σ) : StreamCall → Prop
  | .read n => s.eofbit = false → s.failbit = false → ReadsWell b good n s.buffer
  | .seekgFrom _ .cur => s.failbit = false → knows s.buffer
  | .tellg => s.eofbit = false → s.failbit = false → knows s.buffer
  | _ => True

/-- A sequence of such operations. -/
def RunsWell (good knows : σ → Prop) : StreamState σ → List StreamCall → Prop
  | _, [] => True
  | s, c :: calls =>
    CallsWell b good knows s c ∧ RunsWell good knows (call b s c).2 calls

/-- A buffer that answers like another one. -/
structure Simulation (b : StreamBuffer σ) (b' : StreamBuffer τ) (good knows : σ → Prop)
    (R : σ → τ → Prop) : Prop where
  sbumpc : ∀ {s t}, R s t → good s →
    (b.sbumpc s).1 = (b'.sbumpc t).1 ∧ R (b.sbumpc s).2 (b'.sbumpc t).2
  seekpos : ∀ {s t} pos, R s t →
    (b.seekpos s pos).1 = (b'.seekpos t pos).1 ∧ R (b.seekpos s pos).2 (b'.seekpos t pos).2
  seekoff : ∀ {s t} off dir, R s t → (dir = .cur → knows s) →
    (b.seekoff s off dir).1 = (b'.seekoff t off dir).1 ∧
      R (b.seekoff s off dir).2 (b'.seekoff t off dir).2

/-- The same answer, and related buffers. -/
def Alike {α : Type} (R : σ → τ → Prop) (x : α × σ) (y : α × τ) : Prop :=
  x.1 = y.1 ∧ R x.2 y.2

/-- What two buffers are asked by an operation they answer alike. -/
def CallsAlike (b : StreamBuffer σ) (b' : StreamBuffer τ) (R : σ → τ → Prop) (s : σ) (t : τ) :
    StreamCall → Prop
  | .read n => Alike R (sgetn b n s) (sgetn b' n t)
  | .seekg pos => Alike R (b.seekpos s pos) (b'.seekpos t pos)
  | .seekgFrom off dir => Alike R (b.seekoff s off dir) (b'.seekoff t off dir)
  | .tellg => Alike R (b.seekoff s 0 .cur) (b'.seekoff t 0 .cur)
  | .clear => True

/-- Whether a stream asks its buffer. -/
def asks (s : StreamState σ) : StreamCall → Bool
  | .read _ => !(s.eofbit || s.failbit)
  | .seekg _ => !s.failbit
  | .seekgFrom _ _ => !s.failbit
  | .tellg => !(s.eofbit || s.failbit)
  | .clear => false

/-- Streams with the same flags, over related buffers. -/
structure StreamsAlike (R : σ → τ → Prop) (s : StreamState σ) (t : StreamState τ) : Prop where
  buffer : R s.buffer t.buffer
  eofbit : s.eofbit = t.eofbit
  failbit : s.failbit = t.failbit

/-- Streams with the same flags come to alike streams with the same results. -/
def ResultsAlike (R : σ → τ → Prop) (x : StreamResult × StreamState σ)
    (y : StreamResult × StreamState τ) : Prop :=
  x.1 = y.1 ∧ StreamsAlike R x.2 y.2

lemma result_alike {R : σ → τ → Prop} {s : σ} {t : τ} (hR : R s t) (eofbit failbit : Bool)
    (bytes : List UInt8) (position : Option ℕ) :
    ResultsAlike R (result s eofbit failbit bytes position)
      (result t eofbit failbit bytes position) :=
  ⟨rfl, hR, rfl, rfl⟩

lemma seek_alike {R : σ → τ → Prop} {answer : Option ℕ × σ} {answer' : Option ℕ × τ}
    (h : Alike R answer answer') : ResultsAlike R (seek answer) (seek answer') := by
  obtain ⟨hanswer, hR⟩ := h
  rw [seek, seek, hanswer]
  exact result_alike hR _ _ _ _

/-- **One operation**, of which the buffers answer what they are asked alike. -/
lemma call_alike {b : StreamBuffer σ} {b' : StreamBuffer τ} {R : σ → τ → Prop}
    {s : StreamState σ} {t : StreamState τ} (h : StreamsAlike R s t) {c : StreamCall}
    (hasks : asks s c = true → CallsAlike b b' R s.buffer t.buffer c) :
    ResultsAlike R (call b s c) (call b' t c) := by
  obtain ⟨hR, heof, hfail⟩ := h
  cases c with
  | read n =>
    rw [call, call, ← heof, ← hfail]
    by_cases hflags : s.eofbit || s.failbit
    · rw [if_pos hflags, if_pos hflags]
      exact result_alike hR _ _ _ _
    · rw [if_neg hflags, if_neg hflags]
      obtain ⟨hbytes, hR'⟩ := hasks (by rw [asks, Bool.eq_false_of_not_eq_true hflags]; rfl)
      dsimp only
      rw [hbytes]
      exact result_alike hR' _ _ _ _
  | seekg pos =>
    rw [call, call, ← hfail]
    by_cases hflag : s.failbit
    · rw [if_pos hflag, if_pos hflag]
      exact result_alike hR _ _ _ _
    · rw [if_neg hflag, if_neg hflag]
      exact seek_alike (hasks (by rw [asks, Bool.eq_false_of_not_eq_true hflag]; rfl))
  | seekgFrom off dir =>
    rw [call, call, ← hfail]
    by_cases hflag : s.failbit
    · rw [if_pos hflag, if_pos hflag]
      exact result_alike hR _ _ _ _
    · rw [if_neg hflag, if_neg hflag]
      exact seek_alike (hasks (by rw [asks, Bool.eq_false_of_not_eq_true hflag]; rfl))
  | tellg =>
    rw [call, call, ← heof, ← hfail]
    by_cases hflags : s.eofbit || s.failbit
    · rw [if_pos hflags, if_pos hflags]
      exact result_alike hR _ _ _ _
    · rw [if_neg hflags, if_neg hflags]
      obtain ⟨hanswer, hR'⟩ := hasks (by rw [asks, Bool.eq_false_of_not_eq_true hflags]; rfl)
      dsimp only
      rw [hanswer]
      exact result_alike hR' _ _ _ _
  | clear => exact result_alike hR _ _ _ _

/-- Bytes are taken alike where each of them is. -/
lemma sgetn_alike {b : StreamBuffer σ} {b' : StreamBuffer τ} {good : σ → Prop}
    {R : σ → τ → Prop}
    (hsbumpc : ∀ {s t}, R s t → good s → Alike R (b.sbumpc s) (b'.sbumpc t)) {n : ℕ} {s : σ}
    {t : τ} (hR : R s t) (hgood : ReadsWell b good n s) :
    Alike R (sgetn b n s) (sgetn b' n t) := by
  induction n generalizing s t with
  | zero => exact ⟨rfl, hR⟩
  | succ n ih =>
    obtain ⟨hgood, hrest⟩ := hgood
    obtain ⟨hbyte, hR'⟩ := hsbumpc hR hgood
    rw [sgetn, sgetn]
    rcases hs : b.sbumpc s with ⟨byte, s'⟩
    rcases ht : b'.sbumpc t with ⟨byte', t'⟩
    rw [hs, ht] at hbyte hR'
    rw [hs] at hrest
    obtain rfl : byte = byte' := hbyte
    cases byte with
    | none => exact ⟨rfl, hR'⟩
    | some byte =>
      obtain ⟨hbytes, hR''⟩ := ih hR' hrest
      exact ⟨congrArg (byte :: ·) hbytes, hR''⟩

end

namespace Simulation

variable {σ τ : Type} {b : StreamBuffer σ} {b' : StreamBuffer τ} {good knows : σ → Prop}
  {R : σ → τ → Prop}

lemma sgetn (h : Simulation b b' good knows R) {n : ℕ} {s : σ} {t : τ} (hR : R s t)
    (hgood : ReadsWell b good n s) :
    (InputStream.sgetn b n s).1 = (InputStream.sgetn b' n t).1 ∧
      R (InputStream.sgetn b n s).2 (InputStream.sgetn b' n t).2 :=
  sgetn_alike (fun hR hgood => h.sbumpc hR hgood) hR hgood

/-- **One operation** has the same result, and related buffers afterwards. -/
lemma call (h : Simulation b b' good knows R) {s : StreamState σ} {t : StreamState τ}
    (hR : R s.buffer t.buffer) (heof : s.eofbit = t.eofbit) (hfail : s.failbit = t.failbit)
    {c : StreamCall} (hwell : CallsWell b good knows s c) :
    (InputStream.call b s c).1 = (InputStream.call b' t c).1 ∧
      R (InputStream.call b s c).2.buffer (InputStream.call b' t c).2.buffer ∧
      (InputStream.call b s c).2.eofbit = (InputStream.call b' t c).2.eofbit ∧
      (InputStream.call b s c).2.failbit = (InputStream.call b' t c).2.failbit := by
  have halike : ResultsAlike R (InputStream.call b s c) (InputStream.call b' t c) := by
    apply call_alike ⟨hR, heof, hfail⟩
    intro hasks
    cases c with
    | read n =>
      obtain ⟨heof, hfail⟩ : s.eofbit = false ∧ s.failbit = false := by simpa [asks] using hasks
      exact h.sgetn hR (hwell heof hfail)
    | seekg pos => exact h.seekpos pos hR
    | seekgFrom off dir =>
      apply h.seekoff off dir hR
      rintro rfl
      exact hwell (by simpa [asks] using hasks)
    | tellg =>
      obtain ⟨heof, hfail⟩ : s.eofbit = false ∧ s.failbit = false := by simpa [asks] using hasks
      exact h.seekoff 0 .cur hR fun _ => hwell heof hfail
    | clear => trivial
  obtain ⟨hresult, hR', heof', hfail'⟩ := halike
  exact ⟨hresult, hR', heof', hfail'⟩

/-- **A sequence of operations** has the same results. -/
theorem run (h : Simulation b b' good knows R) {s : StreamState σ} {t : StreamState τ}
    (hR : R s.buffer t.buffer) (heof : s.eofbit = t.eofbit) (hfail : s.failbit = t.failbit)
    {calls : List StreamCall} (hwell : RunsWell b good knows s calls) :
    InputStream.run b s calls = InputStream.run b' t calls := by
  induction calls generalizing s t with
  | nil => rfl
  | cons c calls ih =>
    obtain ⟨hcall, hcalls⟩ := hwell
    obtain ⟨hresult, hR', heof', hfail'⟩ := h.call hR heof hfail hcall
    rw [InputStream.run, InputStream.run, hresult, ih hR' heof' hfail' hcalls]

end Simulation

end InputStream

/-
Streams for reading and writing.

The buffer of such a stream has a position to read from and one to write to, in the same
contents.  Bytes are written over those that are there, and behind the end.  The stream over
given contents is the one whose buffer is the contents with two positions.
-/
import Skyrise.Utils.InputStream

namespace ReadWriteStream

open InputStream

/-- The position that is meant. -/
inductive OpenMode where
  | «in»
  | out
deriving DecidableEq

/-- The functions of a stream buffer, with states from `σ`. -/
structure StreamBuffer (σ : Type) where
  /-- The next byte, which is consumed. -/
  sbumpc : σ → Option UInt8 × σ
  /-- Writes a byte; whether it has been written. -/
  sputc : σ → UInt8 → Bool × σ
  /-- Writes bytes; how many have been written. -/
  sputn : σ → List UInt8 → ℕ × σ
  /-- Goes to a position; none if it does not exist. -/
  seekpos : σ → Int64 → OpenMode → Option ℕ × σ
  /-- Goes to a relative position. -/
  seekoff : σ → Int64 → SeekDir → OpenMode → Option ℕ × σ

/-- The operations of a stream: those that read, and those that write. -/
inductive StreamCall where
  | input (call : InputStream.StreamCall)
  | put (byte : UInt8)
  | write (bytes : List UInt8)
  | seekp (pos : Int64)
  | seekpFrom (off : Int64) (dir : SeekDir)
  | tellp
deriving DecidableEq

section

variable {σ τ : Type} (b : StreamBuffer σ)

/-- The part of a buffer that is for reading. -/
def StreamBuffer.input : InputStream.StreamBuffer σ where
  sbumpc := b.sbumpc
  seekpos s pos := b.seekpos s pos .in
  seekoff s off dir := b.seekoff s off dir .in

/-- A write of a stream: whether all has been written, and the buffer then. -/
def write (s : StreamState σ) (answer : Bool × σ) : StreamResult × StreamState σ :=
  if s.eofbit || s.failbit then result s.buffer s.eofbit s.failbit [] none
  else result answer.2 s.eofbit (!answer.1) [] none

/-- A seek to a position to write to. -/
def seekp (s : StreamState σ) (answer : Option ℕ × σ) : StreamResult × StreamState σ :=
  if s.failbit then result s.buffer s.eofbit true [] none
  else result answer.2 s.eofbit answer.1.isNone [] none

/-- The position to write to. -/
def tellp (s : StreamState σ) (answer : Option ℕ × σ) : StreamResult × StreamState σ :=
  if s.failbit then result s.buffer s.eofbit true [] none
  else result answer.2 s.eofbit false [] answer.1

/-- One operation. -/
def call (s : StreamState σ) : StreamCall → StreamResult × StreamState σ
  | .input c => InputStream.call b.input s c
  | .put byte => write s (b.sputc s.buffer byte)
  | .write bytes =>
    let answer := b.sputn s.buffer bytes
    write s (decide (answer.1 = bytes.length), answer.2)
  | .seekp pos => seekp s (b.seekpos s.buffer pos .out)
  | .seekpFrom off dir => seekp s (b.seekoff s.buffer off dir .out)
  | .tellp => tellp s (b.seekoff s.buffer 0 .cur .out)

/-- A sequence of operations: their results, and the stream afterwards. -/
def run : StreamState σ → List StreamCall → List StreamResult × StreamState σ
  | s, [] => ([], s)
  | s, c :: calls =>
    let rest := run (call b s c).2 calls
    ((call b s c).1 :: rest.1, rest.2)

/-! ### The stream over given contents -/

/-- Contents that bytes are written over, or behind. -/
def overwrite (contents : List UInt8) (position : ℕ) (bytes : List UInt8) : List UInt8 :=
  contents.take position ++ bytes ++ contents.drop (position + bytes.length)

lemma length_overwrite {contents : List UInt8} {position : ℕ} (h : position ≤ contents.length)
    (bytes : List UInt8) :
    (overwrite contents position bytes).length =
      max contents.length (position + bytes.length) := by
  rw [overwrite, List.length_append, List.length_append, List.length_take, List.length_drop]
  omega

lemma le_length_overwrite (contents : List UInt8) (position : ℕ) (bytes : List UInt8) :
    contents.length ≤ (overwrite contents position bytes).length := by
  rw [overwrite, List.length_append, List.length_append, List.length_take, List.length_drop]
  omega

/-- A buffer in memory. -/
structure StringBuf where
  contents : List UInt8
  /-- The position to read from. -/
  get : ℕ
  /-- The position to write to. -/
  put : ℕ
deriving DecidableEq

namespace StringBuf

/-- Goes to a position in the contents, or stays. -/
def moveTo (s : StringBuf) (target : ℤ) : OpenMode → Option ℕ × StringBuf
  | .in =>
    let answer := goTo s.contents s.get target
    (answer.1, { s with get := answer.2 })
  | .out =>
    let answer := goTo s.contents s.put target
    (answer.1, { s with put := answer.2 })

/-- The position of a mode. -/
def position (s : StringBuf) : OpenMode → ℕ
  | .in => s.get
  | .out => s.put

/-- The target of a relative position. -/
def target (s : StringBuf) (off : Int64) (dir : SeekDir) (which : OpenMode) : ℤ :=
  match dir with
  | .beg => off.toInt
  | .cur => s.position which + off.toInt
  | .end => s.contents.length + off.toInt

/-- The functions of the buffer. -/
def streamBuffer : StreamBuffer StringBuf where
  sbumpc s :=
    match s.contents[s.get]? with
    | some byte => (some byte, { s with get := s.get + 1 })
    | none => (none, s)
  sputc s byte :=
    (true, { s with contents := overwrite s.contents s.put [byte], put := s.put + 1 })
  sputn s bytes :=
    (bytes.length,
      { s with contents := overwrite s.contents s.put bytes, put := s.put + bytes.length })
  seekpos s pos which := s.moveTo pos.toInt which
  seekoff s off dir which := s.moveTo (s.target off dir which) which

end StringBuf

/-- How many bytes an operation writes. -/
def written : StreamCall → ℕ
  | .put _ => 1
  | .write bytes => bytes.length
  | _ => 0

namespace StringBuf

lemma contents_moveTo (s : StringBuf) (target : ℤ) (which : OpenMode) :
    (s.moveTo target which).2.contents = s.contents := by
  cases which <;> rfl

lemma contents_sgetn (n : ℕ) (s : StringBuf) :
    (sgetn streamBuffer.input n s).2.contents = s.contents := by
  induction n generalizing s with
  | zero => rfl
  | succ n ih =>
    rw [sgetn]
    cases hbyte : s.contents[s.get]? with
    | none =>
      have hsbumpc : streamBuffer.input.sbumpc s = (none, s) := by
        rw [StreamBuffer.input, streamBuffer]
        dsimp only
        rw [hbyte]
      rw [hsbumpc]
    | some byte =>
      have hsbumpc : streamBuffer.input.sbumpc s = (some byte, { s with get := s.get + 1 }) := by
        rw [StreamBuffer.input, streamBuffer]
        dsimp only
        rw [hbyte]
      rw [hsbumpc]
      exact ih _

/-- Operations that read leave the contents. -/
lemma contents_input (s : StreamState StringBuf) (c : InputStream.StreamCall) :
    (InputStream.call streamBuffer.input s c).2.buffer.contents = s.buffer.contents := by
  cases c with
  | read n =>
    rw [InputStream.call]
    split
    · rfl
    · exact contents_sgetn n s.buffer
  | seekg pos =>
    rw [InputStream.call]
    split
    · rfl
    · exact contents_moveTo ..
  | seekgFrom off dir =>
    rw [InputStream.call]
    split
    · rfl
    · exact contents_moveTo ..
  | tellg =>
    rw [InputStream.call]
    split
    · rfl
    · exact contents_moveTo ..
  | clear => rfl

/-- The contents grow by at most what is written. -/
lemma length_call_le {s : StreamState StringBuf} (h : s.buffer.put ≤ s.buffer.contents.length)
    (c : StreamCall) :
    (call streamBuffer s c).2.buffer.contents.length ≤
      s.buffer.contents.length + written c := by
  have hwrite : ∀ bytes : List UInt8, (overwrite s.buffer.contents s.buffer.put bytes).length ≤
      s.buffer.contents.length + bytes.length := by
    intro bytes
    rw [length_overwrite h]
    omega
  cases c with
  | input c => exact (congrArg List.length (contents_input s c)).le
  | put byte =>
    rw [call, write]
    split
    · exact Nat.le_add_right _ _
    · exact hwrite [byte]
  | write bytes =>
    rw [call, write]
    split
    · exact Nat.le_add_right _ _
    · exact hwrite bytes
  | seekp pos =>
    rw [call, seekp]
    split
    · exact le_rfl
    · exact (congrArg List.length (contents_moveTo ..)).le
  | seekpFrom off dir =>
    rw [call, seekp]
    split
    · exact le_rfl
    · exact (congrArg List.length (contents_moveTo ..)).le
  | tellp =>
    rw [call, tellp]
    split
    · exact le_rfl
    · exact (congrArg List.length (contents_moveTo ..)).le

end StringBuf

/-! ### Simulation -/

/-- What two buffers are asked by an operation they answer alike. -/
def CallsAlike (b : StreamBuffer σ) (b' : StreamBuffer τ) (R : σ → τ → Prop) (s : σ) (t : τ) :
    StreamCall → Prop
  | .input c => InputStream.CallsAlike b.input b'.input R s t c
  | .put byte => Alike R (b.sputc s byte) (b'.sputc t byte)
  | .write bytes => Alike R (b.sputn s bytes) (b'.sputn t bytes)
  | .seekp pos => Alike R (b.seekpos s pos .out) (b'.seekpos t pos .out)
  | .seekpFrom off dir => Alike R (b.seekoff s off dir .out) (b'.seekoff t off dir .out)
  | .tellp => Alike R (b.seekoff s 0 .cur .out) (b'.seekoff t 0 .cur .out)

/-- Whether a stream asks its buffer. -/
def asks (s : StreamState σ) : StreamCall → Bool
  | .input c => InputStream.asks s c
  | .put _ => !(s.eofbit || s.failbit)
  | .write _ => !(s.eofbit || s.failbit)
  | .seekp _ => !s.failbit
  | .seekpFrom _ _ => !s.failbit
  | .tellp => !s.failbit

lemma write_alike {R : σ → τ → Prop} {s : StreamState σ} {t : StreamState τ}
    (h : StreamsAlike R s t) {answer : Bool × σ} {answer' : Bool × τ}
    (hasks : (!(s.eofbit || s.failbit)) = true → Alike R answer answer') :
    ResultsAlike R (write s answer) (write t answer') := by
  rw [write, write, ← h.eofbit, ← h.failbit]
  by_cases hflags : s.eofbit || s.failbit
  · rw [if_pos hflags, if_pos hflags]
    exact result_alike h.buffer _ _ _ _
  · rw [if_neg hflags, if_neg hflags]
    obtain ⟨hanswer, hR⟩ := hasks (by rw [Bool.eq_false_of_not_eq_true hflags]; rfl)
    rw [hanswer]
    exact result_alike hR _ _ _ _

lemma seekp_alike {R : σ → τ → Prop} {s : StreamState σ} {t : StreamState τ}
    (h : StreamsAlike R s t) {answer : Option ℕ × σ} {answer' : Option ℕ × τ}
    (hasks : (!s.failbit) = true → Alike R answer answer') :
    ResultsAlike R (seekp s answer) (seekp t answer') := by
  rw [seekp, seekp, ← h.eofbit, ← h.failbit]
  by_cases hflag : s.failbit
  · rw [if_pos hflag, if_pos hflag]
    exact result_alike h.buffer _ _ _ _
  · rw [if_neg hflag, if_neg hflag]
    obtain ⟨hanswer, hR⟩ := hasks (by rw [Bool.eq_false_of_not_eq_true hflag]; rfl)
    rw [hanswer]
    exact result_alike hR _ _ _ _

lemma tellp_alike {R : σ → τ → Prop} {s : StreamState σ} {t : StreamState τ}
    (h : StreamsAlike R s t) {answer : Option ℕ × σ} {answer' : Option ℕ × τ}
    (hasks : (!s.failbit) = true → Alike R answer answer') :
    ResultsAlike R (tellp s answer) (tellp t answer') := by
  rw [tellp, tellp, ← h.eofbit, ← h.failbit]
  by_cases hflag : s.failbit
  · rw [if_pos hflag, if_pos hflag]
    exact result_alike h.buffer _ _ _ _
  · rw [if_neg hflag, if_neg hflag]
    obtain ⟨hanswer, hR⟩ := hasks (by rw [Bool.eq_false_of_not_eq_true hflag]; rfl)
    rw [hanswer]
    exact result_alike hR _ _ _ _

/-- **One operation**, of which the buffers answer what they are asked alike. -/
lemma call_alike {b : StreamBuffer σ} {b' : StreamBuffer τ} {R : σ → τ → Prop}
    {s : StreamState σ} {t : StreamState τ} (h : StreamsAlike R s t) {c : StreamCall}
    (hasks : asks s c = true → CallsAlike b b' R s.buffer t.buffer c) :
    ResultsAlike R (call b s c) (call b' t c) := by
  cases c with
  | input c => exact InputStream.call_alike h hasks
  | put byte => exact write_alike h hasks
  | write bytes =>
    apply write_alike h
    intro hflags
    obtain ⟨hanswer, hR⟩ := hasks hflags
    exact ⟨by rw [hanswer], hR⟩
  | seekp pos => exact seekp_alike h hasks
  | seekpFrom off dir => exact seekp_alike h hasks
  | tellp => exact tellp_alike h hasks

end

end ReadWriteStream

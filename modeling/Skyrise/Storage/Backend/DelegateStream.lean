/-
The stream over a byte buffer.

`DelegateStreamBuffer` reads and writes the bytes of a byte buffer.  When it is written behind
the end of the buffer, the buffer grows and may move to other memory, so the positions are
taken relative to the start of the buffer before, and the pointers are set anew afterwards.  A
seek that is relative to the end goes as far behind it as it should go before it: the offset
is subtracted from the size of the buffer.
-/
import Skyrise.Storage.Backend.Stream
import Skyrise.Storage.IoHandle.ByteBuffer

namespace Skyrise

open ReadWriteStream
open InputStream (SeekDir StreamState StreamsAlike ResultsAlike Alike goTo)
open ObjectReaderStreamBuffer (sizeOf64 toInt_bounds)

/-! ### The stream buffer -/

/-- `DelegateStreamBuffer`, with its pointers relative to the start of the byte buffer. -/
structure DelegateStreamBuffer where
  /-- `buffer_`. -/
  buffer : ByteBuffer
  gptr : ℕ
  egptr : ℕ
  pptr : ℕ
  epptr : ℕ

namespace DelegateStreamBuffer

/-- `Reset`, which is also the constructor. -/
def reset (buffer : ByteBuffer) : DelegateStreamBuffer := ⟨buffer, 0, buffer.size, 0, 0⟩

/-- `xsputn`. -/
def xsputn (s : DelegateStreamBuffer) (bytes : List UInt8) : ℕ × DelegateStreamBuffer :=
  let writeOffset := s.pptr
  let readOffset := s.gptr
  let resultingWriteOffset := writeOffset + bytes.length
  let buffer :=
    if resultingWriteOffset > s.buffer.size then s.buffer.resizeData resultingWriteOffset
    else s.buffer
  let buffer := buffer.copyN bytes writeOffset
  (bytes.length, ⟨buffer, readOffset, buffer.size, writeOffset + bytes.length, buffer.size⟩)

/-- `overflow` of a byte, which is not the end of the file. -/
def overflow (s : DelegateStreamBuffer) (ch : UInt8) : Bool × DelegateStreamBuffer :=
  (true, (s.xsputn [ch]).2)

/-- `sputc` of a stream buffer. -/
def sputc (s : DelegateStreamBuffer) (byte : UInt8) : Bool × DelegateStreamBuffer :=
  if s.pptr < s.epptr then
    (true, { s with buffer := s.buffer.copyN [byte] s.pptr, pptr := s.pptr + 1 })
  else overflow s byte

/-- `sbumpc` of a stream buffer that has no `underflow`. -/
def sbumpc (s : DelegateStreamBuffer) : Option UInt8 × DelegateStreamBuffer :=
  if s.gptr < s.egptr then (s.buffer.data[s.gptr]?, { s with gptr := s.gptr + 1 }) else (none, s)

/-- `seekpos`, with the position as a `size_t`. -/
def seekTo (s : DelegateStreamBuffer) (newPosition : ℕ) (isIn isOut : Bool) :
    Option ℕ × DelegateStreamBuffer :=
  let maxPosition := s.buffer.size
  if newPosition > maxPosition then (none, s)
  else
    let s := if isIn then { s with gptr := newPosition, egptr := maxPosition } else s
    let s := if isOut then { s with pptr := newPosition, epptr := maxPosition } else s
    (some newPosition, s)

/-- `seekpos`. -/
def seekpos (s : DelegateStreamBuffer) (pos : Int64) (isIn isOut : Bool) :
    Option ℕ × DelegateStreamBuffer :=
  seekTo s (sizeOf64 pos.toInt) isIn isOut

/-- `seekoff`. -/
def seekoff (s : DelegateStreamBuffer) (off : Int64) (dir : SeekDir) (isIn isOut : Bool) :
    Option ℕ × DelegateStreamBuffer :=
  match dir with
  | .beg => seekTo s (sizeOf64 off.toInt) isIn isOut
  | .end => seekTo s (sizeOf64 (s.buffer.size - off.toInt)) isIn isOut
  | .cur =>
    let answer : Option ℕ × DelegateStreamBuffer := (none, s)
    let answer :=
      if isIn then seekTo answer.2 (sizeOf64 (answer.2.gptr + off.toInt)) true false else answer
    if isOut then seekTo answer.2 (sizeOf64 (answer.2.pptr + off.toInt)) false true else answer

/-- The functions of the stream buffer. -/
def streamBuffer : StreamBuffer DelegateStreamBuffer where
  sbumpc := sbumpc
  sputc := sputc
  sputn := xsputn
  seekpos s pos which := seekpos s pos (which == .in) (which == .out)
  seekoff s off dir which := seekoff s off dir (which == .in) (which == .out)

/-! ### The two areas -/

/-- A stream buffer whose areas are those of a buffer in memory. -/
structure Stands (s : DelegateStreamBuffer) (t : StringBuf) : Prop where
  data : s.buffer.data = t.contents
  gptr : s.gptr = t.get
  pptr : s.pptr = t.put
  egptr : s.egptr = s.buffer.size
  epptr : s.epptr ≤ s.buffer.size
  gptr_le : s.gptr ≤ s.buffer.size
  pptr_le : s.pptr ≤ s.buffer.size

variable {s : DelegateStreamBuffer} {t : StringBuf}

lemma Stands.size (h : Stands s t) : s.buffer.size = t.contents.length := by
  rw [← ByteBuffer.length_data, h.data]

/-- A new stream buffer is at the start of the contents, in both areas. -/
lemma stands_reset (buffer : ByteBuffer) : Stands (reset buffer) ⟨buffer.data, 0, 0⟩ where
  data := rfl
  gptr := rfl
  pptr := rfl
  egptr := rfl
  epptr := Nat.zero_le _
  gptr_le := Nat.zero_le _
  pptr_le := Nat.zero_le _

lemma overwrite_of_take {contents contents' : List UInt8} {position : ℕ} {bytes : List UInt8}
    (hposition : position ≤ contents.length) (hlength : contents'.length = position + bytes.length)
    (hle : contents.length ≤ contents'.length)
    (h : contents'.take contents.length = contents) :
    overwrite contents' position bytes = overwrite contents position bytes := by
  have htake : contents'.take position = contents.take position := by
    rw [← h, List.take_take, min_eq_left hposition]
  rw [overwrite, overwrite, htake, List.drop_of_length_le hlength.le,
    List.drop_of_length_le (hle.trans hlength.le)]

/-- The areas after bytes have been written. -/
lemma xsputn_alike (h : Stands s t) (bytes : List UInt8) :
    Alike Stands (s.xsputn bytes) (StringBuf.streamBuffer.sputn t bytes) := by
  refine ⟨rfl, ?_⟩
  have hsize := h.size
  have hgptr := h.gptr_le
  have hpptr := h.pptr_le
  -- the byte buffer, which may have grown, is large enough
  obtain ⟨buffer, hbuffer, hlarge, hdata⟩ : ∃ buffer : ByteBuffer,
      buffer = (if s.pptr + bytes.length > s.buffer.size then
        s.buffer.resizeData (s.pptr + bytes.length) else s.buffer) ∧
      s.pptr + bytes.length ≤ buffer.size ∧
      overwrite buffer.data s.pptr bytes = overwrite s.buffer.data s.pptr bytes := by
    refine ⟨_, rfl, ?_⟩
    by_cases hgrows : s.pptr + bytes.length > s.buffer.size
    · rw [if_pos hgrows]
      obtain ⟨hnewSize, htake⟩ := s.buffer.resizeData_spec hgrows.le
      refine ⟨hnewSize.ge, overwrite_of_take ?_ ?_ ?_ ?_⟩
      · rwa [ByteBuffer.length_data]
      · rwa [ByteBuffer.length_data]
      · rw [ByteBuffer.length_data, ByteBuffer.length_data, hnewSize]
        exact hgrows.le
      · rwa [ByteBuffer.length_data]
    · rw [if_neg hgrows]
      exact ⟨not_lt.mp hgrows, rfl⟩
  have hwritten : (buffer.copyN bytes s.pptr).data = overwrite t.contents t.put bytes := by
    rw [buffer.data_copyN hlarge, hdata, h.data, h.pptr]
  have hnewSize : (buffer.copyN bytes s.pptr).size =
      max t.contents.length (t.put + bytes.length) := by
    rw [← ByteBuffer.length_data, hwritten, length_overwrite]
    rw [← h.pptr, ← hsize]
    exact hpptr
  have hput := h.pptr
  have hxsputn : (s.xsputn bytes).2 = ⟨buffer.copyN bytes s.pptr, s.gptr,
      (buffer.copyN bytes s.pptr).size, s.pptr + bytes.length,
      (buffer.copyN bytes s.pptr).size⟩ := by
    rw [xsputn, hbuffer]
  rw [hxsputn]
  exact ⟨hwritten, h.gptr, congrArg (· + bytes.length) hput, rfl, le_rfl, by dsimp only; omega,
    by dsimp only; omega⟩

lemma sputc_alike (h : Stands s t) (byte : UInt8) :
    Alike Stands (s.sputc byte) (StringBuf.streamBuffer.sputc t byte) := by
  rw [sputc]
  by_cases hin : s.pptr < s.epptr
  · -- a byte of the put area is replaced
    rw [if_pos hin]
    refine ⟨rfl, ?_⟩
    have hlarge : s.pptr + [byte].length ≤ s.buffer.size := hin.trans_le h.epptr
    have hwritten : (s.buffer.copyN [byte] s.pptr).data = overwrite t.contents t.put [byte] := by
      rw [s.buffer.data_copyN hlarge, h.data, h.pptr]
    have hnewSize : (s.buffer.copyN [byte] s.pptr).size = s.buffer.size := by
      rw [← ByteBuffer.length_data, s.buffer.data_copyN hlarge, length_overwrite,
        ByteBuffer.length_data, max_eq_left hlarge]
      rw [ByteBuffer.length_data]
      exact h.pptr_le
    refine ⟨hwritten, h.gptr, congrArg (· + 1) h.pptr, ?_, ?_, ?_, ?_⟩
    · exact h.egptr.trans hnewSize.symm
    · exact h.epptr.trans hnewSize.ge
    · exact h.gptr_le.trans hnewSize.ge
    · exact hlarge.trans hnewSize.ge
  · rw [if_neg hin]
    exact ⟨rfl, (xsputn_alike h [byte]).2⟩

lemma sbumpc_alike (h : Stands s t) :
    Alike Stands s.sbumpc (StringBuf.streamBuffer.sbumpc t) := by
  have hsize := h.size
  have hegptr := h.egptr
  have hgptr := h.gptr
  rw [sbumpc]
  by_cases hin : s.gptr < s.egptr
  · have hlt : t.get < t.contents.length := by omega
    have hsbumpc : StringBuf.streamBuffer.sbumpc t =
        (some t.contents[t.get], { t with get := t.get + 1 }) := by
      rw [StringBuf.streamBuffer]
      dsimp only
      rw [List.getElem?_eq_getElem hlt]
    rw [if_pos hin, hsbumpc]
    refine ⟨?_, h.data, congrArg (· + 1) hgptr, h.pptr, hegptr, h.epptr, ?_, h.pptr_le⟩
    · rw [h.data, hgptr]
      exact List.getElem?_eq_getElem hlt
    · dsimp only
      omega
  · have hsbumpc : StringBuf.streamBuffer.sbumpc t = (none, t) := by
      rw [StringBuf.streamBuffer]
      dsimp only
      rw [List.getElem?_eq_none (by omega)]
    rw [if_neg hin, hsbumpc]
    exact ⟨rfl, h⟩

/-! ### Seeks -/

/-- A seek to a position of one area. -/
lemma seekTo_alike (h : Stands s t) (hsize : t.contents.length < 2 ^ 63) (which : OpenMode) {x : ℤ}
    (hx : -2 ^ 63 ≤ x) (hlt : x < 2 ^ 64) :
    Alike Stands (s.seekTo (sizeOf64 x) (which == .in) (which == .out)) (t.moveTo x which) := by
  obtain ⟨hiff, heq⟩ := ObjectReaderStreamBuffer.sizeOf64_spec ⟨t.contents, hsize⟩ hx hlt
  rw [seekTo]
  dsimp only at hiff ⊢
  rw [h.size]
  by_cases hin : 0 ≤ x ∧ x ≤ t.contents.length
  · have htarget := hiff.mpr hin
    rw [if_neg (not_lt.mpr htarget), heq hin.1]
    rw [heq hin.1] at htarget
    cases which with
    | «in» =>
      have hmove : t.moveTo x .in = (some x.toNat, { t with get := x.toNat }) := by
        rw [StringBuf.moveTo, goTo, if_pos hin]
      rw [hmove]
      exact ⟨rfl, h.data, rfl, h.pptr, h.size.symm, h.epptr, htarget.trans h.size.ge, h.pptr_le⟩
    | out =>
      have hmove : t.moveTo x .out = (some x.toNat, { t with put := x.toNat }) := by
        rw [StringBuf.moveTo, goTo, if_pos hin]
      rw [hmove]
      exact ⟨rfl, h.data, h.gptr, rfl, h.egptr, h.size.ge, h.gptr_le, htarget.trans h.size.ge⟩
  · have hmove : t.moveTo x which = (none, t) := by
      cases which <;> rw [StringBuf.moveTo, goTo, if_neg hin]
    rw [if_pos (not_le.mp (mt hiff.mp hin)), hmove]
    exact ⟨rfl, h⟩

/-- A seek that is relative to the end, and does not depend on the sign of the offset. -/
def EndsWell (size : ℕ) (off : Int64) : Prop := off.toInt = 0 ∨ size < off.toInt.natAbs

lemma seekoff_alike (h : Stands s t) (hsize : t.contents.length < 2 ^ 63) (off : Int64)
    (dir : SeekDir) (which : OpenMode) (hend : dir = .end → EndsWell t.contents.length off) :
    Alike Stands (s.seekoff off dir (which == .in) (which == .out))
      (StringBuf.streamBuffer.seekoff t off dir which) := by
  obtain ⟨hoff, hoff'⟩ := toInt_bounds off
  have hlength := h.size
  have hget := h.gptr_le
  have hput := h.pptr_le
  cases dir with
  | beg => exact seekTo_alike h hsize which hoff (by omega)
  | cur =>
    cases which with
    | «in» =>
      have hseek := seekTo_alike h hsize .in (show -2 ^ 63 ≤ s.gptr + off.toInt by omega) (by omega)
      rw [h.gptr] at hseek
      show Alike Stands (s.seekTo (sizeOf64 (s.gptr + off.toInt)) true false) _
      rw [h.gptr]
      exact hseek
    | out =>
      have hseek := seekTo_alike h hsize .out (show -2 ^ 63 ≤ s.pptr + off.toInt by omega)
        (by omega)
      rw [h.pptr] at hseek
      show Alike Stands (s.seekTo (sizeOf64 (s.pptr + off.toInt)) false true) _
      rw [h.pptr]
      exact hseek
  | «end» =>
    have hseek := seekTo_alike h hsize which
      (show -2 ^ 63 ≤ t.contents.length - off.toInt by omega) (by omega)
    show Alike Stands (s.seekTo (sizeOf64 (s.buffer.size - off.toInt)) _ _)
      (t.moveTo (t.contents.length + off.toInt) which)
    rw [hlength]
    rcases hend rfl with hzero | hfar
    · rw [hzero, sub_zero] at hseek
      rw [hzero, sub_zero, add_zero]
      exact hseek
    · -- neither of the positions exists
      have hmove : ∀ x : ℤ, ¬ (0 ≤ x ∧ x ≤ t.contents.length) → t.moveTo x which = (none, t) := by
        intro x hx
        cases which <;> rw [StringBuf.moveTo, goTo, if_neg hx]
      rw [hmove (t.contents.length - off.toInt) (by omega)] at hseek
      rw [hmove (t.contents.length + off.toInt) (by omega)]
      exact hseek

/-- A seek that is relative to the end, and goes to where it should: there is no other one. -/
lemma endsWell_of_seekoff (h : Stands s t) (hsize : t.contents.length < 2 ^ 63) (off : Int64)
    (which : OpenMode)
    (heq : (s.seekoff off .end (which == .in) (which == .out)).1.isNone =
      (StringBuf.streamBuffer.seekoff t off .end which).1.isNone) :
    EndsWell t.contents.length off := by
  obtain ⟨hoff, hoff'⟩ := toInt_bounds off
  have hlength := h.size
  have hseek := (seekTo_alike h hsize which
    (show -2 ^ 63 ≤ t.contents.length - off.toInt by omega) (by omega)).1
  have hdelegate : (s.seekoff off .end (which == .in) (which == .out)).1 =
      (t.moveTo (t.contents.length - off.toInt) which).1 := by
    rw [← hseek, ← hlength]
    rfl
  have hexists : ∀ x : ℤ, (t.moveTo x which).1.isNone = true ↔
      ¬ (0 ≤ x ∧ x ≤ t.contents.length) := by
    intro x
    by_cases hx : 0 ≤ x ∧ x ≤ t.contents.length
    · cases which <;> simp [StringBuf.moveTo, goTo, hx]
    · cases which <;> rw [StringBuf.moveTo, goTo, if_neg hx] <;> simp [hx]
  have hiff : ¬ (0 ≤ (t.contents.length : ℤ) - off.toInt ∧
      (t.contents.length : ℤ) - off.toInt ≤ t.contents.length) ↔
      ¬ (0 ≤ (t.contents.length : ℤ) + off.toInt ∧
        (t.contents.length : ℤ) + off.toInt ≤ t.contents.length) := by
    rw [← hexists, ← hexists, ← hdelegate, heq]
    rfl
  rw [EndsWell]
  omega

/-! ### Sequences of operations -/

/-- A seek that is made relative to the end of contents of a size, if any, is right. -/
def SeeksWell (t : StreamState StringBuf) : StreamCall → Prop
  | .input (.seekgFrom off .end) => t.failbit = false → EndsWell t.buffer.contents.length off
  | .seekpFrom off .end => t.failbit = false → EndsWell t.buffer.contents.length off
  | _ => True

/-- All such seeks of a sequence are right. -/
def RunSeeksWell : StreamState StringBuf → List StreamCall → Prop
  | _, [] => True
  | t, c :: calls => SeeksWell t c ∧ RunSeeksWell (call StringBuf.streamBuffer t c).2 calls

variable {u : StreamState DelegateStreamBuffer} {v : StreamState StringBuf}

lemma readsWell_true (n : ℕ) (s : DelegateStreamBuffer) :
    InputStream.ReadsWell streamBuffer.input (fun _ => True) n s := by
  induction n generalizing s with
  | zero => trivial
  | succ n ih =>
    refine ⟨trivial, ?_⟩
    rcases streamBuffer.input.sbumpc s with ⟨byte, s'⟩
    cases byte with
    | none => trivial
    | some byte => exact ih s'

/-- **One operation**, of which an end-relative seek is right. -/
lemma call_stands (h : StreamsAlike Stands u v) (hsize : v.buffer.contents.length < 2 ^ 63)
    {c : StreamCall} (hwell : SeeksWell v c) :
    ResultsAlike Stands (call streamBuffer u c) (call StringBuf.streamBuffer v c) := by
  apply call_alike h
  intro hasks
  cases c with
  | input c =>
    cases c with
    | read n =>
      exact InputStream.sgetn_alike (R := Stands) (fun hR _ => sbumpc_alike hR) h.buffer
        (readsWell_true n _)
    | seekg pos =>
      obtain ⟨hpos, hpos'⟩ := toInt_bounds pos
      exact seekTo_alike h.buffer hsize .in hpos (by omega)
    | seekgFrom off dir =>
      apply seekoff_alike h.buffer hsize off dir .in
      rintro rfl
      exact hwell (by simpa [asks, InputStream.asks, h.failbit] using hasks)
    | tellg => exact seekoff_alike h.buffer hsize 0 .cur .in fun hdir => by cases hdir
    | clear => trivial
  | put byte => exact sputc_alike h.buffer byte
  | write bytes => exact xsputn_alike h.buffer bytes
  | seekp pos =>
    obtain ⟨hpos, hpos'⟩ := toInt_bounds pos
    exact seekTo_alike h.buffer hsize .out hpos (by omega)
  | seekpFrom off dir =>
    apply seekoff_alike h.buffer hsize off dir .out
    rintro rfl
    exact hwell (by simpa [asks, h.failbit] using hasks)
  | tellp => exact seekoff_alike h.buffer hsize 0 .cur .out fun hdir => by cases hdir

/-- An operation with the result that it should have: an end-relative seek is right. -/
lemma seeksWell_of_result_eq (h : StreamsAlike Stands u v)
    (hsize : v.buffer.contents.length < 2 ^ 63) {c : StreamCall}
    (heq : (call streamBuffer u c).1 = (call StringBuf.streamBuffer v c).1) : SeeksWell v c := by
  have hfail := congrArg InputStream.StreamResult.failbit heq
  cases c with
  | input c =>
    cases c with
    | seekgFrom off dir =>
      cases dir with
      | «end» =>
        intro hflag
        rw [call, call, InputStream.call, InputStream.call, h.failbit, hflag,
          if_neg Bool.false_ne_true, if_neg Bool.false_ne_true] at hfail
        exact endsWell_of_seekoff h.buffer hsize off .in hfail
      | beg => trivial
      | cur => trivial
    | read n => trivial
    | seekg pos => trivial
    | tellg => trivial
    | clear => trivial
  | seekpFrom off dir =>
    cases dir with
    | «end» =>
      intro hflag
      rw [call, call, seekp, seekp, h.failbit, hflag, if_neg Bool.false_ne_true,
        if_neg Bool.false_ne_true] at hfail
      exact endsWell_of_seekoff h.buffer hsize off .out hfail
    | beg => trivial
    | cur => trivial
  | put byte => trivial
  | write bytes => trivial
  | seekp pos => trivial
  | tellp => trivial

/-- **Sequences of operations** have the same results, and come to the same bytes, if and only
if all end-relative seeks are right. -/
lemma run_stands_iff (h : StreamsAlike Stands u v) {calls : List StreamCall}
    (hsize : v.buffer.contents.length + (calls.map written).sum < 2 ^ 63) :
    ((run streamBuffer u calls).1 = (run StringBuf.streamBuffer v calls).1 ∧
      (run streamBuffer u calls).2.buffer.buffer.data =
        (run StringBuf.streamBuffer v calls).2.buffer.contents) ↔ RunSeeksWell v calls := by
  induction calls generalizing u v with
  | nil => exact ⟨fun _ => trivial, fun _ => ⟨rfl, h.buffer.data⟩⟩
  | cons c calls ih =>
    rw [List.map_cons, List.sum_cons] at hsize
    have hput : v.buffer.put ≤ v.buffer.contents.length := by
      rw [← h.buffer.pptr, ← h.buffer.size]
      exact h.buffer.pptr_le
    have hlength := StringBuf.length_call_le hput c
    -- the rest, from streams that are alike
    have hrest : ∀ hwell : SeeksWell v c, _ := fun hwell =>
      ih (call_stands h (by omega) hwell).2 (by omega)
    rw [run, run, RunSeeksWell]
    constructor
    · rintro ⟨hresults, hdata⟩
      obtain ⟨hresult, hresults⟩ := List.cons.inj hresults
      have hwell := seeksWell_of_result_eq h (by omega) hresult
      exact ⟨hwell, (hrest hwell).mp ⟨hresults, hdata⟩⟩
    · rintro ⟨hwell, hcalls⟩
      obtain ⟨hresults, hdata⟩ := (hrest hwell).mpr hcalls
      exact ⟨congrArg₂ List.cons (call_stands h (by omega) hwell).1 hresults, hdata⟩

/-- The stream over a byte buffer. -/
def stream (buffer : ByteBuffer) : StreamState DelegateStreamBuffer := { buffer := reset buffer }

/-- The stream over a copy of its bytes. -/
def stringStream (buffer : ByteBuffer) : StreamState StringBuf :=
  { buffer := ⟨buffer.data, 0, 0⟩ }

/-- A stream over a byte buffer answers like one over a copy of its bytes, and leaves the same
bytes. -/
def ActsAsStringStream (buffer : ByteBuffer) (calls : List StreamCall) : Prop :=
  (run streamBuffer (stream buffer) calls).1 =
      (run StringBuf.streamBuffer (stringStream buffer) calls).1 ∧
    (run streamBuffer (stream buffer) calls).2.buffer.buffer.data =
      (run StringBuf.streamBuffer (stringStream buffer) calls).2.buffer.contents

/-- **A stream over a byte buffer** acts as one over a copy of its bytes, if and only if no seek
relative to the end has an offset that is not zero and at most the size.  The bytes fit into
memory. -/
theorem actsAsStringStream_iff (buffer : ByteBuffer) (calls : List StreamCall)
    (hsize : buffer.size + (calls.map written).sum < 2 ^ 63) :
    ActsAsStringStream buffer calls ↔ RunSeeksWell (stringStream buffer) calls := by
  refine run_stands_iff ⟨stands_reset buffer, rfl, rfl⟩ ?_
  rw [← buffer.length_data] at hsize
  exact hsize

/-- A byte is written behind two, and the first two are read. -/
theorem actsAsStringStream_append :
    ActsAsStringStream (.ofMemory [1, 2]) [.seekpFrom 0 .end, .put 3, .input (.read 2)] :=
  (actsAsStringStream_iff (.ofMemory [1, 2]) [.seekpFrom 0 .end, .put 3, .input (.read 2)]
    (by decide)).mpr ⟨fun _ => .inl rfl, trivial, trivial, trivial⟩

/-- The last of two bytes is not found from the end. -/
theorem not_actsAsStringStream_lastByte :
    ¬ ActsAsStringStream (.ofMemory [1, 2]) [.input (.seekgFrom (-1) .end), .input (.read 1)] := by
  rintro ⟨hresults, -⟩
  exact absurd hresults (by decide)

end DelegateStreamBuffer

end Skyrise

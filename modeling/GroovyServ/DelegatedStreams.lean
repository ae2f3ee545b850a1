import GroovyServ.DelegatedPrintStream
import GroovyServ.StepSystem

/-!
# The standard streams of a script

`DynamicDelegatedInputStream` stands for `System.in` and passes its calls on to the
session's `StreamRequestInputStream`, which reads the pipe for standard input. With
`DynamicDelegatedPrintStream` it is compared, over sequences of calls on all three
standard streams, with the same calls on the pipe and on the session's print streams.
-/

namespace GroovyServ.Server

/-- What `read` of a `PipedInputStream` throws by itself. -/
inductive PipeFailure where
  | interruptedIo
  | io (message : Bytes)

inductive InputThrown where
  | missingMethod
  | nullPointer
  | indexOutOfBounds
  | interruptedIo
  | io (message : Bytes)

def PipeFailure.thrown : PipeFailure → InputThrown
  | interruptedIo => .interruptedIo
  | io message => .io message

/-- A `PipedInputStream` with its writer: `read` waits for a byte, `buffered` takes up to
`n` of the bytes that are there without waiting. -/
structure PipedInput (π : Type) where
  read : π → Except PipeFailure (Option UInt8) × π
  buffered : (n : ℕ) → π → { data : Bytes // data.length ≤ n } × π
  available : π → ℕ

inductive InputOp where
  | read
  | readArray (buf : Option ℕ)
  | readRange (buf : Option ℕ) (off len : ℤ)
  | skip (n : ℤ)
  | available
  | mark (readlimit : ℤ)
  | reset

inductive InputResult where
  | returned
  | number (n : ℤ)
  | data (bytes : Bytes)
  | threw (e : InputThrown)

variable {π σ : Type}

/-- What a read of a range takes from a stream; nothing at the end of the input. -/
abbrev RangeReader (σ : Type) :=
  Option ℕ → ℤ → ℤ → σ → Except InputThrown (Option Bytes) × σ

def byteResult : Except InputThrown (Option UInt8) → InputResult
  | .error e => .threw e
  | .ok none => .number (-1)
  | .ok (some b) => .number b.toNat

def rangeResult : Except InputThrown (Option Bytes) → InputResult
  | .error e => .threw e
  | .ok none => .number (-1)
  | .ok (some bytes) => .data bytes

namespace InputStream

def readArray (readRange : RangeReader σ) (buf : Option ℕ) (s : σ) :
    Except InputThrown (Option Bytes) × σ :=
  match buf with
  | none => (.error .nullPointer, s)
  | some length => readRange (some length) 0 length s

def skipLoop (readRange : RangeReader σ) (size : ℕ) :
    ℕ → ℤ → σ → Except InputThrown ℤ × σ
  | 0, remaining, s => (.ok remaining, s)
  | fuel + 1, remaining, s =>
    if remaining ≤ 0 then (.ok remaining, s)
    else
      match readRange (some size) 0 (min size remaining) s with
      | (.error e, s) => (.error e, s)
      | (.ok none, s) => (.ok remaining, s)
      | (.ok (some data), s) => skipLoop readRange size fuel (remaining - data.length) s

def maxSkipBufferSize : ℕ := 2048

/-- Each round of the loop reads at least one byte. -/
def skip (readRange : RangeReader σ) (n : ℤ) (s : σ) : InputResult × σ :=
  if n ≤ 0 then (.number 0, s)
  else
    let (remaining, s) := skipLoop readRange (min maxSkipBufferSize n.toNat) n.toNat n s
    (match remaining with
      | .error e => .threw e
      | .ok remaining => .number (n - remaining), s)

def markResetNotSupported : InputThrown := .io (ascii "mark/reset not supported")

end InputStream

namespace PipedInput

variable (pipe : PipedInput π)

def readRange : RangeReader π := fun buf off len s =>
  match buf with
  | none => (.error .nullPointer, s)
  | some length =>
    if off < 0 ∨ len < 0 ∨ length - off < len then (.error .indexOutOfBounds, s)
    else if len = 0 then (.ok (some []), s)
    else
      match pipe.read s with
      | (.error e, s) => (.error e.thrown, s)
      | (.ok none, s) => (.ok none, s)
      | (.ok (some b), s) =>
        let (more, s) := pipe.buffered (len.toNat - 1) s
        (.ok (some (b :: more.val)), s)

end PipedInput

/-- An interrupted read counts as the end of the input. -/
def interruptedAsEnd {α : Type} :
    Except InputThrown (Option α) → Except InputThrown (Option α)
  | .error .interruptedIo => .ok none
  | r => r

def PipedInput.perform (pipe : PipedInput π) (s : π) : InputOp → InputResult × π
  | .read =>
    let (r, s) := pipe.read s
    (byteResult (interruptedAsEnd (r.mapError PipeFailure.thrown)), s)
  | .readArray buf =>
    let (r, s) := InputStream.readArray pipe.readRange buf s
    (rangeResult (interruptedAsEnd r), s)
  | .readRange buf off len =>
    let (r, s) := pipe.readRange buf off len s
    (rangeResult (interruptedAsEnd r), s)
  | .skip n =>
    InputStream.skip (fun buf off len s =>
      let (r, s) := pipe.readRange buf off len s
      (interruptedAsEnd r, s)) n s
  | .available => (.number (pipe.available s), s)
  | .mark _ => (.returned, s)
  | .reset => (.threw InputStream.markResetNotSupported, s)

structure StreamRequestInputStream (π : Type) where
  inputStream : π
  closed : Bool := false

namespace StreamRequestInputStream

def alreadyClosed : InputThrown := .io (ascii "Stream of channel 'in' already closed")

variable (pipe : PipedInput π)

def read (s : StreamRequestInputStream π) :
    Except InputThrown (Option UInt8) × StreamRequestInputStream π :=
  if s.closed then (.error alreadyClosed, s)
  else
    match pipe.read s.inputStream with
    | (.error .interruptedIo, p) => (.ok none, { s with inputStream := p })
    | (r, p) => (r.mapError PipeFailure.thrown, { s with inputStream := p })

def readRange : RangeReader (StreamRequestInputStream π) := fun buf off len s =>
  if s.closed then (.error alreadyClosed, s)
  else
    match pipe.readRange buf off len s.inputStream with
    | (.error .interruptedIo, p) => (.ok none, { s with inputStream := p })
    | (r, p) => (r, { s with inputStream := p })

/-- Its methods; `read(byte[])`, `skip` and `available` are those of `InputStream`. `mark`
calls the pipe's `mark` without its argument, for which Groovy finds no method. -/
def perform (s : StreamRequestInputStream π) : InputOp → InputResult × StreamRequestInputStream π
  | .read =>
    let (r, s) := s.read pipe
    (byteResult r, s)
  | .readArray buf =>
    let (r, s) := InputStream.readArray (readRange pipe) buf s
    (rangeResult r, s)
  | .readRange buf off len =>
    let (r, s) := readRange pipe buf off len s
    (rangeResult r, s)
  | .skip n => InputStream.skip (readRange pipe) n s
  | .available => (.number 0, s)
  | .mark _ => (.threw (if s.closed then alreadyClosed else .missingMethod), s)
  | .reset =>
    (.threw (if s.closed then alreadyClosed else InputStream.markResetNotSupported), s)

end StreamRequestInputStream

inductive InputMethod where
  | read
  | skip
  | available
  | mark
  | reset

inductive InputValue where
  | number (n : ℤ)
  | array (buf : Option ℕ)

def chooseInputMethod : InputMethod × List InputValue → Option InputOp
  | (.read, []) => some .read
  | (.read, [.array buf]) => some (.readArray buf)
  | (.read, [.array buf, .number off, .number len]) => some (.readRange buf off len)
  | (.skip, [.number n]) => some (.skip n)
  | (.available, []) => some .available
  | (.mark, [.number readlimit]) => some (.mark readlimit)
  | (.reset, []) => some .reset
  | _ => none

namespace DynamicDelegatedInputStream

def forward : InputOp → InputMethod × List InputValue
  | .read => (.read, [])
  | .readArray buf => (.read, [.array buf])
  | .readRange buf off len => (.read, [.array buf, .number off, .number len])
  | .skip n => (.skip, [.number n])
  | .available => (.available, [])
  | .mark _ => (.mark, [])
  | .reset => (.reset, [])

def perform (pipe : PipedInput π) (s : StreamRequestInputStream π) (op : InputOp) :
    InputResult × StreamRequestInputStream π :=
  match chooseInputMethod (forward op) with
  | none => (.threw .missingMethod, s)
  | some op => s.perform pipe op

end DynamicDelegatedInputStream

variable {ρ ε : Type}

structure SessionStreams (π : Type) where
  out : PrintStream := {}
  err : PrintStream := {}
  ins : StreamRequestInputStream π

inductive StreamCall (ρ : Type) where
  | out (op : PrintOp ρ)
  | err (op : PrintOp ρ)
  | ins (op : InputOp)

inductive StreamResult (ε : Type) where
  | printed (r : PrintResult ε)
  | read (r : InputResult)

namespace SessionStreams

variable (java : JavaRuntime ρ ε) (pipe : PipedInput π)

def delegated (s : SessionStreams π) : StreamCall ρ → StreamResult ε × SessionStreams π
  | .out op =>
    let (r, out) := DynamicDelegatedPrintStream.perform java s.out op
    (.printed r, { s with out := out })
  | .err op =>
    let (r, err) := DynamicDelegatedPrintStream.perform java s.err op
    (.printed r, { s with err := err })
  | .ins op =>
    let (r, ins) := DynamicDelegatedInputStream.perform pipe s.ins op
    (.read r, { s with ins := ins })

def direct (s : SessionStreams π) : StreamCall ρ → StreamResult ε × SessionStreams π
  | .out op =>
    let (r, out) := s.out.perform java op
    (.printed r, { s with out := out })
  | .err op =>
    let (r, err) := s.err.perform java op
    (.printed r, { s with err := err })
  | .ins op =>
    let (r, p) := pipe.perform s.ins.inputStream op
    (.read r, { s with ins := { s.ins with inputStream := p } })

end SessionStreams

def InputOp.Keeps (pipe : PipedInput π) (s : π) : InputOp → Prop
  | available => pipe.available s = 0
  | mark _ => False
  | _ => True

/-- The calls that are passed on as they are: no `append` of a character sequence, no object
that Groovy prints otherwise than Java does, no `null` for an array of characters, no
`mark`, and `available` only while nothing is available. -/
def StreamCall.Keeps (java : JavaRuntime ρ ε) (pipe : PipedInput π) (s : SessionStreams π) :
    StreamCall ρ → Prop
  | out op | err op => op.Keeps java
  | ins op => op.Keeps pipe s.ins.inputStream

section InputStreams

variable {pipe : PipedInput π}

theorem InputStream.skip_lift {τ : Type} (readRange : RangeReader σ) {readRange' : RangeReader τ}
    (lift : σ → τ) (hread : ∀ buf off len s,
      readRange' buf off len (lift s) =
        ((readRange buf off len s).1, lift (readRange buf off len s).2)) (n : ℤ) (s : σ) :
    skip readRange' n (lift s) = ((skip readRange n s).1, lift (skip readRange n s).2) := by
  have hloop : ∀ size fuel remaining s, skipLoop readRange' size fuel remaining (lift s) =
      ((skipLoop readRange size fuel remaining s).1,
        lift (skipLoop readRange size fuel remaining s).2) := by
    intro size fuel
    induction fuel with
    | zero => intro remaining s; rfl
    | succ fuel ih =>
      intro remaining s
      rw [skipLoop, skipLoop, hread]
      split_ifs with hdone
      · rfl
      · rcases readRange (some size) 0 (min size remaining) s with ⟨e | (none | data), s'⟩
        · rfl
        · rfl
        · exact ih _ _
  rw [skip, skip]
  split_ifs with hnone
  · rfl
  · rw [hloop]

def StreamRequestInputStream.ofPipe (p : π) : StreamRequestInputStream π := { inputStream := p }

theorem StreamRequestInputStream.read_ofPipe (p : π) :
    (ofPipe p).read pipe =
      (interruptedAsEnd ((pipe.read p).1.mapError PipeFailure.thrown), ofPipe (pipe.read p).2) := by
  rw [read, ofPipe]
  rcases pipe.read p with ⟨(_ | message) | b, p'⟩ <;> rfl

theorem StreamRequestInputStream.readRange_ofPipe (buf : Option ℕ) (off len : ℤ) (p : π) :
    readRange pipe buf off len (ofPipe p) =
      (interruptedAsEnd (pipe.readRange buf off len p).1,
        ofPipe (pipe.readRange buf off len p).2) := by
  rw [readRange, ofPipe]
  rcases pipe.readRange buf off len p with ⟨(_ | _ | _ | _ | message) | data, p'⟩ <;> rfl

theorem StreamRequestInputStream.readArray_ofPipe (buf : Option ℕ) (p : π) :
    InputStream.readArray (readRange pipe) buf (ofPipe p) =
      (interruptedAsEnd (InputStream.readArray pipe.readRange buf p).1,
        ofPipe (InputStream.readArray pipe.readRange buf p).2) := by
  cases buf with
  | none => rfl
  | some length => exact readRange_ofPipe (some length) 0 length p

/-- The stream that stands for `System.in` does what the pipe does for exactly the calls that
are kept. -/
theorem DynamicDelegatedInputStream.perform_eq_iff (p : π) (op : InputOp) :
    perform pipe (.ofPipe p) op = ((pipe.perform p op).1, .ofPipe (pipe.perform p op).2) ↔
      op.Keeps pipe p := by
  cases op with
  | read =>
    have hread : perform pipe (.ofPipe p) .read =
        (byteResult ((StreamRequestInputStream.ofPipe p).read pipe).1,
          ((StreamRequestInputStream.ofPipe p).read pipe).2) := rfl
    rw [hread, StreamRequestInputStream.read_ofPipe]
    exact iff_of_true rfl trivial
  | readArray buf =>
    have hread : perform pipe (.ofPipe p) (.readArray buf) =
        (rangeResult (InputStream.readArray (StreamRequestInputStream.readRange pipe) buf
            (.ofPipe p)).1,
          (InputStream.readArray (StreamRequestInputStream.readRange pipe) buf
            (.ofPipe p)).2) := rfl
    rw [hread, StreamRequestInputStream.readArray_ofPipe]
    exact iff_of_true rfl trivial
  | readRange buf off len =>
    have hread : perform pipe (.ofPipe p) (.readRange buf off len) =
        (rangeResult (StreamRequestInputStream.readRange pipe buf off len (.ofPipe p)).1,
          (StreamRequestInputStream.readRange pipe buf off len (.ofPipe p)).2) := rfl
    rw [hread, StreamRequestInputStream.readRange_ofPipe]
    exact iff_of_true rfl trivial
  | skip n =>
    have hskip := InputStream.skip_lift
      (fun buf off len s =>
        (interruptedAsEnd (pipe.readRange buf off len s).1, (pipe.readRange buf off len s).2))
      StreamRequestInputStream.ofPipe StreamRequestInputStream.readRange_ofPipe n p
    exact iff_of_true hskip trivial
  | available =>
    refine ⟨fun h => ?_, fun h => ?_⟩
    · have hresult := congrArg Prod.fst h
      exact (Int.natCast_eq_zero.mp (InputResult.number.inj hresult).symm)
    · have hzero : pipe.available p = 0 := h
      rw [PipedInput.perform, hzero]
      rfl
  | mark readlimit =>
    refine iff_of_false (fun h => ?_) id
    cases congrArg Prod.fst h
  | reset => exact iff_of_true rfl trivial

end InputStreams

namespace SessionStreams

variable {java : JavaRuntime ρ ε} {pipe : PipedInput π}

theorem delegated_eq_iff {s : SessionStreams π} (hopen : s.ins.closed = false)
    (c : StreamCall ρ) : s.delegated java pipe c = s.direct java pipe c ↔ c.Keeps java pipe s := by
  cases c with
  | out op =>
    rw [StreamCall.Keeps, ← DynamicDelegatedPrintStream.perform_eq_iff s.out op]
    refine ⟨fun h => ?_, fun h => by rw [delegated, h]; rfl⟩
    exact Prod.ext (StreamResult.printed.inj (congrArg Prod.fst h))
      (congrArg (fun r => r.2.out) h)
  | err op =>
    rw [StreamCall.Keeps, ← DynamicDelegatedPrintStream.perform_eq_iff s.err op]
    refine ⟨fun h => ?_, fun h => by rw [delegated, h]; rfl⟩
    exact Prod.ext (StreamResult.printed.inj (congrArg Prod.fst h))
      (congrArg (fun r => r.2.err) h)
  | ins op =>
    have hins : s.ins = .ofPipe s.ins.inputStream := by
      rw [StreamRequestInputStream.ofPipe, ← hopen]
    have hdirect : s.direct java pipe (.ins op) =
        (.read (pipe.perform s.ins.inputStream op).1,
          { s with ins := .ofPipe (pipe.perform s.ins.inputStream op).2 }) := by
      simp only [direct, hopen]
      rfl
    rw [StreamCall.Keeps, ← DynamicDelegatedInputStream.perform_eq_iff, ← hins, hdirect]
    refine ⟨fun h => ?_, fun h => by rw [delegated, h]⟩
    exact Prod.ext (StreamResult.read.inj (congrArg Prod.fst h)) (congrArg (fun r => r.2.ins) h)

theorem direct_open {s : SessionStreams π} (hopen : s.ins.closed = false) (c : StreamCall ρ) :
    (s.direct java pipe c).2.ins.closed = false := by
  cases c <;> exact hopen

/-- The calls that a script makes on the standard streams end as the same calls on the
session's own streams and leave these alike, exactly if each of them is passed on as it is. -/
theorem replies_delegated_iff (java : JavaRuntime ρ ε) (pipe : PipedInput π)
    (out err : PrintStream) (p : π) (calls : List (StreamCall ρ)) :
    let s : SessionStreams π := { out := out, err := err, ins := .ofPipe p }
    StepSystem.replies (delegated java pipe) s calls =
        StepSystem.replies (direct java pipe) s calls ↔
      (StepSystem.ofReplies (direct java pipe)).StepsMeet (fun s c => c.Keeps java pipe s) s
        calls :=
  StepSystem.replies_eq_iff (I := fun s => s.ins.closed = false)
    (fun _ c hopen => direct_open hopen c) (fun _ c hopen => delegated_eq_iff hopen c) rfl

end SessionStreams

def plainJava : JavaRuntime Unit Unit where
  valueOf _ := []
  toString _ := .ok []
  toGroovyString _ := .ok []
  subSequence _ _ _ := .ok []
  formatted _ _ _ := ([], none)
  defaultLocale := .null
  fails _ _ := false

def writtenPipe : PipedInput Bytes where
  read s := (.ok s.head?, s.tail)
  buffered n s := (⟨s.take n, List.length_take_le n s⟩, s.drop n)
  available s := s.length

/-- A single call at a pipe that holds a byte ends alike on the standard streams and on the
session's own. -/
def SameReply (c : StreamCall Unit) : Prop :=
  StepSystem.replies (SessionStreams.delegated plainJava writtenPipe) { ins := .ofPipe [10] } [c] =
    StepSystem.replies (SessionStreams.direct plainJava writtenPipe) { ins := .ofPipe [10] } [c]

/-- `append` of a text, `mark`, and `available` with a byte to read differ. -/
theorem not_sameReply :
    ¬ SameReply (.out (.append (.string (asciiText (ascii "done"))))) ∧
      ¬ SameReply (.ins (.mark 1)) ∧ ¬ SameReply (.ins .available) := by
  have hkeeps : ∀ c, SameReply c → c.Keeps plainJava writtenPipe { ins := .ofPipe [10] } := by
    intro c hsame
    exact (SessionStreams.delegated_eq_iff rfl c).mp (List.cons.inj hsame).1
  refine ⟨fun h => hkeeps _ h, fun h => hkeeps _ h, fun h => ?_⟩
  cases hkeeps _ h

end GroovyServ.Server

import GroovyServ.Base64
import GroovyServ.RequestWorker

/-!
# The simple protocol

The response side of a `ClientConnection`: the two response streams over the
buffered stream to the socket, `sendExit`, and `openSession`, which switches both
to the mode without headers. Over every sequence of operations, what the simple
mode puts on the socket is what the header mode puts there less the header blocks
and the status blocks. The operations are those of the raw streams, to which the
print streams of a session pass every write on.
-/

namespace GroovyServ.Server

open Lines

/-- `java.io.BufferedOutputStream` over a socket that accepts every byte. -/
structure BufferedOutputStream where
  buffered : Bytes := []
  sent : Bytes := []

/-- The bytes `b[offset ..< offset + length]`; `none` where the slice leaves the array. -/
def arraySlice (b : Bytes) (offset length : ℤ) : Option Bytes :=
  if 0 ≤ offset ∧ 0 ≤ length ∧ offset + length ≤ b.length then
    some ((b.drop offset.toNat).take length.toNat)
  else none

namespace BufferedOutputStream

def bufferSize : ℕ := 8192

def flush (s : BufferedOutputStream) : BufferedOutputStream :=
  { buffered := [], sent := s.sent ++ s.buffered }

def write (s : BufferedOutputStream) (b : Bytes) (offset length : ℤ) :
    BufferedOutputStream × Bool :=
  let s := if bufferSize ≤ length ∨ bufferSize - s.buffered.length < length then s.flush else s
  match arraySlice b offset length with
  | none => (s, true)
  | some body =>
    if bufferSize ≤ length then ({ s with sent := s.sent ++ body }, false)
    else ({ s with buffered := s.buffered ++ body }, false)

def written (s : BufferedOutputStream) : Bytes := s.sent ++ s.buffered

@[simp] theorem written_flush (s : BufferedOutputStream) : s.flush.written = s.written := by
  simp [flush, written]

theorem eq_of_flushed {s : BufferedOutputStream} (hempty : s.buffered = []) :
    s = { buffered := [], sent := s.written } := by
  rw [written, hempty, List.append_nil, ← hempty]

theorem write_written (s : BufferedOutputStream) (b : Bytes) (offset length : ℤ) :
    (s.write b offset length).1.written = s.written ++ (arraySlice b offset length).getD [] ∧
    ((s.write b offset length).2 = true ↔ arraySlice b offset length = none) := by
  unfold write
  generalize hs : (if bufferSize ≤ length ∨ bufferSize - s.buffered.length < length then s.flush
    else s) = s'
  have hwritten : s'.written = s.written := by
    rw [← hs]
    split_ifs
    · exact s.written_flush
    · rfl
  rw [← hwritten]
  cases arraySlice b offset length with
  | none => simp
  | some body =>
    by_cases hlarge : (bufferSize : ℤ) ≤ length
    · -- a large slice bypasses the buffer, which has been flushed
      have hempty : s'.buffered = [] := by
        rw [← hs, if_pos (.inl hlarge)]
        rfl
      simp [hlarge, written, hempty]
    · simp [hlarge, written]

end BufferedOutputStream

namespace StreamResponseOutputStream

def writeTo (s : StreamResponseOutputStream) (b : Bytes) (offset length : ℤ)
    (outputStream : BufferedOutputStream) : BufferedOutputStream :=
  if s.closed then outputStream
  else
    let header := formatAsHeader
      [(headerKeyChannel, .one s.streamId.name), (headerKeySize, .one (decimalInt length))] none
    let outputStream :=
      if s.noHeader then outputStream else (outputStream.write header 0 header.length).1
    let (outputStream, threw) := outputStream.write b offset length
    if threw then outputStream else outputStream.flush

def writeByteTo (s : StreamResponseOutputStream) (b : ℤ) (outputStream : BufferedOutputStream) :
    BufferedOutputStream :=
  if s.closed then outputStream else s.writeTo [UInt8.ofNat (b % 256).toNat] 0 1 outputStream

def flushTo (s : StreamResponseOutputStream) (outputStream : BufferedOutputStream) :
    BufferedOutputStream :=
  if s.closed then outputStream else outputStream.flush

end StreamResponseOutputStream

structure ResponseSide where
  silentExitStatus : Bool := false
  out : StreamResponseOutputStream := { streamId := .out }
  err : StreamResponseOutputStream := { streamId := .err }
  socketOutputStream : BufferedOutputStream := {}

inductive ResponseOp where
  | writeByte (channel : Channel) (b : JInt)
  | write (channel : Channel) (b : JByteArray) (offset length : JInt)
  | flush (channel : Channel)
  | close (channel : Channel)
  | sendExit (status : JInt) (message : Option Bytes)

namespace ResponseSide

def stream (s : ResponseSide) : Channel → StreamResponseOutputStream
  | .out => s.out
  | .err => s.err

def openSession (s : ResponseSide) (request : InvocationRequest) : ResponseSide :=
  if request.protocol = some (ascii "simple") then
    { s with
      silentExitStatus := true
      out := { s.out with noHeader := true }
      err := { s.err with noHeader := true } }
  else s

def step (s : ResponseSide) : ResponseOp → ResponseSide
  | .writeByte channel b =>
    { s with
      socketOutputStream := (s.stream channel).writeByteTo b.val s.socketOutputStream }
  | .write channel b offset length =>
    { s with
      socketOutputStream :=
        (s.stream channel).writeTo b.val offset.val length.val s.socketOutputStream }
  | .flush channel =>
    { s with socketOutputStream := (s.stream channel).flushTo s.socketOutputStream }
  | .close .out => { s with out := { s.out with closed := true } }
  | .close .err => { s with err := { s.err with closed := true } }
  | .sendExit status message =>
    if s.silentExitStatus then s
    else
      let data := formatAsExitHeader status.val message
      { s with socketOutputStream := (s.socketOutputStream.write data 0 data.length).1.flush }

def run (s : ResponseSide) (ops : List ResponseOp) : ResponseSide := ops.foldl step s

end ResponseSide

inductive Block where
  | header (channel : Channel) (length : ℤ)
  | body (bytes : Bytes)
  | status (code : ℤ) (message : Option Bytes)

namespace Block

def bytes : Block → Bytes
  | header channel length =>
    formatAsHeader
      [(headerKeyChannel, .one channel.name), (headerKeySize, .one (decimalInt length))] none
  | body bytes => bytes
  | status code message => formatAsExitHeader code message

def isBody : Block → Bool
  | body _ => true
  | _ => false

def shown (simple : Bool) (blocks : List Block) : List Block :=
  if simple then blocks.filter isBody else blocks

theorem shown_append (simple : Bool) (blocks blocks' : List Block) :
    shown simple (blocks ++ blocks') = shown simple blocks ++ shown simple blocks' := by
  cases simple
  · rfl
  · exact List.filter_append ..

theorem shown_bodies (simple : Bool) (bodies : List Bytes) :
    shown simple (bodies.map body) = bodies.map body := by
  cases simple
  · rfl
  · refine List.filter_eq_self.mpr fun block hmem => ?_
    obtain ⟨bytes, -, rfl⟩ := List.mem_map.mp hmem
    rfl

theorem flatMap_bodies (bodies : List Bytes) :
    (bodies.map body).flatMap bytes = bodies.flatten := by
  rw [List.flatMap_map]
  exact List.flatMap_id

end Block

namespace ResponseOp

def body (closed : Channel → Bool) : ResponseOp → Option Bytes
  | writeByte channel b => if closed channel then none else some [UInt8.ofNat (b.val % 256).toNat]
  | write channel b offset length =>
    if closed channel then none else arraySlice b.val offset.val length.val
  | _ => none

/-- The blocks around the body, which come before it. -/
def headers (closed : Channel → Bool) : ResponseOp → List Block
  | writeByte channel _ => if closed channel then [] else [.header channel 1]
  | write channel _ _ length => if closed channel then [] else [.header channel length.val]
  | sendExit status message => [.status status.val message]
  | flush _ | close _ => []

def blocks (closed : Channel → Bool) (op : ResponseOp) : List Block :=
  op.headers closed ++ (op.body closed).toList.map .body

def closes (closed : Channel → Bool) : ResponseOp → Channel → Bool
  | close channel => Function.update closed channel true
  | _ => closed

end ResponseOp

def writtenBodies : (Channel → Bool) → List ResponseOp → List Bytes
  | _, [] => []
  | closed, op :: ops => (op.body closed).toList ++ writtenBodies (op.closes closed) ops

def responseBlocks : (Channel → Bool) → List ResponseOp → List Block
  | _, [] => []
  | closed, op :: ops => op.blocks closed ++ responseBlocks (op.closes closed) ops

theorem ResponseOp.headers_erased (closed : Channel → Bool) (op : ResponseOp) :
    Block.shown true (op.headers closed) = [] := by
  cases op with
  | writeByte channel b => cases h : closed channel <;> simp [headers, h, Block.shown, Block.isBody]
  | write channel b offset length =>
    cases h : closed channel <;> simp [headers, h, Block.shown, Block.isBody]
  | flush | close => rfl
  | sendExit status message => rfl

theorem ResponseOp.blocks_erased (closed : Channel → Bool) (op : ResponseOp) :
    Block.shown true (op.blocks closed) = (op.body closed).toList.map Block.body := by
  rw [blocks, Block.shown_append, headers_erased, List.nil_append, Block.shown_bodies]

/-- The bodies are what is left of the blocks once headers and statuses are erased. -/
theorem blocks_erased (closed : Channel → Bool) (ops : List ResponseOp) :
    Block.shown true (responseBlocks closed ops) = (writtenBodies closed ops).map Block.body := by
  induction ops generalizing closed with
  | nil => rfl
  | cons op ops ih =>
    rw [responseBlocks, writtenBodies, Block.shown_append, op.blocks_erased, ih, List.map_append]

theorem BufferedOutputStream.write_buffered {s : BufferedOutputStream} {b : Bytes}
    {offset length : ℤ} (hempty : s.buffered = [])
    (hthrew : (s.write b offset length).2 = true) :
    (s.write b offset length).1.buffered = [] := by
  have hnone := ((s.write_written b offset length).2).mp hthrew
  simp only [write, hnone]
  split_ifs
  · rfl
  · exact hempty

theorem arraySlice_all (b : Bytes) : arraySlice b 0 b.length = some b := by
  simp [arraySlice]

theorem StreamResponseOutputStream.writeTo_written {s : StreamResponseOutputStream}
    (hopen : s.closed = false) (b : Bytes) (offset length : ℤ)
    (outputStream : BufferedOutputStream) :
    (s.writeTo b offset length outputStream).written = outputStream.written ++
      (if s.noHeader then [] else (Block.header s.streamId length).bytes) ++
      (arraySlice b offset length).getD [] := by
  rw [writeTo, hopen]
  simp only [Bool.false_eq_true, if_false]
  generalize hout : (if s.noHeader then outputStream else _) = outputStream'
  have hwritten : outputStream'.written = outputStream.written ++
      (if s.noHeader then [] else (Block.header s.streamId length).bytes) := by
    rw [← hout]
    split_ifs
    · rw [List.append_nil]
    · rw [(BufferedOutputStream.write_written ..).1, arraySlice_all]
      rfl
  rw [← hwritten, ← (outputStream'.write_written b offset length).1]
  split_ifs
  · rfl
  · exact BufferedOutputStream.written_flush _

theorem StreamResponseOutputStream.writeTo_buffered {s : StreamResponseOutputStream}
    (hsimple : s.noHeader = true) (b : Bytes) (offset length : ℤ)
    {outputStream : BufferedOutputStream} (hempty : outputStream.buffered = []) :
    (s.writeTo b offset length outputStream).buffered = [] := by
  rw [writeTo, hsimple]
  simp only [if_true]
  split_ifs with _ hthrew
  · exact hempty
  · exact BufferedOutputStream.write_buffered hempty hthrew
  · rfl

structure ResponseSide.InMode (s : ResponseSide) (simple : Bool) (closed : Channel → Bool) :
    Prop where
  exit : s.silentExitStatus = simple
  streams : ∀ channel, s.stream channel =
    { streamId := channel, closed := closed channel, noHeader := simple }
  buffer : simple = true → s.socketOutputStream.buffered = []

namespace ResponseSide

variable {s : ResponseSide} {simple : Bool} {closed : Channel → Bool}

theorem InMode.writeTo_written (hs : s.InMode simple closed) {channel : Channel}
    (hclosed : closed channel = false) (b : Bytes) (offset length : ℤ) :
    ((s.stream channel).writeTo b offset length s.socketOutputStream).written =
      s.socketOutputStream.written ++ (Block.shown simple ([.header channel length] ++
        (arraySlice b offset length).toList.map Block.body)).flatMap Block.bytes := by
  have hbody : (arraySlice b offset length).getD [] =
      (arraySlice b offset length).toList.flatten := by
    cases arraySlice b offset length <;> simp
  rw [hs.streams, StreamResponseOutputStream.writeTo_written hclosed, List.append_assoc,
    Block.shown_append, Block.shown_bodies, List.flatMap_append, Block.flatMap_bodies, hbody]
  cases simple <;> simp [Block.shown, Block.isBody]

/-- What an operation adds to the stream to the socket. -/
theorem InMode.step_written (hs : s.InMode simple closed) (op : ResponseOp) :
    (s.step op).socketOutputStream.written = s.socketOutputStream.written ++
      (Block.shown simple (op.blocks closed)).flatMap Block.bytes := by
  cases op with
  | writeByte channel b =>
    have hstep : (s.step (.writeByte channel b)).socketOutputStream =
        if closed channel then s.socketOutputStream
        else (s.stream channel).writeTo [UInt8.ofNat (b.val % 256).toNat] 0 1
          s.socketOutputStream := by
      rw [step, StreamResponseOutputStream.writeByteTo, hs.streams]
    rw [hstep]
    cases hclosed : closed channel with
    | true => cases simple <;> simp [ResponseOp.blocks, ResponseOp.headers, ResponseOp.body,
        hclosed, Block.shown]
    | false =>
      rw [if_neg (by simp), hs.writeTo_written hclosed _ 0 1]
      simp [ResponseOp.blocks, ResponseOp.headers, ResponseOp.body, hclosed, arraySlice]
  | write channel b offset length =>
    cases hclosed : closed channel with
    | true =>
      have hstep : (s.step (.write channel b offset length)).socketOutputStream =
          s.socketOutputStream := by
        rw [step, StreamResponseOutputStream.writeTo, hs.streams]
        exact if_pos hclosed
      rw [hstep]
      cases simple <;> simp [ResponseOp.blocks, ResponseOp.headers, ResponseOp.body, hclosed,
        Block.shown]
    | false =>
      rw [step, hs.writeTo_written hclosed]
      simp [ResponseOp.blocks, ResponseOp.headers, ResponseOp.body, hclosed]
  | flush channel =>
    have hflush : (s.step (.flush channel)).socketOutputStream.written =
        s.socketOutputStream.written := by
      rw [step, StreamResponseOutputStream.flushTo]
      split_ifs
      · rfl
      · exact BufferedOutputStream.written_flush _
    rw [hflush]
    cases simple <;> simp [ResponseOp.blocks, ResponseOp.headers, ResponseOp.body, Block.shown]
  | close channel =>
    cases channel <;> cases simple <;>
      simp [step, ResponseOp.blocks, ResponseOp.headers, ResponseOp.body, Block.shown]
  | sendExit status message =>
    rw [step, hs.exit]
    cases simple with
    | true => simp [ResponseOp.blocks, ResponseOp.headers, ResponseOp.body, Block.shown,
        Block.isBody]
    | false =>
      rw [if_neg (by simp), BufferedOutputStream.written_flush,
        (BufferedOutputStream.write_written ..).1, arraySlice_all]
      simp [ResponseOp.blocks, ResponseOp.headers, ResponseOp.body, Block.shown, Block.bytes]

theorem InMode.step (hs : s.InMode simple closed) (op : ResponseOp) :
    (s.step op).InMode simple (op.closes closed) := by
  have hbuffer : simple = true → (s.step op).socketOutputStream.buffered = [] := by
    rintro rfl
    have hempty := hs.buffer rfl
    have hnoHeader : ∀ channel, (s.stream channel).noHeader = true := fun channel => by
      rw [hs.streams]
    cases op with
    | writeByte channel b =>
      rw [ResponseSide.step, StreamResponseOutputStream.writeByteTo]
      split_ifs
      · exact hempty
      · exact StreamResponseOutputStream.writeTo_buffered (hnoHeader channel) _ _ _ hempty
    | write channel b offset length =>
      exact StreamResponseOutputStream.writeTo_buffered (hnoHeader channel) _ _ _ hempty
    | flush channel =>
      rw [ResponseSide.step, StreamResponseOutputStream.flushTo]
      split_ifs
      · exact hempty
      · rfl
    | close channel => cases channel <;> exact hempty
    | sendExit status message =>
      rw [ResponseSide.step, if_pos hs.exit]
      exact hempty
  cases op with
  | writeByte | write | flush => exact ⟨hs.exit, hs.streams, hbuffer⟩
  | close channel =>
    have hout := hs.streams .out
    have herr := hs.streams .err
    refine ⟨?_, fun channel' => ?_, hbuffer⟩
    · cases channel <;> exact hs.exit
    · cases channel <;> cases channel' <;>
        simp_all [ResponseSide.step, ResponseSide.stream, ResponseOp.closes, Function.update]
  | sendExit status message =>
    refine ⟨?_, fun channel => ?_, hbuffer⟩
    · rw [ResponseSide.step]
      split_ifs <;> exact hs.exit
    · rw [ResponseSide.step]
      split_ifs <;> exact hs.streams channel

theorem InMode.run_written (hs : s.InMode simple closed) (ops : List ResponseOp) :
    (s.run ops).socketOutputStream.written = s.socketOutputStream.written ++
      (Block.shown simple (responseBlocks closed ops)).flatMap Block.bytes := by
  induction ops generalizing s closed with
  | nil => cases simple <;> simp [run, responseBlocks, Block.shown]
  | cons op ops ih =>
    have hrun : s.run (op :: ops) = (s.step op).run ops := rfl
    rw [hrun, ih (hs.step op), hs.step_written op, responseBlocks, Block.shown_append,
      List.flatMap_append, List.append_assoc]

theorem InMode.run (hs : s.InMode simple closed) (ops : List ResponseOp) :
    ∃ closed', (s.run ops).InMode simple closed' := by
  induction ops generalizing s closed with
  | nil => exact ⟨closed, hs⟩
  | cons op ops ih => exact ih (hs.step op)

theorem inMode_openSession (request : InvocationRequest) :
    (openSession {} request).InMode request.silentExitStatus fun _ => false := by
  rw [openSession, InvocationRequest.silentExitStatus]
  by_cases hsimple : request.protocol = some (ascii "simple")
  · rw [if_pos hsimple, decide_eq_true hsimple]
    exact ⟨rfl, fun channel => by cases channel <;> rfl, fun _ => rfl⟩
  · rw [if_neg hsimple, decide_eq_false hsimple]
    exact ⟨rfl, fun channel => by cases channel <;> rfl, fun _ => rfl⟩

theorem InMode.sendExit_buffered (hs : s.InMode false closed) (status : JInt)
    (message : Option Bytes) :
    (s.step (.sendExit status message)).socketOutputStream.buffered = [] := by
  rw [ResponseSide.step, hs.exit]
  rfl

theorem InMode.run_sent (hs : s.InMode true closed) (hempty : s.socketOutputStream.written = [])
    (ops : List ResponseOp) : (s.run ops).socketOutputStream =
      { buffered := [], sent := (writtenBodies closed ops).flatten } := by
  obtain ⟨closed', hmode⟩ := hs.run ops
  have hwritten := hs.run_written ops
  rw [hempty, List.nil_append, blocks_erased, Block.flatMap_bodies] at hwritten
  rw [← hwritten]
  exact BufferedOutputStream.eq_of_flushed (hmode.buffer rfl)

theorem InMode.run_exit_sent (hs : s.InMode false closed)
    (hempty : s.socketOutputStream.written = []) (ops : List ResponseOp) (status : JInt)
    (message : Option Bytes) : (s.run (ops ++ [.sendExit status message])).socketOutputStream =
      { buffered := []
        sent := (responseBlocks closed (ops ++ [.sendExit status message])).flatMap
          Block.bytes } := by
  obtain ⟨closed', hmode⟩ := hs.run ops
  have hwritten : _ = _ ++ (responseBlocks closed (ops ++ [.sendExit status message])).flatMap
    Block.bytes := hs.run_written _
  have hrun : s.run (ops ++ [.sendExit status message]) =
      (s.run ops).step (.sendExit status message) := List.foldl_concat ..
  rw [hempty, List.nil_append] at hwritten
  rw [← hwritten, hrun]
  exact BufferedOutputStream.eq_of_flushed (hmode.sendExit_buffered status message)

end ResponseSide

/-- The first value that the request gives to `Protocol`. -/
def firstProtocol (bytes : Bytes) : Option Bytes :=
  (valuesOf (blockLines (bytes.splitOn lf)) headerKeyProtocol).head?

theorem openSession_protocol {a : Accepted} {request : InvocationRequest} {rest : Bytes}
    (h : openSession a = .ok (request, rest)) : request.protocol = firstProtocol a.bytes := by
  obtain ⟨_, -, h⟩ := bind_eq_ok.mp h
  obtain ⟨⟨headers, rest'⟩, hheaders, h⟩ := bind_eq_ok.mp h
  obtain ⟨args, -, h⟩ := bind_eq_ok.mp h
  obtain ⟨_, -, h⟩ := bind_eq_ok.mp h
  cases h
  change headers.first headerKeyProtocol = firstProtocol a.bytes
  rw [parseHeaders_ok hheaders, first_headersOf, firstProtocol]

/-- In the simple mode the socket gets the written bodies and nothing else, at every
point; that is what the mode with headers sends for the same operations less its
header blocks and its status blocks. -/
theorem simpleProtocol_sent {a : Accepted} {request : InvocationRequest} {rest : Bytes}
    (hopen : openSession a = .ok (request, rest))
    (hprotocol : firstProtocol a.bytes = some (ascii "simple")) (ops : List ResponseOp)
    (status : JInt) (message : Option Bytes) :
    let simple := ResponseSide.openSession {} request
    let header : ResponseSide := {}
    let whole := ops ++ [.sendExit status message]
    (∀ done, done <+: whole → (simple.run done).socketOutputStream =
      { buffered := [], sent := (writtenBodies (fun _ => false) done).flatten }) ∧
    (header.run whole).socketOutputStream =
      { buffered := []
        sent := (responseBlocks (fun _ => false) whole).flatMap Block.bytes } ∧
    (simple.run whole).socketOutputStream.sent =
      ((responseBlocks (fun _ => false) whole).filter Block.isBody).flatMap Block.bytes := by
  intro simple header whole
  have hsilent : request.silentExitStatus = true :=
    decide_eq_true ((openSession_protocol hopen).trans hprotocol)
  have hsimple : simple.InMode true fun _ => false :=
    hsilent ▸ ResponseSide.inMode_openSession request
  have hheader : header.InMode false fun _ => false :=
    ⟨rfl, fun channel => by cases channel <;> rfl, fun _ => rfl⟩
  have hempty : simple.socketOutputStream.written = [] := by
    have hprotocol' : request.protocol = some (ascii "simple") := of_decide_eq_true hsilent
    simp only [simple, ResponseSide.openSession, if_pos hprotocol']
    rfl
  have herased := congrArg (List.flatMap Block.bytes) (blocks_erased (fun _ => false) whole)
  rw [Block.flatMap_bodies] at herased
  refine ⟨fun done _ => hsimple.run_sent hempty done, hheader.run_exit_sent rfl ops status message,
    ?_⟩
  rw [hsimple.run_sent hempty whole]
  exact herased.symm

def simpleClient : Accepted where
  decodeBase64 := Base64.decode
  server := { allowFrom := [], authToken := some ⟨ascii "cafe"⟩ }
  socket := ⟨1961, true, [], []⟩
  sleepInterrupted := false
  ending := .waiting
  bytes := ascii "Auth: cafe\nProtocol: simple\n\n"

def simpleClientOps : List ResponseOp :=
  [.writeByte .err ⟨321, by decide⟩,
    .write .out ⟨ascii "groovyserv", by decide⟩ ⟨1, by decide⟩ ⟨2, by decide⟩,
    .write .out ⟨ascii "groovyserver", by decide⟩ ⟨5, by decide⟩ ⟨9, by decide⟩]

theorem simpleClient_sent :
    ∃ request rest, openSession simpleClient = .ok (request, rest) ∧
      ((ResponseSide.openSession {} request).run
        (simpleClientOps ++ [.sendExit ⟨3, by decide⟩ none])).socketOutputStream =
        { buffered := [], sent := ascii "Aro" } := by
  obtain ⟨request, rest, hopen⟩ : ∃ request rest, openSession simpleClient = .ok (request, rest) :=
    ⟨_, _, rfl⟩
  have hprotocol : firstProtocol simpleClient.bytes = some (ascii "simple") := by decide
  have h := simpleProtocol_sent hopen hprotocol simpleClientOps ⟨3, by decide⟩ none
  exact ⟨request, rest, hopen, h.1 _ List.prefix_rfl⟩

end GroovyServ.Server

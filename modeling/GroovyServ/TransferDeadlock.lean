import GroovyServ.BoundedQueues
import GroovyServ.ResponseRoundTrip
import GroovyServ.StdinTransfer
import GroovyServ.StepSystem

/-!
# Transfers that wait for one another

The client writes standard input to the socket, the handler writes what it reads
from there to the pipe, and the script writes its output to the socket. Each of
these writes blocks while its buffer is full, and neither party does anything
else meanwhile: the client does not receive the output, the handler does not read
the socket and the script does not read the pipe. They all wait for ever when
the three writes have to wait at once, which takes a write that begins with no
room while the other two have none.
-/

namespace GroovyServ

open Server

/-- The buffers that hold what a party has written, named by their ends. -/
inductive Link where
  | clientToServer
  | pipe
  | serverToClient
  deriving DecidableEq

instance : Fintype Link where
  elems := {.clientToServer, .pipe, .serverToClient}
  complete link := by cases link <;> decide

inductive HandlerPhase where
  | header (got : Bytes)
  | body (size : ℕ)
  | transfer (data : Bytes)
  | stopped

structure Transfers (capacity : Link → ℕ) where
  stdin : Bytes
  stdinClosed : Bool := false
  /-- The lengths of the responses that the client has not begun to receive. -/
  responses : List ℕ := []
  /-- How much of a response is still to be received. -/
  receiving : ℕ := 0
  handler : HandlerPhase := .header []
  toreDownPipes : Bool := false
  queues : Queues Link UInt8 capacity := fun _ => .empty

/-- A step of one of the parties. The script is any sequence of its steps. -/
inductive TransferStep where
  | clientSelects (stdin socket : Bool) (offer : ℕ)
  | clientReceives (n : ℕ)
  | handlerReadsHeader
  | handlerReadsBody (n : ℕ)
  | handlerTransfers
  | scriptWrites (channel : Channel) (body : JByteArray)
  | scriptReads (n : ℕ)
  | pushes (link : Link) (n : ℕ)

def TransferStep.writesTo : TransferStep → Link
  | .clientSelects _ _ _ | .clientReceives _ => .clientToServer
  | .handlerReadsHeader | .handlerReadsBody _ | .handlerTransfers => .pipe
  | .scriptWrites _ _ | .scriptReads _ => .serverToClient
  | .pushes link _ => link

namespace Transfers

variable {capacity : Link → ℕ}

def write (s : Transfers capacity) (link : Link) (data : Bytes) : Transfers capacity :=
  { s with queues := s.queues.write link data }

def push (s : Transfers capacity) (link : Link) (n : ℕ) : Transfers capacity :=
  { s with queues := s.queues.push link n }

def pull (s : Transfers capacity) (link : Link) (n : ℕ) : Transfers capacity :=
  { s with queues := s.queues.pull link n }

def readStdin (s : Transfers capacity) (offer : ℕ) : Bytes :=
  s.stdin.take (if s.stdin = [] then 0 else shortCount offer Client.bufferSize s.stdin.length)

def sendToServer (s : Transfers capacity) (offer : ℕ) : Transfers capacity :=
  let chunk := s.readStdin offer
  { s with
    stdin := s.stdin.drop chunk.length
    stdinClosed := decide (chunk = []) }.write .clientToServer (stdinFrame chunk)

/-- An iteration of `start_session`, with what `select` reports. A socket is
reported when there is something to receive. -/
def clientSelects (stdin socket : Bool) (offer : ℕ) (s : Transfers capacity) :
    Option (Transfers capacity) :=
  if 0 < s.receiving then none
  else if s.stdinClosed = false ∧ stdin = true then some (s.sendToServer offer)
  else if socket = false then some s
  else
    match (s.queues .serverToClient).content, s.responses with
    | _ :: _, length :: responses => some { s with responses := responses, receiving := length }
    | _, _ => none

def clientReceives (n : ℕ) (s : Transfers capacity) : Option (Transfers capacity) :=
  if 0 < n ∧ n ≤ s.receiving ∧ n ≤ (s.queues .serverToClient).content.length then
    some ({ s with receiving := s.receiving - n }.pull .serverToClient n)
  else none

/-- What `run` does with the bytes of a header that it has got so far. -/
def afterHeader (socket : Socket) (got : Bytes) (s : Transfers capacity) : Transfers capacity :=
  match readStreamRequest socket .waiting got with
  | .error .blocked => { s with handler := .header got }
  | .error (.threw _) => { s with handler := .stopped, toreDownPipes := true }
  | .ok (request, _) =>
    if request.isInterrupted then { s with handler := .stopped, toreDownPipes := true }
    else if request.isEmpty then { s with handler := .header [], toreDownPipes := true }
    else if request.getSize < 0 then { s with handler := .stopped, toreDownPipes := true }
    else { s with handler := .body request.getSize.toNat }

def handlerReadsHeader (socket : Socket) (s : Transfers capacity) : Option (Transfers capacity) :=
  match s.handler, (s.queues .clientToServer).content with
  | .header got, b :: _ => some ((s.pull .clientToServer 1).afterHeader socket (got ++ [b]))
  | _, _ => none

def handlerReadsBody (n : ℕ) (s : Transfers capacity) : Option (Transfers capacity) :=
  let content := (s.queues .clientToServer).content
  match s.handler with
  | .body size =>
    if 0 < n ∧ n ≤ size ∧ n ≤ content.length then
      some { s.pull .clientToServer n with handler := .transfer (content.take n) }
    else none
  | _ => none

def handlerTransfers (s : Transfers capacity) : Option (Transfers capacity) :=
  match s.handler with
  | .transfer data =>
    let s' := { s with handler := .header [] }
    some (if s.toreDownPipes then s' else s'.write .pipe data)
  | _ => none

def scriptWrites (channel : Channel) (body : JByteArray) (s : Transfers capacity) :
    Transfers capacity :=
  let response := frame (channel, body)
  { s with responses := s.responses ++ [response.length] }.write .serverToClient response

def scriptReads (n : ℕ) (s : Transfers capacity) : Option (Transfers capacity) :=
  if 0 < n ∧ n ≤ (s.queues .pipe).content.length then some (s.pull .pipe n) else none

def pushes (link : Link) (n : ℕ) (s : Transfers capacity) : Option (Transfers capacity) :=
  if 0 < n ∧ n ≤ (s.queues link).room ∧ n ≤ (s.queues link).pending.length then
    some (s.push link n)
  else none

def act (socket : Socket) (s : Transfers capacity) : TransferStep → Option (Transfers capacity)
  | .clientSelects stdin socketReady offer => s.clientSelects stdin socketReady offer
  | .clientReceives n => s.clientReceives n
  | .handlerReadsHeader => s.handlerReadsHeader socket
  | .handlerReadsBody n => s.handlerReadsBody n
  | .handlerTransfers => s.handlerTransfers
  | .scriptWrites channel body => some (s.scriptWrites channel body)
  | .scriptReads n => s.scriptReads n
  | .pushes _ _ => none

def step (socket : Socket) (s : Transfers capacity) (label : TransferStep) :
    Option (Transfers capacity) :=
  match label with
  | .pushes link n => s.pushes link n
  | label => if (s.queues label.writesTo).pending = [] then s.act socket label else none

def beginsWrite (s : Transfers capacity) : TransferStep → Option Bytes
  | .clientSelects stdin _ offer =>
    if s.stdinClosed = false ∧ stdin = true then some (stdinFrame (s.readStdin offer)) else none
  | .handlerTransfers =>
    match s.handler with
    | .transfer data => if s.toreDownPipes then none else some data
    | _ => none
  | .scriptWrites channel body => some (frame (channel, body))
  | _ => none

/-- The client, the handler and the script are all blocked in their writes. -/
def Deadlock (s : Transfers capacity) : Prop := s.queues.AllBlocked

/-- A write begins with room for all of it, or while one of the other parties is in
no write or has room for the rest of it. -/
def Roomy (s : Transfers capacity) (label : TransferStep) : Prop :=
  ∀ data, s.beginsWrite label = some data → s.queues.HasRoom label.writesTo data

instance (s : Transfers capacity) : Decidable s.Deadlock :=
  inferInstanceAs (Decidable (∀ link, (s.queues link).Blocked))

instance (s : Transfers capacity) (label : TransferStep) : Decidable (s.Roomy label) :=
  inferInstanceAs (Decidable (∀ data ∈ s.beginsWrite label,
    s.queues.HasRoom label.writesTo data))

theorem sendToServer_agrees (sys : Client.System) {c : Client.Session} {s : Transfers capacity}
    {offer : ℕ} (hoffer : sys.stdinOffer c.reads = some offer) (hstdin : c.stdin = s.stdin) :
    (Client.sendToServer sys c).written.flatten =
        c.written.flatten ++ stdinFrame (s.readStdin offer) ∧
      (Client.sendToServer sys c).stdin = (s.sendToServer offer).stdin ∧
      (Client.sendToServer sys c).stdinClosed = (s.sendToServer offer).stdinClosed := by
  rw [Client.sendToServer, hoffer, hstdin]
  have hread : s.readStdin offer = s.stdin.take
    (if s.stdin = [] then 0 else shortCount offer Client.bufferSize s.stdin.length) := rfl
  have hle : (if s.stdin = [] then 0 else shortCount offer Client.bufferSize s.stdin.length) ≤
      s.stdin.length := by
    split_ifs with hnil
    · exact Nat.zero_le _
    · exact (shortCount_le offer Client.bufferSize s.stdin.length (by decide)
        (List.length_pos_of_ne_nil hnil)).trans (Nat.min_le_right _ _)
  dsimp only
  rw [sendToServer, write]
  generalize (if s.stdin = [] then 0
    else shortCount offer Client.bufferSize s.stdin.length) = ret at hread hle ⊢
  have hlen : (s.readStdin offer).length = ret := by
    rw [hread, List.length_take, Nat.min_eq_left hle]
  refine ⟨?_, ?_, ?_⟩
  · rw [stdinFrame, hlen, hread]
    simp
  · rw [hlen]
  · exact decide_eq_decide.mpr (by rw [← List.length_eq_zero_iff, hlen])

theorem afterHeader_streamRequestHeader (socket : Socket) {n : ℕ} (hpos : 0 < n)
    (hlt : n < 2 ^ 31) (s : Transfers capacity) :
    s.afterHeader socket (Client.streamRequestHeader n) = { s with handler := .body n } := by
  have hread := readStreamRequest_header socket .waiting hlt []
  rw [List.append_nil, if_neg hpos.ne'] at hread
  have hempty : ¬ (decide ((n : ℤ) = 0) = true) := by
    rw [decide_eq_true_eq]
    omega
  rw [afterHeader, hread]
  dsimp only
  rw [if_neg (by simp [StreamRequest.isInterrupted]), StreamRequest.isEmpty, getSize_decimal hlt,
    if_neg hempty, if_neg (by omega), Int.toNat_natCast]

theorem scriptWrites_agrees (channel : Channel) (body : JByteArray) (s : Transfers capacity) :
    ∃ writes, StreamResponseOutputStream.write { streamId := channel } body 0 body.val.length =
        some writes ∧
      (s.scriptWrites channel body).queues .serverToClient =
        (s.queues .serverToClient).write writes.flatten := by
  refine ⟨_, write_whole (channel, body), ?_⟩
  have hframe : [formatAsResponseHeader channel body.val.length, body.val].flatten =
      frame (channel, body) := by simp [frame]
  rw [hframe]
  exact Queues.write_self s.queues .serverToClient (frame (channel, body))

/-- What the parties write and read is what the functions of the source do: a chunk of
standard input as the client's loop sends it, its header as the handler takes it, and a
response as the script's stream writes it. -/
structure AgreesWithSource (s : Transfers capacity) : Prop where
  sends : ∀ (sys : Client.System) (c : Client.Session) offer,
    sys.stdinOffer c.reads = some offer → c.stdin = s.stdin →
      (Client.sendToServer sys c).written.flatten =
          c.written.flatten ++ stdinFrame (s.readStdin offer) ∧
        (Client.sendToServer sys c).stdin = (s.sendToServer offer).stdin ∧
        (Client.sendToServer sys c).stdinClosed = (s.sendToServer offer).stdinClosed
  takes : ∀ socket n, 0 < n → n < 2 ^ 31 →
    s.afterHeader socket (Client.streamRequestHeader n) = { s with handler := .body n }
  prints : ∀ (channel : Channel) (body : JByteArray), ∃ writes,
    StreamResponseOutputStream.write { streamId := channel } body 0 body.val.length =
        some writes ∧
      (s.scriptWrites channel body).queues .serverToClient =
        (s.queues .serverToClient).write writes.flatten

theorem agreesWithSource (s : Transfers capacity) : s.AgreesWithSource where
  sends sys _ _ hoffer hstdin := sendToServer_agrees sys hoffer hstdin
  takes socket _ hpos hlt := afterHeader_streamRequestHeader socket hpos hlt s
  prints channel body := scriptWrites_agrees channel body s

theorem afterHeader_queues (socket : Socket) (got : Bytes) (s : Transfers capacity) :
    (s.afterHeader socket got).queues = s.queues := by
  unfold afterHeader
  split
  · rfl
  · rfl
  · split_ifs <;> rfl

theorem clientSelects_queues {stdin socketReady : Bool} {offer : ℕ} {s s' : Transfers capacity}
    (h : s.clientSelects stdin socketReady offer = some s') :
    (s.stdinClosed = false ∧ stdin = true ∧
        s'.queues = s.queues.write .clientToServer (stdinFrame (s.readStdin offer))) ∨
      ¬ (s.stdinClosed = false ∧ stdin = true) ∧ s'.queues = s.queues := by
  unfold clientSelects at h
  split_ifs at h with hreceiving hstdin hsocket
  · cases h
    exact .inl ⟨hstdin.1, hstdin.2, rfl⟩
  · cases h
    exact .inr ⟨hstdin, rfl⟩
  · split at h
    · cases h
      exact .inr ⟨hstdin, rfl⟩
    · cases h

theorem handlerTransfers_queues {s s' : Transfers capacity} (h : s.handlerTransfers = some s') :
    ∃ data, s.handler = .transfer data ∧
      s'.queues = if s.toreDownPipes then s.queues else s.queues.write .pipe data := by
  unfold handlerTransfers at h
  split at h
  · rename_i data hdata
    cases h
    refine ⟨data, hdata, ?_⟩
    split_ifs <;> rfl
  · cases h

theorem step_queues {socket : Socket} {s s' : Transfers capacity} {label : TransferStep}
    (h : s.step socket label = some s') :
    (∃ data, s.beginsWrite label = some data ∧
        s'.queues = s.queues.write label.writesTo data) ∨
      s.beginsWrite label = none ∧ (s'.queues = s.queues ∨
        (∃ link n, s'.queues = s.queues.pull link n) ∨
        ∃ link n, s'.queues = s.queues.push link n) := by
  cases label with
  | pushes link n =>
    simp only [step, pushes, Option.ite_none_right_eq_some, Option.some.injEq] at h
    exact .inr ⟨rfl, .inr (.inr ⟨link, n, by rw [← h.2]; rfl⟩)⟩
  | clientSelects stdin socketReady offer =>
    simp only [step, act, Option.ite_none_right_eq_some] at h
    rcases clientSelects_queues h.2 with ⟨hopen, hstdin, hqueues⟩ | ⟨hnot, hqueues⟩
    · exact .inl ⟨_, by rw [beginsWrite, if_pos ⟨hopen, hstdin⟩], hqueues⟩
    · exact .inr ⟨by rw [beginsWrite, if_neg hnot], .inl hqueues⟩
  | clientReceives n =>
    simp only [step, act, clientReceives, Option.ite_none_right_eq_some, Option.some.injEq] at h
    exact .inr ⟨rfl, .inr (.inl ⟨_, n, by rw [← h.2.2]; rfl⟩)⟩
  | handlerReadsHeader =>
    simp only [step, act, Option.ite_none_right_eq_some] at h
    replace h := h.2
    unfold handlerReadsHeader at h
    split at h
    · cases h
      exact .inr ⟨rfl, .inr (.inl ⟨_, 1, afterHeader_queues _ _ _⟩)⟩
    · cases h
  | handlerReadsBody n =>
    simp only [step, act, Option.ite_none_right_eq_some] at h
    replace h := h.2
    unfold handlerReadsBody at h
    dsimp only at h
    split at h
    · rw [Option.ite_none_right_eq_some, Option.some.injEq] at h
      exact .inr ⟨rfl, .inr (.inl ⟨_, n, by rw [← h.2]; rfl⟩)⟩
    · cases h
  | handlerTransfers =>
    simp only [step, act, Option.ite_none_right_eq_some] at h
    obtain ⟨data, hdata, hqueues⟩ := handlerTransfers_queues h.2
    by_cases htore : s.toreDownPipes = true
    · rw [if_pos htore] at hqueues
      exact .inr ⟨by rw [beginsWrite, hdata]; exact if_pos htore, .inl hqueues⟩
    · rw [if_neg htore] at hqueues
      exact .inl ⟨data, by rw [beginsWrite, hdata]; exact if_neg htore, hqueues⟩
  | scriptWrites channel body =>
    simp only [step, act, Option.ite_none_right_eq_some, Option.some.injEq] at h
    exact .inl ⟨_, rfl, by rw [← h.2]; rfl⟩
  | scriptReads n =>
    simp only [step, act, scriptReads, Option.ite_none_right_eq_some, Option.some.injEq] at h
    exact .inr ⟨rfl, .inr (.inl ⟨_, n, by rw [← h.2.2]; rfl⟩)⟩

theorem step_of_deadlock (socket : Socket) {s : Transfers capacity} (h : s.Deadlock)
    (label : TransferStep) : s.step socket label = none := by
  have hpending : ¬ (s.queues label.writesTo).pending = [] := (h _).1
  cases label with
  | pushes link n =>
    have hroom := (h link).room_eq_zero
    rw [step, pushes, hroom, if_neg (by omega)]
  | clientSelects stdin socketReady offer => exact if_neg hpending
  | clientReceives n => exact if_neg hpending
  | handlerReadsHeader => exact if_neg hpending
  | handlerReadsBody n => exact if_neg hpending
  | handlerTransfers => exact if_neg hpending
  | scriptWrites channel body => exact if_neg hpending
  | scriptReads n => exact if_neg hpending

theorem someFits_step {socket : Socket} {s s' : Transfers capacity} {label : TransferStep}
    (hs : s.queues.SomeFits) (hroomy : s.Roomy label) (h : s.step socket label = some s') :
    s'.queues.SomeFits := by
  rcases step_queues h with ⟨data, hbegins, hqueues⟩ | ⟨-, hsame | ⟨link, n, hpull⟩ |
    ⟨link, n, hpush⟩⟩
  · rw [hqueues, Queues.someFits_write]
    exact hroomy data hbegins
  · rwa [hsame]
  · rw [hpull]
    exact hs.pull link n
  · rwa [hpush, Queues.someFits_push]

theorem not_someFits_step {socket : Socket} {s s' : Transfers capacity} {label : TransferStep}
    (hroomy : ¬ s.Roomy label) (h : s.step socket label = some s') : ¬ s'.queues.SomeFits := by
  simp only [Roomy, not_forall] at hroomy
  obtain ⟨data, hbegins, hroom⟩ := hroomy
  rcases step_queues h with ⟨data', hbegins', hqueues⟩ | ⟨hnone, -⟩
  · rw [hbegins, Option.some.injEq] at hbegins'
    rwa [hqueues, Queues.someFits_write, ← hbegins']
  · rw [hbegins] at hnone
    cases hnone

end Transfers

variable {capacity : Link → ℕ}

def transferSystem (socket : Socket) (capacity : Link → ℕ) :
    StepSystem (Transfers capacity) TransferStep := ⟨Transfers.step socket⟩

def TransferStep.IsPush : TransferStep → Prop
  | .pushes _ _ => True
  | _ => False

namespace Transfers

/-- A write that fits goes on fitting while the writers go on. -/
theorem someFits_of_pushes (socket : Socket) {pushes : List TransferStep}
    {s t : Transfers capacity} (hs : s.queues.SomeFits)
    (hpush : ∀ label ∈ pushes, label.IsPush)
    (hrun : (transferSystem socket capacity).run s pushes = some t) : t.queues.SomeFits := by
  induction pushes generalizing s with
  | nil =>
    rw [StepSystem.run_nil, Option.some.injEq] at hrun
    rwa [← hrun]
  | cons label pushes ih =>
    obtain ⟨hhead, hpush⟩ := List.forall_mem_cons.mp hpush
    obtain ⟨s', hstep, hrun⟩ := (StepSystem.run_cons_eq_some _).mp hrun
    refine ih (someFits_step hs (fun data hdata => ?_) hstep) hpush hrun
    cases label <;> cases hhead
    cases hdata

/-- While no write fits, the writers have only to go on. -/
theorem exists_blocking_pushes (socket : Socket) (links : List Link) {s : Transfers capacity}
    (hs : ¬ s.queues.SomeFits) :
    ∃ labels t, (∀ label ∈ labels, label.IsPush) ∧
      (transferSystem socket capacity).run s labels = some t ∧
      (∀ link, (s.queues link).Blocked → (t.queues link).Blocked) ∧
      ∀ link ∈ links, (t.queues link).Blocked := by
  induction links generalizing s with
  | nil => exact ⟨[], s, by simp, rfl, fun _ h => h, by simp⟩
  | cons link links ih =>
    have hblocked := Queues.blocked_push_room hs link
    by_cases hroom : 0 < (s.queues link).room
    · have hle : (s.queues link).room ≤ (s.queues link).pending.length := by
        by_contra hlt
        exact hs ⟨link, Nat.le_of_not_le hlt⟩
      have hstep : s.step socket (.pushes link (s.queues link).room) =
          some (s.push link (s.queues link).room) := by
        rw [step, pushes, if_pos ⟨hroom, le_rfl, hle⟩]
      have hs' : ¬ (s.push link (s.queues link).room).queues.SomeFits := by
        rwa [push, Queues.someFits_push]
      obtain ⟨labels, t, hpush, hrun, hkept, hall⟩ := ih hs'
      refine ⟨.pushes link (s.queues link).room :: labels, t, ?_, ?_, fun l hl => ?_, ?_⟩
      · exact List.forall_mem_cons.mpr ⟨trivial, hpush⟩
      · exact (StepSystem.run_cons_eq_some _).mpr ⟨_, hstep, hrun⟩
      · exact hkept l (Queues.blocked_push hl _ _)
      · exact List.forall_mem_cons.mpr ⟨hkept link hblocked, hall⟩
    · have hlink : (s.queues link).Blocked :=
        BoundedQueue.blocked_of_room_eq_zero (fun hi => hs ⟨link, hi⟩)
          (Nat.eq_zero_of_not_pos hroom)
      obtain ⟨labels, t, hpush, hrun, hkept, hall⟩ := ih hs
      exact ⟨labels, t, hpush, hrun, hkept, List.forall_mem_cons.mpr ⟨hkept link hlink, hall⟩⟩

def start (stdin : Bytes) : Transfers capacity := { stdin := stdin }

theorem someFits_start (stdin : Bytes) :
    (start stdin : Transfers capacity).queues.SomeFits :=
  ⟨.pipe, BoundedQueue.fits_empty⟩

/-- Whatever the capacities, the standard input and the script are: in a run whose
writes all begin with room the parties are never all blocked. -/
theorem statesMeet_not_deadlock (socket : Socket) (stdin : Bytes) {labels : List TransferStep}
    (h : (transferSystem socket capacity).StepsMeet Roomy (start stdin) labels) :
    (transferSystem socket capacity).StatesMeet (fun s => ¬ s.Deadlock) (start stdin) labels := by
  have hfits : (transferSystem socket capacity).StatesMeet (fun s => s.queues.SomeFits)
      (start stdin) labels :=
    h.statesMeet (fun _ _ _ hs hroomy hstep => someFits_step hs hroomy hstep)
      (someFits_start stdin)
  exact hfits.mono fun _ hs => hs.not_allBlocked

/-- From no state of a run can the parties block one another by going on with their
writes, exactly when the writes of the run all begin with room; once they are blocked,
none of them takes a step any more. The parties are those of the source. -/
theorem pushes_not_deadlock_iff (socket : Socket) (stdin : Bytes) {labels : List TransferStep}
    {t : Transfers capacity} (hrun : (transferSystem socket capacity).run (start stdin) labels =
      some t) :
    ((transferSystem socket capacity).StatesMeet (fun s => ∀ pushes t,
        (∀ label ∈ pushes, label.IsPush) →
          (transferSystem socket capacity).run s pushes = some t → ¬ t.Deadlock)
        (start stdin) labels ↔
      (transferSystem socket capacity).StepsMeet Roomy (start stdin) labels) ∧
    ∀ s : Transfers capacity, (s.Deadlock → ∀ label, s.step socket label = none) ∧
      s.AgreesWithSource := by
  refine ⟨StepSystem.statesMeet_iff_stepsMeet (J := fun s => s.queues.SomeFits)
    (fun _ _ _ hs hroomy hstep => someFits_step hs hroomy hstep) ?_ ?_ (someFits_start stdin) hrun,
    fun s => ⟨step_of_deadlock socket, s.agreesWithSource⟩⟩
  · intro s hs pushes t hpush hrun
    exact (someFits_of_pushes socket hs hpush hrun).not_allBlocked
  · intro s label s' _ hroomy hstep hnever
    obtain ⟨pushes, t, hpush, hrun, -, hall⟩ := exists_blocking_pushes socket
      [.clientToServer, .pipe, .serverToClient] (not_someFits_step hroomy hstep)
    refine hnever pushes t hpush hrun fun link => hall link ?_
    cases link <;> decide

def smallBuffers : Link → ℕ
  | .clientToServer => 11
  | .pipe => 1
  | .serverToClient => 1

def readThenPrint : List TransferStep :=
  .clientSelects true true 2 :: .pushes .clientToServer 11 ::
    List.append (List.replicate 9 .handlerReadsHeader)
      [.handlerReadsBody 2, .handlerTransfers, .pushes .pipe 1, .scriptReads 1, .pushes .pipe 1,
        .scriptReads 1, .scriptWrites .out ⟨ascii "x", by decide +kernel⟩,
        .pushes .serverToClient 1, .clientSelects false true 512, .clientReceives 1,
        .pushes .serverToClient 1]

theorem statesMeet_not_deadlock_readThenPrint :
    ((transferSystem (offering 512).socket smallBuffers).run (start (ascii "abcde"))
      readThenPrint).isSome = true ∧
    (transferSystem (offering 512).socket smallBuffers).StatesMeet (fun s => ¬ s.Deadlock)
      (start (ascii "abcde")) readThenPrint :=
  ⟨by decide +kernel, statesMeet_not_deadlock (offering 512).socket (ascii "abcde")
    (by decide +kernel)⟩

def printThenRead : List TransferStep :=
  .clientSelects true true 2 :: .pushes .clientToServer 11 ::
    List.append (List.replicate 9 .handlerReadsHeader)
      [.handlerReadsBody 2, .handlerTransfers, .pushes .pipe 1, .clientSelects true true 512,
        .pushes .clientToServer 11, .scriptWrites .out ⟨ascii "x", by decide +kernel⟩,
        .pushes .serverToClient 1]

theorem deadlock_printThenRead : (∀ link, 0 < smallBuffers link) ∧
    ∃ t ∈ (transferSystem (offering 512).socket smallBuffers).run (start (ascii "abcde"))
      printThenRead, t.Deadlock := by
  refine ⟨fun link => by cases link <;> decide, ?_⟩
  decide +kernel

/-- In the other order nothing can go wrong, whatever room there is. -/
theorem pushes_not_deadlock_iff_readThenPrint : ∃ t,
    (transferSystem (offering 512).socket smallBuffers).run (start (ascii "abcde"))
      readThenPrint = some t ∧
    ∀ pushes t', (∀ label ∈ pushes, label.IsPush) →
      (transferSystem (offering 512).socket smallBuffers).run t pushes = some t' →
        ¬ t'.Deadlock := by
  have hrun : ((transferSystem (offering 512).socket smallBuffers).run (start (ascii "abcde"))
      readThenPrint).isSome = true := by decide +kernel
  obtain ⟨t, hrun⟩ := Option.isSome_iff_exists.mp hrun
  have hstates := (pushes_not_deadlock_iff (offering 512).socket (ascii "abcde") hrun).1.mpr
    (by decide +kernel)
  exact ⟨t, hrun, hstates.last hrun⟩

end Transfers
end GroovyServ

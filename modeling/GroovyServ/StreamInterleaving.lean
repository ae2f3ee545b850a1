import GroovyServ.ResponseRoundTrip
import GroovyServ.StepSystem

/-!
# Threads that write to one session at once

A write to the session's `out` or `err` puts a header and then a body on the
socket stream, which the two share with each other and with `sendExit`. Only the
lock of the `PrintStream` of its channel is held meanwhile, so that other writes
may come between. The client decodes the stream to what was written as long as
none does.
-/

namespace GroovyServ

open Client

namespace Server

/-- The socket stream of a session, and the write that holds each channel's lock
with its header sent and its body not. `written` are the writes done before the
exit status. -/
structure Writers (ι : Type*) where
  bytes : Bytes := []
  writing : Channel → Option (ι × JByteArray) := fun _ => none
  written : List (Channel × JByteArray) := []
  exit : Option JInt := none

inductive WriterStep (ι : Type*) where
  | writeHeader (i : ι) (channel : Channel) (body : JByteArray)
  | writeBody (i : ι) (channel : Channel)
  | sendExit (status : JInt) (message : Option Bytes)

namespace Writers

variable {ι : Type*} [DecidableEq ι]

def idle (s : Writers ι) (i : ι) : Bool :=
  [Channel.out, .err].all fun channel => (s.writing channel).all fun w => w.1 ≠ i

def step (s : Writers ι) : WriterStep ι → Option (Writers ι)
  | .writeHeader i channel body =>
    if s.writing channel = none ∧ s.idle i then
      some { s with
        bytes := s.bytes ++ formatAsResponseHeader channel body.val.length
        writing := Function.update s.writing channel (some (i, body)) }
    else none
  | .writeBody i channel =>
    match s.writing channel with
    | some (j, body) =>
      if j = i then
        some { s with
          bytes := s.bytes ++ body.val
          writing := Function.update s.writing channel none
          written := if s.exit = none then s.written ++ [(channel, body)] else s.written }
      else none
    | none => none
  | .sendExit status message =>
    if s.exit = none then
      some { s with
        bytes := s.bytes ++ (Server.sendExit false status message).flatten
        exit := some status }
    else none

end Writers

def writerSystem (ι : Type*) [DecidableEq ι] : StepSystem (Writers ι) (WriterStep ι) :=
  ⟨Writers.step⟩

variable {ι : Type*}

/-- The client gets to where it has put out what was written, and has ended with the
exit status once that is sent. -/
def Decoded (s : Writers ι) : Prop :=
  ∀ (sys : System) (headers : List Header) (stdin : Bytes), sys.Live →
    headers.length = maxHeader → ∃ n : ℕ,
      (runSession sys n (startSession headers s.bytes stdin)).ended =
        s.exit.map (fun status => .returned status.val) ∧
      (runSession sys n (startSession headers s.bytes stdin)).out = channelBytes .out s.written ∧
      (runSession sys n (startSession headers s.bytes stdin)).err = channelBytes .err s.written

/-- Between the header of a body that is not empty and the body itself nothing else
is written, unless the exit status is already sent. -/
def Uninterrupted (s : Writers ι) (label : WriterStep ι) : Prop :=
  s.exit = none → ∀ channel i body, s.writing channel = some (i, body) → body.val ≠ [] →
    label = .writeBody i channel

/-- Where the stream stands: between two frames, behind the header of a frame, or
behind the exit status. -/
inductive Layout (s : Writers ι) (chunks : List (Channel × JByteArray)) : Prop where
  | between (hexit : s.exit = none)
      (hidle : ∀ channel i body, s.writing channel = some (i, body) → body.val = [])
      (hbytes : s.bytes = chunks.flatMap frame)
  | inside (channel : Channel) (i : ι) (body : JByteArray) (hexit : s.exit = none)
      (hwriting : s.writing channel = some (i, body)) (hne : body.val ≠ [])
      (hothers : ∀ channel' j body', s.writing channel' = some (j, body') → channel' ≠ channel →
        body'.val = [])
      (hbytes : s.bytes = chunks.flatMap frame ++ formatAsResponseHeader channel body.val.length)
  | after (status : JInt) (message : Option Bytes) (rest : Bytes) (hexit : s.exit = some status)
      (hbytes : s.bytes = chunks.flatMap frame ++ (formatAsExitHeader status message ++ rest))

/-- The stream holds frames that carry what was written. -/
def WholeFrames (s : Writers ι) : Prop :=
  ∃ chunks, (∀ channel, channelBytes channel chunks = channelBytes channel s.written) ∧
    Layout s chunks

theorem channelBytes_concat (channel : Channel) (chunks : List (Channel × JByteArray))
    (c : Channel × JByteArray) :
    channelBytes channel (chunks ++ [c]) =
      channelBytes channel chunks ++ if c.1 = channel then c.2.val else [] := by
  simp [channelBytes]

theorem flatMap_frame_concat (chunks : List (Channel × JByteArray)) (channel : Channel)
    (body : JByteArray) :
    (chunks ++ [(channel, body)]).flatMap frame =
      chunks.flatMap frame ++ formatAsResponseHeader channel body.val.length ++ body.val := by
  simp [frame]

theorem wholeFrames_start : WholeFrames ({} : Writers ι) :=
  ⟨[], fun _ => rfl, .between rfl (fun _ _ _ h => by cases h) rfl⟩

theorem WholeFrames.decoded {s : Writers ι} (h : WholeFrames s) : Decoded s := by
  obtain ⟨chunks, hwritten, hlayout⟩ := h
  intro sys headers stdin hsys hheaders
  have hreceives : ∀ rest, s.exit = none → s.bytes = chunks.flatMap frame ++ rest → ∃ n : ℕ,
      (runSession sys n (startSession headers s.bytes stdin)).ended =
        s.exit.map (fun status => .returned status.val) ∧
      (runSession sys n (startSession headers s.bytes stdin)).out = channelBytes .out s.written ∧
      (runSession sys n (startSession headers s.bytes stdin)).err =
        channelBytes .err s.written := by
    intro rest hexit hbytes
    obtain ⟨n, hn⟩ := session_receives sys hsys chunks rest (startSession headers s.bytes stdin)
      rfl hheaders hbytes
    rw [hexit, ← hwritten, ← hwritten]
    exact ⟨n, hn.ended, hn.out, hn.err⟩
  cases hlayout with
  | between hexit hidle hbytes => exact hreceives [] hexit (by rw [hbytes, List.append_nil])
  | inside channel i body hexit hwriting hne hothers hbytes => exact hreceives _ hexit hbytes
  | after status message rest hexit hbytes =>
    obtain ⟨n, hn⟩ := session_decodes sys hsys chunks status message rest
      (startSession headers s.bytes stdin) rfl hheaders hbytes
    rw [hexit, ← hwritten, ← hwritten]
    exact ⟨n, hn.ended, hn.out, hn.err⟩

theorem writing_update {writing : Channel → Option (ι × JByteArray)} {channel channel' : Channel}
    {w : Option (ι × JByteArray)} {w' : ι × JByteArray}
    (h : Function.update writing channel w channel' = some w') :
    (channel' = channel ∧ w = some w') ∨ (channel' ≠ channel ∧ writing channel' = some w') := by
  by_cases hc : channel' = channel
  · subst hc
    rw [Function.update_self] at h
    exact .inl ⟨rfl, h⟩
  · rw [Function.update_of_ne hc] at h
    exact .inr ⟨hc, h⟩

theorem uninterrupted_writeBody (s : Writers ι) {i : ι} {channel : Channel} {body : JByteArray}
    (hwriting : s.writing = Function.update (fun _ => none) channel (some (i, body))) :
    Uninterrupted s (.writeBody i channel) := by
  intro _ channel' j body' hw _
  rw [hwriting] at hw
  rcases writing_update hw with ⟨rfl, hsame⟩ | ⟨-, hnone⟩
  · cases hsame
    rfl
  · cases hnone

variable [DecidableEq ι]

theorem step_writeHeader {s s' : Writers ι} {i : ι} {channel : Channel} {body : JByteArray}
    (h : s.step (.writeHeader i channel body) = some s') :
    s.writing channel = none ∧ s' = { s with
      bytes := s.bytes ++ formatAsResponseHeader channel body.val.length
      writing := Function.update s.writing channel (some (i, body)) } := by
  simp only [Writers.step, Option.ite_none_right_eq_some, Option.some.injEq] at h
  exact ⟨h.1.1, h.2.symm⟩

theorem step_writeBody {s s' : Writers ι} {i : ι} {channel : Channel}
    (h : s.step (.writeBody i channel) = some s') :
    ∃ body, s.writing channel = some (i, body) ∧ s' = { s with
      bytes := s.bytes ++ body.val
      writing := Function.update s.writing channel none
      written := if s.exit = none then s.written ++ [(channel, body)] else s.written } := by
  rw [Writers.step] at h
  cases hwriting : s.writing channel with
  | none => simp [hwriting] at h
  | some w =>
    obtain ⟨j, body⟩ := w
    simp only [hwriting, Option.ite_none_right_eq_some, Option.some.injEq] at h
    obtain ⟨rfl, rfl⟩ := h
    exact ⟨body, rfl, rfl⟩

theorem step_sendExit {s s' : Writers ι} {status : JInt} {message : Option Bytes}
    (h : s.step (.sendExit status message) = some s') :
    s.exit = none ∧ s' = { s with
      bytes := s.bytes ++ formatAsExitHeader status message
      exit := some status } := by
  simp only [Writers.step, Server.sendExit, Option.ite_none_right_eq_some,
    Option.some.injEq] at h
  exact ⟨h.1, by simpa using h.2.symm⟩

theorem WholeFrames.writeHeader {s s' : Writers ι} {i : ι} {channel : Channel} {body : JByteArray}
    (h : WholeFrames s) (hlabel : Uninterrupted s (.writeHeader i channel body))
    (hstep : s.step (.writeHeader i channel body) = some s') : WholeFrames s' := by
  obtain ⟨hfree, rfl⟩ := step_writeHeader hstep
  obtain ⟨chunks, hwritten, hlayout⟩ := h
  cases hlayout with
  | between hexit hidle hbytes =>
    by_cases hnil : body.val = []
    · refine ⟨chunks ++ [(channel, body)], fun c => ?_, .between hexit (fun c j b hb => ?_) ?_⟩
      · rw [channelBytes_concat, hnil, ite_self, List.append_nil, hwritten]
      · rcases writing_update hb with ⟨-, hsame⟩ | ⟨-, hold⟩
        · cases hsame
          exact hnil
        · exact hidle c j b hold
      · rw [flatMap_frame_concat, hbytes, hnil, List.append_nil]
    · refine ⟨chunks, hwritten, .inside channel i body hexit (Function.update_self _ _ _) hnil
        (fun c j b hb hc => ?_) ?_⟩
      · rcases writing_update hb with ⟨hsame, -⟩ | ⟨-, hold⟩
        · exact absurd hsame hc
        · exact hidle c j b hold
      · rw [hbytes]
  | inside channel' j body' hexit hwriting hne hothers hbytes =>
    cases hlabel hexit channel' j body' hwriting hne
  | after status message rest hexit hbytes =>
    refine ⟨chunks, hwritten, .after status message
      (rest ++ formatAsResponseHeader channel body.val.length) hexit ?_⟩
    simp [hbytes]

theorem WholeFrames.writeBody {s s' : Writers ι} {i : ι} {channel : Channel}
    (h : WholeFrames s) (hlabel : Uninterrupted s (.writeBody i channel))
    (hstep : s.step (.writeBody i channel) = some s') : WholeFrames s' := by
  obtain ⟨body, hbody, rfl⟩ := step_writeBody hstep
  obtain ⟨chunks, hwritten, hlayout⟩ := h
  have hothers' : ∀ c j b, Function.update s.writing channel none c = some (j, b) →
      c ≠ channel ∧ s.writing c = some (j, b) := by
    intro c j b hb
    rcases writing_update hb with ⟨-, hnone⟩ | hold
    · cases hnone
    · exact hold
  cases hlayout with
  | between hexit hidle hbytes =>
    have hnil : body.val = [] := hidle channel i body hbody
    refine ⟨chunks, fun c => ?_, .between hexit (fun c j b hb => ?_) ?_⟩
    · rw [if_pos hexit, channelBytes_concat, hnil, ite_self, List.append_nil, hwritten]
    · exact hidle c j b (hothers' c j b hb).2
    · rw [hnil, List.append_nil, hbytes]
  | inside channel' j body' hexit hwriting hne hothers hbytes =>
    cases hlabel hexit channel' j body' hwriting hne
    obtain rfl : body = body' := by
      rw [hwriting] at hbody
      cases hbody
      rfl
    refine ⟨chunks ++ [(channel, body)], fun c => ?_, .between hexit (fun c j b hb => ?_) ?_⟩
    · rw [if_pos hexit, channelBytes_concat, channelBytes_concat, hwritten]
    · exact hothers c j b (hothers' c j b hb).2 (hothers' c j b hb).1
    · rw [flatMap_frame_concat, hbytes]
  | after status message rest hexit hbytes =>
    refine ⟨chunks, fun c => ?_, .after status message (rest ++ body.val) hexit ?_⟩
    · rw [if_neg (by simp [hexit]), hwritten]
    · simp [hbytes]

theorem WholeFrames.sendExit {s s' : Writers ι} {status : JInt} {message : Option Bytes}
    (h : WholeFrames s) (hlabel : Uninterrupted s (.sendExit status message))
    (hstep : s.step (.sendExit status message) = some s') : WholeFrames s' := by
  obtain ⟨hexit', rfl⟩ := step_sendExit hstep
  obtain ⟨chunks, hwritten, hlayout⟩ := h
  cases hlayout with
  | between hexit hidle hbytes =>
    exact ⟨chunks, hwritten, .after status message [] rfl (by rw [hbytes, List.append_nil])⟩
  | inside channel' j body' hexit hwriting hne hothers hbytes =>
    cases hlabel hexit channel' j body' hwriting hne
  | after status' message' rest hexit hbytes =>
    rw [hexit'] at hexit
    cases hexit

theorem WholeFrames.step {s s' : Writers ι} {label : WriterStep ι} (h : WholeFrames s)
    (hlabel : Uninterrupted s label) (hstep : s.step label = some s') : WholeFrames s' := by
  cases label with
  | writeHeader i channel body => exact h.writeHeader hlabel hstep
  | writeBody i channel => exact h.writeBody hlabel hstep
  | sendExit status message => exact h.sendExit hlabel hstep

/-- Along a run in which nothing comes between the header and the body of a write,
the client decodes every state of the stream to what was written. -/
theorem decoded_of_uninterrupted {labels : List (WriterStep ι)}
    (h : (writerSystem ι).StepsMeet Uninterrupted {} labels) :
    (writerSystem ι).StatesMeet Decoded {} labels :=
  (h.statesMeet (fun _ _ _ hs hlabel hstep => hs.step hlabel hstep) wholeFrames_start).mono
    fun _ hs => hs.decoded

def oneByte (b : UInt8) : JByteArray := ⟨[b], Nat.one_lt_two_pow (by decide)⟩

theorem decoded_of_uninterrupted_inTurn :
    (writerSystem ℕ).StatesMeet Decoded {} [.writeHeader 0 .out (oneByte 65), .writeBody 0 .out,
      .sendExit ⟨0, by decide⟩ none] :=
  decoded_of_uninterrupted (by
    refine ⟨(fun _ _ _ _ h => nomatch h), fun s hs => ⟨?_, fun s' hs' => ⟨?_, fun _ _ => trivial⟩⟩⟩
    · have hheader : Writers.step {} (.writeHeader 0 .out (oneByte 65)) = some s := hs
      obtain ⟨-, rfl⟩ := step_writeHeader hheader
      exact uninterrupted_writeBody _ rfl
    · have hheader : Writers.step {} (.writeHeader 0 .out (oneByte 65)) = some s := hs
      have hbody : s.step (.writeBody 0 .out) = some s' := hs'
      obtain ⟨-, rfl⟩ := step_writeHeader hheader
      obtain ⟨body, -, rfl⟩ := step_writeBody hbody
      intro _ channel i body h
      simp at h)

def socketSystem : System where
  recvOffer _ := 512
  stdinOffer _ := some 0
  select _ := .ready false true

theorem socketSystem_live : socketSystem.Live where
  select_ready _ := ⟨false, true, rfl⟩
  stdin_readable _ := ⟨0, rfl⟩
  socket_ready _ := ⟨0, false, rfl⟩

/-- Two writes of one byte whose headers are sent before their bodies: the client
puts out the start of the second header and gives up. -/
theorem not_decoded_interleaved : ∃ s,
    (writerSystem ℕ).run {} [.writeHeader 0 .out (oneByte 65), .writeHeader 1 .err (oneByte 66),
      .writeBody 0 .out, .writeBody 1 .err, .sendExit ⟨0, by decide⟩ none] = some s ∧
    (runSession socketSystem 2 (startSession (List.replicate maxHeader blankHeader) s.bytes
      [])).ended = some (.returned 1) ∧
    (runSession socketSystem 2 (startSession (List.replicate maxHeader blankHeader) s.bytes
      [])).out = ascii "C" ∧ ¬ Decoded s := by
  refine ⟨_, rfl, by decide +kernel, by decide +kernel, fun h => ?_⟩
  obtain ⟨n, hended, -⟩ := h socketSystem (List.replicate maxHeader blankHeader) []
    socketSystem_live List.length_replicate
  rcases Nat.lt_or_ge n 2 with hlt | hge
  · interval_cases n <;> exact absurd hended (by decide +kernel)
  · rw [runSession_of_le socketSystem hge (by decide +kernel)] at hended
    exact absurd hended (by decide +kernel)

end Server
end GroovyServ

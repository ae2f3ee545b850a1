import GroovyServ.ClientMain
import GroovyServ.RemoteScript
import GroovyServ.RequestWorker

/-!
# A script run with the C client

The session loop of the C client keeps to the laws, as long as it does not come to the
end of its standard input. A script behind the server then looks to the user of the
client like the script itself, run with the arguments of the request.
-/

namespace GroovyServ

open Lines Server Remoting

namespace Client

def Session.view (s : Session) : ClientView where
  socket := s.socket
  stdin := s.stdin
  out := s.out
  err := s.err
  ended :=
    match s.ended with
    | some (.returned status) => some status
    | _ => none

/-- An iteration of the loop; `select` does not report the socket while nothing has arrived. -/
def sessionTurn (sys : System) (s : Session) : Option (Session × Bytes) :=
  if s.ended.isSome ∨ (∃ stdin, sys.select s.selects = .ready stdin true) ∧ s.socket = [] then none
  else
    let s' := sessionStep sys s
    some (s', (s'.written.drop s.written.length).flatten)

def sessionClient : SessionClient Session System where
  view := Session.view
  deliver b s := { s with socket := s.socket ++ b }
  turn := sessionTurn
  epilogue _ _ := []

/-- The session goes on, or `start_session` has returned. -/
structure Session.Good (s : Session) : Prop where
  headers : s.ended = none → s.headers.length = maxHeader
  stdinClosed : s.stdinClosed = false
  ended : s.ended = none ∨ ∃ status, s.ended = some (.returned status)

/-- The system answers without errors, and standard input is not at its end when it is read. -/
def Session.Calm (s : Session) (sys : System) : Prop :=
  ∃ stdin socket, sys.select s.selects = .ready stdin socket ∧
    (stdin = true → s.stdin ≠ [] ∧ ∃ offer, sys.stdinOffer s.reads = some offer)

theorem Session.view_of_none {s : Session} (hs : s.ended = none) :
    s.view = ⟨s.socket, s.stdin, s.out, s.err, none⟩ := by
  rw [Session.view, hs]

theorem Session.ended_of_view {s : Session} (hgood : s.Good) (hs : s.view.ended = none) :
    s.ended = none := by
  rcases hgood.ended with hnone | ⟨status, hstatus⟩
  · exact hnone
  · rw [Session.view, hstatus] at hs
    cases hs

/-- One call of `send_to_server` takes a batch from standard input that is not at its end. -/
theorem sendToServer_batch (sys : System) {s : Session} {offer : ℕ}
    (hoffer : sys.stdinOffer s.reads = some offer) (hne : s.stdin ≠ []) :
    ∃ batch rest, batch ≠ [] ∧ batch.length ≤ bufferSize ∧ s.stdin = batch ++ rest ∧
      sendToServer sys s =
        { s with
          stdin := rest
          reads := s.reads + 1
          written := s.written ++ [streamRequestHeader batch.length, batch]
          stdinClosed := false } := by
  have hpos := shortCount_pos offer bufferSize s.stdin.length
  have hle := shortCount_le offer bufferSize s.stdin.length (by decide)
    (List.length_pos_of_ne_nil hne)
  rw [sendToServer, hoffer]
  simp only [if_neg hne]
  generalize shortCount offer bufferSize s.stdin.length = ret at hpos hle ⊢
  have hlen : (s.stdin.take ret).length = ret := by
    rw [List.length_take]
    omega
  refine ⟨s.stdin.take ret, s.stdin.drop ret, ?_, by rw [hlen]; omega,
    (List.take_append_drop _ _).symm, ?_⟩
  · exact List.ne_nil_of_length_pos (by rw [hlen]; exact hpos)
  · rw [hlen, decide_eq_false (by omega : ¬ ret = 0)]

theorem receiveResponse_written (sys : System) (channel : Channel) (body : JByteArray)
    {rest : Bytes} {s : Session} (hheaders : s.headers.length = maxHeader)
    (hsocket : s.socket = frame (channel, body) ++ rest) :
    (receiveResponse sys s).written = s.written := by
  obtain ⟨headers', k, -, hframe⟩ :=
    receiveResponse_frame sys channel body rest s hheaders hsocket
  rw [hframe]
  cases channel <;> rfl

theorem responses_cons (c : Chunk) (cs : List Chunk) (exited : Option JInt) :
    responses (c :: cs) exited = frame c ++ responses cs exited := by
  simp [responses]

theorem receiveResponse_display (sys : System) {s : Session} {c : Chunk} {cs : List Chunk}
    {exited : Option JInt} (hgood : s.Good) (hended : s.ended = none)
    (hsocket : s.socket = responses (c :: cs) exited) :
    (receiveResponse sys s).Good ∧ (receiveResponse sys s).written = s.written ∧
      (receiveResponse sys s).view = { s.view.show c with socket := responses cs exited } := by
  obtain ⟨channel, body⟩ := c
  rw [responses_cons] at hsocket
  obtain ⟨headers', k, hheaders', hframe⟩ :=
    receiveResponse_frame sys channel body _ s (hgood.headers hended) hsocket
  have hended' : (receiveResponse sys s).ended = none := by
    rw [hframe, emit_ended]
    exact hended
  refine ⟨⟨?_, ?_, .inl hended'⟩, ?_, ?_⟩
  · intro _
    rw [hframe, emit_headers]
    exact hheaders'
  · rw [hframe]
    cases channel <;> exact hgood.stdinClosed
  · exact receiveResponse_written sys channel body (hgood.headers hended) hsocket
  · rw [Session.view_of_none hended', Session.view_of_none hended, hframe]
    cases channel <;> rfl

theorem receiveResponse_finish (sys : System) {s : Session} {status : JInt} (hgood : s.Good)
    (hended : s.ended = none) (hsocket : s.socket = responses [] (some status)) :
    (receiveResponse sys s).Good ∧ (receiveResponse sys s).written = s.written ∧
      ∃ rest, (receiveResponse sys s).view =
        s.view.finish sessionClient.epilogue status rest := by
  have hsocket' : s.socket = formatAsExitHeader status none ++ [] := by
    rw [hsocket, List.append_nil]
    rfl
  obtain ⟨headers', socket', hexit⟩ :=
    receiveResponse_exit sys status none [] s (hgood.headers hended) hsocket'
  refine ⟨⟨?_, ?_, .inr ⟨status, ?_⟩⟩, ?_, socket', ?_⟩
  all_goals rw [hexit]
  · exact nofun
  · exact hgood.stdinClosed
  · rfl
  · rfl
  · rw [ClientView.finish, Session.view_of_none hended]
    simp [Session.view, Session.finish, sessionClient]

def Session.selected (s : Session) : Session := { s with selects := s.selects + 1 }

theorem Session.Good.selected {s : Session} (h : s.Good) : s.selected.Good :=
  ⟨h.headers, h.stdinClosed, h.ended⟩

section Turns

variable {sys : System} {s : Session}

theorem sessionTurn_eq {r : Session × Bytes} (h : sessionTurn sys s = some r) :
    s.ended = none ∧
      r = (sessionStep sys s, ((sessionStep sys s).written.drop s.written.length).flatten) ∧
      ∀ stdin, sys.select s.selects = .ready stdin true → s.socket ≠ [] := by
  rw [sessionTurn] at h
  split_ifs at h with hwait
  cases h
  rw [not_or] at hwait
  exact ⟨Option.not_isSome_iff_eq_none.mp hwait.1, rfl,
    fun stdin hselect hnil => hwait.2 ⟨⟨stdin, hselect⟩, hnil⟩⟩

theorem sessionTurn_stdin (hgood : s.Good) (hended : s.ended = none) {socket : Bool} {offer : ℕ}
    (hselect : sys.select s.selects = .ready true socket) (hne : s.stdin ≠ [])
    (hoffer : sys.stdinOffer s.reads = some offer) :
    ∃ batch rest, (sessionStep sys s).Good ∧ batch ≠ [] ∧ batch.length ≤ bufferSize ∧
      s.stdin = batch ++ rest ∧
      ((sessionStep sys s).written.drop s.written.length).flatten = stdinFrame batch ∧
      (sessionStep sys s).view = { s.view with stdin := rest } := by
  obtain ⟨batch, rest, hbatch, hlen, hstdin, hsend⟩ :=
    sendToServer_batch sys (s := s.selected) hoffer hne
  have hstep := (sessionStep_stdin sys s hended hgood.stdinClosed hselect).trans hsend
  refine ⟨batch, rest, ?_, hbatch, hlen, hstdin, ?_, ?_⟩
  · rw [hstep]
    exact ⟨hgood.headers, rfl, hgood.ended⟩
  · rw [hstep]
    change ((s.written ++ _).drop _).flatten = _
    rw [List.drop_left]
    simp [stdinFrame]
  · rw [hstep, Session.view_of_none hended]
    exact Session.view_of_none hended

def socketSystem : System where
  recvOffer _ := bufferSize
  stdinOffer _ := some bufferSize
  select _ := .ready false true

def stdinSystem : System where
  recvOffer _ := bufferSize
  stdinOffer _ := some bufferSize
  select _ := .ready true false

theorem sessionTurn_socket (hended : s.ended = none) (hne : s.socket ≠ []) :
    sessionTurn socketSystem s =
      some (receiveResponse socketSystem s.selected,
        ((receiveResponse socketSystem s.selected).written.drop s.written.length).flatten) := by
  have hstep := sessionStep_socket socketSystem s hended rfl fun h => Bool.false_ne_true h.2
  have hwait : ¬ (s.ended.isSome ∨
      (∃ stdin, socketSystem.select s.selects = .ready stdin true) ∧ s.socket = []) := by
    rw [hended]
    simp [hne]
  rw [sessionTurn, if_neg hwait, hstep]
  rfl

end Turns

theorem responses_ne_nil {chunks : List Chunk} {exited : Option JInt}
    (h : responses chunks exited ≠ []) :
    (∃ c cs, chunks = c :: cs) ∨ chunks = [] ∧ ∃ status, exited = some status := by
  cases chunks with
  | cons c cs => exact .inl ⟨c, cs, rfl⟩
  | nil =>
    cases exited with
    | none => exact absurd rfl h
    | some status => exact .inr ⟨rfl, status, rfl⟩

theorem frame_ne_nil (c : Chunk) : frame c ≠ [] := by
  simp [frame, formatAsResponseHeader_eq]

theorem formatAsExitHeader_ne_nil (status : ℤ) (message : Option Bytes) :
    formatAsExitHeader status message ≠ [] := by
  simp [formatAsExitHeader_eq]

theorem sessionTurn_lawful {sys : System} {s : Session} {chunks : List Chunk}
    {exited : Option JInt} (hgood : s.Good) (hcalm : s.Calm sys) (hended : s.ended = none)
    (hwait : ∀ stdin, sys.select s.selects = .ready stdin true → s.socket ≠ [])
    (hsocket : s.socket = responses chunks exited) :
    (sessionStep sys s).Good ∧
      Turn sessionClient.epilogue chunks exited s.view (sessionStep sys s).view
        ((sessionStep sys s).written.drop s.written.length).flatten := by
  obtain ⟨stdin, socket, hselect, hstdin⟩ := hcalm
  cases stdin with
  | true =>
    obtain ⟨hne, offer, hoffer⟩ := hstdin rfl
    obtain ⟨batch, rest, hgood', hbatch, hlen, hsplit, hwritten, hview⟩ :=
      sessionTurn_stdin hgood hended hselect hne hoffer
    rw [hwritten, hview]
    exact ⟨hgood', .send batch rest hbatch hlen hsplit⟩
  | false =>
    have hnot : ¬ (s.stdinClosed = false ∧ false = true) := fun h => nomatch h.2
    cases socket with
    | false =>
      rw [sessionStep_idle sys s hended hselect hnot, List.drop_length, List.flatten_nil]
      exact ⟨⟨hgood.headers, hgood.stdinClosed, hgood.ended⟩, .idle⟩
    | true =>
      have hnone : ∀ t : Session, t.written = s.written →
          (t.written.drop s.written.length).flatten = [] := fun t ht => by
        rw [ht, List.drop_length, List.flatten_nil]
      rw [sessionStep_socket sys s hended hselect hnot]
      change (receiveResponse sys s.selected).Good ∧
        Turn sessionClient.epilogue chunks exited s.view (receiveResponse sys s.selected).view
          ((receiveResponse sys s.selected).written.drop s.written.length).flatten
      rcases responses_ne_nil (hsocket ▸ hwait false hselect) with
        ⟨c, cs, rfl⟩ | ⟨rfl, status, rfl⟩
      · obtain ⟨hgood', hwritten, hview⟩ :=
          receiveResponse_display sys hgood.selected hended hsocket
        rw [hnone _ hwritten, hview]
        exact ⟨hgood', .display c cs rfl⟩
      · obtain ⟨hgood', hwritten, rest, hview⟩ :=
          receiveResponse_finish sys hgood.selected hended hsocket
        rw [hnone _ hwritten, hview]
        exact ⟨hgood', .finish status rest rfl rfl⟩

/-- The C client keeps to the laws. -/
theorem sessionClient_laws : ClientLaws sessionClient Session.Good Session.Calm where
  view_deliver b s := rfl
  good_deliver b s h := ⟨h.headers, h.stdinClosed, h.ended⟩
  running := by
    intro sys s s' written h
    change s.view.ended = none
    rw [Session.view_of_none (sessionTurn_eq h).1]
  lawful := by
    intro sys s s' written chunks exited hgood hcalm h hsocket
    obtain ⟨hended, heq, hwait⟩ := sessionTurn_eq h
    obtain ⟨rfl, rfl⟩ := Prod.mk.inj heq
    exact sessionTurn_lawful hgood hcalm hended hwait hsocket
  sends := by
    intro s hgood hended hne
    have hended := Session.ended_of_view hgood hended
    have hselect : stdinSystem.select s.selects = .ready true false := rfl
    obtain ⟨batch, rest, hgood', hbatch, hlen, hsplit, hwritten, hview⟩ :=
      sessionTurn_stdin hgood hended hselect hne rfl
    refine ⟨stdinSystem, _, batch, rest, hgood', ⟨true, false, rfl, fun _ => ⟨hne, _, rfl⟩⟩,
      hbatch, hlen, hsplit, ?_, hview⟩
    have hwait : ¬ (s.ended.isSome ∨
        (∃ stdin, stdinSystem.select s.selects = .ready stdin true) ∧ s.socket = []) := by
      rw [hended]
      simp [stdinSystem]
    change sessionTurn stdinSystem s = _
    rw [sessionTurn, if_neg hwait, ← hwritten]
  displays := by
    intro s c cs exited hgood hended hsocket
    have hended := Session.ended_of_view hgood hended
    have hne : s.socket ≠ [] := by
      change s.socket = _ at hsocket
      rw [hsocket, responses_cons]
      simp [frame_ne_nil]
    obtain ⟨hgood', hwritten, hview⟩ :=
      receiveResponse_display socketSystem hgood.selected hended hsocket
    refine ⟨socketSystem, _, hgood', ⟨false, true, rfl, nofun⟩, ?_, hview⟩
    change sessionTurn socketSystem s = _
    rw [sessionTurn_socket hended hne, hwritten]
    change some (_, (s.written.drop s.written.length).flatten) = _
    rw [List.drop_length, List.flatten_nil]
  finishes := by
    intro s status hgood hended hsocket
    have hended := Session.ended_of_view hgood hended
    have hne : s.socket ≠ [] := by
      change s.socket = _ at hsocket
      rw [hsocket]
      simp [responses, formatAsExitHeader_ne_nil]
    obtain ⟨hgood', hwritten, rest, hview⟩ :=
      receiveResponse_finish socketSystem hgood.selected hended hsocket
    refine ⟨socketSystem, _, rest, hgood', ⟨false, true, rfl, nofun⟩, ?_, hview⟩
    change sessionTurn socketSystem s = _
    rw [sessionTurn_socket hended hne, hwritten]
    change some (_, (s.written.drop s.written.length).flatten) = _
    rw [List.drop_length, List.flatten_nil]

end Client

structure Server.Accepted.Admits (a : Accepted) (authtoken : Bytes) : Prop where
  address : a.socket.localLoopback = true ∨ a.socket.hostAddress ∈ a.server.allowFrom
  token : a.server.authToken = some ⟨trim authtoken⟩
  token_ne_nil : trim authtoken ≠ []
  decode : ∀ s, a.decodeBase64 (Base64.encode s) = some s

theorem worker_of_text (a : Accepted) (inv : Client.Invocation) {cwd : Bytes}
    (hplain : inv.Plain cwd) (hadmits : a.Admits inv.authtoken) (rest : Bytes) {bytes : Bytes}
    (hread : readInvocationRequest a.decodeBase64 a.server.authToken a.socket a.sleepInterrupted
        a.ending bytes =
      readInvocationRequest a.decodeBase64 a.server.authToken a.socket a.sleepInterrupted
        a.ending (inv.text cwd ++ rest)) :
    let request := receivedRequest inv cwd a.server.authToken a.socket
    openSession { a with bytes := bytes } = .ok (request, rest) ∧
      runRequestWorker { a with bytes := bytes } = handleRequest request := by
  intro request
  have haddress := checkAllowedClientAddress_of_allowed hadmits.address
  have hcheck : request.check a.sleepInterrupted = .ok () :=
    InvocationRequest.check_of_token rfl hadmits.token_ne_nil hadmits.token rfl a.sleepInterrupted
  have hopen : openSession { a with bytes := bytes } = .ok (request, rest) := by
    rw [openSession, haddress, ok_bind, hread,
      readInvocationRequest_text inv hplain hadmits.decode a.server.authToken a.socket
        a.sleepInterrupted a.ending rest, hcheck]
    rfl
  refine ⟨hopen, ?_⟩
  rw [runRequestWorker, hopen]
  simp [request, receivedRequest]

theorem sessionClient_start {headers : List Client.Header}
    (hheaders : headers.length = Client.maxHeader) {σ : Type} (stdin : Bytes) (state : σ) :
    Wire.Carries Client.sessionClient Client.Session.Good { state := state, unsent := stdin }
      (Wire.start (Client.startSession headers [] stdin) state) :=
  Wire.carries_start ⟨fun _ => hheaders, rfl, .inl rfl⟩ rfl state

variable {σ : Type} (p : ScriptProgram σ) (state : InvocationRequest → σ)

/-- The worker hands the script the arguments and the environment of the invocation, and
then the client shows, in whatever order the client, the handler of standard input and
the script take their turns, the beginning of what the script writes when it is run
beside the user; it ends with the script's status, when it has shown everything. -/
theorem remote_script_shows (a : Accepted) (inv : Client.Invocation) {cwd : CString}
    (hcwd : Client.getcwd inv.cwd = some cwd) (hplain : inv.Plain cwd)
    (hadmits : a.Admits inv.authtoken) {sent : Bytes} (hsent : Client.sendHeader inv = .ok sent)
    {headers : List Client.Header} (hheaders : headers.length = Client.maxHeader) (stdin : Bytes) :
    ∃ request : InvocationRequest, request.args = inv.argv.tail.reduceOption.map Subtype.val ∧
      request.cwd = some (trim cwd) ∧
      (∀ rest, openSession { a with bytes := sent ++ rest } = .ok (request, rest) ∧
        runRequestWorker { a with bytes := sent ++ rest } = handleRequest request) ∧
      ∀ ls w,
        let M := Wire.system Client.sessionClient p
        let w₀ := Wire.start (Client.startSession headers [] stdin) (state request)
        M.run w₀ ls = some w → M.StepsMeet (Wire.Calm Client.Session.Calm) w₀ ls →
        ∃ l, Local.Runs p { state := state request, input := stdin } l ∧
          w.client.out <+: channelBytes .out l.written ∧
          w.client.err <+: channelBytes .err l.written ∧
          (w.client.ended = none ∨ ∃ status, l.status = some status ∧
            w.client.ended = some (.returned status) ∧
            w.client.out = channelBytes .out l.written ∧
            w.client.err = channelBytes .err l.written) := by
  refine ⟨receivedRequest inv cwd a.server.authToken a.socket, rfl, rfl,
    fun rest => worker_of_text a inv hplain hadmits rest ?_, fun ls w hrun hcalm => ?_⟩
  · rw [(Client.sendHeader_ensures inv hcwd).post sent hsent]
  obtain ⟨q, hq, htold, hruns⟩ := (Wire.serves Client.sessionClient_laws).safe
    (sessionClient_start hheaders stdin _) (Queued.told_of_none rfl) hrun hcalm
  have hshows := hq.shows htold
  rcases hq.good.ended with hnone | ⟨z, hz⟩
  · have hview : (Client.sessionClient.view w.client).ended = none := by
      change w.client.view.ended = _
      rw [Client.Session.view_of_none hnone]
    obtain ⟨hout, herr⟩ := hshows.running hview
    exact ⟨q.toLocal, hruns, hout, herr, .inl hnone⟩
  · have hview : (Client.sessionClient.view w.client).ended = some z := by
      change w.client.view.ended = _
      rw [Client.Session.view, hz]
    obtain ⟨status, rfl, hlocal, hout, herr⟩ := hshows.ended z hview
    have hout' : w.client.out = channelBytes .out q.toLocal.written := by
      rwa [← List.append_nil (channelBytes .out _)]
    have herr' : w.client.err = channelBytes .err q.toLocal.written := by
      rwa [← List.append_nil (channelBytes .err _)]
    exact ⟨q.toLocal, hruns, hout'.symm ▸ List.prefix_rfl, herr'.symm ▸ List.prefix_rfl,
      .inr ⟨status, hlocal, hz, hout', herr'⟩⟩

/-- A script that shows the first byte it reads, and exits with its value. -/
def firstByte : ScriptProgram (Option UInt8 × Bool)
  | (none, _) => .read fun b => (some b, false)
  | (some b, false) => .write (.out, ⟨[b], by rw [List.length_singleton]; norm_num⟩) (some b, true)
  | (some b, true) => .exit ⟨b.toNat, by have := b.toNat_lt; omega⟩

def sampleAccepted : Accepted where
  decodeBase64 := Base64.decode
  server := { allowFrom := [], authToken := some ⟨ascii "cafe"⟩ }
  socket := { port := 1961, localLoopback := true, hostAddress := [], text := [] }
  sleepInterrupted := false
  ending := .waiting
  bytes := []

theorem sampleAccepted_admits : sampleAccepted.Admits sampleInvocation.authtoken where
  address := .inl rfl
  token := congrArg (fun token => some (AuthToken.mk token))
    (by decide +kernel : ascii "cafe" = trim sampleInvocation.authtoken)
  token_ne_nil := by decide +kernel
  decode := Base64.decode_encode

theorem remote_script_shows_sample :
    ∃ sent, Client.sendHeader sampleInvocation = .ok sent ∧ ∃ request : InvocationRequest,
      request.args = [[], [97, 10, 58, 200]] ∧
      ∀ ls w,
        let M := Wire.system Client.sessionClient firstByte
        let w₀ := Wire.start (Client.startSession
          (List.replicate Client.maxHeader blankHeader) [] (ascii "hello")) (none, false)
        M.run w₀ ls = some w → M.StepsMeet (Wire.Calm Client.Session.Calm) w₀ ls →
        ∃ l, Local.Runs firstByte { state := (none, false), input := ascii "hello" } l ∧
          w.client.out <+: channelBytes .out l.written := by
  have hcwd : Client.getcwd sampleInvocation.cwd = some (Client.literal "/tmp") := by
    decide +kernel
  obtain ⟨sent, hsent⟩ := (Client.sendHeader_ensures sampleInvocation hcwd).returns
    ⟨by decide +kernel, by decide +kernel⟩
  obtain ⟨request, hargs, -, -, hruns⟩ := remote_script_shows firstByte (fun _ => (none, false))
    sampleAccepted sampleInvocation hcwd
    { cwd := by decide +kernel
      authtoken := by decide +kernel
      envVars := by decide +kernel
      classpath := by decide +kernel }
    sampleAccepted_admits hsent
    (List.length_replicate : (List.replicate Client.maxHeader blankHeader).length = _)
    (ascii "hello")
  refine ⟨sent, hsent, request, hargs.trans (by decide +kernel), fun ls w hrun hcalm => ?_⟩
  obtain ⟨l, hlocal, hout, -⟩ := hruns ls w hrun hcalm
  exact ⟨l, hlocal, hout⟩

/-- Wherever such a session has got to, it can be taken on to the end that the script
comes to beside the user: nothing in it waits for ever. -/
theorem remote_script_completes {headers : List Client.Header}
    (hheaders : headers.length = Client.maxHeader) (stdin : Bytes) (s₀ : σ)
    {l : Local σ UInt8 Chunk JInt} {status : JInt}
    (hruns : Local.Runs p { state := s₀, input := stdin } l) (hstatus : l.status = some status)
    {ls : List (WireStep Client.System)} {w : Wire Client.Session σ}
    (hrun : (Wire.system Client.sessionClient p).run
      (Wire.start (Client.startSession headers [] stdin) s₀) ls = some w)
    (hcalm : (Wire.system Client.sessionClient p).StepsMeet (Wire.Calm Client.Session.Calm)
      (Wire.start (Client.startSession headers [] stdin) s₀) ls) :
    ∃ ls' w', (Wire.system Client.sessionClient p).run w ls' = some w' ∧
      (Wire.system Client.sessionClient p).StepsMeet (Wire.Calm Client.Session.Calm) w ls' ∧
      w'.client.view.ended = some status.val ∧
      w'.client.out = channelBytes .out l.written ∧
      w'.client.err = channelBytes .err l.written := by
  obtain ⟨w', ⟨ls', hrun', hcalm'⟩, hended, hout, herr⟩ :=
    Wire.completes_of_run Client.sessionClient_laws (sessionClient_start hheaders stdin s₀)
      (Queued.told_of_none rfl) hrun hcalm hruns hstatus
  exact ⟨ls', w', hrun', hcalm', hended, hout.trans (List.append_nil _),
    herr.trans (List.append_nil _)⟩

/-- The local run of that script on a word. -/
def firstByteEnd : Local (Option UInt8 × Bool) UInt8 Chunk JInt where
  state := (some 104, true)
  input := ascii "ello"
  written := [(.out, ⟨[104], by rw [List.length_singleton]; norm_num⟩)]
  status := some ⟨104, by omega⟩

theorem firstByte_runs :
    Local.Runs firstByte { state := (none, false), input := ascii "hello" } firstByteEnd :=
  .head (b := { state := (some 104, false), input := ascii "ello" }) rfl
    (.head (b := { state := (some 104, true), input := ascii "ello", written := [_] }) rfl
      (.single rfl))

theorem remote_script_completes_firstByte :
    let M := Wire.system Client.sessionClient firstByte
    let w₀ := Wire.start (Client.startSession
      (List.replicate Client.maxHeader blankHeader) [] (ascii "hello")) (none, false)
    ∃ ls w, M.run w₀ ls = some w ∧ M.StepsMeet (Wire.Calm Client.Session.Calm) w₀ ls ∧
      w.client.view.ended = some 104 ∧ w.client.out = ascii "h" ∧ w.client.err = [] := by
  obtain ⟨ls, w, hrun, hcalm, hended, hout, herr⟩ :=
    remote_script_completes firstByte
      (List.length_replicate : (List.replicate Client.maxHeader blankHeader).length = _)
      (ascii "hello") (none, false) firstByte_runs rfl (StepSystem.run_nil _ _) trivial
  exact ⟨ls, w, hrun, hcalm, hended, hout, herr⟩

end GroovyServ

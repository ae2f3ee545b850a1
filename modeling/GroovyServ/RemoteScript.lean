import GroovyServ.RequestRoundTrip
import GroovyServ.ResponseRoundTrip
import GroovyServ.StdinTransfer
import GroovyServ.Remoting

/-!
# A script behind the server

A script reads bytes, writes chunks to its two channels and exits. `Wire` is a session
in which it runs: a client, what is on its way to and from the server, the handler that
feeds the script's standard input, and the script. The steps are taken in any order, a
turn of the client or of the handler when what it reads has arrived: until then it waits
inside that turn. `ClientLaws` is what a client has to keep to, and `serves` is that such
a client carries out the run at a distance.
-/

namespace GroovyServ

open Lines Server Remoting

abbrev Chunk := Channel × JByteArray

abbrev ScriptProgram (σ : Type) := Program σ UInt8 Chunk JInt

def responses (chunks : List Chunk) (exited : Option JInt) : Bytes :=
  chunks.flatMap frame ++ (exited.map fun status => formatAsExitHeader status none).getD []

/-- What is seen of a client: the bytes on their way to it, what is left of its standard
input, its outputs, and the status with which it has ended. -/
structure ClientView where
  socket : Bytes
  stdin : Bytes
  out : Bytes
  err : Bytes
  ended : Option ℤ

def ClientView.show (v : ClientView) (c : Chunk) : ClientView :=
  match c.1 with
  | .out => { v with out := v.out ++ c.2.val }
  | .err => { v with err := v.err ++ c.2.val }

/-- A client as its session goes on: `turn` is one turn of its loop, with what it writes to
the socket, `deliver` has more bytes sent to it, and `epilogue` is what it adds to its
outputs itself before it ends with a status. -/
structure SessionClient (ς ℓ : Type) where
  view : ς → ClientView
  deliver : Bytes → ς → ς
  turn : ℓ → ς → Option (ς × Bytes)
  epilogue : JInt → Channel → Bytes

/-- What the client has added to an output by the time it has ended so. -/
def SessionClient.added {ς ℓ : Type} (C : SessionClient ς ℓ) (status : Option JInt)
    (channel : Channel) : Bytes :=
  (status.map fun status => C.epilogue status channel).getD []

def ClientView.finish (v : ClientView) (epilogue : JInt → Channel → Bytes) (status : JInt)
    (rest : Bytes) : ClientView :=
  { v with
    socket := rest
    out := v.out ++ epilogue status .out
    err := v.err ++ epilogue status .err
    ended := some status.val }

/-- What a turn does while these chunks and this status are on their way. -/
inductive Turn (epilogue : JInt → Channel → Bytes) (chunks : List Chunk) (exited : Option JInt)
    (v : ClientView) : ClientView → Bytes → Prop
  | idle : Turn epilogue chunks exited v v []
  | send (batch rest : Bytes) (hne : batch ≠ []) (hlen : batch.length ≤ Client.bufferSize)
      (hstdin : v.stdin = batch ++ rest) :
      Turn epilogue chunks exited v { v with stdin := rest } (stdinFrame batch)
  | display (c : Chunk) (cs : List Chunk) (hchunks : chunks = c :: cs) :
      Turn epilogue chunks exited v { v.show c with socket := responses cs exited } []
  | finish (status : JInt) (rest : Bytes) (hchunks : chunks = [])
      (hexited : exited = some status) :
      Turn epilogue chunks exited v (v.finish epilogue status rest) []

/-- A client in good states, whose calm turns serve its standard input and its socket. -/
structure ClientLaws {ς ℓ : Type} (C : SessionClient ς ℓ) (Good : ς → Prop)
    (Calm : ς → ℓ → Prop) : Prop where
  view_deliver : ∀ b s, C.view (C.deliver b s) =
    { C.view s with socket := (C.view s).socket ++ b }
  good_deliver : ∀ b s, Good s → Good (C.deliver b s)
  running : ∀ l s s' written, C.turn l s = some (s', written) → (C.view s).ended = none
  lawful : ∀ l s s' written chunks exited, Good s → Calm s l → C.turn l s = some (s', written) →
    (C.view s).socket = responses chunks exited →
      Good s' ∧ Turn C.epilogue chunks exited (C.view s) (C.view s') written
  sends : ∀ s, Good s → (C.view s).ended = none → (C.view s).stdin ≠ [] →
    ∃ l s' batch rest, Good s' ∧ Calm s l ∧ batch ≠ [] ∧ batch.length ≤ Client.bufferSize ∧
      (C.view s).stdin = batch ++ rest ∧ C.turn l s = some (s', stdinFrame batch) ∧
      C.view s' = { C.view s with stdin := rest }
  displays : ∀ s c cs exited, Good s → (C.view s).ended = none →
    (C.view s).socket = responses (c :: cs) exited →
      ∃ l s', Good s' ∧ Calm s l ∧ C.turn l s = some (s', []) ∧
        C.view s' = { (C.view s).show c with socket := responses cs exited }
  finishes : ∀ s status, Good s → (C.view s).ended = none →
    (C.view s).socket = responses [] (some status) →
      ∃ l s' rest, Good s' ∧ Calm s l ∧ C.turn l s = some (s', []) ∧
        C.view s' = (C.view s).finish C.epilogue status rest

/-- `taken` is how much the script has read from the pipe, `exited` whether it has exited. -/
structure Wire (ς σ : Type) where
  client : ς
  stream : StreamState
  script : σ
  taken : ℕ := 0
  exited : Bool := false

inductive WireStep (ℓ : Type) where
  | client (l : ℓ)
  | stream (env : StreamEnv)
  | script

namespace Wire

variable {ς ℓ σ : Type} (C : SessionClient ς ℓ) (p : ScriptProgram σ)

/-- The script's next step: what it writes is sent at once, and so is the status. -/
def scriptStep (w : Wire ς σ) : Option (Wire ς σ) :=
  if w.exited then none
  else
    match p w.script with
    | .write (channel, data) next =>
      (StreamResponseOutputStream.write { streamId := channel } data 0 data.val.length).map
        fun writes => { w with client := C.deliver writes.flatten w.client, script := next }
    | .read next =>
      w.stream.pipe[w.taken]?.map fun b => { w with script := next b, taken := w.taken + 1 }
    | .exit status =>
      some
        { w with
          client := C.deliver (sendExit false status none).flatten w.client
          exited := true }

def step (w : Wire ς σ) : WireStep ℓ → Option (Wire ς σ)
  | .client l =>
    (C.turn l w.client).map fun (client, written) =>
      { w with client := client, stream := { w.stream with input := w.stream.input ++ written } }
  | .stream env =>
    let stream := streamIteration env w.stream
    if stream.stopped = some .blocked then none else some { w with stream := stream }
  | .script => w.scriptStep C p

def system : StepSystem (Wire ς σ) (WireStep ℓ) := ⟨step C p⟩

/-- The client's turns are calm, and the handler reads whole bodies and finds the pipe
taking them. -/
def Calm (clientCalm : ς → ℓ → Prop) (w : Wire ς σ) : WireStep ℓ → Prop
  | .client l => clientCalm w.client l
  | .stream env => env.ending = .waiting ∧ env.pipeWrite w.stream.writes = .written ∧
    Client.bufferSize ≤ env.readOffer w.stream.reads
  | .script => True

structure Carries (Good : ς → Prop) (q : Queued σ UInt8 Chunk JInt) (w : Wire ς σ) : Prop where
  good : Good w.client
  script : w.script = q.state
  stdin : (C.view w.client).stdin = q.unsent
  input : w.stream.input = q.sent.flatMap stdinFrame
  batches : ∀ b ∈ q.sent, b ≠ [] ∧ b.length ≤ Client.bufferSize
  taken : w.taken ≤ w.stream.pipe.length
  pipe : w.stream.pipe.drop w.taken = q.arrived
  stopped : w.stream.stopped = none
  toreDownPipes : w.stream.toreDownPipes = false
  out : (C.view w.client).out = channelBytes .out q.shown ++ C.added q.status .out
  err : (C.view w.client).err = channelBytes .err q.shown ++ C.added q.status .err
  socket : q.status = none → (C.view w.client).socket = responses q.queued q.exited
  exited : w.exited = q.exited.isSome
  ended : (C.view w.client).ended = q.status.map Subtype.val

end Wire

theorem responses_append (chunks : List Chunk) (c : Chunk) :
    responses (chunks ++ [c]) none = responses chunks none ++ frame c := by
  simp [responses]

theorem responses_exit (chunks : List Chunk) (status : JInt) :
    responses chunks (some status) =
      responses chunks none ++ formatAsExitHeader status none := by
  simp [responses]

theorem channelBytes_append (channel : Channel) (chunks chunks' : List Chunk) :
    channelBytes channel (chunks ++ chunks') =
      channelBytes channel chunks ++ channelBytes channel chunks' :=
  List.flatMap_append

theorem ClientView.show_out (v : ClientView) (c : Chunk) :
    (v.show c).out = v.out ++ channelBytes .out [c] := by
  obtain ⟨channel, data⟩ := c
  cases channel <;> simp [ClientView.show, channelBytes]

theorem ClientView.show_err (v : ClientView) (c : Chunk) :
    (v.show c).err = v.err ++ channelBytes .err [c] := by
  obtain ⟨channel, data⟩ := c
  cases channel <;> simp [ClientView.show, channelBytes]

@[simp] theorem ClientView.show_stdin (v : ClientView) (c : Chunk) :
    (v.show c).stdin = v.stdin := by
  obtain ⟨channel, data⟩ := c
  cases channel <;> rfl

@[simp] theorem ClientView.show_ended (v : ClientView) (c : Chunk) :
    (v.show c).ended = v.ended := by
  obtain ⟨channel, data⟩ := c
  cases channel <;> rfl

namespace Wire

variable {ς ℓ σ : Type} {C : SessionClient ς ℓ} {p : ScriptProgram σ} {Good : ς → Prop}
  {clientCalm : ς → ℓ → Prop} {q : Queued σ UInt8 Chunk JInt} {w w' : Wire ς σ}

def afterTurn (w : Wire ς σ) (client : ς) (written : Bytes) : Wire ς σ :=
  { w with client := client, stream := { w.stream with input := w.stream.input ++ written } }

theorem Carries.idled (h : Carries C Good q w) {client : ς} (hgood : Good client)
    (hview : C.view client = C.view w.client) : Carries C Good q (w.afterTurn client []) :=
  { h with
    good := hgood
    stdin := by rw [← h.stdin, ← hview]; rfl
    input := (List.append_nil _).trans h.input
    out := by rw [← h.out, ← hview]; rfl
    err := by rw [← h.err, ← hview]; rfl
    socket := fun hstatus => by rw [← h.socket hstatus, ← hview]; rfl
    ended := by rw [← h.ended, ← hview]; rfl }

theorem Carries.sent (h : Carries C Good q w) {client : ς} {batch rest : Bytes}
    (hgood : Good client) (hne : batch ≠ []) (hlen : batch.length ≤ Client.bufferSize)
    (hview : C.view client = { C.view w.client with stdin := rest }) :
    Carries C Good { q with unsent := rest, sent := q.sent ++ [batch] }
      (w.afterTurn client (stdinFrame batch)) :=
  { h with
    good := hgood
    stdin := congrArg ClientView.stdin hview
    input := by simp [afterTurn, h.input]
    batches := by
      intro b hb
      rcases List.mem_append.mp hb with hb | hb
      · exact h.batches b hb
      · rw [List.mem_singleton.mp hb]
        exact ⟨hne, hlen⟩
    out := (congrArg ClientView.out hview).trans h.out
    err := (congrArg ClientView.err hview).trans h.err
    socket := fun hstatus => (congrArg ClientView.socket hview).trans (h.socket hstatus)
    ended := (congrArg ClientView.ended hview).trans h.ended }

theorem Carries.displayed (h : Carries C Good q w) (hstatus : q.status = none) {client : ς}
    {c : Chunk} {cs : List Chunk} (hgood : Good client)
    (hview : C.view client =
      { (C.view w.client).show c with socket := responses cs q.exited }) :
    Carries C Good { q with queued := cs, shown := q.shown ++ [c] } (w.afterTurn client []) :=
  { h with
    good := hgood
    stdin := (congrArg ClientView.stdin hview).trans ((ClientView.show_stdin _ c).trans h.stdin)
    input := (List.append_nil _).trans h.input
    out := by
      refine (congrArg ClientView.out hview).trans ((ClientView.show_out _ c).trans ?_)
      rw [h.out, hstatus, channelBytes_append]
      simp [SessionClient.added]
    err := by
      refine (congrArg ClientView.err hview).trans ((ClientView.show_err _ c).trans ?_)
      rw [h.err, hstatus, channelBytes_append]
      simp [SessionClient.added]
    socket := fun _ => congrArg ClientView.socket hview
    ended := (congrArg ClientView.ended hview).trans ((ClientView.show_ended _ c).trans h.ended) }

theorem Carries.finished (h : Carries C Good q w) (hstatus : q.status = none) {client : ς}
    {status : JInt} {rest : Bytes} (hgood : Good client)
    (hview : C.view client = (C.view w.client).finish C.epilogue status rest) :
    Carries C Good { q with status := some status } (w.afterTurn client []) :=
  { h with
    good := hgood
    stdin := (congrArg ClientView.stdin hview).trans h.stdin
    input := (List.append_nil _).trans h.input
    out := by
      refine (congrArg ClientView.out hview).trans ?_
      rw [ClientView.finish, h.out, hstatus]
      simp [SessionClient.added]
    err := by
      refine (congrArg ClientView.err hview).trans ?_
      rw [ClientView.finish, h.err, hstatus]
      simp [SessionClient.added]
    socket := nofun
    ended := congrArg ClientView.ended hview }

theorem Carries.turn (h : Carries C Good q w) {client : ς} {written : Bytes}
    (hgood : Good client) (hstatus : q.status = none)
    (hturn : Turn C.epilogue q.queued q.exited (C.view w.client) (C.view client) written) :
    Carries C Good q (w.afterTurn client written) ∨
      ∃ k q', q.step p k = some q' ∧ Carries C Good q' (w.afterTurn client written) := by
  generalize hview : C.view client = v' at hturn
  cases hturn with
  | idle => exact .inl (h.idled hgood hview)
  | send batch rest hne hlen hstdin =>
    refine .inr ⟨.send batch.length, _, ?_, h.sent hgood hne hlen hview⟩
    rw [h.stdin] at hstdin
    rw [Queued.step, hstdin, if_pos ⟨List.length_pos_of_ne_nil hne, by simp⟩, List.drop_left,
      List.take_left]
  | display c cs hchunks =>
    exact .inr ⟨.display, _, by rw [Queued.step, hchunks], h.displayed hstatus hgood hview⟩
  | finish status rest hchunks hexited =>
    refine .inr ⟨.finish, _, ?_, h.finished hstatus hgood hview⟩
    rw [Queued.step, hstatus, hchunks, hexited]

theorem Carries.streamIteration (h : Carries C Good q w) {env : StreamEnv}
    (hending : env.ending = .waiting) (hpipe : env.pipeWrite w.stream.writes = .written)
    (hoffer : Client.bufferSize ≤ env.readOffer w.stream.reads) :
    (q.sent = [] ∧ (streamIteration env w.stream).stopped = some .blocked) ∨
      ∃ batch sent, q.sent = batch :: sent ∧
        (streamIteration env w.stream).stopped = none ∧
        Carries C Good { q with sent := sent, arrived := q.arrived ++ batch }
          { w with stream := streamIteration env w.stream } := by
  have hinput := h.input
  cases hsent : q.sent with
  | nil =>
    left
    rw [hsent, List.flatMap_nil] at hinput
    refine ⟨rfl, ?_⟩
    have hread : readStreamRequest env.socket env.ending w.stream.input = .error .blocked := by
      rw [hinput, hending]
      rfl
    rw [Server.streamIteration, h.stopped, if_neg (by simp), hread]
    rfl
  | cons batch sent =>
    right
    rw [hsent, List.flatMap_cons] at hinput
    obtain ⟨hne, hlen⟩ := h.batches batch (by rw [hsent]; exact List.mem_cons_self)
    have hstep := streamIteration_frame_written env h.stopped h.toreDownPipes hpipe hne hlen hinput
    have hle : batch.length ≤ (batch ++ sent.flatMap stdinFrame).length := by
      rw [List.length_append]
      omega
    have hfull := shortCount_full (List.length_pos_of_ne_nil hne) hle (.inr (hlen.trans hoffer))
    dsimp only at hstep
    rw [hfull, List.drop_left, List.take_left] at hstep
    refine ⟨batch, sent, rfl, by rw [hstep]; exact h.stopped, ?_⟩
    rw [hstep]
    exact
      { h with
        input := rfl
        batches := fun b hb => h.batches b (by rw [hsent]; exact List.mem_cons_of_mem _ hb)
        taken := by
          rw [List.length_append]
          exact h.taken.trans (Nat.le_add_right _ _)
        pipe := by
          rw [List.drop_append_of_le_length h.taken, h.pipe]
        stopped := h.stopped
        toreDownPipes := h.toreDownPipes }

theorem view_socket_deliver (hC : ClientLaws C Good clientCalm) (b : Bytes) (s : ς) :
    (C.view (C.deliver b s)).socket = (C.view s).socket ++ b := by
  rw [hC.view_deliver]

theorem Carries.scriptStep (hC : ClientLaws C Good clientCalm) (h : Carries C Good q w) :
    (q.work p = none ∧ w.scriptStep C p = none) ∨
      ∃ q' w', q.work p = some q' ∧ w.scriptStep C p = some w' ∧ Carries C Good q' w' := by
  have hexited := h.exited
  cases hq : q.exited with
  | some status =>
    left
    rw [hq] at hexited
    have hdone : w.exited = true := hexited
    exact ⟨by rw [Queued.work, hq], by rw [Wire.scriptStep, if_pos hdone]⟩
  | none =>
    rw [hq] at hexited
    have hrun : ¬ w.exited = true := by rw [hexited]; exact Bool.false_ne_true
    rw [Wire.scriptStep, if_neg hrun, h.script]
    cases hnext : p q.state with
    | write c next =>
      right
      have hwork : q.work p =
          some { q with state := next, queued := q.queued ++ [c] } := by
        rw [Queued.work, hq, hnext]
      have hwrites : [formatAsResponseHeader c.1 c.2.val.length, c.2.val].flatten = frame c := by
        simp [frame]
      refine ⟨_, _, hwork, by dsimp only; rw [write_whole c]; rfl, ?_⟩
      dsimp only
      rw [hwrites]
      exact
        { h with
          good := hC.good_deliver _ _ h.good
          script := rfl
          stdin := by rw [hC.view_deliver, h.stdin]
          out := by rw [hC.view_deliver, h.out]
          err := by rw [hC.view_deliver, h.err]
          socket := fun hstatus => by
            rw [view_socket_deliver hC, h.socket hstatus, hq, responses_append]
          exited := by rw [hexited, hq]
          ended := by rw [hC.view_deliver, h.ended] }
    | read next =>
      have hfirst : w.stream.pipe[w.taken]? = q.arrived[0]? := by
        rw [← h.pipe, List.getElem?_drop, Nat.add_zero]
      cases harrived : q.arrived with
      | nil =>
        left
        refine ⟨by rw [Queued.work, hq, hnext, harrived], ?_⟩
        dsimp only
        rw [hfirst, harrived]
        rfl
      | cons b arrived =>
        right
        rw [harrived] at hfirst
        have hwork : q.work p = some { q with state := next b, arrived := arrived } := by
          rw [Queued.work, hq, hnext, harrived]
        have hlt : w.taken < w.stream.pipe.length :=
          (List.getElem?_eq_some_iff.mp hfirst).1
        refine ⟨_, _, hwork, by dsimp only; rw [hfirst]; rfl, ?_⟩
        exact
          { h with
            script := rfl
            taken := hlt
            pipe := by
              rw [← List.drop_drop, h.pipe, harrived]
              rfl
            exited := by rw [hexited, hq] }
    | exit status =>
      right
      have hwork : q.work p = some { q with exited := some status } := by
        rw [Queued.work, hq, hnext]
      have hsent : (sendExit false status none).flatten = formatAsExitHeader status none := by
        simp [sendExit]
      refine ⟨_, _, hwork, rfl, ?_⟩
      rw [hsent]
      exact
        { h with
          good := hC.good_deliver _ _ h.good
          script := rfl
          stdin := by rw [hC.view_deliver, h.stdin]
          out := by rw [hC.view_deliver, h.out]
          err := by rw [hC.view_deliver, h.err]
          socket := fun hstatus => by
            rw [view_socket_deliver hC, h.socket hstatus, hq, ← responses_exit]
          exited := rfl
          ended := by rw [hC.view_deliver, h.ended] }

def calmStream : StreamEnv where
  socket := { port := 0, localLoopback := true, hostAddress := [], text := [] }
  ending := .waiting
  readOffer _ := Client.bufferSize
  pipeWrite _ := .written

/-- A session of a client that keeps to the laws carries out the run at a distance. -/
theorem serves (hC : ClientLaws C Good clientCalm) :
    Serves (Wire.system C p) (Calm clientCalm) p (Carries C Good) where
  refines := by
    intro q w label w' h hcalm hstep
    cases label with
    | client l =>
      obtain ⟨⟨client, written⟩, hturn, rfl⟩ := Option.map_eq_some_iff.mp hstep
      have hrunning := hC.running _ _ _ _ hturn
      have hstatus : q.status = none := by
        have hended := h.ended
        rw [hrunning] at hended
        exact Option.map_eq_none_iff.mp hended.symm
      obtain ⟨hgood, hdone⟩ :=
        hC.lawful _ _ _ _ _ _ h.good hcalm hturn (h.socket hstatus)
      exact h.turn hgood hstatus hdone
    | stream env =>
      obtain ⟨hending, hpipe, hoffer⟩ := hcalm
      rcases h.streamIteration hending hpipe hoffer with
        ⟨-, hblocked⟩ | ⟨batch, sent, hsent, hstopped, hnext⟩
      · change (if _ then none else some _) = _ at hstep
        rw [if_pos hblocked] at hstep
        cases hstep
      · change (if _ then none else some _) = _ at hstep
        rw [if_neg (by simp [hstopped])] at hstep
        cases hstep
        exact .inr ⟨.arrive, _, by rw [Queued.step, hsent], hnext⟩
    | script =>
      rcases h.scriptStep (p := p) hC with ⟨-, hnone⟩ | ⟨q', w'', hwork, hsome, hnext⟩
      · cases hnone.symm.trans hstep
      · obtain rfl : w'' = w' := Option.some.inj (hsome.symm.trans hstep)
        exact .inr ⟨.work, q', hwork, hnext⟩
  sends := by
    intro q w h hstatus hunsent
    have hrunning : (C.view w.client).ended = none := by rw [h.ended, hstatus]; rfl
    obtain ⟨l, client, batch, rest, hgood, hcalm, hne, hlen, hstdin, hturn, hview⟩ :=
      hC.sends w.client h.good hrunning (by rwa [h.stdin])
    have hstep : q.step p (.send batch.length) =
        some { q with unsent := rest, sent := q.sent ++ [batch] } := by
      rw [h.stdin] at hstdin
      rw [Queued.step, hstdin, if_pos ⟨List.length_pos_of_ne_nil hne, by simp⟩,
        List.drop_left, List.take_left]
    refine ⟨.client l, _, batch.length, _, hcalm, ?_, hstep,
      h.sent hgood hne hlen hview⟩
    change (C.turn l w.client).map _ = _
    rw [hturn]
    rfl
  follows := by
    intro q w k q' h hstatus hsend hstep
    have hrunning : (C.view w.client).ended = none := by rw [h.ended, hstatus]; rfl
    cases k with
    | send n => exact absurd rfl (hsend n)
    | arrive =>
      rw [Queued.step] at hstep
      split at hstep
      · cases hstep
      · rename_i batch sent hsent
        cases hstep
        have hending : calmStream.ending = .waiting := rfl
        rcases h.streamIteration hending rfl le_rfl with
          ⟨hnil, -⟩ | ⟨batch', sent', hsent', hstopped, hnext⟩
        · rw [hsent] at hnil
          cases hnil
        · obtain ⟨rfl, rfl⟩ := List.cons.inj (hsent.symm.trans hsent')
          refine ⟨.stream calmStream, _, ⟨rfl, rfl, le_rfl⟩, ?_, hnext⟩
          change (if _ then none else some _) = _
          rw [if_neg (by simp [hstopped])]
    | work =>
      rcases h.scriptStep (p := p) hC with ⟨hnone, -⟩ | ⟨q'', w', hwork, hsome, hnext⟩
      · cases hnone.symm.trans hstep
      · obtain rfl : q'' = q' := Option.some.inj (hwork.symm.trans hstep)
        exact ⟨.script, w', trivial, hsome, hnext⟩
    | display =>
      rw [Queued.step] at hstep
      split at hstep
      · cases hstep
      · rename_i c cs hqueued
        cases hstep
        obtain ⟨l, client, hgood, hcalm, hturn, hview⟩ :=
          hC.displays w.client c cs q.exited h.good hrunning (by rw [h.socket hstatus, hqueued])
        refine ⟨.client l, _, hcalm, ?_, h.displayed hstatus hgood hview⟩
        change (C.turn l w.client).map _ = _
        rw [hturn]
        rfl
    | finish =>
      rw [Queued.step] at hstep
      split at hstep
      · rename_i status hnone hqueued hexited
        cases hstep
        obtain ⟨l, client, rest, hgood, hcalm, hturn, hview⟩ :=
          hC.finishes w.client status h.good hrunning (by rw [h.socket hstatus, hqueued, hexited])
        refine ⟨.client l, _, hcalm, ?_, h.finished hstatus hgood hview⟩
        change (C.turn l w.client).map _ = _
        rw [hturn]
        rfl
      · cases hstep

def start (client : ς) (state : σ) : Wire ς σ :=
  { client := client, stream := { input := [] }, script := state }

theorem carries_start {client : ς} (hgood : Good client) {stdin : Bytes}
    (hview : C.view client = { socket := [], stdin := stdin, out := [], err := [], ended := none })
    (state : σ) :
    Carries C Good { state := state, unsent := stdin } (start client state) where
  good := hgood
  script := rfl
  stdin := by rw [start, hview]
  input := rfl
  batches := nofun
  taken := le_rfl
  pipe := rfl
  stopped := rfl
  toreDownPipes := rfl
  out := by rw [start, hview]; rfl
  err := by rw [start, hview]; rfl
  socket := fun _ => by rw [start, hview]; rfl
  exited := rfl
  ended := by rw [start, hview]; rfl

/-- What the user of the session has seen of a run of the script beside the user. -/
structure Shows (C : SessionClient ς ℓ) (w : Wire ς σ) (l : Local σ UInt8 Chunk JInt) : Prop where
  running : (C.view w.client).ended = none →
    (C.view w.client).out <+: channelBytes .out l.written ∧
      (C.view w.client).err <+: channelBytes .err l.written
  ended : ∀ z, (C.view w.client).ended = some z → ∃ status : JInt, status.val = z ∧
    l.status = some status ∧
      (C.view w.client).out = channelBytes .out l.written ++ C.epilogue status .out ∧
      (C.view w.client).err = channelBytes .err l.written ++ C.epilogue status .err

theorem Carries.shows (h : Carries C Good q w) (htold : q.Told) : Shows C w q.toLocal where
  running := by
    intro hrunning
    have hstatus : q.status = none := by
      rw [h.ended] at hrunning
      exact Option.map_eq_none_iff.mp hrunning
    rw [h.out, h.err, hstatus, Queued.toLocal, channelBytes_append, channelBytes_append]
    simp [SessionClient.added]
  ended := by
    intro z hz
    rw [h.ended] at hz
    obtain ⟨status, hq, rfl⟩ := Option.map_eq_some_iff.mp hz
    obtain ⟨hexited, hqueued⟩ := htold status hq
    rw [h.out, h.err, Queued.toLocal, hqueued, List.append_nil, hq]
    exact ⟨status, rfl, hexited, rfl, rfl⟩

variable {w₀ : Wire ς σ} {q₀ : Queued σ UInt8 Chunk JInt} {ls : List (WireStep ℓ)}

theorem shows_of_run (hC : ClientLaws C Good clientCalm) (h₀ : Carries C Good q₀ w₀)
    (htold : q₀.Told) (hrun : (Wire.system C p).run w₀ ls = some w)
    (hcalm : (Wire.system C p).StepsMeet (Calm clientCalm) w₀ ls) :
    ∃ l, Local.Runs p q₀.toLocal l ∧ Shows C w l := by
  obtain ⟨q, hq, hqtold, hruns⟩ := (serves hC).safe h₀ htold hrun hcalm
  exact ⟨q.toLocal, hruns, hq.shows hqtold⟩

/-- Wherever a calm session has got to, it can go on calmly to the script's end. -/
theorem completes_of_run (hC : ClientLaws C Good clientCalm) (h₀ : Carries C Good q₀ w₀)
    (htold : q₀.Told) (hrun : (Wire.system C p).run w₀ ls = some w)
    (hcalm : (Wire.system C p).StepsMeet (Calm clientCalm) w₀ ls)
    {l : Local σ UInt8 Chunk JInt} {status : JInt} (hruns : Local.Runs p q₀.toLocal l)
    (hstatus : l.status = some status) :
    ∃ w', (Wire.system C p).Reaches (Calm clientCalm) w w' ∧
      (C.view w'.client).ended = some status.val ∧
      (C.view w'.client).out = channelBytes .out l.written ++ C.epilogue status .out ∧
      (C.view w'.client).err = channelBytes .err l.written ++ C.epilogue status .err := by
  obtain ⟨q, hq, hqtold, hqruns⟩ := (serves hC).safe h₀ htold hrun hcalm
  have hrest : Local.Runs p q.toLocal l := by
    rcases hqruns.total hruns with h | h
    · exact h
    · rw [h.eq_of_status hstatus]
      exact Relation.ReflTransGen.refl
  obtain ⟨w', q', hreach, hq', hstatus', hshown⟩ :=
    (serves hC).completes hq hqtold hrest hstatus
  refine ⟨w', hreach, ?_, ?_, ?_⟩
  · rw [hq'.ended, hstatus']
    rfl
  · rw [hq'.out, hshown, hstatus']
    rfl
  · rw [hq'.err, hshown, hstatus']
    rfl

end Wire
end GroovyServ

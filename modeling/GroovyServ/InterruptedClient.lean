import GroovyServ.StdinTransfer

/-!
# An interrupted client

The signal handler of the C client writes its interruption to the socket and exits,
whatever the session was doing. A chunk of standard input takes two writes, its
header and its bytes; between them the interruption takes the place of the bytes.
-/

namespace GroovyServ

open Server

namespace Client

def stdinWrites (chunk : Bytes) : List Bytes := [streamRequestHeader chunk.length, chunk]

def interruptRequest : Bytes := ascii "Cmd: interrupt\n\n"

/-- The bytes that reach the server when the signal comes after `k` of the writes. -/
def interruptedInput (written : List Bytes) (k : ℕ) : Bytes :=
  (written.take k).flatten ++ interruptRequest

def sentBodies : List Bytes → List Bytes
  | _ :: body :: written => body :: sentBodies written
  | _ => []

structure SameStdin (s s' : Session) : Prop where
  stdin : s'.stdin = s.stdin
  stdinClosed : s'.stdinClosed = s.stdinClosed
  written : s'.written = s.written

theorem SameStdin.refl (s : Session) : SameStdin s s := ⟨rfl, rfl, rfl⟩

theorem SameStdin.trans {s s' s'' : Session} (h : SameStdin s s') (h' : SameStdin s' s'') :
    SameStdin s s'' :=
  ⟨h'.stdin.trans h.stdin, h'.stdinClosed.trans h.stdinClosed, h'.written.trans h.written⟩

theorem sameStdin_emit (s : Session) (channel : Channel) (data : Bytes) :
    SameStdin s (s.emit channel data) := by
  cases channel <;> exact ⟨rfl, rfl, rfl⟩

theorem sameStdin_halt (s : Session) (h : Halt) : SameStdin s (s.halt h) := by
  unfold Session.halt
  split <;> exact ⟨rfl, rfl, rfl⟩

theorem sameStdin_receiveLoop (sys : System) (channel : Channel) (fuel remained : ℕ)
    (s : Session) : SameStdin s (receiveLoop sys channel fuel remained s) := by
  induction fuel generalizing remained s with
  | zero => exact .refl s
  | succ fuel ih =>
    rw [receiveLoop]
    dsimp only
    split_ifs
    · exact .refl s
    · refine (SameStdin.trans ?_ (sameStdin_emit _ channel _)).trans (ih _ _)
      exact ⟨rfl, rfl, rfl⟩

theorem sameStdin_receiveFromServer (sys : System) (channel : Bytes) (size : ℤ) (s : Session) :
    SameStdin s (receiveFromServer sys channel size s) := by
  unfold receiveFromServer
  split_ifs
  · exact sameStdin_receiveLoop sys .out _ _ s
  · exact sameStdin_receiveLoop sys .err _ _ s
  · exact sameStdin_halt s _

theorem sameStdin_receiveResponse (sys : System) (s : Session) :
    SameStdin s (receiveResponse sys s) := by
  unfold receiveResponse
  split
  · exact sameStdin_halt s _
  · rename_i size headers rest hread
    have hsame : SameStdin s { s with headers := headers, socket := rest } := ⟨rfl, rfl, rfl⟩
    dsimp only
    refine hsame.trans ?_
    split_ifs
    · exact ⟨rfl, rfl, rfl⟩
    · split
      · exact sameStdin_halt _ _
      · exact ⟨rfl, rfl, rfl⟩
      · split
        · exact sameStdin_halt _ _
        · exact ⟨rfl, rfl, rfl⟩
        · split
          · exact sameStdin_halt _ _
          · exact ⟨rfl, rfl, rfl⟩
          · exact sameStdin_receiveFromServer sys _ _ _

theorem sameStdin_selects (s : Session) (n : ℕ) : SameStdin s { s with selects := n } :=
  ⟨rfl, rfl, rfl⟩

theorem sameStdin_sendToServer_selects (sys : System) (s : Session) (n : ℕ) :
    SameStdin (sendToServer sys s) (sendToServer sys { s with selects := n }) := by
  unfold sendToServer
  dsimp only
  cases sys.stdinOffer s.reads <;> exact ⟨rfl, rfl, rfl⟩

theorem sessionStep_stdinSide (sys : System) (s : Session) :
    SameStdin s (sessionStep sys s) ∨
      (s.stdinClosed = false ∧ SameStdin (sendToServer sys s) (sessionStep sys s)) := by
  unfold sessionStep
  split_ifs
  · exact .inl (.refl s)
  · dsimp only
    split
    · exact .inl ((sameStdin_selects s _).trans (sameStdin_halt _ _))
    · exact .inl ((sameStdin_selects s _).trans (sameStdin_emit _ _ _))
    · split_ifs with hstdin hsocket
      · exact .inr ⟨hstdin.1, sameStdin_sendToServer_selects sys s _⟩
      · exact .inl (sameStdin_selects s _)
      · exact .inl ((sameStdin_selects s _).trans (sameStdin_receiveResponse sys _))

/-- The session has sent the chunks, each with its header, and after them what
announces the end of standard input if that has come. -/
structure SentChunks (stdin : Bytes) (chunks : List Bytes) (s : Session) : Prop where
  nonempty : ∀ c ∈ chunks, c ≠ [] ∧ c.length ≤ bufferSize
  written : s.written =
    chunks.flatMap stdinWrites ++ if s.stdinClosed then stdinWrites [] else []
  stdin : chunks.flatten ++ s.stdin = stdin

theorem SentChunks.of_same {stdin : Bytes} {chunks : List Bytes} {s s' : Session}
    (h : SentChunks stdin chunks s) (hsame : SameStdin s s') : SentChunks stdin chunks s' where
  nonempty := h.nonempty
  written := by rw [hsame.written, hsame.stdinClosed, h.written]
  stdin := by rw [hsame.stdin, h.stdin]

theorem SentChunks.sendToServer (sys : System) {stdin : Bytes} {chunks : List Bytes} {s : Session}
    (h : SentChunks stdin chunks s) (hopen : s.stdinClosed = false) :
    ∃ chunks', SentChunks stdin chunks' (sendToServer sys s) := by
  have hwritten : s.written = chunks.flatMap stdinWrites := by rw [h.written, hopen]; simp
  unfold Client.sendToServer
  split
  · exact ⟨chunks, h.of_same (sameStdin_halt s _)⟩
  · rename_i offer hoffer
    by_cases hnil : s.stdin = []
    · refine ⟨chunks, h.nonempty, ?_, ?_⟩
      · simp [hwritten, hnil, stdinWrites]
      · simpa [hnil] using h.stdin
    · have hpos := shortCount_pos offer bufferSize s.stdin.length
      have hle := shortCount_le offer bufferSize s.stdin.length (by decide)
        (List.length_pos_of_ne_nil hnil)
      rw [if_neg hnil]
      generalize shortCount offer bufferSize s.stdin.length = ret at hpos hle
      have hlen : (s.stdin.take ret).length = ret := by
        rw [List.length_take]
        omega
      refine ⟨chunks ++ [s.stdin.take ret], ?_, ?_, ?_⟩
      · rw [List.forall_mem_append, List.forall_mem_singleton]
        refine ⟨h.nonempty, List.ne_nil_of_length_pos (by rwa [hlen]), ?_⟩
        rw [hlen]
        omega
      · simp [hwritten, stdinWrites, hlen, hpos.ne']
      · simpa using h.stdin

theorem sentChunks_run (sys : System) (n : ℕ) (headers : List Header) (socket stdin : Bytes) :
    ∃ chunks, SentChunks stdin chunks (runSession sys n (startSession headers socket stdin)) := by
  induction n with
  | zero => exact ⟨[], by simp, rfl, rfl⟩
  | succ n ih =>
    obtain ⟨chunks, h⟩ := ih
    rw [runSession, Function.iterate_succ_apply', ← runSession]
    rcases sessionStep_stdinSide sys (runSession sys n (startSession headers socket stdin)) with
      hsame | ⟨hopen, hsame⟩
    · exact ⟨chunks, h.of_same hsame⟩
    · obtain ⟨chunks', h'⟩ := h.sendToServer sys hopen
      exact ⟨chunks', h'.of_same hsame⟩

/-- The signal comes between the header of a chunk and its bytes. -/
def BetweenWrites (written : List Bytes) (k : ℕ) : Prop :=
  k % 2 = 1 ∧ ∃ body, written[k]? = some body ∧ body ≠ []

theorem flatten_stdinWrites (chunks : List Bytes) :
    (chunks.flatMap stdinWrites).flatten = chunks.flatMap stdinFrame := by
  induction chunks with
  | nil => rfl
  | cons chunk chunks ih =>
    rw [List.flatMap_cons, List.flatten_append, ih, List.flatMap_cons]
    simp [stdinWrites, stdinFrame]

theorem stdin_sendToServer (sys : System) {s : Session} (hopen : s.stdinClosed = false)
    (hclosed : (sendToServer sys s).stdinClosed = true) : (sendToServer sys s).stdin = [] := by
  unfold sendToServer at hclosed ⊢
  split at hclosed
  · rw [(sameStdin_halt s _).stdinClosed, hopen] at hclosed
    cases hclosed
  · by_cases hnil : s.stdin = []
    · simp [hnil]
    · have hpos := fun offer => (shortCount_pos offer bufferSize s.stdin.length).ne'
      simp [hnil, hpos] at hclosed

theorem stdin_of_stdinClosed (sys : System) (n : ℕ) (headers : List Header)
    (socket stdin : Bytes)
    (hclosed : (runSession sys n (startSession headers socket stdin)).stdinClosed = true) :
    (runSession sys n (startSession headers socket stdin)).stdin = [] := by
  induction n with
  | zero => cases hclosed
  | succ n ih =>
    rw [runSession, Function.iterate_succ_apply', ← runSession] at hclosed ⊢
    rcases sessionStep_stdinSide sys (runSession sys n (startSession headers socket stdin)) with
      hsame | ⟨hopen, hsame⟩
    · rw [hsame.stdinClosed] at hclosed
      rw [hsame.stdin, ih hclosed]
    · rw [hsame.stdinClosed] at hclosed
      rw [hsame.stdin, stdin_sendToServer sys hopen hclosed]

theorem sameStdin_of_stdinClosed (sys : System) (n : ℕ) {s : Session}
    (hclosed : s.stdinClosed = true) : SameStdin s (runSession sys n s) := by
  induction n with
  | zero => exact .refl s
  | succ n ih =>
    rw [runSession, Function.iterate_succ_apply', ← runSession]
    refine ih.trans ((sessionStep_stdinSide sys _).resolve_right fun h => ?_)
    rw [ih.stdinClosed, hclosed] at h
    cases h.1

/-- What the client writes behind the header of the invocation: frames, each with the size
of its body, whose bodies are the standard input that has been read. An empty one is sent
at the end of standard input only, and nothing after it. -/
theorem written_run (sys : System) (n : ℕ) (headers : List Header) (socket stdin : Bytes) :
    let s := runSession sys n (startSession headers socket stdin)
    ∃ bodies : List Bytes, s.written.flatten = bodies.flatMap stdinFrame ∧
      bodies.flatten ++ s.stdin = stdin ∧ (∀ body ∈ bodies, body.length ≤ bufferSize) ∧
      bodies.count [] ≤ 1 ∧
      ([] ∈ bodies → s.stdin = [] ∧ bodies.getLast? = some [] ∧
        ∀ m, n ≤ m → (runSession sys m (startSession headers socket stdin)).written =
          s.written) := by
  intro s
  obtain ⟨chunks, h⟩ := sentChunks_run sys n headers socket stdin
  have hnil : [] ∉ chunks := fun hmem => (h.nonempty [] hmem).1 rfl
  cases hclosed : s.stdinClosed with
  | false =>
    have hwritten : s.written = chunks.flatMap stdinWrites := by
      rw [h.written, hclosed]
      exact List.append_nil _
    refine ⟨chunks, ?_, h.stdin, fun body hbody => (h.nonempty body hbody).2, ?_,
      fun hmem => absurd hmem hnil⟩
    · rw [hwritten, flatten_stdinWrites]
    · rw [List.count_eq_zero_of_not_mem hnil]
      exact Nat.zero_le 1
  | true =>
    have hwritten : s.written = (chunks ++ [[]]).flatMap stdinWrites := by
      rw [h.written, hclosed, if_pos rfl, List.flatMap_append, List.flatMap_singleton]
    refine ⟨chunks ++ [[]], ?_, ?_, ?_, ?_, fun _ => ⟨?_, List.getLast?_concat, ?_⟩⟩
    · rw [hwritten, flatten_stdinWrites]
    · simpa using h.stdin
    · rw [List.forall_mem_append, List.forall_mem_singleton]
      exact ⟨fun body hbody => (h.nonempty body hbody).2, Nat.zero_le _⟩
    · rw [List.count_append, List.count_eq_zero_of_not_mem hnil]
      exact le_rfl
    · exact stdin_of_stdinClosed sys n headers socket stdin hclosed
    · intro m hm
      obtain ⟨k, rfl⟩ := Nat.exists_eq_add_of_le' hm
      rw [runSession_add]
      exact (sameStdin_of_stdinClosed sys k hclosed).written

theorem sentBodies_stdinWrites (chunks written : List Bytes) :
    sentBodies (chunks.flatMap stdinWrites ++ written) = chunks ++ sentBodies written := by
  induction chunks with
  | nil => rfl
  | cons chunk chunks ih =>
    rw [List.flatMap_cons, List.append_assoc, List.cons_append, ← ih]
    rfl

theorem length_stdinWrites (chunks : List Bytes) :
    (chunks.flatMap stdinWrites).length = 2 * chunks.length := by
  induction chunks with
  | nil => rfl
  | cons chunk chunks ih =>
    rw [List.flatMap_cons, List.length_append, ih, List.length_cons, stdinWrites]
    simp only [List.length_cons, List.length_nil]
    omega

/-- The chunks before the signal and what the server finds behind them: the
interruption, at times with the header before it that announces the end of standard
input or a chunk whose bytes do not come. -/
structure InterruptedAt (stdin : Bytes) (written : List Bytes) (k : ℕ) (chunks : List Bytes)
    (tail : Bytes) : Prop where
  nonempty : ∀ c ∈ chunks, c ≠ [] ∧ c.length ≤ bufferSize
  stdin : chunks.flatten <+: stdin
  sent : chunks <+: sentBodies (written.take k)
  flatten_sent : (sentBodies (written.take k)).flatten = chunks.flatten
  input : interruptedInput written k = chunks.flatMap stdinFrame ++ tail
  tail_cases : (¬ BetweenWrites written k ∧
      (tail = interruptRequest ∨ tail = streamRequestHeader 0 ++ interruptRequest)) ∨
    (BetweenWrites written k ∧ k / 2 = chunks.length ∧
      ∃ n, 0 < n ∧ n ≤ bufferSize ∧ tail = streamRequestHeader n ++ interruptRequest)

theorem take_stdinWrites (chunks written : List Bytes) (j : ℕ) :
    (chunks.flatMap stdinWrites ++ written).take (2 * chunks.length + j) =
      chunks.flatMap stdinWrites ++ written.take j := by
  rw [← length_stdinWrites, List.take_length_add_append]

theorem getElem?_stdinWrites (chunks written : List Bytes) (j : ℕ) :
    (chunks.flatMap stdinWrites ++ written)[2 * chunks.length + j]? = written[j]? := by
  rw [← length_stdinWrites, List.getElem?_append_right (Nat.le_add_right _ _),
    Nat.add_sub_cancel_left]

theorem interruptedAt_of_writes {stdin : Bytes} {chunks : List Bytes}
    (hchunks : ∀ c ∈ chunks, c ≠ [] ∧ c.length ≤ bufferSize) (hstdin : chunks.flatten <+: stdin)
    {written : List Bytes} {j : ℕ} (hbodies : (sentBodies (written.take j)).flatten = [])
    (htail : (¬ BetweenWrites written j ∧ ((written.take j).flatten = [] ∨
        (written.take j).flatten = streamRequestHeader 0)) ∨
      (BetweenWrites written j ∧ j = 1 ∧ ∃ n, 0 < n ∧ n ≤ bufferSize ∧
        (written.take j).flatten = streamRequestHeader n)) :
    InterruptedAt stdin (chunks.flatMap stdinWrites ++ written) (2 * chunks.length + j) chunks
      ((written.take j).flatten ++ interruptRequest) := by
  have hbetween : BetweenWrites (chunks.flatMap stdinWrites ++ written) (2 * chunks.length + j) ↔
      BetweenWrites written j := by
    rw [BetweenWrites, getElem?_stdinWrites, Nat.mul_add_mod_self_left, BetweenWrites]
  refine ⟨hchunks, hstdin, ?_, ?_, ?_, ?_⟩
  · rw [take_stdinWrites, sentBodies_stdinWrites]
    exact List.prefix_append _ _
  · rw [take_stdinWrites, sentBodies_stdinWrites, List.flatten_append, hbodies, List.append_nil]
  · rw [interruptedInput, take_stdinWrites, List.flatten_append, flatten_stdinWrites,
      List.append_assoc]
  · rw [hbetween]
    rcases htail with ⟨hnot, htail⟩ | ⟨hin, rfl, n, hpos, hle, htail⟩
    · refine .inl ⟨hnot, ?_⟩
      rcases htail with htail | htail
      · exact .inl (by rw [htail, List.nil_append])
      · exact .inr (by rw [htail])
    · exact .inr ⟨hin, by omega, n, hpos, hle, by rw [htail]⟩

theorem SentChunks.interruptedAt {stdin : Bytes} {chunks : List Bytes} {s : Session}
    (h : SentChunks stdin chunks s) (k : ℕ) :
    ∃ before tail, InterruptedAt stdin s.written k before tail := by
  rw [h.written]
  rcases lt_or_ge k (2 * chunks.length) with hlt | hge
  · -- the signal comes before the last chunk is through
    have hm : k / 2 < chunks.length := by omega
    obtain ⟨before, c, after, rfl, hlen⟩ : ∃ before c after,
        chunks = before ++ c :: after ∧ before.length = k / 2 :=
      ⟨chunks.take (k / 2), chunks[k / 2], chunks.drop (k / 2 + 1), by simp,
        by rw [List.length_take]; omega⟩
    obtain ⟨hbefore, hc⟩ := List.forall_mem_append.mp h.nonempty
    obtain ⟨⟨hne, hle⟩, -⟩ := List.forall_mem_cons.mp hc
    have hstdin : before.flatten <+: stdin := by
      rw [← h.stdin, List.flatten_append, List.append_assoc]
      exact List.prefix_append _ _
    rw [List.flatMap_append, List.flatMap_cons, List.append_assoc]
    obtain hk | hk : k = 2 * before.length + 0 ∨ k = 2 * before.length + 1 := by omega
    · refine ⟨before, _, hk ▸ interruptedAt_of_writes hbefore hstdin rfl (.inl ⟨?_, .inl rfl⟩)⟩
      simp [BetweenWrites]
    · refine ⟨before, _, hk ▸ interruptedAt_of_writes hbefore hstdin rfl (.inr ⟨?_, rfl, c.length,
        List.length_pos_of_ne_nil hne, hle, List.append_nil _⟩)⟩
      exact ⟨rfl, c, rfl, hne⟩
  · -- all chunks are through, and at most the end of standard input is announced
    obtain ⟨j, rfl⟩ := Nat.exists_eq_add_of_le hge
    have hstdin : chunks.flatten <+: stdin := h.stdin ▸ List.prefix_append _ _
    refine ⟨chunks, _, interruptedAt_of_writes h.nonempty hstdin ?_ (.inl ⟨?_, ?_⟩)⟩
    · split_ifs
      · rcases j with _ | _ | j <;> simp [stdinWrites, sentBodies]
      · simp [sentBodies]
    · split_ifs
      · rcases j with _ | _ | j <;> simp [BetweenWrites, stdinWrites]
      · simp [BetweenWrites]
    · split_ifs
      · rcases j with _ | _ | j <;> simp [stdinWrites]
      · simp

end Client

theorem transferStreamRequest_failed (env : StreamEnv) (data : Bytes) {s : StreamState}
    (hpipe : env.pipeWrite s.writes ≠ .written) :
    (transferStreamRequest env data s).stopped.isSome = true ∧
      (transferStreamRequest env data s).pipe = s.pipe := by
  unfold transferStreamRequest
  split
  · contradiction
  all_goals exact ⟨rfl, rfl⟩

theorem pipe_of_stopped (env : StreamEnv) {n : ℕ} {s : StreamState}
    (h : ((streamIteration env)^[n] s).stopped.isSome = true) :
    (runStreamRequestHandler env s).1.pipe = ((streamIteration env)^[n] s).pipe := by
  rw [(runStreamRequestHandler_fields env s).1, iterate_eq_of_stopped env h]

theorem frames_written_or_failed (env : StreamEnv) {chunks : List Bytes}
    (hchunks : ∀ c ∈ chunks, c ≠ [] ∧ c.length ≤ Client.bufferSize) {s : StreamState}
    (hstopped : s.stopped = none) (htore : s.toreDownPipes = false)
    (hfull : ∀ k c, chunks[k]? = some c → c.length = 1 ∨ c.length ≤ env.readOffer (s.reads + k))
    {rest : Bytes} (hinput : s.input = chunks.flatMap stdinFrame ++ rest) :
    (∀ j < chunks.length, env.pipeWrite (s.writes + j) = .written) ∨
    ∃ j < chunks.length, env.pipeWrite (s.writes + j) ≠ .written ∧
      ∃ n, ((streamIteration env)^[n] s).stopped.isSome = true ∧
        ((streamIteration env)^[n] s).pipe = s.pipe ++ (chunks.take j).flatten := by
  induction chunks generalizing s with
  | nil => exact .inl fun j hj => absurd hj (Nat.not_lt_zero j)
  | cons chunk chunks ih =>
    obtain ⟨⟨hne, hlen⟩, hchunks⟩ := List.forall_mem_cons.mp hchunks
    rw [List.flatMap_cons, List.append_assoc] at hinput
    have hturn := streamIteration_frame env hstopped htore hne hlen hinput
    have hle : chunk.length ≤ (chunk ++ (chunks.flatMap stdinFrame ++ rest)).length := by
      rw [List.length_append]
      omega
    have hread : chunk.length = 1 ∨ chunk.length ≤ env.readOffer s.reads := hfull 0 chunk rfl
    have hresult := shortCount_full (List.length_pos_of_ne_nil hne) hle hread
    simp only [hresult, List.drop_left, List.take_left] at hturn
    by_cases hpipe : env.pipeWrite s.writes = .written
    · replace hturn := hturn.trans (transferStreamRequest_written env _ hpipe)
      have hindex : ∀ k, s.writes + 1 + k = s.writes + (k + 1) := fun k => by omega
      rcases ih hchunks (s := streamIteration env s) (by rw [hturn]; exact hstopped)
          (by rw [hturn]; exact htore)
          (fun k c hc => by
            rw [hturn, Nat.add_assoc, Nat.add_comm 1]
            exact hfull (k + 1) c (by simpa using hc))
          (by rw [hturn]) with hall | ⟨j, hj, hfail, n, hn, hnpipe⟩
      · refine .inl fun j hj => ?_
        cases j with
        | zero => exact hpipe
        | succ j =>
          have h := hall j (Nat.lt_of_succ_lt_succ hj)
          rwa [hturn, hindex] at h
      · refine .inr ⟨j + 1, Nat.succ_lt_succ hj, ?_, n + 1, ?_, ?_⟩
        · rwa [hturn, hindex] at hfail
        · rwa [Function.iterate_succ_apply]
        · rw [Function.iterate_succ_apply, hnpipe, hturn, List.take_succ_cons, List.flatten_cons,
            List.append_assoc]
    · refine .inr ⟨0, Nat.succ_pos _, hpipe, 1, ?_⟩
      rw [Function.iterate_one, hturn, List.take_zero, List.flatten_nil, List.append_nil]
      refine transferStreamRequest_failed env chunk ?_
      exact hpipe

theorem pipe_streamIteration (env : StreamEnv) (s : StreamState) :
    s.pipe <+: (streamIteration env s).pipe := by
  have htransfer : ∀ (data : Bytes) (s : StreamState),
      s.pipe <+: (transferStreamRequest env data s).pipe := by
    intro data s
    unfold transferStreamRequest
    split
    · exact List.prefix_append _ _
    all_goals exact List.prefix_rfl
  unfold streamIteration
  split_ifs
  · exact List.prefix_rfl
  · dsimp only
    split
    · exact List.prefix_rfl
    · split_ifs
      · exact List.prefix_rfl
      · exact List.prefix_rfl
      · exact List.prefix_rfl
      · unfold readStreamBody
        split_ifs
        · split <;> exact List.prefix_rfl
        · exact List.prefix_rfl
        · exact htransfer _ { (s.take _ _).take _ .body with reads := s.reads + 1 }

theorem pipe_iterate (env : StreamEnv) (n : ℕ) (s : StreamState) :
    s.pipe <+: ((streamIteration env)^[n] s).pipe := by
  induction n generalizing s with
  | zero => exact List.prefix_rfl
  | succ n ih => exact (pipe_streamIteration env s).trans (ih _)

theorem pipe_prefix_run (env : StreamEnv) (n : ℕ) (s : StreamState) :
    ((streamIteration env)^[n] s).pipe <+: (runStreamRequestHandler env s).1.pipe := by
  have hall := stopped_iterate env (s.input.length + 1) (Nat.lt_succ_self s.input.length)
  have hend : (streamIteration env)^[n + (s.input.length + 1)] s =
      (streamIteration env)^[s.input.length + 1] s := by
    rw [Function.iterate_add_apply, iterate_streamIteration_of_stopped env n hall]
  rw [(runStreamRequestHandler_fields env s).1, ← hend, Nat.add_comm,
    Function.iterate_add_apply]
  exact pipe_iterate env _ _

theorem streamIteration_interrupt (env : StreamEnv) {s : StreamState}
    (hstopped : s.stopped = none) (hinput : s.input = Client.interruptRequest) :
    (streamIteration env s).stopped.isSome = true ∧ (streamIteration env s).pipe = s.pipe := by
  have hrun : ¬ s.stopped.isSome = true := by simp [hstopped]
  have hread : readStreamRequest env.socket env.ending Client.interruptRequest = .ok
      ({ port := env.socket.port, size := none, command := some (ascii "interrupt") }, []) := rfl
  rw [streamIteration, if_neg hrun, hinput, hread]
  exact ⟨rfl, rfl⟩

/-- The script is given standard input and nothing else: what is in its pipe is the
beginning of the client's standard input, and of what the client had sent of it. -/
structure OnlyStdin (env : StreamEnv) (stdin : Bytes) (written : List Bytes) (k : ℕ) : Prop where
  stdin : (runStreamRequestHandler env { input := Client.interruptedInput written k }).1.pipe <+:
    stdin
  sent : (runStreamRequestHandler env { input := Client.interruptedInput written k }).1.pipe <+:
    (Client.sentBodies (written.take k)).flatten

section Interrupted

variable {env : StreamEnv} {stdin tail : Bytes} {written chunks : List Bytes} {k : ℕ}

/-- The turn at a header whose bytes do not come takes the interruption for them. -/
theorem streamIteration_misread (env : StreamEnv) {s : StreamState} {n : ℕ}
    (hstopped : s.stopped = none) (htore : s.toreDownPipes = false) (hpos : 0 < n)
    (hle : n ≤ Client.bufferSize)
    (hinput : s.input = Client.streamRequestHeader n ++ Client.interruptRequest) :
    (env.pipeWrite s.writes = .written → ∃ b bytes,
      (streamIteration env s).pipe = s.pipe ++ b :: bytes) ∧
    (env.pipeWrite s.writes ≠ .written →
      (streamIteration env s).stopped.isSome = true ∧ (streamIteration env s).pipe = s.pipe) := by
  have hlt : n < 2 ^ 31 := by
    unfold Client.bufferSize at hle
    omega
  have hne : Client.interruptRequest ≠ [] := by decide
  have hturn := streamIteration_body env hstopped htore hpos hlt hne hinput
  have hcount := shortCount_pos (env.readOffer s.reads) n Client.interruptRequest.length
  dsimp only at hturn
  generalize shortCount (env.readOffer s.reads) n Client.interruptRequest.length = result
    at hturn hcount
  constructor
  · intro hpipe
    replace hturn := hturn.trans (transferStreamRequest_written env _ hpipe)
    obtain ⟨m, rfl⟩ : ∃ m, result = m + 1 := ⟨result - 1, by omega⟩
    exact ⟨_, _, by rw [hturn]; rfl⟩
  · intro hpipe
    rw [hturn]
    refine transferStreamRequest_failed env _ ?_
    exact hpipe

theorem Client.InterruptedAt.onlyStdin_of_stopped
    (h : Client.InterruptedAt stdin written k chunks tail) {n : ℕ}
    (hstopped : ((streamIteration env)^[n]
      { input := Client.interruptedInput written k }).stopped.isSome = true)
    (hpipe : ((streamIteration env)^[n] { input := Client.interruptedInput written k }).pipe <+:
      chunks.flatten) : OnlyStdin env stdin written k := by
  rw [← pipe_of_stopped env hstopped] at hpipe
  exact ⟨hpipe.trans h.stdin, by rwa [h.flatten_sent]⟩

theorem Client.InterruptedAt.not_onlyStdin
    (h : Client.InterruptedAt stdin written k chunks tail) {n : ℕ}
    (hmore : ∃ b bytes, ((streamIteration env)^[n]
      { input := Client.interruptedInput written k }).pipe = chunks.flatten ++ b :: bytes) :
    ¬ OnlyStdin env stdin written k := by
  intro honly
  obtain ⟨b, bytes, hpipe⟩ := hmore
  have hlen := ((pipe_prefix_run env n _).trans honly.sent).length_le
  rw [hpipe, h.flatten_sent, List.length_append, List.length_cons] at hlen
  omega

theorem onlyStdin_iff_of_interruptedAt (h : Client.InterruptedAt stdin written k chunks tail)
    (hfull : ∀ j c, (Client.sentBodies (written.take k))[j]? = some c →
      c.length = 1 ∨ c.length ≤ env.readOffer j) :
    OnlyStdin env stdin written k ↔
      ¬ (Client.BetweenWrites written k ∧ ∀ j ≤ k / 2, env.pipeWrite j = .written) := by
  have hread : ∀ j c, chunks[j]? = some c → c.length = 1 ∨ c.length ≤ env.readOffer (0 + j) := by
    intro j c hc
    rw [Nat.zero_add]
    exact hfull j c <| getElem?_of_prefix h.sent hc
  rcases frames_written_or_failed env h.nonempty
      (s := { input := Client.interruptedInput written k }) rfl rfl hread h.input with
    hall | ⟨j, hj, hfail, n, hstopped, hpipe⟩
  · have hrun := iterate_streamIteration_frames env h.nonempty
      (s := { input := Client.interruptedInput written k }) rfl rfl hall hread h.input
    have hsucc := Function.iterate_succ_apply' (streamIteration env) chunks.length
      { input := Client.interruptedInput written k }
    generalize hs : (streamIteration env)^[chunks.length]
      { input := Client.interruptedInput written k } = s at hrun hsucc
    have hpipe : s.pipe = chunks.flatten := by rw [hrun]; rfl
    -- what the turn behind the chunks does to the pipe is what the handler does
    have hlast : (streamIteration env s).stopped.isSome = true ∧
        (streamIteration env s).pipe = s.pipe → OnlyStdin env stdin written k :=
      fun ⟨hstopped, hsame⟩ => h.onlyStdin_of_stopped (n := chunks.length + 1) (by rwa [hsucc])
        (by rw [hsucc, hsame, hpipe])
    rcases h.tail_cases with ⟨hnot, htail | htail⟩ | ⟨hin, hk, n, hpos, hle, htail⟩
    · exact iff_of_true (hlast (streamIteration_interrupt env (by rw [hrun])
        (by rw [hrun, htail]))) (fun hboth => hnot hboth.1)
    · have hturn := streamIteration_eof env (s := s) (by rw [hrun]) (by rw [hrun, htail])
      exact iff_of_true (hlast (by rw [hturn]; exact ⟨rfl, rfl⟩)) (fun hboth => hnot hboth.1)
    · obtain ⟨htaken, hrefused⟩ := streamIteration_misread env (s := s) (by rw [hrun])
        (by rw [hrun]) hpos hle (by rw [hrun, htail])
      have hwrites : s.writes = k / 2 := by rw [hrun, hk]; exact Nat.zero_add _
      rw [hwrites] at htaken hrefused
      by_cases hwritten : env.pipeWrite (k / 2) = .written
      · obtain ⟨b, bytes, hmore⟩ := htaken hwritten
        refine iff_of_false (h.not_onlyStdin (n := chunks.length + 1) ⟨b, bytes, ?_⟩)
          (fun hnot => hnot ⟨hin, fun j hj => ?_⟩)
        · rw [hsucc, hmore, hpipe]
        · rcases Nat.lt_or_ge j (k / 2) with hlt | hge
          · have hbefore := hall j (hk ▸ hlt)
            rwa [Nat.zero_add] at hbefore
          · rwa [Nat.le_antisymm hj hge]
      · exact iff_of_true (hlast (hrefused hwritten)) (fun hboth => hwritten (hboth.2 _ le_rfl))
  · rw [Nat.zero_add] at hfail
    refine iff_of_true (h.onlyStdin_of_stopped hstopped ?_)
      (fun ⟨hin, hwritten⟩ => hfail (hwritten j ?_))
    · rw [hpipe, List.nil_append]
      exact ⟨(chunks.drop j).flatten, by rw [← List.flatten_append, List.take_append_drop]⟩
    · rcases h.tail_cases with ⟨hnot, -⟩ | ⟨-, hk, -⟩
      · exact absurd hin hnot
      · omega

end Interrupted

/-- In every session, with no short read of a chunk that is sent, the script is given
nothing but standard input exactly when the signal does not come between the writes
of a chunk, or the pipe takes no more before that. -/
theorem onlyStdin_iff_not_betweenWrites (sys : Client.System) (env : StreamEnv) (n : ℕ)
    (headers : List Client.Header) (socket stdin : Bytes) (k : ℕ)
    (hfull : ∀ j c, (Client.sentBodies ((Client.runSession sys n
        (Client.startSession headers socket stdin)).written.take k))[j]? = some c →
      c.length = 1 ∨ c.length ≤ env.readOffer j) :
    let s := Client.runSession sys n (Client.startSession headers socket stdin)
    OnlyStdin env stdin s.written k ↔
      ¬ (Client.BetweenWrites s.written k ∧ ∀ j ≤ k / 2, env.pipeWrite j = .written) := by
  intro s
  obtain ⟨chunks, hsent⟩ := Client.sentChunks_run sys n headers socket stdin
  obtain ⟨before, tail, h⟩ := hsent.interruptedAt k
  exact onlyStdin_iff_of_interruptedAt h hfull

def stdinSystem : Client.System where
  recvOffer _ := 512
  stdinOffer _ := some 512
  select _ := .ready true false

def helloSession : Client.Session :=
  Client.runSession stdinSystem 1 (Client.startSession [] [] (ascii "hello"))

theorem onlyStdin_iff_not_betweenWrites_hello :
    OnlyStdin (offering 512) (ascii "hello") helloSession.written 2 ↔
      ¬ (Client.BetweenWrites helloSession.written 2 ∧
        ∀ j ≤ 2 / 2, (offering 512).pipeWrite j = .written) :=
  onlyStdin_iff_not_betweenWrites stdinSystem (offering 512) 1 [] [] (ascii "hello") 2
    (fun j c hc => .inr (by
      obtain rfl : c = ascii "hello" := List.mem_singleton.mp (List.mem_of_getElem? hc)
      exact (by decide +kernel : (ascii "hello").length ≤ 512)))

def shortFirst : StreamEnv :=
  { offering 512 with readOffer := fun k => if k = 0 then 1 else 512 }

/-- Interrupted after the header of `hello`, the session gives the script `Cmd: `. A short
read can have the same effect on a chunk that holds a header. -/
theorem not_onlyStdin_hello :
    ¬ OnlyStdin (offering 512) (ascii "hello") helloSession.written 1 ∧
      ¬ OnlyStdin shortFirst (ascii "xSize: 9\n\n")
        [Client.streamRequestHeader 10, ascii "xSize: 9\n\n"] 2 :=
  ⟨fun h => absurd h.stdin (by decide +kernel), fun h => absurd h.stdin (by decide +kernel)⟩

end GroovyServ

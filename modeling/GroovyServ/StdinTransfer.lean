import GroovyServ.ClientSession
import GroovyServ.HeaderBlocks
import GroovyServ.StreamRequestHandler

/-!
# Standard input from the client to the script

The client announces each chunk of its standard input with its size. The handler
takes the body with one read, which may return fewer bytes than asked for: the
chunks arrive whole exactly when no read does. The request that announces the end
of standard input does not pass the check that the handler applies, and ends the
session.
-/

namespace GroovyServ

open Server

def stdinFrame (chunk : Bytes) : Bytes := Client.streamRequestHeader chunk.length ++ chunk

def frameUses (chunk : Bytes) : List ByteUse :=
  List.replicate (Client.streamRequestHeader chunk.length).length .header ++
    List.replicate chunk.length .body

theorem streamRequestHeader_eq (n : ℕ) (rest : Bytes) :
    Client.streamRequestHeader n ++ rest =
      headersText [(headerKeySize, decimal n)] ++ lf :: rest := by
  have hkey : ascii "Size: " = headerKeySize ++ ascii ": " := rfl
  simp [Client.streamRequestHeader, headersText, headerLine, hkey]

theorem sizeField_plain (n : ℕ) : (∀ f ∈ [(headerKeySize, decimal n)], f.1 ≠ [] ∧ lf ∉ f.1) ∧
    (∀ f ∈ [(headerKeySize, decimal n)], lf ∉ f.2) ∧
    ∀ f ∈ [(headerKeySize, decimal n)], (58 : UInt8) ∉ f.1 := by
  have hlf := notMem_decimal n lf (by decide)
  simp only [List.forall_mem_singleton]
  exact ⟨by decide, hlf, by decide⟩

theorem headerBytes_streamRequestHeader (ending : Ending) (n : ℕ) (rest : Bytes) :
    headerBytes ending (Client.streamRequestHeader n ++ rest) =
      (Client.streamRequestHeader n).length := by
  obtain ⟨hkeys, hvalues, -⟩ := sizeField_plain n
  have hlen : (Client.streamRequestHeader n ++ rest).length =
    (Client.streamRequestHeader n).length + rest.length := List.length_append
  rw [headerBytes, hlen, streamRequestHeader_eq, readLines_fields ending hkeys hvalues]
  dsimp only
  omega

theorem getSize_decimal {n : ℕ} (hn : n < 2 ^ 31) (port : ℕ) (command : Option Bytes) :
    ({ port := port, size := some (decimal n), command := command } : StreamRequest).getSize =
      n := by
  rw [StreamRequest.getSize, Option.bind_some, trim_decimal, parseInteger_decimal hn]
  rfl

theorem readStreamRequest_size (socket : Socket) (ending : Ending) (n : ℕ) (rest : Bytes) :
    readStreamRequest socket ending (Client.streamRequestHeader n ++ rest) =
      (StreamRequest.check ⟨socket.port, some (decimal n), none⟩).map fun _ =>
        (⟨socket.port, some (decimal n), none⟩, rest) := by
  obtain ⟨hkeys, hvalues, hcolon⟩ := sizeField_plain n
  have hsize : valuesOf ([(headerKeySize, decimal n)].map fun f => f.1 ++ (ascii ": " ++ f.2))
      headerKeySize = [decimal n] := by
    rw [valuesOf_fields hcolon]
    simp [trim_decimal]
  have hcommand : valuesOf ([(headerKeySize, decimal n)].map fun f => f.1 ++ (ascii ": " ++ f.2))
      headerKeyCommand = [] := by
    rw [valuesOf_fields hcolon]
    rfl
  rw [readStreamRequest, streamRequestHeader_eq, parseHeaders_fields ending hkeys hvalues, ok_bind]
  dsimp only
  rw [first_headersOf, first_headersOf, hsize, hcommand, List.head?_cons, List.head?_nil]
  cases StreamRequest.check ⟨socket.port, some (decimal n), none⟩ <;> rfl

/-- The request for a chunk of `n` bytes is refused exactly when `n` is zero. -/
theorem readStreamRequest_header (socket : Socket) (ending : Ending) {n : ℕ} (hn : n < 2 ^ 31)
    (rest : Bytes) :
    readStreamRequest socket ending (Client.streamRequestHeader n ++ rest) =
      if n = 0 then
        .error (.threw (.invalidRequestHeader
          (ascii "Invalid StreamRequest: size=0, command=null")))
      else .ok ({ port := socket.port, size := some (decimal n), command := none }, rest) := by
  rw [readStreamRequest_size, StreamRequest.check, StreamRequest.isEmpty, getSize_decimal hn]
  by_cases hzero : n = 0
  · subst hzero
    rfl
  · simp [hzero, truth, Except.map]

theorem readStreamBody_transfer (env : StreamEnv) (size : ℕ) {s : StreamState}
    (hne : s.input ≠ []) (htore : s.toreDownPipes = false) :
    let result := shortCount (env.readOffer s.reads) size s.input.length
    readStreamBody env size s =
      transferStreamRequest env (s.input.take result)
        { s with
          input := s.input.drop result
          uses := s.uses ++ List.replicate result .body
          reads := s.reads + 1 } := by
  intro result
  have htore' : ¬ s.toreDownPipes = true := by simp [htore]
  rw [readStreamBody, if_neg hne, if_neg htore']
  rfl

theorem streamIteration_body (env : StreamEnv) {s : StreamState} {n : ℕ} {body : Bytes}
    (hstopped : s.stopped = none) (htore : s.toreDownPipes = false) (hpos : 0 < n)
    (hlt : n < 2 ^ 31) (hne : body ≠ []) (hinput : s.input = Client.streamRequestHeader n ++ body) :
    let result := shortCount (env.readOffer s.reads) n body.length
    streamIteration env s =
      transferStreamRequest env (body.take result)
        { s with
          input := body.drop result
          uses := s.uses ++ List.replicate (Client.streamRequestHeader n).length .header ++
            List.replicate result .body
          reads := s.reads + 1 } := by
  intro result
  have hrun : ¬ s.stopped.isSome = true := by simp [hstopped]
  have hread := readStreamRequest_header env.socket env.ending hlt body
  have hbody : (s.take (headerBytes env.ending s.input) .header).input = body := by
    rw [StreamState.take, hinput, headerBytes_streamRequestHeader, List.drop_left]
  have htransfer := readStreamBody_transfer env n
    (s := s.take (headerBytes env.ending s.input) .header) (by rwa [hbody]) htore
  have hempty : ¬ (decide ((n : ℤ) = 0) = true) := by
    rw [decide_eq_true_eq]
    omega
  rw [if_neg hpos.ne'] at hread
  rw [streamIteration, if_neg hrun, hinput, hread]
  dsimp only
  rw [if_neg (by simp [StreamRequest.isInterrupted]), StreamRequest.isEmpty, getSize_decimal hlt,
    if_neg hempty, if_neg (by omega), Int.toNat_natCast, ← hinput, htransfer, hbody, hinput,
    headerBytes_streamRequestHeader]
  rfl

theorem streamIteration_frame (env : StreamEnv) {s : StreamState} {chunk rest : Bytes}
    (hstopped : s.stopped = none) (htore : s.toreDownPipes = false) (hne : chunk ≠ [])
    (hlen : chunk.length ≤ Client.bufferSize) (hinput : s.input = stdinFrame chunk ++ rest) :
    let result := shortCount (env.readOffer s.reads) chunk.length (chunk ++ rest).length
    streamIteration env s =
      transferStreamRequest env ((chunk ++ rest).take result)
        { s with
          input := (chunk ++ rest).drop result
          uses := s.uses ++
            List.replicate (Client.streamRequestHeader chunk.length).length .header ++
            List.replicate result .body
          reads := s.reads + 1 } := by
  have hlt : chunk.length < 2 ^ 31 := by
    unfold Client.bufferSize at hlen
    omega
  exact streamIteration_body env hstopped htore (List.length_pos_of_ne_nil hne) hlt
    (by simp [hne]) (by rw [hinput, stdinFrame, List.append_assoc])

theorem transferStreamRequest_written (env : StreamEnv) (data : Bytes) {s : StreamState}
    (hpipe : env.pipeWrite s.writes = .written) :
    transferStreamRequest env data s =
      { s with pipe := s.pipe ++ data, writes := s.writes + 1 } := by
  rw [transferStreamRequest, hpipe]

theorem streamIteration_frame_written (env : StreamEnv) {s : StreamState} {chunk rest : Bytes}
    (hstopped : s.stopped = none) (htore : s.toreDownPipes = false)
    (hpipe : env.pipeWrite s.writes = .written) (hne : chunk ≠ [])
    (hlen : chunk.length ≤ Client.bufferSize) (hinput : s.input = stdinFrame chunk ++ rest) :
    let result := shortCount (env.readOffer s.reads) chunk.length (chunk ++ rest).length
    streamIteration env s =
      { s with
        input := (chunk ++ rest).drop result
        uses := s.uses ++ List.replicate (Client.streamRequestHeader chunk.length).length .header ++
          List.replicate result .body
        pipe := s.pipe ++ (chunk ++ rest).take result
        reads := s.reads + 1
        writes := s.writes + 1 } :=
  (streamIteration_frame env hstopped htore hne hlen hinput).trans
    (transferStreamRequest_written env _ hpipe)

theorem shortCount_full {offer asked available : ℕ} (hpos : 0 < asked) (hle : asked ≤ available)
    (hfull : asked = 1 ∨ asked ≤ offer) : shortCount offer asked available = asked :=
  (shortCount_eq_asked_iff offer asked available hpos hle).mpr hfull

/-- As long as every read returns what it was asked for, the chunks arrive whole. -/
theorem iterate_streamIteration_frames (env : StreamEnv) {chunks : List Bytes}
    (hchunks : ∀ c ∈ chunks, c ≠ [] ∧ c.length ≤ Client.bufferSize) {s : StreamState}
    (hstopped : s.stopped = none) (htore : s.toreDownPipes = false)
    (hpipe : ∀ k < chunks.length, env.pipeWrite (s.writes + k) = .written)
    (hfull : ∀ k c, chunks[k]? = some c → c.length = 1 ∨ c.length ≤ env.readOffer (s.reads + k))
    {rest : Bytes} (hinput : s.input = chunks.flatMap stdinFrame ++ rest) :
    (streamIteration env)^[chunks.length] s =
      { s with
        input := rest
        uses := s.uses ++ chunks.flatMap frameUses
        pipe := s.pipe ++ chunks.flatten
        reads := s.reads + chunks.length
        writes := s.writes + chunks.length } := by
  induction chunks generalizing s with
  | nil =>
    obtain rfl : s.input = rest := hinput
    simp
  | cons chunk chunks ih =>
    rw [List.forall_mem_cons] at hchunks
    obtain ⟨⟨hne, hlen⟩, hchunks⟩ := hchunks
    rw [List.flatMap_cons, List.append_assoc] at hinput
    have hfirst := streamIteration_frame_written env hstopped htore
      (hpipe 0 (Nat.succ_pos _)) hne hlen hinput
    have hread : chunk.length = 1 ∨ chunk.length ≤ env.readOffer s.reads := hfull 0 chunk rfl
    have hle : chunk.length ≤ (chunk ++ (chunks.flatMap stdinFrame ++ rest)).length := by
      rw [List.length_append]
      omega
    have hresult := shortCount_full (List.length_pos_of_ne_nil hne) hle hread
    simp only [hresult, List.drop_left, List.take_left] at hfirst
    rw [List.length_cons, Function.iterate_succ_apply, hfirst, ih hchunks]
    · simp [frameUses, Nat.add_comm, Nat.add_left_comm]
    · exact hstopped
    · exact htore
    · intro k hk
      have h := hpipe (k + 1) (Nat.succ_lt_succ hk)
      rwa [Nat.add_comm k, ← Nat.add_assoc] at h
    · intro k c hc
      have h := hfull (k + 1) c (by simpa using hc)
      rwa [Nat.add_comm k, ← Nat.add_assoc] at h
    · rfl

theorem uses_transferStreamRequest (env : StreamEnv) (data : Bytes) (s : StreamState) :
    (transferStreamRequest env data s).uses = s.uses := by
  unfold transferStreamRequest
  split <;> rfl

theorem uses_readStreamBody (env : StreamEnv) (size : ℕ) (s : StreamState) :
    s.uses <+: (readStreamBody env size s).uses := by
  unfold readStreamBody
  split_ifs with hnil htore
  · split <;> exact List.prefix_rfl
  · exact List.prefix_append _ _
  · dsimp only
    rw [uses_transferStreamRequest]
    exact List.prefix_append _ _

theorem uses_streamIteration (env : StreamEnv) {s : StreamState} (hstopped : s.stopped = none) :
    s.uses ++ List.replicate (headerBytes env.ending s.input) .header <+:
      (streamIteration env s).uses := by
  have hrun : ¬ s.stopped.isSome = true := by simp [hstopped]
  rw [streamIteration, if_neg hrun]
  dsimp only
  split
  · exact List.prefix_rfl
  · split_ifs with hinterrupted hempty hnegative
    · exact List.prefix_rfl
    · exact List.prefix_rfl
    · exact List.prefix_rfl
    · exact uses_readStreamBody env _ (s.take (headerBytes env.ending s.input) .header)

theorem uses_iterate (env : StreamEnv) (n : ℕ) (s : StreamState) :
    s.uses <+: ((streamIteration env)^[n] s).uses := by
  induction n generalizing s with
  | zero => exact List.prefix_rfl
  | succ n ih =>
    rw [Function.iterate_succ_apply]
    cases hs : s.stopped with
    | some stop => rw [streamIteration_of_stopped env (by rw [hs]; rfl)]; exact ih s
    | none =>
      have hfirst := uses_streamIteration env hs
      exact ((List.prefix_append _ _).trans hfirst).trans (ih _)

theorem getElem?_of_prefix {α : Type*} {l l' : List α} (h : l <+: l') {i : ℕ} {a : α}
    (ha : l[i]? = some a) : l'[i]? = some a := by
  obtain ⟨t, rfl⟩ := h
  rwa [List.getElem?_append_left (List.getElem?_eq_some_iff.mp ha).1]

/-- After a short read the next turn parses the rest of the body as a header. -/
theorem body_parsed_of_short (env : StreamEnv) (hpipe : ∀ k, env.pipeWrite k = .written)
    {chunk rest : Bytes} (hne : chunk ≠ []) (hlen : chunk.length ≤ Client.bufferSize)
    {s : StreamState} (hstopped : s.stopped = none) (htore : s.toreDownPipes = false)
    (hinput : s.input = stdinFrame chunk ++ rest)
    (hshort : ¬ (chunk.length = 1 ∨ chunk.length ≤ env.readOffer s.reads)) (n : ℕ) :
    ∃ i < (frameUses chunk).length, (frameUses chunk)[i]? = some .body ∧
      ((streamIteration env)^[n + 2] s).uses[s.uses.length + i]? = some .header := by
  have hpos := List.length_pos_of_ne_nil hne
  have hle := shortCount_le (env.readOffer s.reads) chunk.length (chunk ++ rest).length hpos
    (by rw [List.length_append]; omega)
  have hne_full := (shortCount_eq_asked_iff (env.readOffer s.reads) chunk.length
    (chunk ++ rest).length hpos (by rw [List.length_append]; omega)).not.mpr hshort
  have hfirst := streamIteration_frame_written env hstopped htore (hpipe _) hne hlen hinput
  dsimp only at hfirst
  generalize shortCount (env.readOffer s.reads) chunk.length (chunk ++ rest).length = result
    at hle hne_full hfirst
  have hlt : result < chunk.length := by omega
  have hnil : (chunk ++ rest).drop result ≠ [] := by
    rw [Ne, List.drop_eq_nil_iff, List.length_append]
    omega
  have hhead := headerBytes_pos env.ending hnil
  refine ⟨(Client.streamRequestHeader chunk.length).length + result, ?_, ?_, ?_⟩
  · rw [frameUses, List.length_append, List.length_replicate, List.length_replicate]
    omega
  · rw [frameUses, List.getElem?_append_right (by simp), List.length_replicate,
      Nat.add_sub_cancel_left, List.getElem?_replicate, if_pos hlt]
  · have hstopped₁ : (streamIteration env s).stopped = none := by rw [hfirst]; exact hstopped
    have hinput₁ : (streamIteration env s).input = (chunk ++ rest).drop result := by rw [hfirst]
    have huses₁ : (streamIteration env s).uses.length = s.uses.length +
        ((Client.streamRequestHeader chunk.length).length + result) := by
      rw [hfirst, List.length_append, List.length_append, List.length_replicate,
        List.length_replicate, Nat.add_assoc]
    rw [Function.iterate_add_apply, Function.iterate_succ_apply, Function.iterate_one]
    refine getElem?_of_prefix
      ((uses_streamIteration env hstopped₁).trans (uses_iterate env n _)) ?_
    rw [← huses₁, hinput₁, List.getElem?_append_right le_rfl, Nat.sub_self,
      List.getElem?_replicate, if_pos hhead]

theorem exists_body_parsed (env : StreamEnv) (hpipe : ∀ k, env.pipeWrite k = .written)
    {chunks : List Bytes} (hchunks : ∀ c ∈ chunks, c ≠ [] ∧ c.length ≤ Client.bufferSize)
    {s : StreamState} (hstopped : s.stopped = none) (htore : s.toreDownPipes = false)
    (hinput : s.input = chunks.flatMap stdinFrame) {k : ℕ} {c : Bytes} (hc : chunks[k]? = some c)
    (hshort : ¬ (c.length = 1 ∨ c.length ≤ env.readOffer (s.reads + k))) (n : ℕ)
    (hn : s.input.length < n) :
    ∃ i, (chunks.flatMap frameUses)[i]? = some .body ∧
      ((streamIteration env)^[n] s).uses[s.uses.length + i]? = some .header := by
  induction chunks generalizing s k n with
  | nil => simp at hc
  | cons chunk chunks ih =>
    rw [List.forall_mem_cons] at hchunks
    obtain ⟨⟨hne, hlen⟩, hchunks⟩ := hchunks
    rw [List.flatMap_cons] at hinput ⊢
    have hsize : 2 ≤ s.input.length := by
      have : 6 ≤ (Client.streamRequestHeader chunk.length).length := by
        simp [Client.streamRequestHeader, ascii]
      rw [hinput, stdinFrame, List.length_append, List.length_append]
      omega
    by_cases hfull : chunk.length = 1 ∨ chunk.length ≤ env.readOffer s.reads
    · have hfirst := streamIteration_frame_written env hstopped htore (hpipe _) hne hlen hinput
      have hle : chunk.length ≤ (chunk ++ chunks.flatMap stdinFrame).length := by
        rw [List.length_append]
        omega
      have hresult := shortCount_full (List.length_pos_of_ne_nil hne) hle hfull
      simp only [hresult, List.drop_left, List.take_left] at hfirst
      obtain ⟨n, rfl⟩ : ∃ m, n = m + 1 := ⟨n - 1, by omega⟩
      cases k with
      | zero =>
        obtain rfl : chunk = c := by simpa using hc
        exact absurd hfull hshort
      | succ k =>
        have hinput₁ : (streamIteration env s).input = chunks.flatMap stdinFrame := by rw [hfirst]
        have hreads₁ : (streamIteration env s).reads = s.reads + 1 := by rw [hfirst]
        have huses₁ : (streamIteration env s).uses.length =
            s.uses.length + (frameUses chunk).length := by
          rw [hfirst, frameUses, List.append_assoc, List.length_append]
        obtain ⟨i, hbody, hheader⟩ := ih hchunks (by rw [hfirst]; exact hstopped)
          (by rw [hfirst]; exact htore) hinput₁ (by simpa using hc)
          (by rwa [hreads₁, Nat.add_assoc, Nat.add_comm 1]) n (by
            rw [hinput, List.length_append] at hn
            rw [hinput₁]
            have : 0 < (stdinFrame chunk).length := by simp [stdinFrame, Client.streamRequestHeader]
            omega)
        refine ⟨(frameUses chunk).length + i, ?_, ?_⟩
        · rwa [List.getElem?_append_right (Nat.le_add_right _ _), Nat.add_sub_cancel_left]
        · rwa [Function.iterate_succ_apply, ← Nat.add_assoc, ← huses₁]
    · obtain ⟨n, rfl⟩ : ∃ m, n = m + 2 := ⟨n - 2, by omega⟩
      obtain ⟨i, hi, hbody, hheader⟩ := body_parsed_of_short env hpipe hne hlen hstopped htore
        hinput hfull n
      exact ⟨i, by rwa [List.getElem?_append_left hi], hheader⟩

theorem streamIteration_nil (env : StreamEnv) {stop : Stop}
    (hread : readStreamRequest env.socket env.ending [] = .error stop) {s : StreamState}
    (hstopped : s.stopped = none) (hinput : s.input = []) :
    streamIteration env s = s.stop stop := by
  have hrun : ¬ s.stopped.isSome = true := by simp [hstopped]
  have hzero : headerBytes env.ending [] = 0 := by
    unfold headerBytes
    split <;> simp
  rw [streamIteration, if_neg hrun, hinput, hread, hzero]
  simp [StreamState.take, StreamState.stop, hinput]

/-- The chunks reach the script's pipe as they were sent: all their bytes in order,
none of them taken for a header, and the handler ends as it does with nothing to
read. -/
structure StdinDelivered (env : StreamEnv) (chunks : List Bytes) : Prop where
  pipe : (runStreamRequestHandler env { input := chunks.flatMap stdinFrame }).1.pipe =
    chunks.flatten
  uses : ∀ i : ℕ, (chunks.flatMap frameUses)[i]? = some ByteUse.body →
    (runStreamRequestHandler env { input := chunks.flatMap stdinFrame }).1.uses[i]? ≠
      some ByteUse.header
  ended : (runStreamRequestHandler env { input := chunks.flatMap stdinFrame }).2 =
    (runStreamRequestHandler env { input := [] }).2

/-- The chunks are delivered exactly when every read of a body returns all the
bytes that it asks for. -/
theorem stdinDelivered_iff (env : StreamEnv) (hpipe : ∀ k, env.pipeWrite k = .written)
    {chunks : List Bytes} (hchunks : ∀ c ∈ chunks, c ≠ [] ∧ c.length ≤ Client.bufferSize) :
    StdinDelivered env chunks ↔
      ∀ k c, chunks[k]? = some c → c.length = 1 ∨ c.length ≤ env.readOffer k := by
  obtain ⟨hrunPipe, hrunUses, -, hrunEnd⟩ := runStreamRequestHandler_fields env
    { input := chunks.flatMap stdinFrame }
  constructor
  · intro h k c hc
    by_contra hshort
    obtain ⟨i, hbody, hheader⟩ := exists_body_parsed env hpipe hchunks
      (s := { input := chunks.flatMap stdinFrame }) rfl rfl rfl hc (by rwa [Nat.zero_add])
      _ (Nat.lt_succ_self _)
    rw [List.length_nil, Nat.zero_add] at hheader
    exact h.uses i hbody (hrunUses ▸ hheader)
  · intro hfull
    obtain ⟨stop, hstop⟩ := readStreamRequest_nil env.socket env.ending
    have hframes := iterate_streamIteration_frames env hchunks
      (s := { input := chunks.flatMap stdinFrame }) rfl rfl (fun _ _ => hpipe _)
      (fun k c hc => by rw [Nat.zero_add]; exact hfull k c hc) (List.append_nil _).symm
    have hlast : (streamIteration env)^[1 + chunks.length] { input := chunks.flatMap stdinFrame } =
        { input := [], uses := chunks.flatMap frameUses, pipe := chunks.flatten,
          reads := chunks.length, writes := chunks.length, stopped := some stop } := by
      rw [Function.iterate_add_apply, hframes, Function.iterate_one,
        streamIteration_nil env hstop rfl rfl]
      simp [StreamState.stop]
    have hrun := iterate_eq_of_stopped env (n := 1 + chunks.length)
      (s := { input := chunks.flatMap stdinFrame }) (by rw [hlast]; rfl)
    rw [hlast] at hrun
    obtain ⟨-, -, -, hemptyEnd⟩ := runStreamRequestHandler_fields env { input := [] }
    refine ⟨?_, fun i hbody => ?_, ?_⟩
    · rw [hrunPipe, hrun]
    · rw [hrunUses, hrun]
      simp [hbody]
    · rw [hrunEnd, hrun, hemptyEnd, List.length_nil, Function.iterate_one,
        streamIteration_nil env hstop rfl rfl]
      rfl

/-- Reads return what they are asked for, up to `offer` bytes, and more may come. -/
def offering (offer : ℕ) : StreamEnv where
  socket := ⟨1961, true, [], []⟩
  ending := .waiting
  readOffer _ := offer
  pipeWrite _ := .written

theorem stdinDelivered_iff_two : StdinDelivered (offering 2) [ascii "a", ascii "bc"] ↔
    ∀ (k : ℕ) (c : Bytes), [ascii "a", ascii "bc"][k]? = some c → c.length = 1 ∨ c.length ≤ 2 :=
  stdinDelivered_iff (offering 2) (fun _ => rfl) (by decide +kernel)

/-- A read that returns one byte of two loses the other to the header parser. -/
theorem not_stdinDelivered_one : ¬ StdinDelivered (offering 1) [ascii "ab"] := fun h =>
  absurd h.pipe (by decide +kernel)

/-- The handler takes the request at the start of its input for the end of standard
input: it tears down the pipe, keeps what it has delivered, and goes on with what
follows. -/
structure KeepsReading (env : StreamEnv) (s : StreamState) (rest : Bytes) : Prop where
  running : (streamIteration env s).stopped = none
  toreDownPipes : (streamIteration env s).toreDownPipes = true
  input : (streamIteration env s).input = rest
  pipe : (streamIteration env s).pipe = s.pipe

theorem streamIteration_eof (env : StreamEnv) {s : StreamState} {rest : Bytes}
    (hstopped : s.stopped = none) (hinput : s.input = Client.streamRequestHeader 0 ++ rest) :
    streamIteration env s =
      (s.take (Client.streamRequestHeader 0).length .header).stop
        (.threw (.invalidRequestHeader (ascii "Invalid StreamRequest: size=0, command=null"))) := by
  have hrun : ¬ s.stopped.isSome = true := by simp [hstopped]
  have hread := readStreamRequest_header env.socket env.ending (n := 0) (by omega) rest
  rw [if_pos rfl] at hread
  rw [streamIteration, if_neg hrun, hinput, hread, headerBytes_streamRequestHeader]

/-- Whatever came before it, the request by which the client announces the end of
its standard input interrupts the session, and nothing after it is read. -/
theorem stdin_eof_interrupts (env : StreamEnv) (n : ℕ) {s₀ s : StreamState} {rest : Bytes}
    (hreach : (streamIteration env)^[n] s₀ = s) (hstopped : s.stopped = none)
    (hinput : s.input = Client.streamRequestHeader 0 ++ rest) :
    ¬ KeepsReading env s rest ∧
      (runStreamRequestHandler env s₀).2 =
        .threw (.gservInterrupted (ascii "By receiving invalid request")) ∧
      (runStreamRequestHandler env s₀).1.input = rest ∧
      (runStreamRequestHandler env s₀).1.pipe = s.pipe := by
  have hnext := streamIteration_eof env hstopped hinput
  have hlast : (streamIteration env)^[n + 1] s₀ = streamIteration env s := by
    rw [Function.iterate_succ_apply', hreach]
  have hrun := iterate_eq_of_stopped env (n := n + 1) (s := s₀) (by rw [hlast, hnext]; rfl)
  obtain ⟨hpipe, -, hrest, hend⟩ := runStreamRequestHandler_fields env s₀
  rw [hlast, hnext] at hrun
  refine ⟨fun h => ?_, ?_, ?_, ?_⟩
  · have hrunning := h.running
    rw [hnext] at hrunning
    cases hrunning
  · rw [hend, hrun]
    rfl
  · rw [hrest, hrun, StreamState.stop, StreamState.take, hinput, List.drop_left]
  · rw [hpipe, hrun]
    rfl

theorem reaches_stdin_eof (env : StreamEnv) (hpipe : ∀ k, env.pipeWrite k = .written)
    {chunks : List Bytes} (hchunks : ∀ c ∈ chunks, c ≠ [] ∧ c.length ≤ Client.bufferSize)
    (hfull : ∀ k c, chunks[k]? = some c → c.length = 1 ∨ c.length ≤ env.readOffer k)
    (rest : Bytes) :
    ∃ s, (streamIteration env)^[chunks.length]
        { input := chunks.flatMap stdinFrame ++ (stdinFrame [] ++ rest) } = s ∧
      s.stopped = none ∧ s.input = Client.streamRequestHeader 0 ++ rest ∧
      s.pipe = chunks.flatten := by
  refine ⟨_, iterate_streamIteration_frames env hchunks
    (s := { input := chunks.flatMap stdinFrame ++ (stdinFrame [] ++ rest) }) rfl rfl
    (fun _ _ => hpipe _) (fun k c hc => by rw [Nat.zero_add]; exact hfull k c hc) rfl, rfl, ?_, rfl⟩
  rw [stdinFrame, List.append_nil]
  rfl

def eofInput : Bytes := stdinFrame (ascii "hi") ++ (stdinFrame [] ++ ascii "Cmd: interrupt\n\n")

theorem stdin_eof_interrupts_hi :
    ∃ s, (streamIteration (offering 512))^[1] { input := eofInput } = s ∧
      ¬ KeepsReading (offering 512) s (ascii "Cmd: interrupt\n\n") ∧
      (runStreamRequestHandler (offering 512) { input := eofInput }).2 =
        .threw (.gservInterrupted (ascii "By receiving invalid request")) := by
  obtain ⟨s, hreach, hstopped, hinput, -⟩ := reaches_stdin_eof (offering 512) (fun _ => rfl)
    (by decide +kernel : ∀ c ∈ [ascii "hi"], c ≠ [] ∧ c.length ≤ Client.bufferSize)
    (fun k c hc => .inr (by
      obtain rfl := List.mem_singleton.mp (List.mem_of_getElem? hc)
      exact (by decide +kernel : (ascii "hi").length ≤ 512))) (ascii "Cmd: interrupt\n\n")
  have h := stdin_eof_interrupts (offering 512) 1 hreach hstopped hinput
  exact ⟨s, hreach, h.1, h.2.1⟩

/-- The end of standard input ends the session, and the client's interruption behind
it is not read. -/
theorem eofInput_interrupted :
    (runStreamRequestHandler (offering 512) { input := eofInput }).2 =
      .threw (.gservInterrupted (ascii "By receiving invalid request")) ∧
    (runStreamRequestHandler (offering 512) { input := eofInput }).1.input =
      ascii "Cmd: interrupt\n\n" := by
  decide +kernel

end GroovyServ

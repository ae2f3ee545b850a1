import GroovyServ.ClientSession

/-!
# Responses arrive as they were written

The client's session loop decodes the frames that the server's streams encode:
each chunk goes to its channel, in order and whatever it contains, and the exit
status ends the session. Standard input may be served in between, `recv` may
return short counts, and the header array may hold anything before.
-/

namespace GroovyServ

open Lines Client

def channelBytes (channel : Channel) (chunks : List (Channel × JByteArray)) : Bytes :=
  chunks.flatMap fun c => if c.1 = channel then c.2.val else []

theorem channelBytes_cons (channel : Channel) (c : Channel × JByteArray)
    (chunks : List (Channel × JByteArray)) :
    channelBytes channel (c :: chunks) =
      (if c.1 = channel then c.2.val else []) ++ channelBytes channel chunks := rfl

def frame (c : Channel × JByteArray) : Bytes :=
  Server.formatAsResponseHeader c.1 c.2.val.length ++ c.2.val

namespace Client

structure System.Live (sys : System) : Prop where
  select_ready : ∀ k, ∃ stdin socket, sys.select k = .ready stdin socket
  stdin_readable : ∀ k, ∃ offer, sys.stdinOffer k = some offer
  socket_ready : ∀ k, ∃ d stdin, sys.select (k + d) = .ready stdin true

/-- The sessions differ only in what concerns standard input. -/
structure SameResponses (s s' : Session) : Prop where
  socket : s'.socket = s.socket
  headers : s'.headers = s.headers
  out : s'.out = s.out
  err : s'.err = s.err
  ended : s'.ended = s.ended

theorem SameResponses.trans {s s' s'' : Session} (h : SameResponses s s')
    (h' : SameResponses s' s'') : SameResponses s s'' :=
  ⟨h'.socket.trans h.socket, h'.headers.trans h.headers, h'.out.trans h.out,
    h'.err.trans h.err, h'.ended.trans h.ended⟩

theorem SameResponses.selects (s : Session) (n : ℕ) : SameResponses s { s with selects := n } :=
  ⟨rfl, rfl, rfl, rfl, rfl⟩

def channelField (channel : Channel) : Field where
  key := headerKeyChannel
  value := channel.name
  key_ne_nil := by decide
  key_alnum := by decide +kernel
  key_short := by decide +kernel
  value_ne_nil := by cases channel <;> decide +kernel
  value_head := by cases channel <;> decide +kernel
  value_plain := by cases channel <;> decide +kernel
  fits := by cases channel <;> decide +kernel

theorem numberKey {key : Bytes} (hkey : key = headerKeySize ∨ key = headerKeyStatus) :
    key ≠ [] ∧ (∀ c ∈ key, CLib.isalnum c = true) ∧ key.length ≤ 6 := by
  rcases hkey with rfl | rfl
  · decide +kernel
  · decide +kernel

theorem numberValue {value : Bytes} (hchars : ∀ c ∈ value, c = 45 ∨ isDigit c = true) :
    (∀ c ∈ value.head?, CLib.isspace c = false) ∧ ∀ c ∈ value, c ≠ 0 ∧ c ≠ lf := by
  constructor
  · intro c hc
    rcases hchars c (List.mem_of_mem_head? hc) with rfl | hdigit
    · rfl
    · simp only [isDigit, decide_eq_true_eq] at hdigit
      simp only [CLib.isspace, decide_eq_false_iff_not]
      omega
  · intro c hc
    rcases hchars c hc with rfl | hdigit
    · decide
    · constructor <;> rintro rfl <;> exact absurd hdigit (by decide)

theorem number_fits {key value : Bytes} (hkey : key.length ≤ 6) (hvalue : value.length ≤ 11) :
    key.length < maxHeaderKeyLen ∧ key.length + value.length + 3 ≤ bufferSize := by
  unfold maxHeaderKeyLen bufferSize
  omega

def numberField (key value : Bytes) (hkey : key = headerKeySize ∨ key = headerKeyStatus)
    (hne : value ≠ []) (hlen : value.length ≤ 11)
    (hchars : ∀ c ∈ value, c = 45 ∨ isDigit c = true) : Field where
  key := key
  value := value
  key_ne_nil := (numberKey hkey).1
  key_alnum := (numberKey hkey).2.1
  key_short := (number_fits (numberKey hkey).2.2 hlen).1
  value_ne_nil := hne
  value_head := (numberValue hchars).1
  value_plain := (numberValue hchars).2
  fits := (number_fits (numberKey hkey).2.2 hlen).2

theorem decimalInt_chars (z : ℤ) : ∀ c ∈ decimalInt z, c = 45 ∨ isDigit c = true := by
  intro c hc
  unfold decimalInt at hc
  split_ifs at hc
  · exact (List.mem_cons.mp hc).imp_right (isDigit_of_mem_decimal _ c)
  · exact .inr (isDigit_of_mem_decimal _ c hc)

theorem decimalInt_ne_nil (z : ℤ) : decimalInt z ≠ [] := by
  unfold decimalInt
  split_ifs
  · exact List.cons_ne_nil _ _
  · exact decimal_ne_nil _

theorem length_decimalInt_le (z : JInt) : (decimalInt z).length ≤ 11 := by
  have hlo := z.property.1
  have hhi := z.property.2
  have hlen := decimal_length_le z.val.natAbs 10 (by omega) (by omega)
  unfold decimalInt
  split_ifs
  · rw [List.length_cons]
    omega
  · omega

theorem length_size_le (body : JByteArray) : (decimal body.val.length).length ≤ 11 := by
  have hlt := body.property
  have hlen := decimal_length_le body.val.length 10 (by omega) (by omega)
  omega

def sizeField (body : JByteArray) : Field :=
  numberField headerKeySize (decimal body.val.length) (.inl rfl) (decimal_ne_nil _)
    (length_size_le body) (fun c hc => .inr (isDigit_of_mem_decimal _ c hc))

def statusField (status : JInt) : Field :=
  numberField headerKeyStatus (decimalInt status) (.inr rfl) (decimalInt_ne_nil _)
    (length_decimalInt_le status) (decimalInt_chars _)

theorem frame_eq (channel : Channel) (body : JByteArray) (rest : Bytes) :
    frame (channel, body) ++ rest =
      unlines lf ([channelField channel, sizeField body].map Field.line) ++
        lf :: (body.val ++ rest) := by
  have hchannel : ascii "Channel: " ++ channel.name = (channelField channel).line := rfl
  have hsize : ascii "Size: " ++ decimal body.val.length = (sizeField body).line := rfl
  simp only [frame, Server.formatAsResponseHeader_eq, hchannel, hsize, List.map_cons, List.map_nil,
    List.append_assoc, List.cons_append, List.nil_append]

theorem exit_eq (status : JInt) (message : Option Bytes) (rest : Bytes) :
    Server.formatAsExitHeader status message ++ rest =
      unlines lf ([statusField status].map Field.line) ++ lf :: (message.getD [] ++ rest) := by
  have hstatus : ascii "Status: " ++ decimalInt status = (statusField status).line := rfl
  simp only [Server.formatAsExitHeader_eq, hstatus, List.map_cons, List.map_nil,
    List.append_assoc, List.cons_append]

/-- However `recv` counts, the loop moves exactly the remaining bytes from the
socket to the channel. -/
theorem receiveLoop_eq (sys : System) (channel : Channel) (fuel remained : ℕ) (s : Session)
    (hfuel : remained ≤ fuel) (hsocket : remained ≤ s.socket.length) :
    ∃ k, receiveLoop sys channel fuel remained s =
      { s with socket := s.socket.drop remained, recvs := k }.emit channel
        (s.socket.take remained) := by
  induction fuel generalizing remained s with
  | zero =>
    obtain rfl : remained = 0 := by omega
    refine ⟨s.recvs, ?_⟩
    cases channel <;> simp [receiveLoop, Session.emit]
  | succ fuel ih =>
    by_cases hzero : remained = 0
    · subst hzero
      refine ⟨s.recvs, ?_⟩
      cases channel <;> simp [receiveLoop, Session.emit]
    · have hasked : 0 < min remained bufferSize := by unfold bufferSize; omega
      have hne : s.socket ≠ [] := List.ne_nil_of_length_pos (by omega)
      have hret := shortCount_pos (sys.recvOffer s.recvs) (min remained bufferSize)
        s.socket.length
      have hret' := shortCount_le (sys.recvOffer s.recvs) (min remained bufferSize)
        s.socket.length hasked (by omega)
      rw [receiveLoop, if_neg (by rw [not_or]; exact ⟨by omega, hne⟩)]
      generalize shortCount (sys.recvOffer s.recvs) (min remained bufferSize)
        s.socket.length = ret at hret hret' ⊢
      have htake : s.socket.take ret ++ (s.socket.drop ret).take (remained - ret) =
          s.socket.take remained := by
        rw [← List.take_add]
        congr 1
        omega
      have hdrop : (s.socket.drop ret).drop (remained - ret) = s.socket.drop remained := by
        rw [List.drop_drop]
        congr 1
        omega
      obtain ⟨k, hk⟩ := ih (remained - ret)
        ({ s with socket := s.socket.drop ret, recvs := s.recvs + 1 }.emit channel
          (s.socket.take ret)) (by omega)
        (by cases channel <;> simp only [Session.emit, List.length_drop] <;> omega)
      refine ⟨k, hk.trans ?_⟩
      cases channel <;> simp only [Session.emit, hdrop, List.append_assoc, htake]

theorem strcmpZero_channelName (channel : Channel) (mem : Bytes) :
    CLib.strcmpZero (channel.name ++ 0 :: mem) (ascii "out") = decide (channel = .out) ∧
      CLib.strcmpZero (channel.name ++ 0 :: mem) (ascii "err") = decide (channel = .err) := by
  cases channel <;>
    exact ⟨CLib.strcmpZero_append (by decide) (by decide) mem,
      CLib.strcmpZero_append (by decide) (by decide) mem⟩

theorem receiveFromServer_eq (sys : System) (channel : Channel) (mem : Bytes) (n : ℕ)
    (s : Session) (hsocket : n ≤ s.socket.length) :
    ∃ k, receiveFromServer sys (channel.name ++ 0 :: mem) n s =
      { s with socket := s.socket.drop n, recvs := k }.emit channel (s.socket.take n) := by
  obtain ⟨hout, herr⟩ := strcmpZero_channelName channel mem
  rw [receiveFromServer, hout, herr]
  cases channel
  · exact receiveLoop_eq sys .out n n s le_rfl hsocket
  · exact receiveLoop_eq sys .err n n s le_rfl hsocket

theorem receiveResponse_frame (sys : System) (channel : Channel) (body : JByteArray)
    (rest : Bytes) (s : Session) (hheaders : s.headers.length = maxHeader)
    (hsocket : s.socket = frame (channel, body) ++ rest) :
    ∃ headers' k, headers'.length = maxHeader ∧ receiveResponse sys s =
      { s with headers := headers', socket := rest, recvs := k }.emit channel body.val := by
  obtain ⟨headers', hread, hlen, hstored⟩ :=
    readHeaders_block [channelField channel, sizeField body] s.headers
      (by rw [hheaders]; exact Nat.le_of_ble_eq_true rfl) hheaders.le (body.val ++ rest)
  have hstatus := findHeader_stored (by decide : 0 ∉ headerKeyStatus) hstored
  have hchannel := findHeader_stored (by decide : 0 ∉ headerKeyChannel) hstored
  have hsize := findHeader_stored (by decide : 0 ∉ headerKeySize) hstored
  have hcs : headerKeyChannel ≠ headerKeyStatus := by decide
  have hss : headerKeySize ≠ headerKeyStatus := by decide
  have hcz : headerKeyChannel ≠ headerKeySize := by decide
  simp only [channelField, sizeField, numberField, List.find?_cons, hcs, hss, hcz, decide_false,
    decide_true, List.find?_nil, List.length_cons, List.length_nil, Nat.zero_add,
    Nat.reduceAdd, true_and, reduceCtorEq, false_and, exists_false, or_false,
    false_or, Option.some.injEq, exists_and_left] at hstatus hchannel hsize
  obtain ⟨f, rfl, cmem, hc⟩ := hchannel
  obtain ⟨g, rfl, zmem, hz⟩ := hsize
  have hatoi : CLib.atoi (decimal body.val.length ++ 0 :: zmem) = (body.val.length : ℤ) := by
    have hlt := body.property
    have h := CLib.atoi_decimalInt (body.val.length : ℤ) (by omega) (by omega)
      (c := 0) (by decide) zmem
    rwa [decimalInt, if_neg (by omega), Int.natAbs_natCast] at h
  obtain ⟨k, hk⟩ := receiveFromServer_eq sys channel cmem body.val.length
    { s with headers := headers', socket := body.val ++ rest } (by simp)
  refine ⟨headers', k, hlen.trans hheaders, ?_⟩
  rw [receiveResponse, hsocket, frame_eq, hread]
  simp only [List.length_cons, List.length_nil, Nat.zero_add, Nat.reduceAdd, OfNat.ofNat_ne_zero,
    if_false, hstatus, hc, hz, hatoi, hk, List.drop_left, List.take_left]

theorem receiveResponse_exit (sys : System) (status : JInt) (message : Option Bytes)
    (rest : Bytes) (s : Session) (hheaders : s.headers.length = maxHeader)
    (hsocket : s.socket = Server.formatAsExitHeader status message ++ rest) :
    ∃ headers' socket', receiveResponse sys s =
      { s with headers := headers', socket := socket' }.finish status := by
  obtain ⟨headers', hread, hlen, hstored⟩ := readHeaders_block [statusField status] s.headers
    (by rw [hheaders]; exact Nat.le_of_ble_eq_true rfl) hheaders.le (message.getD [] ++ rest)
  have hstatus := findHeader_stored (by decide : 0 ∉ headerKeyStatus) hstored
  simp only [statusField, numberField, List.find?_cons, decide_true, List.length_cons,
    List.length_nil, Nat.zero_add, reduceCtorEq, false_and, false_or, Option.some.injEq,
    exists_and_left] at hstatus
  obtain ⟨f, rfl, mem, hf⟩ := hstatus
  have hatoi := CLib.atoi_decimalInt status.val status.property.1 status.property.2 (c := 0)
    (by decide) mem
  refine ⟨headers', message.getD [] ++ rest, ?_⟩
  rw [receiveResponse, hsocket, exit_eq, hread]
  simp only [List.length_cons, List.length_nil, Nat.zero_add, one_ne_zero, if_false, hf, hatoi]

theorem sendToServer_sameResponses (sys : System) (hsys : sys.Live) (s : Session) :
    SameResponses s (sendToServer sys s) := by
  obtain ⟨offer, hoffer⟩ := hsys.stdin_readable s.reads
  rw [sendToServer, hoffer]
  exact ⟨rfl, rfl, rfl, rfl, rfl⟩

def stdinMeasure (s : Session) : ℕ := if s.stdinClosed then 0 else s.stdin.length + 1

theorem stdinMeasure_sendToServer_lt (sys : System) (hsys : sys.Live) (s : Session)
    (hs : s.stdinClosed = false) : stdinMeasure (sendToServer sys s) < stdinMeasure s := by
  obtain ⟨offer, hoffer⟩ := hsys.stdin_readable s.reads
  rw [sendToServer, hoffer]
  by_cases hnil : s.stdin = []
  · simp [stdinMeasure, hs, hnil]
  · have hpos := shortCount_pos offer bufferSize s.stdin.length
    have hlen := List.length_pos_of_ne_nil hnil
    simp only [stdinMeasure, hs, hnil, if_false, List.length_drop, Nat.pos_iff_ne_zero.mp hpos,
      decide_false, Bool.false_eq_true]
    omega

theorem sessionStep_stdin (sys : System) (s : Session) (hended : s.ended = none)
    (hclosed : s.stdinClosed = false) {socket : Bool}
    (hselect : sys.select s.selects = .ready true socket) :
    sessionStep sys s = sendToServer sys { s with selects := s.selects + 1 } := by
  simp [sessionStep, hended, hselect, hclosed]

theorem sessionStep_idle (sys : System) (s : Session) (hended : s.ended = none) {stdin : Bool}
    (hselect : sys.select s.selects = .ready stdin false)
    (hstdin : ¬ (s.stdinClosed = false ∧ stdin = true)) :
    sessionStep sys s = { s with selects := s.selects + 1 } := by
  simp [sessionStep, hended, hselect, hstdin]

theorem sessionStep_socket (sys : System) (s : Session) (hended : s.ended = none) {stdin : Bool}
    (hselect : sys.select s.selects = .ready stdin true)
    (hstdin : ¬ (s.stdinClosed = false ∧ stdin = true)) :
    sessionStep sys s = receiveResponse sys { s with selects := s.selects + 1 } := by
  simp [sessionStep, hended, hselect, hstdin]

theorem runSession_succ (sys : System) (n : ℕ) (s : Session) :
    runSession sys (n + 1) s = runSession sys n (sessionStep sys s) :=
  Function.iterate_succ_apply _ n s

/-- The loop gets to the socket after finitely many iterations that only serve
standard input. The first measure falls with each of those, the second with each
iteration that finds nothing to do. -/
theorem exists_receiveResponse (sys : System) (hsys : sys.Live) (d : ℕ) (s : Session)
    (hended : s.ended = none) (hd : ∃ stdin, sys.select (s.selects + d) = .ready stdin true) :
    ∃ n s', SameResponses s s' ∧ runSession sys (n + 1) s = receiveResponse sys s' := by
  obtain ⟨stdin, socket, hselect⟩ := hsys.select_ready s.selects
  by_cases hstdin : s.stdinClosed = false ∧ stdin = true
  · obtain ⟨hclosed, rfl⟩ := hstdin
    have hsame : SameResponses s (sendToServer sys { s with selects := s.selects + 1 }) :=
      (SameResponses.selects s _).trans (sendToServer_sameResponses sys hsys _)
    have hlt := stdinMeasure_sendToServer_lt sys hsys { s with selects := s.selects + 1 } hclosed
    obtain ⟨d', hd'⟩ := hsys.socket_ready
      (sendToServer sys { s with selects := s.selects + 1 }).selects
    obtain ⟨n, s', hs', hrun⟩ := exists_receiveResponse sys hsys d'
      (sendToServer sys { s with selects := s.selects + 1 }) (hsame.ended.trans hended) hd'
    exact ⟨n + 1, s', hsame.trans hs', by
      rw [runSession_succ, sessionStep_stdin sys s hended hclosed hselect, hrun]⟩
  · cases socket with
    | true =>
      exact ⟨0, { s with selects := s.selects + 1 }, SameResponses.selects s _, by
        rw [runSession_succ, sessionStep_socket sys s hended hselect hstdin]; rfl⟩
    | false =>
      have hpos : 0 < d := by
        rw [Nat.pos_iff_ne_zero]
        rintro rfl
        obtain ⟨stdin', hready⟩ := hd
        rw [Nat.add_zero, hselect] at hready
        cases hready
      have hindex : s.selects + 1 + (d - 1) = s.selects + d := by omega
      obtain ⟨n, s', hs', hrun⟩ := exists_receiveResponse sys hsys (d - 1)
        { s with selects := s.selects + 1 } hended (by rwa [hindex])
      exact ⟨n + 1, s', (SameResponses.selects s _).trans hs', by
        rw [runSession_succ, sessionStep_idle sys s hended hselect hstdin, hrun]⟩
termination_by (stdinMeasure s, d)
decreasing_by
  · exact Prod.Lex.left _ _ hlt
  · exact Prod.Lex.right _ (Nat.sub_lt hpos one_pos)

theorem exists_receiveResponse' (sys : System) (hsys : sys.Live) (s : Session)
    (hended : s.ended = none) :
    ∃ n s', SameResponses s s' ∧ runSession sys n s = receiveResponse sys s' := by
  obtain ⟨d, hd⟩ := hsys.socket_ready s.selects
  obtain ⟨n, s', hs', hrun⟩ := exists_receiveResponse sys hsys d s hended hd
  exact ⟨n + 1, s', hs', hrun⟩

@[simp] theorem emit_out (s : Session) (channel : Channel) (data : Bytes) :
    (s.emit channel data).out = s.out ++ if channel = .out then data else [] := by
  cases channel <;> simp [Session.emit]

@[simp] theorem emit_err (s : Session) (channel : Channel) (data : Bytes) :
    (s.emit channel data).err = s.err ++ if channel = .err then data else [] := by
  cases channel <;> simp [Session.emit]

@[simp] theorem emit_socket (s : Session) (channel : Channel) (data : Bytes) :
    (s.emit channel data).socket = s.socket := by
  cases channel <;> rfl

@[simp] theorem emit_headers (s : Session) (channel : Channel) (data : Bytes) :
    (s.emit channel data).headers = s.headers := by
  cases channel <;> rfl

@[simp] theorem emit_ended (s : Session) (channel : Channel) (data : Bytes) :
    (s.emit channel data).ended = s.ended := by
  cases channel <;> rfl

structure Receives (s t : Session) (chunks : List (Channel × JByteArray)) (rest : Bytes) :
    Prop where
  ended : t.ended = none
  headers : t.headers.length = maxHeader
  socket : t.socket = rest
  out : t.out = s.out ++ channelBytes .out chunks
  err : t.err = s.err ++ channelBytes .err chunks

theorem session_receives (sys : System) (hsys : sys.Live) (chunks : List (Channel × JByteArray))
    (rest : Bytes) (s : Session) (hended : s.ended = none) (hheaders : s.headers.length = maxHeader)
    (hsocket : s.socket = chunks.flatMap frame ++ rest) :
    ∃ n, Receives s (runSession sys n s) chunks rest := by
  induction chunks generalizing s with
  | nil =>
    exact ⟨0, hended, hheaders, hsocket, (List.append_nil _).symm, (List.append_nil _).symm⟩
  | cons c chunks ih =>
    obtain ⟨channel, body⟩ := c
    obtain ⟨n, s', hs', hrun⟩ := exists_receiveResponse' sys hsys s hended
    rw [List.flatMap_cons, List.append_assoc] at hsocket
    obtain ⟨headers', k, hheaders', hframe⟩ := receiveResponse_frame sys channel body _ s'
      (by rw [hs'.headers, hheaders]) (hs'.socket.trans hsocket)
    obtain ⟨m, hm⟩ := ih (receiveResponse sys s')
      (by rw [hframe, emit_ended]; exact hs'.ended.trans hended)
      (by rw [hframe, emit_headers]; exact hheaders') (by rw [hframe, emit_socket])
    refine ⟨m + n, ?_⟩
    rw [runSession_add, hrun]
    refine ⟨hm.ended, hm.headers, hm.socket, ?_, ?_⟩
    · rw [hm.out, hframe, emit_out, channelBytes_cons, ← hs'.out]
      exact List.append_assoc _ _ _
    · rw [hm.err, hframe, emit_err, channelBytes_cons, ← hs'.err]
      exact List.append_assoc _ _ _

structure Returns (s t : Session) (status : ℤ) (chunks : List (Channel × JByteArray)) : Prop where
  ended : t.ended = some (.returned status)
  out : t.out = s.out ++ channelBytes .out chunks
  err : t.err = s.err ++ channelBytes .err chunks

/-- Chunks and an exit header on the socket, followed by anything, take the
session to its end. -/
theorem session_decodes (sys : System) (hsys : sys.Live) (chunks : List (Channel × JByteArray))
    (status : JInt) (message : Option Bytes) (rest : Bytes) (s : Session)
    (hended : s.ended = none) (hheaders : s.headers.length = maxHeader)
    (hsocket : s.socket =
      chunks.flatMap frame ++ (Server.formatAsExitHeader status message ++ rest)) :
    ∃ n, Returns s (runSession sys n s) status chunks := by
  obtain ⟨k, hk⟩ := session_receives sys hsys chunks _ s hended hheaders hsocket
  obtain ⟨n, s', hs', hrun⟩ := exists_receiveResponse' sys hsys _ hk.ended
  obtain ⟨headers', socket', hexit⟩ := receiveResponse_exit sys status message rest s'
    (by rw [hs'.headers, hk.headers]) (hs'.socket.trans hk.socket)
  refine ⟨n + k, ?_⟩
  rw [runSession_add, hrun, hexit]
  exact ⟨rfl, hs'.out.trans hk.out, hs'.err.trans hk.err⟩

end Client

/-- What the server writes for chunks in header mode and an exit status. -/
def response (chunks : List (Channel × JByteArray)) (status : JInt) (message : Option Bytes) :
    Option Bytes := do
  let writes ← chunks.mapM fun c =>
    Server.StreamResponseOutputStream.write { streamId := c.1 } c.2 0 c.2.val.length
  some (writes.flatten.flatten ++ (Server.sendExit false status message).flatten)

theorem write_whole (c : Channel × JByteArray) :
    Server.StreamResponseOutputStream.write { streamId := c.1 } c.2 0 c.2.val.length =
      some [Server.formatAsResponseHeader c.1 c.2.val.length, c.2.val] := by
  simp [Server.StreamResponseOutputStream.write]

theorem flatten_writes (chunks : List (Channel × JByteArray)) :
    (chunks.map fun c =>
      [Server.formatAsResponseHeader c.1 c.2.val.length, c.2.val]).flatten.flatten =
      chunks.flatMap frame := by
  induction chunks with
  | nil => rfl
  | cons c chunks ih => simp [frame, ih]

theorem response_eq (chunks : List (Channel × JByteArray)) (status : JInt)
    (message : Option Bytes) :
    response chunks status message =
      some (chunks.flatMap frame ++ Server.formatAsExitHeader status message) := by
  have hwrites : (chunks.mapM fun c =>
      Server.StreamResponseOutputStream.write { streamId := c.1 } c.2 0 c.2.val.length) =
      some (chunks.map fun c =>
        [Server.formatAsResponseHeader c.1 c.2.val.length, c.2.val]) := by
    induction chunks with
    | nil => rfl
    | cons c chunks ih => simp [write_whole c, ih]
  simp [response, hwrites, flatten_writes, Server.sendExit]

/-- The client writes every chunk to its channel, in order, and returns the
status, however `recv` counts and whatever else the session has to serve. -/
theorem session_returns_response (sys : System) (hsys : sys.Live) (headers : List Header)
    (hheaders : headers.length = maxHeader) (stdin : Bytes)
    (chunks : List (Channel × JByteArray)) (status : JInt) (message : Option Bytes) :
    ∃ bytes, response chunks status message = some bytes ∧ ∃ m, ∀ n ≥ m,
      (runSession sys n (startSession headers bytes stdin)).ended = some (.returned status) ∧
      (runSession sys n (startSession headers bytes stdin)).out = channelBytes .out chunks ∧
      (runSession sys n (startSession headers bytes stdin)).err = channelBytes .err chunks := by
  refine ⟨_, response_eq chunks status message, ?_⟩
  obtain ⟨m, hm⟩ := session_decodes sys hsys chunks status message []
    (startSession headers (chunks.flatMap frame ++ Server.formatAsExitHeader status message) stdin)
    rfl hheaders (by rw [startSession, List.append_nil])
  refine ⟨m, fun n hn => ?_⟩
  rw [runSession_of_le sys hn (by rw [hm.ended]; rfl)]
  exact ⟨hm.ended, hm.out, hm.err⟩

def byteSystem : System where
  recvOffer _ := 1
  stdinOffer _ := some 1
  select _ := .ready true true

theorem byteSystem_live : byteSystem.Live where
  select_ready _ := ⟨true, true, rfl⟩
  stdin_readable _ := ⟨1, rfl⟩
  socket_ready _ := ⟨0, true, rfl⟩

def blankHeader : Header where
  key := List.replicate (maxHeaderKeyLen + 1) 0
  value := List.replicate (maxHeaderValueLen + 1) 0
  key_length := List.length_replicate
  value_length := List.length_replicate

theorem session_returns_response_headerLike :
    ∃ bytes, response [(.out, ⟨ascii "Status: 1\n\n", by decide⟩), (.err, ⟨[], by decide⟩)]
        ⟨-7, by decide⟩ (some (ascii "bye")) = some bytes ∧ ∃ m, ∀ n ≥ m,
      (runSession byteSystem n (startSession (List.replicate maxHeader blankHeader) bytes
        (ascii "in"))).ended = some (.returned (-7)) ∧
      (runSession byteSystem n (startSession (List.replicate maxHeader blankHeader) bytes
        (ascii "in"))).out = ascii "Status: 1\n\n" ∧
      (runSession byteSystem n (startSession (List.replicate maxHeader blankHeader) bytes
        (ascii "in"))).err = [] :=
  session_returns_response byteSystem byteSystem_live (List.replicate maxHeader blankHeader)
    List.length_replicate (ascii "in")
    [(.out, ⟨ascii "Status: 1\n\n", by decide⟩), (.err, ⟨[], by decide⟩)] ⟨-7, by decide⟩
    (some (ascii "bye"))

end GroovyServ

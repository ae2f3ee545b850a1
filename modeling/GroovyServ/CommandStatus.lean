import GroovyServ.GroovyClient
import GroovyServ.StepSystem

/-!
# The status that answers a command

The exit status of a `GroovyClient` is the one it has read last, whatever command or
connection it came from: nothing but `clearBuffer` forgets it. While every command is
sent without a status, neither kept nor still to be read, every status that arrives after
it answers it, and every poll ends between two responses, a status that is waited for
answers the last command. Which command a response answers is the server's choice:
`answered n i` is the command of connection `n`, counted from 0, that its response `i`
answers, if any.
-/

namespace GroovyServ

open Lines Server

namespace GroovyClient

theorem plain_decimal (n : ℕ) : lf ∉ decimal n ∧ Trimmed (decimal n) :=
  ⟨fun h => absurd (isDigit_of_mem_decimal n lf h) (by decide),
    (trim_eq_self_iff _).mp (trim_decimal n)⟩

theorem plain_decimalInt (z : ℤ) : lf ∉ decimalInt z ∧ Trimmed (decimalInt z) := by
  unfold decimalInt
  split_ifs
  · obtain ⟨hlf, -, hlast⟩ := plain_decimal z.natAbs
    obtain ⟨d, ds, hds⟩ := List.exists_cons_of_ne_nil (decimal_ne_nil z.natAbs)
    refine ⟨?_, fun c hc => ?_, fun c hc => hlast c ?_⟩
    · rw [List.mem_cons, not_or]
      exact ⟨by decide, hlf⟩
    · obtain rfl : 45 = c := by simpa using hc
      decide
    · rw [hds] at hc ⊢
      exact hc
  · exact plain_decimal _

theorem plain_name (channel : Channel) : lf ∉ channel.name ∧ Trimmed channel.name := by
  rw [← trim_eq_self_iff]
  cases channel <;> decide

theorem parseInteger_decimalInt (z : JInt) : parseInteger (decimalInt z) = some z.val := by
  obtain ⟨z, hlo, hhi⟩ := z
  dsimp only
  unfold decimalInt
  split_ifs with hneg
  · have hall : (decimal z.natAbs).all isDigit = true :=
      List.all_eq_true.mpr (isDigit_of_mem_decimal _)
    have habs : -((z.natAbs : ℕ) : ℤ) = z := by omega
    have hsign : parseInteger (45 :: decimal z.natAbs) =
        if decimal z.natAbs ≠ [] ∧ (decimal z.natAbs).all isDigit ∧
            -2 ^ 31 ≤ -(digitsValue (decimal z.natAbs) : ℤ) ∧
            -(digitsValue (decimal z.natAbs) : ℤ) < 2 ^ 31
        then some (-(digitsValue (decimal z.natAbs) : ℤ)) else none := rfl
    rw [hsign, digitsValue_decimal, habs, if_pos ⟨decimal_ne_nil _, hall, hlo, hhi⟩]
  · have habs : ((z.natAbs : ℕ) : ℤ) = z := by omega
    rw [parseInteger_decimal (by omega), habs]

theorem parseHeaders_written {fields : List (Bytes × Bytes)}
    (hkeys : ∀ f ∈ fields, f.1 ∈ [headerKeyChannel, headerKeySize, headerKeyStatus])
    (hvalues : ∀ f ∈ fields, lf ∉ f.2 ∧ Trimmed f.2) (rest : Bytes) :
    parseHeaders .eof (headersText fields ++ lf :: rest) =
      .ok (fields.foldl HeaderMap.add [], rest) := by
  have hplain : ∀ key ∈ [headerKeyChannel, headerKeySize, headerKeyStatus],
      key ≠ [] ∧ lf ∉ key ∧ (58 : UInt8) ∉ key := by decide
  rw [parseHeaders_fields .eof
      (fun f hf => ⟨(hplain f.1 (hkeys f hf)).1, (hplain f.1 (hkeys f hf)).2.1⟩)
      (fun f hf => (hvalues f hf).1) rest,
    headersOf_fields fun f hf => ⟨(hplain f.1 (hkeys f hf)).2.2, (hvalues f hf).2⟩]

theorem parseHeaders_responseHeader (channel : Channel) (n : ℕ) (rest : Bytes) :
    parseHeaders .eof (formatAsResponseHeader channel n ++ rest) =
      .ok ([(headerKeyChannel, [channel.name]), (headerKeySize, [decimal n])], rest) := by
  have htext : formatAsResponseHeader channel n ++ rest =
      headersText [(headerKeyChannel, channel.name), (headerKeySize, decimal n)] ++ lf :: rest := by
    have hkeys : headerKeyChannel ≠ [] ∧ headerKeySize ≠ [] := by decide
    rw [formatAsResponseHeader, formatAsHeader_eq (by simp [hkeys]), List.append_assoc]
    rfl
  rw [htext, parseHeaders_written (by simp) (by simp [plain_name, plain_decimal])]
  rfl

theorem parseHeaders_exitHeader (status : ℤ) (message : Option Bytes) (rest : Bytes) :
    parseHeaders .eof (formatAsExitHeader status message ++ rest) =
      .ok ([(headerKeyStatus, [decimalInt status])], message.getD [] ++ rest) := by
  have htext : formatAsExitHeader status message ++ rest =
      headersText [(headerKeyStatus, decimalInt status)] ++ lf :: (message.getD [] ++ rest) := by
    have hkey : headerKeyStatus ≠ [] := by decide
    rw [formatAsExitHeader, formatAsHeader_eq (by simp [hkey]), List.append_assoc,
      List.cons_append]
    rfl
  rw [htext, parseHeaders_written (by simp) (by simp [plain_decimalInt])]
  rfl

theorem readResponses_stream (fuel : ℕ) (channel : Channel) (data : JByteArray) (rest : Bytes)
    (c : GroovyClient) :
    readResponses (fuel + 1) ((Response.stream channel data).text ++ rest) c =
      if data.val ++ rest = [] then (c, .threw)
      else readResponses fuel rest (c.addBytes channel data) := by
  have hchannel : channelOf [(headerKeyChannel, [channel.name]),
      (headerKeySize, [decimal data.val.length])] = some channel := by
    cases channel <;> rfl
  have hsize : intHeader [(headerKeyChannel, [channel.name]),
      (headerKeySize, [decimal data.val.length])] headerKeySize = some (data.val.length : ℤ) := by
    have hfirst : HeaderMap.first [(headerKeyChannel, [channel.name]),
        (headerKeySize, [decimal data.val.length])] headerKeySize =
        some (decimal data.val.length) := rfl
    rw [intHeader, hfirst, Option.bind_some, trim_decimal, parseInteger_decimal data.property]
  rw [readResponses, Response.text, List.append_assoc, parseHeaders_responseHeader]
  dsimp only
  rw [if_neg (List.cons_ne_nil _ _), hchannel, hsize, Option.bind_some]
  dsimp only
  rw [readBody]
  by_cases hnil : data.val ++ rest = []
  · rw [if_pos (.inr (.inl hnil)), if_pos hnil]
  · have hlen : ¬ ((data.val.length : ℤ) < 0 ∨ data.val ++ rest = [] ∨
        ((data.val ++ rest).length : ℤ) < data.val.length) := by
      rw [List.length_append]
      simp only [hnil, false_or, not_or]
      omega
    rw [if_neg hlen, if_neg hnil]
    dsimp only
    rw [Int.toNat_natCast, List.take_left, List.drop_left]

theorem readResponses_status {text rest : Bytes} {status : JInt}
    (hparse : parseHeaders .eof text = .ok ([(headerKeyStatus, [decimalInt status])], rest))
    (fuel : ℕ) (c : GroovyClient) :
    readResponses (fuel + 1) text c =
      readResponses fuel rest { c with exitStatus := some status.val } := by
  have hfirst : HeaderMap.first [(headerKeyStatus, [decimalInt status])] headerKeyStatus =
      some (decimalInt status) := rfl
  have hchannel : channelOf [(headerKeyStatus, [decimalInt status])] = none := rfl
  have htrim := (trim_eq_self_iff _).mpr (plain_decimalInt status).2
  rw [readResponses, hparse]
  dsimp only
  rw [if_neg (List.cons_ne_nil _ _), hchannel]
  dsimp only
  rw [hfirst, if_neg (Option.some_ne_none _), intHeader, hfirst, Option.bind_some, htrim,
    parseInteger_decimalInt]

theorem readResponses_exit (fuel : ℕ) (status : JInt) (message : Option Bytes) (rest : Bytes)
    (c : GroovyClient) :
    readResponses (fuel + 1) ((Response.exit status message).text ++ rest) c =
      readResponses fuel (message.getD [] ++ rest) { c with exitStatus := some status.val } :=
  readResponses_status (parseHeaders_exitHeader status.val message rest) fuel c

/-- No line of the message looks like a header that the client acts on. -/
def Quiet (message : Bytes) : Prop :=
  ∀ line ∈ message.splitOn lf,
    (splitHeader line).1 ≠ headerKeyChannel ∧ (splitHeader line).1 ≠ headerKeyStatus

theorem readLinesLoop_lines {ending : Ending} {fuel : ℕ} {bytes rest : Bytes} {lines : List Bytes}
    (h : readLinesLoop ending fuel bytes = .ok (lines, rest)) :
    (∀ line ∈ lines, line ∈ bytes.splitOn lf) ∧
      ∀ line ∈ rest.splitOn lf, line = [] ∨ line ∈ bytes.splitOn lf := by
  induction fuel generalizing bytes lines with
  | zero => cases h
  | succ fuel ih =>
    obtain ⟨⟨line, rest'⟩, hline, h⟩ := bind_eq_ok.mp h
    obtain ⟨hmem, hbytes⟩ := readLine_ok hline
    have hsplit : line ∈ bytes.splitOn lf ∧
        ∀ l ∈ rest'.splitOn lf, l = [] ∨ l ∈ bytes.splitOn lf := by
      rcases hbytes with rfl | ⟨rfl, rfl⟩
      · rw [List.splitOn_append_cons_self_of_not_mem hmem rest']
        exact ⟨List.mem_cons_self, fun l hl => .inr (List.mem_cons_of_mem _ hl)⟩
      · rw [List.splitOn_eq_singleton hmem]
        exact ⟨List.mem_cons_self, fun l hl => .inl (List.mem_singleton.mp hl)⟩
    dsimp only at h
    split_ifs at h with hnil
    · cases h
      exact ⟨fun l hl => absurd hl List.not_mem_nil, hsplit.2⟩
    · obtain ⟨⟨lines', rest''⟩, hlines, h⟩ := bind_eq_ok.mp h
      cases h
      obtain ⟨hread, hleft⟩ := ih hlines
      refine ⟨fun l hl => ?_, fun l hl => ?_⟩
      · rcases List.mem_cons.mp hl with rfl | hl
        · exact hsplit.1
        · refine (hsplit.2 l (hread l hl)).resolve_left ?_
          rintro rfl
          rw [readLinesLoop_ok hlines] at hl
          simpa using List.mem_takeWhile_imp hl
      · exact (hleft l hl).elim .inl (hsplit.2 l)

theorem readResponses_quiet {message : Bytes} (hquiet : Quiet message) (fuel : ℕ)
    (c : GroovyClient) : (readResponses fuel message c).1 = c := by
  induction fuel generalizing message with
  | zero => rfl
  | succ fuel ih =>
    rw [readResponses]
    cases hparse : parseHeaders .eof message with
    | error stop => rfl
    | ok r =>
      obtain ⟨headers, rest⟩ := r
      dsimp only
      obtain ⟨lines, hlines, rfl⟩ := parseHeaders_lines hparse
      obtain ⟨hread, hleft⟩ := readLinesLoop_lines hlines
      have hnone : ∀ key, (∀ line ∈ lines, (splitHeader line).1 ≠ key) →
          (headersOf lines).first key = none := by
        intro key hkey
        rw [first_headersOf, List.head?_eq_none_iff]
        simpa [valuesOf, List.filter_eq_nil_iff] using hkey
      have hchannel := hnone headerKeyChannel fun l hl => (hquiet l (hread l hl)).1
      have hstatus := hnone headerKeyStatus fun l hl => (hquiet l (hread l hl)).2
      have hrest : Quiet rest := by
        intro l hl
        rcases hleft l hl with rfl | hl
        · decide
        · exact hquiet l hl
      have hno : channelOf (headersOf lines) = none := by
        rw [channelOf, hchannel]
        rfl
      by_cases hnil : headersOf lines = []
      · rw [if_pos hnil]
      · rw [if_neg hnil, hno]
        dsimp only
        rw [if_pos hstatus]
        exact ih hrest

/-- A message may only follow the last of the responses, and is quiet. -/
def Framed : List Response → Prop
  | [] => True
  | .stream _ _ :: responses => Framed responses
  | .exit _ message :: responses =>
    (message.getD [] = [] ∨ (responses = [] ∧ Quiet (message.getD []))) ∧ Framed responses

/-- What was sent on the last connection, and how many there were, is the same. -/
structure SameRecord (c c' : GroovyClient) : Prop where
  connections : c'.connections = c.connections
  commands : c'.commands = c.commands
  sent : c'.sent = c.sent

/-- The responses are read into the client: a new status is one of theirs, and what the
client knows of its connection is as before. -/
structure Reads (responses : List Response) (c c' : GroovyClient) : Prop where
  connection : c'.connection = c.connection
  record : SameRecord c c'
  waited : c'.waited = c.waited
  exitStatus : c'.exitStatus = c.exitStatus ∨
    ∃ status message, .exit status message ∈ responses ∧ c'.exitStatus = some status.val

theorem SameRecord.refl (c : GroovyClient) : SameRecord c c := ⟨rfl, rfl, rfl⟩

theorem Reads.refl (responses : List Response) (c : GroovyClient) : Reads responses c c :=
  ⟨rfl, .refl c, rfl, .inl rfl⟩

theorem Reads.cons {responses : List Response} {c c' : GroovyClient} (h : Reads responses c c')
    (r : Response) : Reads (r :: responses) c c' :=
  ⟨h.connection, h.record, h.waited, h.exitStatus.imp_right fun ⟨status, message, hmem, hs⟩ =>
    ⟨status, message, List.mem_cons_of_mem _ hmem, hs⟩⟩

theorem Reads.of_addBytes {responses : List Response} {c c' : GroovyClient} {channel : Channel}
    {body : Bytes} (h : Reads responses (c.addBytes channel body) c') : Reads responses c c' := by
  obtain ⟨hconnection, ⟨hconnections, hcommands, hsent⟩, hwaited, hstatus⟩ := h
  cases channel <;> exact ⟨hconnection, ⟨hconnections, hcommands, hsent⟩, hwaited, hstatus⟩

theorem readResponses_framed {responses : List Response} (hframed : Framed responses) (fuel : ℕ)
    (c : GroovyClient) : Reads responses c (readResponses fuel (responsesText responses) c).1 := by
  induction responses generalizing fuel c with
  | nil =>
    have hquiet : Quiet [] := by
      intro line hline
      obtain rfl := List.mem_singleton.mp hline
      decide
    rw [responsesText, List.flatMap_nil, readResponses_quiet hquiet]
    exact .refl _ _
  | cons r responses ih =>
    cases fuel with
    | zero => exact .refl _ _
    | succ fuel =>
      rw [responsesText, List.flatMap_cons, ← responsesText]
      cases r with
      | stream channel data =>
        rw [readResponses_stream]
        split_ifs
        · exact .refl _ _
        · exact (ih hframed fuel (c.addBytes channel data)).of_addBytes.cons _
      | exit status message =>
        obtain ⟨hmessage, hframed⟩ := hframed
        rw [readResponses_exit]
        have hown : Response.exit status message ∈ Response.exit status message :: responses :=
          List.mem_cons_self
        rcases hmessage with hnil | ⟨rfl, hquiet⟩
        · rw [hnil, List.nil_append]
          have hread := ih hframed fuel { c with exitStatus := some status.val }
          obtain ⟨hconnections, hcommands, hsent⟩ := hread.record
          refine ⟨hread.connection, ⟨hconnections, hcommands, hsent⟩, hread.waited, .inr ?_⟩
          rcases hread.exitStatus with hsame | ⟨status', message', hmem, hs⟩
          · exact ⟨status, message, hown, hsame⟩
          · exact ⟨status', message', List.mem_cons_of_mem _ hmem, hs⟩
        · rw [responsesText, List.flatMap_nil, List.append_nil, readResponses_quiet hquiet]
          exact ⟨rfl, ⟨rfl, rfl, rfl⟩, rfl, .inr ⟨status, message, hown, rfl⟩⟩

def pending (c : GroovyClient) : List Response := (c.connection.map Connection.pending).getD []

section Answers

variable (answered : ℕ → ℕ → Option ℕ)

/-- The server has sent the response on the last connection in answer to the last command. -/
def Answers (c : GroovyClient) (r : Response) : Prop :=
  ∃ i : ℕ, c.sent[i]? = some r ∧ answered c.connections i = some (c.commands.length - 1)

/-- If a command was sent on the connection, the statuses among the responses that come next
answer the last one. -/
def NextAnswer (c : GroovyClient) (responses : List Response) : Prop :=
  c.commands ≠ [] → ∀ (i : ℕ) status message, responses[i]? = some (.exit status message) →
    answered c.connections (c.sent.length + i) = some (c.commands.length - 1)

/-- The responses are read whole, and any status that the client has read since the last
command, or can still read, answers it. -/
structure Tracked (c : GroovyClient) : Prop where
  skew : ∀ conn, c.connection = some conn → conn.skew = 0
  pending : c.commands ≠ [] → ∀ status message,
    .exit status message ∈ c.pending → Answers answered c (.exit status message)
  exitStatus : c.commands ≠ [] → ∀ z, c.exitStatus = some z →
    ∃ status message, Answers answered c (.exit status message) ∧ status.val = z

variable {answered}

theorem SameRecord.nextAnswer {c c' : GroovyClient} (h : SameRecord c c')
    {responses : List Response} :
    NextAnswer answered c' responses ↔ NextAnswer answered c responses := by
  rw [NextAnswer, NextAnswer, h.connections, h.commands, h.sent]

theorem SameRecord.answers {c c' : GroovyClient} (h : SameRecord c c') {r : Response} :
    Answers answered c' r ↔ Answers answered c r := by
  rw [Answers, Answers, h.connections, h.commands, h.sent]

theorem NextAnswer.append {c : GroovyClient} {responses more : List Response}
    (h : NextAnswer answered c (responses ++ more)) :
    NextAnswer answered c responses ∧
      ∀ c' : GroovyClient, c'.connections = c.connections → c'.commands = c.commands →
        c'.sent = c.sent ++ responses → NextAnswer answered c' more := by
  constructor
  · intro hcommands i status message hi
    refine h hcommands i status message ?_
    rw [List.getElem?_append_left (List.getElem?_eq_some_iff.mp hi).1, hi]
  · intro c' hconnections hcommands' hsent hcommands i status message hi
    rw [hcommands'] at hcommands
    have hnext := h hcommands (responses.length + i) status message (by
      rw [List.getElem?_append_right (Nat.le_add_right _ _), Nat.add_sub_cancel_left, hi])
    rwa [hconnections, hcommands', hsent, List.length_append, Nat.add_assoc]

theorem pending_of_connection {c : GroovyClient} {conn : Connection}
    (h : c.connection = some conn) : c.pending = conn.pending := by
  rw [GroovyClient.pending, h]
  rfl

theorem Tracked.receive {c : GroovyClient} (h : Tracked answered c) {responses : List Response}
    (hnext : NextAnswer answered c responses) : Tracked answered (c.receive responses) := by
  cases hconn : c.connection with
  | none =>
    rw [GroovyClient.receive, hconn]
    exact h
  | some conn =>
    rw [GroovyClient.receive, hconn]
    have hpending := pending_of_connection hconn
    have hold : ∀ r, Answers answered c r → Answers answered
        { c with
          connection := some { conn with pending := conn.pending ++ responses }
          sent := c.sent ++ responses } r := by
      rintro r ⟨i, hi, hanswered⟩
      refine ⟨i, ?_, hanswered⟩
      rw [List.getElem?_append_left (List.getElem?_eq_some_iff.mp hi).1, hi]
    refine ⟨fun conn' hconn' => ?_, fun hcommands status message hmem => ?_,
      fun hcommands z hz => ?_⟩
    · obtain rfl := Option.some.inj hconn'
      exact h.skew conn hconn
    · rcases List.mem_append.mp (hmem : _ ∈ conn.pending ++ responses) with hmem | hmem
      · exact hold _ (h.pending hcommands status message (hpending ▸ hmem))
      · obtain ⟨i, hi⟩ := List.mem_iff_getElem?.mp hmem
        refine ⟨c.sent.length + i, ?_, hnext hcommands i status message hi⟩
        rw [List.getElem?_append_right (Nat.le_add_right _ _), Nat.add_sub_cancel_left, hi]
    · obtain ⟨status, message, hanswers, hs⟩ := h.exitStatus hcommands z hz
      exact ⟨status, message, hold _ hanswers, hs⟩

theorem Tracked.disconnect {c : GroovyClient} (h : Tracked answered c) :
    Tracked answered c.disconnect where
  skew _ hconn := nomatch hconn
  pending _ _ _ hmem := absurd hmem List.not_mem_nil
  exitStatus := h.exitStatus

theorem Tracked.read {c c' : GroovyClient} {conn : Connection} {front back : List Response}
    (h : Tracked answered c) (hconn : c.connection = some conn)
    (hsplit : conn.pending = front ++ back)
    (hreads : Reads front { c with connection := some ⟨back, 0⟩ } c') : Tracked answered c' := by
  have hpending := (pending_of_connection hconn).trans hsplit
  have hback : c'.pending = back := pending_of_connection hreads.connection
  have hrecord : SameRecord c c' :=
    ⟨hreads.record.connections, hreads.record.commands, hreads.record.sent⟩
  refine ⟨fun conn' hconn' => ?_, fun hcommands status message hmem => ?_,
    fun hcommands z hz => ?_⟩
  · obtain rfl := Option.some.inj (hreads.connection.symm.trans hconn')
    rfl
  · refine hrecord.answers.mpr (h.pending (hrecord.commands ▸ hcommands) status message ?_)
    rw [hpending]
    exact List.mem_append_right _ (hback ▸ hmem)
  · rcases hreads.exitStatus with hsame | ⟨status, message, hmem, hs⟩
    · obtain ⟨status, message, hanswers, hval⟩ :=
        h.exitStatus (hrecord.commands ▸ hcommands) z (hsame ▸ hz)
      exact ⟨status, message, hrecord.answers.mpr hanswers, hval⟩
    · refine ⟨status, message, hrecord.answers.mpr (h.pending (hrecord.commands ▸ hcommands)
        status message ?_), Option.some.inj (hs.symm.trans hz)⟩
      rw [hpending]
      exact List.mem_append_left _ hmem

end Answers

section Polls

variable (recode : Bytes → Bytes) {answered : ℕ → ℕ → Option ℕ}

/-- The poll ends behind whole responses, and behind a message if there is one, and their
bytes are still the same when they have been a text. -/
def WholePoll (pending : List Response) (poll : Poll) : Prop :=
  poll.extra = 0 ∧ Framed (pending.take poll.count) ∧
    recode (responsesText (pending.take poll.count)) = responsesText (pending.take poll.count)

def WholePolls : List Response → List Poll → Prop
  | _, [] => True
  | pending, poll :: polls =>
    WholePoll recode (pending ++ poll.arrived) poll ∧
      WholePolls ((pending ++ poll.arrived).drop poll.count) polls

theorem readAvailableText_whole {responses : List Response} {poll : Poll}
    (hextra : poll.extra = 0) :
    readAvailableText ⟨responses, 0⟩ poll = responsesText (responses.take poll.count) := by
  have hsplit : responsesText responses = responsesText (responses.take poll.count) ++
      responsesText (responses.drop poll.count) := by
    rw [responsesText, responsesText, responsesText, ← List.flatMap_append, List.take_append_drop]
  rw [readAvailableText, Poll.upTo, hextra, Nat.add_zero]
  dsimp only
  rw [hsplit, List.take_left, List.drop_zero]

theorem handleText_framed {responses : List Response} (hframed : Framed responses)
    (c : GroovyClient) : ∃ c', Reads responses c c' ∧
      ((handleText (responsesText responses) c).1 = c' ∨
        (handleText (responsesText responses) c).1 = c'.disconnect) := by
  rw [handleText]
  split_ifs with hnil
  · exact ⟨c, .refl _ c, .inl rfl⟩
  · have hreads := readResponses_framed hframed ((responsesText responses).length + 1) c
    cases hread : readResponses ((responsesText responses).length + 1) (responsesText responses) c
      with
    | mk c' ended =>
      rw [hread] at hreads
      refine ⟨c', hreads, ?_⟩
      cases ended with
      | threw => exact .inl rfl
      | returned =>
        dsimp only
        split_ifs
        · exact .inr rfl
        · exact .inl rfl

theorem Tracked.readAllAsPossible {c c' : GroovyClient} {poll : Poll} {ended : Ended}
    {more : List Response} (h : Tracked answered c)
    (hnext : NextAnswer answered c (poll.arrived ++ more))
    (hwhole : ∀ conn, c.connection = some conn →
      WholePoll recode (conn.pending ++ poll.arrived) poll)
    (hread : c.readAllAsPossible recode poll = some (c', ended)) :
    Tracked answered c' ∧ c'.waited = c.waited ∧
      (ended = .returned → NextAnswer answered c' more) ∧
      ∀ conn', c'.connection = some conn' → ∃ conn, c.connection = some conn ∧
        conn'.pending = (conn.pending ++ poll.arrived).drop poll.count := by
  obtain ⟨harrived, hmore⟩ := hnext.append
  have hreceived := h.receive harrived
  rw [GroovyClient.readAllAsPossible] at hread
  cases hconn : c.connection with
  | none =>
    have hsame : c.receive poll.arrived = c := by rw [GroovyClient.receive, hconn]
    rw [hsame, hconn] at hread
    cases hread
    exact ⟨h, rfl, nofun, fun conn' hconn' => nomatch hconn.symm.trans hconn'⟩
  | some conn =>
    have hreceive : c.receive poll.arrived = { c with
        connection := some { conn with pending := conn.pending ++ poll.arrived }
        sent := c.sent ++ poll.arrived } := by
      rw [GroovyClient.receive, hconn]
    rw [hreceive] at hread hreceived
    obtain ⟨hextra, hframed, hrecode⟩ := hwhole conn hconn
    rw [h.skew conn hconn] at hread
    dsimp only at hread
    split_ifs at hread
    rw [hextra, readAvailableText_whole hextra, hrecode] at hread
    obtain ⟨c'', hreads, hend⟩ := handleText_framed hframed
      { c with
        connection := some ⟨(conn.pending ++ poll.arrived).drop poll.count, 0⟩
        sent := c.sent ++ poll.arrived }
    have htracked := hreceived.read rfl (List.take_append_drop poll.count _).symm hreads
    have hnext' : NextAnswer answered c'' more :=
      hmore c'' hreads.record.connections hreads.record.commands hreads.record.sent
    rw [Option.some.inj hread] at hend
    rcases hend with rfl | rfl
    · refine ⟨htracked, hreads.waited, fun _ => hnext', fun conn₁ hconn₁ => ⟨conn, rfl, ?_⟩⟩
      obtain rfl := Option.some.inj (hreads.connection.symm.trans hconn₁)
      rfl
    · exact ⟨htracked.disconnect, hreads.waited, fun _ => hnext', fun _ hnone => nomatch hnone⟩

theorem Tracked.waitLoop {arrived : GroovyClient → Bool} {polls : List Poll}
    {c c' : GroovyClient} {ended : Ended} {responses : List Response} (h : Tracked answered c)
    (hpending : ∀ conn, c.connection = some conn → conn.pending = responses)
    (hwhole : WholePolls recode responses polls)
    (hnext : NextAnswer answered c (polls.flatMap Poll.arrived))
    (hloop : GroovyClient.waitLoop recode arrived polls c = some (c', ended)) :
    Tracked answered c' ∧ c'.waited = c.waited ∧ (ended = .returned → arrived c' = true) := by
  induction polls generalizing c responses with
  | nil =>
    rw [GroovyClient.waitLoop] at hloop
    split_ifs at hloop with harrived
    cases hloop
    exact ⟨h, rfl, fun _ => harrived⟩
  | cons poll polls ih =>
    obtain ⟨hpoll, hpolls⟩ := hwhole
    rw [GroovyClient.waitLoop] at hloop
    cases harrived : arrived c with
    | true =>
      rw [harrived, if_pos rfl] at hloop
      cases hloop
    | false =>
      rw [harrived, if_neg Bool.false_ne_true] at hloop
      cases hread : c.readAllAsPossible recode poll with
      | none =>
        rw [hread] at hloop
        cases hloop
      | some r =>
        obtain ⟨c₁, ended₁⟩ := r
        rw [hread] at hloop
        obtain ⟨htracked, hwaited, hnext', hleft⟩ := h.readAllAsPossible recode hnext
          (fun conn hconn => by rwa [hpending conn hconn]) hread
        cases ended₁ with
        | threw =>
          dsimp only at hloop
          split_ifs at hloop
          cases hloop
          exact ⟨htracked, hwaited, nofun⟩
        | returned =>
          have hpending' : ∀ conn, c₁.connection = some conn →
              conn.pending = (responses ++ poll.arrived).drop poll.count := by
            intro conn' hconn'
            obtain ⟨conn, hconn, hdrop⟩ := hleft conn' hconn'
            rw [hdrop, hpending conn hconn]
          obtain ⟨htracked', hwaited', hend⟩ := ih htracked hpending' hpolls (hnext' rfl) hloop
          exact ⟨htracked', hwaited'.trans hwaited, hend⟩

/-- Neither the client nor what it can still read has a status. -/
def NoStatus (c : GroovyClient) : Prop :=
  c.exitStatus = none ∧ ∀ status message, .exit status message ∉ c.pending

def pinged (accepted written : Bool) (c : GroovyClient) : GroovyClient :=
  ((if c.isConnected then c else (c.connect accepted).1).ping written).1

/-- A command is sent while there is no status, what arrives answers the last command, and
polls end between two responses. -/
def FreshStep (answered : ℕ → ℕ → Option ℕ) (c : GroovyClient) : Step → Prop
  | .receive responses => NextAnswer answered c responses
  | .send _ _ => c.NoStatus
  | .waitForResponse polls =>
    WholePolls recode c.pending polls ∧ NextAnswer answered c (polls.flatMap Poll.arrived)
  | .waitForExit polls =>
    WholePolls recode c.pending polls ∧ NextAnswer answered c (polls.flatMap Poll.arrived)
  | .isServerAvailable accepted written polls =>
    c.NoStatus ∧ WholePolls recode c.pending polls ∧
      NextAnswer answered (c.pinged accepted written) (polls.flatMap Poll.arrived)
  | _ => True

/-- When `waitForExit` has returned after a command, the status is one that the server has
sent on the connection in answer to the last command. -/
def AnswersCommand (answered : ℕ → ℕ → Option ℕ) (c : GroovyClient) : Prop :=
  c.waited = true → c.commands ≠ [] →
    ∃ status message, Answers answered c (.exit status message) ∧ c.exitStatus = some status.val

theorem Tracked.of_noStatus {c : GroovyClient}
    (hskew : ∀ conn, c.connection = some conn → conn.skew = 0) (hfresh : c.NoStatus) :
    Tracked answered c :=
  ⟨hskew, fun _ status message hmem => absurd hmem (hfresh.2 status message),
    fun _ _ hz => nomatch hfresh.1.symm.trans hz⟩

theorem Tracked.send {c : GroovyClient} (h : Tracked answered c) (hfresh : c.NoStatus)
    (command : Command) (written : Bool) : Tracked answered (c.send command written).1 := by
  rw [GroovyClient.send]
  split_ifs
  · exact .of_noStatus h.skew hfresh
  · exact h
  · exact h

theorem Tracked.connect {c : GroovyClient} (h : Tracked answered c) (accepted : Bool) :
    Tracked answered (c.connect accepted).1 := by
  rw [GroovyClient.connect]
  split_ifs
  · exact h
  · refine ⟨fun conn hconn => ?_, fun hcommands => absurd rfl hcommands,
      fun hcommands => absurd rfl hcommands⟩
    obtain rfl := Option.some.inj hconn
    rfl
  · exact h

theorem waited_send (c : GroovyClient) (command : Command) (written : Bool) :
    (c.send command written).1.waited = c.waited := by
  rw [GroovyClient.send]
  split_ifs <;> rfl

theorem waited_connect (c : GroovyClient) (accepted : Bool) :
    (c.connect accepted).1.waited = c.waited := by
  rw [GroovyClient.connect]
  split_ifs <;> rfl

theorem Tracked.waitForExit {polls : List Poll} {c c' : GroovyClient} {ended : Ended}
    (h : Tracked answered c) (hwhole : WholePolls recode c.pending polls)
    (hnext : NextAnswer answered c (polls.flatMap Poll.arrived))
    (hwait : c.waitForExit recode polls = some (c', ended)) :
    Tracked answered c' ∧ (c'.waited = true → c'.exitStatus.isSome = true) := by
  obtain ⟨⟨c₁, ended₁⟩, hloop, heq⟩ := Option.map_eq_some_iff.mp hwait
  cases heq
  have hpending : ∀ conn, c.connection = some conn → conn.pending = c.pending :=
    fun conn hconn => (pending_of_connection hconn).symm
  obtain ⟨htracked, -, hend⟩ := h.waitLoop recode hpending hwhole hnext hloop
  exact ⟨⟨htracked.skew, htracked.pending, htracked.exitStatus⟩,
    fun hwaited => hend (of_decide_eq_true hwaited)⟩

theorem pending_connect {c : GroovyClient} (accepted : Bool) (hconn : ¬ c.isConnected = true) :
    (c.connect accepted).1.pending = c.pending := by
  have hnone : c.connection = none := by simpa [isConnected] using hconn
  rw [GroovyClient.connect, if_neg hconn]
  split_ifs
  · rw [GroovyClient.pending, GroovyClient.pending, hnone]
    rfl
  · rfl

theorem pending_send (c : GroovyClient) (command : Command) (written : Bool) :
    (c.send command written).1.pending = c.pending := by
  rw [GroovyClient.send]
  split_ifs <;> rfl

theorem exitStatus_connect (c : GroovyClient) (accepted : Bool) :
    (c.connect accepted).1.exitStatus = c.exitStatus := by
  rw [GroovyClient.connect]
  split_ifs <;> rfl

theorem sameRecord_pinged (accepted written : Bool) (c : GroovyClient) :
    SameRecord (c.pinged accepted written)
      ({ c with waited := false }.pinged accepted written) := by
  obtain ⟨connection, -⟩ := c
  cases connection <;> cases accepted <;> cases written <;> exact ⟨rfl, rfl, rfl⟩

/-- The client that `isServerAvailable` sends its ping with. -/
theorem Tracked.exists_connected {c : GroovyClient} (h : Tracked answered c)
    (accepted written : Bool) :
    ∃ c₁ ended, (if c.isConnected = true then (c, Ended.returned) else c.connect accepted) =
        (c₁, ended) ∧ Tracked answered c₁ ∧ c₁.waited = c.waited ∧ c₁.pending = c.pending ∧
      c₁.exitStatus = c.exitStatus ∧ c.pinged accepted written = (c₁.ping written).1 := by
  by_cases hconn : c.isConnected = true
  · refine ⟨c, .returned, if_pos hconn, h, rfl, rfl, rfl, ?_⟩
    rw [pinged, if_pos hconn]
  · refine ⟨_, _, if_neg hconn, h.connect accepted, waited_connect c accepted,
      pending_connect accepted hconn, exitStatus_connect c accepted, ?_⟩
    rw [pinged, if_neg hconn]
    rfl

theorem Tracked.isServerAvailable {c c' : GroovyClient} {accepted written : Bool}
    {polls : List Poll} (h : Tracked answered c) (hwaited : c.waited = false)
    (hfresh : c.NoStatus) (hwhole : WholePolls recode c.pending polls)
    (hnext : NextAnswer answered (c.pinged accepted written) (polls.flatMap Poll.arrived))
    (hdone : c.isServerAvailable recode accepted written polls = some c') :
    Tracked answered c' ∧ (c'.waited = true → c'.exitStatus.isSome = true) := by
  rw [GroovyClient.isServerAvailable] at hdone
  obtain ⟨c₁, ended₁, hconnect, htracked₁, hwaited₁, hpending₁, hstatus₁, hpinged⟩ :=
    h.exists_connected accepted written
  rw [hwaited] at hwaited₁
  have hfresh₁ : c₁.NoStatus := ⟨hstatus₁.trans hfresh.1, by rw [hpending₁]; exact hfresh.2⟩
  have htracked₂ := htracked₁.send hfresh₁ .ping written
  have hwaited₂ := (waited_send c₁ .ping written).trans hwaited₁
  have hpending₂ := (pending_send c₁ .ping written).trans hpending₁
  rw [hconnect] at hdone
  cases ended₁ with
  | threw =>
    obtain rfl := Option.some.inj hdone
    exact ⟨htracked₁.disconnect, fun hw => absurd (hwaited₁.symm.trans hw) Bool.false_ne_true⟩
  | returned =>
    dsimp only at hdone
    cases hping : c₁.ping written with
    | mk c₂ ended₂ =>
      rw [hping] at hdone hpinged
      have hsend : c₁.send .ping written = (c₂, ended₂) := hping
      rw [hsend] at htracked₂ hwaited₂ hpending₂
      cases ended₂ with
      | threw =>
        obtain rfl := Option.some.inj hdone
        exact ⟨htracked₂.disconnect, fun hw => absurd (hwaited₂.symm.trans hw) Bool.false_ne_true⟩
      | returned =>
        obtain ⟨⟨c₃, ended₃⟩, hwait, rfl⟩ := Option.map_eq_some_iff.mp hdone
        rw [← hpending₂] at hwhole
        rw [hpinged] at hnext
        obtain ⟨htracked₃, hend⟩ := htracked₂.waitForExit recode hwhole hnext hwait
        exact ⟨htracked₃.disconnect, hend⟩

theorem Tracked.step {c c' : GroovyClient} {s : Step} (h : Tracked answered c)
    (hfresh : FreshStep recode answered c s) (hstep : c.step recode s = some c') :
    Tracked answered c' ∧ (c'.waited = true → c'.exitStatus.isSome = true) := by
  have hstart : Tracked answered { c with waited := false } := ⟨h.skew, h.pending, h.exitStatus⟩
  have hnot : ∀ c₁ : GroovyClient, c₁.waited = false →
      (c₁.waited = true → c₁.exitStatus.isSome = true) :=
    fun c₁ hwaited hw => absurd (hwaited.symm.trans hw) Bool.false_ne_true
  cases s with
  | receive responses =>
    obtain rfl := Option.some.inj hstep
    refine ⟨hstart.receive hfresh, hnot _ ?_⟩
    rw [GroovyClient.receive]
    cases c.connection <;> rfl
  | connect accepted =>
    obtain rfl := Option.some.inj hstep
    exact ⟨hstart.connect accepted, hnot _ (waited_connect _ accepted)⟩
  | disconnect =>
    obtain rfl := Option.some.inj hstep
    exact ⟨hstart.disconnect, hnot _ rfl⟩
  | send command written =>
    obtain rfl := Option.some.inj hstep
    exact ⟨hstart.send hfresh command written, hnot _ (waited_send _ command written)⟩
  | input written =>
    have hsame : ({ c with waited := false }.input written).1 = { c with waited := false } := by
      rw [GroovyClient.input]
      split_ifs <;> rfl
    obtain rfl := Option.some.inj hstep
    rw [hsame]
    exact ⟨hstart, hnot _ rfl⟩
  | clearBuffer =>
    obtain rfl := Option.some.inj hstep
    exact ⟨⟨h.skew, h.pending, fun _ => nofun⟩, hnot _ rfl⟩
  | waitForResponse polls =>
    obtain ⟨⟨c₁, ended⟩, hloop, rfl⟩ := Option.map_eq_some_iff.mp hstep
    have hpending : ∀ conn, c.connection = some conn → conn.pending = c.pending :=
      fun conn hconn => (pending_of_connection hconn).symm
    obtain ⟨htracked, hwaited, -⟩ := hstart.waitLoop recode hpending hfresh.1 hfresh.2 hloop
    exact ⟨htracked, hnot _ hwaited⟩
  | waitForExit polls =>
    obtain ⟨⟨c₁, ended⟩, hwait, rfl⟩ := Option.map_eq_some_iff.mp hstep
    exact hstart.waitForExit recode hfresh.1 hfresh.2 hwait
  | isServerAvailable accepted written polls =>
    have hnext := (sameRecord_pinged accepted written c).nextAnswer.mpr hfresh.2.2
    exact hstart.isServerAvailable recode rfl hfresh.1 hfresh.2.1 hnext hstep

/-- What every fresh step preserves. -/
structure Sound (answered : ℕ → ℕ → Option ℕ) (c : GroovyClient) : Prop where
  tracked : Tracked answered c
  waited : c.waited = true → c.exitStatus.isSome = true

theorem Sound.answersCommand {c : GroovyClient} (h : Sound answered c) :
    AnswersCommand answered c := by
  intro hwaited hcommands
  obtain ⟨z, hz⟩ := Option.isSome_iff_exists.mp (h.waited hwaited)
  obtain ⟨status, message, hanswers, rfl⟩ := h.tracked.exitStatus hcommands z hz
  exact ⟨status, message, hanswers, hz⟩

def clientSystem : StepSystem GroovyClient Step := ⟨GroovyClient.step recode⟩

/-- Along any run of fresh steps, whenever `waitForExit` returns after a command the status
answers that command. -/
theorem answersCommand_of_fresh {steps : List Step}
    (h : (clientSystem recode).StepsMeet (FreshStep recode answered) ({} : GroovyClient) steps) :
    (clientSystem recode).StatesMeet (AnswersCommand answered) ({} : GroovyClient) steps := by
  have hstart : Sound answered ({} : GroovyClient) :=
    ⟨⟨nofun, fun hcommands => absurd rfl hcommands, fun hcommands => absurd rfl hcommands⟩,
      fun hw => absurd hw Bool.false_ne_true⟩
  have hsound : (clientSystem recode).StatesMeet (Sound answered) ({} : GroovyClient) steps := by
    refine h.statesMeet (fun c s c' hc hfresh hstep => ?_) hstart
    obtain ⟨htracked, hwaited⟩ := hc.tracked.step recode hfresh hstep
    exact ⟨htracked, hwaited⟩
  exact hsound.mono fun _ => Sound.answersCommand

end Polls

def success : Response := .exit ⟨0, by decide⟩ none

theorem answersCommand_of_fresh_run : ∃ c,
    (clientSystem id).run ({} : GroovyClient)
      [.connect true, .send .run true, .waitForExit [⟨[success], 1, 0⟩], .clearBuffer,
        .send .ping true, .waitForExit [⟨[success], 1, 0⟩]] = some c ∧
    (clientSystem id).StatesMeet (AnswersCommand fun _ i => some i) ({} : GroovyClient)
      [.connect true, .send .run true, .waitForExit [⟨[success], 1, 0⟩], .clearBuffer,
        .send .ping true, .waitForExit [⟨[success], 1, 0⟩]] := by
  have hanswer : ∀ c : GroovyClient, c.sent.length = c.commands.length - 1 →
      NextAnswer (fun _ i => some i) c [success] := by
    intro c hc _ i status message hi
    obtain ⟨hlt, -⟩ := List.getElem?_eq_some_iff.mp hi
    rw [Nat.lt_one_iff.mp hlt, Nat.add_zero, hc]
  have hwhole : WholePolls id [] [⟨[success], 1, 0⟩] :=
    ⟨⟨rfl, ⟨.inl rfl, trivial⟩, rfl⟩, trivial⟩
  have hnone : ∀ status message, Response.exit status message ∉ ([] : List Response) :=
    fun _ _ => List.not_mem_nil
  refine ⟨_, rfl, answersCommand_of_fresh id ⟨trivial, fun c₁ h₁ => ?_⟩⟩
  obtain rfl := Option.some.inj h₁
  refine ⟨⟨rfl, hnone⟩, fun c₂ h₂ => ?_⟩
  obtain rfl := Option.some.inj h₂
  refine ⟨⟨hwhole, hanswer _ rfl⟩, fun c₃ h₃ => ?_⟩
  obtain rfl := Option.some.inj h₃
  refine ⟨trivial, fun c₄ h₄ => ?_⟩
  obtain rfl := Option.some.inj h₄
  refine ⟨⟨rfl, hnone⟩, fun c₅ h₅ => ?_⟩
  obtain rfl := Option.some.inj h₅
  exact ⟨⟨hwhole, hanswer _ rfl⟩, fun _ _ => trivial⟩

/-- The health check before a shutdown leaves its status behind, and the shutdown is waited
for with that one, whatever the server answers. -/
theorem not_answersCommand_shutdown : ∃ c,
    (clientSystem id).run ({} : GroovyClient)
      [.isServerAvailable true true [⟨[success], 1, 0⟩], .connect true, .send .shutdown true,
        .waitForExit []] = some c ∧ c.exitStatus = some 0 ∧
      ∀ answered, ¬ AnswersCommand answered c := by
  refine ⟨_, rfl, rfl, fun answered h => ?_⟩
  obtain ⟨status, message, ⟨i, hi, -⟩, -⟩ := h rfl (List.cons_ne_nil _ _)
  cases hi

end GroovyClient
end GroovyServ

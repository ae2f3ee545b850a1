import GroovyServ.CommandStatus

/-!
# The batches in which a client reads a response

Each call of `readAllAsPossible` parses what happens to be available, as a text and from
its start, and keeps nothing of a response that it has read a part of. Cut between
whole responses, and with bytes that stay the same as a text, the stream is decoded as
if it were read at once.
-/

namespace GroovyServ

open Lines Server

def sessionResponses (chunks : List (Channel × JByteArray)) (status : JInt) : List Response :=
  chunks.map (fun chunk => .stream chunk.1 chunk.2) ++ [.exit status none]

def Response.bytesOn (channel : Channel) : Response → Bytes
  | .stream channel' data => if channel' = channel then data.val else []
  | .exit _ _ => []

def Response.status : Response → Option ℤ
  | .stream _ _ => none
  | .exit status _ => some status.val

def bytesOn (channel : Channel) (responses : List Response) : Bytes :=
  responses.flatMap (Response.bytesOn channel)

def lastStatus (responses : List Response) : Option ℤ :=
  (responses.filterMap Response.status).getLast?

namespace GroovyClient

/-- What the client has read is what the responses stand for. -/
structure Decodes (responses : List Response) (c : GroovyClient) : Prop where
  outBytes : c.outBytes = bytesOn .out responses
  errBytes : c.errBytes = bytesOn .err responses
  exitStatus : c.exitStatus = lastStatus responses

def addResponse (c : GroovyClient) : Response → GroovyClient
  | .stream channel data => c.addBytes channel data
  | .exit status _ => { c with exitStatus := some status.val }

def addResponses (c : GroovyClient) (responses : List Response) : GroovyClient :=
  responses.foldl addResponse c

theorem Decodes.addResponse {read : List Response} {c : GroovyClient} (h : Decodes read c)
    (r : Response) : Decodes (read ++ [r]) (c.addResponse r) := by
  have hbytes : ∀ channel, bytesOn channel (read ++ [r]) =
      bytesOn channel read ++ r.bytesOn channel := by
    intro channel
    simp [bytesOn]
  have hstatus : lastStatus (read ++ [r]) = r.status.or (lastStatus read) := by
    cases r <;> simp [lastStatus, Response.status, List.filterMap_append]
  refine ⟨?_, ?_, ?_⟩
  · rw [hbytes, ← h.outBytes]
    cases r with
    | stream channel data => cases channel <;> simp [GroovyClient.addResponse, addBytes,
        Response.bytesOn]
    | exit status message => exact (List.append_nil _).symm
  · rw [hbytes, ← h.errBytes]
    cases r with
    | stream channel data => cases channel <;> simp [GroovyClient.addResponse, addBytes,
        Response.bytesOn]
    | exit status message => exact (List.append_nil _).symm
  · rw [hstatus, ← h.exitStatus]
    cases r with
    | stream channel data => cases channel <;> rfl
    | exit status message => rfl

theorem Decodes.addResponses {read : List Response} {c : GroovyClient} (h : Decodes read c)
    (responses : List Response) : Decodes (read ++ responses) (c.addResponses responses) := by
  induction responses generalizing read c with
  | nil => rwa [List.append_nil]
  | cons r responses ih =>
    have hnext := ih (h.addResponse r)
    rwa [List.append_assoc, List.singleton_append] at hnext

theorem connection_addResponses (c : GroovyClient) (responses : List Response) :
    (c.addResponses responses).connection = c.connection := by
  induction responses generalizing c with
  | nil => rfl
  | cons r responses ih =>
    refine (ih (c.addResponse r)).trans ?_
    cases r with
    | stream channel data => cases channel <;> rfl
    | exit status message => rfl

theorem text_ne_nil (r : Response) : r.text ≠ [] := by
  cases r with
  | stream channel data => simp [Response.text, formatAsResponseHeader, formatAsHeader]
  | exit status message => simp [Response.text, formatAsExitHeader, formatAsHeader]

theorem responsesText_eq_nil {responses : List Response} :
    responsesText responses = [] ↔ responses = [] := by
  cases responses with
  | nil => simp [responsesText]
  | cons r responses => simp [responsesText, text_ne_nil r]

/-- The last of the responses is an empty chunk, with nothing behind it. -/
def EndsEmpty (responses : List Response) : Prop :=
  ∃ channel data, responses.getLast? = some (.stream channel data) ∧ data.val = []

def Plain (r : Response) : Prop := ∀ status message, r = .exit status message → message = none

theorem EndsEmpty.cons {responses : List Response} (h : EndsEmpty responses) (r : Response) :
    EndsEmpty (r :: responses) := by
  obtain ⟨channel, data, hlast, hnil⟩ := h
  exact ⟨channel, data, by rw [List.getLast?_cons, hlast]; rfl, hnil⟩

theorem readResponses_whole {responses : List Response} (hplain : ∀ r ∈ responses, Plain r)
    {rest : Bytes} (hend : rest = [] → ¬ EndsEmpty responses) {fuel : ℕ}
    (hfuel : (responsesText responses ++ rest).length < fuel) (c : GroovyClient) :
    readResponses fuel (responsesText responses ++ rest) c =
      readResponses fuel rest (c.addResponses responses) := by
  induction responses generalizing fuel c with
  | nil => rfl
  | cons r responses ih =>
    obtain ⟨hr, hresponses⟩ := List.forall_mem_cons.mp hplain
    have hend' : rest = [] → ¬ EndsEmpty responses := fun hrest h => hend hrest (h.cons r)
    have hlen := List.length_pos_of_ne_nil (text_ne_nil r)
    have hsplit : responsesText (r :: responses) ++ rest =
        r.text ++ (responsesText responses ++ rest) := by
      rw [responsesText, List.flatMap_cons, List.append_assoc]
      rfl
    rw [hsplit, List.length_append] at hfuel
    obtain ⟨fuel, rfl⟩ : ∃ n, fuel = n + 1 := ⟨fuel - 1, by omega⟩
    have hrest : rest.length < fuel := by
      rw [List.length_append] at hfuel
      omega
    have hnext : ∀ c', readResponses fuel (responsesText responses ++ rest) c' =
        readResponses (fuel + 1) rest (c'.addResponses responses) := fun c' =>
      (ih hresponses hend' (by omega) c').trans
        (readResponses_of_lt hrest (hrest.trans (Nat.lt_succ_self _)) _)
    rw [hsplit]
    cases r with
    | stream channel data =>
      have hne : data.val ++ (responsesText responses ++ rest) ≠ [] := by
        intro hnil
        obtain ⟨hdata, hnil⟩ := List.append_eq_nil_iff.mp hnil
        obtain ⟨htexts, hrest⟩ := List.append_eq_nil_iff.mp hnil
        rw [responsesText_eq_nil] at htexts
        exact hend hrest ⟨channel, data, by rw [htexts]; rfl, hdata⟩
      rw [readResponses_stream, if_neg hne]
      exact hnext (c.addBytes channel data)
    | exit status message =>
      obtain rfl := hr status message rfl
      rw [readResponses_exit]
      exact hnext { c with exitStatus := some status.val }

theorem readResponses_nil (fuel : ℕ) (c : GroovyClient) :
    readResponses (fuel + 1) [] c = (c, .returned) := rfl

theorem readResponses_lf (fuel : ℕ) (rest : Bytes) (c : GroovyClient) :
    readResponses (fuel + 1) (lf :: rest) c = (c, .returned) := by
  have hparse : parseHeaders .eof (lf :: rest) = .ok ([], rest) := rfl
  rw [readResponses, hparse]
  rfl

theorem readLine_eof {line : Bytes} (hline : lf ∉ line) :
    Server.readLine .eof line = .ok (line, []) := by
  induction line with
  | nil => rfl
  | cons ch line ih =>
    rw [List.mem_cons, not_or] at hline
    rw [Server.readLine, if_neg (Ne.symm hline.1), ih hline.2]
    rfl

theorem parseHeaders_eof {line feeds : Bytes} (hline : lf ∉ line) (hne : line ≠ [])
    (hfeeds : feeds = [] ∨ feeds = [lf]) :
    parseHeaders .eof (line ++ feeds) = .ok (headersOf [line], []) := by
  have hread : Server.readLine .eof (line ++ feeds) = .ok (line, []) := by
    rcases hfeeds with rfl | rfl
    · rw [List.append_nil, readLine_eof hline]
    · exact readLine_line .eof hline []
  have hlines : readLines .eof (line ++ feeds) = .ok ([line], []) := by
    obtain ⟨n, hn⟩ : ∃ n, (line ++ feeds).length = n + 1 :=
      ⟨(line ++ feeds).length - 1, by
        have := List.length_pos_of_ne_nil hne
        rw [List.length_append]
        omega⟩
    rw [readLines, hn, readLinesLoop, hread, ok_bind]
    dsimp only
    rw [if_neg hne]
    rfl
  rw [parseHeaders, hlines]

def statusLine (status : JInt) : Bytes := headerKeyStatus ++ (ascii ": " ++ decimalInt status)

theorem text_exit (status : JInt) :
    (Response.exit status none).text = statusLine status ++ [lf, lf] := by
  have hkey : ascii "Status: " = headerKeyStatus ++ ascii ": " := rfl
  rw [Response.text, formatAsExitHeader_eq, hkey, unlines_cons, statusLine]
  simp only [List.append_assoc]
  rfl

theorem statusLine_plain (status : JInt) :
    lf ∉ statusLine status ∧ statusLine status ≠ [] ∧
      headersOf [statusLine status] = [(headerKeyStatus, [decimalInt status])] := by
  have hkey : (58 : UInt8) ∉ headerKeyStatus := by decide
  have hplain : lf ∉ headerKeyStatus ∧ lf ∉ ascii ": " ∧ headerKeyStatus ≠ [] := by decide
  have htrim := (trim_eq_self_iff _).mpr (plain_decimalInt status).2
  refine ⟨?_, ?_, ?_⟩
  · simp only [statusLine, List.mem_append, not_or]
    exact ⟨hplain.1, hplain.2.1, (plain_decimalInt status).1⟩
  · exact fun h => hplain.2.2 (List.append_eq_nil_iff.mp h).1
  · rw [headersOf, List.foldl_cons, statusLine, splitHeader_line hkey, htrim]
    rfl

theorem readResponses_statusLine (status : JInt) {feeds : Bytes}
    (hfeeds : feeds = [] ∨ feeds = [lf]) (fuel : ℕ) (c : GroovyClient) :
    readResponses (fuel + 2) (statusLine status ++ feeds) c =
      ({ c with exitStatus := some status.val }, .returned) := by
  obtain ⟨hlf, hne, hheaders⟩ := statusLine_plain status
  have hparse := parseHeaders_eof hlf hne hfeeds
  rw [hheaders] at hparse
  rw [readResponses_status hparse]
  rfl

/-- The batch that a call finds: some whole responses, and some bytes of the next one. -/
structure Batch where
  count : ℕ
  extra : ℕ

def Batch.poll (batch : Batch) : Poll := ⟨[], batch.count, batch.extra⟩

/-- The client after some calls, and how the last of them ended. -/
structure Batched where
  client : GroovyClient
  ended : Ended := .returned

def Batched.start (responses : List Response) : Batched :=
  { client := { connection := some ⟨responses, 0⟩ } }

/-- One more call. There is none after an exception, or when the client has disconnected. -/
def batchStep (recode : Bytes → Bytes) (b : Batched) (batch : Batch) : Option Batched :=
  if b.ended = .returned ∧ b.client.isConnected = true then
    (b.client.readAllAsPossible recode batch.poll).map fun (client, ended) => ⟨client, ended⟩
  else none

def batchSystem (recode : Bytes → Bytes) : StepSystem Batched Batch := ⟨batchStep recode⟩

structure Batched.Decoded (responses : List Response) (b : Batched) : Prop where
  returned : b.ended = .returned
  decodes : b.client.pending = [] → Decodes responses b.client

/-- A batch ends between two responses, the last of which is not an empty chunk, or within
the line feeds behind the status. -/
def CutBetween (pending : List Response) (batch : Batch) : Prop :=
  (batch.extra = 0 ∧ ¬ EndsEmpty (pending.take batch.count)) ∨
    ∃ status, pending[batch.count]? = some (.exit status none) ∧
      (Response.exit status none).text.length ≤ batch.extra + 2

/-- The bytes of a batch that is cut so are still the same when they have been a text. -/
def WholeBatch (recode : Bytes → Bytes) (b : Batched) (batch : Batch) : Prop :=
  ∀ conn, b.client.connection = some conn → CutBetween conn.pending batch ∧
    recode (readAvailableText conn batch.poll) = readAvailableText conn batch.poll

theorem sessionResponses_plain (chunks : List (Channel × JByteArray)) (status : JInt) :
    ∀ r ∈ sessionResponses chunks status, Plain r := by
  intro r hr status' message heq
  rw [sessionResponses, List.mem_append, heq] at hr
  rcases hr with hr | hr
  · obtain ⟨_, _, hstream⟩ := List.mem_map.mp hr
    cases hstream
  · cases List.mem_singleton.mp hr
    rfl

theorem plain_of_pending {chunks : List (Channel × JByteArray)} {status : JInt}
    {read pending : List Response} (h : sessionResponses chunks status = read ++ pending) (n : ℕ) :
    ∀ r ∈ pending.take n, Plain r := by
  intro r hr
  have hmem : r ∈ read ++ pending := List.mem_append_right _ (List.mem_of_mem_take hr)
  exact sessionResponses_plain chunks status r (h ▸ hmem)

theorem sessionResponses_exit {chunks : List (Channel × JByteArray)} {status status' : JInt}
    {message : Option Bytes} {before behind : List Response}
    (h : sessionResponses chunks status = before ++ .exit status' message :: behind) :
    behind = [] := by
  induction chunks generalizing before with
  | nil =>
    cases before with
    | nil => exact (List.cons.inj h).2.symm
    | cons r before => exact absurd (List.cons.inj h).2.symm (by simp)
  | cons chunk chunks ih =>
    cases before with
    | nil => exact nomatch (List.cons.inj h).1
    | cons r before => exact ih (List.cons.inj h).2

theorem eq_nil_of_lastStatus {chunks : List (Channel × JByteArray)} {status : JInt}
    {read behind : List Response} (h : sessionResponses chunks status = read ++ behind)
    (hstatus : lastStatus read ≠ none) : behind = [] := by
  have hne : read.filterMap Response.status ≠ [] := by
    intro hnil
    exact hstatus (by rw [lastStatus, hnil]; rfl)
  obtain ⟨z, hz⟩ := List.exists_mem_of_ne_nil _ hne
  obtain ⟨r, hr, hrz⟩ := List.mem_filterMap.mp hz
  obtain ⟨before, between, rfl⟩ := List.append_of_mem hr
  cases r with
  | stream channel data => cases hrz
  | exit status' message =>
    rw [List.append_assoc, List.cons_append] at h
    exact (List.append_eq_nil_iff.mp (sessionResponses_exit h)).2

def Settles (c c' : GroovyClient) : Prop := c' = c ∨ (c' = c.disconnect ∧ c.exitStatus ≠ none)

theorem handleText_settles {text : Bytes} {c c' : GroovyClient}
    (h : readResponses (text.length + 1) text c = (c', .returned)) :
    ∃ c'', handleText text c = (c'', .returned) ∧ Settles c' c'' := by
  rw [handleText, h]
  by_cases hnil : text = []
  · rw [hnil, List.length_nil, readResponses_nil] at h
    rw [if_pos hnil]
    exact ⟨c, rfl, .inl (Prod.mk.inj h).1⟩
  · rw [if_neg hnil]
    dsimp only
    by_cases hany : c'.exitStatus.any (fun status => decide (status ≠ 0)) = true
    · rw [if_pos hany]
      refine ⟨_, rfl, .inr ⟨rfl, fun hnone => ?_⟩⟩
      rw [hnone] at hany
      cases hany
    · rw [if_neg hany]
      exact ⟨_, rfl, .inl rfl⟩

theorem handleText_whole {taken : List Response} (hplain : ∀ r ∈ taken, Plain r)
    (hend : ¬ EndsEmpty taken) (c : GroovyClient) :
    ∃ c', handleText (responsesText taken) c = (c', .returned) ∧
      Settles (c.addResponses taken) c' := by
  apply handleText_settles
  have hread : readResponses ((responsesText taken).length + 1) (responsesText taken ++ []) c =
      readResponses ((responsesText taken).length + 1) [] (c.addResponses taken) :=
    readResponses_whole hplain (fun _ => hend) (by rw [List.append_nil]; omega) c
  rwa [List.append_nil] at hread

theorem handleText_statusLine {taken : List Response} (hplain : ∀ r ∈ taken, Plain r)
    (status : JInt) {feeds : Bytes} (hfeeds : feeds = [] ∨ feeds = [lf]) (c : GroovyClient) :
    ∃ c', handleText (responsesText taken ++ (statusLine status ++ feeds)) c =
        (c', .returned) ∧ Settles (c.addResponses (taken ++ [.exit status none])) c' := by
  apply handleText_settles
  have hne := (statusLine_plain status).2.1
  have hlen := List.length_pos_of_ne_nil hne
  have hend : statusLine status ++ feeds = [] → ¬ EndsEmpty taken := fun hnil =>
    absurd (List.append_eq_nil_iff.mp hnil).1 hne
  obtain ⟨fuel, hfuel⟩ : ∃ n, (responsesText taken ++ (statusLine status ++ feeds)).length + 1 =
      n + 2 := ⟨(responsesText taken ++ (statusLine status ++ feeds)).length - 1, by
    simp only [List.length_append]
    omega⟩
  rw [hfuel, readResponses_whole hplain hend (by omega), readResponses_statusLine status hfeeds,
    addResponses, addResponses, List.foldl_append]
  rfl

/-- Between two calls the client has decoded the responses that are not pending; or the
status too, of which only line feeds are still to be read. -/
structure Batched.Following (responses : List Response) (b : Batched) : Prop where
  returned : b.ended = .returned
  disconnected : b.client.connection = none → Decodes responses b.client
  connected : ∀ conn, b.client.connection = some conn →
    (conn.skew = 0 ∧ ∃ read, responses = read ++ conn.pending ∧ Decodes read b.client) ∨
      (∃ status, conn.pending = [.exit status none] ∧
        (statusLine status).length ≤ conn.skew ∧ Decodes responses b.client)

theorem Decodes.reconnect {responses : List Response} {c : GroovyClient}
    (h : Decodes responses c) (connection : Option Connection) :
    Decodes responses { c with connection } :=
  ⟨h.outBytes, h.errBytes, h.exitStatus⟩

section Session

variable {chunks : List (Channel × JByteArray)} {status : JInt}

theorem Batched.Following.of_whole {read pending : List Response} {c c' : GroovyClient}
    (hsplit : sessionResponses chunks status = read ++ pending) (hread : Decodes read c)
    (hconn : c.connection = some ⟨pending, 0⟩) (hsettles : Settles c c') :
    Batched.Following (sessionResponses chunks status) ⟨c', .returned⟩ := by
  rcases hsettles with rfl | ⟨rfl, hstatus⟩
  · refine ⟨rfl, fun hnone => (nomatch hconn.symm.trans hnone), fun conn hconn' => .inl ?_⟩
    obtain rfl := Option.some.inj (hconn.symm.trans hconn')
    exact ⟨rfl, read, hsplit, hread⟩
  · rw [hread.exitStatus] at hstatus
    obtain rfl := eq_nil_of_lastStatus hsplit hstatus
    rw [List.append_nil] at hsplit
    exact ⟨rfl, fun _ => hsplit ▸ hread.reconnect none, fun _ hconn' => nomatch hconn'⟩

theorem Batched.Following.of_status {responses : List Response} {skew : ℕ} {c c' : GroovyClient}
    (hread : Decodes responses c) (hconn : c.connection = some ⟨[.exit status none], skew⟩)
    (hskew : (statusLine status).length ≤ skew) (hsettles : Settles c c') :
    Batched.Following responses ⟨c', .returned⟩ := by
  rcases hsettles with rfl | ⟨rfl, -⟩
  · refine ⟨rfl, fun hnone => (nomatch hconn.symm.trans hnone), fun conn hconn' => .inr ?_⟩
    obtain rfl := Option.some.inj (hconn.symm.trans hconn')
    exact ⟨status, rfl, hskew, hread⟩
  · exact ⟨rfl, fun _ => hread.reconnect none, fun _ hconn' => nomatch hconn'⟩

theorem readAllAsPossible_batch (recode : Bytes → Bytes) {c : GroovyClient} {conn : Connection}
    (hconn : c.connection = some conn) (batch : Batch) :
    c.readAllAsPossible recode batch.poll =
      if batch.poll.Possible conn then
        some (handleText (recode (readAvailableText conn batch.poll))
          { c with connection := some ⟨conn.pending.drop batch.count, batch.extra⟩ })
      else none := by
  have hreceive : c.receive [] = c := by
    cases c
    simp only at hconn
    subst hconn
    simp [receive]
  rw [readAllAsPossible, Batch.poll]
  dsimp only
  rw [hreceive, hconn]

theorem readAvailableText_status (taken : List Response) (status : JInt) {extra : ℕ}
    (hlt : extra < (Response.exit status none).text.length)
    (hle : (Response.exit status none).text.length ≤ extra + 2) :
    ∃ feeds, (feeds = [] ∨ feeds = [lf]) ∧ (statusLine status).length ≤ extra ∧
      readAvailableText ⟨taken ++ [.exit status none], 0⟩ ⟨[], taken.length, extra⟩ =
        responsesText taken ++ (statusLine status ++ feeds) := by
  rw [text_exit, List.length_append] at hlt hle
  change extra < (statusLine status).length + 2 at hlt
  change (statusLine status).length + 2 ≤ extra + 2 at hle
  obtain ⟨n, rfl⟩ := Nat.exists_eq_add_of_le (Nat.le_of_add_le_add_right hle)
  have hfeeds : List.take n [lf, lf] = [] ∨ List.take n [lf, lf] = [lf] := by
    obtain rfl | rfl : n = 0 ∨ n = 1 := by omega
    · exact .inl rfl
    · exact .inr rfl
  have htexts : responsesText (taken ++ [.exit status none]) =
      responsesText taken ++ (statusLine status ++ [lf, lf]) := by
    rw [responsesText, List.flatMap_append, List.flatMap_singleton, text_exit]
    rfl
  refine ⟨List.take n [lf, lf], hfeeds, by omega, ?_⟩
  rw [readAvailableText, Poll.upTo]
  dsimp only
  rw [List.take_left, htexts, List.take_length_add_append, List.take_length_add_append,
    List.drop_zero]

theorem readAvailableText_feeds (status : JInt) {skew : ℕ}
    (hskew : (statusLine status).length ≤ skew) (poll : Poll) :
    ∀ ch ∈ readAvailableText ⟨[.exit status none], skew⟩ poll, ch = lf := by
  intro ch hch
  have htext : responsesText [.exit status none] = statusLine status ++ [lf, lf] := by
    rw [responsesText, List.flatMap_singleton, text_exit]
  rw [readAvailableText, List.drop_take] at hch
  dsimp only at hch
  have hmem := List.mem_of_mem_take hch
  rw [htext, List.drop_append, List.drop_eq_nil_of_le hskew, List.nil_append] at hmem
  simpa using List.mem_of_mem_drop hmem

theorem handleText_feeds {text : Bytes} (htext : ∀ ch ∈ text, ch = lf) (c : GroovyClient) :
    ∃ c', handleText text c = (c', .returned) ∧ Settles c c' := by
  apply handleText_settles
  cases text with
  | nil => exact readResponses_nil 0 c
  | cons ch rest =>
    obtain rfl := htext ch List.mem_cons_self
    exact readResponses_lf _ rest c

theorem Batched.Following.step_between {read pending : List Response} {c c' : GroovyClient}
    {ended : Ended} {batch : Batch}
    (hsplit : sessionResponses chunks status = read ++ pending) (hread : Decodes read c)
    (hextra : batch.extra = 0) (hend : ¬ EndsEmpty (pending.take batch.count))
    (hcall : handleText (readAvailableText ⟨pending, 0⟩ batch.poll)
      { c with connection := some ⟨pending.drop batch.count, batch.extra⟩ } = (c', ended)) :
    Batched.Following (sessionResponses chunks status) ⟨c', ended⟩ := by
  have hplain := plain_of_pending hsplit batch.count
  have hsplit' : sessionResponses chunks status =
      (read ++ pending.take batch.count) ++ pending.drop batch.count := by
    rw [hsplit, List.append_assoc, List.take_append_drop]
  rw [readAvailableText_whole hextra] at hcall
  obtain ⟨c'', hc'', hsettles⟩ := handleText_whole hplain hend
    { c with connection := some ⟨pending.drop batch.count, batch.extra⟩ }
  obtain ⟨rfl, rfl⟩ := Prod.mk.inj (hc''.symm.trans hcall)
  refine .of_whole hsplit' ((hread.reconnect _).addResponses _) ?_ hsettles
  rw [connection_addResponses, hextra]

theorem Batched.Following.step_statusLine {read pending : List Response} {status' : JInt}
    {c c' : GroovyClient} {ended : Ended} {batch : Batch}
    (hsplit : sessionResponses chunks status = read ++ pending) (hread : Decodes read c)
    (hexit : pending[batch.count]? = some (.exit status' none))
    (hlt : batch.extra < (Response.exit status' none).text.length)
    (hle : (Response.exit status' none).text.length ≤ batch.extra + 2)
    (hcall : handleText (readAvailableText ⟨pending, 0⟩ batch.poll)
      { c with connection := some ⟨pending.drop batch.count, batch.extra⟩ } = (c', ended)) :
    Batched.Following (sessionResponses chunks status) ⟨c', ended⟩ := by
  have hplain := plain_of_pending hsplit batch.count
  obtain ⟨hcount, hget⟩ := List.getElem?_eq_some_iff.mp hexit
  -- the status is the last response
  have hpending : pending = pending.take batch.count ++ [.exit status' none] ∧
      pending.drop batch.count = [.exit status' none] := by
    have hcut := List.take_append_drop batch.count pending
    rw [List.drop_eq_getElem_cons hcount, hget] at hcut ⊢
    rw [← hcut, ← List.append_assoc] at hsplit
    rw [sessionResponses_exit hsplit] at hcut ⊢
    exact ⟨hcut.symm, rfl⟩
  obtain ⟨feeds, hfeeds, hline, htext⟩ :=
    readAvailableText_status (pending.take batch.count) status' hlt hle
  rw [List.length_take_of_le hcount.le, ← hpending.1] at htext
  rw [Batch.poll, htext] at hcall
  obtain ⟨c'', hc'', hsettles⟩ := handleText_statusLine hplain status' hfeeds
    { c with connection := some ⟨pending.drop batch.count, batch.extra⟩ }
  obtain ⟨rfl, rfl⟩ := Prod.mk.inj (hc''.symm.trans hcall)
  rw [← hpending.1] at hsettles
  refine .of_status (hsplit ▸ (hread.reconnect _).addResponses _) ?_ hline hsettles
  rw [connection_addResponses, hpending.2]

theorem Batched.Following.step_feeds {status' : JInt} {skew : ℕ} {c c' : GroovyClient}
    {ended : Ended} {batch : Batch} (hline : (statusLine status').length ≤ skew)
    (hread : Decodes (sessionResponses chunks status) c)
    (hpossible : batch.poll.Possible ⟨[.exit status' none], skew⟩)
    (hcall : handleText (readAvailableText ⟨[.exit status' none], skew⟩ batch.poll)
      { c with connection := some ⟨[Response.exit status' none].drop batch.count, batch.extra⟩ } =
        (c', ended)) :
    Batched.Following (sessionResponses chunks status) ⟨c', ended⟩ := by
  obtain ⟨hcount, hskew, hextra⟩ := hpossible
  have hlfs := readAvailableText_feeds status' hline batch.poll
  obtain ⟨c'', hc'', hsettles⟩ := handleText_feeds hlfs
    { c with connection := some ⟨[Response.exit status' none].drop batch.count, batch.extra⟩ }
  obtain ⟨rfl, rfl⟩ := Prod.mk.inj (hc''.symm.trans hcall)
  obtain ⟨count, extra⟩ := batch
  obtain rfl | rfl : count = 0 ∨ count = 1 := by
    change count ≤ 1 at hcount
    omega
  · -- some of the line feeds are still to come
    have hle : skew ≤ extra := by
      simpa [Batch.poll, Poll.upTo, responsesText] using hskew
    exact .of_status (hread.reconnect _) rfl (hline.trans hle) hsettles
  · obtain rfl : extra = 0 := Nat.lt_one_iff.mp hextra
    exact .of_whole (List.append_nil _).symm (hread.reconnect _) rfl hsettles

theorem Batched.Following.step {recode : Bytes → Bytes} {b b' : Batched} {batch : Batch}
    (h : b.Following (sessionResponses chunks status)) (hwhole : WholeBatch recode b batch)
    (hstep : batchStep recode b batch = some b') :
    b'.Following (sessionResponses chunks status) := by
  rw [batchStep] at hstep
  split_ifs at hstep with hcalled
  obtain ⟨⟨c', ended⟩, hcall, rfl⟩ := Option.map_eq_some_iff.mp hstep
  obtain ⟨⟨pending, skew⟩, hconn⟩ := Option.isSome_iff_exists.mp hcalled.2
  obtain ⟨hcut, hrecode⟩ := hwhole _ hconn
  rw [readAllAsPossible_batch recode hconn, hrecode] at hcall
  split_ifs at hcall with hpossible
  have hhandle := Option.some.inj hcall
  rcases h.connected _ hconn with ⟨hskew, read, hsplit, hread⟩ | ⟨status', hlast, hline, hread⟩
  · obtain rfl : skew = 0 := hskew
    rcases hcut with ⟨hextra, hend⟩ | ⟨status', hexit, hle⟩
    · exact .step_between hsplit hread hextra hend hhandle
    · have hlt : batch.poll.extra < ((pending[batch.count]?).map fun r => r.text.length).getD 1 :=
        hpossible.2.2
      rw [hexit] at hlt
      exact .step_statusLine hsplit hread hexit hlt hle hhandle
  · obtain rfl : pending = [.exit status' none] := hlast
    exact .step_feeds hline hread hpossible hhandle

theorem Batched.Following.decoded {responses : List Response} {b : Batched}
    (h : b.Following responses) : b.Decoded responses := by
  refine ⟨h.returned, fun hpending => ?_⟩
  cases hconn : b.client.connection with
  | none => exact h.disconnected hconn
  | some conn =>
    rw [pending_of_connection hconn] at hpending
    rcases h.connected conn hconn with ⟨-, read, hsplit, hread⟩ | ⟨status, hlast, -⟩
    · rw [hpending, List.append_nil] at hsplit
      rwa [hsplit]
    · exact absurd (hlast.symm.trans hpending) (List.cons_ne_nil _ _)

/-- Cut between responses, and with bytes that are the same as a text, the stream of a
session is decoded whatever is in it. -/
theorem decoded_of_wholeBatches (recode : Bytes → Bytes)
    (chunks : List (Channel × JByteArray)) (status : JInt) (batches : List Batch)
    (h : (batchSystem recode).StepsMeet (WholeBatch recode)
      (Batched.start (sessionResponses chunks status)) batches) :
    (batchSystem recode).StatesMeet (Batched.Decoded (sessionResponses chunks status))
      (Batched.start (sessionResponses chunks status)) batches := by
  have hstart : (Batched.start (sessionResponses chunks status)).Following
      (sessionResponses chunks status) := by
    refine ⟨rfl, nofun, fun conn hconn => .inl ?_⟩
    obtain rfl := Option.some.inj hconn
    exact ⟨rfl, [], rfl, rfl, rfl, rfl⟩
  exact (h.statesMeet (fun b batch b' hb hwhole hstep => hb.step hwhole hstep) hstart).mono
    fun _ => Batched.Following.decoded

end Session

/-- The second batch ends between the line feeds behind the status. -/
theorem decoded_of_wholeBatches_feeds : ∃ b,
    (batchSystem id).run
      (Batched.start (sessionResponses [(.err, ⟨[255, 10, 10], by decide⟩)] ⟨0, by decide⟩))
      [⟨1, 0⟩, ⟨0, 10⟩, ⟨1, 0⟩] = some b ∧
    (batchSystem id).StatesMeet
      (Batched.Decoded (sessionResponses [(.err, ⟨[255, 10, 10], by decide⟩)] ⟨0, by decide⟩))
      (Batched.start (sessionResponses [(.err, ⟨[255, 10, 10], by decide⟩)] ⟨0, by decide⟩))
      [⟨1, 0⟩, ⟨0, 10⟩, ⟨1, 0⟩] := by
  refine ⟨_, rfl, decoded_of_wholeBatches id _ _ _ ⟨?_, fun b₁ hb₁ => ⟨?_, fun b₂ hb₂ =>
    ⟨?_, fun _ _ => trivial⟩⟩⟩⟩
  · intro conn hconn
    obtain rfl := Option.some.inj hconn
    refine ⟨.inl ⟨rfl, ?_⟩, rfl⟩
    rintro ⟨channel, data, hlast, hnil⟩
    cases hlast
    cases hnil
  · intro conn hconn
    obtain rfl := Option.some.inj hb₁
    obtain rfl := Option.some.inj hconn
    exact ⟨.inr ⟨⟨0, by decide⟩, rfl, by decide⟩, rfl⟩
  · intro conn hconn
    obtain rfl := Option.some.inj hb₁
    obtain rfl := Option.some.inj hb₂
    obtain rfl := Option.some.inj hconn
    refine ⟨.inl ⟨rfl, ?_⟩, rfl⟩
    rintro ⟨channel, data, hlast, -⟩
    cases hlast

/-- What US-ASCII makes of bytes when they become a text and bytes again. -/
def usAscii (bytes : Bytes) : Bytes := bytes.map fun ch => if ch < 128 then ch else 63

/-- A header that is cut is never seen, and its body is taken for headers too; a byte that is
not ASCII is lost even when nothing is cut. -/
theorem not_decoded_cut :
    (∃ b, (batchSystem id).run
        (Batched.start (sessionResponses [(.out, ⟨[97, 98], by decide⟩)] ⟨0, by decide⟩))
        [⟨0, 4⟩, ⟨2, 0⟩] = some b ∧
      ¬ b.Decoded (sessionResponses [(.out, ⟨[97, 98], by decide⟩)] ⟨0, by decide⟩)) ∧
    ∃ b, (batchSystem usAscii).run
        (Batched.start (sessionResponses [(.out, ⟨[233], by decide⟩)] ⟨0, by decide⟩))
        [⟨2, 0⟩] = some b ∧
      ¬ b.Decoded (sessionResponses [(.out, ⟨[233], by decide⟩)] ⟨0, by decide⟩) := by
  refine ⟨⟨_, rfl, fun h => ?_⟩, _, rfl, fun h => ?_⟩
  · exact absurd (h.decodes rfl).outBytes (by decide)
  · exact absurd (h.decodes rfl).outBytes (by decide)

end GroovyClient
end GroovyServ

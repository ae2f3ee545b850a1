import GroovyServ.RemoteSession
import GroovyServ.RubyRequest

/-!
# A script run with the Ruby client

The headers that the server writes are found by the regular expression, and so the loop of
the Ruby client keeps to the laws: a script behind the server looks to its user like the
script itself, but for what the client prints at the end.
-/

namespace GroovyServ.RubyClient

open Lines Server Remoting

theorem gets_line (ending : SocketEnd) {line : Bytes} (hline : lf ∉ line) (rest : Bytes) :
    gets ending (line ++ lf :: rest) = .ok (some (line ++ [lf]), rest) := by
  have hmem : lf ∈ line ++ lf :: rest := by simp
  have hall : ∀ c ∈ line, (decide (c ≠ lf)) = true := fun c hc =>
    decide_eq_true fun h => hline (h ▸ hc)
  unfold gets
  rw [if_pos hmem, List.takeWhile_append_of_pos hall, List.dropWhile_append_of_pos hall]
  simp

theorem chomp_line {line : Bytes} (hlast : line.getLast? ≠ some 13) :
    chomp (line ++ [lf]) = line := by
  rw [chomp, dropLastByte, dropLastByte, List.getLast?_concat, if_pos rfl, List.dropLast_concat,
    if_neg hlast]

/-- A header whose value the regular expression takes whole. -/
structure PlainField (f : Bytes × Bytes) : Prop where
  key_ne_nil : f.1 ≠ []
  key_letters : ∀ c ∈ f.1, isLetter c = true
  value_ne_nil : f.2 ≠ []
  value_lf : lf ∉ f.2
  value_last : f.2.getLast? ≠ some 13

theorem isLetter_ne {c d : UInt8} (hc : isLetter c = true) (hd : isLetter d = false) : c ≠ d := by
  rintro rfl
  rw [hc] at hd
  cases hd

theorem matchHeader_field {f : Bytes × Bytes} (hf : PlainField f) :
    matchHeader (f.1 ++ (ascii ": " ++ f.2)) = some f := by
  obtain ⟨key, value⟩ := f
  obtain ⟨hkey, hletters, hvalue, hlf, -⟩ := hf
  dsimp only at hkey hletters hvalue hlf ⊢
  obtain ⟨c, key', rfl⟩ := List.exists_cons_of_ne_nil hkey
  have hsep : ascii ": " ++ value = 58 :: 32 :: value := rfl
  have htake : (c :: key' ++ 58 :: 32 :: value).takeWhile isLetter = c :: key' := by
    rw [List.takeWhile_append_of_pos hletters, List.takeWhile_cons_of_neg (by decide),
      List.append_nil]
  have hall : value.takeWhile (· ≠ lf) = value := by
    rw [List.takeWhile_eq_self_iff]
    exact fun d hd => decide_eq_true fun h => hlf (h ▸ hd)
  have hdrop : (c :: (key' ++ 58 :: 32 :: value)).drop (c :: key').length =
      58 :: 32 :: value := List.drop_left' rfl
  rw [List.cons_append] at htake
  rw [hsep, List.cons_append, matchHeader, htake, hdrop]
  change (if c :: key' ≠ [] ∧ value.takeWhile (· ≠ lf) ≠ [] then
    some (c :: key', value.takeWhile (· ≠ lf)) else _) = _
  rw [hall, if_pos ⟨hkey, hvalue⟩]

theorem readHeadersLoop_fields (ending : SocketEnd) {fields : List (Bytes × Bytes)}
    (hfields : ∀ f ∈ fields, PlainField f) (rest : Bytes) (headers : Headers) (fuel : ℕ)
    (hfuel : fields.length < fuel) :
    readHeadersLoop ending fuel (headersText fields ++ lf :: rest) headers =
      .ok ((fields.map fun f => (some f.1, some f.2)).reverse ++ headers, rest) := by
  induction fields generalizing headers fuel with
  | nil =>
    obtain ⟨fuel, rfl⟩ : ∃ n, fuel = n + 1 := ⟨fuel - 1, by omega⟩
    have hend := gets_line ending (List.not_mem_nil : lf ∉ []) rest
    rw [readHeadersLoop]
    change (gets ending ([] ++ lf :: rest) >>= _) = _
    rw [hend, ok_bind]
    rfl
  | cons f fields ih =>
    rw [List.forall_mem_cons] at hfields
    rw [List.length_cons] at hfuel
    obtain ⟨fuel, rfl⟩ : ∃ n, fuel = n + 1 := ⟨fuel - 1, by omega⟩
    obtain ⟨key, value⟩ := f
    have hf := hfields.1
    have hkey : lf ∉ key := fun h =>
      isLetter_ne (hf.key_letters _ h) (by decide : isLetter lf = false) rfl
    have hline : lf ∉ key ++ (ascii ": " ++ value) := by
      simp only [List.mem_append, not_or]
      exact ⟨hkey, by decide, hf.value_lf⟩
    have htext : headersText ((key, value) :: fields) ++ lf :: rest =
        (key ++ (ascii ": " ++ value)) ++ lf :: (headersText fields ++ lf :: rest) := by
      simp [headersText_cons, headerLine]
    have hlast : (key ++ (ascii ": " ++ value)).getLast? ≠ some 13 := by
      rw [List.getLast?_append_of_ne_nil _ (by simp [hf.value_ne_nil]),
        List.getLast?_append_of_ne_nil _ hf.value_ne_nil]
      exact hf.value_last
    have hne : (key ++ (ascii ": " ++ value)) ++ [lf] ≠ [lf] := by
      intro h
      exact hf.key_ne_nil (List.append_eq_nil_iff.mp (List.append_left_eq_self.mp h)).1
    rw [htext, readHeadersLoop, gets_line ending hline, ok_bind]
    dsimp only
    rw [if_neg hne, chomp_line hlast, matchHeader_field hf]
    dsimp only [Option.map_some]
    rw [ih hfields.2 _ fuel (by omega)]
    simp

theorem readHeaders_fields (ending : SocketEnd) {fields : List (Bytes × Bytes)}
    (hfields : ∀ f ∈ fields, PlainField f) (rest : Bytes) :
    readHeaders ending (headersText fields ++ lf :: rest) =
      .ok ((fields.map fun f => (some f.1, some f.2)).reverse, rest) := by
  have hlen : fields.length ≤ (headersText fields).length := by
    clear hfields
    induction fields with
    | nil => exact le_rfl
    | cons f fields ih =>
      rw [headersText_cons, List.length_append, List.length_cons]
      simp only [headerLine, List.length_append, List.length_singleton]
      omega
  rw [readHeaders, readHeadersLoop_fields ending hfields, List.append_nil]
  rw [List.length_append]
  omega

theorem digitRun_digits {s : Bytes} (hs : ∀ c ∈ s, isDigit c = true) : digitRun s = s := by
  induction s with
  | nil => rfl
  | cons c s ih =>
    rw [List.forall_mem_cons] at hs
    cases s with
    | nil => rw [digitRun, if_pos hs.1]
    | cons d s =>
      have hd : d ≠ 95 := by
        rintro rfl
        exact absurd (hs.2 95 List.mem_cons_self) (by decide)
      rw [digitRun.eq_def]
      split
      · rename_i heq
        cases heq
      · rename_i heq
        cases heq
      · rename_i heq
        exact absurd (List.cons.inj (List.cons.inj heq).2).1 hd
      · rename_i heq
        obtain ⟨rfl, rfl⟩ := List.cons.inj heq
        rw [if_pos hs.1, ih hs.2]

theorem leadingInteger_decimal (n : ℕ) : leadingInteger (decimal n) = n := by
  have hdigits := isDigit_of_mem_decimal n
  have hradix : ∀ c, isDigit c = false → (decimal n).take 2 ≠ [48, c] := by
    intro c hc h
    have hmem : c ∈ (decimal n).take 2 := by rw [h]; simp
    rw [hdigits c (List.mem_of_mem_take hmem)] at hc
    cases hc
  have hnone : ¬ ((decimal n).take 2 = ascii "0d" ∨ (decimal n).take 2 = ascii "0D") :=
    not_or.mpr ⟨hradix 100 rfl, hradix 68 rfl⟩
  rw [leadingInteger, if_neg hnone, digitRun_digits hdigits, digitsValue_decimal]

/-- `to_i` reads back every integer. -/
theorem toI_decimalInt (z : ℤ) : toI (some (decimalInt z)) = z := by
  obtain ⟨d, s, hs⟩ := List.exists_cons_of_ne_nil (decimal_ne_nil z.natAbs)
  have hd : isDigit d = true :=
    isDigit_of_mem_decimal _ d (by rw [hs]; exact List.mem_cons_self)
  have hrange : 48 ≤ d.toNat ∧ d.toNat ≤ 57 := by simpa [isDigit] using hd
  have hspace : CLib.isspace d = false := by
    simp only [CLib.isspace, decide_eq_false_iff_not]
    omega
  have hvalue := leadingInteger_decimal z.natAbs
  unfold toI decimalInt
  split_ifs with hz
  · change -((leadingInteger (decimal z.natAbs) : ℕ) : ℤ) = z
    rw [hvalue]
    omega
  · dsimp only
    rw [hs] at hvalue ⊢
    rw [List.dropWhile_cons_of_neg (by rw [hspace]; exact Bool.false_ne_true)]
    split
    · rename_i heq
      obtain ⟨rfl, -⟩ := List.cons.inj heq
      exact absurd hrange.1 (by decide)
    · rename_i heq
      obtain ⟨rfl, -⟩ := List.cons.inj heq
      exact absurd hrange.1 (by decide)
    · rw [hvalue]
      omega

theorem toI_decimal (n : ℕ) : toI (some (decimal n)) = n := by
  have h := toI_decimalInt n
  rwa [decimalInt, if_neg (by omega), Int.natAbs_natCast] at h

theorem responseKey_letters : ∀ key ∈ [headerKeyChannel, headerKeySize, headerKeyStatus],
    key ≠ [] ∧ ∀ c ∈ key, isLetter c = true := by
  decide +kernel

theorem plainField_number {key value : Bytes} (hkey : key = headerKeySize ∨ key = headerKeyStatus)
    (hne : value ≠ []) (hchars : ∀ c ∈ value, c = 45 ∨ isDigit c = true) :
    PlainField (key, value) :=
  have hmem : key ∈ [headerKeyChannel, headerKeySize, headerKeyStatus] := by
    rcases hkey with rfl | rfl <;> simp
  { key_ne_nil := (responseKey_letters key hmem).1
    key_letters := (responseKey_letters key hmem).2
    value_ne_nil := hne
    value_lf := fun h => by rcases hchars lf h with h | h <;> exact absurd h (by decide)
    value_last := fun h => by
      rcases hchars 13 (List.mem_of_getLast? h) with h | h <;> exact absurd h (by decide) }

theorem plainField_channel (channel : Channel) : PlainField (headerKeyChannel, channel.name) where
  key_ne_nil := (responseKey_letters _ List.mem_cons_self).1
  key_letters := (responseKey_letters _ List.mem_cons_self).2
  value_ne_nil := by cases channel <;> decide
  value_lf := by cases channel <;> decide
  value_last := by cases channel <;> decide

theorem frame_headers (c : Chunk) (rest : Bytes) :
    frame c ++ rest =
      headersText [(headerKeyChannel, c.1.name), (headerKeySize, decimal c.2.val.length)] ++
        lf :: (c.2.val ++ rest) := by
  have hchannel : ascii "Channel: " = headerKeyChannel ++ ascii ": " := rfl
  have hsize : ascii "Size: " = headerKeySize ++ ascii ": " := rfl
  simp [frame, formatAsResponseHeader_eq, hchannel, hsize, headersText, headerLine]

theorem exit_headers (status : ℤ) (message : Option Bytes) (rest : Bytes) :
    formatAsExitHeader status message ++ rest =
      headersText [(headerKeyStatus, decimalInt status)] ++ lf :: (message.getD [] ++ rest) := by
  have hstatus : ascii "Status: " = headerKeyStatus ++ ascii ": " := rfl
  simp [formatAsExitHeader_eq, hstatus, headersText, headerLine]

theorem socketRead_all (ending : SocketEnd) {data : Bytes} (hdata : data.length < 2 ^ 31)
    (rest : Bytes) :
    socketRead ending (data ++ rest) data.length = .ok (some data, rest) := by
  unfold socketRead
  rw [if_neg (by omega), if_pos (by simp)]
  simp

theorem handleSocket_frame (g : Globals) (ending : SocketEnd) (c : Chunk) {rest : Bytes}
    {s : Session} (hsocket : s.socket = frame c ++ rest) :
    handleSocket g ending s =
      match c.1 with
      | .out => { s with socket := rest, out := s.out ++ c.2.val }
      | .err => { s with socket := rest, err := s.err ++ c.2.val } := by
  obtain ⟨channel, data⟩ := c
  have hfields : ∀ f ∈ [(headerKeyChannel, channel.name), (headerKeySize, decimal data.val.length)],
      PlainField f := by
    simp only [List.forall_mem_cons]
    exact ⟨plainField_channel channel, plainField_number (.inl rfl) (decimal_ne_nil _)
      fun c hc => .inr (isDigit_of_mem_decimal _ c hc),
      List.forall_mem_nil _⟩
  have hread := readHeaders_fields ending hfields (data.val ++ rest)
  rw [handleSocket, hsocket, frame_headers, hread]
  change handleResponse g ending [(some headerKeySize, some (decimal data.val.length)),
    (some headerKeyChannel, some channel.name)] { s with socket := data.val ++ rest } = _
  have hsize : toI (Headers.get [(some headerKeySize, some (decimal data.val.length)),
      (some headerKeyChannel, some channel.name)] headerKeySize) = data.val.length :=
    toI_decimal _
  have hstatus : Headers.get [(some headerKeySize, some (decimal data.val.length)),
      (some headerKeyChannel, some channel.name)] headerKeyStatus = none :=
    rfl
  have hdata := socketRead_all ending data.property rest
  rw [handleResponse, if_neg (List.cons_ne_nil _ _), hstatus]
  simp only [hsize, hdata]
  cases channel <;> rfl

theorem handleSocket_exit (g : Globals) (ending : SocketEnd) (status : JInt)
    (message : Option Bytes) {rest : Bytes} {s : Session}
    (hsocket : s.socket = formatAsExitHeader status message ++ rest) :
    handleSocket g ending s =
      { s with
        socket := message.getD [] ++ rest
        out := s.out ++ statusMessage g status .out
        err := s.err ++ statusMessage g status .err
        ended := some (.exits status) } := by
  have hfields : ∀ f ∈ [(headerKeyStatus, decimalInt status)], PlainField f := by
    simp only [List.forall_mem_singleton]
    exact plainField_number (.inr rfl) (Client.decimalInt_ne_nil _) (Client.decimalInt_chars _)
  have hread := readHeaders_fields ending hfields (message.getD [] ++ rest)
  rw [handleSocket, hsocket, exit_headers, hread]
  change handleResponse g ending [(some headerKeyStatus, some (decimalInt status))]
    { s with socket := message.getD [] ++ rest } = _
  rw [handleResponse, if_neg (List.cons_ne_nil _ _)]
  change Session.exit { s with
      socket := message.getD [] ++ rest
      out := s.out ++ statusMessage g (toI (some (decimalInt status))) .out
      err := s.err ++ statusMessage g (toI (some (decimalInt status))) .err }
    (toI (some (decimalInt status))) = _
  rw [toI_decimalInt, Session.exit, if_pos status.property]
  rfl

def Session.view (s : Session) : ClientView where
  socket := s.socket
  stdin := s.stdin
  out := s.out
  err := s.err
  ended :=
    match s.ended with
    | some (.exits status) => some status
    | _ => none

def sessionTurn (g : Globals) (answers : Answers) (s : Session) : Option (Session × Bytes) :=
  if s.ended.isSome ∨ answers.socketReady ∧ s.socket = [] then none
  else
    let s' := sessionStep g answers s
    some (s', (s'.written.drop s.written.length).flatten)

def sessionClient (g : Globals) : SessionClient Session Answers where
  view := Session.view
  deliver b s := { s with socket := s.socket ++ b }
  turn := sessionTurn g
  epilogue status := statusMessage g status

structure Session.Good (s : Session) : Prop where
  closedStdin : s.closedStdin = false
  ended : s.ended = none ∨ ∃ status, s.ended = some (.exits status)

def Session.Calm (s : Session) (answers : Answers) : Prop :=
  answers.socketReady = false → answers.stdinReady = true →
    s.stdin ≠ [] ∧ ∃ offer, answers.offer = some offer

theorem Session.view_of_none {s : Session} (hs : s.ended = none) :
    s.view = ⟨s.socket, s.stdin, s.out, s.err, none⟩ := by
  rw [Session.view, hs]

theorem Session.ended_of_view {s : Session} (hgood : s.Good) (hs : s.view.ended = none) :
    s.ended = none := by
  rcases hgood.ended with hnone | ⟨status, hstatus⟩
  · exact hnone
  · rw [Session.view, hstatus] at hs
    cases hs

section Turns

variable {g : Globals} {answers : Answers} {s : Session}

theorem sessionTurn_eq {r : Session × Bytes} (h : sessionTurn g answers s = some r) :
    s.ended = none ∧
      r = (sessionStep g answers s,
        ((sessionStep g answers s).written.drop s.written.length).flatten) ∧
      (answers.socketReady = true → s.socket ≠ []) := by
  rw [sessionTurn] at h
  split_ifs at h with hwait
  cases h
  rw [not_or] at hwait
  exact ⟨Option.not_isSome_iff_eq_none.mp hwait.1, rfl, fun hready hnil => hwait.2 ⟨hready, hnil⟩⟩

theorem sessionTurn_of (hended : s.ended = none)
    (hne : answers.socketReady = true → s.socket ≠ []) :
    sessionTurn g answers s = some (sessionStep g answers s,
      ((sessionStep g answers s).written.drop s.written.length).flatten) := by
  have hwait : ¬ (s.ended.isSome ∨ answers.socketReady ∧ s.socket = []) := by
    rw [hended, not_or]
    exact ⟨nofun, fun h => hne h.1 h.2⟩
  rw [sessionTurn, if_neg hwait]

theorem sessionStep_of_socket (hended : s.ended = none) (hready : answers.socketReady = true) :
    sessionStep g answers s = handleSocket g answers.ending s := by
  rw [sessionStep, hended, if_neg nofun, if_pos hready]

theorem sessionStep_of_stdin (hgood : s.Good) (hended : s.ended = none)
    (hsocket : answers.socketReady = false) (hready : answers.stdinReady = true)
    (hne : s.stdin ≠ []) {offer : ℕ} (hoffer : answers.offer = some offer) :
    ∃ batch rest, (sessionStep g answers s).Good ∧ batch ≠ [] ∧
      batch.length ≤ Client.bufferSize ∧ s.stdin = batch ++ rest ∧
      ((sessionStep g answers s).written.drop s.written.length).flatten = stdinFrame batch ∧
      (sessionStep g answers s).view = { s.view with stdin := rest } := by
  have hpos := shortCount_pos offer 512 s.stdin.length
  have hle := shortCount_le offer 512 s.stdin.length (by decide) (List.length_pos_of_ne_nil hne)
  have hstep : sessionStep g answers s = handleStdin (some offer) s := by
    rw [sessionStep, hended, if_neg nofun, hsocket, if_neg Bool.false_ne_true, if_pos hready,
      hoffer]
  rw [hstep, handleStdin, hgood.closedStdin, if_neg Bool.false_ne_true]
  dsimp only
  rw [if_neg hne]
  generalize shortCount offer 512 s.stdin.length = ret at hpos hle ⊢
  have hlen : (s.stdin.take ret).length = ret := by
    rw [List.length_take]
    omega
  refine ⟨s.stdin.take ret, s.stdin.drop ret, ⟨rfl, hgood.ended⟩, ?_, ?_,
    (List.take_append_drop _ _).symm, ?_, ?_⟩
  · exact List.ne_nil_of_length_pos (by rw [hlen]; exact hpos)
  · rw [hlen, Client.bufferSize]
    omega
  · rw [List.drop_left]
    simp [stdinFrame, Client.streamRequestHeader]
  · rw [hlen, Session.view_of_none hended]
    exact Session.view_of_none hended

theorem sessionStep_idle (hended : s.ended = none) (hsocket : answers.socketReady = false)
    (hready : answers.stdinReady = false) : sessionStep g answers s = s := by
  rw [sessionStep, hended, if_neg nofun, hsocket, if_neg Bool.false_ne_true, hready,
    if_neg Bool.false_ne_true]

theorem handleSocket_display (ending : SocketEnd) {c : Chunk} {cs : List Chunk}
    {exited : Option JInt} (hgood : s.Good) (hended : s.ended = none)
    (hsocket : s.socket = responses (c :: cs) exited) :
    (handleSocket g ending s).Good ∧ (handleSocket g ending s).written = s.written ∧
      (handleSocket g ending s).view =
        { s.view.show c with socket := responses cs exited } := by
  rw [Client.responses_cons] at hsocket
  have hframe := handleSocket_frame g ending c hsocket
  obtain ⟨channel, data⟩ := c
  rw [hframe, Session.view_of_none hended]
  cases channel
  · exact ⟨⟨hgood.closedStdin, hgood.ended⟩, rfl, Session.view_of_none hended⟩
  · exact ⟨⟨hgood.closedStdin, hgood.ended⟩, rfl, Session.view_of_none hended⟩

theorem handleSocket_finish (ending : SocketEnd) {status : JInt} (hgood : s.Good)
    (hsocket : s.socket = responses [] (some status)) :
    (handleSocket g ending s).Good ∧ (handleSocket g ending s).written = s.written ∧
      (handleSocket g ending s).view =
        s.view.finish (sessionClient g).epilogue status [] := by
  have hsocket' : s.socket = formatAsExitHeader status none ++ [] := by
    rw [hsocket, List.append_nil]
    rfl
  rw [handleSocket_exit g ending status none hsocket']
  exact ⟨⟨hgood.closedStdin, .inr ⟨status, rfl⟩⟩, rfl, rfl⟩

theorem flatten_drop_written {t : Session} (h : t.written = s.written) :
    (t.written.drop s.written.length).flatten = [] := by
  rw [h, List.drop_length, List.flatten_nil]

theorem sessionStep_lawful {chunks : List Chunk} {exited : Option JInt} (hgood : s.Good)
    (hcalm : s.Calm answers) (hended : s.ended = none)
    (hwait : answers.socketReady = true → s.socket ≠ [])
    (hsocket : s.socket = responses chunks exited) :
    (sessionStep g answers s).Good ∧
      Turn (sessionClient g).epilogue chunks exited s.view (sessionStep g answers s).view
        ((sessionStep g answers s).written.drop s.written.length).flatten := by
  cases hready : answers.socketReady with
  | true =>
    rw [sessionStep_of_socket hended hready]
    rcases Client.responses_ne_nil (hsocket ▸ hwait hready) with
      ⟨c, cs, rfl⟩ | ⟨rfl, status, rfl⟩
    · obtain ⟨hgood', hwritten, hview⟩ :=
        handleSocket_display (g := g) answers.ending hgood hended hsocket
      rw [flatten_drop_written hwritten, hview]
      exact ⟨hgood', .display c cs rfl⟩
    · obtain ⟨hgood', hwritten, hview⟩ :=
        handleSocket_finish (g := g) answers.ending hgood hsocket
      rw [flatten_drop_written hwritten, hview]
      exact ⟨hgood', .finish status [] rfl rfl⟩
  | false =>
    cases hstdin : answers.stdinReady with
    | true =>
      obtain ⟨hne, offer, hoffer⟩ := hcalm hready hstdin
      obtain ⟨batch, rest, hgood', hbatch, hlen, hsplit, hwritten, hview⟩ :=
        sessionStep_of_stdin (g := g) hgood hended hready hstdin hne hoffer
      rw [hwritten, hview]
      exact ⟨hgood', .send batch rest hbatch hlen hsplit⟩
    | false =>
      rw [sessionStep_idle hended hready hstdin, flatten_drop_written rfl]
      exact ⟨hgood, .idle⟩

end Turns

def stdinAnswers : Answers := ⟨false, true, .waiting, some 512⟩

def socketAnswers : Answers := ⟨true, false, .waiting, none⟩

/-- The Ruby client keeps to the laws. -/
theorem sessionClient_laws (g : Globals) :
    ClientLaws (sessionClient g) Session.Good Session.Calm where
  view_deliver b s := rfl
  good_deliver b s h := ⟨h.closedStdin, h.ended⟩
  running := by
    intro answers s s' written h
    change s.view.ended = none
    rw [Session.view_of_none (sessionTurn_eq h).1]
  lawful := by
    intro answers s s' written chunks exited hgood hcalm h hsocket
    obtain ⟨hended, heq, hwait⟩ := sessionTurn_eq h
    obtain ⟨rfl, rfl⟩ := Prod.mk.inj heq
    exact sessionStep_lawful hgood hcalm hended hwait hsocket
  sends := by
    intro s hgood hended hne
    have hended := Session.ended_of_view hgood hended
    have hsocket : stdinAnswers.socketReady = false := rfl
    obtain ⟨batch, rest, hgood', hbatch, hlen, hsplit, hwritten, hview⟩ :=
      sessionStep_of_stdin hgood hended hsocket rfl hne rfl
    refine ⟨stdinAnswers, _, batch, rest, hgood', fun _ _ => ⟨hne, 512, rfl⟩,
      hbatch, hlen, hsplit, ?_, hview⟩
    change sessionTurn g _ s = _
    rw [sessionTurn_of hended fun h => absurd h Bool.false_ne_true, hwritten]
  displays := by
    intro s c cs exited hgood hended hsocket
    have hended := Session.ended_of_view hgood hended
    have hne : s.socket ≠ [] := by
      change s.socket = _ at hsocket
      rw [hsocket, Client.responses_cons]
      simp [Client.frame_ne_nil]
    obtain ⟨hgood', hwritten, hview⟩ :=
      handleSocket_display (g := g) socketAnswers.ending hgood hended hsocket
    refine ⟨socketAnswers, _, hgood', nofun, ?_, hview⟩
    change sessionTurn g _ s = _
    rw [sessionTurn_of hended fun _ => hne, sessionStep_of_socket hended rfl,
      flatten_drop_written hwritten]
  finishes := by
    intro s status hgood hended hsocket
    have hended := Session.ended_of_view hgood hended
    have hne : s.socket ≠ [] := by
      change s.socket = _ at hsocket
      rw [hsocket]
      simp [responses, Client.formatAsExitHeader_ne_nil]
    obtain ⟨hgood', hwritten, hview⟩ :=
      handleSocket_finish (g := g) socketAnswers.ending hgood hsocket
    refine ⟨socketAnswers, _, [], hgood', nofun, ?_, hview⟩
    change sessionTurn g _ s = _
    rw [sessionTurn_of hended fun _ => hne, sessionStep_of_socket hended rfl,
      flatten_drop_written hwritten]

def startSession (stdin : Bytes) : Session := { socket := [], stdin := stdin }

theorem rubyClient_start (g : Globals) {σ : Type} (stdin : Bytes) (state : σ) :
    Wire.Carries (sessionClient g) Session.Good { state := state, unsent := stdin }
      (Wire.start (startSession stdin) state) :=
  Wire.carries_start ⟨rfl, .inl rfl⟩ rfl state

variable {σ : Type} (p : ScriptProgram σ) (state : InvocationRequest → σ)

/-- What the Ruby client sends has the worker start the handlers for the invocation. Then,
in whatever order the steps are taken, the client shows the beginning of what the script
writes when it is run beside the user; it exits with the script's status, after it has
shown everything and added what it has to say itself. The session never gets stuck before
that, if the script ends beside the user. -/
theorem ruby_script_shows (g : Globals) {files : Files} {args : List Bytes} (a : Accepted)
    (inv : Client.Invocation) (hsame : SameInvocation g files args inv) {cwd : Bytes}
    (hplain : inv.Plain cwd) (hadmits : a.Admits inv.authtoken) (stdin : Bytes) :
    ∃ lines request, sendCommand g files cwd args = .ok lines ∧ request.args = args ∧
      (∀ rest, openSession { a with bytes := commandText lines ++ rest } = .ok (request, rest) ∧
        runRequestWorker { a with bytes := commandText lines ++ rest } = handleRequest request) ∧
      ∀ ls w,
        let M := Wire.system (sessionClient g) p
        let w₀ := Wire.start (startSession stdin) (state request)
        M.run w₀ ls = some w → M.StepsMeet (Wire.Calm Session.Calm) w₀ ls →
        (∃ l, Local.Runs p { state := state request, input := stdin } l ∧
          ((w.client.ended = none ∧ w.client.out <+: channelBytes .out l.written ∧
              w.client.err <+: channelBytes .err l.written) ∨
            ∃ status, l.status = some status ∧ w.client.ended = some (.exits status) ∧
              w.client.out = channelBytes .out l.written ++ statusMessage g status .out ∧
              w.client.err = channelBytes .err l.written ++ statusMessage g status .err)) ∧
        ∀ l status, Local.Runs p { state := state request, input := stdin } l →
          l.status = some status → ∃ w', M.Reaches (Wire.Calm Session.Calm) w w' ∧
            w'.client.view.ended = some status.val := by
  obtain ⟨lines, hlines, hread⟩ := readInvocationRequest_text hsame hplain
  refine ⟨lines, receivedRequest inv cwd a.server.authToken a.socket, hlines, hsame.args,
    fun rest => worker_of_text a inv hplain hadmits rest (hread _ _ _ _ _ rest), ?_⟩
  intro ls w M w₀ hrun hcalm
  have hstart := rubyClient_start g stdin
    (state (receivedRequest inv cwd a.server.authToken a.socket))
  constructor
  · obtain ⟨q, hq, htold, hruns⟩ := (Wire.serves (sessionClient_laws g)).safe hstart
      (Queued.told_of_none rfl) hrun hcalm
    have hshows := hq.shows htold
    refine ⟨q.toLocal, hruns, ?_⟩
    rcases hq.good.ended with hnone | ⟨z, hz⟩
    · exact .inl ⟨hnone, hshows.running (by
        change w.client.view.ended = _
        rw [Session.view_of_none hnone])⟩
    · obtain ⟨status, rfl, hlocal, hout, herr⟩ := hshows.ended z (by
        change w.client.view.ended = _
        rw [Session.view, hz])
      exact .inr ⟨status, hlocal, hz, hout, herr⟩
  · intro l status hruns hstatus
    obtain ⟨w', hreach, hended, -, -⟩ := Wire.completes_of_run (sessionClient_laws g) hstart
      (Queued.told_of_none rfl) hrun hcalm hruns hstatus
    exact ⟨w', hreach, hended⟩

theorem ruby_script_shows_sample :
    ∃ lines request, sendCommand sampleGlobals (fun _ => none) (ascii "/tmp")
        [[], [97, 10, 58, 200]] = .ok lines ∧
      request.args = [[], [97, 10, 58, 200]] ∧
      ∀ rest, runRequestWorker { sampleAccepted with bytes := commandText lines ++ rest } =
        handleRequest request := by
  have hplain : sampleInvocation.Plain (ascii "/tmp") :=
    { cwd := by decide +kernel
      authtoken := by decide +kernel
      envVars := by decide +kernel
      classpath := by decide +kernel }
  obtain ⟨lines, request, hlines, hargs, hworker, -⟩ :=
    ruby_script_shows firstByte (fun _ => (none, false)) sampleGlobals sampleAccepted
      sampleInvocation sampleGlobals_same hplain sampleAccepted_admits (ascii "hello")
  exact ⟨lines, request, hlines, hargs, fun rest => (hworker rest).2⟩

/-- Two sessions of one script that have come to their ends, one with each client, have
ended alike, but for what the Ruby client adds. -/
theorem clients_agree (g : Globals) {headers : List Client.Header}
    (hheaders : headers.length = Client.maxHeader) (stdin : Bytes) (s₀ : σ)
    {ls : List (WireStep Client.System)} {w : Wire Client.Session σ}
    (hrun : (Wire.system Client.sessionClient p).run
      (Wire.start (Client.startSession headers [] stdin) s₀) ls = some w)
    (hcalm : (Wire.system Client.sessionClient p).StepsMeet (Wire.Calm Client.Session.Calm)
      (Wire.start (Client.startSession headers [] stdin) s₀) ls)
    {ls' : List (WireStep Answers)} {w' : Wire Session σ}
    (hrun' : (Wire.system (sessionClient g) p).run (Wire.start (startSession stdin) s₀) ls' =
      some w')
    (hcalm' : (Wire.system (sessionClient g) p).StepsMeet (Wire.Calm Session.Calm)
      (Wire.start (startSession stdin) s₀) ls')
    {z : ℤ} (hended : w.client.view.ended = some z) (hended' : w'.client.ended.isSome = true) :
    w'.client.ended = some (.exits z) ∧
      w'.client.out = w.client.out ++ statusMessage g z .out ∧
      w'.client.err = w.client.err ++ statusMessage g z .err := by
  obtain ⟨l, hl, hshows⟩ := Wire.shows_of_run Client.sessionClient_laws
    (sessionClient_start hheaders stdin s₀) (Queued.told_of_none rfl) hrun hcalm
  obtain ⟨q, hq, htold, hl'⟩ := (Wire.serves (sessionClient_laws g)).safe
    (rubyClient_start g stdin s₀) (Queued.told_of_none rfl) hrun' hcalm'
  obtain ⟨status, rfl, hstatus, hout, herr⟩ := hshows.ended z hended
  obtain ⟨z', hz'⟩ : ∃ z', w'.client.ended = some (.exits z') := by
    rcases hq.good.ended with hnone | hsome
    · rw [hnone] at hended'
      cases hended'
    · exact hsome
  have hview : ((sessionClient g).view w'.client).ended = some z' := by
    change w'.client.view.ended = _
    rw [Session.view, hz']
  obtain ⟨status', rfl, hstatus', hout', herr'⟩ := (hq.shows htold).ended z' hview
  obtain rfl : q.toLocal = l := by
    rcases hl.total hl' with h | h
    · exact h.eq_of_status hstatus
    · exact (h.eq_of_status hstatus').symm
  obtain rfl : status = status' := Option.some.inj (hstatus.symm.trans hstatus')
  refine ⟨hz', ?_, ?_⟩
  · exact hout'.trans (congrArg (· ++ _) (hout.trans (List.append_nil _)).symm)
  · exact herr'.trans (congrArg (· ++ _) (herr.trans (List.append_nil _)).symm)

theorem clients_agree_firstByte :
    ∃ (w : Wire Client.Session (Option UInt8 × Bool)) (w' : Wire Session (Option UInt8 × Bool)),
      w.client.view.ended = some 104 ∧ w'.client.ended = some (.exits 104) ∧
      w'.client.out = w.client.out ++ statusMessage sampleGlobals 104 .out ∧
      w'.client.err = w.client.err ++ statusMessage sampleGlobals 104 .err := by
  have hheaders : (List.replicate Client.maxHeader blankHeader).length = Client.maxHeader :=
    List.length_replicate
  obtain ⟨w, ⟨ls, hrun, hcalm⟩, hended, -, -⟩ :=
    Wire.completes_of_run Client.sessionClient_laws
      (sessionClient_start hheaders (ascii "hello") (none, false)) (Queued.told_of_none rfl)
      (StepSystem.run_nil _ _) trivial firstByte_runs rfl
  obtain ⟨w', ⟨ls', hrun', hcalm'⟩, hended', -, -⟩ :=
    Wire.completes_of_run (sessionClient_laws sampleGlobals)
      (rubyClient_start sampleGlobals (ascii "hello") (none, false)) (Queued.told_of_none rfl)
      (StepSystem.run_nil _ _) trivial firstByte_runs rfl
  have hsome : w'.client.ended.isSome = true := by
    cases hnone : w'.client.ended with
    | none =>
      change w'.client.view.ended = _ at hended'
      rw [Session.view_of_none hnone] at hended'
      cases hended'
    | some stop => rfl
  obtain ⟨hexits, hout, herr⟩ := clients_agree firstByte sampleGlobals hheaders (ascii "hello")
    (none, false) hrun hcalm hrun' hcalm' hended hsome
  exact ⟨w, w', hended, hexits, hout, herr⟩

end GroovyServ.RubyClient

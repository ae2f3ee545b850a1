import GroovyServ.HeaderMapRoundTrip

/-!
# The client in Groovy

`GroovyClient` keeps the last exit status that it has read, and both waits for it and
hands it out. Its operations are those of the class; what they write is not part of
the client's state and is left out. The server sends whole responses, and a poll finds
as much of them as has arrived, also a part of one. What it finds becomes a text and
then bytes again: `recode` is what the default charset makes of bytes in doing so.
`connections`, `commands` and `sent` are recorded for the statements only: no operation
looks at them.
-/

namespace GroovyServ

open Lines Server

inductive Response where
  | stream (channel : Channel) (data : JByteArray)
  | exit (status : JInt) (message : Option Bytes)

def Response.text : Response → Bytes
  | stream channel data => formatAsResponseHeader channel data.val.length ++ data.val
  | exit status message => formatAsExitHeader status message

def responsesText (responses : List Response) : Bytes := responses.flatMap Response.text

/-- What the server has sent and the client has not read, but for the first bytes of the
first response. -/
structure Connection where
  pending : List Response
  skew : ℕ

/-- `run`, `interrupt`, `shutdown` and `ping` differ only in what they write. -/
inductive GroovyClient.Command where
  | run
  | interrupt
  | shutdown
  | ping
  deriving DecidableEq

/-- A client without a connection has no socket, or a closed one. `connections` counts the
connections that were made, `commands` and `sent` are what the client and the server have
sent on the last of them, and `waited` is whether `waitForExit` has just returned. -/
structure GroovyClient where
  connection : Option Connection := none
  outBytes : Bytes := []
  errBytes : Bytes := []
  exitStatus : Option ℤ := none
  connections : ℕ := 0
  commands : List GroovyClient.Command := []
  sent : List Response := []
  waited : Bool := false

inductive Ended where
  | returned
  | threw
  deriving DecidableEq

/-- What arrives before a poll, and how much of it the poll finds: a number of whole
responses, and some bytes of the next one. -/
structure Poll where
  arrived : List Response
  count : ℕ
  extra : ℕ

/-- The end of what a poll finds, from the start of the first response on. -/
def Poll.upTo (poll : Poll) (pending : List Response) : ℕ :=
  (responsesText (pending.take poll.count)).length + poll.extra

/-- Whether a poll can find so much: not less than what is read, and of the next response
not all. -/
def Poll.Possible (poll : Poll) (conn : Connection) : Prop :=
  poll.count ≤ conn.pending.length ∧ conn.skew ≤ poll.upTo conn.pending ∧
    poll.extra < ((conn.pending[poll.count]?).map fun r => r.text.length).getD 1

instance (poll : Poll) (conn : Connection) : Decidable (poll.Possible conn) :=
  inferInstanceAs (Decidable (_ ∧ _ ∧ _))

namespace GroovyClient

def isConnected (c : GroovyClient) : Bool := c.connection.isSome

def receive (c : GroovyClient) (responses : List Response) : GroovyClient :=
  match c.connection with
  | none => c
  | some conn =>
    { c with
      connection := some { conn with pending := conn.pending ++ responses }
      sent := c.sent ++ responses }

/-- Without an authtoken file, or when the server does not accept, nothing is connected. -/
def connect (accepted : Bool) (c : GroovyClient) : GroovyClient × Ended :=
  if c.isConnected then (c, .threw)
  else if accepted then
    ({ c with
      connection := some ⟨[], 0⟩, connections := c.connections + 1, commands := [], sent := [] },
      .returned)
  else (c, .threw)

def disconnect (c : GroovyClient) : GroovyClient := { c with connection := none }

/-- `checkActive` and the write of a command, which may fail. -/
def send (command : Command) (written : Bool) (c : GroovyClient) : GroovyClient × Ended :=
  if c.isConnected then
    if written then ({ c with commands := c.commands ++ [command] }, .returned) else (c, .threw)
  else (c, .threw)

def ping (written : Bool) (c : GroovyClient) : GroovyClient × Ended := c.send .ping written

def input (written : Bool) (c : GroovyClient) : GroovyClient × Ended :=
  if c.isConnected ∧ written then (c, .returned) else (c, .threw)

def clearBuffer (c : GroovyClient) : GroovyClient :=
  { c with outBytes := [], errBytes := [], exitStatus := none }

def channelOf (headers : HeaderMap) : Option Channel :=
  if headers.first headerKeyChannel = some Channel.out.name then some .out
  else if headers.first headerKeyChannel = some Channel.err.name then some .err
  else none

def intHeader (headers : HeaderMap) (key : Bytes) : Option ℤ :=
  (headers.first key).bind fun value => parseInteger (trim value)

/-- `ClientProtocols.readBody` on bytes in memory, which has nothing to read at their end;
`none` where it throws. -/
def readBody (ins : Bytes) (size : ℤ) : Option (Bytes × Bytes) :=
  if size < 0 ∨ ins = [] ∨ (ins.length : ℤ) < size then none
  else some (ins.take size.toNat, ins.drop size.toNat)

def addBytes (c : GroovyClient) (channel : Channel) (body : Bytes) : GroovyClient :=
  match channel with
  | .out => { c with outBytes := c.outBytes ++ body }
  | .err => { c with errBytes := c.errBytes ++ body }

/-- The loop over the headers in a text. Each turn but the last takes a byte, so their
number is fuel enough. -/
def readResponses : ℕ → Bytes → GroovyClient → GroovyClient × Ended
  | 0, _, c => (c, .threw)
  | fuel + 1, text, c =>
    match parseHeaders .eof text with
    | .error _ => (c, .threw)
    | .ok (headers, rest) =>
      if headers = [] then (c, .returned)
      else
        match channelOf headers with
        | some channel =>
          match (intHeader headers headerKeySize).bind (readBody rest) with
          | none => (c, .threw)
          | some (body, rest) => readResponses fuel rest (c.addBytes channel body)
        | none =>
          if headers.first headerKeyStatus = none then readResponses fuel rest c
          else
            match intHeader headers headerKeyStatus with
            | none => (c, .threw)
            | some status => readResponses fuel rest { c with exitStatus := some status }

theorem length_readBody_le {ins body rest : Bytes} {size : ℤ}
    (h : readBody ins size = some (body, rest)) : rest.length ≤ ins.length := by
  rw [readBody] at h
  split_ifs at h
  obtain ⟨-, rfl⟩ := Prod.mk.inj (Option.some.inj h)
  rw [List.length_drop]
  exact Nat.sub_le _ _

/-- More fuel than there are bytes makes no difference. -/
theorem readResponses_of_lt {fuel fuel' : ℕ} {text : Bytes} (h : text.length < fuel)
    (h' : text.length < fuel') (c : GroovyClient) :
    readResponses fuel text c = readResponses fuel' text c := by
  induction fuel generalizing fuel' text c with
  | zero => omega
  | succ fuel ih =>
    obtain ⟨fuel', rfl⟩ : ∃ n, fuel' = n + 1 := ⟨fuel' - 1, by omega⟩
    rw [readResponses, readResponses]
    cases hparse : parseHeaders .eof text with
    | error stop => rfl
    | ok r =>
      obtain ⟨headers, rest⟩ := r
      dsimp only
      by_cases hnil : headers = []
      · rw [if_pos hnil, if_pos hnil]
      have hrest := length_parseHeaders_lt hparse hnil
      have hnext : ∀ rest' c', rest'.length ≤ rest.length →
          readResponses fuel rest' c' = readResponses fuel' rest' c' :=
        fun rest' c' hle => ih (by omega) (by omega) c'
      rw [if_neg hnil, if_neg hnil]
      cases channelOf headers with
      | some channel =>
        dsimp only
        cases hbody : (intHeader headers headerKeySize).bind (readBody rest) with
        | none => rfl
        | some r =>
          obtain ⟨size, -, hread⟩ := Option.bind_eq_some_iff.mp hbody
          exact hnext r.2 _ (length_readBody_le hread)
      | none =>
        dsimp only
        by_cases hstatus : headers.first headerKeyStatus = none
        · rw [if_pos hstatus, if_pos hstatus]
          exact hnext rest c le_rfl
        · rw [if_neg hstatus, if_neg hstatus]
          cases intHeader headers headerKeyStatus with
          | none => rfl
          | some status => exact hnext rest _ le_rfl

def readAvailableText (conn : Connection) (poll : Poll) : Bytes :=
  ((responsesText conn.pending).take (poll.upTo conn.pending)).drop conn.skew

def handleText (text : Bytes) (c : GroovyClient) : GroovyClient × Ended :=
  if text = [] then (c, .returned)
  else
    match readResponses (text.length + 1) text c with
    | (c, .threw) => (c, .threw)
    | (c, .returned) =>
      (if c.exitStatus.any (· ≠ 0) then c.disconnect else c, .returned)

/-- `readAllAsPossible`, when something arrives before; `none` if the poll is impossible. -/
def readAllAsPossible (recode : Bytes → Bytes) (poll : Poll) (c : GroovyClient) :
    Option (GroovyClient × Ended) :=
  let c := c.receive poll.arrived
  match c.connection with
  | none => some (c, .threw)
  | some conn =>
    if poll.Possible conn then
      some (handleText (recode (readAvailableText conn poll))
        { c with connection := some ⟨conn.pending.drop poll.count, poll.extra⟩ })
    else none

def waitLoop (recode : Bytes → Bytes) (arrived : GroovyClient → Bool) :
    List Poll → GroovyClient → Option (GroovyClient × Ended)
  | [], c => if arrived c then some (c, .returned) else none
  | poll :: polls, c =>
    if arrived c then none
    else
      match c.readAllAsPossible recode poll with
      | none => none
      | some (c, .threw) => if polls = [] then some (c, .threw) else none
      | some (c, .returned) => waitLoop recode arrived polls c

def waitForResponse (recode : Bytes → Bytes) (polls : List Poll) (c : GroovyClient) :
    Option (GroovyClient × Ended) :=
  waitLoop recode (fun c => c.exitStatus.isSome || c.outBytes ≠ [] || c.errBytes ≠ []) polls c

def waitForExit (recode : Bytes → Bytes) (polls : List Poll) (c : GroovyClient) :
    Option (GroovyClient × Ended) :=
  (waitLoop recode (fun c => c.exitStatus.isSome) polls c).map fun (c, ended) =>
    ({ c with waited := decide (ended = .returned) }, ended)

/-- `isServerAvailable`, which ends without a connection whatever happens. -/
def isServerAvailable (recode : Bytes → Bytes) (accepted written : Bool) (polls : List Poll)
    (c : GroovyClient) : Option GroovyClient :=
  match if c.isConnected then (c, .returned) else c.connect accepted with
  | (c, .threw) => some c.disconnect
  | (c, .returned) =>
    match c.ping written with
    | (c, .threw) => some c.disconnect
    | (c, .returned) => (c.waitForExit recode polls).map fun (c, _) => c.disconnect

inductive Step where
  | receive (responses : List Response)
  | connect (accepted : Bool)
  | disconnect
  | send (command : Command) (written : Bool)
  | input (written : Bool)
  | clearBuffer
  | waitForResponse (polls : List Poll)
  | waitForExit (polls : List Poll)
  | isServerAvailable (accepted written : Bool) (polls : List Poll)

def step (recode : Bytes → Bytes) (c : GroovyClient) (s : Step) : Option GroovyClient :=
  let c := { c with waited := false }
  match s with
  | .receive responses => some (c.receive responses)
  | .connect accepted => some (c.connect accepted).1
  | .disconnect => some c.disconnect
  | .send command written => some (c.send command written).1
  | .input written => some (c.input written).1
  | .clearBuffer => some c.clearBuffer
  | .waitForResponse polls => (c.waitForResponse recode polls).map Prod.fst
  | .waitForExit polls => (c.waitForExit recode polls).map Prod.fst
  | .isServerAvailable accepted written polls =>
    c.isServerAvailable recode accepted written polls

end GroovyClient
end GroovyServ

import GroovyServ.OptionParse
import GroovyServ.SendHeader

/-!
# The session of the Ruby client

`readHeaders`, `handleSocket`, `handleStdin` and `sessionTurn` follow `read_headers`,
`handle_socket`, `handle_stdin` and the body of the loop of `session`. A socket reads and
writes binary strings, so the regular expression is matched against any bytes. What a
read finds where the bytes end is given, and so is what `IO.select` and
`read_nonblock` answer.
-/

namespace GroovyServ.RubyClient

/-- What the socket has where its bytes end. -/
inductive SocketEnd where
  | eof
  | waiting
  | reset
  deriving DecidableEq

/-- Why a method does not return: it waits, `exit` is called, the connection is reset, or
another exception is raised. -/
inductive SessionStop where
  | waits
  | exits (status : ℤ)
  | connectionReset
  | raises
  deriving DecidableEq

def gets (ending : SocketEnd) (bytes : Bytes) : Except SessionStop (Option Bytes × Bytes) :=
  if lf ∈ bytes then
    .ok (some (bytes.takeWhile (· ≠ lf) ++ [lf]), (bytes.dropWhile (· ≠ lf)).tail)
  else
    match ending with
    | .eof => .ok (if bytes = [] then none else some bytes, [])
    | .waiting => .error .waits
    | .reset => .error .connectionReset

def dropLastByte (c : UInt8) (s : Bytes) : Bytes := if s.getLast? = some c then s.dropLast else s

/-- `String#chomp!`: a line feed goes with a carriage return before it. -/
def chomp (s : Bytes) : Bytes := dropLastByte 13 (dropLastByte lf s)

def isLetter (c : UInt8) : Bool :=
  decide (65 ≤ c.toNat ∧ c.toNat ≤ 90) || decide (97 ≤ c.toNat ∧ c.toNat ≤ 122)

/-- `([a-zA-Z]+): (.+)` from the first place where it matches: the letters there are all
that stand before the colon. -/
def matchHeader : Bytes → Option (Bytes × Bytes)
  | [] => none
  | c :: s =>
    let key := (c :: s).takeWhile isLetter
    match (c :: s).drop key.length with
    | 58 :: 32 :: rest =>
      let v := rest.takeWhile (· ≠ lf)
      if key ≠ [] ∧ v ≠ [] then some (key, v) else matchHeader s
    | _ => matchHeader s

/-- A hash, the last insertion first; a key or a value may be `nil`. -/
abbrev Headers := List (Option Bytes × Option Bytes)

def Headers.get (headers : Headers) (key : Bytes) : Option Bytes :=
  (headers.lookup (some key)).join

/-- The loop of `read_headers`. Each turn but the last takes a byte, so their number is
fuel enough. -/
def readHeadersLoop (ending : SocketEnd) : ℕ → Bytes → Headers →
    Except SessionStop (Headers × Bytes)
  | 0, _, _ => .error .waits
  | fuel + 1, bytes, headers => do
    let (line, rest) ← gets ending bytes
    match line with
    | none => .ok (headers, rest)
    | some line =>
      if line = [lf] then .ok (headers, rest)
      else
        let found := matchHeader (chomp line)
        readHeadersLoop ending fuel rest ((found.map Prod.fst, found.map Prod.snd) :: headers)

def readHeaders (ending : SocketEnd) (bytes : Bytes) : Except SessionStop (Headers × Bytes) :=
  readHeadersLoop ending (bytes.length + 1) bytes []

/-- Digits, where an underscore may stand between two of them. -/
def digitRun : Bytes → Bytes
  | [] => []
  | [c] => if isDigit c then [c] else []
  | c :: 95 :: s =>
    if isDigit c then if (s.head?.any isDigit) then c :: digitRun s else [c] else []
  | c :: s => if isDigit c then c :: digitRun s else []

/-- The value of the digits, which `0d` may stand before. -/
def leadingInteger (s : Bytes) : ℕ :=
  digitsValue (digitRun (if s.take 2 = ascii "0d" ∨ s.take 2 = ascii "0D" then s.drop 2 else s))

def toI : Option Bytes → ℤ
  | none => 0
  | some s =>
    match s.dropWhile CLib.isspace with
    | 45 :: s => -(leadingInteger s : ℤ)
    | 43 :: s => leadingInteger s
    | s => leadingInteger s

def socketRead (ending : SocketEnd) (bytes : Bytes) (length : ℤ) :
    Except SessionStop (Option Bytes × Bytes) :=
  if length < 0 ∨ 2 ^ 63 ≤ length then .error .raises
  else if length ≤ bytes.length then
    .ok (some (bytes.take length.toNat), bytes.drop length.toNat)
  else
    match ending with
    | .eof => .ok (if bytes = [] then none else some bytes, [])
    | .waiting => .error .waits
    | .reset => .error .connectionReset

def puts (s : Bytes) : Bytes := if s.getLast? = some lf then s else s ++ [lf]

structure Globals where
  environ : List Bytes
  options : Options

namespace Globals

def host (g : Globals) : Bytes :=
  (g.options.client.host.getD
    (some ((Client.getenv g.environ (ascii "GROOVYSERV_HOST")).getD (ascii "localhost")))).getD []

def port (g : Globals) : Bytes :=
  g.options.client.port.getD
    ((Client.getenv g.environ (ascii "GROOVYSERV_PORT")).getD (ascii "1961"))

end Globals

def versionMessage : Bytes := ascii "GroovyServ Version: Client: @GROOVYSERV_VERSION@ (.ruby)"

def usage : Bytes := [lf].intercalate (List.map ascii
  ["usage: groovyclient.rb -C[option for groovyclient] [args/options for groovy]",
    "options:",
    "  -Ch,-Chelp                       show this usage",
    "  -Cs,-Chost                       specify the host to connect to groovyserver",
    "  -Cp,-Cport <port>                specify the port to connect to groovyserver",
    "  -Ca,-Cauthtoken <authtoken>      specify the authtoken",
    "  -Ck,-Ckill-server                kill the running groovyserver",
    "  -Cr,-Crestart-server             restart the running groovyserver",
    "  -Cq,-Cquiet                      suppress statring messages",
    "  -Cenv <substr>                   pass environment variables of which a name",
    "                                   includes specified substr",
    "  -Cenv-all                        pass all environment variables",
    "  -Cenv-exclude <substr>           don't pass environment variables of which a",
    "                                   name includes specified substr",
    "  -Cv,-Cversion                    display the GroovyServ version",
    ""])

def errorInvalidAuthtoken : ℤ := 201

def errorClientNotAllowed : ℤ := 202

structure Session where
  socket : Bytes
  stdin : Bytes
  closedStdin : Bool := false
  out : Bytes := []
  err : Bytes := []
  written : List Bytes := []
  ended : Option SessionStop := none

def statusMessage (g : Globals) (status : ℤ) : Channel → Bytes
  | .out =>
    (if g.options.server.help then lf :: usage else []) ++
      (if g.options.server.version then puts versionMessage else [])
  | .err =>
    if status = errorInvalidAuthtoken then puts (ascii "ERROR: invalid authtoken")
    else if status = errorClientNotAllowed then
      puts (ascii "ERROR: client address not allowed: " ++ (g.host ++ 58 :: g.port))
    else []

namespace Session

def stop (s : Session) (stop : SessionStop) : Session := { s with ended := some stop }

/-- `exit status`, for which only an `int` will do. -/
def exit (s : Session) (status : ℤ) : Session :=
  s.stop (if -2 ^ 31 ≤ status ∧ status < 2 ^ 31 then .exits status else .raises)

end Session

def handleResponse (g : Globals) (ending : SocketEnd) (headers : Headers) (s : Session) :
    Session :=
  if headers = [] then s.exit 1
  else
    match headers.get headerKeyStatus with
    | some status =>
      let statusCode := toI (some status)
      { s with
        out := s.out ++ statusMessage g statusCode .out
        err := s.err ++ statusMessage g statusCode .err }.exit statusCode
    | none =>
      match socketRead ending s.socket (toI (headers.get headerKeySize)) with
      | .error stop => s.stop stop
      | .ok (none, rest) => { s with socket := rest }
      | .ok (some data, rest) =>
        if headers.get headerKeyChannel = some (ascii "out") then
          { s with socket := rest, out := s.out ++ data }
        else if headers.get headerKeyChannel = some (ascii "err") then
          { s with socket := rest, err := s.err ++ data }
        else { s with socket := rest }

def handleSocket (g : Globals) (ending : SocketEnd) (s : Session) : Session :=
  match readHeaders ending s.socket with
  | .error stop => s.stop stop
  | .ok (headers, rest) => handleResponse g ending headers { s with socket := rest }

/-- `handle_stdin`; `offer` is how many bytes `read_nonblock` finds, if it does not raise
anything but the end of the file. -/
def handleStdin (offer : Option ℕ) (s : Session) : Session :=
  if s.closedStdin then s
  else
    match offer with
    | none => s.stop .raises
    | some offer =>
      if s.stdin = [] then
        { s with closedStdin := true, written := s.written ++ [ascii "Size: 0\n\n"] }
      else
        let data := s.stdin.take (shortCount offer 512 s.stdin.length)
        { s with
          stdin := s.stdin.drop data.length
          written := s.written ++ [ascii "Size: " ++ (decimal data.length ++ [lf, lf]), data] }

structure Answers where
  socketReady : Bool
  stdinReady : Bool
  ending : SocketEnd
  offer : Option ℕ

/-- One turn of the loop of `session`. `IO.select` answers with three lists, and only the
first descriptor of each is looked at; the socket stands before standard input. -/
def sessionStep (g : Globals) (answers : Answers) (s : Session) : Session :=
  if s.ended.isSome then s
  else if answers.socketReady then handleSocket g answers.ending s
  else if answers.stdinReady then handleStdin answers.offer s
  else s

end GroovyServ.RubyClient

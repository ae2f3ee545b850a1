import GroovyServ.Outcomes
import GroovyServ.Bytes

/-!
# The options of the Ruby client

`parseOption` follows `parse_option`: it goes through the arguments by index, and
deletes the value of an option from the list behind it. A regular expression is
matched against a string that is well formed in the locale's encoding; against any
other one it raises. That encoding extends ASCII, so strings are given as bytes.
-/

namespace GroovyServ.RubyClient

inductive RubyError where
  | runtime (message : Bytes)
  | argument
  deriving DecidableEq

/-- `options.client`. The host and the port are `none` while they are the defaults
`SERVER_HOST` and `SERVER_PORT`; a host that is given can be `nil`. -/
structure ClientOptions where
  host : Option (Option Bytes) := none
  port : Option Bytes := none
  authtoken : Option Bytes := none
  quiet : Bool := false
  envAll : Bool := false
  envIncludeMask : List Bytes := []
  envExcludeMask : List Bytes := []
  help : Bool := false
  version : Bool := false
  groovyserverOpt : List Bytes := []

structure ServerOptions where
  help : Bool := false
  version : Bool := false
  args : List Bytes := []

structure Options where
  client : ClientOptions := {}
  server : ServerOptions := {}

def numberLine (s : Bytes) : Bool :=
  (s.splitOn lf).any fun line => !line.isEmpty && line.all isDigit

def versionLine (s : Bytes) : Bool := (s.splitOn lf).any (ascii "-v").isPrefixOf

def clientOptionWithin (s : Bytes) : Bool := decide (ascii "-C" <:+: s)

def matchRegexp (valid : Bytes → Bool) (regexp : Bytes → Bool) (s : Bytes) :
    Except RubyError Bool :=
  if valid s then .ok (regexp s) else .error .argument

namespace Options

def modifyClient (options : Options) (f : ClientOptions → ClientOptions) : Options :=
  { options with client := f options.client }

def forward (options : Options) (arg : Bytes) : Options :=
  { options with server := { options.server with args := options.server.args ++ [arg] } }

def serverHelp (options : Options) : Options :=
  { options with server := { options.server with help := true } }

def serverVersion (options : Options) : Options :=
  { options with server := { options.server with version := true } }

def addServerOpt (options : Options) (opt : Bytes) : Options :=
  options.modifyClient fun c => { c with groovyserverOpt := c.groovyserverOpt ++ [opt] }

end Options

def parseOther (valid : Bytes → Bool) (arg : Bytes) (options : Options) :
    Except RubyError Options := do
  let version ← (if arg = ascii "--version" then .ok true else matchRegexp valid versionLine arg)
  if version then .ok (options.serverVersion.forward arg)
  else
    let unknown ← matchRegexp valid clientOptionWithin arg
    if unknown then .error (.runtime (ascii "Unknown option " ++ arg))
    else .ok (options.forward arg)

/-- The `case` of `parse_option`, with the argument that follows: the options, and
whether that one is deleted. -/
def parseCase (valid : Bytes → Bool) (arg : Bytes) (next : Option Bytes) (options : Options) :
    Except RubyError (Bool × Options) :=
  if arg = ascii "-Ch" ∨ arg = ascii "-Chost" then
    .ok (true, options.modifyClient fun c => { c with host := some next })
  else if arg = ascii "-Cp" ∨ arg = ascii "-Cport" then do
    let number ← (match next with
      | none => .ok false
      | some port => matchRegexp valid numberLine port)
    if number then .ok (true, options.modifyClient fun c => { c with port := next })
    else
      .error (.runtime
        (ascii "Invalid port number " ++ (next.getD [] ++ (ascii " for " ++ arg))))
  else if arg = ascii "-Ca" ∨ arg = ascii "-Cauthtoken" then
    .ok (true, options.modifyClient fun c => { c with authtoken := next })
  else if arg = ascii "-Ck" ∨ arg = ascii "-Ckill-server" then
    .ok (false, options.addServerOpt (ascii "-k"))
  else if arg = ascii "-Cr" ∨ arg = ascii "-Crestart-server" then
    .ok (false, options.addServerOpt (ascii "-r"))
  else if arg = ascii "-Cq" ∨ arg = ascii "-Cquiet" then
    .ok (false, (options.addServerOpt (ascii "-q")).modifyClient fun c => { c with quiet := true })
  else if arg = ascii "-Cenv-all" then
    .ok (false, options.modifyClient fun c => { c with envAll := true })
  else if arg = ascii "-Cenv" then
    match next with
    | none => .error (.runtime (ascii "Invalid mask string  for " ++ arg))
    | some val =>
      .ok (true, options.modifyClient fun c =>
        { c with envIncludeMask := c.envIncludeMask ++ [val] })
  else if arg = ascii "-Cenv-exclude" then
    match next with
    | none => .error (.runtime (ascii "Invalid mask string  for " ++ arg))
    | some val =>
      .ok (true, options.modifyClient fun c =>
        { c with envExcludeMask := c.envExcludeMask ++ [val] })
  else if arg = ascii "-Ch" ∨ arg = ascii "-Chelp" then
    .ok (false, options.modifyClient fun c => { c with help := true })
  else if arg = ascii "--help" ∨ arg = ascii "-help" ∨ arg = ascii "-h" then
    .ok (false, options.serverHelp.forward arg)
  else if arg = ascii "-Cv" ∨ arg = ascii "-Cversion" then
    .ok (false, options.modifyClient fun c => { c with version := true })
  else do
    let options ← parseOther valid arg options
    .ok (false, options)

def parseLoop (valid : Bytes → Bool) : ℕ → List Bytes → ℕ → Options → Except RubyError Options
  | 0, _, _, options => .ok options
  | fuel + 1, args, i, options =>
    match args[i]? with
    | none => .ok options
    | some arg => do
      let (deleted, options) ← parseCase valid arg args[i + 1]? options
      parseLoop valid fuel (if deleted then args.eraseIdx (i + 1) else args) (i + 1) options

/-- `parse_option`. The index grows in every turn and the list does not, so its
length is fuel enough. -/
def parseOption (valid : Bytes → Bool) (args : List Bytes) : Except RubyError Options := do
  let options ← parseLoop valid args.length args 0 {}
  .ok (if options.server.args = [] then options.serverHelp else options)

end GroovyServ.RubyClient

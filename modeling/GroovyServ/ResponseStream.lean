import GroovyServ.Lines

/-!
# Response headers and the streams that write responses

The header keys, which the client and the server define alike, the header
formatter of `ClientProtocols`, and the two writers of a session's socket:
`StreamResponseOutputStream.write` and `ClientConnection.sendExit`. Each writer is
given as the list of its successive writes to the socket stream. Strings are the
bytes that the default charset encodes them to.
-/

namespace GroovyServ

open Lines

def headerKeyCurrentWorkingDir : Bytes := ascii "Cwd"
def headerKeyArg : Bytes := ascii "Arg"
def headerKeyEnv : Bytes := ascii "Env"
def headerKeyCp : Bytes := ascii "Cp"
def headerKeyAuthtoken : Bytes := ascii "Auth"
def headerKeyChannel : Bytes := ascii "Channel"
def headerKeySize : Bytes := ascii "Size"
def headerKeyStatus : Bytes := ascii "Status"
def headerKeyProtocol : Bytes := ascii "Protocol"
def headerKeyCommand : Bytes := ascii "Cmd"

inductive Channel where
  | out
  | err
  deriving DecidableEq, Repr

def Channel.name : Channel → Bytes
  | .out => ascii "out"
  | .err => ascii "err"

/-- A `byte[]`, whose length is an `int`. -/
abbrev JByteArray := { b : Bytes // b.length < 2 ^ 31 }

abbrev JInt := { z : ℤ // -2 ^ 31 ≤ z ∧ z < 2 ^ 31 }

def headerLine (key v : Bytes) : Bytes := key ++ (ascii ": " ++ (v ++ [lf]))

def headersText (fields : List (Bytes × Bytes)) : Bytes :=
  fields.flatMap fun f => headerLine f.1 f.2

theorem headersText_append (fields fields' : List (Bytes × Bytes)) :
    headersText (fields ++ fields') = headersText fields ++ headersText fields' :=
  List.flatMap_append

theorem headersText_cons (key v : Bytes) (fields : List (Bytes × Bytes)) :
    headersText ((key, v) :: fields) = headerLine key v ++ headersText fields := rfl

namespace Server

/-- A value of the map given to `formatAsHeader`. -/
inductive HeaderValue where
  | one (v : Bytes)
  | many (vs : List Bytes)

def formatAsHeader (map : List (Bytes × HeaderValue)) (body : Option Bytes) : Bytes :=
  (map.flatMap fun entry =>
    if entry.1 = [] then []
    else match entry.2 with
      | .many vs => vs.flatMap (headerLine entry.1)
      | .one v => headerLine entry.1 v) ++ lf :: body.getD []

def formatAsResponseHeader (streamId : Channel) (size : ℕ) : Bytes :=
  formatAsHeader [(headerKeyChannel, .one streamId.name), (headerKeySize, .one (decimal size))] none

def formatAsExitHeader (status : ℤ) (body : Option Bytes) : Bytes :=
  formatAsHeader [(headerKeyStatus, .one (decimalInt status))] body

structure StreamResponseOutputStream where
  streamId : Channel
  closed : Bool := false
  noHeader : Bool := false

/-- `write(byte[], int, int)` on a slice within the array; `none` is the
`IOException` of a closed stream. -/
def StreamResponseOutputStream.write (s : StreamResponseOutputStream) (b : JByteArray)
    (offset length : ℕ) : Option (List Bytes) :=
  if s.closed then none
  else
    let header := formatAsResponseHeader s.streamId length
    some ((if s.noHeader then [] else [header]) ++ [(b.val.drop offset).take length])

def sendExit (silentExitStatus : Bool) (status : ℤ) (message : Option Bytes) : List Bytes :=
  if silentExitStatus then [] else [formatAsExitHeader status message]

theorem formatAsResponseHeader_eq (streamId : Channel) (size : ℕ) :
    formatAsResponseHeader streamId size =
      unlines lf [ascii "Channel: " ++ streamId.name, ascii "Size: " ++ decimal size] ++ [lf] := by
  have hchannel : headerKeyChannel ++ ascii ": " = ascii "Channel: " := rfl
  have hsize : headerKeySize ++ ascii ": " = ascii "Size: " := rfl
  have hchannel_ne : headerKeyChannel ≠ [] := by decide
  have hsize_ne : headerKeySize ≠ [] := by decide
  simp [formatAsResponseHeader, formatAsHeader, headerLine, hchannel_ne, hsize_ne, ← hchannel,
    ← hsize]

theorem formatAsExitHeader_eq (status : ℤ) (body : Option Bytes) :
    formatAsExitHeader status body =
      unlines lf [ascii "Status: " ++ decimalInt status] ++ lf :: body.getD [] := by
  have hstatus : headerKeyStatus ++ ascii ": " = ascii "Status: " := rfl
  have hstatus_ne : headerKeyStatus ≠ [] := by decide
  simp [formatAsExitHeader, formatAsHeader, headerLine, hstatus_ne, ← hstatus]

end Server
end GroovyServ

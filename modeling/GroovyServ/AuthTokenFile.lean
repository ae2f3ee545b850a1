import GroovyServ.RequestRoundTrip
import GroovyServ.RequestWorker

/-!
# The token from the server's file to its check

The server keeps its token in a file, the C client reads a line of it into a buffer
of 512 bytes and sends it as a header, and the server's parser trims the value before
it is compared with the token. The token survives this when it fits into the buffer,
is a single line and has nothing to trim.
-/

namespace GroovyServ

open Lines

abbrev Files := Bytes → Option Bytes

namespace Server

def toHexString (n : UInt64) : Bytes :=
  (Nat.toDigits 16 n.toNat).map fun c => UInt8.ofNat c.toNat

def createNewAuthToken (random : UInt64) : Bytes := toHexString random

def AuthToken.create (token : Option Bytes) (random : UInt64) : AuthToken :=
  ⟨(token.filter (· ≠ [])).getD (createNewAuthToken random)⟩

def AuthToken.save (t : AuthToken) (authtokenFile : Bytes) (files : Files) : Files :=
  Function.update files authtokenFile (some t.token)

end Server

namespace CLib

/-- A line of at most `size - 1` bytes with its line feed, if there is anything. -/
def fgets (size : ℕ) (text : Bytes) : Option Bytes :=
  let taken := text.take (size - 1)
  if taken = [] then none
  else some (taken.takeWhile (· ≠ lf) ++ (taken.dropWhile (· ≠ lf)).take 1)

theorem notMem_cString (mem : Bytes) : (0 : UInt8) ∉ cString mem := fun h => by
  simpa using List.mem_takeWhile_imp h

end CLib

namespace Client

open CLib

def authtokenPath (environ : List Bytes) (port : ℤ) : CResult Bytes :=
  match getenv environ (ascii "HOME") with
  | none => .error .undefined
  | some home =>
    let path := home ++ (ascii "/.groovy/groovyserv/authtoken-" ++ decimalInt port)
    if path.length < maxPathLen then .ok path else .error .undefined

def readAuthtoken (size : ℕ) (environ : List Bytes) (files : Files) (port : ℤ) :
    CResult CString := do
  let path ← authtokenPath environ port
  match files path with
  | none =>
    .error (.exit 1 (ascii "ERROR: could not open authtoken file: " ++ (path ++ [lf])))
  | some text =>
    match fgets size text with
    | none =>
      .error (.exit 1 (ascii "ERROR: could not read authtoken file: " ++ (path ++ [lf])))
    | some line => .ok ⟨cString (line ++ [0]), notMem_cString _⟩

def getAuthtokenGeneratedByServer (environ : List Bytes) (files : Files) (port : ℤ) :
    CResult CString :=
  readAuthtoken bufferSize environ files port

end Client

namespace CLib

theorem fgets_prefix {size : ℕ} (hsize : 0 < size) {text line : Bytes}
    (h : fgets size text = some line) : line <+: text ∧ line.length < size := by
  have hline : line <+: text.take (size - 1) := by
    unfold fgets at h
    dsimp only at h
    split_ifs at h
    cases h
    exact ⟨((text.take (size - 1)).dropWhile (· ≠ lf)).drop 1, by
      rw [List.append_assoc, List.take_append_drop, List.takeWhile_append_dropWhile]⟩
  have hlen := hline.length_le
  rw [List.length_take] at hlen
  exact ⟨hline.trans (List.take_prefix _ _), by omega⟩

theorem fgets_whole {size : ℕ} {text : Bytes} (hne : text ≠ []) (hlen : text.length < size)
    (hlf : lf ∉ text) : fgets size text = some text := by
  have htake : text.take (size - 1) = text := List.take_of_length_le (by omega)
  have hwhile : ∀ c ∈ text, decide (c ≠ lf) = true := fun c hc =>
    decide_eq_true fun h => hlf (h ▸ hc)
  unfold fgets
  dsimp only
  rw [htake, if_neg hne, List.takeWhile_eq_self_iff.mpr hwhile,
    List.dropWhile_eq_nil_iff.mpr hwhile, List.take_nil, List.append_nil]

end CLib

theorem Client.readAuthtoken_ok {size : ℕ} {environ : List Bytes} {files : Files} {port : ℤ}
    {authtoken : CString} (h : readAuthtoken size environ files port = .ok authtoken) {path : Bytes}
    (hpath : authtokenPath environ port = .ok path) : ∃ text line, files path = some text ∧
      CLib.fgets size text = some line ∧ authtoken.val = CLib.cString (line ++ [0]) := by
  rw [readAuthtoken, hpath, ok_bind] at h
  split at h
  · cases h
  · rename_i text htext
    split at h
    · cases h
    · rename_i line hline
      cases h
      exact ⟨text, line, htext, hline, rfl⟩

namespace Server

theorem trimmed_trim (v : Bytes) : Trimmed (trim v) := by
  constructor
  · intro c hc
    obtain ⟨dropped, hdropped⟩ := List.rdropWhile_prefix (fun c : UInt8 => decide (c ≤ 32))
      (v.dropWhile fun c => decide (c ≤ 32))
    have hhead := List.head?_dropWhile_not (fun c : UInt8 => decide (c ≤ 32)) v
    rw [← hdropped, List.head?_append, ← trim, Option.mem_def.mp hc] at hhead
    simpa using hhead
  · intro c hc
    obtain ⟨hne, rfl⟩ := List.mem_getLast?_eq_getLast hc
    have hlast := List.rdropWhile_last_not (fun c : UInt8 => decide (c ≤ 32))
      (v.dropWhile fun c => decide (c ≤ 32)) hne
    simpa [trim] using hlast

theorem lf_notMem_trim {v : Bytes} (hv : lf ∉ v) : lf ∉ trim v := fun h =>
  hv ((List.dropWhile_suffix _).subset ((List.rdropWhile_prefix _ _).subset h))

theorem length_trim_le (v : Bytes) : (trim v).length ≤ v.length :=
  (List.rdropWhile_prefix _ _).length_le.trans (List.dropWhile_suffix _).length_le

/-- Whatever bytes arrive, a header value is a part of a line with nothing to trim. -/
theorem values_plain {ending : Ending} {bytes rest : Bytes} {headers : HeaderMap}
    (h : parseHeaders ending bytes = .ok (headers, rest)) (key : Bytes) :
    ∀ v ∈ (headers.get key).getD [], lf ∉ v ∧ Trimmed v := by
  rw [parseHeaders_ok h, get_headersOf]
  intro v hv
  have hmem : v ∈ valuesOf (blockLines (bytes.splitOn lf)) key := by
    split_ifs at hv
    · cases hv
    · exact hv
  rw [valuesOf, List.mem_map] at hmem
  obtain ⟨entry, hentry, rfl⟩ := hmem
  obtain ⟨line, hline, rfl⟩ := List.mem_map.mp (List.mem_of_mem_filter hentry)
  have hlf := notMem_of_mem_splitOn lf bytes line ((List.takeWhile_prefix _).subset hline)
  exact ⟨lf_notMem_trim fun h => hlf ((List.dropWhile_suffix _).subset (List.mem_of_mem_drop h)),
    trimmed_trim _⟩

theorem first_plain {ending : Ending} {bytes rest : Bytes} {headers : HeaderMap}
    (h : parseHeaders ending bytes = .ok (headers, rest)) (key : Bytes) :
    ∀ v ∈ headers.first key, lf ∉ v ∧ Trimmed v := by
  intro v hv
  obtain ⟨values, hvalues, hhead⟩ := Option.bind_eq_some_iff.mp (Option.mem_def.mp hv)
  refine values_plain h key v ?_
  rw [hvalues, Option.getD_some]
  exact List.mem_of_mem_head? hhead

/-- The values of a request that is read, whatever bytes it is read from. -/
structure InvocationRequest.PlainValues (request : InvocationRequest) : Prop where
  cwd : ∀ v ∈ request.cwd, lf ∉ v ∧ Trimmed v
  classpath : ∀ v ∈ request.classpath, lf ∉ v ∧ Trimmed v
  clientAuthToken : ∀ v ∈ request.clientAuthToken, lf ∉ v ∧ Trimmed v
  envVars : ∀ v ∈ request.envVars.getD [], lf ∉ v ∧ Trimmed v

theorem readInvocationRequest_plain {decodeBase64 : Bytes → Option Bytes}
    {authToken : Option AuthToken} {socket : Socket} {sleepInterrupted : Bool} {ending : Ending}
    {bytes rest : Bytes} {request : InvocationRequest}
    (h : readInvocationRequest decodeBase64 authToken socket sleepInterrupted ending bytes =
      .ok (request, rest)) : request.PlainValues := by
  obtain ⟨⟨headers, rest'⟩, hheaders, h⟩ := bind_eq_ok.mp h
  obtain ⟨args, -, h⟩ := bind_eq_ok.mp h
  obtain ⟨_, -, h⟩ := bind_eq_ok.mp h
  cases h
  exact ⟨first_plain hheaders _, first_plain hheaders _, first_plain hheaders _,
    values_plain hheaders _⟩

end Server

open Server

/-- A token that comes through the file and the header as it is. -/
structure Usable (token : Bytes) : Prop where
  fits : token.length < Client.bufferSize
  nul : (0 : UInt8) ∉ token
  line : lf ∉ token
  trimmed : Trimmed token

structure Client.Invocation.Unaltered (inv : Client.Invocation) (cwd : Bytes) : Prop where
  cwd : lf ∉ cwd ∧ Trimmed cwd
  envVars : ∀ entry ∈ inv.envVars, lf ∉ entry ∧ Trimmed entry
  classpath : ∀ cp ∈ inv.classpath, lf ∉ cp ∧ Trimmed cp

/-- The request shows the server's token, and the rest of it is what was sent. -/
structure Server.InvocationRequest.AsSent (request : InvocationRequest) (inv : Client.Invocation)
    (cwd : Bytes) (t : AuthToken) : Prop where
  auth : ∃ auth ∈ request.clientAuthToken, t.isValid auth = true
  args : request.args = inv.args
  cwd : request.cwd = some cwd
  envVars : request.envVars = if inv.envVars = [] then none else some inv.envVars
  classpath : request.classpath = inv.classpath

theorem CLib.cString_terminated (line : Bytes) : cString (line ++ [0]) <+: line := by
  induction line with
  | nil => exact List.prefix_rfl
  | cons c line ih =>
    by_cases hc : c = 0
    · simp [cString, hc]
    · simpa [cString, hc] using ih

theorem Server.AuthToken.create_ne_nil (authtoken : Option Bytes) (random : UInt64) :
    (AuthToken.create authtoken random).token ≠ [] := by
  unfold AuthToken.create
  cases h : authtoken.filter (· ≠ []) with
  | none => simp [createNewAuthToken, toHexString]
  | some token => simpa using (Option.filter_eq_some_iff.mp h).2

theorem hexDigits_printable (n : ℕ) : ∀ c ∈ Nat.toDigits 16 n, 32 < c.toNat ∧ c.toNat < 128 := by
  have hdigit : ∀ d < 16, 32 < (Nat.digitChar d).toNat ∧ (Nat.digitChar d).toNat < 128 := by
    decide
  induction n using Nat.strong_induction_on with
  | _ n ih =>
    rw [Nat.toDigits_eq_if (by omega)]
    split_ifs with hn
    · exact List.forall_mem_singleton.mpr (hdigit n hn)
    · exact List.forall_mem_append.mpr ⟨ih (n / 16) (by omega),
        List.forall_mem_singleton.mpr (hdigit _ (Nat.mod_lt n (by omega)))⟩

theorem usable_generated (random : UInt64) : Usable (AuthToken.create none random).token := by
  have hprintable : ∀ c ∈ toHexString random, 32 < c := by
    intro c hc
    obtain ⟨d, hd, rfl⟩ := List.mem_map.mp hc
    obtain ⟨hlow, hhigh⟩ := hexDigits_printable _ d hd
    rw [UInt8.lt_iff_toNat_lt, UInt8.toNat_ofNat']
    change 32 < d.toNat % 256
    omega
  have hlength : (toHexString random).length ≤ 16 := by
    rw [toHexString, List.length_map]
    exact (Nat.length_toDigits_le_iff (by omega) (by omega)).mpr random.toNat_lt
  exact
    { fits := hlength.trans_lt (by decide)
      nul := fun h => absurd (hprintable 0 h) (by decide)
      line := fun h => absurd (hprintable lf h) (by decide)
      trimmed := ⟨fun c hc => hprintable c (List.mem_of_mem_head? hc),
        fun c hc => hprintable c (List.mem_of_mem_getLast? hc)⟩ }

section Token

variable {t : AuthToken} {inv : Client.Invocation} {cwd : CString} {file : Bytes} {files : Files}
  {port : ℤ}

theorem authtoken_prefix
    (hpath : Client.authtokenPath (inv.environ.map Subtype.val) port = .ok file)
    (hread : Client.getAuthtokenGeneratedByServer (inv.environ.map Subtype.val)
      (t.save file files) port = .ok inv.authtoken) :
    inv.authtoken.val <+: t.token ∧ inv.authtoken.val.length < Client.bufferSize := by
  obtain ⟨text, line, htext, hline, hauth⟩ := Client.readAuthtoken_ok hread hpath
  obtain rfl : t.token = text := by simpa [AuthToken.save] using htext
  obtain ⟨hpart, hlen⟩ := CLib.fgets_prefix (by decide) hline
  have hstring := CLib.cString_terminated line
  rw [hauth]
  exact ⟨hstring.trans hpart, hstring.length_le.trans_lt hlen⟩

theorem authtoken_eq (hne : t.token ≠ []) (hfits : t.token.length < Client.bufferSize)
    (hline : lf ∉ t.token) (hnul : (0 : UInt8) ∉ t.token)
    (hpath : Client.authtokenPath (inv.environ.map Subtype.val) port = .ok file)
    (hread : Client.getAuthtokenGeneratedByServer (inv.environ.map Subtype.val)
      (t.save file files) port = .ok inv.authtoken) : inv.authtoken.val = t.token := by
  obtain ⟨text, line, htext, hfgets, hauth⟩ := Client.readAuthtoken_ok hread hpath
  obtain rfl : t.token = text := by simpa [AuthToken.save] using htext
  rw [CLib.fgets_whole hne hfits hline] at hfgets
  cases hfgets
  rw [hauth, CLib.cString_append hnul]

theorem receivedRequest_asSent {socket : Socket} (hauth : inv.authtoken.val = t.token)
    (htrimmed : Trimmed t.token) (h : inv.Unaltered cwd) :
    (receivedRequest inv cwd (some t) socket).AsSent inv cwd t where
  auth := ⟨t.token, by rw [receivedRequest, hauth, (trim_eq_self_iff _).mpr htrimmed]; rfl,
    decide_eq_true rfl⟩
  args := rfl
  cwd := congrArg some ((trim_eq_self_iff _).mpr h.cwd.2)
  envVars := by
    have hmap : inv.envVars.map trim = inv.envVars.map id :=
      List.map_congr_left fun entry hentry =>
        (trim_eq_self_iff entry).mpr (h.envVars entry hentry).2
    rw [receivedRequest, hmap, List.map_id]
  classpath := by
    rw [receivedRequest]
    cases hcp : inv.classpath with
    | none => rfl
    | some cp => exact congrArg some ((trim_eq_self_iff cp).mpr (h.classpath cp hcp).2)

theorem unaltered_of_asSent {request : InvocationRequest} (hplain : request.PlainValues)
    (h : request.AsSent inv cwd t) : inv.Unaltered cwd where
  cwd := hplain.cwd cwd h.cwd
  envVars entry hentry := by
    refine hplain.envVars entry ?_
    rw [h.envVars, if_neg (List.ne_nil_of_mem hentry)]
    exact hentry
  classpath cp hcp := hplain.classpath cp (h.classpath ▸ hcp)

theorem Client.Invocation.Unaltered.plain (h : inv.Unaltered cwd) (hauth : lf ∉ inv.authtoken.val) :
    inv.Plain cwd where
  cwd := h.cwd.1
  authtoken := hauth
  envVars entry hentry := (h.envVars entry hentry).1
  classpath cp hcp := (h.classpath cp hcp).1

end Token

section AsSent

variable {t : AuthToken} {inv : Client.Invocation} {cwd : CString} {file : Bytes} {files : Files}
  {port : ℤ} {decodeBase64 : Bytes → Option Bytes} {socket : Socket} {sleepInterrupted : Bool}
  {ending : Ending} {rest : Bytes}

theorem usable_of_asSent
    (hpath : Client.authtokenPath (inv.environ.map Subtype.val) port = .ok file)
    (hread : Client.getAuthtokenGeneratedByServer (inv.environ.map Subtype.val)
      (t.save file files) port = .ok inv.authtoken)
    (hdecode : ∀ s, decodeBase64 (Base64.encode s) = some s) {request : InvocationRequest}
    (hrequest : readInvocationRequest decodeBase64 (some t) socket sleepInterrupted ending
      (inv.text cwd ++ rest) = .ok (request, rest)) (has : request.AsSent inv cwd t) :
    Usable t.token ∧ inv.Unaltered cwd := by
  have hplain := readInvocationRequest_plain hrequest
  have hunaltered := unaltered_of_asSent hplain has
  obtain ⟨auth, hauth, hvalid⟩ := has.auth
  obtain rfl : t.token = auth := of_decide_eq_true hvalid
  obtain ⟨hline, htrimmed⟩ := hplain.clientAuthToken _ hauth
  obtain ⟨hpart, hfits⟩ := authtoken_prefix hpath hread
  -- the token is a line, so what was sent of it stands in its header with nothing behind
  have hlf : lf ∉ inv.authtoken.val := fun h => hline (hpart.subset h)
  rw [readInvocationRequest_text inv (hunaltered.plain hlf) hdecode] at hrequest
  cases hcheck : (receivedRequest inv cwd (some t) socket).check sleepInterrupted with
  | error stop =>
    rw [hcheck] at hrequest
    cases hrequest
  | ok u =>
    rw [hcheck] at hrequest
    cases hrequest
    have htrim : trim inv.authtoken.val = t.token := Option.some.inj hauth
    have hlen : t.token.length ≤ inv.authtoken.val.length := htrim ▸ length_trim_le _
    have heq := hpart.eq_of_length_le hlen
    exact ⟨⟨heq ▸ hfits, heq ▸ inv.authtoken.property, hline, htrimmed⟩, hunaltered⟩

theorem asSent_of_usable (hne : t.token ≠ []) (husable : Usable t.token)
    (hunaltered : inv.Unaltered cwd)
    (hpath : Client.authtokenPath (inv.environ.map Subtype.val) port = .ok file)
    (hread : Client.getAuthtokenGeneratedByServer (inv.environ.map Subtype.val)
      (t.save file files) port = .ok inv.authtoken)
    (hdecode : ∀ s, decodeBase64 (Base64.encode s) = some s) :
    ∃ request, readInvocationRequest decodeBase64 (some t) socket sleepInterrupted ending
      (inv.text cwd ++ rest) = .ok (request, rest) ∧ request.AsSent inv cwd t := by
  have hauth := authtoken_eq hne husable.fits husable.line husable.nul hpath hread
  have has : (receivedRequest inv cwd (some t) socket).AsSent inv cwd t :=
    receivedRequest_asSent hauth husable.trimmed hunaltered
  refine ⟨_, ?_, has⟩
  rw [readInvocationRequest_text inv (hunaltered.plain (hauth ▸ husable.line)) hdecode]
  obtain ⟨auth, hclient, hvalid⟩ := has.auth
  have htoken : auth = t.token := (of_decide_eq_true hvalid).symm
  rw [InvocationRequest.check_of_token hclient (htoken ▸ hne) rfl htoken]
  rfl

end AsSent

/-- However the server comes by its token, a client that reads it from the server's
file is recognised, and its request read as it was sent, exactly when the token is a
line without blanks at its ends that fits into the client's buffer, and the working
directory and the values from the environment are such lines as well. -/
theorem readInvocationRequest_asSent_iff (authtoken : Option Bytes) (random : UInt64)
    {inv : Client.Invocation} {cwd : CString} (hcwd : Client.getcwd inv.cwd = some cwd)
    {file : Bytes} {port : ℤ}
    (hpath : Client.authtokenPath (inv.environ.map Subtype.val) port = .ok file) (files : Files)
    (hread : Client.getAuthtokenGeneratedByServer (inv.environ.map Subtype.val)
      ((AuthToken.create authtoken random).save file files) port = .ok inv.authtoken)
    {sent : Bytes} (hsent : Client.sendHeader inv = .ok sent)
    {decodeBase64 : Bytes → Option Bytes}
    (hdecode : ∀ s, decodeBase64 (Base64.encode s) = some s) (socket : Socket)
    (sleepInterrupted : Bool) (ending : Ending) (rest : Bytes) :
    let t := AuthToken.create authtoken random
    (∃ request, readInvocationRequest decodeBase64 (some t) socket sleepInterrupted ending
        (sent ++ rest) = .ok (request, rest) ∧ request.AsSent inv cwd t) ↔
      Usable t.token ∧ inv.Unaltered cwd := by
  intro t
  have hne : t.token ≠ [] := AuthToken.create_ne_nil authtoken random
  obtain rfl : sent = inv.text cwd := (Client.sendHeader_ensures inv hcwd).post sent hsent
  constructor
  · rintro ⟨request, hrequest, has⟩
    exact usable_of_asSent hpath hread hdecode hrequest has
  · rintro ⟨husable, hunaltered⟩
    exact asSent_of_usable hne husable hunaltered hpath hread hdecode

def sampleAuthtokenFile : Bytes := ascii "/root/.groovy/groovyserv/authtoken-1961"

theorem readInvocationRequest_asSent_iff_sample :
    ∃ sent, Client.sendHeader sampleInvocation = .ok sent ∧
      ((∃ request, readInvocationRequest Base64.decode
          (some (AuthToken.create (some (ascii "cafe")) 0)) ⟨1, true, [], []⟩ false .waiting
          (sent ++ []) = .ok (request, []) ∧
        request.AsSent sampleInvocation (ascii "/tmp")
          (AuthToken.create (some (ascii "cafe")) 0)) ↔
      Usable (AuthToken.create (some (ascii "cafe")) 0).token ∧
        sampleInvocation.Unaltered (ascii "/tmp")) := by
  have hcwd : Client.getcwd sampleInvocation.cwd = some ⟨ascii "/tmp", by decide⟩ := rfl
  obtain ⟨sent, hsent⟩ := (Client.sendHeader_ensures sampleInvocation hcwd).returns
    ⟨by decide +kernel, by decide +kernel⟩
  have hpath : Client.authtokenPath (sampleInvocation.environ.map Subtype.val) 1961 =
    .ok sampleAuthtokenFile := rfl
  exact ⟨sent, hsent, readInvocationRequest_asSent_iff (some (ascii "cafe")) 0 hcwd hpath
    (fun _ => none) rfl hsent Base64.decode_encode ⟨1, true, [], []⟩ false .waiting []⟩

def longToken : Bytes := List.replicate 512 97

def longInvocation : Client.Invocation :=
  { sampleInvocation with authtoken := ⟨List.replicate 511 97, by decide +kernel⟩ }

/-- The client with the token's first 511 bytes is not recognised. -/
theorem not_asSent_long :
    ∃ sent, Client.getAuthtokenGeneratedByServer (longInvocation.environ.map Subtype.val)
        ((AuthToken.create (some longToken) 0).save sampleAuthtokenFile fun _ => none) 1961 =
          .ok longInvocation.authtoken ∧
      Client.sendHeader longInvocation = .ok sent ∧
      ¬ ∃ request, readInvocationRequest Base64.decode
          (some (AuthToken.create (some longToken) 0)) ⟨1, true, [], []⟩ false .waiting
          (sent ++ []) = .ok (request, []) ∧
        request.AsSent longInvocation (ascii "/tmp") (AuthToken.create (some longToken) 0) := by
  have hcwd : Client.getcwd longInvocation.cwd = some ⟨ascii "/tmp", by decide⟩ := rfl
  have hensures := Client.sendHeader_ensures longInvocation hcwd
  obtain ⟨sent, hsent⟩ := hensures.returns ⟨by decide +kernel, by decide +kernel⟩
  obtain rfl := hensures.post sent hsent
  have hpath : Client.authtokenPath (longInvocation.environ.map Subtype.val) 1961 =
    .ok sampleAuthtokenFile := rfl
  have hread : Client.getAuthtokenGeneratedByServer (longInvocation.environ.map Subtype.val)
      ((AuthToken.create (some longToken) 0).save sampleAuthtokenFile fun _ => none) 1961 =
        .ok longInvocation.authtoken := by decide +kernel
  refine ⟨_, hread, hsent, fun ⟨request, hrequest, has⟩ => ?_⟩
  have husable := (usable_of_asSent hpath hread Base64.decode_encode hrequest has).1
  exact absurd husable.fits (by decide +kernel)

end GroovyServ

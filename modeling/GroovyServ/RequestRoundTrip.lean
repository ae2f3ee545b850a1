import GroovyServ.HeaderBlocks
import GroovyServ.SendHeader

/-!
# Invocation requests arrive as they were sent

The lines of the request are taken apart by the server's parser as the client put
them together, and the arguments, whatever bytes they contain, survive the
encoding. Nothing after the request is read.
-/

namespace GroovyServ

open Server

theorem decodeArgs_encode {decodeBase64 : Bytes → Option Bytes}
    (hdecode : ∀ s, decodeBase64 (Base64.encode s) = some s) (args : List Bytes)
    {encoded : Option (List Bytes)} (hencoded : encoded.getD [] = args.map Base64.encode) :
    decodeArgs decodeBase64 encoded = .ok args := by
  rw [decodeArgs, hencoded]
  clear hencoded
  induction args with
  | nil => rfl
  | cons arg args ih => rw [List.map_cons, List.mapM_cons, ih, hdecode]; rfl

namespace Client.Invocation

variable (inv : Invocation)

/-- Nothing that is sent as plain text contains a line feed. -/
structure Plain (cwd : Bytes) : Prop where
  cwd : lf ∉ cwd
  authtoken : lf ∉ inv.authtoken.val
  envVars : ∀ entry ∈ inv.envVars, lf ∉ entry
  classpath : ∀ cp ∈ inv.classpath, lf ∉ cp

theorem mem_fields {cwd : Bytes} {f : Bytes × Bytes} (hf : f ∈ inv.fields cwd) :
    f.1 ∈ [headerKeyCurrentWorkingDir, headerKeyAuthtoken, headerKeyArg, headerKeyEnv,
      headerKeyCp] := by
  simp only [fields, List.mem_append, List.mem_cons, List.mem_map, List.not_mem_nil,
    or_false] at hf
  rcases hf with (((rfl | rfl) | ⟨arg, -, rfl⟩) | ⟨entry, -, rfl⟩) | ⟨cp, -, rfl⟩ <;> simp

theorem lf_notMem_fields {cwd : Bytes} (hplain : inv.Plain cwd) :
    ∀ f ∈ inv.fields cwd, lf ∉ f.2 := by
  intro f hf
  simp only [fields, List.mem_append, List.mem_cons, List.mem_map, List.not_mem_nil,
    or_false, Option.mem_toList] at hf
  rcases hf with (((rfl | rfl) | ⟨arg, -, rfl⟩) | ⟨entry, hentry, rfl⟩) | ⟨cp, hcp, rfl⟩
  · exact hplain.cwd
  · exact hplain.authtoken
  · exact fun h => absurd (Base64.encode_printable arg lf h).1 (by decide)
  · exact hplain.envVars entry hentry
  · exact hplain.classpath cp hcp

theorem keys_plain : ∀ key ∈ [headerKeyCurrentWorkingDir, headerKeyAuthtoken, headerKeyArg,
    headerKeyEnv, headerKeyCp], key ≠ [] ∧ lf ∉ key ∧ (58 : UInt8) ∉ key := by
  decide

theorem trim_encode (s : Bytes) : trim (Base64.encode s) = Base64.encode s :=
  trim_eq_self fun c hc => (Base64.encode_printable s c hc).1

theorem filter_fields (cwd : Bytes) (key : Bytes) :
    ((inv.fields cwd).filter (·.1 = key)).map (fun f => trim f.2) =
      (if headerKeyCurrentWorkingDir = key then [trim cwd] else []) ++
      (if headerKeyAuthtoken = key then [trim inv.authtoken] else []) ++
      (if headerKeyArg = key then inv.args.map Base64.encode else []) ++
      (if headerKeyEnv = key then inv.envVars.map trim else []) ++
      (if headerKeyCp = key then inv.classpath.toList.map trim else []) := by
  have hfilter : ∀ (k : Bytes) (vs : List Bytes),
      ((vs.map fun v => (k, v)).filter (·.1 = key)).map (fun f => trim f.2) =
        if k = key then vs.map trim else [] := by
    intro k vs
    by_cases hk : k = key <;> simp [List.filter_map, Function.comp_def, hk]
  have hpair : ∀ k v : Bytes, ([(k, v)].filter (·.1 = key)).map (fun f => trim f.2) =
      if k = key then [trim v] else [] := fun k v => hfilter k [v]
  have hargs : (inv.args.map fun arg => (headerKeyArg, Base64.encode arg)) =
      (inv.args.map Base64.encode).map fun v => (headerKeyArg, v) := by
    rw [List.map_map, Function.comp_def]
  have htrim : (inv.args.map Base64.encode).map trim = inv.args.map Base64.encode := by
    rw [List.map_map, Function.comp_def]
    simp only [trim_encode]
  rw [fields, hargs, List.filter_append, List.filter_append, List.filter_append, List.map_append,
    List.map_append, List.map_append, hfilter, hfilter, hfilter, ← List.singleton_append,
    List.filter_append, List.map_append, hpair, hpair, htrim]

end Client.Invocation

/-- The request that the server makes of an invocation. -/
def receivedRequest (inv : Client.Invocation) (cwd : Bytes) (authToken : Option AuthToken)
    (socket : Socket) : InvocationRequest where
  port := socket.port
  cwd := some (trim cwd)
  classpath := inv.classpath.map trim
  args := inv.args
  clientAuthToken := some (trim inv.authtoken)
  serverAuthToken := authToken
  envVars := if inv.envVars = [] then none else some (inv.envVars.map trim)
  protocol := none
  command := none

/-- The server reads the request that the client sends, and no further. -/
theorem readInvocationRequest_text (inv : Client.Invocation) {cwd : Bytes}
    (hplain : inv.Plain cwd) {decodeBase64 : Bytes → Option Bytes}
    (hdecode : ∀ s, decodeBase64 (Base64.encode s) = some s) (authToken : Option AuthToken)
    (socket : Socket) (sleepInterrupted : Bool) (ending : Ending) (rest : Bytes) :
    let request := receivedRequest inv cwd authToken socket
    readInvocationRequest decodeBase64 authToken socket sleepInterrupted ending
      (inv.text cwd ++ rest) =
      (request.check sleepInterrupted).map fun _ => (request, rest) := by
  intro request
  have hkeys : ∀ f ∈ inv.fields cwd, f.1 ≠ [] ∧ lf ∉ f.1 ∧ (58 : UInt8) ∉ f.1 := fun f hf =>
    Client.Invocation.keys_plain f.1 (inv.mem_fields hf)
  have hparse := parseHeaders_fields ending (fun f hf => ⟨(hkeys f hf).1, (hkeys f hf).2.1⟩)
    (inv.lf_notMem_fields hplain) rest
  have hvalues : ∀ key, valuesOf ((inv.fields cwd).map fun f => f.1 ++ (ascii ": " ++ f.2)) key =
      _ := fun key =>
    (valuesOf_fields (fun f hf => (hkeys f hf).2.2) key).trans (inv.filter_fields cwd key)
  have hcwd := hvalues headerKeyCurrentWorkingDir
  have hauth := hvalues headerKeyAuthtoken
  have harg := hvalues headerKeyArg
  have henv := hvalues headerKeyEnv
  have hcp := hvalues headerKeyCp
  have hprotocol := hvalues headerKeyProtocol
  have hcommand := hvalues headerKeyCommand
  simp +decide only [if_true, if_false, List.nil_append, List.append_nil]
    at hcwd hauth harg henv hcp hprotocol hcommand
  have hargs : ((headersOf ((inv.fields cwd).map fun f => f.1 ++ (ascii ": " ++ f.2))).get
      headerKeyArg).getD [] = inv.args.map Base64.encode := by
    rw [get_headersOf, harg]
    split_ifs with hnil
    · rw [hnil]; rfl
    · rfl
  have hclasspath : (inv.classpath.toList.map trim).head? = inv.classpath.map trim := by
    cases inv.classpath <;> rfl
  rw [Client.Invocation.text, List.append_assoc, List.singleton_append, readInvocationRequest,
    hparse, ok_bind]
  dsimp only
  rw [decodeArgs_encode hdecode inv.args hargs, ok_bind, first_headersOf, first_headersOf,
    first_headersOf, first_headersOf, first_headersOf, get_headersOf, hcwd, hauth, henv, hcp,
    hprotocol, hcommand, hclasspath]
  simp only [List.map_eq_nil_iff]
  change (request.check sleepInterrupted >>= fun _ => _) = _
  cases request.check sleepInterrupted <;> rfl

/-- Whatever `send_header` sends for values without line feeds is read back, the
arguments unchanged and in order, and the request that follows is left unread. It
does send when every environment entry has a name and the text is not too long. -/
theorem readInvocationRequest_sendHeader (inv : Client.Invocation) {cwd : CString}
    (hcwd : Client.getcwd inv.cwd = some cwd) (hplain : inv.Plain cwd)
    {decodeBase64 : Bytes → Option Bytes}
    (hdecode : ∀ s, decodeBase64 (Base64.encode s) = some s) (authToken : Option AuthToken)
    (socket : Socket) (sleepInterrupted : Bool) (ending : Ending) :
    (∀ sent, Client.sendHeader inv = .ok sent → ∃ request : InvocationRequest,
      request.args = inv.argv.tail.reduceOption.map Subtype.val ∧
      request.cwd = some (trim cwd) ∧
      request.clientAuthToken = some (trim inv.authtoken) ∧
      request.classpath = inv.classpath.map trim ∧
      request.envVars = (if inv.envVars = [] then none else some (inv.envVars.map trim)) ∧
      request.protocol = none ∧ request.command = none ∧ request.serverAuthToken = authToken ∧
      ∀ rest, readInvocationRequest decodeBase64 authToken socket sleepInterrupted ending
        (sent ++ rest) = (request.check sleepInterrupted).map fun _ => (request, rest)) ∧
    ((∀ entry ∈ inv.environ, 61 ∈ entry.val) ∧ (inv.text cwd).length + 1 ≤ 2 ^ 30 →
      ∃ sent, Client.sendHeader inv = .ok sent) := by
  have hsend := Client.sendHeader_ensures inv hcwd
  refine ⟨fun sent hsent => ?_, hsend.returns⟩
  obtain rfl := hsend.post sent hsent
  refine ⟨receivedRequest inv cwd authToken socket, rfl, rfl, rfl, rfl, rfl, rfl, rfl, rfl,
    fun rest => ?_⟩
  exact readInvocationRequest_text inv hplain hdecode authToken socket sleepInterrupted ending rest

/-- An invocation with empty, multi-line and non-ASCII arguments and a consumed one. -/
def sampleInvocation : Client.Invocation where
  argv := [some ⟨ascii "groovyclient", by decide +kernel⟩, some ⟨[], by decide⟩, none,
    some ⟨[97, 10, 58, 200], by decide⟩]
  authtoken := ⟨ascii "cafe", by decide⟩
  cwd := some ⟨ascii "/tmp", by decide⟩
  environ := [⟨ascii "HOME=/root", by decide⟩, ⟨ascii "CLASSPATH=a:b", by decide⟩]
  option :=
    { envAll := false
      envIncludeMask := ⟨some ⟨ascii "HO", by decide⟩ :: List.replicate 9 none, rfl⟩
      envExcludeMask := ⟨List.replicate 10 none, rfl⟩ }
  memory _ := 255

theorem readInvocationRequest_sendHeader_sample :
    ∃ sent, Client.sendHeader sampleInvocation = .ok sent ∧ ∃ request : InvocationRequest,
      request.args = [[], [97, 10, 58, 200]] ∧
      request.cwd = some (ascii "/tmp") ∧
      ∀ rest, readInvocationRequest Base64.decode (some ⟨ascii "cafe"⟩) ⟨1, true, [], []⟩ false
        .waiting (sent ++ rest) = .ok (request, rest) := by
  obtain ⟨hread, hsend⟩ := readInvocationRequest_sendHeader sampleInvocation
    (rfl : Client.getcwd sampleInvocation.cwd = some ⟨ascii "/tmp", by decide⟩)
    { cwd := by decide
      authtoken := by decide
      envVars := by decide +kernel
      classpath := by decide +kernel }
    Base64.decode_encode (some ⟨ascii "cafe"⟩) ⟨1, true, [], []⟩ false .waiting
  obtain ⟨sent, hsent⟩ := hsend ⟨by decide +kernel, by decide +kernel⟩
  obtain ⟨request, hargs, hcwd, hauth, -, -, -, -, hserver, hrest⟩ := hread sent hsent
  refine ⟨sent, hsent, request, hargs, hcwd.trans (by decide +kernel), fun rest => ?_⟩
  have hcheck : request.check false = .ok () := by
    rw [InvocationRequest.check, hauth, hserver]
    decide +kernel
  rw [hrest rest, hcheck]
  rfl

end GroovyServ

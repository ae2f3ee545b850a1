import GroovyServ.AuthTokenFile
import GroovyServ.HeaderMapRoundTrip

/-!
# The requests of the Groovy client

`run`, `ping` and `shutdown` write header maps with `formatAsHeader`. The client takes
the whole text of the authtoken file for its token. The worker starts the handlers for
exactly what was to be run, and obeys a command, if and only if header lines carry what
is in the map.
-/

namespace GroovyServ

open Lines Server

namespace GroovyClient

/-- The map that `run` builds; keys without values are left out. -/
def runHeaders (authtoken : Bytes) (environments args : List Bytes) :
    List (Bytes × HeaderValue) :=
  [(headerKeyCurrentWorkingDir, .one (ascii "/tmp")), (headerKeyAuthtoken, .one authtoken)] ++
    (if args = [] then [] else [(headerKeyArg, .many (args.map Base64.encode))]) ++
    (if environments = [] then [] else [(headerKeyEnv, .many environments)])

def runRequest (authtoken : Bytes) (environments args : List Bytes) : Bytes :=
  formatAsHeader (runHeaders authtoken environments args) none

def commandHeaders (authtoken command : Bytes) : List (Bytes × HeaderValue) :=
  [(headerKeyAuthtoken, .one authtoken), (headerKeyCommand, .one command)]

def commandRequest (authtoken command : Bytes) : Bytes :=
  formatAsHeader (commandHeaders authtoken command) none

def shutdownRequest (authtoken : Bytes) : Bytes := commandRequest authtoken (ascii "shutdown")

def pingRequest (authtoken : Bytes) : Bytes := commandRequest authtoken (ascii "ping")

variable {authtoken : Bytes} {environments args : List Bytes}

def allHeaders (authtoken : Bytes) (environments args : List Bytes) :
    List (Bytes × HeaderValue) :=
  [(headerKeyCurrentWorkingDir, .one (ascii "/tmp")), (headerKeyAuthtoken, .one authtoken),
    (headerKeyArg, .many (args.map Base64.encode)), (headerKeyEnv, .many environments)]

theorem runRequest_eq : runRequest authtoken environments args =
    formatAsHeader (allHeaders authtoken environments args) none := by
  unfold runRequest runHeaders allHeaders
  split_ifs with hargs henv henv
  · subst hargs henv
    simp [formatAsHeader]
  · subst hargs
    simp [formatAsHeader]
  · subst henv
    simp [formatAsHeader]
  · rfl

theorem formattable_allHeaders (hauth : lf ∉ authtoken ∧ Trimmed authtoken)
    (henv : ∀ entry ∈ environments, lf ∉ entry ∧ Trimmed entry) :
    Formattable (allHeaders authtoken environments args) where
  distinct := by
    change [headerKeyCurrentWorkingDir, headerKeyAuthtoken, headerKeyArg, headerKeyEnv].Nodup
    decide
  keys := by
    have hplain : ∀ key ∈ [headerKeyCurrentWorkingDir, headerKeyAuthtoken, headerKeyArg,
        headerKeyEnv], key ≠ [] ∧ (58 : UInt8) ∉ key ∧ lf ∉ key := by decide
    exact fun entry hentry => hplain entry.1 (List.mem_map_of_mem hentry)
  values := by
    have hcwd : lf ∉ ascii "/tmp" ∧ Trimmed (ascii "/tmp") := by unfold Trimmed; decide +kernel
    have hargs : ∀ v ∈ args.map Base64.encode, lf ∉ v ∧ Trimmed v := by
      rw [List.forall_mem_map]
      intro arg _
      exact ⟨fun h => absurd (Base64.encode_printable arg lf h).1 (by decide),
        (trim_eq_self_iff _).mp (Client.Invocation.trim_encode arg)⟩
    simp only [allHeaders, List.forall_mem_cons, HeaderValue.values]
    exact ⟨⟨hcwd, List.forall_mem_nil _⟩, ⟨hauth, List.forall_mem_nil _⟩, hargs, henv,
      List.forall_mem_nil _⟩

theorem formattable_commandHeaders (hauth : lf ∉ authtoken ∧ Trimmed authtoken) {command : Bytes}
    (hcommand : lf ∉ command ∧ Trimmed command) :
    Formattable (commandHeaders authtoken command) where
  distinct := by
    change [headerKeyAuthtoken, headerKeyCommand].Nodup
    decide
  keys := by
    have hplain : ∀ key ∈ [headerKeyAuthtoken, headerKeyCommand],
        key ≠ [] ∧ (58 : UInt8) ∉ key ∧ lf ∉ key := by decide
    exact fun entry hentry => hplain entry.1 (List.mem_map_of_mem hentry)
  values := by
    simp only [commandHeaders, List.forall_mem_cons, HeaderValue.values]
    exact ⟨⟨hauth, List.forall_mem_nil _⟩, ⟨hcommand, List.forall_mem_nil _⟩,
      List.forall_mem_nil _⟩

def runReceived (t : AuthToken) (socket : Socket) (environments args : List Bytes) :
    InvocationRequest where
  port := socket.port
  cwd := some (ascii "/tmp")
  classpath := none
  args := args
  clientAuthToken := some t.token
  serverAuthToken := some t
  envVars := if environments = [] then none else some environments
  protocol := none
  command := none

def commandReceived (t : AuthToken) (socket : Socket) (command : Bytes) : InvocationRequest where
  port := socket.port
  cwd := none
  classpath := none
  args := []
  clientAuthToken := some t.token
  serverAuthToken := some t
  envVars := none
  protocol := none
  command := some command

variable {a : Accepted} {t : AuthToken}

theorem get_parsedMap_nil (key : Bytes) : (parsedMap []).get key = none := rfl

theorem get_parsedMap_cons (entry : Bytes × HeaderValue) (map : List (Bytes × HeaderValue))
    (key : Bytes) : (parsedMap (entry :: map)).get key =
      if entry.1 = key ∧ entry.2.values ≠ [] then some entry.2.values
      else (parsedMap map).get key := by
  by_cases hnil : entry.2.values = []
  · simp [parsedMap, hnil]
  · by_cases hkey : entry.1 = key
    · simp [parsedMap, HeaderMap.get, hnil, hkey]
    · have hne : (key == entry.1) = false := beq_false_of_ne (Ne.symm hkey)
      simp [parsedMap, HeaderMap.get, hnil, hkey, List.lookup_cons, hne]

/-- A connection that shows the server's token opens a session. -/
theorem openSession_of_headers (hserver : a.server.authToken = some t) (hne : t.token ≠ [])
    (haddress : a.socket.localLoopback = true ∨ a.socket.hostAddress ∈ a.server.allowFrom)
    {headers : HeaderMap} {bytes rest : Bytes}
    (hheaders : parseHeaders a.ending bytes = .ok (headers, rest))
    (hauth : headers.first headerKeyAuthtoken = some t.token)
    (hargs : decodeArgs a.decodeBase64 (headers.get headerKeyArg) = .ok args) :
    openSession { a with bytes := bytes } =
      .ok ({ port := a.socket.port
             cwd := headers.first headerKeyCurrentWorkingDir
             classpath := headers.first headerKeyCp
             args := args
             clientAuthToken := some t.token
             serverAuthToken := some t
             envVars := headers.get headerKeyEnv
             protocol := headers.first headerKeyProtocol
             command := headers.first headerKeyCommand }, rest) := by
  rw [openSession, checkAllowedClientAddress_of_allowed haddress, ok_bind, readInvocationRequest,
    hheaders, ok_bind]
  dsimp only
  rw [hargs, ok_bind, hauth, hserver, InvocationRequest.check_of_token rfl hne rfl rfl, ok_bind]

theorem openSession_run (hserver : a.server.authToken = some t) (hne : t.token ≠ [])
    (haddress : a.socket.localLoopback = true ∨ a.socket.hostAddress ∈ a.server.allowFrom)
    (hdecode : ∀ s, a.decodeBase64 (Base64.encode s) = some s)
    (hauth : lf ∉ t.token ∧ Trimmed t.token)
    (henv : ∀ entry ∈ environments, lf ∉ entry ∧ Trimmed entry) (rest : Bytes) :
    openSession { a with bytes := runRequest t.token environments args ++ rest } =
      .ok (runReceived t a.socket environments args, rest) := by
  have hformattable : Formattable (allHeaders t.token environments args) :=
    formattable_allHeaders hauth henv
  have hheaders := parseHeaders_formatAsHeader hformattable a.ending rest
  rw [← runRequest_eq] at hheaders
  have hargs : decodeArgs a.decodeBase64
      ((parsedMap (allHeaders t.token environments args)).get headerKeyArg) = .ok args := by
    apply decodeArgs_encode hdecode
    have hget : (parsedMap (allHeaders t.token environments args)).get headerKeyArg =
        if args = [] then none else some (args.map Base64.encode) := by
      simp +decide [allHeaders, get_parsedMap_cons, get_parsedMap_nil, HeaderValue.values]
    rw [hget]
    split_ifs with h
    · rw [h]
      rfl
    · rfl
  rw [openSession_of_headers hserver hne haddress hheaders rfl hargs]
  simp +decide [HeaderMap.first, runReceived, allHeaders, get_parsedMap_cons, get_parsedMap_nil,
    HeaderValue.values]

theorem openSession_command (hserver : a.server.authToken = some t) (hne : t.token ≠ [])
    (haddress : a.socket.localLoopback = true ∨ a.socket.hostAddress ∈ a.server.allowFrom)
    (hauth : lf ∉ t.token ∧ Trimmed t.token) {command : Bytes}
    (hcommand : lf ∉ command ∧ Trimmed command) (rest : Bytes) :
    openSession { a with bytes := commandRequest t.token command ++ rest } =
      .ok (commandReceived t a.socket command, rest) := by
  have hheaders := parseHeaders_formatAsHeader (formattable_commandHeaders hauth hcommand)
    a.ending rest
  rw [commandRequest, openSession_of_headers hserver hne haddress hheaders rfl rfl]
  rfl

theorem plain_of_openSession (hserver : a.server.authToken = some t) {bytes rest : Bytes}
    {request : InvocationRequest}
    (h : openSession { a with bytes := bytes } = .ok (request, rest)) :
    lf ∉ t.token ∧ Trimmed t.token := by
  obtain ⟨_, -, h⟩ := bind_eq_ok.mp h
  have hplain := readInvocationRequest_plain h
  obtain ⟨⟨headers, rest'⟩, -, h⟩ := bind_eq_ok.mp h
  obtain ⟨args, -, h⟩ := bind_eq_ok.mp h
  obtain ⟨_, hcheck, h⟩ := bind_eq_ok.mp h
  obtain ⟨auth, hauth, -, t', htoken, heq⟩ := InvocationRequest.check_ok hcheck
  cases h
  obtain rfl : t = t' := Option.some.inj (hserver.symm.trans htoken)
  exact heq ▸ hplain.clientAuthToken auth hauth

/-- A worker that does anything but refuse the connection has opened a session. -/
theorem exists_openSession (h : ∀ stop, runRequestWorker a ≠ refuse stop) :
    ∃ request rest, openSession a = .ok (request, rest) := by
  cases hopen : openSession a with
  | ok r => exact ⟨r.1, r.2, rfl⟩
  | error stop => exact absurd (by rw [runRequestWorker, hopen]) (h stop)

theorem ne_refuse_of_two {actions : List Action} (h : 2 ≤ actions.length) (stop : Stop) :
    actions ≠ refuse stop := by
  rcases refuse_cases stop with hnil | ⟨status, message, -, hone⟩
  · rw [hnil]
    rintro rfl
    cases h
  · rw [hone]
    rintro rfl
    exact absurd h (by simp)

theorem submitGroovyInvokeHandler_notMem_closeSafely (silentExitStatus : Bool) (exitStatus : ℤ)
    (request : InvocationRequest) :
    .submitGroovyInvokeHandler request ∉ closeSafely silentExitStatus exitStatus := by
  cases silentExitStatus <;> simp [closeSafely]

theorem runRequestWorker_ping (hserver : a.server.authToken = some t) (hne : t.token ≠ [])
    (haddress : a.socket.localLoopback = true ∨ a.socket.hostAddress ∈ a.server.allowFrom)
    (hauth : lf ∉ t.token ∧ Trimmed t.token) (rest : Bytes) :
    runRequestWorker { a with bytes := pingRequest t.token ++ rest } =
      closeSafely false ExitStatus.success.code := by
  have hcommand : lf ∉ ascii "ping" ∧ Trimmed (ascii "ping") := by
    unfold Trimmed
    decide +kernel
  rw [runRequestWorker, pingRequest, openSession_command hserver hne haddress hauth hcommand rest]
  rfl

theorem runRequestWorker_shutdown (hserver : a.server.authToken = some t) (hne : t.token ≠ [])
    (haddress : a.socket.localLoopback = true ∨ a.socket.hostAddress ∈ a.server.allowFrom)
    (hauth : lf ∉ t.token ∧ Trimmed t.token) (rest : Bytes) :
    runRequestWorker { a with bytes := shutdownRequest t.token ++ rest } =
      closeSafely false ExitStatus.success.code ++ [.shutdownServer] := by
  have hcommand : lf ∉ ascii "shutdown" ∧ Trimmed (ascii "shutdown") := by
    unfold Trimmed
    decide +kernel
  rw [runRequestWorker, shutdownRequest,
    openSession_command hserver hne haddress hauth hcommand rest]
  rfl

variable (a) (t)

/-- The worker obeys the commands that the client sends if and only if a header line
carries the server's token, and refuses them otherwise. -/
theorem commands_obeyed_iff (hserver : a.server.authToken = some t) (hne : t.token ≠ [])
    (haddress : a.socket.localLoopback = true ∨ a.socket.hostAddress ∈ a.server.allowFrom)
    (rest : Bytes) :
    (runRequestWorker { a with bytes := pingRequest t.token ++ rest } =
        closeSafely false ExitStatus.success.code ↔ lf ∉ t.token ∧ Trimmed t.token) ∧
      (runRequestWorker { a with bytes := shutdownRequest t.token ++ rest } =
        closeSafely false ExitStatus.success.code ++ [.shutdownServer] ↔
          lf ∉ t.token ∧ Trimmed t.token) ∧
      (¬ (lf ∉ t.token ∧ Trimmed t.token) → ∀ command, ∃ stop,
        runRequestWorker { a with bytes := commandRequest t.token command ++ rest } =
          refuse stop) := by
  have hplain : ∀ command : Bytes,
      2 ≤ (runRequestWorker { a with bytes := commandRequest t.token command ++ rest }).length →
        lf ∉ t.token ∧ Trimmed t.token := by
    intro command htwo
    obtain ⟨request, rest', hopen⟩ := exists_openSession (ne_refuse_of_two htwo)
    exact plain_of_openSession hserver hopen
  refine ⟨⟨fun h => hplain (ascii "ping") ?_, fun h => ?_⟩,
    ⟨fun h => hplain (ascii "shutdown") ?_, fun h => ?_⟩, fun hnot command => ?_⟩
  · rw [← pingRequest, h]
    decide
  · exact runRequestWorker_ping hserver hne haddress h rest
  · rw [← shutdownRequest, h]
    decide
  · exact runRequestWorker_shutdown hserver hne haddress h rest
  · by_contra hrefuse
    obtain ⟨request, rest', hopen⟩ := exists_openSession (not_exists.mp hrefuse)
    exact hnot (plain_of_openSession hserver hopen)

def sampleConnection : Accepted where
  decodeBase64 := Base64.decode
  server := { allowFrom := [], authToken := some (.create none 51966) }
  socket := { port := 1961, localLoopback := true, hostAddress := [], text := [] }
  sleepInterrupted := false
  ending := .waiting
  bytes := []

theorem commands_obeyed_iff_generated :
    runRequestWorker { sampleConnection with bytes := shutdownRequest (ascii "cafe") ++ [] } =
      closeSafely false ExitStatus.success.code ++ [.shutdownServer] := by
  have hgenerated := usable_generated 51966
  have htoken : (AuthToken.create none 51966).token = ascii "cafe" := by decide +kernel
  rw [← htoken]
  exact (commands_obeyed_iff sampleConnection _ rfl (AuthToken.create_ne_nil none 51966) (.inl rfl)
    []).2.1.mpr ⟨hgenerated.line, hgenerated.trimmed⟩

/-- The worker starts the handlers for what was to be run if and only if header lines
carry the token and the environment. -/
theorem run_started_iff (hserver : a.server.authToken = some t) (hne : t.token ≠ [])
    (haddress : a.socket.localLoopback = true ∨ a.socket.hostAddress ∈ a.server.allowFrom)
    (hdecode : ∀ s, a.decodeBase64 (Base64.encode s) = some s) (environments args : List Bytes)
    (rest : Bytes) :
    runRequestWorker { a with bytes := runRequest t.token environments args ++ rest } =
        handleRequest (runReceived t a.socket environments args) ↔
      (lf ∉ t.token ∧ Trimmed t.token) ∧ ∀ entry ∈ environments, lf ∉ entry ∧ Trimmed entry := by
  constructor
  · intro h
    have htwo : 2 ≤ (runRequestWorker
        { a with bytes := runRequest t.token environments args ++ rest }).length := by
      rw [h]
      exact Nat.le_succ 2
    obtain ⟨request, rest', hopen⟩ := exists_openSession (ne_refuse_of_two htwo)
    refine ⟨plain_of_openSession hserver hopen, ?_⟩
    have hplain : request.PlainValues := by
      obtain ⟨_, -, hread⟩ := bind_eq_ok.mp hopen
      exact readInvocationRequest_plain hread
    have hrequest : request = runReceived t a.socket environments args := by
      have hmem : .submitGroovyInvokeHandler (runReceived t a.socket environments args) ∈
          runRequestWorker { a with bytes := runRequest t.token environments args ++ rest } := by
        rw [h]
        simp [handleRequest]
      rw [runRequestWorker, hopen] at hmem
      dsimp only at hmem
      split_ifs at hmem
      · exact absurd hmem (submitGroovyInvokeHandler_notMem_closeSafely _ _ _)
      · rcases List.mem_append.mp hmem with hclose | hshutdown
        · exact absurd hclose (submitGroovyInvokeHandler_notMem_closeSafely _ _ _)
        · cases List.mem_singleton.mp hshutdown
      · simpa [handleRequest, eq_comm] using hmem
    intro entry hentry
    refine hplain.envVars entry ?_
    have hnil : environments ≠ [] := List.ne_nil_of_mem hentry
    rw [hrequest, runReceived, if_neg hnil]
    exact hentry
  · rintro ⟨hauth, henv⟩
    rw [runRequestWorker, openSession_run hserver hne haddress hdecode hauth henv rest]
    rfl

theorem run_started_iff_script :
    runRequestWorker { sampleConnection with
        bytes := runRequest (ascii "cafe") [ascii "A=1"] [ascii "x.groovy"] ++ [] } =
      handleRequest (runReceived (.create none 51966) sampleConnection.socket [ascii "A=1"]
        [ascii "x.groovy"]) := by
  have hgenerated := usable_generated 51966
  have htoken : (AuthToken.create none 51966).token = ascii "cafe" := by decide +kernel
  have hentry : ∀ entry ∈ [ascii "A=1"], lf ∉ entry ∧ Trimmed entry := by
    unfold Trimmed
    decide +kernel
  rw [← htoken]
  exact (run_started_iff sampleConnection _ rfl (AuthToken.create_ne_nil none 51966) (.inl rfl)
    Base64.decode_encode _ _ []).mpr
      ⟨⟨hgenerated.line, hgenerated.trimmed⟩, hentry⟩

end GroovyClient
end GroovyServ

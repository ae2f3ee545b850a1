import GroovyServ.AuthTokenFile
import GroovyServ.RubySession

/-!
# The request of the Ruby client

`sendCommand` follows `send_command` with the functions it calls: it is the list of the
strings that are given to `socket.puts`. What it sends is the request of the C client for
the same arguments, environment and token, but for the order of the headers, and the
server reads both as one and the same request.
-/

namespace GroovyServ.RubyClient

open Lines Server

/-- The lines of `Base64.encode64`, each of 45 bytes; their number is fuel enough. -/
def encodeLines : ℕ → Bytes → Bytes
  | 0, _ => []
  | fuel + 1, s =>
    if s = [] then [] else Base64.encode (s.take 45) ++ lf :: encodeLines fuel (s.drop 45)

def encode64 (s : Bytes) : Bytes := encodeLines s.length s

def isBlank (c : UInt8) : Bool := decide (c ∈ ([32, 9, 10, 11, 12, 13] : Bytes))

def encodeArg (arg : Bytes) : Bytes := (encode64 arg).filter fun c => !isBlank c

/-- What `ENV.each` goes through: an entry without `=` is left out. -/
def envPairs (environ : List Bytes) : List (Bytes × Bytes) :=
  environ.filterMap fun entry =>
    if 61 ∈ entry then some (entry.takeWhile (· ≠ 61), (entry.dropWhile (· ≠ 61)).tail) else none

def includes (key item : Bytes) : Bool := decide (item <:+: key)

def sendEnvvars (g : Globals) : List Bytes :=
  (envPairs g.environ).filterMap fun (key, value) =>
    if g.options.client.envAll || g.options.client.envIncludeMask.any (includes key) then
      if !g.options.client.envExcludeMask.any (includes key) then
        some (ascii "Env: " ++ (key ++ 61 :: value))
      else none
    else none

/-- `authtoken`. Without a home directory the program has ended at its constants before,
whether it needs the file or not; without a file that can be read it ends here. -/
def authtoken (g : Globals) (files : Files) : Except SessionStop Bytes :=
  match Client.getenv g.environ (ascii "HOME") with
  | none => .error .raises
  | some home =>
    match g.options.client.authtoken with
    | some token => .ok token
    | none =>
      match files (home ++ (ascii "/.groovy/groovyserv/authtoken-" ++ g.port)) with
      | some text => .ok text
      | none => .error (.exits 1)

def sendCommand (g : Globals) (files : Files) (currentDir : Bytes) (args : List Bytes) :
    Except SessionStop (List Bytes) := do
  let token ← authtoken g files
  .ok ([ascii "Cwd: " ++ currentDir] ++
    args.map (fun arg => ascii "Arg: " ++ encodeArg arg) ++
    [ascii "Auth: " ++ token] ++
    sendEnvvars g ++
    ((Client.getenv g.environ (ascii "CLASSPATH")).toList.map fun cp => ascii "Cp: " ++ cp) ++
    [[]])

def commandText (lines : List Bytes) : Bytes := lines.flatMap puts

theorem encode_append {a b : Bytes} (ha : a.length % 3 = 0) :
    Base64.encode (a ++ b) = Base64.encode a ++ Base64.encode b := by
  fun_induction Base64.encode a with
  | case1 x y z rest ih =>
    simp only [List.length_cons] at ha
    simp only [List.cons_append, Base64.encode, ih (by omega)]
    simp
  | case2 x y => simp at ha
  | case3 x => simp at ha
  | case4 => rfl

theorem not_isBlank_of_printable {c : UInt8} (hc : 33 ≤ c.toNat) : isBlank c = false := by
  simp only [isBlank, List.mem_cons, List.not_mem_nil, or_false, decide_eq_false_iff_not, not_or]
  refine ⟨?_, ?_, ?_, ?_, ?_, ?_⟩ <;> rintro rfl <;> exact absurd hc (by decide)

theorem filter_encode (s : Bytes) : (Base64.encode s).filter (fun c => !isBlank c) =
    Base64.encode s := by
  rw [List.filter_eq_self]
  intro c hc
  rw [not_isBlank_of_printable (Base64.encode_printable s c hc).1]
  rfl

theorem filter_encodeLines {fuel : ℕ} {s : Bytes} (hfuel : s.length ≤ fuel) :
    (encodeLines fuel s).filter (fun c => !isBlank c) = Base64.encode s := by
  induction fuel generalizing s with
  | zero =>
    obtain rfl := List.length_eq_zero_iff.mp (Nat.le_zero.mp hfuel)
    rfl
  | succ fuel ih =>
    rw [encodeLines]
    split_ifs with hnil
    · rw [hnil]
      rfl
    · have hdrop : (s.drop 45).length ≤ fuel := by
        have := List.length_pos_of_ne_nil hnil
        rw [List.length_drop]
        omega
      have hlf : isBlank lf = true := by decide
      rw [List.filter_append, filter_encode, List.filter_cons, hlf, ih hdrop]
      by_cases hlong : 45 ≤ s.length
      · have htake : (s.take 45).length % 3 = 0 := by
          rw [List.length_take, Nat.min_eq_left hlong]
        have h := encode_append (b := s.drop 45) htake
        rw [List.take_append_drop] at h
        rw [h]
        rfl
      · rw [List.take_of_length_le (by omega), List.drop_of_length_le (by omega)]
        exact List.append_nil _

theorem encodeArg_eq (arg : Bytes) : encodeArg arg = Base64.encode arg :=
  filter_encodeLines le_rfl

def masksOf (masks : Client.Masks) : List Bytes :=
  (masks.val.takeWhile Option.isSome).reduceOption.map Subtype.val

/-- Both clients are given the same: the arguments, the environment with the masks that
choose from it, the directory and the token. -/
structure SameInvocation (g : Globals) (files : Files) (args : List Bytes)
    (inv : Client.Invocation) : Prop where
  args : inv.args = args
  environ : inv.environ.map Subtype.val = g.environ
  named : ∀ entry ∈ g.environ, 61 ∈ entry
  envAll : g.options.client.envAll = inv.option.envAll
  includeMask : g.options.client.envIncludeMask = masksOf inv.option.envIncludeMask
  excludeMask : g.options.client.envExcludeMask = masksOf inv.option.envExcludeMask
  authtoken : authtoken g files = .ok inv.authtoken.val

def fields (inv : Client.Invocation) (cwd : Bytes) : List (Bytes × Bytes) :=
  [(headerKeyCurrentWorkingDir, cwd)] ++
    (inv.args.map fun arg => (headerKeyArg, Base64.encode arg)) ++
    [(headerKeyAuthtoken, inv.authtoken.val)] ++
    (inv.envVars.map fun entry => (headerKeyEnv, entry)) ++
    (inv.classpath.toList.map fun cp => (headerKeyCp, cp))

theorem any_masksOf (masks : Client.Masks) (entry : Bytes) :
    (masksOf masks).any (includes (Client.envName entry)) = Client.anyMask masks entry := by
  rw [masksOf, Client.anyMask]
  generalize masks.val = slots
  induction slots with
  | nil => rfl
  | cons slot slots ih =>
    cases slot with
    | none => rfl
    | some m =>
      rw [List.takeWhile_cons_of_pos rfl, List.reduceOption_cons_of_some, List.map_cons,
        List.any_cons, List.any_cons, ih]
      rfl

theorem envPairs_eq {environ : List Bytes} (hnamed : ∀ entry ∈ environ, 61 ∈ entry) :
    envPairs environ = environ.map fun entry =>
      (Client.envName entry, (entry.dropWhile (· ≠ 61)).tail) := by
  rw [envPairs]
  induction environ with
  | nil => rfl
  | cons entry environ ih =>
    rw [List.forall_mem_cons] at hnamed
    rw [List.filterMap_cons, if_pos hnamed.1, ih hnamed.2]
    rfl

theorem name_value_eq {entry : Bytes} (hentry : 61 ∈ entry) :
    Client.envName entry ++ 61 :: (entry.dropWhile (· ≠ 61)).tail = entry := by
  obtain ⟨name, value, rfl, hname⟩ := List.eq_append_cons_of_mem hentry
  have hall : ∀ c ∈ name, (decide (c ≠ 61)) = true := fun c hc =>
    decide_eq_true fun h => hname (h ▸ hc)
  rw [Client.envName, List.takeWhile_append_of_pos hall, List.dropWhile_append_of_pos hall]
  simp

section Same

variable {g : Globals} {files : Files} {args : List Bytes} {inv : Client.Invocation}

theorem sendEnvvars_eq (h : SameInvocation g files args inv) :
    sendEnvvars g = inv.envVars.map fun entry => ascii "Env: " ++ entry := by
  have hnamed := h.named
  rw [sendEnvvars, envPairs_eq hnamed, Client.Invocation.envVars, h.environ]
  generalize g.environ = environ at hnamed
  induction environ with
  | nil => rfl
  | cons entry environ ih =>
    rw [List.forall_mem_cons] at hnamed
    have hselect : inv.option.Selects entry =
        ((g.options.client.envAll ||
            g.options.client.envIncludeMask.any (includes (Client.envName entry))) &&
          !g.options.client.envExcludeMask.any (includes (Client.envName entry))) := by
      rw [h.envAll, h.includeMask, h.excludeMask, any_masksOf, any_masksOf,
        Client.ClientOption.Selects]
    rw [List.map_cons, List.filterMap_cons, ih hnamed.2, List.filter_cons, hselect]
    dsimp only
    rw [name_value_eq hnamed.1]
    generalize (g.options.client.envAll ||
      g.options.client.envIncludeMask.any (includes (Client.envName entry))) = included
    generalize g.options.client.envExcludeMask.any (includes (Client.envName entry)) = excluded
    cases included <;> cases excluded <;> rfl

theorem fields_perm (inv : Client.Invocation) (cwd : Bytes) :
    (fields inv cwd).Perm (inv.fields cwd) := by
  rw [fields, Client.Invocation.fields]
  refine ((List.Perm.append_right _ ?_).append_right _)
  rw [List.append_assoc]
  exact (List.perm_append_comm.append_left _).trans (List.Perm.of_eq (by simp))

theorem puts_line {line : Bytes} (hline : lf ∉ line) : puts line = line ++ [lf] := by
  rw [puts, if_neg fun h => hline (List.mem_of_getLast? h)]

theorem commandText_eq {fields : List (Bytes × Bytes)} (hkeys : ∀ f ∈ fields, lf ∉ f.1)
    (hvalues : ∀ f ∈ fields, lf ∉ f.2) :
    commandText ((fields.map fun f => f.1 ++ (ascii ": " ++ f.2)) ++ [[]]) =
      headersText fields ++ [lf] := by
  have hlast : commandText [[]] = [lf] := rfl
  have hsplit : ∀ ls ls', commandText (ls ++ ls') = commandText ls ++ commandText ls' :=
    fun ls ls' => List.flatMap_append
  rw [hsplit, hlast]
  congr 1
  induction fields with
  | nil => rfl
  | cons f fields ih =>
    rw [List.forall_mem_cons] at hkeys hvalues
    have hline : lf ∉ f.1 ++ (ascii ": " ++ f.2) := by
      simp only [List.mem_append, not_or]
      exact ⟨hkeys.1, by decide, hvalues.1⟩
    rw [List.map_cons, headersText_cons, ← ih hkeys.2 hvalues.2]
    change puts _ ++ commandText _ = _
    rw [puts_line hline, headerLine]
    simp

theorem sendCommand_text (h : SameInvocation g files args inv) {cwd : Bytes}
    (hplain : inv.Plain cwd) :
    ∃ lines, sendCommand g files cwd args = .ok lines ∧
      commandText lines = headersText (fields inv cwd) ++ [lf] := by
  refine ⟨(fields inv cwd).map (fun f => f.1 ++ (ascii ": " ++ f.2)) ++ [[]], ?_, ?_⟩
  · have hcp : Client.getenv g.environ (ascii "CLASSPATH") = inv.classpath := by
      rw [Client.Invocation.classpath, h.environ]
    rw [sendCommand, h.authtoken, ok_bind, sendEnvvars_eq h, hcp, ← h.args]
    simp only [fields, List.map_append, List.map_cons, List.map_nil, List.map_map,
      Function.comp_def, encodeArg_eq]
    rfl
  · have hmem : ∀ f ∈ fields inv cwd, f ∈ inv.fields cwd := fun f hf =>
      (fields_perm inv cwd).mem_iff.mp hf
    exact commandText_eq
      (fun f hf => (Client.Invocation.keys_plain f.1 (inv.mem_fields (hmem f hf))).2.1)
      fun f hf => inv.lf_notMem_fields hplain f (hmem f hf)

theorem filter_fields_eq (inv : Client.Invocation) (cwd key : Bytes) :
    (fields inv cwd).filter (·.1 = key) = (inv.fields cwd).filter (·.1 = key) := by
  have hswap : ([(headerKeyCurrentWorkingDir, cwd)] ++
      (inv.args.map fun arg => (headerKeyArg, Base64.encode arg)) ++
      [(headerKeyAuthtoken, inv.authtoken.val)]).filter (·.1 = key) =
      ([(headerKeyCurrentWorkingDir, cwd), (headerKeyAuthtoken, inv.authtoken.val)] ++
        (inv.args.map fun arg => (headerKeyArg, Base64.encode arg))).filter (·.1 = key) := by
    by_cases hkey : headerKeyArg = key
    · have hauth : headerKeyAuthtoken ≠ key := by
        rintro rfl
        exact absurd hkey (by decide)
      simp [List.filter_cons, hauth]
    · have hargs : (inv.args.map fun arg => (headerKeyArg, Base64.encode arg)).filter
          (·.1 = key) = [] := by
        rw [List.filter_eq_nil_iff]
        intro f hf
        obtain ⟨arg, -, rfl⟩ := List.mem_map.mp hf
        simpa using hkey
      simp only [List.filter_append, hargs, List.append_nil]
      exact (List.filter_append _ _).symm
  rw [fields, Client.Invocation.fields, List.filter_append, List.filter_append, hswap,
    ← List.filter_append, ← List.filter_append]

/-- A request is what each key has for values, in whatever order the keys stand. -/
theorem readInvocationRequest_congr {fields fields' : List (Bytes × Bytes)}
    (hkeys : ∀ f ∈ fields, f.1 ≠ [] ∧ lf ∉ f.1 ∧ (58 : UInt8) ∉ f.1)
    (hvalues : ∀ f ∈ fields, lf ∉ f.2)
    (hsame : ∀ key : Bytes, fields.filter (·.1 = key) = fields'.filter (·.1 = key))
    (decodeBase64 : Bytes → Option Bytes) (authToken : Option AuthToken) (socket : Socket)
    (sleepInterrupted : Bool) (ending : Ending) (rest : Bytes) :
    readInvocationRequest decodeBase64 authToken socket sleepInterrupted ending
        (headersText fields ++ lf :: rest) =
      readInvocationRequest decodeBase64 authToken socket sleepInterrupted ending
        (headersText fields' ++ lf :: rest) := by
  have hmem : ∀ f ∈ fields', f ∈ fields := fun f hf =>
    List.mem_of_mem_filter (hsame f.1 ▸ List.mem_filter.mpr ⟨hf, decide_eq_true rfl⟩)
  have hget : ∀ key,
      (headersOf (fields.map fun f => f.1 ++ (ascii ": " ++ f.2))).get key =
        (headersOf (fields'.map fun f => f.1 ++ (ascii ": " ++ f.2))).get key := by
    intro key
    rw [get_headersOf_eq_iff, valuesOf_fields fun f hf => (hkeys f hf).2.2,
      valuesOf_fields fun f hf => (hkeys f (hmem f hf)).2.2, hsame]
  rw [readInvocationRequest, readInvocationRequest,
    parseHeaders_fields ending (fun f hf => ⟨(hkeys f hf).1, (hkeys f hf).2.1⟩) hvalues,
    parseHeaders_fields ending
      (fun f hf => ⟨(hkeys f (hmem f hf)).1, (hkeys f (hmem f hf)).2.1⟩)
      fun f hf => hvalues f (hmem f hf), ok_bind, ok_bind]
  simp only [HeaderMap.first, hget]

theorem readInvocationRequest_text (h : SameInvocation g files args inv) {cwd : Bytes}
    (hplain : inv.Plain cwd) :
    ∃ lines, sendCommand g files cwd args = .ok lines ∧
      ∀ decodeBase64 authToken socket sleepInterrupted ending rest,
        readInvocationRequest decodeBase64 authToken socket sleepInterrupted ending
            (commandText lines ++ rest) =
          readInvocationRequest decodeBase64 authToken socket sleepInterrupted ending
            (inv.text cwd ++ rest) := by
  obtain ⟨lines, hlines, htext⟩ := sendCommand_text h hplain
  refine ⟨lines, hlines, fun decodeBase64 authToken socket sleepInterrupted ending rest => ?_⟩
  have hmem : ∀ f ∈ fields inv cwd, f ∈ inv.fields cwd := fun f hf =>
    (fields_perm inv cwd).mem_iff.mp hf
  rw [htext, Client.Invocation.text, List.append_assoc, List.append_assoc, List.singleton_append]
  exact readInvocationRequest_congr
    (fun f hf => Client.Invocation.keys_plain f.1 (inv.mem_fields (hmem f hf)))
    (fun f hf => inv.lf_notMem_fields hplain f (hmem f hf)) (filter_fields_eq inv cwd)
    decodeBase64 authToken socket sleepInterrupted ending rest

/-- The server makes the same of what the two clients send, whatever its token and however
it decodes arguments. -/
theorem readInvocationRequest_sendCommand (h : SameInvocation g files args inv) {cwd : CString}
    (hcwd : Client.getcwd inv.cwd = some cwd) (hplain : inv.Plain cwd) {sent : Bytes}
    (hsent : Client.sendHeader inv = .ok sent) :
    ∃ lines, sendCommand g files cwd args = .ok lines ∧
      ∀ decodeBase64 authToken socket sleepInterrupted ending rest,
        readInvocationRequest decodeBase64 authToken socket sleepInterrupted ending
            (commandText lines ++ rest) =
          readInvocationRequest decodeBase64 authToken socket sleepInterrupted ending
            (sent ++ rest) := by
  obtain rfl := (Client.sendHeader_ensures inv hcwd).post sent hsent
  exact readInvocationRequest_text h hplain

end Same

def sampleGlobals : Globals where
  environ := [ascii "HOME=/root", ascii "CLASSPATH=a:b"]
  options :=
    { client := { authtoken := some (ascii "cafe"), envIncludeMask := [ascii "HO"] }
      server := { args := [[], [97, 10, 58, 200]] } }

theorem sampleGlobals_same :
    SameInvocation sampleGlobals (fun _ => none) [[], [97, 10, 58, 200]] sampleInvocation where
  args := by decide +kernel
  environ := by decide +kernel
  named := by decide +kernel
  envAll := rfl
  includeMask := by decide +kernel
  excludeMask := by decide +kernel
  authtoken := rfl

theorem readInvocationRequest_sendCommand_sample :
    ∃ sent lines, Client.sendHeader sampleInvocation = .ok sent ∧
      sendCommand sampleGlobals (fun _ => none) (ascii "/tmp") [[], [97, 10, 58, 200]] =
        .ok lines ∧
      ∀ rest, readInvocationRequest Base64.decode (some ⟨ascii "cafe"⟩) ⟨1, true, [], []⟩ false
          .waiting (commandText lines ++ rest) =
        readInvocationRequest Base64.decode (some ⟨ascii "cafe"⟩) ⟨1, true, [], []⟩ false
          .waiting (sent ++ rest) := by
  have hcwd : Client.getcwd sampleInvocation.cwd = some ⟨ascii "/tmp", by decide⟩ := rfl
  obtain ⟨sent, hsent⟩ := (Client.sendHeader_ensures sampleInvocation hcwd).returns
    ⟨by decide +kernel, by decide +kernel⟩
  obtain ⟨lines, hlines, hread⟩ := readInvocationRequest_sendCommand sampleGlobals_same hcwd
    { cwd := by decide +kernel
      authtoken := by decide +kernel
      envVars := by decide +kernel
      classpath := by decide +kernel } hsent
  exact ⟨sent, lines, hsent, hlines, fun rest => hread _ _ _ _ _ rest⟩

end GroovyServ.RubyClient

import GroovyServ.RequestRoundTrip

/-!
# Environment values that become headers

Arguments are encoded, but the values of the environment are sent as they are, and
one that contains a line feed goes on as lines of its own. Two environments make the
same of the rest of a request exactly when the lines that they add in this way do.
-/

namespace GroovyServ

open Lines Server

def fieldLines (f : Bytes × Bytes) : List Bytes := (f.1 ++ (ascii ": " ++ f.2)).splitOn lf

/-- The lines of the values that do not start with a header's key. -/
def continuations (fields : List (Bytes × Bytes)) : List Bytes :=
  fields.flatMap fun f => (f.2.splitOn lf).tail

theorem splitOn_append_of_notMem {key : Bytes} (hkey : lf ∉ key) (v : Bytes) :
    (key ++ v).splitOn lf = (key ++ (v.splitOn lf).headD []) :: (v.splitOn lf).tail := by
  induction key with
  | nil =>
    obtain ⟨l, ls, hls⟩ := List.exists_cons_of_ne_nil (List.splitOn_ne_nil lf v)
    simp [hls]
  | cons c key ih =>
    rw [List.mem_cons, not_or] at hkey
    rw [List.cons_append, List.splitOn_cons_eq_if_modifyHead, ih hkey.2]
    simp [Ne.symm hkey.1]

theorem fieldLines_eq {f : Bytes × Bytes} (hkey : lf ∉ f.1) :
    fieldLines f =
      (f.1 ++ (ascii ": " ++ (f.2.splitOn lf).headD [])) :: (f.2.splitOn lf).tail := by
  have hsep : lf ∉ f.1 ++ ascii ": " := by
    rw [List.mem_append, not_or]
    exact ⟨hkey, by decide⟩
  rw [fieldLines, ← List.append_assoc, splitOn_append_of_notMem hsep, List.append_assoc]

theorem headersText_eq_unlines_fieldLines (fields : List (Bytes × Bytes)) :
    headersText fields = unlines lf (fields.flatMap fieldLines) := by
  induction fields with
  | nil => rfl
  | cons f fields ih =>
    rw [headersText_cons, List.flatMap_cons, unlines_append, ih, fieldLines, unlines_splitOn,
      headerLine]
    simp

/-- Headers are read up to the first empty line in them, or to the one that ends them. -/
theorem parseHeaders_headersText (ending : Ending) (fields : List (Bytes × Bytes)) (rest : Bytes) :
    parseHeaders ending (headersText fields ++ lf :: rest) =
      .ok (headersOf (blockLines (fields.flatMap fieldLines)),
        afterBlock lf (fields.flatMap fieldLines) rest) := by
  have hlf : ∀ l ∈ fields.flatMap fieldLines, lf ∉ l := by
    intro l hl
    obtain ⟨f, -, hl⟩ := List.mem_flatMap.mp hl
    exact notMem_of_mem_splitOn lf _ l hl
  rw [parseHeaders, headersText_eq_unlines_fieldLines, readLines_unlines ending hlf]

theorem nil_mem_fieldLines {fields : List (Bytes × Bytes)}
    (hkeys : ∀ f ∈ fields, f.1 ≠ [] ∧ lf ∉ f.1) :
    [] ∈ fields.flatMap fieldLines ↔ [] ∈ continuations fields := by
  induction fields with
  | nil => exact Iff.rfl
  | cons f fields ih =>
    rw [List.forall_mem_cons] at hkeys
    have hhead : ([] : Bytes) ≠ f.1 ++ (ascii ": " ++ (f.2.splitOn lf).headD []) := fun h =>
      hkeys.1.1 (List.append_eq_nil_iff.mp h.symm).1
    rw [continuations, List.flatMap_cons, List.flatMap_cons, List.mem_append, List.mem_append,
      ih hkeys.2, fieldLines_eq hkeys.1.2, List.mem_cons, continuations]
    simp only [hhead, false_or]

/-- A key that no header has gets its values from the other lines. -/
theorem valuesOf_blockLines {fields : List (Bytes × Bytes)} {key : Bytes}
    (hkeys : ∀ f ∈ fields, f.1 ≠ [] ∧ lf ∉ f.1 ∧ (58 : UInt8) ∉ f.1 ∧ f.1 ≠ key) :
    valuesOf (blockLines (fields.flatMap fieldLines)) key =
      valuesOf (blockLines (continuations fields)) key := by
  induction fields with
  | nil => rfl
  | cons f fields ih =>
    rw [List.forall_mem_cons] at hkeys
    obtain ⟨⟨hne, hlf, hcolon, hkey⟩, hkeys⟩ := hkeys
    have hhead : f.1 ++ (ascii ": " ++ (f.2.splitOn lf).headD []) ≠ [] := fun h =>
      hne (List.append_eq_nil_iff.mp h).1
    rw [List.flatMap_cons, fieldLines_eq hlf, List.cons_append, blockLines_cons hhead,
      valuesOf_cons, splitHeader_line hcolon, if_neg hkey, continuations, List.flatMap_cons]
    by_cases hnil : [] ∈ (f.2.splitOn lf).tail
    · rw [blockLines_append_of_mem hnil, blockLines_append_of_mem hnil]
    · rw [blockLines_append hnil, blockLines_append hnil, valuesOf_append, valuesOf_append,
        ih hkeys, continuations]

theorem continuations_append (fields fields' : List (Bytes × Bytes)) :
    continuations (fields ++ fields') = continuations fields ++ continuations fields' :=
  List.flatMap_append

/-- Headers that differ only in what does not have the key give it the same values
exactly when their other lines do. -/
theorem valuesOf_blockLines_eq_iff {fields added added' : List (Bytes × Bytes)} {key : Bytes}
    (hfields : ∀ f ∈ fields, f.1 ≠ [] ∧ lf ∉ f.1)
    (hadded : ∀ f ∈ added, f.1 ≠ [] ∧ lf ∉ f.1 ∧ (58 : UInt8) ∉ f.1 ∧ f.1 ≠ key)
    (hadded' : ∀ f ∈ added', f.1 ≠ [] ∧ lf ∉ f.1 ∧ (58 : UInt8) ∉ f.1 ∧ f.1 ≠ key) :
    valuesOf (blockLines ((fields ++ added).flatMap fieldLines)) key =
        valuesOf (blockLines ((fields ++ added').flatMap fieldLines)) key ↔
      valuesOf (blockLines (continuations (fields ++ added))) key =
        valuesOf (blockLines (continuations (fields ++ added'))) key := by
  rw [List.flatMap_append, List.flatMap_append, continuations_append, continuations_append]
  by_cases hnil : [] ∈ continuations fields
  · have hlines := (nil_mem_fieldLines hfields).mpr hnil
    rw [blockLines_append_of_mem hnil, blockLines_append_of_mem hnil,
      blockLines_append_of_mem hlines, blockLines_append_of_mem hlines]
    exact ⟨fun _ => rfl, fun _ => rfl⟩
  · have hlines := (nil_mem_fieldLines hfields).not.mpr hnil
    rw [blockLines_append hnil, blockLines_append hnil, blockLines_append hlines,
      blockLines_append hlines, valuesOf_append, valuesOf_append, valuesOf_append,
      valuesOf_append, valuesOf_blockLines hadded, valuesOf_blockLines hadded',
      List.append_cancel_left_eq, List.append_cancel_left_eq]

namespace Client.Invocation

variable (inv : Invocation)

def plainFields (cwd : Bytes) : List (Bytes × Bytes) :=
  [(headerKeyCurrentWorkingDir, cwd), (headerKeyAuthtoken, inv.authtoken)] ++
    inv.args.map fun arg => (headerKeyArg, Base64.encode arg)

def environmentFields : List (Bytes × Bytes) :=
  (inv.envVars.map fun entry => (headerKeyEnv, entry)) ++
    inv.classpath.toList.map fun cp => (headerKeyCp, cp)

theorem fields_eq (cwd : Bytes) :
    inv.fields cwd = inv.plainFields cwd ++ inv.environmentFields := by
  simp only [fields, plainFields, environmentFields, List.append_assoc]

def addedLines (cwd : Bytes) : List Bytes := continuations (inv.fields cwd)

/-- What follows the first empty line inside the request. -/
def unread (cwd : Bytes) : Bytes := afterBlock lf ((inv.fields cwd).flatMap fieldLines) []

theorem key_plainFields {cwd : Bytes} {f : Bytes × Bytes} (hf : f ∈ inv.plainFields cwd) :
    f.1 ≠ [] ∧ lf ∉ f.1 := by
  have hmem : f ∈ inv.fields cwd := by
    rw [fields_eq]
    exact List.mem_append_left _ hf
  obtain ⟨hne, hlf, -⟩ := keys_plain f.1 (inv.mem_fields hmem)
  exact ⟨hne, hlf⟩

end Client.Invocation

def requestKeys : List Bytes :=
  [headerKeyArg, headerKeyAuthtoken, headerKeyCommand, headerKeyProtocol]

theorem key_environmentFields (inv : Client.Invocation) {key : Bytes} (hkey : key ∈ requestKeys) :
    ∀ f ∈ inv.environmentFields, f.1 ≠ [] ∧ lf ∉ f.1 ∧ (58 : UInt8) ∉ f.1 ∧ f.1 ≠ key := by
  have henv : ∀ k ∈ requestKeys, headerKeyEnv ≠ k ∧ headerKeyCp ≠ k := by decide
  intro f hf
  simp only [Client.Invocation.environmentFields, List.mem_append, List.mem_map] at hf
  rcases hf with ⟨entry, -, rfl⟩ | ⟨cp, -, rfl⟩
  · obtain ⟨hne, hlf, hcolon⟩ := Client.Invocation.keys_plain headerKeyEnv (by decide)
    exact ⟨hne, hlf, hcolon, (henv key hkey).1⟩
  · obtain ⟨hne, hlf, hcolon⟩ := Client.Invocation.keys_plain headerKeyCp (by decide)
    exact ⟨hne, hlf, hcolon, (henv key hkey).2⟩

/-- The server takes the same arguments, token, command and protocol from both
requests, and both end at the same distance from the end of what is sent. -/
def SameRequest (sent sent' : Bytes) : Prop :=
  ∀ ending rest, ∃ headers left headers' left',
    parseHeaders ending (sent ++ rest) = .ok (headers, left) ∧
    parseHeaders ending (sent' ++ rest) = .ok (headers', left') ∧
    (∀ key ∈ requestKeys, headers.get key = headers'.get key) ∧ left.length = left'.length

/-- The lines that the environments add, up to the first empty one, give the same
values to the headers of the request, and equally much follows an empty one. -/
structure SameInjection (inv inv' : Client.Invocation) (cwd : Bytes) : Prop where
  values : ∀ key ∈ requestKeys, valuesOf (blockLines (inv.addedLines cwd)) key =
    valuesOf (blockLines (inv'.addedLines cwd)) key
  unread : (inv.unread cwd).length = (inv'.unread cwd).length

theorem parseHeaders_text (inv : Client.Invocation) (cwd : Bytes) (ending : Ending)
    (rest : Bytes) :
    parseHeaders ending (inv.text cwd ++ rest) =
      .ok (headersOf (blockLines ((inv.fields cwd).flatMap fieldLines)),
        afterBlock lf ((inv.fields cwd).flatMap fieldLines) rest) := by
  rw [Client.Invocation.text, List.append_assoc, List.singleton_append,
    parseHeaders_headersText]

theorem sameRequest_text_iff {inv inv' : Client.Invocation} {cwd : Bytes}
    (hplain : inv'.plainFields cwd = inv.plainFields cwd) :
    SameRequest (inv.text cwd) (inv'.text cwd) ↔ SameInjection inv inv' cwd := by
  have hvalues : ∀ key ∈ requestKeys,
      (headersOf (blockLines ((inv.fields cwd).flatMap fieldLines))).get key =
          (headersOf (blockLines ((inv'.fields cwd).flatMap fieldLines))).get key ↔
        valuesOf (blockLines (inv.addedLines cwd)) key =
          valuesOf (blockLines (inv'.addedLines cwd)) key := by
    intro key hkey
    rw [get_headersOf_eq_iff, Client.Invocation.addedLines, Client.Invocation.addedLines,
      inv.fields_eq, inv'.fields_eq, hplain]
    exact valuesOf_blockLines_eq_iff (fun f hf => inv.key_plainFields hf)
      (key_environmentFields inv hkey) (key_environmentFields inv' hkey)
  constructor
  · intro h
    obtain ⟨headers, left, headers', left', hparse, hparse', hget, hleft⟩ := h .waiting []
    rw [parseHeaders_text] at hparse hparse'
    cases hparse
    cases hparse'
    exact ⟨fun key hkey => (hvalues key hkey).mp (hget key hkey), hleft⟩
  · intro h ending rest
    refine ⟨_, _, _, _, parseHeaders_text inv cwd ending rest,
      parseHeaders_text inv' cwd ending rest,
      fun key hkey => (hvalues key hkey).mpr (h.values key hkey), ?_⟩
    have hunread := h.unread
    rw [Client.Invocation.unread, Client.Invocation.unread] at hunread
    rw [length_afterBlock, hunread, ← length_afterBlock]

/-- Two environments make the same request, for the same arguments, token and
directory, exactly when what they add to it is the same to the server. -/
theorem sameRequest_iff_sameInjection {inv inv' : Client.Invocation}
    (hargv : inv'.argv = inv.argv) (htoken : inv'.authtoken = inv.authtoken)
    (hdir : inv'.cwd = inv.cwd) {cwd : CString} (hcwd : Client.getcwd inv.cwd = some cwd)
    {sent sent' : Bytes} (hsent : Client.sendHeader inv = .ok sent)
    (hsent' : Client.sendHeader inv' = .ok sent') :
    SameRequest sent sent' ↔ SameInjection inv inv' cwd := by
  obtain rfl := (Client.sendHeader_ensures inv hcwd).post sent hsent
  obtain rfl := (Client.sendHeader_ensures inv' (hdir ▸ hcwd)).post sent' hsent'
  apply sameRequest_text_iff
  rw [Client.Invocation.plainFields, Client.Invocation.plainFields, Client.Invocation.args,
    Client.Invocation.args, hargv, htoken]

theorem continuations_of_notMem {fields : List (Bytes × Bytes)} (h : ∀ f ∈ fields, lf ∉ f.2) :
    continuations fields = [] := by
  rw [continuations, List.flatMap_eq_nil_iff]
  intro f hf
  rw [List.splitOn_eq_singleton (h f hf), List.tail_cons]

/-- In particular, environments without line feeds make the same request. -/
theorem sameRequest_of_notMem {inv inv' : Client.Invocation} {cwd : Bytes}
    (hplain : inv'.plainFields cwd = inv.plainFields cwd)
    (hlines : [] ∉ continuations (inv.plainFields cwd))
    (henv : ∀ f ∈ inv.environmentFields, lf ∉ f.2)
    (henv' : ∀ f ∈ inv'.environmentFields, lf ∉ f.2) :
    SameRequest (inv.text cwd) (inv'.text cwd) := by
  have hadded : ∀ i : Client.Invocation, i.plainFields cwd = inv.plainFields cwd →
      (∀ f ∈ i.environmentFields, lf ∉ f.2) →
      i.addedLines cwd = continuations (inv.plainFields cwd) ∧ i.unread cwd = [] := by
    intro i hi hlf
    have hcont : i.addedLines cwd = continuations (inv.plainFields cwd) := by
      rw [Client.Invocation.addedLines, i.fields_eq, hi, continuations_append,
        continuations_of_notMem hlf, List.append_nil]
    have hkeys : ∀ f ∈ i.fields cwd, f.1 ≠ [] ∧ lf ∉ f.1 := fun f hf =>
      ⟨(Client.Invocation.keys_plain f.1 (i.mem_fields hf)).1,
        (Client.Invocation.keys_plain f.1 (i.mem_fields hf)).2.1⟩
    refine ⟨hcont, afterBlock_eq_rest lf ((nil_mem_fieldLines hkeys).not.mpr ?_) []⟩
    rw [← Client.Invocation.addedLines, hcont]
    exact hlines
  obtain ⟨hlines₁, hunread₁⟩ := hadded inv rfl henv
  obtain ⟨hlines₂, hunread₂⟩ := hadded inv' hplain henv'
  refine (sameRequest_text_iff hplain).mpr ⟨fun key _ => ?_, ?_⟩
  · rw [hlines₁, hlines₂]
  · rw [hunread₁, hunread₂]

def invocationWith (environ : List CString) : Client.Invocation :=
  { sampleInvocation with
    environ := environ
    option :=
      { envAll := true
        envIncludeMask := sampleInvocation.option.envExcludeMask
        envExcludeMask := sampleInvocation.option.envExcludeMask } }

theorem invocationWith_ensures (environ : List CString) :
    Ensures (Client.sendHeader (invocationWith environ))
      ((∀ entry ∈ environ, 61 ∈ entry.val) ∧
        ((invocationWith environ).text (ascii "/tmp")).length + 1 ≤ 2 ^ 30)
      (· = (invocationWith environ).text (ascii "/tmp")) :=
  Client.sendHeader_ensures (invocationWith environ)
    (rfl : Client.getcwd sampleInvocation.cwd = some ⟨ascii "/tmp", by decide⟩)

def entryA : CString := ⟨ascii "A=1", by decide⟩

def entryContinued : CString := ⟨ascii "A=1\nB=2", by decide⟩

theorem sameRequest_iff_sameInjection_continued : ∃ sent sent',
    Client.sendHeader (invocationWith [entryA]) = .ok sent ∧
    Client.sendHeader (invocationWith [entryContinued]) = .ok sent' ∧
    (SameRequest sent sent' ↔
      SameInjection (invocationWith [entryA]) (invocationWith [entryContinued])
        (ascii "/tmp")) := by
  obtain ⟨sent, hsent⟩ := (invocationWith_ensures [entryA]).returns (by decide +kernel)
  obtain ⟨sent', hsent'⟩ :=
    (invocationWith_ensures [entryContinued]).returns (by decide +kernel)
  have hcwd : Client.getcwd (invocationWith [entryA]).cwd =
      some ⟨ascii "/tmp", by decide⟩ := rfl
  have hargv : (invocationWith [entryContinued]).argv = (invocationWith [entryA]).argv := rfl
  have htoken : (invocationWith [entryContinued]).authtoken =
      (invocationWith [entryA]).authtoken := rfl
  have hdir : (invocationWith [entryContinued]).cwd = (invocationWith [entryA]).cwd := rfl
  have hiff := sameRequest_iff_sameInjection hargv htoken hdir hcwd hsent hsent'
  exact ⟨sent, sent', hsent, hsent', hiff⟩

def entryCommand : CString := ⟨ascii "X=1\nCmd: shutdown", by decide +kernel⟩

/-- A variable that goes on with a line of its own gives the server a command. -/
theorem not_sameRequest_command : ∃ sent sent',
    Client.sendHeader (invocationWith []) = .ok sent ∧
    Client.sendHeader (invocationWith [entryCommand]) = .ok sent' ∧
    (∃ headers, parseHeaders .waiting sent' = .ok (headers, []) ∧
      headers.first headerKeyCommand = some (ascii "shutdown")) ∧
    ¬ SameRequest sent sent' := by
  obtain ⟨sent, hsent⟩ := (invocationWith_ensures []).returns (by decide +kernel)
  obtain ⟨sent', hsent'⟩ := (invocationWith_ensures [entryCommand]).returns (by decide +kernel)
  obtain rfl := (invocationWith_ensures []).post sent hsent
  obtain rfl := (invocationWith_ensures [entryCommand]).post sent' hsent'
  have hparse := parseHeaders_text (invocationWith [entryCommand]) (ascii "/tmp") .waiting []
  have hleft : afterBlock lf
      (((invocationWith [entryCommand]).fields (ascii "/tmp")).flatMap fieldLines) [] = [] := by
    decide +kernel
  rw [List.append_nil, hleft] at hparse
  refine ⟨_, _, hsent, hsent', ⟨_, hparse, by decide +kernel⟩, fun h => ?_⟩
  have hplain : (invocationWith [entryCommand]).plainFields (ascii "/tmp") =
      (invocationWith []).plainFields (ascii "/tmp") := rfl
  have hsame := (sameRequest_text_iff hplain).mp h
  exact absurd (hsame.values headerKeyCommand (by decide)) (by decide +kernel)

end GroovyServ

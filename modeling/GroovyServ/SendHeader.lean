import GroovyServ.Base64Encode
import GroovyServ.Buf
import GroovyServ.ResponseHeaders
import GroovyServ.ResponseStream

/-!
# The invocation request that the client sends

`sendHeader` follows `send_header` with the functions it calls for the
environment. Its result is what the final `write` is given. The environment is
modified while a name is matched, so the entries are threaded through. What
`perror` adds to a message is left out.
-/

namespace GroovyServ.Client

open CLib

def maxMask : ℕ := 10

def maxPathLen : ℕ := 4096

/-- The slots of an array of masks, `none` for `NULL`. -/
abbrev Masks := { masks : List (Option CString) // masks.length = maxMask }

structure ClientOption where
  envAll : Bool
  envIncludeMask : Masks
  envExcludeMask : Masks

/-- What an invocation sends: the arguments, with those that the client consumed
removed, the working directory if it can be found, and the environment. `memory`
is what `malloc` hands out. -/
structure Invocation where
  argv : List (Option CString)
  authtoken : CString
  cwd : Option CString
  environ : List CString
  option : ClientOption
  memory : ℕ → UInt8

def strstr (s pattern : Bytes) : Bool := decide (pattern <:+: s)

/-- The result for the name of an entry, and the entry afterwards. -/
def maskMatch (pattern : CString) (str : Bytes) : CResult (Bool × Bytes) :=
  match str.idxOf? 61 with
  | none =>
    .error (.exit 1 (ascii "ERROR: invalid environment variable: " ++ str ++ [lf]))
  | some pos =>
    let terminated := str.set pos 0
    .ok (strstr (cString terminated) pattern, terminated.set pos 61)

def masksMatch : List (Option CString) → Bytes → CResult (Bool × Bytes)
  | [], str => .ok (false, str)
  | none :: _, str => .ok (false, str)
  | some mask :: masks, str => do
    let (found, str) ← maskMatch mask str
    if found then .ok (true, str) else masksMatch masks str

def makeEnvHeaders (option : ClientOption) : Buf → List Bytes → CResult (Buf × List Bytes)
  | b, [] => .ok (b, [])
  | b, entry :: env => do
    let (included, entry) ←
      (if option.envAll then .ok (true, entry) else masksMatch option.envIncludeMask entry)
    let (excluded, entry) ←
      (if included then masksMatch option.envExcludeMask entry else .ok (true, entry))
    let b ← (if excluded then .ok b else bufPrintf b (headerLine headerKeyEnv entry))
    let (b, env) ← makeEnvHeaders option b env
    .ok (b, entry :: env)

def sendArgs : Buf → List (Option CString) → CResult Buf
  | b, [] => .ok b
  | b, none :: argv => sendArgs b argv
  | b, some arg :: argv =>
    if arg.val.length * 3 / 2 + 5 < (base64Encode arg).length then .error .undefined
    else do
      let b ← bufPrintf b (headerLine headerKeyArg (cString (base64Encode arg)))
      sendArgs b argv

def getcwd (cwd : Option CString) : Option CString := cwd.filter fun s => s.val.length < maxPathLen

def getenv (environ : List Bytes) (name : Bytes) : Option Bytes :=
  environ.findSome? fun entry =>
    if (name ++ [61]).isPrefixOf entry then some (entry.drop (name.length + 1)) else none

def Buf.read (b : Buf) (size : ℤ) : CResult Bytes :=
  if 0 ≤ size ∧ size ≤ b.bufferSize then .ok ((List.range size.toNat).map b.buffer)
  else .error .undefined

def sendHeader (inv : Invocation) : CResult Bytes := do
  let b := bufNew bufferSize inv.memory
  let b ← bufPrintf b (headerKeyCurrentWorkingDir ++ ascii ": ")
  match getcwd inv.cwd with
  | none => .error (.exit 1 (ascii "ERROR: could not get cwd"))
  | some cwd =>
    let b ← bufAdd b cwd
    let b ← bufAdd b ⟨[lf], by decide⟩
    let b ← bufPrintf b (headerLine headerKeyAuthtoken inv.authtoken)
    let b ← sendArgs b inv.argv.tail
    let (b, environ) ← makeEnvHeaders inv.option b (inv.environ.map Subtype.val)
    let b ← (match getenv environ (ascii "CLASSPATH") with
      | some cp => bufPrintf b (headerLine headerKeyCp cp)
      | none => .ok b)
    let b ← bufPrintf b [lf]
    b.read (b.size - 1)

def envName (entry : Bytes) : Bytes := entry.takeWhile (· ≠ 61)

def anyMask (masks : List (Option CString)) (entry : Bytes) : Bool :=
  (masks.takeWhile Option.isSome).any fun mask => mask.any fun m => strstr (envName entry) m

def ClientOption.Selects (option : ClientOption) (entry : Bytes) : Bool :=
  (option.envAll || anyMask option.envIncludeMask entry) && !anyMask option.envExcludeMask entry

namespace Invocation

variable (inv : Invocation)

def args : List Bytes := (inv.argv.tail.reduceOption).map Subtype.val

def envVars : List Bytes := (inv.environ.map Subtype.val).filter inv.option.Selects

def classpath : Option Bytes := getenv (inv.environ.map Subtype.val) (ascii "CLASSPATH")

def fields (cwd : Bytes) : List (Bytes × Bytes) :=
  [(headerKeyCurrentWorkingDir, cwd), (headerKeyAuthtoken, inv.authtoken)] ++
    (inv.args.map fun arg => (headerKeyArg, Base64.encode arg)) ++
    (inv.envVars.map fun entry => (headerKeyEnv, entry)) ++
    (inv.classpath.toList.map fun cp => (headerKeyCp, cp))

end Invocation

def Invocation.text (inv : Invocation) (cwd : Bytes) : Bytes := headersText (inv.fields cwd) ++ [lf]

theorem zero_notMem_headerLine {key v : Bytes} (hkey : (0 : UInt8) ∉ key) (hv : (0 : UInt8) ∉ v) :
    (0 : UInt8) ∉ headerLine key v := by
  have hsep : (0 : UInt8) ∉ ascii ": " := by decide
  have hlf : (0 : UInt8) ∉ [lf] := by decide
  simp only [headerLine, List.mem_append, not_or]
  exact ⟨hkey, hsep, hv, hlf⟩

theorem idxOf?_append_cons {c : UInt8} {s : Bytes} (hc : c ∉ s) (t : Bytes) :
    (s ++ c :: t).idxOf? c = some s.length := by
  induction s with
  | nil => simp [List.idxOf?_cons]
  | cons d s ih =>
    rw [List.mem_cons, not_or] at hc
    rw [List.cons_append, List.idxOf?_cons, ih hc.2, if_neg (by simpa using Ne.symm hc.1)]
    rfl

/-- Matching looks at the name only and restores the entry. -/
theorem maskMatch_ensures (pattern : CString) {entry : Bytes} (h0 : (0 : UInt8) ∉ entry) :
    Ensures (maskMatch pattern entry) (61 ∈ entry) fun r =>
      r = (strstr (envName entry) pattern, entry) := by
  by_cases hmem : (61 : UInt8) ∈ entry
  · obtain ⟨name, value, rfl, hname⟩ := List.eq_append_cons_of_mem hmem
    have hidx := idxOf?_append_cons hname value
    have hset : (name ++ 61 :: value).set name.length 0 = name ++ 0 :: value := by simp
    have hreset : (name ++ 0 :: value).set name.length 61 = name ++ 61 :: value := by simp
    have h0name : (0 : UInt8) ∉ name := fun h => h0 (List.mem_append_left _ h)
    have htake : envName (name ++ 61 :: value) = name := by
      rw [envName, List.takeWhile_append_of_pos]
      · simp
      · intro c hc
        simpa using fun h : c = 61 => hname (h ▸ hc)
    rw [maskMatch, hidx]
    simp only [hset, hreset, cString_append h0name, htake]
    exact .ok rfl
  · rw [maskMatch, List.idxOf?_eq_none_iff.mpr hmem]
    exact .error hmem

theorem masksMatch_ensures (masks : List (Option CString)) {entry : Bytes}
    (h0 : (0 : UInt8) ∉ entry) :
    Ensures (masksMatch masks entry) (61 ∈ entry) fun r => r = (anyMask masks entry, entry) := by
  induction masks with
  | nil => exact .ok rfl
  | cons mask masks ih =>
    cases mask with
    | none => exact .ok rfl
    | some mask =>
      refine (maskMatch_ensures mask h0).bind ?_
      rintro _ rfl
      dsimp only
      by_cases hfound : strstr (envName entry) mask = true
      · rw [if_pos hfound]
        exact .ok (by simp [anyMask, hfound])
      · rw [if_neg hfound]
        refine ih.imp id fun r hr => ?_
        rw [hr, anyMask, anyMask]
        simp [hfound]

theorem included_ensures (option : ClientOption) {entry : Bytes} (h0 : (0 : UInt8) ∉ entry) :
    Ensures (if option.envAll then .ok (true, entry) else masksMatch option.envIncludeMask entry)
      (61 ∈ entry) fun r => r = (option.envAll || anyMask option.envIncludeMask entry, entry) := by
  cases hall : option.envAll with
  | true => exact .ok rfl
  | false => exact masksMatch_ensures _ h0

theorem excluded_ensures (option : ClientOption) {entry : Bytes} (h0 : (0 : UInt8) ∉ entry)
    (included : Bool) :
    Ensures (if included then masksMatch option.envExcludeMask entry else .ok (true, entry))
      (61 ∈ entry) fun r => r = (!(included && !anyMask option.envExcludeMask entry), entry) := by
  cases included with
  | true => exact (masksMatch_ensures _ h0).imp id fun r hr => by simpa using hr
  | false => exact .ok rfl

def entryFields (option : ClientOption) (entry : Bytes) : List (Bytes × Bytes) :=
  if option.Selects entry then [(headerKeyEnv, entry)] else []

theorem printEntry_ensures (option : ClientOption) {entry : Bytes} (h0 : (0 : UInt8) ∉ entry)
    {b : Buf} {s : Bytes} (hb : b.Holds s) :
    Ensures (if !option.Selects entry then .ok b else bufPrintf b (headerLine headerKeyEnv entry))
      (s.length + (headersText (entryFields option entry)).length + 1 ≤ 2 ^ 30) fun b' =>
      b'.Holds (s ++ headersText (entryFields option entry)) := by
  cases hsel : option.Selects entry with
  | true =>
    have hline : headersText (entryFields option entry) = headerLine headerKeyEnv entry := by
      simp [entryFields, hsel, headersText]
    rw [hline]
    exact (bufPrintf_ensures hb (zero_notMem_headerLine (by decide) h0)).imp id fun _ h => h.1
  | false =>
    have hnone : headersText (entryFields option entry) = [] := by
      simp [entryFields, hsel, headersText]
    rw [hnone, List.append_nil]
    exact .ok hb

theorem filter_entryFields (option : ClientOption) (entry : Bytes) (env : List Bytes) :
    ((entry :: env).filter option.Selects).map (fun e => (headerKeyEnv, e)) =
      entryFields option entry ++
        (env.filter option.Selects).map fun e => (headerKeyEnv, e) := by
  cases hsel : option.Selects entry <;> simp [entryFields, hsel]

theorem makeEnvHeaders_ensures (option : ClientOption) {env : List Bytes}
    (h0 : ∀ entry ∈ env, (0 : UInt8) ∉ entry) {b : Buf} {s : Bytes} (hb : b.Holds s) :
    let t := headersText ((env.filter option.Selects).map fun entry => (headerKeyEnv, entry))
    Ensures (makeEnvHeaders option b env)
      ((∀ entry ∈ env, 61 ∈ entry) ∧ s.length + t.length + 1 ≤ 2 ^ 30) fun r =>
      r.1.Holds (s ++ t) ∧ r.2 = env := by
  induction env generalizing b s with
  | nil => exact .ok ⟨by simpa [headersText] using hb, rfl⟩
  | cons entry env ih =>
    rw [List.forall_mem_cons] at h0
    rw [filter_entryFields, headersText_append, makeEnvHeaders]
    intro t
    have hlen : t.length = (headersText (entryFields option entry)).length +
      (headersText ((env.filter option.Selects).map fun e => (headerKeyEnv, e))).length :=
      List.length_append
    refine ((included_ensures option h0.1).imp
      (fun hc => hc.1 entry List.mem_cons_self) fun _ => id).bind ?_
    rintro _ rfl
    refine ((excluded_ensures option h0.1 _).imp
      (fun hc => hc.1 entry List.mem_cons_self) fun _ => id).bind ?_
    rintro _ rfl
    refine ((printEntry_ensures option h0.1 hb).imp (fun hc => ?_) fun _ => id).bind
      fun b₁ hb₁ => ?_
    · have := hc.2
      omega
    · refine ((ih h0.2 hb₁).imp (fun hc => ⟨?_, ?_⟩) fun _ => id).bind ?_
      · exact fun e he => hc.1 e (List.mem_cons_of_mem entry he)
      · have := hc.2
        rw [List.length_append]
        omega
      · rintro ⟨b₂, _⟩ ⟨hb₂, rfl⟩
        exact .ok ⟨by rwa [List.append_assoc] at hb₂, rfl⟩

theorem sendArgs_ensures (argv : List (Option CString)) {b : Buf} {s : Bytes} (hb : b.Holds s) :
    let t := headersText ((argv.reduceOption.map Subtype.val).map fun arg =>
      (headerKeyArg, Base64.encode arg))
    Ensures (sendArgs b argv) (s.length + t.length + 1 ≤ 2 ^ 30) fun b' => b'.Holds (s ++ t) := by
  induction argv generalizing b s with
  | nil => exact .ok (by simpa [headersText] using hb)
  | cons arg argv ih =>
    cases arg with
    | none => exact ih hb
    | some arg =>
      have h0 := zero_notMem_encode arg
      have hroom : ¬ arg.val.length * 3 / 2 + 5 < (base64Encode arg).length := by
        rw [base64Encode_eq, List.length_append, List.length_singleton]
        exact not_lt.mpr (length_encode_le arg)
      rw [List.reduceOption_cons_of_some, List.map_cons, List.map_cons, headersText_cons,
        sendArgs, if_neg hroom, base64Encode_eq, cString_append h0]
      intro t
      have hlen : t.length = _ := List.length_append
      refine ((bufPrintf_ensures hb (zero_notMem_headerLine (by decide) h0)).imp (fun hc => ?_)
        fun _ h => h.1).bind fun b₁ hb₁ => ?_
      · omega
      · refine (ih hb₁).imp (fun hc => ?_) fun b₂ hb₂ => ?_
        · rw [List.length_append]
          omega
        · rwa [List.append_assoc] at hb₂

theorem getenv_of_mem {environ : List Bytes} {name cp : Bytes}
    (h : getenv environ name = some cp) : ∃ entry ∈ environ, ∀ c ∈ cp, c ∈ entry := by
  obtain ⟨entry, hmem, hentry⟩ := List.exists_of_findSome?_eq_some h
  refine ⟨entry, hmem, fun c hc => ?_⟩
  split_ifs at hentry
  cases hentry
  exact List.mem_of_mem_drop hc

theorem Buf.read_of_holds {b : Buf} {s : Bytes} (hb : b.Holds s) (hsize : b.size = s.length + 1) :
    b.read (b.size - 1) = .ok s := by
  have hlt := hb.length_lt
  have hn : (b.size - 1).toNat = s.length := by omega
  rw [Buf.read, if_pos (by omega), hn]
  congr 1
  apply List.ext_getElem (by simp)
  intro i hi hi'
  simp [hb.startsWith i s[i] (List.getElem?_eq_getElem hi')]

theorem printClasspath_ensures {environ : List Bytes} (h0 : ∀ entry ∈ environ, (0 : UInt8) ∉ entry)
    {b : Buf} {s : Bytes} (hb : b.Holds s) :
    let cp := getenv environ (ascii "CLASSPATH")
    let t := headersText (cp.toList.map fun cp => (headerKeyCp, cp))
    Ensures (match cp with
        | some cp => bufPrintf b (headerLine headerKeyCp cp)
        | none => .ok b)
      (s.length + t.length + 1 ≤ 2 ^ 30) fun b' => b'.Holds (s ++ t) := by
  intro cp t
  cases hcp : cp with
  | none => exact .ok (by simpa [t, hcp, headersText] using hb)
  | some cp' =>
    obtain ⟨entry, hmem, hsub⟩ := getenv_of_mem hcp
    have h0cp : (0 : UInt8) ∉ cp' := fun h => h0 entry hmem (hsub 0 h)
    have ht : t = headerLine headerKeyCp cp' := by simp [t, hcp, headersText]
    rw [ht]
    exact (bufPrintf_ensures hb (zero_notMem_headerLine (by decide) h0cp)).imp id fun _ h => h.1

theorem Invocation.text_eq (inv : Invocation) (cwd : Bytes) :
    inv.text cwd = [] ++ (headerKeyCurrentWorkingDir ++ ascii ": ") ++ cwd ++ [lf] ++
      headerLine headerKeyAuthtoken inv.authtoken ++
      headersText (inv.args.map fun arg => (headerKeyArg, Base64.encode arg)) ++
      headersText (inv.envVars.map fun entry => (headerKeyEnv, entry)) ++
      headersText (inv.classpath.toList.map fun cp => (headerKeyCp, cp)) ++ [lf] := by
  simp [text, fields, headersText_append, headersText_cons, headerLine]

/-- The request is sent as one text, and it is sent when every entry of the
environment has a name and the text is not too long. -/
theorem sendHeader_ensures (inv : Invocation) {cwd : CString} (hcwd : getcwd inv.cwd = some cwd) :
    Ensures (sendHeader inv)
      ((∀ entry ∈ inv.environ, 61 ∈ entry.val) ∧ (inv.text cwd).length + 1 ≤ 2 ^ 30)
      (· = inv.text cwd) := by
  have h0 : ∀ entry ∈ inv.environ.map Subtype.val, (0 : UInt8) ∉ entry := by
    rintro _ hmem
    obtain ⟨entry, -, rfl⟩ := List.mem_map.mp hmem
    exact entry.property
  have hshort : cwd.val.length < 2 ^ 31 - 1 := by
    have h := (Option.filter_eq_some_iff.mp hcwd).2
    rw [decide_eq_true_eq, maxPathLen] at h
    omega
  have hargs : inv.args = inv.argv.tail.reduceOption.map Subtype.val := rfl
  have henv : inv.envVars = (inv.environ.map Subtype.val).filter inv.option.Selects := rfl
  have hcp : inv.classpath = getenv (inv.environ.map Subtype.val) (ascii "CLASSPATH") := rfl
  rw [inv.text_eq cwd, hargs, henv, hcp]
  simp only [List.length_append, List.length_nil]
  refine ((bufPrintf_ensures (bufNew_holds bufferSize inv.memory (by decide) (by decide))
    (by decide)).imp (fun hc => ?_) fun _ h => h.1).bind fun b₁ hb₁ => ?_
  · have := hc.2
    simp only [List.length_append, List.length_nil]
    omega
  rw [hcwd]
  refine ((bufAdd_ensures hb₁ hshort).imp (fun hc => ?_) fun _ h => h.1).bind fun b₂ hb₂ => ?_
  · have := hc.2
    simp only [List.length_append, List.length_nil]
    omega
  refine ((bufAdd_ensures hb₂ (by decide)).imp (fun hc => ?_) fun _ h => h.1).bind
    fun b₃ hb₃ => ?_
  · have := hc.2
    simp only [List.length_append, List.length_nil]
    omega
  refine ((bufPrintf_ensures hb₃ (zero_notMem_headerLine (by decide) inv.authtoken.property)).imp
    (fun hc => ?_) fun _ h => h.1).bind fun b₄ hb₄ => ?_
  · have := hc.2
    simp only [List.length_append, List.length_nil]
    omega
  refine ((sendArgs_ensures inv.argv.tail hb₄).imp (fun hc => ?_) fun _ => id).bind
    fun b₅ hb₅ => ?_
  · have := hc.2
    simp only [List.length_append, List.length_nil]
    omega
  refine ((makeEnvHeaders_ensures inv.option h0 hb₅).imp (fun hc => ⟨?_, ?_⟩) fun _ => id).bind ?_
  · intro _ hmem
    obtain ⟨entry, hentry, rfl⟩ := List.mem_map.mp hmem
    exact hc.1 entry hentry
  · have := hc.2
    simp only [List.length_append, List.length_nil]
    omega
  rintro ⟨b₆, _⟩ ⟨hb₆, rfl⟩
  refine ((printClasspath_ensures h0 hb₆).imp (fun hc => ?_) fun _ => id).bind fun b₇ hb₇ => ?_
  · have := hc.2
    simp only [List.length_append, List.length_nil]
    omega
  refine ((bufPrintf_ensures hb₇ (t := [lf]) (by decide)).imp (fun hc => ?_) fun _ => id).bind
    fun b₈ hb₈ => ?_
  · have := hc.2
    simp only [List.length_append, List.length_nil]
    omega
  rw [Buf.read_of_holds hb₈.1 hb₈.2]
  exact .ok rfl

end GroovyServ.Client

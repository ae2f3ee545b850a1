import GroovyServ.Exceptions
import GroovyServ.Lines
import GroovyServ.Outcomes
import GroovyServ.ResponseStream

/-!
# The server's reading of requests

The functions of `IOUtils` and `ClientProtocols` that read header blocks, with
`InvocationRequest` and `StreamRequest` and their checks. Strings are the bytes
that they are decoded from. The input is the bytes that arrive and what a read
finds after the last of them. The decoder of Base64 belongs to the Groovy library
and is a parameter, as is whether the pause before a failed authentication is
interrupted.
-/

namespace GroovyServ.Server

open Lines

inductive Ending where
  | eof
  | waiting
  | ioError (message : Bytes)
  | interruptedIo
  deriving DecidableEq

inductive Stop where
  | blocked
  | threw (e : JException)
  deriving DecidableEq

abbrev Outcome := Except Stop

def Ending.read : Ending → Outcome Unit
  | eof => .ok ()
  | waiting => .error .blocked
  | ioError message => .error (.threw (.io message))
  | interruptedIo => .error (.threw .interruptedIo)

def readLine (ending : Ending) : Bytes → Outcome (Bytes × Bytes)
  | [] => do
    ending.read
    .ok ([], [])
  | ch :: bytes =>
    if ch = lf then .ok ([], bytes)
    else do
      let (line, rest) ← readLine ending bytes
      .ok (ch :: line, rest)

/-- Each line but the last takes a byte, so their number is fuel enough. -/
def readLinesLoop (ending : Ending) : ℕ → Bytes → Outcome (List Bytes × Bytes)
  | 0, _ => .error .blocked
  | fuel + 1, bytes => do
    let (line, rest) ← readLine ending bytes
    if line = [] then .ok ([], rest)
    else
      let (lines, rest) ← readLinesLoop ending fuel rest
      .ok (line :: lines, rest)

def readLines (ending : Ending) (bytes : Bytes) : Outcome (List Bytes × Bytes) :=
  readLinesLoop ending (bytes.length + 1) bytes

def trim (s : Bytes) : Bytes := (s.dropWhile (· ≤ 32)).rdropWhile (· ≤ 32)

def splitHeader (line : Bytes) : Bytes × Bytes :=
  (line.takeWhile (· ≠ 58), trim ((line.dropWhile (· ≠ 58)).drop 1))

abbrev HeaderMap := List (Bytes × List Bytes)

def HeaderMap.add : HeaderMap → Bytes × Bytes → HeaderMap
  | [], entry => [(entry.1, [entry.2])]
  | (key, values) :: headers, entry =>
    if key = entry.1 then (key, values ++ [entry.2]) :: headers
    else (key, values) :: HeaderMap.add headers entry

def HeaderMap.get (headers : HeaderMap) (key : Bytes) : Option (List Bytes) := headers.lookup key

def HeaderMap.first (headers : HeaderMap) (key : Bytes) : Option Bytes :=
  (headers.get key).bind List.head?

def headersOf (lines : List Bytes) : HeaderMap :=
  lines.foldl (fun headers line => headers.add (splitHeader line)) []

def parseHeaders (ending : Ending) (bytes : Bytes) : Outcome (HeaderMap × Bytes) :=
  match readLines ending bytes with
  | .ok (lines, rest) => .ok (headersOf lines, rest)
  | .error (.threw .interruptedIo) =>
    .error (.threw (.gservIo (ascii "Interrupted to parse headers")))
  | .error (.threw (.io message)) =>
    .error (.threw (.gservIo (ascii "Failed to read line: " ++ message)))
  | .error stop => .error stop

structure AuthToken where
  token : Bytes

def AuthToken.isValid (t : AuthToken) (given : Bytes) : Bool := decide (t.token = given)

structure InvocationRequest where
  port : ℕ
  cwd : Option Bytes
  classpath : Option Bytes
  args : List Bytes
  clientAuthToken : Option Bytes
  serverAuthToken : Option AuthToken
  envVars : Option (List Bytes)
  protocol : Option Bytes
  command : Option Bytes

def showString : Option Bytes → Bytes
  | none => ascii "null"
  | some s => s

/-- Whether a string counts as true in a condition. -/
def truth (s : Option Bytes) : Bool := s.any (· ≠ [])

def InvocationRequest.check (request : InvocationRequest) (sleepInterrupted : Bool) :
    Outcome Unit :=
  if !truth request.clientAuthToken || !request.serverAuthToken.isSome ||
      !(request.serverAuthToken.any fun t => request.clientAuthToken.any t.isValid) then
    if sleepInterrupted then .error (.threw .interrupted)
    else
      .error (.threw (.invalidAuthToken (ascii "Authentication failed. AuthToken is unmatched: " ++
        showString request.clientAuthToken ++ ascii " <=> ******")))
  else .ok ()

def decodeArgs (decodeBase64 : Bytes → Option Bytes) (encoded : Option (List Bytes)) :
    Outcome (List Bytes) :=
  (encoded.getD []).mapM fun s =>
    match decodeBase64 s with
    | some arg => .ok arg
    | none => .error (.threw (.invalidRequestHeader (ascii "Found invalid arguments: " ++ s)))

/-- An accepted socket, as far as the server looks at it. -/
structure Socket where
  port : ℕ
  localLoopback : Bool
  hostAddress : Bytes
  text : Bytes

def readInvocationRequest (decodeBase64 : Bytes → Option Bytes) (authToken : Option AuthToken)
    (socket : Socket) (sleepInterrupted : Bool) (ending : Ending) (bytes : Bytes) :
    Outcome (InvocationRequest × Bytes) := do
  let (headers, rest) ← parseHeaders ending bytes
  let args ← decodeArgs decodeBase64 (headers.get headerKeyArg)
  let request : InvocationRequest :=
    { port := socket.port
      cwd := headers.first headerKeyCurrentWorkingDir
      classpath := headers.first headerKeyCp
      args := args
      clientAuthToken := headers.first headerKeyAuthtoken
      serverAuthToken := authToken
      envVars := headers.get headerKeyEnv
      protocol := headers.first headerKeyProtocol
      command := headers.first headerKeyCommand }
  request.check sleepInterrupted
  .ok (request, rest)

/-- `Integer.valueOf`, or `none` where it throws. -/
def parseInteger (s : Bytes) : Option ℤ :=
  let digits := if s.head? = some 45 ∨ s.head? = some 43 then s.tail else s
  let v : ℤ := if s.head? = some 45 then -(digitsValue digits : ℤ) else digitsValue digits
  if digits ≠ [] ∧ digits.all isDigit ∧ -2 ^ 31 ≤ v ∧ v < 2 ^ 31 then some v else none

structure StreamRequest where
  port : ℕ
  size : Option Bytes
  command : Option Bytes

namespace StreamRequest

def getSize (request : StreamRequest) : ℤ :=
  (request.size.bind fun s => parseInteger (trim s)).getD 0

def isEmpty (request : StreamRequest) : Bool := decide (request.getSize = 0)

def isInterrupted (request : StreamRequest) : Bool :=
  decide (request.command = some (ascii "interrupt"))

def check (request : StreamRequest) : Outcome Unit :=
  if (!request.isEmpty && truth request.command) || (request.isEmpty && !truth request.command) then
    .error (.threw (.invalidRequestHeader (ascii "Invalid StreamRequest: size=" ++
      showString request.size ++ ascii ", command=" ++ showString request.command)))
  else .ok ()

end StreamRequest

def readStreamRequest (socket : Socket) (ending : Ending) (bytes : Bytes) :
    Outcome (StreamRequest × Bytes) := do
  let (headers, rest) ← parseHeaders ending bytes
  let request : StreamRequest :=
    { port := socket.port
      size := headers.first headerKeySize
      command := headers.first headerKeyCommand }
  request.check
  .ok (request, rest)

theorem readLine_line (ending : Ending) {line : Bytes} (hline : lf ∉ line) (rest : Bytes) :
    readLine ending (line ++ lf :: rest) = .ok (line, rest) := by
  induction line with
  | nil => rw [List.nil_append, readLine, if_pos rfl]
  | cons c line ih =>
    rw [List.mem_cons, not_or] at hline
    rw [List.cons_append, readLine, if_neg (Ne.symm hline.1), ih hline.2, ok_bind]

theorem readLine_ok {ending : Ending} {bytes line rest : Bytes}
    (h : readLine ending bytes = .ok (line, rest)) :
    lf ∉ line ∧ (bytes = line ++ lf :: rest ∨ (bytes = line ∧ rest = [])) := by
  induction bytes generalizing line with
  | nil =>
    obtain ⟨-, -, h⟩ := bind_eq_ok.mp h
    cases h
    exact ⟨List.not_mem_nil, .inr ⟨rfl, rfl⟩⟩
  | cons c bytes ih =>
    rw [readLine] at h
    split_ifs at h with hc
    · cases h
      exact ⟨List.not_mem_nil, .inl (by rw [hc, List.nil_append])⟩
    · obtain ⟨⟨line', rest'⟩, hline, h⟩ := bind_eq_ok.mp h
      cases h
      obtain ⟨hmem, hbytes⟩ := ih hline
      refine ⟨?_, ?_⟩
      · rw [List.mem_cons, not_or]
        exact ⟨Ne.symm hc, hmem⟩
      · rcases hbytes with rfl | ⟨rfl, rfl⟩
        · exact .inl rfl
        · exact .inr ⟨rfl, rfl⟩

theorem readLinesLoop_unlines (ending : Ending) {lines : List Bytes}
    (hlines : ∀ l ∈ lines, lf ∉ l) (rest : Bytes) (fuel : ℕ) (hfuel : lines.length < fuel) :
    readLinesLoop ending fuel (unlines lf lines ++ lf :: rest) =
      .ok (blockLines lines, afterBlock lf lines rest) := by
  induction lines generalizing fuel with
  | nil =>
    obtain ⟨fuel, rfl⟩ : ∃ n, fuel = n + 1 := ⟨fuel - 1, by omega⟩
    have hend := readLine_line ending (List.not_mem_nil : lf ∉ []) rest
    rw [readLinesLoop, unlines_nil, hend, ok_bind]
    rfl
  | cons l lines ih =>
    rw [List.forall_mem_cons] at hlines
    rw [List.length_cons] at hfuel
    obtain ⟨fuel, rfl⟩ : ∃ n, fuel = n + 1 := ⟨fuel - 1, by omega⟩
    rw [readLinesLoop, unlines_cons, List.append_assoc, List.cons_append,
      readLine_line ending hlines.1, ok_bind]
    dsimp only
    by_cases hl : l = []
    · subst hl
      rw [if_pos rfl, blockLines_cons_nil, afterBlock_cons_nil]
    · rw [if_neg hl, ih hlines.2 fuel (by omega), ok_bind, blockLines_cons hl,
        afterBlock_cons lf hl]

theorem length_le_unlines (lines : List Bytes) : lines.length ≤ (unlines lf lines).length := by
  induction lines with
  | nil => exact le_rfl
  | cons l lines ih =>
    rw [unlines_cons, List.length_append, List.length_cons, List.length_cons]
    omega

theorem readLines_unlines (ending : Ending) {lines : List Bytes} (hlines : ∀ l ∈ lines, lf ∉ l)
    (rest : Bytes) :
    readLines ending (unlines lf lines ++ lf :: rest) =
      .ok (blockLines lines, afterBlock lf lines rest) := by
  apply readLinesLoop_unlines ending hlines
  have := length_le_unlines lines
  rw [List.length_append]
  omega

theorem readLinesLoop_ok {ending : Ending} {fuel : ℕ} {bytes rest : Bytes} {lines : List Bytes}
    (h : readLinesLoop ending fuel bytes = .ok (lines, rest)) :
    lines = blockLines (bytes.splitOn lf) := by
  induction fuel generalizing bytes lines with
  | zero => cases h
  | succ fuel ih =>
    obtain ⟨⟨line, rest'⟩, hline, h⟩ := bind_eq_ok.mp h
    obtain ⟨hmem, hbytes⟩ := readLine_ok hline
    have hsplit : ∃ more, bytes.splitOn lf = line :: more ∧
        (line ≠ [] → blockLines more = blockLines (rest'.splitOn lf)) := by
      rcases hbytes with rfl | ⟨rfl, rfl⟩
      · exact ⟨rest'.splitOn lf, List.splitOn_append_cons_self_of_not_mem hmem rest', fun _ => rfl⟩
      · exact ⟨[], List.splitOn_eq_singleton hmem, fun _ => rfl⟩
    obtain ⟨more, hsplit, hmore⟩ := hsplit
    rw [hsplit]
    dsimp only at h
    split_ifs at h with hnil
    · cases h
      rw [hnil, blockLines_cons_nil]
    · obtain ⟨⟨lines', rest''⟩, hlines, h⟩ := bind_eq_ok.mp h
      cases h
      rw [blockLines_cons hnil, hmore hnil, ih hlines]

theorem length_readLine_lt {ending : Ending} {bytes line rest : Bytes} (hne : bytes ≠ [])
    (h : readLine ending bytes = .ok (line, rest)) : rest.length < bytes.length := by
  rcases (readLine_ok h).2 with rfl | ⟨rfl, rfl⟩
  · rw [List.length_append, List.length_cons]
    omega
  · exact List.length_pos_of_ne_nil hne

theorem length_readLine_le {ending : Ending} {bytes line rest : Bytes}
    (h : readLine ending bytes = .ok (line, rest)) : rest.length ≤ bytes.length := by
  rcases (readLine_ok h).2 with rfl | ⟨rfl, rfl⟩
  · rw [List.length_append, List.length_cons]
    omega
  · exact Nat.zero_le _

theorem length_readLinesLoop_le {ending : Ending} {fuel : ℕ} {bytes rest : Bytes}
    {lines : List Bytes} (h : readLinesLoop ending fuel bytes = .ok (lines, rest)) :
    rest.length ≤ bytes.length := by
  induction fuel generalizing bytes lines with
  | zero => cases h
  | succ fuel ih =>
    obtain ⟨⟨line, rest'⟩, hline, h⟩ := bind_eq_ok.mp h
    have hle := length_readLine_le hline
    dsimp only at h
    split_ifs at h with hnil
    · cases h
      exact hle
    · obtain ⟨⟨lines', rest''⟩, hlines, h⟩ := bind_eq_ok.mp h
      cases h
      exact (ih hlines).trans hle

theorem length_readLines_lt {ending : Ending} {bytes rest : Bytes} {lines : List Bytes}
    (hne : bytes ≠ []) (h : readLines ending bytes = .ok (lines, rest)) :
    rest.length < bytes.length := by
  obtain ⟨⟨line, rest'⟩, hline, h⟩ := bind_eq_ok.mp h
  have hlt := length_readLine_lt hne hline
  dsimp only at h
  split_ifs at h with hnil
  · cases h
    exact hlt
  · obtain ⟨⟨lines', rest''⟩, hlines, h⟩ := bind_eq_ok.mp h
    cases h
    exact (length_readLinesLoop_le hlines).trans_lt hlt

theorem readLine_error {ending : Ending} {bytes : Bytes} {stop : Stop}
    (h : readLine ending bytes = .error stop) : ending.read = .error stop := by
  induction bytes with
  | nil =>
    rcases bind_eq_error.mp h with hread | ⟨u, -, h⟩
    · exact hread
    · cases h
  | cons c bytes ih =>
    rw [readLine] at h
    split_ifs at h
    rcases bind_eq_error.mp h with hrest | ⟨r, -, h⟩
    · exact ih hrest
    · cases h

theorem readLinesLoop_error {ending : Ending} {fuel : ℕ} {bytes : Bytes} {stop : Stop}
    (h : readLinesLoop ending fuel bytes = .error stop) :
    stop = .blocked ∨ ending.read = .error stop := by
  induction fuel generalizing bytes with
  | zero =>
    cases h
    exact .inl rfl
  | succ fuel ih =>
    rcases bind_eq_error.mp h with hline | ⟨r, -, h⟩
    · exact .inr (readLine_error hline)
    · dsimp only at h
      split_ifs at h
      rcases bind_eq_error.mp h with hlines | ⟨r', -, h⟩
      · exact ih hlines
      · cases h

theorem HeaderMap.get_add (headers : HeaderMap) (entry : Bytes × Bytes) (key : Bytes) :
    (headers.add entry).get key =
      if entry.1 = key then some ((headers.get key).getD [] ++ [entry.2]) else headers.get key := by
  induction headers with
  | nil =>
    by_cases hkey : entry.1 = key
    · simp [add, get, hkey]
    · simp [add, get, hkey, List.lookup, beq_false_of_ne (Ne.symm hkey)]
  | cons first headers ih =>
    obtain ⟨k, values⟩ := first
    simp only [get] at ih
    by_cases hk : k = entry.1
    · by_cases hkey : entry.1 = key
      · simp [add, get, hk, hkey]
      · simp [add, get, hk, hkey, List.lookup, beq_false_of_ne (Ne.symm hkey)]
    · by_cases hkey : key = k
      · simp [add, get, hk, hkey, Ne.symm hk]
      · simp [add, get, hk, List.lookup, beq_false_of_ne hkey, ih]

def valuesOf (lines : List Bytes) (key : Bytes) : List Bytes :=
  ((lines.map splitHeader).filter (·.1 = key)).map Prod.snd

@[simp] theorem valuesOf_nil (key : Bytes) : valuesOf [] key = [] := rfl

theorem valuesOf_cons (line : Bytes) (lines : List Bytes) (key : Bytes) :
    valuesOf (line :: lines) key =
      if (splitHeader line).1 = key then (splitHeader line).2 :: valuesOf lines key
      else valuesOf lines key := by
  by_cases hkey : (splitHeader line).1 = key <;> simp [valuesOf, hkey]

theorem valuesOf_append (lines lines' : List Bytes) (key : Bytes) :
    valuesOf (lines ++ lines') key = valuesOf lines key ++ valuesOf lines' key := by
  simp [valuesOf]

theorem get_headersOf (lines : List Bytes) (key : Bytes) :
    (headersOf lines).get key =
      if valuesOf lines key = [] then none else some (valuesOf lines key) := by
  induction lines using List.reverseRecOn with
  | nil => rfl
  | append_singleton lines line ih =>
    have hfold : headersOf (lines ++ [line]) = (headersOf lines).add (splitHeader line) := by
      rw [headersOf, List.foldl_append]
      rfl
    rw [hfold, HeaderMap.get_add, ih]
    rw [valuesOf_append, valuesOf_cons]
    by_cases hkey : (splitHeader line).1 = key
    · by_cases hnil : valuesOf lines key = [] <;> simp [hkey, hnil]
    · simp [hkey]

theorem get_headersOf_eq_iff (lines lines' : List Bytes) (key : Bytes) :
    (headersOf lines).get key = (headersOf lines').get key ↔
      valuesOf lines key = valuesOf lines' key := by
  rw [get_headersOf, get_headersOf]
  by_cases hnil : valuesOf lines key = [] <;> by_cases hnil' : valuesOf lines' key = []
  · simp [hnil, hnil']
  · simp [hnil, hnil']
  · simp [hnil, hnil']
  · simp [hnil, hnil']

theorem first_headersOf (lines : List Bytes) (key : Bytes) :
    (headersOf lines).first key = (valuesOf lines key).head? := by
  rw [HeaderMap.first, get_headersOf]
  split_ifs with h
  · rw [h]
    rfl
  · rfl

theorem parseHeaders_lines {ending : Ending} {bytes rest : Bytes} {headers : HeaderMap}
    (h : parseHeaders ending bytes = .ok (headers, rest)) :
    ∃ lines, readLines ending bytes = .ok (lines, rest) ∧ headersOf lines = headers := by
  unfold parseHeaders at h
  split at h
  · rename_i lines rest' hlines
    cases h
    exact ⟨lines, hlines, rfl⟩
  · cases h
  · cases h
  · cases h

theorem parseHeaders_ok {ending : Ending} {bytes rest : Bytes} {headers : HeaderMap}
    (h : parseHeaders ending bytes = .ok (headers, rest)) :
    headers = headersOf (blockLines (bytes.splitOn lf)) := by
  obtain ⟨lines, hlines, rfl⟩ := parseHeaders_lines h
  rw [readLinesLoop_ok hlines]

theorem length_parseHeaders_lt {ending : Ending} {bytes rest : Bytes} {headers : HeaderMap}
    (h : parseHeaders ending bytes = .ok (headers, rest)) (hne : headers ≠ []) :
    rest.length < bytes.length := by
  obtain ⟨lines, hlines, rfl⟩ := parseHeaders_lines h
  refine length_readLines_lt ?_ hlines
  rintro rfl
  obtain rfl : lines = [] := readLinesLoop_ok hlines
  exact hne rfl

theorem InvocationRequest.check_of_token {request : InvocationRequest} {auth : Bytes}
    {t : AuthToken} (hauth : request.clientAuthToken = some auth) (hne : auth ≠ [])
    (htoken : request.serverAuthToken = some t) (heq : auth = t.token) (sleepInterrupted : Bool) :
    request.check sleepInterrupted = .ok () := by
  subst heq
  rw [InvocationRequest.check, hauth, htoken]
  simp [truth, AuthToken.isValid, hne]

end GroovyServ.Server

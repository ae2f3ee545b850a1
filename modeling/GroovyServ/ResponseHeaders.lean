import GroovyServ.CStrings
import GroovyServ.Lines

/-!
# The C client's parser of response header blocks

`readLine`, `readHeader`, `readHeaders` and `findHeader` follow the functions of
the same names in `session.c`. The input is what the server sends until the
connection ends, and a read at its end leaves the line buffer as it was. The
`headers` array keeps its previous content wherever nothing is stored, and a
store or a look-up outside of it is undefined.
-/

namespace GroovyServ.Client

open CLib Lines

def bufferSize : ℕ := 512

def maxHeaderKeyLen : ℕ := 30

def maxHeaderValueLen : ℕ := 512

def maxHeader : ℕ := 10

def cr : UInt8 := 13

def cancel : UInt8 := 24

structure Header where
  key : Bytes
  value : Bytes
  key_length : key.length = maxHeaderKeyLen + 1
  value_length : value.length = maxHeaderValueLen + 1
  deriving DecidableEq

def Header.setKey (h : Header) (p : Bytes) : Header where
  key := strncpy h.key p maxHeaderKeyLen
  value := h.value
  key_length := by rw [length_strncpy _ _ _ (by rw [h.key_length]; omega), h.key_length]
  value_length := h.value_length

def Header.setValue (h : Header) (p : Bytes) : Header where
  key := h.key
  value := strncpy h.value p maxHeaderValueLen
  key_length := h.key_length
  value_length := by rw [length_strncpy _ _ _ (by rw [h.value_length]; omega), h.value_length]

def hexChar (c : UInt8) : Bytes :=
  let digits := (Nat.toDigits 16 c.toNat).map fun d => UInt8.ofNat d.toNat
  if c.toNat < 128 then digits else ascii "ffffff" ++ digits

def checkKey (p : Bytes) : Bytes → CResult Bool
  | [] => .ok true
  | c :: cs =>
    if c = cancel then .error (.exit 0 [])
    else if isspace c then .ok false
    else if isalnum c then checkKey p cs
    else .error (.exit 1 (ascii "ERROR: invalid header: key \"" ++ p ++
      ascii "\" is invalid: " ++ hexChar c ++ [lf]))

/-- `header` is the element that the pointer designates, if it designates one. -/
def readHeader (buf : Bytes) (header : Option Header) : CResult (Option Header) := do
  match ← strtok (ascii " :") buf with
  | none => .error (.exit 1 (ascii "ERROR: invalid header: key is NULL\n"))
  | some (key, rest) =>
    if maxHeaderKeyLen < key.length then
      .error (.exit 1 (ascii "ERROR: invalid header: key \"" ++ key ++ ascii "\" is too long\n"))
    else if ← checkKey key key then
      match header with
      | none => .error .undefined
      | some header =>
        let header := header.setKey key
        match ← strtok [lf] rest with
        | none =>
          .error (.exit 1 (ascii "ERROR: invalid header: value of key \"" ++ cString header.key ++
            ascii "\" is NULL: (null)\n"))
        | some (p, _) =>
          let value := p.dropWhile isspace
          if maxHeaderValueLen < value.length then
            .error (.exit 1 (ascii "ERROR: invalid header: value of key \"" ++
              cString header.key ++ ascii "\" is too long: " ++ value ++ [lf]))
          else .ok (some (header.setValue value))
    else .ok header

def readLineLoop : ℕ → Bytes → Bytes × Bytes
  | 0, input => ([], input)
  | n + 1, [] => (0 :: (readLineLoop n []).1, [])
  | n + 1, b :: input =>
    if b = lf then (lf :: List.replicate n 0, input)
    else (b :: (readLineLoop n input).1, (readLineLoop n input).2)

def readLine (input : Bytes) : Bytes × Bytes := readLineLoop bufferSize input

/-- The fuel bounds the number of lines; each line but the last takes a byte. -/
def readHeadersLoop : ℕ → ℕ → List Header → Bytes → CResult (ℕ × List Header × Bytes)
  | 0, _, _, _ => .error .undefined
  | fuel + 1, pos, headers, input =>
    let buf := (readLine input).1
    let rest := (readLine input).2
    let p := if buf.head? = some cr then buf.tail else buf
    if buf.head? = some 0 then .ok (0, headers, rest)
    else if p.head? = some lf then .ok (pos, headers, rest)
    else do
      let header ← readHeader buf headers[pos]?
      if maxHeader < pos then .error (.exit 1 (ascii "ERROR: too many headers\n"))
      else
        let headers := match header with
          | some header => headers.set pos header
          | none => headers
        readHeadersLoop fuel (pos + 1) headers rest

/-- The number of headers, the array after the stores, and the unread bytes. -/
def readHeaders (headers : List Header) (input : Bytes) : CResult (ℕ × List Header × Bytes) :=
  readHeadersLoop (input.length + 1) 0 headers input

def findHeaderLoop (headers : List Header) (key : Bytes) : ℕ → ℕ → CResult (Option Bytes)
  | 0, _ => .ok none
  | n + 1, i =>
    match headers[i]? with
    | none => .error .undefined
    | some header =>
      if strcmpZero header.key key then .ok (some header.value)
      else findHeaderLoop headers key n (i + 1)

def findHeader (headers : List Header) (key : Bytes) (headerSize : ℕ) : CResult (Option Bytes) :=
  findHeaderLoop headers key headerSize 0

/-- A key and a value that a header line can carry unchanged. -/
structure Field where
  key : Bytes
  value : Bytes
  key_ne_nil : key ≠ []
  key_alnum : ∀ c ∈ key, isalnum c = true
  key_short : key.length < maxHeaderKeyLen
  value_ne_nil : value ≠ []
  value_head : ∀ c ∈ value.head?, isspace c = false
  value_plain : ∀ c ∈ value, c ≠ 0 ∧ c ≠ lf
  fits : key.length + value.length + 3 ≤ bufferSize

namespace Field

variable (f : Field)

def line : Bytes := f.key ++ (58 :: 32 :: f.value)

theorem not_isalnum_of_mem {c : UInt8} (hc : c ∈ [0, 10, 13, 24, 32, 58]) :
    isalnum c = false := by
  simp only [List.mem_cons, List.not_mem_nil, or_false] at hc
  rcases hc with rfl | rfl | rfl | rfl | rfl | rfl <;> rfl

theorem key_plain {c : UInt8} (hc : c ∈ [0, 10, 13, 24, 32, 58]) : c ∉ f.key := by
  intro hmem
  have h := f.key_alnum c hmem
  rw [not_isalnum_of_mem hc] at h
  cases h

theorem line_plain : lf ∉ f.line ∧ (0 : UInt8) ∉ f.line := by
  have hlf : lf ∉ f.value := fun h => (f.value_plain lf h).2 rfl
  have h0 : (0 : UInt8) ∉ f.value := fun h => (f.value_plain 0 h).1 rfl
  constructor
  · simp only [line, List.mem_append, List.mem_cons, not_or]
    exact ⟨f.key_plain (by decide), by decide, by decide, hlf⟩
  · simp only [line, List.mem_append, List.mem_cons, not_or]
    exact ⟨f.key_plain (by decide), by decide, by decide, h0⟩

theorem key_delims : ∀ c ∈ f.key, c ≠ 0 ∧ c ∉ ascii " :" := by
  intro c hc
  constructor
  · rintro rfl
    exact f.key_plain (by decide) hc
  · intro hmem
    have hdelims : ascii " :" = [32, 58] := rfl
    rw [hdelims] at hmem
    exact f.key_plain (List.mem_append_right [0, 10, 13, 24] hmem) hc

theorem strtok_key (zeros : Bytes) :
    strtok (ascii " :") (f.line ++ lf :: zeros) =
      .ok (some (f.key, 32 :: f.value ++ lf :: zeros)) := by
  have htok := strtok_append f.key_ne_nil f.key_delims (d := 58) (by decide) (by decide)
    (32 :: f.value ++ lf :: zeros)
  simpa only [line, List.append_assoc, List.cons_append] using htok

theorem length_line : f.line.length = f.key.length + f.value.length + 2 := by
  simp only [line, List.length_append, List.length_cons]
  omega

end Field

/-- The header stores the field, each string with its terminator. -/
def Holds (h : Header) (f : Field) : Prop :=
  (∃ mem, h.key = f.key ++ 0 :: mem) ∧ ∃ mem, h.value = f.value ++ 0 :: mem

theorem readLineLoop_line (line : Bytes) (hlf : lf ∉ line) (n : ℕ) (rest : Bytes) :
    readLineLoop (line.length + (n + 1)) (line ++ lf :: rest) =
      (line ++ lf :: List.replicate n 0, rest) := by
  induction line with
  | nil => simp [readLineLoop]
  | cons c line ih =>
    rw [List.mem_cons, not_or] at hlf
    have hn : (c :: line).length + (n + 1) = (line.length + (n + 1)) + 1 := by
      rw [List.length_cons]; omega
    rw [hn, List.cons_append, readLineLoop, if_neg (Ne.symm hlf.1), ih hlf.2, List.cons_append]

theorem readLine_line (line : Bytes) (hlf : lf ∉ line) (hlen : line.length < bufferSize)
    (rest : Bytes) :
    readLine (line ++ lf :: rest) =
      (line ++ lf :: List.replicate (bufferSize - line.length - 1) 0, rest) := by
  have h := readLineLoop_line line hlf (bufferSize - line.length - 1) rest
  rwa [show line.length + (bufferSize - line.length - 1 + 1) = bufferSize by omega] at h

theorem checkKey_of_alnum (p : Bytes) {key : Bytes} (hkey : ∀ c ∈ key, isalnum c = true) :
    checkKey p key = .ok true := by
  induction key with
  | nil => rfl
  | cons c key ih =>
    have hc := hkey c List.mem_cons_self
    have hcancel : c ≠ cancel := by rintro rfl; exact absurd hc (by decide)
    have hspace : isspace c = false := by
      by_contra h
      simp only [Bool.not_eq_false, isspace, decide_eq_true_eq] at h
      simp only [isalnum, isDigit, Bool.or_eq_true, decide_eq_true_eq] at hc
      omega
    simp only [checkKey, hcancel, hspace, hc, if_true, if_false, Bool.false_eq_true]
    exact ih fun d hd => hkey d (List.mem_cons_of_mem c hd)

theorem readHeader_line (f : Field) (h : Header) (zeros : Bytes) :
    ∃ h', readHeader (f.line ++ lf :: zeros) (some h) = .ok (some h') ∧ Holds h' f := by
  have hvaltok : strtok [lf] (32 :: f.value ++ lf :: zeros) =
      .ok (some (32 :: f.value, zeros)) := by
    apply strtok_append (List.cons_ne_nil _ _) _ (by decide) (by decide)
    intro c hc
    rcases List.mem_cons.mp hc with rfl | hc
    · decide
    · exact ⟨(f.value_plain c hc).1, by simpa using (f.value_plain c hc).2⟩
  have hdrop : (32 :: f.value).dropWhile isspace = f.value := by
    have h32 : isspace 32 = true := by decide
    have := dropWhile_append_of_neg f.value_head f.value_ne_nil []
    simpa [h32] using this
  have hshort := f.key_short
  have hfits := f.fits
  have hpos := List.length_pos_of_ne_nil f.key_ne_nil
  have hvlen : f.value.length < maxHeaderValueLen := by
    unfold maxHeaderValueLen
    unfold bufferSize at hfits
    omega
  refine ⟨(h.setKey f.key).setValue f.value, ?_, ?_, ?_⟩
  · have hlong : ¬ maxHeaderKeyLen < f.key.length := by omega
    have hvlong : ¬ maxHeaderValueLen < f.value.length := by omega
    rw [readHeader, f.strtok_key zeros]
    simp only [bind, Except.bind, hlong, if_false, checkKey_of_alnum f.key f.key_alnum, if_true,
      hvaltok, hdrop, hvlong]
  · exact strncpy_of_lt _ _ hshort
  · exact strncpy_of_lt _ _ hvlen

theorem readHeadersLoop_line (f : Field) (fuel pos : ℕ) (headers : List Header)
    (hpos : pos < headers.length) (hmax : headers.length ≤ maxHeader) (rest : Bytes) :
    ∃ h', Holds h' f ∧ readHeadersLoop (fuel + 1) pos headers (f.line ++ lf :: rest) =
      readHeadersLoop fuel (pos + 1) (headers.set pos h') rest := by
  have hlen : f.line.length < bufferSize := by
    have := f.fits
    rw [f.length_line]
    omega
  obtain ⟨h', hread, hholds⟩ := readHeader_line f headers[pos]
    (List.replicate (bufferSize - f.line.length - 1) 0)
  refine ⟨h', hholds, ?_⟩
  obtain ⟨c, key', hkey⟩ := List.exists_cons_of_ne_nil f.key_ne_nil
  have hc : c ∈ f.key := by rw [hkey]; exact List.mem_cons_self
  have hne : ∀ d ∈ [0, 10, 13, 24, 32, 58], c ≠ d := fun d hd h => f.key_plain hd (h ▸ hc)
  have h0 := hne 0 (by decide)
  have hlf : c ≠ lf := hne 10 (by decide)
  have hcr : c ≠ cr := hne 13 (by decide)
  have hhead : ∀ t, (f.line ++ t).head? = some c := fun t => by simp [Field.line, hkey]
  have hnot : ¬ maxHeader < pos := by omega
  rw [readHeadersLoop, readLine_line f.line f.line_plain.1 hlen]
  simp only [hhead, Option.some.injEq, h0, hcr, hlf, if_false, List.getElem?_eq_getElem hpos,
    hread, bind, Except.bind, hnot]

theorem readHeadersLoop_end (fuel pos : ℕ) (headers : List Header) (rest : Bytes) :
    readHeadersLoop (fuel + 1) pos headers (lf :: rest) = .ok (pos, headers, rest) := by
  have hline : readLine (lf :: rest) = (lf :: List.replicate (bufferSize - 1) 0, rest) := by
    simpa using readLine_line [] (by simp) (by decide) rest
  have h0 : lf ≠ 0 := by decide
  have hcr : lf ≠ cr := by decide
  rw [readHeadersLoop, hline]
  simp [h0, hcr]

/-- The fields are stored from `pos` on, in order. -/
def Stored (headers : List Header) (pos : ℕ) (fs : List Field) : Prop :=
  ∀ i f, fs[i]? = some f → ∃ h, headers[pos + i]? = some h ∧ Holds h f

theorem readHeadersLoop_block (fs : List Field) (fuel pos : ℕ) (headers : List Header)
    (hfuel : fs.length < fuel) (hpos : pos + fs.length ≤ headers.length)
    (hmax : headers.length ≤ maxHeader) (rest : Bytes) :
    ∃ headers', readHeadersLoop fuel pos headers
        (unlines lf (fs.map Field.line) ++ lf :: rest) = .ok (pos + fs.length, headers', rest) ∧
      headers'.length = headers.length ∧ Stored headers' pos fs ∧
      ∀ i < pos, headers'[i]? = headers[i]? := by
  induction fs generalizing fuel pos headers with
  | nil =>
    obtain ⟨fuel, rfl⟩ : ∃ n, fuel = n + 1 := ⟨fuel - 1, by simp at hfuel; omega⟩
    refine ⟨headers, readHeadersLoop_end fuel pos headers rest, rfl, ?_, fun i _ => rfl⟩
    intro i f hf
    simp at hf
  | cons f fs ih =>
    rw [List.length_cons] at hfuel hpos
    obtain ⟨fuel, rfl⟩ : ∃ n, fuel = n + 1 := ⟨fuel - 1, by omega⟩
    obtain ⟨h', hholds, hstep⟩ := readHeadersLoop_line f fuel pos headers (by omega) hmax
      (unlines lf (fs.map Field.line) ++ lf :: rest)
    obtain ⟨headers', hrun, hlen, hstored, hkeep⟩ := ih fuel (pos + 1) (headers.set pos h')
      (by omega) (by rw [List.length_set]; omega) (by rw [List.length_set]; exact hmax)
    refine ⟨headers', ?_, by rw [hlen, List.length_set], ?_, ?_⟩
    · rw [List.map_cons, unlines_cons, List.append_assoc, List.cons_append, hstep, hrun,
        List.length_cons, Nat.add_assoc, Nat.add_comm 1]
    · intro i g hg
      cases i with
      | zero =>
        obtain rfl : f = g := by simpa using hg
        refine ⟨h', ?_, hholds⟩
        rw [Nat.add_zero, hkeep pos (Nat.lt_succ_self pos)]
        exact List.getElem?_set_self (by omega)
      | succ i =>
        have := hstored i g (by simpa using hg)
        rwa [show pos + 1 + i = pos + (i + 1) by omega] at this
    · intro i hi
      rw [hkeep i (by omega), List.getElem?_set_ne (by omega)]

theorem length_le_unlines (fs : List Field) :
    fs.length ≤ (unlines lf (fs.map Field.line)).length := by
  induction fs with
  | nil => exact le_rfl
  | cons f fs ih =>
    rw [List.map_cons, unlines_cons, List.length_append, List.length_cons, List.length_cons]
    omega

/-- A block of well-formed lines is read up to its empty line, whatever the
array held before. -/
theorem readHeaders_block (fs : List Field) (headers : List Header)
    (hfs : fs.length ≤ headers.length) (hmax : headers.length ≤ maxHeader) (rest : Bytes) :
    ∃ headers', readHeaders headers (unlines lf (fs.map Field.line) ++ lf :: rest) =
        .ok (fs.length, headers', rest) ∧
      headers'.length = headers.length ∧ Stored headers' 0 fs := by
  have hfuel : fs.length < (unlines lf (fs.map Field.line) ++ lf :: rest).length + 1 := by
    have := length_le_unlines fs
    rw [List.length_append]
    omega
  obtain ⟨headers', hrun, hlen, hstored, _⟩ :=
    readHeadersLoop_block fs _ 0 headers hfuel (by omega) hmax rest
  exact ⟨headers', by simpa only [readHeaders, Nat.zero_add] using hrun, hlen, hstored⟩

theorem findHeaderLoop_stored (headers : List Header) (key : Bytes) (hkey : (0 : UInt8) ∉ key)
    (fs : List Field) (pos : ℕ) (hstored : Stored headers pos fs) :
    (fs.find? (fun f => f.key = key) = none ∧
        findHeaderLoop headers key fs.length pos = .ok none) ∨
      ∃ f mem, fs.find? (fun f => f.key = key) = some f ∧
        findHeaderLoop headers key fs.length pos = .ok (some (f.value ++ 0 :: mem)) := by
  induction fs generalizing pos with
  | nil => exact .inl ⟨rfl, rfl⟩
  | cons f fs ih =>
    obtain ⟨h, hget, ⟨kmem, hk⟩, ⟨vmem, hv⟩⟩ := hstored 0 f rfl
    rw [Nat.add_zero] at hget
    have hcmp : strcmpZero h.key key = decide (f.key = key) := by
      rw [hk]
      exact strcmpZero_append (f.key_plain (by decide)) hkey kmem
    have htail : Stored headers (pos + 1) fs := by
      intro i g hg
      have := hstored (i + 1) g (by simpa using hg)
      rwa [show pos + 1 + i = pos + (i + 1) by omega]
    rw [List.length_cons, findHeaderLoop, hget]
    by_cases heq : f.key = key
    · refine .inr ⟨f, vmem, by simp [heq], ?_⟩
      simp [hcmp, heq, hv]
    · simpa [hcmp, heq] using ih (pos + 1) htail

/-- In a stored block, `find_header` finds the first field with the key. -/
theorem findHeader_stored {headers : List Header} {key : Bytes} (hkey : (0 : UInt8) ∉ key)
    {fs : List Field} (hstored : Stored headers 0 fs) :
    (fs.find? (fun f => f.key = key) = none ∧
        findHeader headers key fs.length = .ok none) ∨
      ∃ f mem, fs.find? (fun f => f.key = key) = some f ∧
        findHeader headers key fs.length = .ok (some (f.value ++ 0 :: mem)) :=
  findHeaderLoop_stored headers key hkey fs 0 hstored

end GroovyServ.Client

import GroovyServ.ConnectionEnd

/-!
# The elements of the client's array of headers

The client reads each header line into the next element of an array that is neither
cleared nor initialised. What a line makes of its element depends on the line alone:
it stores a key and a value, it stores nothing and the element counts all the same,
or the client stops. Whether all that is stored is in the array is a property of the
lines.
-/

namespace GroovyServ

open Client CLib

/-- The status of the process, if the computation ends with one. -/
def Halt.code : Halt → Option ℤ
  | .exit code _ => some code
  | _ => none

namespace Client

/-- A line stops the client before anything is stored, or after the key, it is skipped,
or it is stored. -/
inductive LineRead where
  | stops (code : Option ℤ)
  | stopsAtValue (code : Option ℤ)
  | skipped
  | stored (key value : Bytes)
  deriving DecidableEq

def lineRead (buf : Bytes) : LineRead :=
  match strtok (ascii " :") buf with
  | .error h => .stops h.code
  | .ok none => .stops (some 1)
  | .ok (some (key, rest)) =>
    if maxHeaderKeyLen < key.length then .stops (some 1)
    else
      match checkKey key key with
      | .error h => .stops h.code
      | .ok false => .skipped
      | .ok true =>
        match strtok [lf] rest with
        | .error h => .stopsAtValue h.code
        | .ok none => .stopsAtValue (some 1)
        | .ok (some (p, _)) =>
          if maxHeaderValueLen < (p.dropWhile isspace).length then .stopsAtValue (some 1)
          else .stored key (p.dropWhile isspace)

/-- The element afterwards, with the status for the error. A store needs an element. -/
def LineRead.effect : LineRead → Option Header → Except (Option ℤ) (Option Header)
  | .stops code, _ => .error code
  | .skipped, header => .ok header
  | .stopsAtValue _, none => .error none
  | .stopsAtValue code, some _ => .error code
  | .stored _ _, none => .error none
  | .stored key value, some header => .ok (some ((header.setKey key).setValue value))

theorem readHeader_effect (buf : Bytes) (header : Option Header) :
    (readHeader buf header).mapError Halt.code = (lineRead buf).effect header := by
  unfold readHeader lineRead
  cases strtok (ascii " :") buf with
  | error h => rfl
  | ok token =>
    cases token with
    | none => rfl
    | some kr =>
      obtain ⟨key, rest⟩ := kr
      simp only [ok_bind]
      split_ifs with hlong
      · rfl
      · cases checkKey key key with
        | error h => rfl
        | ok stores =>
          cases stores with
          | false => rfl
          | true =>
            simp only [ok_bind, if_true]
            cases header with
            | none =>
              cases strtok [lf] rest with
              | error h => rfl
              | ok value =>
                cases value with
                | none => rfl
                | some pr =>
                  simp only
                  split_ifs <;> rfl
            | some header =>
              cases strtok [lf] rest with
              | error h => rfl
              | ok value =>
                cases value with
                | none => rfl
                | some pr =>
                  simp only [ok_bind]
                  split_ifs <;> rfl

/-- The lines that are received as headers, whether an empty one ends them, and what is
left on the socket then. -/
structure HeaderReads where
  reads : List LineRead
  complete : Bool
  rest : Bytes

/-- Whether the line ends the block, and then whether it is the empty one. -/
def blockEnd (buf : Bytes) : Option Bool :=
  let p := if buf.head? = some cr then buf.tail else buf
  if buf.head? = some 0 then some false
  else if p.head? = some lf then some true
  else none

/-- Each line but the last takes a byte, so their number is fuel enough. -/
def headerReadsLoop : ℕ → Bytes → HeaderReads
  | 0, input => ⟨[], false, input⟩
  | fuel + 1, input =>
    match blockEnd (readLine input).1 with
    | some complete => ⟨[], complete, (readLine input).2⟩
    | none =>
      { headerReadsLoop fuel (readLine input).2 with
        reads := lineRead (readLine input).1 :: (headerReadsLoop fuel (readLine input).2).reads }

def headerReads (input : Bytes) : HeaderReads := headerReadsLoop (input.length + 1) input

def setHeader (headers : List Header) (pos : ℕ) : Option Header → List Header
  | some header => headers.set pos header
  | none => headers

def storeReads : ℕ → List Header → List LineRead → Except (Option ℤ) (List Header)
  | _, headers, [] => .ok headers
  | pos, headers, read :: reads => do
    let header ← read.effect headers[pos]?
    if maxHeader < pos then .error (some 1)
    else storeReads (pos + 1) (setHeader headers pos header) reads

theorem readLineLoop_suffix (n : ℕ) (input : Bytes) : (readLineLoop n input).2 <:+ input := by
  induction n generalizing input with
  | zero => exact List.suffix_rfl
  | succ n ih =>
    cases input with
    | nil => exact List.suffix_rfl
    | cons c input =>
      rw [readLineLoop]
      split_ifs
      · exact List.suffix_cons c input
      · exact (ih input).trans (List.suffix_cons c input)

theorem length_readLine_lt {input : Bytes} (h : blockEnd (readLine input).1 = none) :
    (readLine input).2.length < input.length := by
  cases input with
  | nil => cases h
  | cons c input =>
    rw [readLine, bufferSize, readLineLoop]
    split_ifs
    · exact Nat.lt_succ_self _
    · exact Nat.lt_succ_of_le (readLineLoop_suffix _ input).length_le

/-- One turn of the loop, by what the line is for the block. -/
theorem readHeadersLoop_succ (fuel pos : ℕ) (headers : List Header) (input : Bytes) :
    readHeadersLoop (fuel + 1) pos headers input =
      match blockEnd (readLine input).1 with
      | some complete => .ok (if complete then pos else 0, headers, (readLine input).2)
      | none => readHeader (readLine input).1 headers[pos]? >>= fun header =>
          if maxHeader < pos then .error (.exit 1 (ascii "ERROR: too many headers\n"))
          else readHeadersLoop fuel (pos + 1) (setHeader headers pos header)
            (readLine input).2 := by
  rw [readHeadersLoop]
  dsimp only
  by_cases hnul : (readLine input).1.head? = some 0
  · have hend : blockEnd (readLine input).1 = some false := if_pos hnul
    rw [if_pos hnul, hend]
    rfl
  rw [if_neg hnul]
  by_cases hblank : (if (readLine input).1.head? = some cr then (readLine input).1.tail
      else (readLine input).1).head? = some lf
  · have hend : blockEnd (readLine input).1 = some true := (if_neg hnul).trans (if_pos hblank)
    rw [if_pos hblank, hend]
    rfl
  · have hend : blockEnd (readLine input).1 = none := (if_neg hnul).trans (if_neg hblank)
    rw [if_neg hblank, hend]
    rfl

theorem readHeadersLoop_storeReads (fuel pos : ℕ) (headers : List Header) (input : Bytes)
    (hfuel : input.length < fuel) :
    (readHeadersLoop fuel pos headers input).mapError Halt.code =
      (storeReads pos headers (headerReadsLoop fuel input).reads).map fun headers' =>
        (if (headerReadsLoop fuel input).complete then
            pos + (headerReadsLoop fuel input).reads.length else 0,
          headers', (headerReadsLoop fuel input).rest) := by
  induction fuel generalizing pos headers input with
  | zero => omega
  | succ fuel ih =>
    rw [readHeadersLoop_succ, headerReadsLoop]
    cases hend : blockEnd (readLine input).1 with
    | some complete => cases complete <;> rfl
    | none =>
      have hrest := length_readLine_lt hend
      dsimp only
      rw [mapError_bind, readHeader_effect, storeReads]
      cases (lineRead (readLine input).1).effect headers[pos]? with
      | error code => rfl
      | ok header =>
        rw [ok_bind, ok_bind]
        by_cases hmany : maxHeader < pos
        · rw [if_pos hmany, if_pos hmany]
          rfl
        · rw [if_neg hmany, if_neg hmany]
          rw [ih _ _ _ (by omega), List.length_cons, ← Nat.add_assoc, Nat.add_right_comm]

theorem readHeaders_storeReads (headers : List Header) (input : Bytes) :
    (readHeaders headers input).mapError Halt.code =
      (storeReads 0 headers (headerReads input).reads).map fun headers' =>
        (if (headerReads input).complete then (headerReads input).reads.length else 0,
          headers', (headerReads input).rest) := by
  have hread := readHeadersLoop_storeReads (input.length + 1) 0 headers input (Nat.lt_succ_self _)
  rwa [← readHeaders, ← headerReads, Nat.zero_add] at hread

theorem readHeaders_error_iff {headers : List Header} {input : Bytes} {code : Option ℤ} :
    (∃ h, readHeaders headers input = .error h ∧ h.code = code) ↔
      storeReads 0 headers (headerReads input).reads = .error code := by
  rw [← mapError_eq_error, readHeaders_storeReads]
  cases storeReads 0 headers (headerReads input).reads with
  | error code' => exact ⟨fun h => by cases h; rfl, fun h => by cases h; rfl⟩
  | ok headers' => exact ⟨nofun, nofun⟩

theorem readHeaders_ok {headers headers' : List Header} {input : Bytes}
    (h : storeReads 0 headers (headerReads input).reads = .ok headers') :
    readHeaders headers input =
      .ok (if (headerReads input).complete then (headerReads input).reads.length else 0,
        headers', (headerReads input).rest) := by
  rw [← mapError_eq_ok (f := Halt.code), readHeaders_storeReads, h]
  rfl

section StoreReads

variable {pos : ℕ} {headers headers' : List Header} {reads : List LineRead}

theorem isSome_effect {read : LineRead} {header result : Option Header}
    (h : read.effect header = .ok result) : result.isSome = header.isSome := by
  cases read <;> cases header <;> cases h <;> rfl

theorem getElem?_setHeader {header : Option Header} (h : header.isSome = headers[pos]?.isSome) :
    (setHeader headers pos header)[pos]? = header ∧
      (setHeader headers pos header).length = headers.length ∧
      ∀ i, i ≠ pos → (setHeader headers pos header)[i]? = headers[i]? := by
  have hstored := getElem?_stored headers h
  cases header <;> exact hstored

theorem storeReads_cons (read : LineRead) : storeReads pos headers (read :: reads) =
    read.effect headers[pos]? >>= fun header =>
      if maxHeader < pos then .error (some 1)
      else storeReads (pos + 1) (setHeader headers pos header) reads := rfl

/-- The status with which the line of this number stops the client, if it does: its key or
its value is refused, it is stored outside of the array, or it is one line too many. -/
def LineRead.stopCode (index : ℕ) : LineRead → Option (Option ℤ)
  | .stops code => some code
  | .stopsAtValue code => some (if index < maxHeader then code else none)
  | .skipped => if maxHeader < index then some (some 1) else none
  | .stored _ _ => if index < maxHeader then none else some none

/-- The first line that stops the client, the lines numbered from `pos` on. -/
def StopsWith (pos : ℕ) (reads : List LineRead) (code : Option ℤ) : Prop :=
  ∃ before read after, reads = before ++ read :: after ∧
    read.stopCode (pos + before.length) = some code ∧
    ∀ (i : ℕ) (r : LineRead), before[i]? = some r → r.stopCode (pos + i) = none

theorem effect_of_stopCode {read : LineRead} {code : Option ℤ}
    (hlen : headers.length = maxHeader) (h : read.stopCode pos = some code)
    (f : Option Header → Except (Option ℤ) (List Header)) :
    (read.effect headers[pos]? >>= fun header =>
      if maxHeader < pos then .error (some 1) else f header) = .error code := by
  rcases Nat.lt_or_ge pos maxHeader with hpos | hpos
  · have hget : headers[pos]? = some headers[pos] := List.getElem?_eq_getElem (hlen ▸ hpos)
    have hfew : ¬ maxHeader < pos := by omega
    rw [hget]
    cases read with
    | stops code' => cases h; rfl
    | stopsAtValue code' =>
      rw [LineRead.stopCode, if_pos hpos] at h
      cases h
      rfl
    | skipped => rw [LineRead.stopCode, if_neg hfew] at h; cases h
    | stored key value => rw [LineRead.stopCode, if_pos hpos] at h; cases h
  · have hget : headers[pos]? = none := List.getElem?_eq_none (hlen ▸ hpos)
    rw [hget]
    cases read with
    | stops code' => cases h; rfl
    | stopsAtValue code' =>
      rw [LineRead.stopCode, if_neg (by omega)] at h
      cases h
      rfl
    | skipped =>
      rw [LineRead.stopCode] at h
      split_ifs at h with hmany
      cases h
      rw [LineRead.effect, ok_bind, if_pos hmany]
    | stored key value =>
      rw [LineRead.stopCode, if_neg (by omega)] at h
      cases h
      rfl

theorem exists_effect {read : LineRead} (hlen : headers.length = maxHeader)
    (h : read.stopCode pos = none) :
    ∃ header, read.effect headers[pos]? = .ok header ∧ ¬ maxHeader < pos := by
  cases read with
  | stops code => cases h
  | stopsAtValue code => cases h
  | skipped =>
    rw [LineRead.stopCode] at h
    split_ifs at h with hmany
    exact ⟨_, rfl, hmany⟩
  | stored key value =>
    rw [LineRead.stopCode] at h
    split_ifs at h with hpos
    have hget : headers[pos]? = some headers[pos] := List.getElem?_eq_getElem (hlen ▸ hpos)
    exact ⟨_, by rw [hget]; rfl, by omega⟩

theorem stopsWith_cons {read : LineRead} {code : Option ℤ} :
    StopsWith pos (read :: reads) code ↔ read.stopCode pos = some code ∨
      (read.stopCode pos = none ∧ StopsWith (pos + 1) reads code) := by
  constructor
  · rintro ⟨before, first, after, hreads, hstop, hbefore⟩
    cases before with
    | nil =>
      obtain ⟨rfl, -⟩ := List.cons.inj hreads
      exact .inl hstop
    | cons r before =>
      obtain ⟨rfl, rfl⟩ := List.cons.inj hreads
      refine .inr ⟨hbefore 0 read rfl, before, first, after, rfl, ?_, fun i r hr => ?_⟩
      · rw [← hstop, List.length_cons]
        congr 1
        omega
      · rw [← hbefore (i + 1) r (by simpa using hr)]
        congr 1
        omega
  · rintro (hstop | ⟨hnone, before, first, after, rfl, hstop, hbefore⟩)
    · exact ⟨[], read, reads, rfl, hstop, fun i r hr => by simp at hr⟩
    · refine ⟨read :: before, first, after, rfl, ?_, fun i r hr => ?_⟩
      · rw [← hstop, List.length_cons]
        congr 1
        omega
      · cases i with
        | zero =>
          obtain rfl : read = r := by simpa using hr
          exact hnone
        | succ i =>
          rw [← hbefore i r (by simpa using hr)]
          congr 1
          omega

theorem storeReads_error_iff (hlen : headers.length = maxHeader) {code : Option ℤ} :
    storeReads pos headers reads = .error code ↔ StopsWith pos reads code := by
  induction reads generalizing pos headers with
  | nil =>
    refine iff_of_false (fun h => nomatch h) ?_
    rintro ⟨before, read, after, hreads, -⟩
    simp at hreads
  | cons read reads ih =>
    rw [storeReads_cons, stopsWith_cons]
    cases hstop : read.stopCode pos with
    | some code' =>
      rw [effect_of_stopCode hlen hstop]
      simp
    | none =>
      obtain ⟨header, heffect, hfew⟩ := exists_effect hlen hstop
      obtain ⟨-, hset, -⟩ := getElem?_setHeader (isSome_effect heffect)
      rw [heffect, ok_bind, if_neg hfew, ih (hset.trans hlen)]
      simp

theorem storeReads_ok (h : storeReads pos headers reads = .ok headers') :
    headers'.length = headers.length ∧ (∀ i < pos, headers'[i]? = headers[i]?) ∧
      ∀ (i : ℕ) (read : LineRead), reads[i]? = some read →
        read.effect headers[pos + i]? = .ok headers'[pos + i]? := by
  induction reads generalizing pos headers with
  | nil =>
    obtain rfl := Except.ok.inj h
    exact ⟨rfl, fun _ _ => rfl, fun i read hread => by simp at hread⟩
  | cons first reads ih =>
    rw [storeReads_cons] at h
    obtain ⟨header, heffect, h⟩ := bind_eq_ok.mp h
    split_ifs at h
    obtain ⟨hset, hlen, hother⟩ := getElem?_setHeader (isSome_effect heffect)
    obtain ⟨hlen', hbefore, hreads⟩ := ih h
    refine ⟨hlen'.trans hlen, fun i hi => ?_, fun i read hread => ?_⟩
    · rw [hbefore i (by omega), hother i (by omega)]
    · cases i with
      | zero =>
        obtain rfl : first = read := by simpa using hread
        rw [Nat.add_zero, hbefore pos (Nat.lt_succ_self pos), hset, heffect]
      | succ i =>
        have hnext := hreads i read (by simpa using hread)
        have hindex : pos + 1 + i = pos + (i + 1) := by omega
        rwa [hindex, hother _ (by omega)] at hnext

end StoreReads

/-- The elements that the lines from `pos` on are stored into, in this order. -/
def storedAt : ℕ → List LineRead → List ℕ
  | _, [] => []
  | _, .stops _ :: _ => []
  | pos, .stopsAtValue _ :: _ => [pos]
  | pos, .skipped :: reads => if maxHeader < pos then [] else storedAt (pos + 1) reads
  | pos, .stored _ _ :: reads => pos :: if maxHeader < pos then [] else storedAt (pos + 1) reads

def headerStores (input : Bytes) : List ℕ := storedAt 0 (headerReads input).reads

section Stores

variable {pos : ℕ} {headers : List Header} {reads : List LineRead}

theorem storeReads_outside {i : ℕ} (hi : i ∈ storedAt pos reads) (hlen : headers.length ≤ i) :
    storeReads pos headers reads = .error none := by
  induction reads generalizing pos headers with
  | nil => cases hi
  | cons read reads ih =>
    rw [storeReads_cons]
    cases read with
    | stops code => cases hi
    | stopsAtValue code =>
      obtain rfl := List.mem_singleton.mp hi
      rw [List.getElem?_eq_none hlen]
      rfl
    | skipped =>
      rw [storedAt] at hi
      split_ifs at hi with hmany
      · cases hi
      have hset := getElem?_setHeader (rfl : headers[pos]?.isSome = headers[pos]?.isSome)
      rw [LineRead.effect, ok_bind, if_neg hmany]
      exact ih hi (hset.2.1.trans_le hlen)
    | stored key value =>
      rcases Nat.lt_or_ge pos headers.length with hpos | hpos
      · rw [List.getElem?_eq_getElem hpos, LineRead.effect, ok_bind]
        rcases List.mem_cons.mp hi with rfl | hi
        · omega
        split_ifs at hi with hmany
        · cases hi
        rw [if_neg hmany]
        exact ih hi ((List.length_set ..).trans_le hlen)
      · rw [List.getElem?_eq_none hpos]
        rfl

theorem lt_of_mem_storedAt {i : ℕ} (h : i ∈ storedAt pos reads) : i < pos + reads.length := by
  induction reads generalizing pos with
  | nil => cases h
  | cons read reads ih =>
    rw [List.length_cons]
    cases read with
    | stops code => cases h
    | stopsAtValue code =>
      obtain rfl := List.mem_singleton.mp h
      omega
    | skipped =>
      rw [storedAt] at h
      split_ifs at h
      · cases h
      have hi := ih h
      omega
    | stored key value =>
      rcases List.mem_cons.mp h with rfl | h
      · omega
      split_ifs at h
      · cases h
      have hi := ih h
      omega

end Stores

/-- Every store goes into the array, and a block of more lines than it has elements makes
the client exit. -/
def StoresInside (input : Bytes) : Prop :=
  (∀ i ∈ headerStores input, i < maxHeader) ∧
    (maxHeader < (headerReads input).reads.length → ∀ headers, headers.length = maxHeader →
      ∃ code message, readHeaders headers input = .error (.exit code message))

theorem readHeaders_exit_iff {headers : List Header} {input : Bytes} {code : ℤ}
    (hlen : headers.length = maxHeader) :
    (∃ message, readHeaders headers input = .error (.exit code message)) ↔
      StopsWith 0 (headerReads input).reads (some code) := by
  rw [← storeReads_error_iff hlen, ← readHeaders_error_iff]
  constructor
  · rintro ⟨message, hexit⟩
    exact ⟨_, hexit, rfl⟩
  · rintro ⟨halt, herror, hcode⟩
    cases halt with
    | exit code' message =>
      obtain rfl : code' = code := Option.some.inj hcode
      exact ⟨message, herror⟩
    | aborted => cases hcode
    | diverges => cases hcode
    | undefined => cases hcode

/-- The stores are inside exactly when the block has no more lines than the array has
elements, or the first line that stops the client makes it exit. -/
theorem storesInside_iff (input : Bytes) :
    StoresInside input ↔ (headerReads input).reads.length ≤ maxHeader ∨
      ∃ code, StopsWith 0 (headerReads input).reads (some code) := by
  have hlen : (List.replicate maxHeader blankHeader).length = maxHeader :=
    List.length_replicate
  constructor
  · rintro ⟨-, hrejected⟩
    rcases Nat.lt_or_ge maxHeader (headerReads input).reads.length with hmany | hfew
    · obtain ⟨code, message, hexit⟩ := hrejected hmany _ hlen
      exact .inr ⟨code, (readHeaders_exit_iff hlen).mp ⟨message, hexit⟩⟩
    · exact .inl hfew
  · rintro (hfew | ⟨code, hstop⟩)
    · refine ⟨fun i hi => ?_, fun hmany => absurd hmany hfew.not_gt⟩
      have hlt := lt_of_mem_storedAt hi
      omega
    · refine ⟨fun i hi => ?_, fun _ headers hheaders =>
        ⟨code, (readHeaders_exit_iff hheaders).mpr hstop⟩⟩
      by_contra hout
      have hnone := storeReads_outside hi (hlen.trans_le (Nat.le_of_not_lt hout))
      rw [(storeReads_error_iff hlen).mpr hstop] at hnone
      cases hnone

/-- The eleventh line is stored behind the last element. -/
theorem not_storesInside_eleven :
    ¬ StoresInside ((List.replicate 11 (ascii "Size: 1\n")).flatten ++ [lf]) := by
  rintro ⟨hinside, -⟩
  exact absurd (hinside 10 (by decide +kernel)) (by decide)

end Client
end GroovyServ

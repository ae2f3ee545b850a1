import GroovyServ.StreamInterleaving

/-!
# What the client reports when the connection ends

The client takes a header block of size zero for a normal exit, and its reader of
header blocks gives size zero wherever the connection ends, also in the middle of a
block. Success is reported for a complete block with `Status: 0` only, as long as
the blocks that the client comes to are complete.
-/

namespace GroovyServ

open Client Lines

namespace CLib

theorem strtok_eq_some {delims mem token rest : Bytes}
    (h : strtok delims mem = .ok (some (token, rest))) : ∃ lead d after,
      mem = lead ++ (token ++ d :: after) ∧ (∀ c ∈ lead, c ∈ delims) ∧ token ≠ [] ∧
      (∀ c ∈ token, c ≠ 0 ∧ c ∉ delims) ∧ (d = 0 ∨ d ∈ delims) ∧
      rest = if d = 0 then 0 :: after else after := by
  unfold strtok at h
  split at h
  · cases h
  · rename_i c start hdrop
    dsimp only at h
    by_cases hc : c = 0
    · rw [if_pos hc] at h
      cases h
    rw [if_neg hc] at h
    split at h
    · cases h
    · rename_i d after hrest
      cases h
      have hsplit := List.takeWhile_append_dropWhile (p := fun e => decide (e ∈ delims)) (l := mem)
      have htoken := List.takeWhile_append_dropWhile
        (p := fun e => decide (e ≠ 0 ∧ e ∉ delims)) (l := c :: start)
      have hafter : (c :: start).dropWhile (fun e => decide (e ≠ 0 ∧ e ∉ delims)) = d :: after := by
        have hdropped := congrArg (List.drop ((c :: start).takeWhile
          (fun e => decide (e ≠ 0 ∧ e ∉ delims))).length) htoken
        rw [List.drop_left] at hdropped
        exact hdropped.trans hrest
      have hstart := List.head?_dropWhile_not (fun e => decide (e ∈ delims)) mem
      rw [hdrop] at hstart
      refine ⟨mem.takeWhile (fun e => decide (e ∈ delims)), d, after, ?_, fun e he => ?_, ?_,
        fun e he => ?_, ?_, rfl⟩
      · rw [← hafter, htoken, ← hdrop]
        exact hsplit.symm
      · simpa using List.mem_takeWhile_imp he
      · rw [List.takeWhile_cons_of_pos (by simpa [hc] using hstart)]
        exact List.cons_ne_nil _ _
      · simpa using List.mem_takeWhile_imp he
      · have hd := List.head?_dropWhile_not (fun e => decide (e ≠ 0 ∧ e ∉ delims)) (c :: start)
        rw [hafter] at hd
        simpa [or_iff_not_imp_left] using hd

theorem strtok_error {delims mem : Bytes} {e : Halt} (h : strtok delims mem = .error e) :
    e = .undefined := by
  unfold strtok at h
  split at h
  · cases h
    rfl
  · dsimp only at h
    split_ifs at h
    split at h
    · cases h
      rfl
    · cases h

theorem strcmpZero_eq_true {mem s : Bytes} (h : strcmpZero mem s = true) :
    ∃ mem', mem = s ++ 0 :: mem' := by
  induction s generalizing mem with
  | nil =>
    cases mem with
    | nil => cases h
    | cons c mem => exact ⟨mem, by rw [of_decide_eq_true h, List.nil_append]⟩
  | cons d s ih =>
    cases mem with
    | nil => cases h
    | cons c mem =>
      obtain ⟨hc, hmem⟩ := Bool.and_eq_true_iff.mp h
      obtain ⟨mem', rfl⟩ := ih hmem
      exact ⟨mem', by rw [of_decide_eq_true hc, List.cons_append]⟩

theorem prefix_of_append_zeros {stored front back : Bytes} {n : ℕ} (hfront : (0 : UInt8) ∉ front)
    (h : stored ++ List.replicate n 0 = front ++ back) :
    ∃ after, stored = front ++ after ∧ back = after ++ List.replicate n 0 := by
  rcases List.append_eq_append_iff.mp h with ⟨zeros, hfront', hzeros⟩ | ⟨after, hstored, hback⟩
  · have hnil : zeros = [] := by
      rw [List.eq_nil_iff_forall_not_mem]
      intro c hc
      have hzero : c = 0 := List.eq_of_mem_replicate (hzeros ▸ List.mem_append_left _ hc)
      exact hfront (hfront' ▸ List.mem_append_right _ (hzero ▸ hc))
    subst hnil
    exact ⟨[], by simpa using hfront'.symm, by simpa using hzeros.symm⟩
  · exact ⟨after, hstored, hback⟩

end CLib

namespace Client

open CLib

/-- What one call of `read_line` takes: a line with its line feed, or as much of it
as the buffer holds. -/
def IsLine (line : Bytes) : Prop :=
  (∃ text, lf ∉ text ∧ text.length < bufferSize ∧ line = text ++ [lf]) ∨
    (lf ∉ line ∧ line.length = bufferSize)

/-- The bytes start with a header block: lines, none of them empty, and an empty one. -/
structure HeaderBlock (bytes : Bytes) (lines : List Bytes) (rest : Bytes) : Prop where
  isLine : ∀ line ∈ lines, IsLine line ∧ line ≠ [lf] ∧ line ≠ [cr, lf]
  eq : ∃ blank, (blank = [lf] ∨ blank = [cr, lf]) ∧ bytes = lines.flatten ++ (blank ++ rest)

def lineBuffer (line : Bytes) : Bytes := line ++ List.replicate (bufferSize - line.length) 0

theorem readLineLoop_full (text : Bytes) (hlf : lf ∉ text) (rest : Bytes) :
    readLineLoop text.length (text ++ rest) = (text, rest) := by
  induction text with
  | nil => rfl
  | cons c text ih =>
    rw [List.mem_cons, not_or] at hlf
    rw [List.length_cons, List.cons_append, readLineLoop, if_neg (Ne.symm hlf.1), ih hlf.2]

theorem readLine_isLine {line : Bytes} (hline : IsLine line) (rest : Bytes) :
    readLine (line ++ rest) = (lineBuffer line, rest) := by
  rcases hline with ⟨text, hlf, hlen, rfl⟩ | ⟨hlf, hlen⟩
  · have h := readLine_line text hlf hlen rest
    rw [List.append_assoc, List.singleton_append, h, lineBuffer, List.length_append,
      List.length_singleton, List.append_assoc, List.singleton_append, Nat.sub_sub]
  · rw [readLine, ← hlen, readLineLoop_full line hlf rest, lineBuffer, hlen, Nat.sub_self,
      List.replicate_zero, List.append_nil]

theorem IsLine.ne_nil {line : Bytes} (hline : IsLine line) : line ≠ [] := by
  rcases hline with ⟨text, -, -, rfl⟩ | ⟨-, hlen⟩
  · simp
  · rintro rfl
    cases hlen

theorem head?_lineBuffer {line : Bytes} (hne : line ≠ []) :
    (lineBuffer line).head? = line.head? := by
  rw [lineBuffer, List.head?_append_of_ne_nil _ hne]

theorem not_blank_lineBuffer {line : Bytes} (hline : IsLine line) (hlf : line ≠ [lf])
    (hcrlf : line ≠ [cr, lf]) :
    (if (lineBuffer line).head? = some cr then (lineBuffer line).tail
      else lineBuffer line).head? ≠ some lf := by
  have hne := hline.ne_nil
  have hhead : line.head? ≠ some lf := by
    rcases hline with ⟨text, hmem, -, rfl⟩ | ⟨hmem, -⟩
    · cases text with
      | nil => exact absurd rfl hlf
      | cons c text => simpa using fun h : c = lf => hmem (h ▸ List.mem_cons_self)
    · exact fun h => hmem (List.mem_of_mem_head? h)
  rw [head?_lineBuffer hne]
  split_ifs with hcr
  · -- behind a carriage return the line feed of a line is its end
    obtain ⟨line', rfl⟩ : ∃ line', line = cr :: line' := List.head?_eq_some_iff.mp hcr
    rcases hline with ⟨text, hmem, -, htext⟩ | ⟨hmem, hlen⟩
    · cases text with
      | nil => cases htext
      | cons c text =>
        obtain ⟨rfl, rfl⟩ := List.cons.inj htext
        cases text with
        | nil => exact absurd rfl hcrlf
        | cons d text =>
          simpa [lineBuffer] using fun h : d = lf =>
            hmem (h ▸ List.mem_cons_of_mem _ List.mem_cons_self)
    · cases line' with
      | nil => cases hlen
      | cons d line' =>
        simpa [lineBuffer] using fun h : d = lf =>
          hmem (h ▸ List.mem_cons_of_mem _ List.mem_cons_self)
  · rwa [head?_lineBuffer hne]

theorem readHeader_ok {buf : Bytes} {header result : Option Header}
    (h : readHeader buf header = .ok result) :
    ∃ key rest, strtok (ascii " :") buf = .ok (some (key, rest)) ∧
      key.length ≤ maxHeaderKeyLen ∧
      ((checkKey key key = .ok false ∧ result = header) ∨
        (checkKey key key = .ok true ∧ ∃ h p after, header = some h ∧
          strtok [lf] rest = .ok (some (p, after)) ∧
          result = some ((h.setKey key).setValue (p.dropWhile isspace)))) := by
  obtain ⟨token, htoken, h⟩ := bind_eq_ok.mp h
  cases token with
  | none => cases h
  | some kr =>
    obtain ⟨key, rest⟩ := kr
    dsimp only at h
    split_ifs at h with hlong
    obtain ⟨stored, hcheck, h⟩ := bind_eq_ok.mp h
    refine ⟨key, rest, htoken, by omega, ?_⟩
    cases stored with
    | false =>
      cases h
      exact .inl ⟨hcheck, rfl⟩
    | true =>
      cases header with
      | none => cases h
      | some header =>
        obtain ⟨value, hvalue, h⟩ := bind_eq_ok.mp h
        cases value with
        | none => cases h
        | some pr =>
          dsimp only at h
          split_ifs at h
          cases h
          exact .inr ⟨hcheck, header, pr.1, pr.2, rfl, hvalue, rfl⟩

theorem isSome_readHeader {buf : Bytes} {header result : Option Header}
    (h : readHeader buf header = .ok result) : result.isSome = header.isSome := by
  obtain ⟨key, rest, -, -, ⟨-, rfl⟩ | ⟨-, header', p, after, rfl, -, rfl⟩⟩ := readHeader_ok h
  · rfl
  · rfl

theorem readHeadersLoop_isLine {line : Bytes} (hline : IsLine line) (hlf : line ≠ [lf])
    (hcrlf : line ≠ [cr, lf]) (hnul : line.head? ≠ some 0) (fuel pos : ℕ) (headers : List Header)
    (rest : Bytes) :
    readHeadersLoop (fuel + 1) pos headers (line ++ rest) =
      (readHeader (lineBuffer line) headers[pos]?) >>= fun header =>
        if maxHeader < pos then .error (.exit 1 (ascii "ERROR: too many headers\n"))
        else
          readHeadersLoop fuel (pos + 1)
            (match header with
              | some header => headers.set pos header
              | none => headers) rest := by
  have hblank := not_blank_lineBuffer hline hlf hcrlf
  have hhead : (lineBuffer line).head? ≠ some 0 := by rwa [head?_lineBuffer hline.ne_nil]
  rw [readHeadersLoop, readLine_isLine hline]
  exact (if_neg hhead).trans (if_neg hblank)

theorem readHeadersLoop_blank {blank : Bytes} (hblank : blank = [lf] ∨ blank = [cr, lf])
    (fuel pos : ℕ) (headers : List Header) (rest : Bytes) :
    readHeadersLoop (fuel + 1) pos headers (blank ++ rest) = .ok (pos, headers, rest) := by
  have hline : IsLine blank := by
    rcases hblank with rfl | rfl
    · exact .inl ⟨[], by decide, by decide, rfl⟩
    · exact .inl ⟨[cr], by decide, by decide, rfl⟩
  rw [readHeadersLoop, readLine_isLine hline]
  rcases hblank with rfl | rfl <;> rfl

theorem getElem?_stored (headers : List Header) {pos : ℕ} {header : Option Header}
    (hsome : header.isSome = headers[pos]?.isSome) :
    let headers' := match header with
      | some header => headers.set pos header
      | none => headers
    headers'[pos]? = header ∧ headers'.length = headers.length ∧
      ∀ i, i ≠ pos → headers'[i]? = headers[i]? := by
  cases header with
  | none =>
    refine ⟨?_, rfl, fun _ _ => rfl⟩
    simpa using hsome
  | some header =>
    have hpos : pos < headers.length := by simpa using hsome
    exact ⟨List.getElem?_set_self hpos, List.length_set, fun i hi => List.getElem?_set_ne hi.symm⟩

/-- The array behind a block: each line has been read into its element. -/
structure ReadInto (headers headers' : List Header) (pos : ℕ) (lines : List Bytes) : Prop where
  header : ∀ i line, lines[i]? = some line →
    readHeader (lineBuffer line) headers[pos + i]? = .ok headers'[pos + i]?
  length : headers'.length = headers.length
  before : ∀ i < pos, headers'[i]? = headers[i]?

theorem readHeadersLoop_lines {lines : List Bytes}
    (hlines : ∀ line ∈ lines, IsLine line ∧ line ≠ [lf] ∧ line ≠ [cr, lf])
    (hnul : ∀ line ∈ lines, line.head? ≠ some 0) {blank : Bytes}
    (hblank : blank = [lf] ∨ blank = [cr, lf]) (fuel pos : ℕ) (headers : List Header)
    (rest : Bytes) {size : ℕ} {headers' : List Header} {rest' : Bytes}
    (h : readHeadersLoop fuel pos headers (lines.flatten ++ (blank ++ rest)) =
      .ok (size, headers', rest')) :
    size = pos + lines.length ∧ rest' = rest ∧ ReadInto headers headers' pos lines := by
  induction lines generalizing fuel pos headers with
  | nil =>
    cases fuel with
    | zero => cases h
    | succ fuel =>
      rw [List.flatten_nil, List.nil_append, readHeadersLoop_blank hblank] at h
      cases h
      exact ⟨rfl, rfl, fun i line hi => by simp at hi, rfl, fun i _ => rfl⟩
  | cons line lines ih =>
    obtain ⟨⟨hline, hlf, hcrlf⟩, hlines⟩ := List.forall_mem_cons.mp hlines
    obtain ⟨hnul₀, hnul⟩ := List.forall_mem_cons.mp hnul
    cases fuel with
    | zero => cases h
    | succ fuel =>
      rw [List.flatten_cons, List.append_assoc,
        readHeadersLoop_isLine hline hlf hcrlf hnul₀] at h
      obtain ⟨header, hheader, h⟩ := bind_eq_ok.mp h
      split_ifs at h
      obtain ⟨rfl, rfl, hinto⟩ := ih hlines hnul _ _ _ h
      have hset := getElem?_stored headers (isSome_readHeader hheader)
      refine ⟨by rw [List.length_cons]; omega, rfl, fun i line' hi => ?_, ?_, fun i hi => ?_⟩
      · cases i with
        | zero =>
          obtain rfl : line = line' := by simpa using hi
          rw [Nat.add_zero, hinto.before pos (Nat.lt_succ_self pos), hset.1, hheader]
        | succ i =>
          have hnext := hinto.header i line' (by simpa using hi)
          have hindex : pos + 1 + i = pos + (i + 1) := by omega
          rwa [hindex, hset.2.2 _ (by omega)] at hnext
      · rw [hinto.length, hset.2.1]
      · rw [hinto.before i (by omega), hset.2.2 i (by omega)]

/-- A white space in the key: the element of the array is left as it is. -/
def Skipped (line : Bytes) : Prop :=
  ∃ key rest, strtok (ascii " :") (lineBuffer line) = .ok (some (key, rest)) ∧
    checkKey key key = .ok false

/-- A `CANCEL` in the key: the client exits with status 0. -/
def Cancels (line : Bytes) : Prop :=
  ∃ key rest, strtok (ascii " :") (lineBuffer line) = .ok (some (key, rest)) ∧
    checkKey key key = .error (.exit 0 [])

theorem checkKey_exit_zero {p key message : Bytes} (h : checkKey p key = .error (.exit 0 message)) :
    message = [] := by
  induction key with
  | nil => cases h
  | cons c key ih =>
    unfold checkKey at h
    split_ifs at h
    · cases h
      rfl
    · exact ih h
    · cases h

theorem readHeader_exit_zero {line message : Bytes} {header : Option Header}
    (h : readHeader (lineBuffer line) header = .error (.exit 0 message)) : Cancels line := by
  rcases bind_eq_error.mp h with htoken | ⟨token, htoken, h⟩
  · cases strtok_error htoken
  cases token with
  | none => cases h
  | some kr =>
    obtain ⟨key, rest⟩ := kr
    dsimp only at h
    by_cases hlong : maxHeaderKeyLen < key.length
    · rw [if_pos hlong] at h
      cases h
    rw [if_neg hlong] at h
    rcases bind_eq_error.mp h with hcheck | ⟨stored, -, h⟩
    · obtain rfl := checkKey_exit_zero hcheck
      exact ⟨key, rest, htoken, hcheck⟩
    cases stored with
    | false => cases h
    | true =>
      cases header with
      | none => cases h
      | some header =>
        rcases bind_eq_error.mp h with hvalue | ⟨value, -, h⟩
        · cases strtok_error hvalue
        cases value with
        | none => cases h
        | some pr =>
          dsimp only at h
          split_ifs at h
          cases h

/-- The client exits with status 0 within a complete block for a `CANCEL` only. -/
theorem readHeadersLoop_exit_zero {lines : List Bytes}
    (hlines : ∀ line ∈ lines, IsLine line ∧ line ≠ [lf] ∧ line ≠ [cr, lf])
    (hnul : ∀ line ∈ lines, line.head? ≠ some 0) {blank : Bytes}
    (hblank : blank = [lf] ∨ blank = [cr, lf]) (fuel pos : ℕ) (headers : List Header)
    (rest : Bytes) {message : Bytes}
    (h : readHeadersLoop fuel pos headers (lines.flatten ++ (blank ++ rest)) =
      .error (.exit 0 message)) : ∃ line ∈ lines, Cancels line := by
  induction lines generalizing fuel pos headers with
  | nil =>
    cases fuel with
    | zero => cases h
    | succ fuel =>
      rw [List.flatten_nil, List.nil_append, readHeadersLoop_blank hblank] at h
      cases h
  | cons line lines ih =>
    obtain ⟨⟨hline, hlf, hcrlf⟩, hlines⟩ := List.forall_mem_cons.mp hlines
    obtain ⟨hnul₀, hnul⟩ := List.forall_mem_cons.mp hnul
    cases fuel with
    | zero => cases h
    | succ fuel =>
      rw [List.flatten_cons, List.append_assoc,
        readHeadersLoop_isLine hline hlf hcrlf hnul₀] at h
      rcases bind_eq_error.mp h with hheader | ⟨header, -, h⟩
      · exact ⟨line, List.mem_cons_self, readHeader_exit_zero hheader⟩
      · by_cases hmany : maxHeader < pos
        · rw [if_pos hmany] at h
          cases h
        · rw [if_neg hmany] at h
          obtain ⟨line', hmem, hcancels⟩ := ih hlines hnul _ _ _ h
          exact ⟨line', List.mem_cons_of_mem _ hmem, hcancels⟩

/-- The line gives `Status` the value, in the way in which the client takes it apart. -/
def StatusValue (line value : Bytes) : Prop :=
  ∃ lead d blanks after,
    line = lead ++ (headerKeyStatus ++ d :: (blanks ++ (value ++ after))) ∧
    (∀ c ∈ lead, c ∈ ascii " :") ∧ d ∈ ascii " :" ∧ (∀ c ∈ blanks, isspace c = true) ∧
    (∀ c ∈ value, c ≠ 0 ∧ c ≠ lf) ∧ (∀ c ∈ value.head?, isspace c = false) ∧
    ∀ c ∈ after.head?, c = 0 ∨ c = lf

theorem key_eq_of_strcmpZero {header : Header} {key name : Bytes} (hnul : (0 : UInt8) ∉ key)
    (hlen : key.length ≤ maxHeaderKeyLen) (hname : (0 : UInt8) ∉ name)
    (hshort : name.length < maxHeaderKeyLen)
    (h : strcmpZero (header.setKey key).key name = true) : key = name := by
  change strcmpZero (strncpy header.key key maxHeaderKeyLen) name = true at h
  rcases Nat.lt_or_ge key.length maxHeaderKeyLen with hlt | hge
  · obtain ⟨mem, hmem⟩ := strncpy_of_lt header.key key hlt
    rw [hmem, strcmpZero_append hnul hname] at h
    exact of_decide_eq_true h
  · -- a key that fills the element would have the end of the name inside
    obtain ⟨mem, hmem⟩ := strcmpZero_eq_true h
    have hstored : name ++ [0] <+: strncpy header.key key maxHeaderKeyLen :=
      ⟨mem, by rw [hmem, List.append_assoc, List.singleton_append]⟩
    have hkey : key <+: strncpy header.key key maxHeaderKeyLen := by
      rw [strncpy, List.take_of_length_le hlen]
      exact List.prefix_append _ _
    have hle : (name ++ [0]).length ≤ key.length := by
      rw [List.length_append]
      exact hge.trans' hshort
    have hwhole := List.prefix_of_prefix_length_le hstored hkey hle
    exact absurd (hwhole.subset (List.mem_append_right _ (List.mem_singleton_self 0))) hnul

theorem statusValue_of_readHeader {line : Bytes} {header : Option Header} {stored : Header}
    (h : readHeader (lineBuffer line) header = .ok (some stored))
    (hkey : strcmpZero stored.key headerKeyStatus = true) :
    (Skipped line ∧ header = some stored) ∨ ∃ value mem, StatusValue line value ∧
      stored.value = strncpy mem value maxHeaderValueLen := by
  obtain ⟨key, rest, htoken, hlen, ⟨hskip, hsame⟩ |
    ⟨hcheck, old, p, after, rfl, hvalue, hstored⟩⟩ := readHeader_ok h
  · exact .inl ⟨⟨key, rest, htoken, hskip⟩, hsame.symm⟩
  right
  obtain rfl := Option.some.inj hstored
  obtain ⟨lead, d, behind, hline, hlead, -, hplain, hd, rfl⟩ := strtok_eq_some htoken
  obtain rfl := key_eq_of_strcmpZero (fun h0 => (hplain 0 h0).1 rfl) hlen (by decide) (by decide)
    hkey
  obtain ⟨lead', d', behind', hrest, hlead', hne, hplain', hd', -⟩ := strtok_eq_some hvalue
  have hnul' : (0 : UInt8) ∉ lead' ++ p := by
    rw [List.mem_append, not_or]
    exact ⟨fun h0 => absurd (hlead' 0 h0) (by decide), fun h0 => (hplain' 0 h0).1 rfl⟩
  have hd0 : d ≠ 0 := by
    rintro rfl
    obtain ⟨c, text, htext⟩ :=
      List.exists_cons_of_ne_nil (List.append_ne_nil_of_right_ne_nil lead' hne)
    rw [if_pos rfl, ← List.append_assoc, htext] at hrest
    obtain rfl : (0 : UInt8) = c := (List.cons.inj hrest).1
    exact hnul' (htext ▸ List.mem_cons_self)
  have hdelim : d ∈ ascii " :" := hd.resolve_left hd0
  rw [if_neg hd0] at hrest
  -- both tokens lie within the line, before the zeros of the buffer
  have hfront : (0 : UInt8) ∉ lead ++ (headerKeyStatus ++ [d]) := by
    simp only [List.mem_append, List.mem_singleton, not_or]
    exact ⟨fun h0 => absurd (hlead 0 h0) (by decide), by decide, hd0.symm⟩
  obtain ⟨text, htext, hbehind⟩ := prefix_of_append_zeros hfront
    (hline.trans (by simp) : line ++ List.replicate _ 0 = _ ++ behind)
  obtain ⟨after', hafter, hzeros⟩ := prefix_of_append_zeros hnul'
    (hbehind.symm.trans (hrest.trans (List.append_assoc _ _ _).symm))
  refine ⟨p.dropWhile isspace, old.value, ⟨lead, d, lead' ++ p.takeWhile isspace, after', ?_,
    hlead, hdelim, ?_, fun c hc => ?_, ?_, ?_⟩, rfl⟩
  · rw [htext, hafter]
    conv_lhs => rw [← List.takeWhile_append_dropWhile (p := isspace) (l := p)]
    simp only [List.append_assoc, List.singleton_append]
  · intro c hc
    rcases List.mem_append.mp hc with hc | hc
    · obtain rfl : c = lf := by simpa using hlead' c hc
      rfl
    · exact List.mem_takeWhile_imp hc
  · have hmem := hplain' c ((List.dropWhile_suffix _).subset hc)
    simpa using hmem
  · intro c hc
    have hhead := List.head?_dropWhile_not isspace p
    rw [Option.mem_def.mp hc] at hhead
    exact hhead
  · intro c hc
    obtain ⟨after'', rfl⟩ := List.head?_eq_some_iff.mp hc
    obtain rfl : d' = c := (List.cons.inj hzeros).1
    simpa using hd'

theorem findHeaderLoop_error {headers : List Header} {key : Bytes} {n i : ℕ} {e : Halt}
    (h : findHeaderLoop headers key n i = .error e) : e = .undefined := by
  induction n generalizing i with
  | zero => cases h
  | succ n ih =>
    rw [findHeaderLoop] at h
    split at h
    · cases h
      rfl
    · split_ifs at h
      exact ih h

theorem findHeaderLoop_some {headers : List Header} {key : Bytes} {n i : ℕ} {value : Bytes}
    (h : findHeaderLoop headers key n i = .ok (some value)) :
    ∃ j < n, ∃ header, headers[i + j]? = some header ∧ strcmpZero header.key key = true ∧
      header.value = value := by
  induction n generalizing i with
  | zero => cases h
  | succ n ih =>
    rw [findHeaderLoop] at h
    split at h
    · cases h
    · rename_i header hheader
      split_ifs at h with hkey
      · cases h
        exact ⟨0, Nat.succ_pos n, header, hheader, hkey, rfl⟩
      · obtain ⟨j, hj, header', hheader', hrest⟩ := ih h
        refine ⟨j + 1, Nat.succ_lt_succ hj, header', ?_, hrest⟩
        rwa [Nat.add_comm j, ← Nat.add_assoc]

/-- A line that is skipped brings up no old `Status` from the array. -/
def NoStaleStatus (headers : List Header) (lines : List Bytes) : Prop :=
  ∀ (i : ℕ) (line : Bytes) (header : Header), lines[i]? = some line → Skipped line →
    headers[i]? = some header → strcmpZero header.key headerKeyStatus = false

/-- The client comes to a complete header block, with at least one line: the lines do
not start with NUL and have no `CANCEL` in their keys, and a status is a numeral. -/
def CompleteBlock (headers : List Header) (bytes : Bytes) : Prop :=
  ∃ lines rest, HeaderBlock bytes lines rest ∧ lines ≠ [] ∧
    (∀ line ∈ lines, line.head? ≠ some 0 ∧ ¬ Cancels line ∧
      ∀ value, StatusValue line value → ∃ z : JInt, value = decimalInt z) ∧
    NoStaleStatus headers lines

/-- The bytes start with a complete header block that has the status 0. -/
def ReceivedStatusZero (bytes : Bytes) : Prop :=
  ∃ lines rest, HeaderBlock bytes lines rest ∧ ∃ line ∈ lines, StatusValue line (ascii "0")

def Session.ReportsSuccess (s : Session) : Prop :=
  s.ended = some (.returned 0) ∨ ∃ message, s.ended = some (.halted (.exit 0 message))

theorem reportsSuccess_halt {s : Session} {h : Halt} (hsuccess : (s.halt h).ReportsSuccess) :
    ∃ message, h = .exit 0 message := by
  unfold Session.halt at hsuccess
  split at hsuccess
  · rcases hsuccess with h | ⟨message, h⟩
    · cases h
    · cases h
      exact ⟨_, rfl⟩
  · rename_i hne
    rcases hsuccess with h | ⟨message, h⟩
    · cases h
    · cases h
      exact ⟨_, rfl⟩

theorem ended_emit (s : Session) (channel : Channel) (data : Bytes) :
    (s.emit channel data).ended = s.ended := by
  cases channel <;> rfl

theorem ended_receiveLoop (sys : System) (channel : Channel) (fuel remained : ℕ) (s : Session) :
    (receiveLoop sys channel fuel remained s).ended = s.ended := by
  induction fuel generalizing remained s with
  | zero => rfl
  | succ fuel ih =>
    rw [receiveLoop]
    dsimp only
    split_ifs
    · rfl
    · rw [ih, ended_emit]

theorem not_reportsSuccess_of_none {s : Session} (h : s.ended = none) : ¬ s.ReportsSuccess := by
  rintro (h' | ⟨message, h'⟩) <;> rw [h] at h' <;> cases h'

theorem not_reportsSuccess_receiveFromServer (sys : System) (channel : Bytes) (size : ℤ)
    {s : Session} (h : s.ended = none) :
    ¬ (receiveFromServer sys channel size s).ReportsSuccess := by
  unfold receiveFromServer
  split_ifs
  · exact not_reportsSuccess_of_none ((ended_receiveLoop sys .out _ _ s).trans h)
  · exact not_reportsSuccess_of_none ((ended_receiveLoop sys .err _ _ s).trans h)
  · intro hsuccess
    obtain ⟨message, hhalt⟩ := reportsSuccess_halt hsuccess
    cases hhalt

theorem not_reportsSuccess_dispatch (sys : System) (headers : List Header) (size : ℕ)
    {s : Session} (hended : s.ended = none) :
    ¬ Session.ReportsSuccess (match findHeader headers headerKeyChannel size with
      | .error h => s.halt h
      | .ok none => s.refuse (ascii "ERROR: required header Channel not found\n")
      | .ok (some sid) =>
        match findHeader headers headerKeySize size with
        | .error h => s.halt h
        | .ok none => s.refuse (ascii "ERROR: required header Size not found\n")
        | .ok (some chunkSize) => receiveFromServer sys sid (atoi chunkSize) s) := by
  have hrefuse : ∀ message, ¬ (s.refuse message).ReportsSuccess := by
    rintro message (h | ⟨message', h⟩) <;> cases h
  have herror : ∀ {key e}, findHeader headers key size = .error e →
      ¬ (s.halt e).ReportsSuccess := by
    intro key e h hsuccess
    obtain ⟨message, rfl⟩ := reportsSuccess_halt hsuccess
    cases findHeaderLoop_error h
  split
  · rename_i h hchannel
    exact herror hchannel
  · exact hrefuse _
  · split
    · rename_i h hsize
      exact herror hsize
    · exact hrefuse _
    · exact not_reportsSuccess_receiveFromServer sys _ _ hended

theorem statusValue_of_findHeader {headers headers' : List Header} {lines : List Bytes}
    (hinto : ReadInto headers headers' 0 lines)
    (hstale : NoStaleStatus headers lines) {status : Bytes}
    (h : findHeader headers' headerKeyStatus lines.length = .ok (some status)) :
    ∃ line ∈ lines, ∃ value mem, StatusValue line value ∧
      status = strncpy mem value maxHeaderValueLen := by
  obtain ⟨j, hj, stored, hstored, hkey, rfl⟩ := findHeaderLoop_some h
  have hline : lines[j]? = some lines[j] := List.getElem?_eq_getElem hj
  have hread := hinto.header j lines[j] hline
  rw [hstored, Nat.zero_add] at hread
  rcases statusValue_of_readHeader hread hkey with ⟨hskipped, hold⟩ | ⟨value, mem, hvalue, hmem⟩
  · rw [hstale j lines[j] stored hline hskipped hold] at hkey
    cases hkey
  · exact ⟨lines[j], List.getElem_mem hj, value, mem, hvalue, hmem⟩

theorem receivedStatusZero_of_success (sys : System) {s : Session} (hended : s.ended = none)
    (hblock : CompleteBlock s.headers s.socket) (h : (receiveResponse sys s).ReportsSuccess) :
    ReceivedStatusZero s.socket := by
  obtain ⟨lines, rest, hsplit, hne, hlines, hstale⟩ := hblock
  obtain ⟨blank, hblank, hbytes⟩ := hsplit.eq
  have hnul : ∀ line ∈ lines, line.head? ≠ some 0 := fun line hline => (hlines line hline).1
  unfold receiveResponse at h
  cases hread : readHeaders s.headers s.socket with
  | error e =>
    rw [hread] at h
    obtain ⟨message, rfl⟩ := reportsSuccess_halt h
    rw [readHeaders, hbytes] at hread
    obtain ⟨line, hmem, hcancels⟩ :=
      readHeadersLoop_exit_zero hsplit.isLine hnul hblank _ _ _ _ hread
    exact absurd hcancels (hlines line hmem).2.1
  | ok r =>
    obtain ⟨size, headers', rest'⟩ := r
    rw [hread] at h
    rw [readHeaders, hbytes] at hread
    obtain ⟨rfl, -, hinto⟩ := readHeadersLoop_lines hsplit.isLine hnul hblank _ _ _ _ hread
    rw [Nat.zero_add] at h
    dsimp only at h
    rw [if_neg (List.length_pos_of_ne_nil hne).ne'] at h
    cases hstatus : findHeader headers' headerKeyStatus lines.length with
    | error e =>
      rw [hstatus] at h
      obtain ⟨message, rfl⟩ := reportsSuccess_halt h
      cases findHeaderLoop_error hstatus
    | ok found =>
      rw [hstatus] at h
      cases found with
      | some status =>
        obtain ⟨line, hmem, value, mem, hvalue, rfl⟩ :=
          statusValue_of_findHeader hinto hstale hstatus
        obtain ⟨z, rfl⟩ := (hlines line hmem).2.2 value hvalue
        obtain ⟨mem', hmem'⟩ := strncpy_of_lt mem (decimalInt z)
          ((length_decimalInt_le z).trans_lt (by decide : 11 < maxHeaderValueLen))
        dsimp only at h
        rw [hmem', atoi_decimalInt z z.property.1 z.property.2 (by decide)] at h
        have hz : z.val = 0 := by
          rcases h with h | ⟨message, h⟩
          · simpa [Session.finish] using h
          · cases h
        refine ⟨lines, rest, hsplit, line, hmem, ?_⟩
        rwa [hz] at hvalue
      | none =>
        exact absurd h (not_reportsSuccess_dispatch sys headers' lines.length hended)

def ReadsResponse (sys : System) (s : Session) : Prop :=
  s.ended = none ∧ ∃ stdin, sys.select s.selects = .ready stdin true ∧
    ¬ (s.stdinClosed = false ∧ stdin = true)

theorem readsResponse_of_success (sys : System) {s : Session} (hended : s.ended = none)
    (h : (sessionStep sys s).ReportsSuccess) :
    ReadsResponse sys s ∧
      sessionStep sys s = receiveResponse sys { s with selects := s.selects + 1 } := by
  have hrun : ¬ s.ended.isSome = true := by simp [hended]
  have hnone : ∀ s' : Session, s'.ended = s.ended → ¬ s'.ReportsSuccess := fun s' hs' =>
    not_reportsSuccess_of_none (hs'.trans hended)
  have hexit : ∀ (s' : Session) (message : Bytes),
      ¬ (s'.halt (.exit 1 message)).ReportsSuccess := by
    intro s' message hsuccess
    obtain ⟨message', hhalt⟩ := reportsSuccess_halt hsuccess
    cases hhalt
  cases hselect : sys.select s.selects with
  | failed =>
    rw [sessionStep, if_neg hrun] at h
    simp only [hselect] at h
    exact absurd h (hexit _ _)
  | timeout =>
    rw [sessionStep, if_neg hrun] at h
    simp only [hselect] at h
    exact absurd h (hnone _ rfl)
  | ready stdin socket =>
    by_cases hstdin : s.stdinClosed = false ∧ stdin = true
    · obtain ⟨hclosed, rfl⟩ := hstdin
      rw [sessionStep_stdin sys s hended hclosed hselect] at h
      unfold sendToServer at h
      split at h
      · exact absurd h (hexit _ _)
      · exact absurd h (hnone _ rfl)
    · cases socket with
      | false =>
        rw [sessionStep_idle sys s hended hselect hstdin] at h
        exact absurd h (hnone _ rfl)
      | true =>
        exact ⟨⟨hended, stdin, hselect, hstdin⟩, sessionStep_socket sys s hended hselect hstdin⟩

/-- In every session in which each response that the client reads is a complete block,
success is reported for a block with the status 0 only. -/
theorem receivedStatusZero_of_run (sys : System) (headers : List Header) (socket stdin : Bytes)
    (n : ℕ)
    (hblocks : ∀ k < n, ReadsResponse sys (runSession sys k (startSession headers socket stdin)) →
      CompleteBlock (runSession sys k (startSession headers socket stdin)).headers
        (runSession sys k (startSession headers socket stdin)).socket)
    (hsuccess : (runSession sys n (startSession headers socket stdin)).ReportsSuccess) :
    ∃ k < n, ReadsResponse sys (runSession sys k (startSession headers socket stdin)) ∧
      ReceivedStatusZero (runSession sys k (startSession headers socket stdin)).socket := by
  induction n with
  | zero => exact absurd hsuccess (not_reportsSuccess_of_none rfl)
  | succ n ih =>
    cases hended : (runSession sys n (startSession headers socket stdin)).ended with
    | some e =>
      rw [runSession_of_le sys (Nat.le_succ n) (by rw [hended]; rfl)] at hsuccess
      obtain ⟨k, hk, hreads, hreceived⟩ :=
        ih (fun k hk => hblocks k (hk.trans (Nat.lt_succ_self n))) hsuccess
      exact ⟨k, hk.trans (Nat.lt_succ_self n), hreads, hreceived⟩
    | none =>
      rw [runSession, Function.iterate_succ_apply', ← runSession] at hsuccess
      obtain ⟨hreads, hstep⟩ := readsResponse_of_success sys hended hsuccess
      rw [hstep] at hsuccess
      exact ⟨n, Nat.lt_succ_self n, hreads, receivedStatusZero_of_success sys
        (s := { runSession sys n (startSession headers socket stdin) with
          selects := (runSession sys n (startSession headers socket stdin)).selects + 1 })
        hended (hblocks n (Nat.lt_succ_self n) hreads) hsuccess⟩

theorem isLine_field (f : Field) : IsLine (f.line ++ [lf]) := by
  refine .inl ⟨f.line, f.line_plain.1, ?_, rfl⟩
  have := f.fits
  rw [f.length_line]
  omega

theorem lineBuffer_field (f : Field) :
    ∃ zeros, lineBuffer (f.line ++ [lf]) = f.line ++ lf :: zeros :=
  ⟨_, by rw [lineBuffer, List.append_assoc, List.singleton_append]⟩

theorem not_skipped_field (f : Field) :
    ¬ Skipped (f.line ++ [lf]) ∧ ¬ Cancels (f.line ++ [lf]) := by
  obtain ⟨zeros, hbuffer⟩ := lineBuffer_field f
  have hcheck := checkKey_of_alnum f.key f.key_alnum
  constructor
  all_goals
    rintro ⟨key, rest, htoken, h⟩
    rw [hbuffer, f.strtok_key zeros] at htoken
    cases htoken
    rw [hcheck] at h
    cases h

theorem takeWhile_append_of_head {p : UInt8 → Bool} {text after : Bytes}
    (htext : ∀ c ∈ text, p c = true) (hafter : ∀ c ∈ after.head?, p c = false) :
    (text ++ after).takeWhile p = text := by
  rw [List.takeWhile_append_of_pos htext]
  cases after with
  | nil => exact List.append_nil _
  | cons c after => rw [List.takeWhile_cons_of_neg (by simp [hafter c rfl]), List.append_nil]

theorem statusValue_field {f : Field} {value : Bytes} (h : StatusValue (f.line ++ [lf]) value) :
    f.key = headerKeyStatus ∧ value = f.value := by
  obtain ⟨lead, d, blanks, after, heq, hlead, hd, hblanks, hplain, hhead, hafter⟩ := h
  rw [Field.line, List.append_assoc] at heq
  obtain rfl : lead = [] := by
    cases lead with
    | nil => rfl
    | cons c lead =>
      obtain ⟨k, key, hkey⟩ := List.exists_cons_of_ne_nil f.key_ne_nil
      rw [hkey] at heq
      obtain rfl : k = c := (List.cons.inj heq).1
      exact absurd (hlead k List.mem_cons_self)
        (f.key_delims k (hkey ▸ List.mem_cons_self)).2
  rw [List.nil_append] at heq
  have hdelim : ∀ {d : UInt8} {after : Bytes}, d ∈ ascii " :" →
      ∀ c ∈ (d :: after).head?, decide (c ∉ ascii " :") = false := by
    intro d after hd c hc
    obtain rfl : d = c := by simpa using hc
    simpa using hd
  have hkeys := congrArg (List.takeWhile fun c => decide (c ∉ ascii " :")) heq
  rw [List.cons_append, takeWhile_append_of_head
      (fun c hc => decide_eq_true (f.key_delims c hc).2) (hdelim (by decide)),
    takeWhile_append_of_head (by decide +kernel) (hdelim hd)] at hkeys
  refine ⟨hkeys, ?_⟩
  rw [hkeys] at heq
  have hrest : 32 :: (f.value ++ [lf]) = blanks ++ (value ++ after) :=
    (List.cons.inj (List.append_cancel_left heq)).2
  have hclass : isspace 32 = true := by decide
  cases blanks with
  | nil =>
    cases value with
    | nil => exact absurd (hafter 32 (by simpa using (congrArg List.head? hrest).symm)) (by decide)
    | cons c value =>
      obtain rfl : 32 = c := (List.cons.inj hrest).1
      exact absurd (hhead 32 rfl) (by simp [hclass])
  | cons b blanks =>
    replace hrest : f.value ++ [lf] = blanks ++ (value ++ after) := (List.cons.inj hrest).2
    cases blanks with
    | nil =>
      have hvalues := congrArg (List.takeWhile fun c => decide (c ≠ 0 ∧ c ≠ lf)) hrest
      rw [List.nil_append, takeWhile_append_of_head
          (fun c hc => decide_eq_true (f.value_plain c hc)) (by simp),
        takeWhile_append_of_head (fun c hc => decide_eq_true (hplain c hc))
          (fun c hc => by simpa [or_iff_not_imp_left] using hafter c hc)] at hvalues
      exact hvalues.symm
    | cons b' blanks =>
      obtain ⟨c, text, htext⟩ := List.exists_cons_of_ne_nil f.value_ne_nil
      have hc := f.value_head c (by rw [htext]; rfl)
      rw [htext] at hrest
      obtain rfl : c = b' := (List.cons.inj hrest).1
      rw [hblanks c (by simp)] at hc
      cases hc

theorem completeBlock_fields {fs : List Field} (hne : fs ≠ [])
    (hstatus : ∀ f ∈ fs, f.key = headerKeyStatus → ∃ z : JInt, f.value = decimalInt z)
    (headers : List Header) (rest : Bytes) :
    CompleteBlock headers (unlines lf (fs.map Field.line) ++ lf :: rest) := by
  have hfield : ∀ line ∈ fs.map fun f => f.line ++ [lf], ∃ f ∈ fs, line = f.line ++ [lf] := by
    intro line hline
    obtain ⟨f, hf, rfl⟩ := List.mem_map.mp hline
    exact ⟨f, hf, rfl⟩
  refine ⟨fs.map fun f => f.line ++ [lf], rest, ⟨fun line hline => ?_, [lf], .inl rfl, ?_⟩,
    by simpa using hne, fun line hline => ?_, fun i line header hline hskipped => ?_⟩
  · obtain ⟨f, -, rfl⟩ := hfield line hline
    obtain ⟨c, key, hkey⟩ := List.exists_cons_of_ne_nil f.key_ne_nil
    have hc : ∀ d ∈ [0, 10, 13, 24, 32, 58], c ≠ d := fun d hd h =>
      f.key_plain hd (by rw [hkey, h]; exact List.mem_cons_self)
    refine ⟨isLine_field f, ?_, ?_⟩
    · simp [Field.line, hkey]
    · simpa [Field.line, hkey] using fun h : c = cr => absurd h (hc 13 (by decide))
  · simp [unlines, List.flatMap]
    rfl
  · obtain ⟨f, hf, rfl⟩ := hfield line hline
    refine ⟨?_, (not_skipped_field f).2, fun value hvalue => ?_⟩
    · obtain ⟨c, key, hkey⟩ := List.exists_cons_of_ne_nil f.key_ne_nil
      have hc : c ≠ 0 := (f.key_delims c (by rw [hkey]; exact List.mem_cons_self)).1
      simpa [Field.line, hkey] using hc
    · obtain ⟨hkey, rfl⟩ := statusValue_field hvalue
      exact hstatus f hf hkey
  · obtain ⟨f, -, rfl⟩ := hfield line (List.mem_of_getElem? hline)
    exact absurd hskipped (not_skipped_field f).1

/-- Behind some header lines the end of the connection counts as a block of size zero. -/
theorem readHeadersLoop_cut (fs : List Field) (fuel pos : ℕ) (headers : List Header)
    (hfuel : fs.length < fuel) (hpos : pos + fs.length ≤ headers.length)
    (hmax : headers.length ≤ maxHeader) :
    ∃ headers', readHeadersLoop fuel pos headers (unlines lf (fs.map Field.line)) =
      .ok (0, headers', []) := by
  induction fs generalizing fuel pos headers with
  | nil =>
    obtain ⟨fuel, rfl⟩ : ∃ n, fuel = n + 1 := ⟨fuel - 1, by simp at hfuel; omega⟩
    have hempty : readLine [] = (List.replicate bufferSize 0, []) := by decide +kernel
    refine ⟨headers, ?_⟩
    rw [List.map_nil, unlines_nil, readHeadersLoop, hempty]
    rfl
  | cons f fs ih =>
    rw [List.length_cons] at hfuel hpos
    obtain ⟨fuel, rfl⟩ : ∃ n, fuel = n + 1 := ⟨fuel - 1, by omega⟩
    obtain ⟨h', -, hstep⟩ := readHeadersLoop_line f fuel pos headers (by omega) hmax
      (unlines lf (fs.map Field.line))
    obtain ⟨headers', hrun⟩ := ih fuel (pos + 1) (headers.set pos h') (by omega)
      (by rw [List.length_set]; omega) (by rw [List.length_set]; exact hmax)
    exact ⟨headers', by rw [List.map_cons, unlines_cons, hstep, hrun]⟩

/-- A response that is cut between its header lines is reported as a success. -/
theorem receiveResponse_cut (sys : System) (fs : List Field) (s : Session)
    (hheaders : s.headers.length = maxHeader) (hfs : fs.length ≤ maxHeader)
    (hsocket : s.socket = unlines lf (fs.map Field.line)) :
    (receiveResponse sys s).ended = some (.returned 0) := by
  have hfuel : fs.length < (unlines lf (fs.map Field.line)).length + 1 := by
    have := length_le_unlines fs
    omega
  obtain ⟨headers', hread⟩ := readHeadersLoop_cut fs _ 0 s.headers hfuel
    (by rw [hheaders]; omega) hheaders.le
  rw [receiveResponse, hsocket, readHeaders, hread]
  rfl

/-- A short text with one line feed holds no block with a line. -/
theorem two_le_count_lf {bytes rest : Bytes} {lines : List Bytes}
    (h : HeaderBlock bytes lines rest) (hne : lines ≠ []) (hlen : bytes.length < bufferSize) :
    2 ≤ bytes.count lf := by
  obtain ⟨blank, hblank, rfl⟩ := h.eq
  obtain ⟨line, lines', rfl⟩ := List.exists_cons_of_ne_nil hne
  have hline := (h.isLine line List.mem_cons_self).1
  simp only [List.flatten_cons, List.length_append] at hlen
  have hfirst : 1 ≤ line.count lf := by
    rcases hline with ⟨text, -, -, rfl⟩ | ⟨-, hfull⟩
    · simp
    · omega
  have hlast : 1 ≤ blank.count lf := by
    rcases hblank with rfl | rfl <;> decide
  simp only [List.flatten_cons, List.count_append]
  omega

def zeroStatus : Session :=
  startSession (List.replicate maxHeader blankHeader) (ascii "Status: 0\n\n") []

theorem receivedStatusZero_of_run_zero :
    ∃ k < 1, ReadsResponse Server.socketSystem (runSession Server.socketSystem k zeroStatus) ∧
      ReceivedStatusZero (runSession Server.socketSystem k zeroStatus).socket :=
  receivedStatusZero_of_run Server.socketSystem (List.replicate maxHeader blankHeader)
    (ascii "Status: 0\n\n") [] 1
    (fun k hk _ => by
      obtain rfl : k = 0 := by omega
      have hvalue : ∀ f ∈ [statusField ⟨0, by decide⟩], f.key = headerKeyStatus →
          ∃ z : JInt, f.value = decimalInt z := by
        intro f hf _
        rw [List.mem_singleton] at hf
        exact ⟨⟨0, by decide⟩, by rw [hf]; rfl⟩
      exact completeBlock_fields (List.cons_ne_nil _ _) hvalue
        (List.replicate maxHeader blankHeader) [])
    (.inl (by decide +kernel))

def cutStatus : Session :=
  startSession (List.replicate maxHeader blankHeader) (ascii "Status: 33\n") []

/-- The connection ends before the empty line that ends a block with the status 33. -/
theorem not_receivedStatusZero_cut :
    (runSession Server.socketSystem 1 cutStatus).ended = some (.returned 0) ∧
      ¬ ∃ k < 1, ReadsResponse Server.socketSystem (runSession Server.socketSystem k cutStatus) ∧
        ReceivedStatusZero (runSession Server.socketSystem k cutStatus).socket := by
  have hstep := sessionStep_socket Server.socketSystem cutStatus rfl
    (rfl : Server.socketSystem.select 0 = .ready false true) (fun h => Bool.false_ne_true h.2)
  refine ⟨(congrArg Session.ended hstep).trans (receiveResponse_cut Server.socketSystem
    [statusField ⟨33, by decide⟩] _ List.length_replicate (by decide) (by decide +kernel)), ?_⟩
  rintro ⟨k, hk, -, lines, rest, hblock, line, hmem, -⟩
  obtain rfl : k = 0 := by omega
  have hcount := two_le_count_lf hblock (List.ne_nil_of_mem hmem) (by decide +kernel)
  exact absurd hcount (by decide +kernel)

end Client

end GroovyServ

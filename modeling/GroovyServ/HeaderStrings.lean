import GroovyServ.StaleHeaders

/-!
# The terminators of the client's header strings

A line is read into a buffer of `BUFFER_SIZE` bytes, all of which it may fill, and a
key is stored with `strncpy` into an element that an earlier block or nobody has
written. The buffer holds a terminator when the line ends early enough, and the key
when it is shorter than it may be or the last byte of its element is zero already.
-/

namespace GroovyServ.Client

open CLib

/-- `read_headers`, with the lines from `pos` on still to be read, comes to a call of
`read_header` for the line at the front of `line`, with this element of the array. -/
inductive ReadHeaderCall : ℕ → List Header → Bytes → Bytes → Option Header → Prop
  | here {pos : ℕ} {headers : List Header} {input : Bytes}
      (hend : blockEnd (readLine input).1 = none) :
      ReadHeaderCall pos headers input input headers[pos]?
  | later {pos : ℕ} {headers : List Header} {input line : Bytes} {header element : Option Header}
      (hend : blockEnd (readLine input).1 = none)
      (hread : readHeader (readLine input).1 headers[pos]? = .ok header)
      (hfew : ¬ maxHeader < pos)
      (hcall : ReadHeaderCall (pos + 1) (setHeader headers pos header) (readLine input).2 line
        element) :
      ReadHeaderCall pos headers input line element

/-- The text of the line at the front: what is received before a line feed or a NUL,
as far as the buffer reaches. -/
def lineText (input : Bytes) : Bytes :=
  (input.take bufferSize).takeWhile fun c => c ≠ 0 ∧ c ≠ lf

def lineKey (text : Bytes) : Bytes :=
  (text.dropWhile (· ∈ ascii " :")).takeWhile (· ∉ ascii " :")

def lineValue (text : Bytes) : Bytes :=
  (((text.dropWhile (· ∈ ascii " :")).dropWhile (· ∉ ascii " :")).drop 1).dropWhile isspace

theorem takeWhile_readLineLoop (n : ℕ) (input : Bytes) :
    (readLineLoop n input).1.takeWhile (fun c => c ≠ 0 ∧ c ≠ lf) =
      (input.take n).takeWhile fun c => c ≠ 0 ∧ c ≠ lf := by
  induction n generalizing input with
  | zero => rfl
  | succ n ih =>
    cases input with
    | nil => rfl
    | cons c input =>
      rw [readLineLoop, List.take_succ_cons]
      by_cases hlf : c = lf
      · simp [hlf]
      · rw [if_neg hlf, List.takeWhile_cons, List.takeWhile_cons, ih]

theorem lineText_eq (input : Bytes) :
    (readLine input).1.takeWhile (fun c => c ≠ 0 ∧ c ≠ lf) = lineText input :=
  takeWhile_readLineLoop bufferSize input

/-- Behind a line feed the buffer holds zeros only. -/
theorem zeros_of_readLineLoop {n : ℕ} {input before after : Bytes}
    (h : (readLineLoop n input).1 = before ++ lf :: after) : ∀ c ∈ after, c = 0 := by
  induction n generalizing input before with
  | zero => simp [readLineLoop] at h
  | succ n ih =>
    cases input with
    | nil =>
      rw [readLineLoop] at h
      cases before with
      | nil => cases h
      | cons b before => exact ih (List.cons.inj h).2
    | cons c input =>
      rw [readLineLoop] at h
      split_ifs at h with hlf
      · cases before with
        | nil =>
          obtain rfl : List.replicate n 0 = after := (List.cons.inj h).2
          exact fun c hc => List.eq_of_mem_replicate hc
        | cons b before =>
          -- a second line feed would be one of the zeros
          have hmem : lf ∈ List.replicate n (0 : UInt8) := (List.cons.inj h).2 ▸ by simp
          exact absurd (List.eq_of_mem_replicate hmem) (by decide)
      · cases before with
        | nil => exact absurd (List.cons.inj h).1 hlf
        | cons b before => exact ih (List.cons.inj h).2

/-- The buffer holds a NUL when the line ends before its last byte, by a line feed or by
the end of the input, and otherwise when one is received. -/
theorem zero_mem_readLineLoop (n : ℕ) (input : Bytes) :
    0 ∈ (readLineLoop (n + 1) input).1 ↔
      lf ∈ input.take n ∨ input.length < n + 1 ∨ 0 ∈ input.take (n + 1) := by
  induction n generalizing input with
  | zero =>
    cases input with
    | nil => simp [readLineLoop]
    | cons c input =>
      by_cases hlf : c = lf
      · simp [readLineLoop, hlf, lf]
      · simp [readLineLoop, hlf]
  | succ n ih =>
    cases input with
    | nil => simp [readLineLoop]
    | cons c input =>
      rw [readLineLoop]
      by_cases hlf : c = lf
      · simp [hlf]
      · rw [if_neg hlf, List.mem_cons, ih, List.take_succ_cons, List.take_succ_cons,
          List.mem_cons, List.mem_cons, List.length_cons, Nat.succ_lt_succ_iff]
        have hne : lf ≠ c := Ne.symm hlf
        tauto

theorem lineRead_eq_stored {buf key value : Bytes} (h : lineRead buf = .stored key value) :
    ∃ rest text after, strtok (ascii " :") buf = .ok (some (key, rest)) ∧
      key.length ≤ maxHeaderKeyLen ∧ checkKey key key = .ok true ∧
      strtok [lf] rest = .ok (some (text, after)) ∧ value = text.dropWhile isspace := by
  unfold lineRead at h
  split at h
  · cases h
  · cases h
  rename_i token rest htoken
  split_ifs at h with hlong
  split at h
  · cases h
  · cases h
  rename_i hcheck
  split at h
  · cases h
  · cases h
  rename_i text after htext
  split_ifs at h
  obtain ⟨rfl, rfl⟩ := LineRead.stored.inj h
  exact ⟨rest, text, after, htoken, Nat.le_of_not_lt hlong, hcheck, htext, rfl⟩

theorem isalnum_of_checkKey {p key : Bytes} (h : checkKey p key = .ok true) :
    ∀ c ∈ key, isalnum c = true := by
  induction key with
  | nil => nofun
  | cons c key ih =>
    rw [checkKey] at h
    split_ifs at h with hcancel hspace halnum
    · cases h
    · exact List.forall_mem_cons.mpr ⟨halnum, ih h⟩

/-- A line that is stored is its key, a delimiter and its value, with spaces and colons
in front and a line feed or a NUL behind. -/
theorem lineText_of_stored {input key value : Bytes}
    (h : lineRead (readLine input).1 = .stored key value) :
    ∃ lead d text, lineText input = lead ++ (key ++ d :: text) ∧ (∀ c ∈ lead, c ∈ ascii " :") ∧
      key ≠ [] ∧ (∀ c ∈ key, c ∉ ascii " :") ∧ d ∈ ascii " :" ∧
      value = text.dropWhile isspace := by
  obtain ⟨rest, text, after, htoken, -, hcheck, htext, rfl⟩ := lineRead_eq_stored h
  obtain ⟨lead, d, behind, hbuf, hlead, hne, hplain, hd, hrest⟩ := strtok_eq_some htoken
  obtain ⟨lead', d', behind', hrest', hlead', hne', hplain', hd', -⟩ := strtok_eq_some htext
  obtain ⟨e, text', htext'⟩ := List.exists_cons_of_ne_nil hne'
  have he : e ≠ 0 := (hplain' e (htext' ▸ List.mem_cons_self)).1
  -- the key does not end with the string, behind which no value could be found
  have hd0 : d ≠ 0 := by
    rintro rfl
    rw [if_pos rfl] at hrest
    rw [hrest] at hrest'
    cases lead' with
    | nil =>
      rw [List.nil_append, htext'] at hrest'
      exact he (List.cons.inj hrest').1.symm
    | cons c lead' =>
      have hc : c = lf := List.mem_singleton.mp (hlead' c List.mem_cons_self)
      exact absurd ((List.cons.inj hrest').1.trans hc) (by decide)
  rw [if_neg hd0] at hrest
  have hdelim : d ∈ ascii " :" := hd.resolve_left hd0
  rw [← hrest, hrest'] at hbuf
  -- nor does a line feed stand before the value, where only zeros would follow
  obtain rfl : lead' = [] := by
    rw [List.eq_nil_iff_forall_not_mem]
    intro c hc
    obtain rfl : c = lf := List.mem_singleton.mp (hlead' c hc)
    obtain ⟨front, back, rfl⟩ := List.append_of_mem hc
    have hsplit : (readLine input).1 = (lead ++ (key ++ d :: front)) ++
        lf :: (back ++ (text ++ d' :: behind')) := by
      rw [hbuf]
      simp only [List.append_assoc, List.cons_append]
    refine he (zeros_of_readLineLoop hsplit e ?_)
    exact List.mem_append_right _ (List.mem_append_left _ (htext' ▸ List.mem_cons_self))
  rw [List.nil_append] at hbuf
  have hinside : ∀ c ∈ lead ++ (key ++ d :: text), decide (c ≠ 0 ∧ c ≠ lf) = true := by
    have hdelims : ∀ c ∈ ascii " :", decide (c ≠ 0 ∧ c ≠ lf) = true := by decide +kernel
    have halnum : ∀ c : UInt8, isalnum c = true → decide (c ≠ 0 ∧ c ≠ lf) = true := by
      intro c hc
      refine decide_eq_true ⟨?_, ?_⟩ <;> rintro rfl <;> exact absurd hc (by decide)
    intro c hc
    simp only [List.mem_append, List.mem_cons] at hc
    rcases hc with hc | hc | rfl | hc
    · exact hdelims c (hlead c hc)
    · exact halnum c (isalnum_of_checkKey hcheck c hc)
    · exact hdelims c hdelim
    · simpa using hplain' c hc
  have houtside : ∀ c ∈ (d' :: behind').head?, decide (c ≠ 0 ∧ c ≠ lf) = false := by
    intro c hc
    obtain rfl : d' = c := by simpa using hc
    simpa [or_iff_not_imp_left] using hd'
  refine ⟨lead, d, text, ?_, hlead, hne, fun c hc => (hplain c hc).2, hdelim, rfl⟩
  rw [← lineText_eq, hbuf, ← takeWhile_append_of_head hinside houtside]
  simp only [List.append_assoc, List.cons_append]

theorem stored_eq {input key value : Bytes} (h : lineRead (readLine input).1 = .stored key value) :
    key = lineKey (lineText input) ∧ value = lineValue (lineText input) := by
  obtain ⟨lead, d, text, htext, hlead, hne, hkey, hd, rfl⟩ := lineText_of_stored h
  have hkey' : ∀ c ∈ key, decide (c ∉ ascii " :") = true := fun c hc => decide_eq_true (hkey c hc)
  have hdrop : (lineText input).dropWhile (fun c => decide (c ∈ ascii " :")) =
      key ++ d :: text := by
    rw [htext, List.dropWhile_append_of_pos fun c hc => decide_eq_true (hlead c hc)]
    exact dropWhile_append_of_neg
      (fun c hc => decide_eq_false (hkey c (List.mem_of_mem_head? hc))) hne _
  have hends : ∀ c ∈ (d :: text).head?, decide (c ∉ ascii " :") = false := by
    intro c hc
    obtain rfl : d = c := by simpa using hc
    simpa using hd
  constructor
  · rw [lineKey, hdrop, takeWhile_append_of_head hkey' hends]
  · rw [lineValue, hdrop, List.dropWhile_append_of_pos hkey',
      List.dropWhile_cons_of_neg (by simpa using hd), List.drop_one, List.tail_cons]

/-- The strings of an element are terminated and are the key and the value of the line. -/
structure Header.HoldsLine (h : Header) (text : Bytes) : Prop where
  key_terminated : 0 ∈ h.key
  key_eq : cString h.key = lineKey text
  value_terminated : 0 ∈ h.value
  value_eq : cString h.value = lineValue text

/-- The call reads its line in a terminated buffer and, when it returns after storing,
leaves terminated strings, which are those of the line. -/
structure CallTerminated (line : Bytes) (element : Option Header) : Prop where
  buffer : 0 ∈ (readLine line).1
  header : ∀ key value h, lineRead (readLine line).1 = .stored key value →
    readHeader (readLine line).1 element = .ok (some h) → h.HoldsLine (lineText line)

/-- The line ends before the last byte of the buffer, or a NUL is received in it, and a key
of the greatest length is stored only where the last byte is zero already. -/
structure LineFits (line : Bytes) (element : Option Header) : Prop where
  buffer : lf ∈ line.take (bufferSize - 1) ∨ line.length < bufferSize ∨ 0 ∈ line.take bufferSize
  key : ∀ key value h, lineRead (readLine line).1 = .stored key value → element = some h →
    (lineKey (lineText line)).length < maxHeaderKeyLen ∨ h.key[maxHeaderKeyLen]? = some 0

theorem strncpy_cases {dst src : Bytes} {n : ℕ} (hdst : dst.length = n + 1)
    (hlen : src.length ≤ n) :
    (src.length < n ∧ ∃ mem, strncpy dst src n = src ++ 0 :: mem) ∨
      (src.length = n ∧ ∃ c, dst[n]? = some c ∧ strncpy dst src n = src ++ [c]) := by
  rcases Nat.lt_or_eq_of_le hlen with hlt | heq
  · exact .inl ⟨hlt, strncpy_of_lt dst src hlt⟩
  · have hlast : dst.drop n = [dst[n]] := by
      rw [List.drop_eq_getElem_cons (by omega), List.drop_of_length_le (by omega)]
    refine .inr ⟨heq, dst[n], List.getElem?_eq_getElem (by omega), ?_⟩
    rw [strncpy, List.take_of_length_le hlen, heq, Nat.sub_self, List.replicate_zero, hlast,
      List.nil_append]

theorem zero_mem_strncpy {dst src : Bytes} {n : ℕ} (hdst : dst.length = n + 1)
    (hsrc : (0 : UInt8) ∉ src) (hlen : src.length ≤ n) :
    0 ∈ strncpy dst src n ↔ src.length < n ∨ dst[n]? = some 0 := by
  rcases strncpy_cases hdst hlen with ⟨hlt, mem, hmem⟩ | ⟨heq, c, hc, hstored⟩
  · rw [hmem]
    exact iff_of_true (List.mem_append_right _ List.mem_cons_self) (.inl hlt)
  · rw [hstored, hc, heq]
    simp [hsrc, eq_comm]

theorem cString_strncpy {dst src : Bytes} {n : ℕ} (hdst : dst.length = n + 1)
    (hsrc : (0 : UInt8) ∉ src) (hlen : src.length ≤ n) (hzero : 0 ∈ strncpy dst src n) :
    cString (strncpy dst src n) = src := by
  rcases strncpy_cases hdst hlen with ⟨-, mem, hmem⟩ | ⟨-, c, -, hstored⟩
  · rw [hmem, cString_append hsrc]
  · rw [hstored] at hzero ⊢
    obtain rfl : c = 0 := by simpa [hsrc, eq_comm] using hzero
    exact cString_append hsrc []

theorem readHeader_stored {buf key value : Bytes} {element : Option Header} {h : Header}
    (hline : lineRead buf = .stored key value) (hread : readHeader buf element = .ok (some h)) :
    ∃ header, element = some header ∧ h = (header.setKey key).setValue value := by
  have heffect := readHeader_effect buf element
  rw [hread, hline] at heffect
  cases element with
  | none => cases heffect
  | some header => exact ⟨header, rfl, Option.some.inj (Except.ok.inj heffect)⟩

theorem holdsLine_iff {line key value : Bytes} (header : Header)
    (hline : lineRead (readLine line).1 = .stored key value) :
    ((header.setKey key).setValue value).HoldsLine (lineText line) ↔
      (lineKey (lineText line)).length < maxHeaderKeyLen ∨
        header.key[maxHeaderKeyLen]? = some 0 := by
  obtain ⟨hkey, hvalue⟩ := stored_eq hline
  have hstorable := storable_of_lineRead (length_readLineLoop _ _) hline
  have hzero := zero_mem_strncpy header.key_length hstorable.key_plain hstorable.key_length
  rw [← hkey, ← hzero]
  constructor
  · exact fun h => h.key_terminated
  · intro hterminated
    obtain ⟨mem, hmem⟩ := strncpy_of_lt header.value value hstorable.value_length
    have hplain : (0 : UInt8) ∉ value := by
      obtain ⟨lead, d, text, htext, -, -, -, -, rfl⟩ := lineText_of_stored hline
      intro h0
      have h0 : (0 : UInt8) ∈ lineText line := by
        rw [htext]
        exact List.mem_append_right _ (List.mem_append_right _ (List.mem_cons_of_mem _
          ((List.dropWhile_suffix _).subset h0)))
      exact absurd (List.mem_takeWhile_imp h0) (by decide)
    have hstored : ((header.setKey key).setValue value).value = value ++ 0 :: mem := hmem
    refine ⟨hterminated, ?_, ?_, ?_⟩
    · rw [← hkey]
      exact cString_strncpy header.key_length hstorable.key_plain hstorable.key_length hterminated
    · rw [hstored]
      exact List.mem_append_right _ List.mem_cons_self
    · rw [hstored, cString_append hplain, hvalue]

theorem callTerminated_iff (line : Bytes) (element : Option Header) :
    CallTerminated line element ↔ LineFits line element := by
  have hbuffer := zero_mem_readLineLoop (bufferSize - 1) line
  constructor
  · intro h
    refine ⟨hbuffer.mp h.buffer, fun key value header hline helement => ?_⟩
    have hread := readHeader_effect (readLine line).1 element
    rw [hline, helement] at hread
    have hstored := h.header key value _ hline (helement ▸ mapError_eq_ok.mp hread)
    exact (holdsLine_iff header hline).mp hstored
  · intro h
    refine ⟨hbuffer.mpr h.buffer, fun key value header hline hread => ?_⟩
    obtain ⟨header, helement, rfl⟩ := readHeader_stored hline hread
    exact (holdsLine_iff header hline).mpr (h.key key value header hline helement)

def StringsTerminated (headers : List Header) (input : Bytes) : Prop :=
  ∀ line element, ReadHeaderCall 0 headers input line element → CallTerminated line element

def LinesFit (headers : List Header) (input : Bytes) : Prop :=
  ∀ line element, ReadHeaderCall 0 headers input line element → LineFits line element

theorem stringsTerminated_iff (headers : List Header) (input : Bytes) :
    StringsTerminated headers input ↔ LinesFit headers input :=
  forall_congr' fun line => forall_congr' fun element =>
    imp_congr_right fun _ => callTerminated_iff line element

def fullLine : Bytes := ascii "Size: " ++ (List.replicate 505 48 ++ [lf])

def filledHeader : Header where
  key := List.replicate (maxHeaderKeyLen + 1) 120
  value := List.replicate (maxHeaderValueLen + 1) 121
  key_length := List.length_replicate
  value_length := List.length_replicate

def fullKey : Bytes := ascii "abcdefghijklmnopqrstuvwxyz0123"

theorem not_stringsTerminated :
    ¬ StringsTerminated (List.replicate maxHeader blankHeader) fullLine ∧
      ¬ StringsTerminated (List.replicate maxHeader filledHeader)
        (fullKey ++ ascii ": 1\n\n") := by
  constructor
  · intro h
    have hcall := h _ _ (.here (by decide +kernel))
    exact absurd hcall.buffer (by decide +kernel)
  · intro h
    have hcall := h _ _ (.here (by decide +kernel))
    have hkey := (hcall.header fullKey (ascii "1") ((filledHeader.setKey fullKey).setValue
      (ascii "1")) (by decide +kernel) rfl).key_terminated
    exact absurd hkey (by decide +kernel)

end GroovyServ.Client

import GroovyServ.Bytes

/-!
# Texts of UTF-16 units

A Java string is a list of 16-bit units. A charset that extends ASCII encodes what is in
front of an ASCII character and what is behind it apart. `stripMargin` is Groovy's: it
divides a text into lines, takes the margin off each, and joins them by line feeds.
-/

namespace GroovyServ

abbrev Text := List UInt16

def asciiText (bytes : Bytes) : Text := bytes.map UInt8.toUInt16

/-- A charset that extends ASCII. -/
structure Charset where
  encode : Text → Bytes
  encode_nil : encode [] = []
  encode_ascii : ∀ (s : Text) (ch : UInt16) (t : Text), ch < 128 →
    encode (s ++ ch :: t) = encode s ++ ch.toUInt8 :: encode t

namespace Charset

variable (charset : Charset)

theorem encode_cons {ch : UInt16} (hch : ch < 128) (t : Text) :
    charset.encode (ch :: t) = ch.toUInt8 :: charset.encode t := by
  have h := charset.encode_ascii [] ch t hch
  rwa [charset.encode_nil] at h

theorem encode_append {s : Text} (hs : ∀ ch ∈ s, ch < 128) (t : Text) :
    charset.encode (s ++ t) = s.map UInt16.toUInt8 ++ charset.encode t := by
  induction s with
  | nil => rfl
  | cons ch s ih =>
    obtain ⟨hch, hs⟩ := List.forall_mem_cons.mp hs
    rw [List.cons_append, charset.encode_cons hch, ih hs]
    rfl

theorem encode_asciiText {bytes : Bytes} (hbytes : ∀ ch ∈ bytes, ch < 128) (t : Text) :
    charset.encode (asciiText bytes ++ t) = bytes ++ charset.encode t := by
  rw [charset.encode_append, asciiText, List.map_map]
  · congr 1
    exact List.map_id'' (fun ch => UInt8.toUInt8_toUInt16 ch) bytes
  · intro ch hch
    obtain ⟨b, hb, rfl⟩ := List.mem_map.mp hch
    have hlt := hbytes b hb
    rw [UInt8.lt_iff_toNat_lt] at hlt
    rw [UInt16.lt_iff_toNat_lt, UInt8.toNat_toUInt16]
    exact hlt

end Charset

def isHighSurrogate (ch : UInt16) : Bool := decide (0xD800 ≤ ch ∧ ch ≤ 0xDBFF)

def isLowSurrogate (ch : UInt16) : Bool := decide (0xDC00 ≤ ch ∧ ch ≤ 0xDFFF)

def utf8Tail (n : ℕ) : UInt8 := UInt8.ofNat (128 + n % 64)

/-- A unit that starts no pair; a lone low surrogate becomes a question mark. -/
def utf8Unit (ch : UInt16) : Bytes :=
  let n := ch.toNat
  if n < 0x80 then [ch.toUInt8]
  else if n < 0x800 then [UInt8.ofNat (0xC0 + n / 64), utf8Tail n]
  else if isLowSurrogate ch then [63]
  else [UInt8.ofNat (0xE0 + n / 4096), utf8Tail (n / 64), utf8Tail n]

def utf8Pair (high low : UInt16) : Bytes :=
  let n := 0x10000 + (high.toNat - 0xD800) * 1024 + (low.toNat - 0xDC00)
  [UInt8.ofNat (0xF0 + n / 262144), utf8Tail (n / 4096), utf8Tail (n / 64), utf8Tail n]

def utf8Loop : Option UInt16 → Text → Bytes
  | none, [] => []
  | some _, [] => [63]
  | none, ch :: s =>
    if isHighSurrogate ch then utf8Loop (some ch) s else utf8Unit ch ++ utf8Loop none s
  | some high, ch :: s =>
    if isLowSurrogate ch then utf8Pair high ch ++ utf8Loop none s
    else 63 :: if isHighSurrogate ch then utf8Loop (some ch) s
      else utf8Unit ch ++ utf8Loop none s

theorem utf8Loop_ascii {ch : UInt16} (hch : ch < 128) (t : Text) (pending : Option UInt16)
    (s : Text) :
    utf8Loop pending (s ++ ch :: t) = utf8Loop pending s ++ ch.toUInt8 :: utf8Loop none t := by
  have hlt : ch.toNat < 128 := UInt16.lt_iff_toNat_lt.mp hch
  have hhigh : isHighSurrogate ch = false := by
    rw [isHighSurrogate, decide_eq_false_iff_not, UInt16.le_iff_toNat_le]
    exact fun h => absurd (h.1.trans_lt hlt) (by decide)
  have hlow : isLowSurrogate ch = false := by
    rw [isLowSurrogate, decide_eq_false_iff_not, UInt16.le_iff_toNat_le]
    exact fun h => absurd (h.1.trans_lt hlt) (by decide)
  have hunit : utf8Unit ch = [ch.toUInt8] := if_pos hlt
  induction s generalizing pending with
  | nil =>
    cases pending with
    | none =>
      have hstep : utf8Loop none (ch :: t) = if isHighSurrogate ch then utf8Loop (some ch) t
          else utf8Unit ch ++ utf8Loop none t := rfl
      rw [List.nil_append, hstep, hhigh, if_neg Bool.false_ne_true, hunit]
      rfl
    | some high =>
      have hstep : utf8Loop (some high) (ch :: t) =
          if isLowSurrogate ch then utf8Pair high ch ++ utf8Loop none t
          else 63 :: if isHighSurrogate ch then utf8Loop (some ch) t
            else utf8Unit ch ++ utf8Loop none t := rfl
      rw [List.nil_append, hstep, hlow, hhigh, if_neg Bool.false_ne_true,
        if_neg Bool.false_ne_true, hunit]
      rfl
  | cons c s ih =>
    cases pending with
    | none =>
      rw [List.cons_append, utf8Loop, utf8Loop]
      split_ifs
      · exact ih _
      · rw [ih, List.append_assoc]
    | some high =>
      rw [List.cons_append, utf8Loop, utf8Loop]
      split_ifs
      · rw [ih, List.append_assoc]
      · rw [ih, List.cons_append]
      · rw [ih, List.cons_append, List.append_assoc]

def utf8 : Charset where
  encode := utf8Loop none
  encode_nil := rfl
  encode_ascii s _ t hch := utf8Loop_ascii hch t none s

/-- `BufferedReader`'s lines. After a carriage return a line feed is skipped. -/
def readTextLines : Bool → Text → List Text
  | _, [] => []
  | skipLF, ch :: s =>
    if ch = 10 then
      if skipLF then readTextLines false s else [] :: readTextLines false s
    else if ch = 13 then [] :: readTextLines true s
    else (ch :: (readTextLines false s).headD []) :: (readTextLines false s).tail

/-- The line without the white space in front of a bar and the bar, if it starts so. -/
def stripMarginFromLine (line : Text) : Text :=
  match line.dropWhile (fun ch => ch ≤ 32) with
  | [] => line
  | ch :: rest => if ch = 124 then rest else line

def strippedLines (lines : List Text) : Text :=
  lines.flatMap fun line => stripMarginFromLine line ++ [10]

def stripMargin (text : Text) : Text :=
  if text.getLast? = some 10 then strippedLines (readTextLines false text)
  else (strippedLines (readTextLines false text)).dropLast

def Margined (line : Text) : Prop := (line.dropWhile fun ch => ch ≤ 32).head? = some 124

/-- No line ends by a carriage return, and none has a margin. -/
structure Untouched (text : Text) : Prop where
  unreturned : 13 ∉ text
  unmargined : ∀ line ∈ readTextLines false text, ¬ Margined line

def Unbroken (line : Text) : Prop := 10 ∉ line ∧ 13 ∉ line

def LineEnds (text : Text) : Prop := text = [] ∨ ∃ rest, text = 10 :: rest ∨ text = 13 :: rest

theorem exists_line (text : Text) :
    ∃ line rest, text = line ++ rest ∧ Unbroken line ∧ LineEnds rest := by
  induction text with
  | nil => exact ⟨[], [], rfl, ⟨List.not_mem_nil, List.not_mem_nil⟩, .inl rfl⟩
  | cons ch text ih =>
    by_cases hlf : ch = 10
    · exact ⟨[], ch :: text, rfl, ⟨List.not_mem_nil, List.not_mem_nil⟩,
        .inr ⟨text, .inl (hlf ▸ rfl)⟩⟩
    by_cases hcr : ch = 13
    · exact ⟨[], ch :: text, rfl, ⟨List.not_mem_nil, List.not_mem_nil⟩,
        .inr ⟨text, .inr (hcr ▸ rfl)⟩⟩
    obtain ⟨line, rest, rfl, ⟨hline, hline'⟩, hrest⟩ := ih
    exact ⟨ch :: line, rest, rfl, ⟨List.not_mem_cons_of_ne_of_not_mem (Ne.symm hlf) hline,
      List.not_mem_cons_of_ne_of_not_mem (Ne.symm hcr) hline'⟩, hrest⟩

/-- A text is made of parts of lines and of breaks. -/
theorem lines_induction {motive : Text → Prop} (nil : motive [])
    (lf : ∀ rest, motive rest → motive (10 :: rest))
    (crlf : ∀ rest, motive rest → motive (13 :: 10 :: rest))
    (cr : ∀ rest : Text, rest.head? ≠ some 10 → motive rest → motive (13 :: rest))
    (line : ∀ line rest, line ≠ [] → Unbroken line → LineEnds rest → motive rest →
      motive (line ++ rest)) (text : Text) : motive text := by
  induction hlen : text.length using Nat.strong_induction_on generalizing text with
  | _ n ih =>
    subst hlen
    obtain ⟨part, rest, rfl, hpart, hrest⟩ := exists_line text
    have hshort : ∀ ch more, rest = ch ++ more → 0 < ch.length → motive more := by
      rintro ch more rfl hpos
      refine ih _ ?_ more rfl
      simp only [List.length_append]
      omega
    have hbehind : motive rest := by
      rcases hrest with rfl | ⟨more, rfl | rfl⟩
      · exact nil
      · exact lf more (hshort [10] more rfl (Nat.succ_pos _))
      · by_cases hmore : more.head? = some 10
        · obtain ⟨more, rfl⟩ := List.head?_eq_some_iff.mp hmore
          exact crlf more (hshort [13, 10] more rfl (Nat.succ_pos _))
        · exact cr more hmore (hshort [13] more rfl (Nat.succ_pos _))
    by_cases hnil : part = []
    · rwa [hnil]
    · exact line part rest hnil hpart hrest hbehind

theorem readTextLines_lf (rest : Text) :
    readTextLines false (10 :: rest) = [] :: readTextLines false rest := rfl

theorem readTextLines_crlf (rest : Text) :
    readTextLines false (13 :: 10 :: rest) = [] :: readTextLines false rest := rfl

theorem readTextLines_cr {rest : Text} (hrest : rest.head? ≠ some 10) :
    readTextLines false (13 :: rest) = [] :: readTextLines false rest := by
  have hcons : readTextLines false (13 :: rest) = [] :: readTextLines true rest := rfl
  rw [hcons]
  cases rest with
  | nil => rfl
  | cons ch rest =>
    have hch : ch ≠ 10 := fun h => hrest (h ▸ rfl)
    rw [readTextLines, readTextLines, if_neg hch, if_neg hch]

theorem readTextLines_append {line rest : Text} (hne : line ≠ []) (hline : Unbroken line)
    (hrest : LineEnds rest) :
    readTextLines false (line ++ rest) = line :: (readTextLines false rest).tail := by
  induction line with
  | nil => exact absurd rfl hne
  | cons ch line ih =>
    obtain ⟨hlf, hcr⟩ := hline
    rw [List.mem_cons, not_or] at hlf hcr
    rw [List.cons_append, readTextLines, if_neg (Ne.symm hlf.1), if_neg (Ne.symm hcr.1)]
    by_cases hnil : line = []
    · subst hnil
      have hhead : (readTextLines false rest).headD [] = [] := by
        rcases hrest with rfl | ⟨more, rfl | rfl⟩ <;> rfl
      rw [List.nil_append, hhead]
    · rw [ih hnil ⟨hlf.2, hcr.2⟩]
      rfl

theorem readTextLines_ne_nil {text : Text} (hne : text ≠ []) : readTextLines false text ≠ [] := by
  cases text with
  | nil => exact absurd rfl hne
  | cons ch text =>
    rw [readTextLines, if_neg Bool.false_ne_true]
    split_ifs <;> exact List.cons_ne_nil _ _

theorem readTextLines_lineEnds {text : Text} (hends : LineEnds text) (hne : text ≠ []) :
    readTextLines false text = [] :: (readTextLines false text).tail := by
  rcases hends with rfl | ⟨rest, rfl | rfl⟩
  · exact absurd rfl hne
  · rfl
  · rfl

theorem strippedLines_cons (line : Text) (lines : List Text) :
    strippedLines (line :: lines) = stripMarginFromLine line ++ 10 :: strippedLines lines := by
  rw [strippedLines, List.flatMap_cons, List.append_assoc]
  rfl

theorem strippedLines_ne_nil {lines : List Text} (hne : lines ≠ []) :
    strippedLines lines ≠ [] := by
  obtain ⟨line, lines, rfl⟩ := List.exists_cons_of_ne_nil hne
  rw [strippedLines_cons]
  exact List.append_ne_nil_of_right_ne_nil _ (List.cons_ne_nil _ _)

theorem stripMargin_break (ch : Text) {rest : Text} (hne : rest ≠ [])
    (hlines : readTextLines false (ch ++ rest) = [] :: readTextLines false rest) :
    stripMargin (ch ++ rest) = 10 :: stripMargin rest := by
  have hstripped : strippedLines (readTextLines false (ch ++ rest)) =
      10 :: strippedLines (readTextLines false rest) := by
    rw [hlines, strippedLines_cons]
    rfl
  rw [stripMargin, stripMargin, hstripped, List.getLast?_append_of_ne_nil _ hne]
  split_ifs
  · rfl
  · exact List.dropLast_cons_of_ne_nil (strippedLines_ne_nil (readTextLines_ne_nil hne))

theorem stripMargin_lf (rest : Text) : stripMargin (10 :: rest) = 10 :: stripMargin rest := by
  by_cases hne : rest = []
  · subst hne
    rfl
  · exact stripMargin_break [10] hne (readTextLines_lf rest)

theorem stripMargin_crlf (rest : Text) :
    stripMargin (13 :: 10 :: rest) = 10 :: stripMargin rest := by
  by_cases hne : rest = []
  · subst hne
    rfl
  · exact stripMargin_break [13, 10] hne (readTextLines_crlf rest)

theorem stripMargin_cr {rest : Text} (hrest : rest.head? ≠ some 10) :
    stripMargin (13 :: rest) = if rest = [] then [] else 10 :: stripMargin rest := by
  split_ifs with hne
  · subst hne
    rfl
  · exact stripMargin_break [13] hne (readTextLines_cr hrest)

theorem stripMargin_append {line rest : Text} (hne : line ≠ []) (hline : Unbroken line)
    (hrest : LineEnds rest) :
    stripMargin (line ++ rest) = stripMarginFromLine line ++ stripMargin rest := by
  rw [stripMargin, stripMargin, readTextLines_append hne hline hrest, strippedLines_cons]
  by_cases hnil : rest = []
  · subst hnil
    have hlast : line.getLast? ≠ some 10 := fun h => hline.1 (List.mem_of_getLast? h)
    have hline : strippedLines (readTextLines false []).tail = [] := rfl
    rw [List.append_nil, if_neg hlast, hline, List.dropLast_concat]
    exact (List.append_nil _).symm
  · have hlines : strippedLines (readTextLines false rest) =
        10 :: strippedLines (readTextLines false rest).tail := by
      rw [readTextLines_lineEnds hrest hnil, strippedLines_cons]
      rfl
    rw [List.getLast?_append_of_ne_nil _ hnil, hlines]
    split_ifs
    · rfl
    · exact List.dropLast_append_of_ne_nil (List.cons_ne_nil _ _)

theorem stripMarginFromLine_of_not_margined {line : Text} (h : ¬ Margined line) :
    stripMarginFromLine line = line := by
  rw [Margined] at h
  rw [stripMarginFromLine]
  cases hdrop : line.dropWhile fun ch => ch ≤ 32 with
  | nil => rfl
  | cons ch rest =>
    rw [hdrop] at h
    have hch : ch ≠ 124 := fun hch => h (congrArg some hch)
    exact if_neg hch

theorem Margined.eq_append {line : Text} (h : Margined line) :
    ∃ margin, margin ≠ [] ∧ (∀ ch ∈ margin, ch < 128) ∧
      line = margin ++ stripMarginFromLine line := by
  obtain ⟨rest, hdrop⟩ := List.head?_eq_some_iff.mp h
  have hstrip : stripMarginFromLine line = rest := by
    rw [stripMarginFromLine, hdrop]
    exact if_pos rfl
  have hline := List.takeWhile_append_dropWhile (p := fun ch : UInt16 => ch ≤ 32) (l := line)
  rw [hdrop] at hline
  refine ⟨line.takeWhile (fun ch => ch ≤ 32) ++ [124], by simp, fun ch hch => ?_, ?_⟩
  · rcases List.mem_append.mp hch with hch | hch
    · have hle : decide (ch ≤ 32) = true :=
        List.mem_takeWhile_imp (p := fun ch : UInt16 => ch ≤ 32) hch
      exact UInt16.lt_of_le_of_lt (of_decide_eq_true hle) (by decide)
    · rw [List.mem_singleton.mp hch]
      decide
  · rw [hstrip, List.append_assoc]
    exact hline.symm

theorem not_margined_nil : ¬ Margined [] := by
  intro h
  cases h

theorem untouched_nil : Untouched [] := ⟨List.not_mem_nil, fun _ h => nomatch h⟩

theorem untouched_lf {rest : Text} : Untouched (10 :: rest) ↔ Untouched rest := by
  constructor
  · intro h
    exact ⟨fun hmem => h.unreturned (List.mem_cons_of_mem _ hmem), fun line hline =>
      h.unmargined line (List.mem_cons_of_mem _ hline)⟩
  · intro h
    refine ⟨List.not_mem_cons_of_ne_of_not_mem (by decide) h.unreturned, fun line hline => ?_⟩
    rcases List.mem_cons.mp hline with rfl | hline
    · exact not_margined_nil
    · exact h.unmargined line hline

theorem unmargined_lineEnds {rest : Text} (hrest : LineEnds rest) :
    (∀ line ∈ readTextLines false rest, ¬ Margined line) ↔
      ∀ line ∈ (readTextLines false rest).tail, ¬ Margined line := by
  by_cases hnil : rest = []
  · subst hnil
    exact Iff.rfl
  · rw [readTextLines_lineEnds hrest hnil, List.forall_mem_cons]
    exact and_iff_right not_margined_nil

theorem untouched_append {line rest : Text} (hne : line ≠ []) (hline : Unbroken line)
    (hrest : LineEnds rest) :
    Untouched (line ++ rest) ↔ ¬ Margined line ∧ Untouched rest := by
  have hlines := readTextLines_append hne hline hrest
  constructor
  · rintro ⟨hunreturned, hunmargined⟩
    rw [hlines, List.forall_mem_cons] at hunmargined
    exact ⟨hunmargined.1, fun hmem => hunreturned (List.mem_append_right _ hmem),
      (unmargined_lineEnds hrest).mpr hunmargined.2⟩
  · rintro ⟨hmargin, hunreturned, hunmargined⟩
    refine ⟨fun hmem => (List.mem_append.mp hmem).elim hline.2 hunreturned, ?_⟩
    rw [hlines, List.forall_mem_cons]
    exact ⟨hmargin, (unmargined_lineEnds hrest).mp hunmargined⟩

theorem stripMargin_untouched (text : Text) (h : Untouched text) : stripMargin text = text := by
  induction text using lines_induction with
  | nil => rfl
  | lf rest ih => rw [stripMargin_lf, ih (untouched_lf.mp h)]
  | crlf rest ih => exact absurd List.mem_cons_self h.unreturned
  | cr rest hrest ih => exact absurd List.mem_cons_self h.unreturned
  | line line rest hne hline hrest ih =>
    obtain ⟨hmargin, hrest'⟩ := (untouched_append hne hline hrest).mp h
    rw [stripMargin_append hne hline hrest, stripMarginFromLine_of_not_margined hmargin, ih hrest']

theorem LineEnds.stripMargin {rest : Text} (h : LineEnds rest) :
    LineEnds (GroovyServ.stripMargin rest) := by
  rcases h with rfl | ⟨more, rfl | rfl⟩
  · exact .inl rfl
  · exact .inr ⟨_, .inl (stripMargin_lf more)⟩
  · by_cases hmore : more.head? = some 10
    · obtain ⟨more, rfl⟩ := List.head?_eq_some_iff.mp hmore
      exact .inr ⟨_, .inl (stripMargin_crlf more)⟩
    · rw [stripMargin_cr hmore]
      split_ifs
      · exact .inl rfl
      · exact .inr ⟨_, .inl rfl⟩

namespace Charset

variable (charset : Charset)

theorem encode_lineEnds (line : Text) {rest : Text} (hrest : LineEnds rest) :
    charset.encode (line ++ rest) = charset.encode line ++ charset.encode rest := by
  rcases hrest with rfl | ⟨more, rfl | rfl⟩
  · rw [charset.encode_nil, List.append_nil, List.append_nil]
  · rw [charset.encode_ascii _ _ _ (by decide), charset.encode_cons (by decide)]
  · rw [charset.encode_ascii _ _ _ (by decide), charset.encode_cons (by decide)]

def weight (bytes : Bytes) : ℕ := (bytes.map fun ch => ch.toNat + 1).sum

theorem weight_cons (ch : UInt8) (bytes : Bytes) :
    weight (ch :: bytes) = ch.toNat + 1 + weight bytes := rfl

theorem weight_append (bytes more : Bytes) :
    weight (bytes ++ more) = weight bytes + weight more := by
  rw [weight, List.map_append, List.sum_append]
  rfl

/-- The line breaks and the margins that `stripMargin` changes are ASCII, so each change is
seen in the encoding. -/
theorem weight_stripMargin (text : Text) :
    weight (charset.encode (stripMargin text)) ≤ weight (charset.encode text) ∧
      (weight (charset.encode (stripMargin text)) = weight (charset.encode text) →
        Untouched text) := by
  have hlf : ∀ t, weight (charset.encode (10 :: t)) = 11 + weight (charset.encode t) := fun t => by
    rw [charset.encode_cons (by decide)]
    rfl
  have hcr : ∀ t, weight (charset.encode (13 :: t)) = 14 + weight (charset.encode t) := fun t => by
    rw [charset.encode_cons (by decide)]
    rfl
  induction text using lines_induction with
  | nil => exact ⟨le_rfl, fun _ => untouched_nil⟩
  | lf rest ih =>
    rw [stripMargin_lf, hlf, hlf, untouched_lf]
    exact ⟨Nat.add_le_add_left ih.1 _, fun h => ih.2 (Nat.add_left_cancel h)⟩
  | crlf rest ih =>
    rw [stripMargin_crlf, hlf, hcr, hlf]
    have := ih.1
    exact ⟨by omega, fun h => by omega⟩
  | cr rest hrest ih =>
    rw [stripMargin_cr hrest, hcr]
    split_ifs
    · rw [charset.encode_nil]
      exact ⟨Nat.zero_le _, fun h => absurd h (by change 0 ≠ _; omega)⟩
    · rw [hlf]
      have := ih.1
      exact ⟨by omega, fun h => by omega⟩
  | line line rest hne hline hrest ih =>
    rw [stripMargin_append hne hline hrest, charset.encode_lineEnds _ hrest.stripMargin,
      charset.encode_lineEnds _ hrest, weight_append, weight_append,
      untouched_append hne hline hrest]
    by_cases hmargin : Margined line
    · obtain ⟨margin, hnil, hascii, heq⟩ := hmargin.eq_append
      obtain ⟨ch, margin, rfl⟩ := List.exists_cons_of_ne_nil hnil
      have hweight : weight (charset.encode line) =
          weight ((ch :: margin).map UInt16.toUInt8) +
            weight (charset.encode (stripMarginFromLine line)) := by
        rw [← weight_append, ← charset.encode_append hascii, ← heq]
      rw [List.map_cons, weight_cons] at hweight
      have := ih.1
      exact ⟨by omega, fun h => by omega⟩
    · rw [stripMarginFromLine_of_not_margined hmargin]
      exact ⟨Nat.add_le_add_left ih.1 _, fun h => ⟨hmargin, ih.2 (Nat.add_left_cancel h)⟩⟩

theorem encode_stripMargin_eq_iff (text : Text) :
    charset.encode (stripMargin text) = charset.encode text ↔ Untouched text := by
  constructor
  · intro h
    exact (charset.weight_stripMargin text).2 (by rw [h])
  · intro h
    rw [stripMargin_untouched text h]

end Charset
end GroovyServ

import GroovyServ.JavaText
import GroovyServ.StdinTransfer

/-!
# What a client in Groovy sends as standard input

`GroovyClient.input` announces the number of UTF-16 units of the text, not of the bytes
that it becomes, and strips the margin off the text together with the header. The text
arrives exactly when it takes one byte for each unit and there is nothing to strip.
-/

namespace GroovyServ

open Lines Server

inductive LineSeparator where
  | unix
  | windows
  deriving DecidableEq

def LineSeparator.text : LineSeparator → Text
  | unix => [10]
  | windows => [13, 10]

namespace GroovyClient

/-- The white space of the source in front of a line, and the bar. -/
def inputMargin : Text := asciiText (List.replicate 16 32 ++ [124])

def inputTemplate (text : Text) : Text :=
  inputMargin ++ (asciiText (ascii "Size: " ++ decimal text.length) ++
    10 :: (inputMargin ++ 10 :: (inputMargin ++ text)))

def inputRequest (charset : Charset) (separator : LineSeparator) (text : Text) : Bytes :=
  charset.encode (stripMargin (inputTemplate (text ++ separator.text)))

/-- The bytes are one request, whose body is the text with a line separator, and whose size
is the length of the body. -/
def SendsText (charset : Charset) (separator : LineSeparator) (text : Text) : Prop :=
  ∀ socket ending, ∃ request,
    readStreamRequest socket ending (inputRequest charset separator text) =
      .ok (request, charset.encode (text ++ separator.text)) ∧
    request.getSize = (charset.encode (text ++ separator.text)).length

/-- The text is as long as its encoding, as an `int`, and `stripMargin` leaves it alone. -/
structure SentAsIs (charset : Charset) (text : Text) : Prop where
  short : text.length < 2 ^ 31
  encoded : (charset.encode text).length = text.length
  unreturned : 13 ∉ text
  unmargined : ∀ line ∈ (readTextLines false text).tail, ¬ Margined line

theorem stripMarginFromLine_inputMargin (line : Text) :
    stripMarginFromLine (inputMargin ++ line) = line := rfl

theorem stripMargin_inputMargin {line rest : Text} (hline : Unbroken line)
    (hrest : LineEnds rest) :
    stripMargin (inputMargin ++ line ++ rest) = line ++ stripMargin rest := by
  have hmargin : inputMargin ≠ [] ∧ 10 ∉ inputMargin ∧ 13 ∉ inputMargin := by decide
  have hunbroken : Unbroken (inputMargin ++ line) :=
    ⟨fun h => (List.mem_append.mp h).elim hmargin.2.1 hline.1,
      fun h => (List.mem_append.mp h).elim hmargin.2.2 hline.2⟩
  rw [stripMargin_append (List.append_ne_nil_of_left_ne_nil hmargin.1 _) hunbroken hrest,
    stripMarginFromLine_inputMargin]

theorem sizeLine_plain (n : ℕ) :
    ∀ ch ∈ ascii "Size: " ++ decimal n, ch < 128 ∧ ch ≠ 10 ∧ ch ≠ 13 := by
  have hname : ascii "Size: " = [83, 105, 122, 101, 58, 32] := rfl
  have hkey : ∀ ch ∈ ascii "Size: ", ch < 128 ∧ ch ≠ 10 ∧ ch ≠ 13 := by
    simp [hname]
  have hdigit : ∀ ch ∈ decimal n, ch < 128 ∧ ch ≠ 10 ∧ ch ≠ 13 := by
    intro ch hch
    have h := isDigit_of_mem_decimal n ch hch
    have hlt : ch < 128 := by
      rw [isDigit, decide_eq_true_eq] at h
      rw [UInt8.lt_iff_toNat_lt]
      exact h.2.trans_lt (by decide)
    refine ⟨hlt, ?_, ?_⟩ <;> rintro rfl <;> exact absurd h (by decide)
  exact fun ch hch => (List.mem_append.mp hch).elim (hkey ch) (hdigit ch)

theorem unbroken_asciiText {bytes : Bytes} (hbytes : ∀ ch ∈ bytes, ch ≠ 10 ∧ ch ≠ 13) :
    Unbroken (asciiText bytes) := by
  constructor <;> intro h <;> obtain ⟨ch, hch, heq⟩ := List.mem_map.mp h
  · exact (hbytes ch hch).1 (UInt8.toUInt16_inj.mp heq)
  · exact (hbytes ch hch).2 (UInt8.toUInt16_inj.mp heq)

theorem stripMargin_inputTemplate (text : Text) :
    stripMargin (inputTemplate text) = asciiText (ascii "Size: " ++ decimal text.length) ++
      10 :: 10 :: stripMargin (inputMargin ++ text) := by
  have hsize := unbroken_asciiText fun ch hch => (sizeLine_plain text.length ch hch).2
  have hblank : stripMargin (inputMargin ++ 10 :: (inputMargin ++ text)) =
      stripMargin (10 :: (inputMargin ++ text)) := by
    have h := stripMargin_inputMargin ⟨List.not_mem_nil, List.not_mem_nil⟩
      (.inr ⟨inputMargin ++ text, .inl rfl⟩)
    rwa [List.append_nil, List.nil_append] at h
  rw [inputTemplate, ← List.append_assoc, stripMargin_inputMargin hsize (.inr ⟨_, .inl rfl⟩),
    stripMargin_lf, hblank, stripMargin_lf]

theorem inputRequest_eq (charset : Charset) (separator : LineSeparator) (text : Text) :
    inputRequest charset separator text =
      Client.streamRequestHeader (text ++ separator.text).length ++
        charset.encode (stripMargin (inputMargin ++ (text ++ separator.text))) := by
  rw [inputRequest, stripMargin_inputTemplate,
    charset.encode_asciiText fun ch hch => (sizeLine_plain _ ch hch).1,
    charset.encode_cons (by decide), charset.encode_cons (by decide), Client.streamRequestHeader]
  simp only [List.append_assoc, List.cons_append, List.nil_append]
  rfl

theorem encode_stripMargin_inputMargin (charset : Charset) (text : Text) :
    charset.encode (stripMargin (inputMargin ++ text)) = charset.encode text ↔
      13 ∉ text ∧ ∀ line ∈ (readTextLines false text).tail, ¬ Margined line := by
  obtain ⟨line, rest, rfl, hline, hrest⟩ := exists_line text
  have hlines : (readTextLines false (line ++ rest)).tail = (readTextLines false rest).tail := by
    by_cases hnil : line = []
    · rw [hnil, List.nil_append]
    · rw [readTextLines_append hnil hline hrest, List.tail_cons]
  have hreturn : 13 ∉ line ++ rest ↔ 13 ∉ rest := by
    rw [List.mem_append, not_or]
    exact and_iff_right hline.2
  rw [← List.append_assoc, stripMargin_inputMargin hline hrest,
    charset.encode_lineEnds _ hrest.stripMargin, charset.encode_lineEnds _ hrest,
    List.append_cancel_left_eq, charset.encode_stripMargin_eq_iff, hlines, hreturn,
    ← unmargined_lineEnds hrest]
  exact ⟨fun h => ⟨h.unreturned, h.unmargined⟩, fun h => ⟨h.1, h.2⟩⟩

/-- A size that is no `int` is refused, like a size of 0. -/
theorem readStreamRequest_of_le (socket : Socket) (ending : Ending) {n : ℕ} (hn : 2 ^ 31 ≤ n)
    (rest : Bytes) :
    ∃ stop, readStreamRequest socket ending (Client.streamRequestHeader n ++ rest) =
      .error stop := by
  have hsize : StreamRequest.getSize ⟨socket.port, some (decimal n), none⟩ = 0 := by
    rw [StreamRequest.getSize, Option.bind_some, trim_decimal, parseInteger_decimal_eq,
      if_neg (Nat.not_lt.mpr hn)]
    rfl
  rw [readStreamRequest_size, StreamRequest.check, StreamRequest.isEmpty, hsize]
  exact ⟨_, rfl⟩

section Request

variable {charset : Charset} {separator : LineSeparator} {text : Text}

theorem length_separated_ne_zero : (text ++ separator.text).length ≠ 0 := by
  rw [List.length_append]
  cases separator <;> simp [LineSeparator.text]

theorem SendsText.sentAsIs (h : SendsText charset separator text) :
    SentAsIs charset (text ++ separator.text) := by
  obtain ⟨request, hread, hsize⟩ := h ⟨0, true, [], []⟩ .eof
  rw [inputRequest_eq] at hread
  have hshort : (text ++ separator.text).length < 2 ^ 31 := by
    by_contra hlong
    obtain ⟨stop, hstop⟩ := readStreamRequest_of_le ⟨0, true, [], []⟩ .eof (Nat.not_lt.mp hlong)
      (charset.encode (stripMargin (inputMargin ++ (text ++ separator.text))))
    exact nomatch hstop.symm.trans hread
  rw [readStreamRequest_header _ _ hshort, if_neg length_separated_ne_zero] at hread
  obtain ⟨rfl, hbody⟩ := Prod.mk.inj (Except.ok.inj hread)
  rw [getSize_decimal hshort] at hsize
  obtain ⟨hreturn, hmargin⟩ := (encode_stripMargin_inputMargin charset _).mp hbody
  exact ⟨hshort, by exact_mod_cast hsize.symm, hreturn, hmargin⟩

theorem SentAsIs.sendsText (h : SentAsIs charset (text ++ separator.text)) :
    SendsText charset separator text := by
  intro socket ending
  have hbody := (encode_stripMargin_inputMargin charset _).mpr ⟨h.unreturned, h.unmargined⟩
  rw [inputRequest_eq, readStreamRequest_header _ _ h.short, if_neg length_separated_ne_zero, hbody]
  exact ⟨_, rfl, by rw [getSize_decimal h.short, h.encoded]⟩

end Request

/-- The text arrives as one request exactly when it is sent as it is. -/
theorem sendsText_iff (charset : Charset) (separator : LineSeparator) (text : Text) :
    SendsText charset separator text ↔ SentAsIs charset (text ++ separator.text) :=
  ⟨SendsText.sentAsIs, SentAsIs.sendsText⟩

/-- A letter with an accent takes two bytes, of which the last is not announced; and a line
that starts by a bar is sent without it. -/
theorem not_sendsText_accent :
    ¬ SendsText utf8 .unix [0xE9] ∧ ¬ SendsText utf8 .unix (asciiText (ascii "a\n |b")) := by
  refine ⟨fun h => absurd h.sentAsIs.encoded (by decide), fun h => ?_⟩
  exact h.sentAsIs.unmargined [32, 124, 98] (by decide) rfl

end GroovyClient
end GroovyServ

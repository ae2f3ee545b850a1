import GroovyServ.DumpHex

/-!
# Reading a hex dump back

The loop of `dumpHex` cuts a range of bytes into rows of sixteen, and the lines show the
bytes of the rows that are not 0. So a dump has the bytes of the range when none is 0, as
long as the `int` that counts the rows does not overflow.
-/

namespace GroovyServ.Server

/-- The lines of a dump show the bytes of a range, sixteen on each line but the last, and a
character for each byte. -/
structure Shows (text : Text) (bytes : Bytes) : Prop where
  digits : ((dumpedLines text).map readDigits).flatten = bytes
  full : ∀ line ∈ (dumpedLines text).dropLast, (readDigits line).length = 16
  characters : ∀ line ∈ dumpedLines text, (asciiColumn line).length = (readDigits line).length

def dumpedRange (buf : JByteArray) (offset length : ℕ) : Bytes :=
  (buf.val.take (offset + length)).drop offset

def DumpsExactly (isWindows : Bool) (buf : JByteArray) (offset length : ℕ) : Prop :=
  ∃ text, dumpHex isWindows buf offset length = .ok text ∧
    Shows text (dumpedRange buf offset length)

/-- The index after the last line is an `int`. -/
def LinesFit (maxIndex startIndex : ℕ) : Prop :=
  maxIndex ≤ startIndex ∨ startIndex + 16 * ((maxIndex - startIndex + 15) / 16) < 2 ^ 31

instance (maxIndex startIndex : ℕ) : Decidable (LinesFit maxIndex startIndex) :=
  inferInstanceAs (Decidable (_ ∨ _))

theorem mem_intercalate {columns : List Text} {ch : UInt16}
    (hch : ch ∈ [32].intercalate columns) : ch = 32 ∨ ∃ t ∈ columns, ch ∈ t := by
  induction columns with
  | nil => cases hch
  | cons t columns ih =>
    cases columns with
    | nil =>
      rw [List.intercalate_singleton] at hch
      exact .inr ⟨t, List.mem_cons_self, hch⟩
    | cons u columns =>
      rw [List.intercalate_cons_cons, List.mem_append, List.mem_append, List.mem_singleton] at hch
      rcases hch with (hch | hch) | hch
      · exact .inr ⟨t, List.mem_cons_self, hch⟩
      · exact .inl hch
      · rcases ih hch with hch | ⟨v, hv, hch⟩
        · exact .inl hch
        · exact .inr ⟨v, List.mem_cons_of_mem _ hv, hch⟩

theorem toDisplayDigit_ge {b : Option UInt8} {ch : UInt16} (hch : ch ∈ toDisplayDigit b) :
    32 ≤ ch.toNat := by
  rw [toDisplayDigit] at hch
  cases hshown : b.filter (· ≠ 0) with
  | none =>
    rw [hshown] at hch
    rcases List.mem_pair.mp hch with rfl | rfl <;> decide
  | some b =>
    have hb : b.toNat < 256 := b.toNat_lt
    rw [hshown] at hch
    rcases List.mem_pair.mp hch with rfl | rfl <;> exact hexDigit_ge (by omega)

theorem dumpLine_ge {elementsAtLine : Bytes} {ch : UInt16} (hch : ch ∈ dumpLine elementsAtLine) :
    32 ≤ ch.toNat := by
  rw [dumpLine, List.mem_append, List.mem_append] at hch
  rcases hch with hch | hch | hch
  · rcases mem_intercalate hch with rfl | ⟨t, ht, hch⟩
    · decide
    · obtain ⟨b, -, rfl⟩ := List.mem_map.mp ht
      exact toDisplayDigit_ge hch
  · simp only [List.mem_cons, List.not_mem_nil, or_false] at hch
    rcases hch with rfl | rfl | rfl <;> decide
  · obtain ⟨t, ht, hch⟩ := List.mem_flatten.mp hch
    obtain ⟨b, -, rfl⟩ := List.mem_map.mp ht
    rw [toDisplayAscii_eq] at hch
    obtain ⟨b, -, rfl⟩ := List.mem_map.mp hch
    rw [displayChar]
    split_ifs with hprint
    · exact (decide_eq_true_eq.mp hprint).1
    · decide

theorem dumpLine_unbroken (elementsAtLine : Bytes) : Unbroken (dumpLine elementsAtLine) :=
  ⟨fun h => absurd (dumpLine_ge h) (by decide), fun h => absurd (dumpLine_ge h) (by decide)⟩

theorem dumpLine_ne_nil (elementsAtLine : Bytes) : dumpLine elementsAtLine ≠ [] :=
  List.append_ne_nil_of_right_ne_nil _ (List.cons_ne_nil _ _)

theorem lineEnds_lineSeparator (isWindows : Bool) (rest : Text) :
    LineEnds (lineSeparator isWindows ++ rest) := by
  cases isWindows with
  | false => exact .inr ⟨_, .inl rfl⟩
  | true => exact .inr ⟨_, .inr rfl⟩

theorem readTextLines_lineSeparator (isWindows : Bool) (rest : Text) :
    readTextLines false (lineSeparator isWindows ++ rest) = [] :: readTextLines false rest := by
  cases isWindows <;> rfl

theorem readTextLines_lines (isWindows : Bool) {lines : List Text} {last : Text}
    (hlines : ∀ line ∈ lines, line ≠ [] ∧ Unbroken line) (hne : last ≠ []) (hlast : Unbroken last) :
    readTextLines false ((lines.flatMap fun line => line ++ lineSeparator isWindows) ++ last) =
      lines ++ [last] := by
  induction lines with
  | nil =>
    have hread := readTextLines_append hne hlast (.inl rfl)
    rw [List.append_nil] at hread
    exact hread
  | cons line lines ih =>
    obtain ⟨hline, hunbroken⟩ := hlines line List.mem_cons_self
    rw [List.flatMap_cons, List.append_assoc, List.append_assoc,
      readTextLines_append hline hunbroken (lineEnds_lineSeparator isWindows _),
      readTextLines_lineSeparator, List.tail_cons,
      ih fun line hline => hlines line (List.mem_cons_of_mem _ hline), List.cons_append]

theorem separatorLine_unbroken : Unbroken separatorLine := by
  constructor <;> decide +kernel

def dumpText (isWindows : Bool) (rows : List Bytes) : Text :=
  separatorLine ++ (lineSeparator isWindows ++
    (((rows.map dumpLine).flatMap fun line => line ++ lineSeparator isWindows) ++ separatorLine))

theorem dumpedLines_dumpText (isWindows : Bool) (rows : List Bytes) :
    dumpedLines (dumpText isWindows rows) = rows.map dumpLine := by
  have hne : separatorLine ≠ [] := List.cons_ne_nil _ _
  have hlines : ∀ line ∈ separatorLine :: rows.map dumpLine, line ≠ [] ∧ Unbroken line := by
    intro line hline
    rcases List.mem_cons.mp hline with rfl | hline
    · exact ⟨hne, separatorLine_unbroken⟩
    · obtain ⟨row, -, rfl⟩ := List.mem_map.mp hline
      exact ⟨dumpLine_ne_nil row, dumpLine_unbroken row⟩
  have hread := readTextLines_lines isWindows hlines hne separatorLine_unbroken
  rw [List.flatMap_cons, List.append_assoc, List.append_assoc] at hread
  rw [dumpedLines, dumpText, hread, List.cons_append, List.drop_one, List.tail_cons,
    List.dropLast_concat]

structure Rows (rows : List Bytes) (data : Bytes) : Prop where
  flatten : rows.flatten = data
  full : ∀ row ∈ rows.dropLast, row.length = 16
  short : ∀ row ∈ rows, row.length ≤ 16

theorem Rows.nil : Rows [] [] := ⟨rfl, fun _ h => absurd h List.not_mem_nil,
  fun _ h => absurd h List.not_mem_nil⟩

theorem Rows.cons {row rest data : Bytes} {rows : List Bytes} (h : Rows rows rest)
    (hdata : row ++ rest = data) (hrow : row.length ≤ 16)
    (hfull : rows ≠ [] → row.length = 16) : Rows (row :: rows) data where
  flatten := by rw [List.flatten_cons, h.flatten, hdata]
  full := by
    intro row' hrow'
    by_cases hrows : rows = []
    · subst hrows
      cases hrow'
    · rw [List.dropLast_cons_of_ne_nil hrows] at hrow'
      rcases List.mem_cons.mp hrow' with rfl | hrow'
      · exact hfull hrows
      · exact h.full row' hrow'
  short := by
    intro row' hrow'
    rcases List.mem_cons.mp hrow' with rfl | hrow'
    · exact hrow
    · exact h.short row' hrow'

theorem wrap32_next {s : ℕ} (hs : s + 16 < 2 ^ 31) :
    wrap32 ((s : ℤ) + numPerLine) = (s + 16 : ℕ) := by
  rw [wrap32_of_mem] <;> simp only [numPerLine] <;> omega

theorem wrap32_overflow {s : ℕ} (hs : s < 2 ^ 31) (hover : 2 ^ 31 ≤ s + 16) :
    wrap32 ((s : ℤ) + numPerLine) < 0 := by
  rw [wrap32_of_ge] <;> simp only [numPerLine] <;> omega

theorem rangeElements_eq (buf : Bytes) {s e : ℕ} (h : s ≤ e) :
    rangeElements buf s e = .ok ((buf.take e).drop s) := by
  rw [rangeElements, if_pos (Int.ofNat_le.mpr h), List.drop_take, ← Int.ofNat_sub h]
  rfl

section Loop

variable {buf : Bytes} {maxIndex fuel startIndex : ℕ}

theorem dumpLoop_done (h : maxIndex ≤ startIndex) :
    dumpLoop buf maxIndex (fuel + 1) startIndex = .ok [] := by
  rw [dumpLoop, if_neg (by omega)]

theorem dumpLoop_row (h : startIndex < maxIndex) (hnext : startIndex + 16 < 2 ^ 31) :
    dumpLoop buf maxIndex (fuel + 1) startIndex =
      (dumpLoop buf maxIndex fuel (startIndex + 16 : ℕ)).map
        (dumpLine (((buf.take maxIndex).drop startIndex).take 16) :: ·) := by
  have hend : min (wrap32 ((startIndex : ℤ) + numPerLine)) maxIndex =
      (min (startIndex + 16) maxIndex : ℕ) := by
    rw [wrap32_next hnext]
    omega
  have hrow : (buf.take (min (startIndex + 16) maxIndex)).drop startIndex =
      ((buf.take maxIndex).drop startIndex).take 16 := by
    rw [← List.take_take, List.drop_take, Nat.add_sub_cancel_left]
  rw [dumpLoop, if_pos (Int.ofNat_lt.mpr h)]
  dsimp only
  rw [hend, rangeElements_eq buf (by omega), hrow, wrap32_next hnext]
  cases dumpLoop buf maxIndex fuel (startIndex + 16 : ℕ) <;> rfl

theorem dumpLoop_cut (h : startIndex < maxIndex) (hmax : maxIndex < 2 ^ 31)
    (hnext : 2 ^ 31 ≤ startIndex + 16) :
    dumpLoop buf maxIndex (fuel + 1) startIndex = .error .outOfMemory := by
  have hneg := wrap32_overflow (h.trans hmax) hnext
  rw [dumpLoop, if_pos (Int.ofNat_lt.mpr h)]
  dsimp only
  rw [rangeElements, if_neg (by omega)]
  rfl

theorem dumpLoop_rows (hmax : maxIndex ≤ buf.length) (hfuel : maxIndex ≤ startIndex + fuel)
    (hfit : LinesFit maxIndex startIndex) :
    ∃ rows, dumpLoop buf maxIndex (fuel + 1) startIndex = .ok (rows.map dumpLine) ∧
      Rows rows ((buf.take maxIndex).drop startIndex) := by
  by_cases hmore : startIndex < maxIndex
  · induction fuel generalizing startIndex with
    | zero => exact absurd hmore (Nat.not_lt.mpr hfuel)
    | succ fuel ih =>
      have hnext : startIndex + 16 < 2 ^ 31 := by
        rcases hfit with hfit | hfit <;> omega
      have hdata := List.take_append_drop 16 ((buf.take maxIndex).drop startIndex)
      rw [List.drop_drop] at hdata
      rw [dumpLoop_row hmore hnext]
      by_cases hlast : maxIndex ≤ startIndex + 16
      · have hnone : (buf.take maxIndex).drop (startIndex + 16) = [] :=
          List.drop_eq_nil_of_le ((List.length_take_le _ _).trans hlast)
        rw [hnone] at hdata
        rw [dumpLoop_done hlast]
        exact ⟨[_], rfl, Rows.nil.cons hdata (List.length_take_le _ _) (absurd rfl)⟩
      · have hfit' : LinesFit maxIndex (startIndex + 16) := by
          rw [LinesFit] at hfit ⊢
          omega
        obtain ⟨rows, hloop, hrows⟩ := ih (by omega) hfit' (Nat.not_le.mp hlast)
        rw [hloop]
        refine ⟨_ :: rows, rfl, hrows.cons hdata (List.length_take_le _ _) fun _ => ?_⟩
        rw [List.length_take, List.length_drop, List.length_take]
        omega
  · have hdone : maxIndex ≤ startIndex := Nat.not_lt.mp hmore
    have hnone : (buf.take maxIndex).drop startIndex = [] :=
      List.drop_eq_nil_of_le ((List.length_take_le _ _).trans hdone)
    rw [dumpLoop_done hdone, hnone]
    exact ⟨[], rfl, Rows.nil⟩

/-- Else a line is cut at a negative index. -/
theorem dumpLoop_overflow (hmax : maxIndex < 2 ^ 31)
    (hfuel : maxIndex ≤ startIndex + fuel) (hfit : ¬ LinesFit maxIndex startIndex) :
    dumpLoop buf maxIndex (fuel + 1) startIndex = .error .outOfMemory := by
  induction fuel generalizing startIndex with
  | zero => exact absurd (.inl hfuel) hfit
  | succ fuel ih =>
    rw [LinesFit, not_or, not_le, not_lt] at hfit
    obtain ⟨hmore, hover⟩ := hfit
    by_cases hnext : startIndex + 16 < 2 ^ 31
    · have hfit' : ¬ LinesFit maxIndex (startIndex + 16) := by
        rw [LinesFit]
        omega
      rw [dumpLoop_row hmore hnext, ih (by omega) hfit']
      rfl
    · exact dumpLoop_cut hmore hmax (Nat.not_lt.mp hnext)

end Loop

theorem shows_dumpText (isWindows : Bool) {rows : List Bytes} {data : Bytes}
    (hrows : Rows rows data) :
    Shows (dumpText isWindows rows) data ↔ ∀ b ∈ data, b ≠ 0 := by
  have hdigits : ∀ row ∈ rows, readDigits (dumpLine row) = row.filter (· ≠ 0) :=
    fun row hrow => (dumpLine_shows (hrows.short row hrow)).1
  have hshown : (((rows.map dumpLine).map readDigits).flatten) = data.filter (· ≠ 0) := by
    rw [← hrows.flatten, List.filter_flatten, List.map_map]
    exact congrArg List.flatten (List.map_congr_left hdigits)
  constructor
  · intro h b hb
    have hall := h.digits
    rw [dumpedLines_dumpText, hshown] at hall
    exact decide_eq_true_eq.mp (List.filter_eq_self.mp hall b hb)
  · intro hdata
    have hrow : ∀ row ∈ rows, row.filter (· ≠ 0) = row := by
      intro row hrow
      refine List.filter_eq_self.mpr fun b hb => decide_eq_true (hdata b ?_)
      rw [← hrows.flatten]
      exact List.mem_flatten.mpr ⟨row, hrow, hb⟩
    refine ⟨?_, ?_, ?_⟩ <;> rw [dumpedLines_dumpText]
    · rw [hshown, List.filter_eq_self]
      exact fun b hb => decide_eq_true (hdata b hb)
    · rw [← List.map_dropLast]
      intro line hline
      obtain ⟨row, hmem, rfl⟩ := List.mem_map.mp hline
      have hmem' := List.mem_of_mem_dropLast hmem
      rw [hdigits row hmem', hrow row hmem']
      exact hrows.full row hmem
    · intro line hline
      obtain ⟨row, hmem, rfl⟩ := List.mem_map.mp hline
      obtain ⟨hbytes, hascii⟩ := dumpLine_shows (hrows.short row hmem)
      rw [hbytes, hascii, List.length_map]

theorem dumpHex_eq (isWindows : Bool) (buf : JByteArray) {offset length : ℕ}
    (hsum : offset + length < 2 ^ 31) :
    dumpHex isWindows buf offset length =
      (dumpLoop buf.val (min buf.val.length (offset + length) : ℕ) (buf.val.length + 1) offset).map
        fun lines => separatorLine ++ (lineSeparator isWindows ++
          ((lines.flatMap fun line => line ++ lineSeparator isWindows) ++ separatorLine)) := by
  have hmax : min (buf.val.length : ℤ) (wrap32 ((offset : ℤ) + length)) =
      (min buf.val.length (offset + length) : ℕ) := by
    rw [wrap32_of_mem _ (by omega) (by omega)]
    omega
  rw [dumpHex, if_neg (by omega)]
  dsimp only
  rw [hmax]
  cases dumpLoop buf.val (min buf.val.length (offset + length) : ℕ) (buf.val.length + 1) offset <;>
    rfl

/-- A dump shows its range just when no byte of it is 0, which Groovy takes for a null, and
the counter of its lines does not overflow. -/
theorem dumpsExactly_iff (isWindows : Bool) (buf : JByteArray) (offset length : ℕ)
    (hsum : offset + length < 2 ^ 31) :
    DumpsExactly isWindows buf offset length ↔
      (∀ b ∈ dumpedRange buf offset length, b ≠ 0) ∧
        LinesFit (min buf.val.length (offset + length)) offset := by
  have hmax : min buf.val.length (offset + length) ≤ buf.val.length := Nat.min_le_left _ _
  have hfuel : min buf.val.length (offset + length) ≤ offset + buf.val.length := by omega
  rw [DumpsExactly, dumpHex_eq isWindows buf hsum]
  by_cases hfit : LinesFit (min buf.val.length (offset + length)) offset
  · obtain ⟨rows, hloop, hrows⟩ := dumpLoop_rows hmax hfuel hfit
    have hrange : (buf.val.take (min buf.val.length (offset + length))).drop offset =
        dumpedRange buf offset length := by
      rw [dumpedRange, Nat.min_comm, ← List.take_take, List.take_length]
    have hshows := shows_dumpText isWindows hrows
    rw [hrange] at hshows
    rw [hloop, and_iff_left hfit, ← hshows]
    constructor
    · rintro ⟨text, htext, h⟩
      cases htext
      exact h
    · exact fun h => ⟨_, rfl, h⟩
  · rw [dumpLoop_overflow (by omega) hfuel hfit]
    constructor
    · rintro ⟨text, hnone, -⟩
      cases hnone
    · exact fun h => absurd h.2 hfit

def arrayOfLetters : JByteArray := ⟨[65, 66], by decide⟩

theorem dumpsExactly_letters : DumpsExactly true arrayOfLetters 1 7 :=
  (dumpsExactly_iff true arrayOfLetters 1 7 (by decide)).mpr ⟨by decide +kernel, by decide⟩

def arrayWithZero : JByteArray := ⟨[65, 0, 66], by decide⟩

theorem not_dumpsExactly_zero : ¬ DumpsExactly false arrayWithZero 0 3 := by
  rintro ⟨text, htext, h⟩
  have hrows : Rows [[65, 0, 66]] [65, 0, 66] :=
    Rows.nil.cons (List.append_nil _) (by decide) (absurd rfl)
  have hdump : dumpHex false arrayWithZero 0 3 = .ok (dumpText false [[65, 0, 66]]) := rfl
  obtain rfl := Except.ok.inj (hdump.symm.trans htext)
  exact (shows_dumpText false hrows).mp h 0 (by decide) rfl

end GroovyServ.Server

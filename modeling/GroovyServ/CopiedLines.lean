import GroovyServ.EditedFiles
import GroovyServ.DumpHexRoundTrip

/-!
# Lines that are written as they are read

With `-p` a script that returns the line writes every line back with the separator of
the platform. A file is then the same as before exactly when each of its lines ends so,
the last one included.
-/

namespace GroovyServ

open Server

variable (isWindows : Bool)

def endedLines (lines : List Text) : Text :=
  lines.flatMap fun line => line ++ lineSeparator isWindows

/-- Every line ends as a line does on the platform. -/
def Terminated (text : Text) : Prop :=
  ∃ lines : List Text, (∀ line ∈ lines, Unbroken line) ∧ text = endedLines isWindows lines

/-- Only a line feed is encoded by its byte. -/
def Charset.FeedsLines (charset : Charset) : Prop :=
  ∀ text rest, charset.encode text = 10 :: rest → text.head? = some 10

theorem ofNat_ne_lf {n : ℕ} (h : 128 ≤ n ∧ n < 256) : UInt8.ofNat n ≠ 10 := by
  intro heq
  have hval := congrArg UInt8.toNat heq
  rw [UInt8.toNat_ofNat'] at hval
  change n % 256 = 10 at hval
  omega

theorem utf8Unit_feedsLines {ch : UInt16} {bytes rest : Bytes}
    (h : utf8Unit ch ++ bytes = 10 :: rest) : ch = 10 := by
  have hlt := UInt16.toNat_lt ch
  rw [utf8Unit] at h
  split_ifs at h with hascii htwo hlow
  · have hval := congrArg UInt8.toNat (List.cons.inj h).1
    rw [UInt16.toNat_toUInt8] at hval
    change ch.toNat % 256 = 10 at hval
    apply UInt16.toNat_inj.mp
    change ch.toNat = 10
    omega
  · exact absurd (List.cons.inj h).1 (ofNat_ne_lf (by omega))
  · exact absurd (List.cons.inj h).1 (by decide)
  · exact absurd (List.cons.inj h).1 (ofNat_ne_lf (by omega))

theorem utf8Pair_feedsLines {high low : UInt16} {bytes rest : Bytes}
    (hhigh : isHighSurrogate high = true) (hlow : isLowSurrogate low = true) :
    utf8Pair high low ++ bytes ≠ 10 :: rest := by
  intro h
  obtain ⟨-, hhigh⟩ := of_decide_eq_true hhigh
  obtain ⟨-, hlow⟩ := of_decide_eq_true hlow
  rw [UInt16.le_iff_toNat_le] at hhigh hlow
  change high.toNat ≤ 0xDBFF at hhigh
  change low.toNat ≤ 0xDFFF at hlow
  exact absurd (List.cons.inj h).1 (ofNat_ne_lf (by omega))

theorem utf8_feedsLines : utf8.FeedsLines := by
  intro text rest h
  change utf8Loop none text = 10 :: rest at h
  cases text with
  | nil => cases h
  | cons ch text =>
    rw [utf8Loop] at h
    split_ifs at h with hhigh
    · cases text with
      | nil => exact absurd (List.cons.inj h).1 (by decide)
      | cons low text =>
        rw [utf8Loop] at h
        split_ifs at h with hlow
        · exact absurd h (utf8Pair_feedsLines hhigh hlow)
        · exact absurd (List.cons.inj h).1 (by decide)
        · exact absurd (List.cons.inj h).1 (by decide)
    · exact congrArg some (utf8Unit_feedsLines h)

theorem endedLines_cons (line : Text) (lines : List Text) :
    endedLines isWindows (line :: lines) =
      line ++ (lineSeparator isWindows ++ endedLines isWindows lines) := by
  rw [endedLines, List.flatMap_cons, List.append_assoc]
  rfl

theorem readTextLines_endedLines {lines : List Text} (hlines : ∀ line ∈ lines, Unbroken line) :
    readTextLines false (endedLines isWindows lines) = lines := by
  induction lines with
  | nil => rfl
  | cons line lines ih =>
    obtain ⟨hline, hlines⟩ := List.forall_mem_cons.mp hlines
    rw [endedLines_cons]
    by_cases hnil : line = []
    · rw [hnil, List.nil_append, readTextLines_lineSeparator, ih hlines]
    · rw [readTextLines_append hnil hline (lineEnds_lineSeparator isWindows _),
        readTextLines_lineSeparator, List.tail_cons, ih hlines]

theorem unbroken_nil : Unbroken [] := ⟨List.not_mem_nil, List.not_mem_nil⟩

theorem unbroken_of_mem_readTextLines (text : Text) :
    ∀ line ∈ readTextLines false text, Unbroken line := by
  induction text using lines_induction with
  | nil => exact List.forall_mem_nil _
  | lf rest ih =>
    rw [readTextLines_lf]
    exact List.forall_mem_cons.mpr ⟨unbroken_nil, ih⟩
  | crlf rest ih =>
    rw [readTextLines_crlf]
    exact List.forall_mem_cons.mpr ⟨unbroken_nil, ih⟩
  | cr rest hrest ih =>
    rw [readTextLines_cr hrest]
    exact List.forall_mem_cons.mpr ⟨unbroken_nil, ih⟩
  | line line rest hne hline hrest ih =>
    rw [readTextLines_append hne hline hrest]
    exact List.forall_mem_cons.mpr ⟨hline, fun l hl => ih l (List.mem_of_mem_tail hl)⟩

theorem terminated_iff (text : Text) :
    Terminated isWindows text ↔ endedLines isWindows (readTextLines false text) = text := by
  constructor
  · rintro ⟨lines, hlines, rfl⟩
    rw [readTextLines_endedLines isWindows hlines]
  · intro h
    exact ⟨readTextLines false text, unbroken_of_mem_readTextLines text, h.symm⟩

theorem endedLines_break {text rest : Text}
    (hlines : readTextLines false text = [] :: readTextLines false rest) :
    endedLines isWindows (readTextLines false text) =
      lineSeparator isWindows ++ endedLines isWindows (readTextLines false rest) := by
  rw [hlines, endedLines_cons, List.nil_append]

theorem endedLines_append {line rest : Text} (hne : line ≠ []) (hline : Unbroken line)
    (hrest : LineEnds rest) (hnil : rest ≠ []) :
    endedLines isWindows (readTextLines false (line ++ rest)) =
      line ++ endedLines isWindows (readTextLines false rest) := by
  rw [readTextLines_append hne hline hrest, endedLines_cons, readTextLines_lineEnds hrest hnil,
    List.tail_cons, endedLines_cons, List.nil_append]

theorem lineEnds_endedLines {rest : Text} (h : LineEnds rest) :
    LineEnds (endedLines isWindows (readTextLines false rest)) := by
  by_cases hnil : rest = []
  · subst hnil
    exact .inl rfl
  · rw [readTextLines_lineEnds h hnil, endedLines_cons, List.nil_append]
    exact lineEnds_lineSeparator isWindows _

theorem Charset.encode_lineSeparator (charset : Charset) (text : Text) :
    charset.encode (lineSeparator isWindows ++ text) =
      (if isWindows then [13, 10] else [10]) ++ charset.encode text := by
  cases isWindows with
  | false => exact charset.encode_cons (by decide) text
  | true =>
    exact (charset.encode_cons (by decide) _).trans
      (congrArg (13 :: ·) (charset.encode_cons (by decide) text))

theorem endedLines_of_encode_eq {charset : Charset} (hfeeds : charset.FeedsLines) (text : Text)
    (h : charset.encode (endedLines isWindows (readTextLines false text)) = charset.encode text) :
    endedLines isWindows (readTextLines false text) = text := by
  induction text using lines_induction with
  | nil => rfl
  | lf rest ih =>
    rw [endedLines_break isWindows (readTextLines_lf rest)] at h ⊢
    rw [charset.encode_lineSeparator, charset.encode_cons (by decide)] at h
    cases isWindows with
    | false => exact congrArg (10 :: ·) (ih (List.cons_inj_right _ |>.mp h))
    | true => exact absurd (List.cons.inj h).1 (by decide)
  | crlf rest ih =>
    rw [endedLines_break isWindows (readTextLines_crlf rest)] at h ⊢
    rw [charset.encode_lineSeparator, charset.encode_cons (by decide),
      charset.encode_cons (by decide)] at h
    cases isWindows with
    | false => exact absurd (List.cons.inj h).1 (by decide)
    | true =>
      exact congrArg (13 :: 10 :: ·) (ih (List.cons.inj (List.cons.inj h).2).2)
  | cr rest hrest ih =>
    rw [endedLines_break isWindows (readTextLines_cr hrest), charset.encode_lineSeparator,
      charset.encode_cons (by decide)] at h
    cases isWindows with
    | false => exact absurd (List.cons.inj h).1 (by decide)
    | true => exact absurd (hfeeds rest _ (List.cons.inj h).2.symm) hrest
  | line line rest hne hline hrest ih =>
    by_cases hnil : rest = []
    · subst hnil
      have hlines := readTextLines_append hne hline (.inl rfl : LineEnds [])
      rw [hlines, endedLines_cons, charset.encode_lineEnds _ (lineEnds_lineSeparator isWindows _),
        charset.encode_lineEnds _ (.inl rfl : LineEnds []), List.append_right_inj,
        charset.encode_lineSeparator, charset.encode_nil] at h
      cases isWindows <;> exact absurd h (List.cons_ne_nil _ _)
    · rw [endedLines_append isWindows hne hline hrest hnil] at h ⊢
      rw [charset.encode_lineEnds _ (lineEnds_endedLines isWindows hrest),
        charset.encode_lineEnds _ hrest, List.append_right_inj] at h
      rw [ih h]

theorem encode_endedLines_eq_iff {charset : Charset} (hfeeds : charset.FeedsLines)
    (text : Text) :
    charset.encode (endedLines isWindows (readTextLines false text)) = charset.encode text ↔
      Terminated isWindows text := by
  rw [terminated_iff]
  exact ⟨endedLines_of_encode_eq isWindows hfeeds text, fun h => by rw [h]⟩

namespace GroovyMain2

open Statements

variable {σ : Type} (env : FileEnv) (main : GroovyMain2) {s : LineScript σ}

structure Copies (s : LineScript σ) : Prop where
  begin : ∀ p own, s.begin p own = ⟨.error .missingMethod, [], p, own⟩
  run : ∀ p own, s.run p own = ⟨.ok p.line, [], p, own⟩
  finish : ∀ p own, s.finish p own = ⟨.error .missingMethod, [], p, own⟩

/-- Every line can be split, when it has to be. -/
def Splits : Prop :=
  main.autoSplit = true → ∀ line, ∃ parts, env.split main.splitPattern line = .ok parts

variable {main} (hs : Copies s) (hauto : main.autoOutput = true) (hsplit : Splits env main)

theorem runOn_call {method : Properties → σ → Called σ} {t : Scripting σ}
    {result : Except Thrown (Option Text)}
    (h : method t.properties t.own = ⟨result, [], t.properties, t.own⟩) :
    (call method).runOn t = (.ok result, t) := by
  rw [call, runOn_bind, runOn_get]
  dsimp only
  rw [runOn_bind, runOn_modify, h]
  dsimp only
  rw [List.append_nil]
  rfl

theorem runOn_invokeIfPresent_missing {method : Properties → σ → Called σ} {t : Scripting σ}
    (h : method t.properties t.own = ⟨.error .missingMethod, [], t.properties, t.own⟩) :
    (invokeIfPresent method).runOn t = (.ok (), t) := by
  rw [invokeIfPresent, runOn_bind, runOn_call h]
  rfl

include hs hauto

theorem runOn_runAndPrint {line : Text} {t : Scripting σ} (hline : t.properties.line = some line) :
    (runAndPrint env main s).runOn t =
      (.ok (), { t with written := t.written ++ (line ++ lineSeparator env.isWindows) }) := by
  rw [runAndPrint, runOn_bind, runOn_call (hs.run _ _), hline]
  dsimp only
  rw [if_pos hauto]
  rfl

include hsplit

theorem runOn_processLine (line : Text) {t : Scripting σ} {count : ℤ}
    (hcount : t.properties.count = some count) :
    ∃ p : Properties, p.count = some (count + 1) ∧
      (processLine env main s line).runOn t =
        (.ok (), ⟨p, t.own, t.written ++ (line ++ lineSeparator env.isWindows)⟩) := by
  rw [processLine, runOn_bind, setProperties, runOn_modify]
  dsimp only
  rw [runOn_bind, runOn_get]
  dsimp only
  rw [hcount]
  dsimp only
  rw [runOn_bind, setProperties, runOn_modify]
  dsimp only
  by_cases hauto' : main.autoSplit = true
  · obtain ⟨parts, hparts⟩ := hsplit hauto' line
    rw [if_pos hauto', runOn_bind, runOn_ofExcept, hparts]
    dsimp only
    rw [runOn_bind, setProperties, runOn_modify]
    exact ⟨_, rfl, runOn_runAndPrint env hs hauto rfl⟩
  · rw [if_neg hauto']
    exact ⟨_, rfl, runOn_runAndPrint env hs hauto rfl⟩

theorem runOn_processLines (lines : List Text) {t : Scripting σ} {count : ℤ}
    (hcount : t.properties.count = some count) :
    ∃ p : Properties, (processLines env main s lines).runOn t =
      (.ok (), ⟨p, t.own, t.written ++ endedLines env.isWindows lines⟩) := by
  induction lines generalizing t count with
  | nil =>
    refine ⟨t.properties, ?_⟩
    rw [processLines, runOn_pure]
    exact congrArg (fun written => (_, Scripting.mk t.properties t.own written))
      (List.append_nil _).symm
  | cons line lines ih =>
    obtain ⟨p, hp, hline⟩ := runOn_processLine env hs hauto hsplit line hcount
    rw [processLines, runOn_bind, hline]
    dsimp only
    obtain ⟨p', hlines⟩ := ih (t := ⟨p, t.own, t.written ++ (line ++ lineSeparator env.isWindows)⟩)
      hp
    refine ⟨p', ?_⟩
    rw [hlines, endedLines_cons, List.append_assoc, List.append_assoc]

/-- What the script writes is the lines that it has read, each with a separator. -/
theorem reading_copies (text : Text) (script : Scripting σ) :
    (reading env main s text script).1 = .ok () ∧
      (reading env main s text script).2.written =
        endedLines env.isWindows (readTextLines false text) := by
  rw [reading, processReader, runOn_bind, setProperties, runOn_modify]
  dsimp only
  rw [runOn_bind, runOn_invokeIfPresent_missing (hs.begin _ _)]
  dsimp only
  obtain ⟨p, hlines⟩ := runOn_processLines env hs hauto hsplit (readTextLines false text)
    (t := ⟨{ script.properties with count := some 0 }, script.own, []⟩) rfl
  rw [runOn_bind, hlines]
  dsimp only
  rw [runOn_invokeIfPresent_missing (hs.finish _ _)]
  exact ⟨rfl, List.nil_append _⟩

/-- When `groovy -p -i .bak -e line` has ended in order, a file has the bytes that it had
before exactly if all of its lines ended as the platform ends them. -/
theorem unchanged_iff_terminated {ext : Bytes} {filenames : List Bytes} {d : Desk σ}
    (hedit : main.editFiles = true) (hext : main.backupExtension = some ext)
    (hsep : Separate env ext d.files filenames) (hfeeds : env.charset.FeedsLines)
    (hok : ((processArguments env main s filenames).runOn d).1 = .ok ()) {n : Bytes}
    (hn : n ∈ filenames) {bytes : Bytes} (hbytes : d.files (fileOf env d.files n) = some bytes)
    (hdecode : env.charset.encode (env.decode bytes) = bytes) :
    ((processArguments env main s filenames).runOn d).2.files (fileOf env d.files n) =
      some bytes ↔ Terminated env.isWindows (env.decode bytes) := by
  obtain ⟨script, hwritten⟩ := processArguments_written env main s hedit hext d hsep hok n hn
  have htext := (reading_copies env hs hauto hsplit (env.decode bytes) script).2
  rw [hbytes, Option.getD_some, htext] at hwritten
  rw [hwritten, Option.some_inj, ← encode_endedLines_eq_iff env.isWindows hfeeds, hdecode]

omit hs hauto hsplit

theorem lineScript_copies : Copies (lineScript none) where
  begin _ _ := rfl
  run _ _ := rfl
  finish _ _ := rfl

theorem unchanged_iff_terminated_sample :
    ((processArguments asciiFiles sampleMain (lineScript none) [ascii "a", ascii "b"]).runOn
      sampleDesk).2.files (ascii "b") = some (ascii "z") ↔
        Terminated false (asciiText (ascii "z")) :=
  unchanged_iff_terminated asciiFiles lineScript_copies rfl (fun h => by cases h) rfl rfl
    sampleDesk_separate utf8_feedsLines (by decide +kernel)
    (List.mem_cons_of_mem _ List.mem_cons_self) rfl (by decide +kernel)

end GroovyMain2
end GroovyServ

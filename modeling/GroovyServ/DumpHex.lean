import GroovyServ.JavaText
import GroovyServ.ResponseStream

/-!
# The hex dump of the log

`LogUtils.dumpHex` prints sixteen bytes on a line, in hexadecimal and as characters. It
completes the last line with nulls and prints nothing for these, and Groovy's truth takes
the byte 0 for a null. `dumpedLines` and `readDigits` read the text back.
-/

namespace GroovyServ.Server

/-- How `dumpHex` fails: its argument is refused, a range has more elements than a list can
hold, or its loop goes on. -/
inductive DumpFailure where
  | illegalArgument (message : Bytes)
  | outOfMemory
  | diverges

def separatorLine : Text :=
  asciiText (ascii "+-----------+-----------+-----------+-----------+----------------+")

def numPerLine : ℕ := 16

def hexDigit (n : ℕ) : UInt16 := UInt16.ofNat (if n < 10 then 48 + n else 87 + n)

/-- `String.format("%02x", b)`, which takes a byte as unsigned. -/
def formatHex (b : UInt8) : Text := [hexDigit (b.toNat / 16), hexDigit (b.toNat % 16)]

def byteChar (b : UInt8) : UInt16 :=
  if b.toNat < 128 then UInt16.ofNat b.toNat else UInt16.ofNat (65280 + b.toNat)

def isPrint (c : UInt16) : Bool := decide (32 ≤ c.toNat ∧ c.toNat ≤ 126)

def toDisplayDigit (b : Option UInt8) : Text :=
  match b.filter (· ≠ 0) with
  | some b => formatHex b
  | none => [32, 32]

def toDisplayAscii (b : Option UInt8) : Text :=
  match b.filter (· ≠ 0) with
  | some b => [if isPrint (byteChar b) then byteChar b else 63]
  | none => []

def dumpLine (elementsAtLine : Bytes) : Text :=
  let completed := (List.range 16).map fun it => elementsAtLine[it]?.filter (· ≠ 0)
  let digitPart := [32].intercalate (completed.map toDisplayDigit)
  let asciiPart := (completed.map toDisplayAscii).flatten
  digitPart ++ ([32, 124, 32] ++ asciiPart)

/-- `buf[startIndex..<endIndex]`; a range that runs backwards from an index to one that has
overflowed has more elements than a list. -/
def rangeElements (buf : Bytes) (startIndex endIndex : ℤ) : Except DumpFailure Bytes :=
  if startIndex ≤ endIndex then
    .ok ((buf.drop startIndex.toNat).take (endIndex - startIndex).toNat)
  else .error .outOfMemory

def dumpLoop (buf : Bytes) (maxIndex : ℤ) : ℕ → ℤ → Except DumpFailure (List Text)
  | 0, _ => .error .diverges
  | fuel + 1, startIndex =>
    if startIndex < maxIndex then do
      let endIndex := min (wrap32 (startIndex + numPerLine)) maxIndex
      let elementsAtLine ← rangeElements buf startIndex endIndex
      let lines ← dumpLoop buf maxIndex fuel (wrap32 (startIndex + numPerLine))
      .ok (dumpLine elementsAtLine :: lines)
    else .ok []

def lineSeparator (isWindows : Bool) : Text := if isWindows then [13, 10] else [10]

/-- `dumpHex`. Each line advances by sixteen bytes, so their number is fuel enough. -/
def dumpHex (isWindows : Bool) (buf : JByteArray) (offset length : ℤ) :
    Except DumpFailure Text :=
  if offset < 0 ∨ length < 0 then
    .error (.illegalArgument (ascii "Must be positive: offset=" ++ (decimalInt offset ++
      (ascii ", length=" ++ decimalInt length))))
  else do
    let maxIndex := min (buf.val.length : ℤ) (wrap32 (offset + length))
    let lines ← dumpLoop buf.val maxIndex (buf.val.length + 1) offset
    .ok (separatorLine ++ (lineSeparator isWindows ++
      ((lines.flatMap fun line => line ++ lineSeparator isWindows) ++ separatorLine)))

def dumpedLines (text : Text) : List Text := ((readTextLines false text).drop 1).dropLast

def hexValue (c : UInt16) : Option ℕ :=
  if 48 ≤ c.toNat ∧ c.toNat ≤ 57 then some (c.toNat - 48)
  else if 97 ≤ c.toNat ∧ c.toNat ≤ 102 then some (c.toNat - 87)
  else none

def readColumn : Text → Option UInt8
  | [c, d] => do
    let high ← hexValue c
    let low ← hexValue d
    some (UInt8.ofNat (16 * high + low))
  | _ => none

def readDigits (line : Text) : Bytes :=
  (List.range 16).filterMap fun i => readColumn ((line.drop (3 * i)).take 2)

def asciiColumn (line : Text) : Text := line.drop 50

theorem hexValue_hexDigit {n : ℕ} (hn : n < 16) : hexValue (hexDigit n) = some n := by
  interval_cases n <;> rfl

theorem hexDigit_ge {n : ℕ} (hn : n < 16) : 32 ≤ (hexDigit n).toNat := by
  interval_cases n <;> decide

theorem readColumn_formatHex (b : UInt8) : readColumn (formatHex b) = some b := by
  have hb : b.toNat < 256 := b.toNat_lt
  have hvalue : UInt8.ofNat (16 * (b.toNat / 16) + b.toNat % 16) = b := by
    rw [Nat.div_add_mod, UInt8.ofNat_toNat]
  have hhigh : hexValue (hexDigit (b.toNat / 16)) = some (b.toNat / 16) :=
    hexValue_hexDigit (by omega)
  have hlow : hexValue (hexDigit (b.toNat % 16)) = some (b.toNat % 16) :=
    hexValue_hexDigit (by omega)
  rw [formatHex, readColumn, hhigh, hlow]
  exact congrArg some hvalue

theorem readColumn_toDisplayDigit (b : Option UInt8) :
    readColumn (toDisplayDigit b) = b.filter (· ≠ 0) := by
  rw [toDisplayDigit]
  cases b.filter (· ≠ 0) with
  | none => rfl
  | some b => exact readColumn_formatHex b

theorem length_toDisplayDigit (b : Option UInt8) : (toDisplayDigit b).length = 2 := by
  rw [toDisplayDigit]
  cases b.filter (· ≠ 0) <;> rfl

theorem column_intercalate {columns : List Text} (hcolumns : ∀ t ∈ columns, t.length = 2)
    {i : ℕ} (hi : i < columns.length) (rest : Text) :
    (([32].intercalate columns ++ rest).drop (3 * i)).take 2 = columns[i] := by
  induction columns generalizing i with
  | nil => cases hi
  | cons t columns ih =>
    obtain ⟨c, d, rfl⟩ := List.length_eq_two.mp (hcolumns t List.mem_cons_self)
    cases columns with
    | nil =>
      obtain rfl : i = 0 := by simpa using hi
      rw [List.intercalate_singleton]
      rfl
    | cons u columns =>
      rw [List.intercalate_cons_cons]
      cases i with
      | zero => rfl
      | succ i =>
        have hdrop : 3 * (i + 1) = 3 * i + 3 := rfl
        rw [hdrop]
        exact ih (fun t ht => hcolumns t (List.mem_cons_of_mem _ ht))
          (Nat.lt_of_succ_lt_succ hi)

theorem length_intercalate {columns : List Text} (hcolumns : ∀ t ∈ columns, t.length = 2) :
    ([32].intercalate columns).length = 3 * columns.length - 1 := by
  induction columns with
  | nil => rfl
  | cons t columns ih =>
    have ht := hcolumns t List.mem_cons_self
    cases columns with
    | nil =>
      rw [List.intercalate_singleton, ht]
      rfl
    | cons u columns =>
      have hlength := ih fun t ht => hcolumns t (List.mem_cons_of_mem _ ht)
      rw [List.intercalate_cons_cons, List.length_append, List.length_append, hlength, ht]
      simp only [List.length_cons, List.length_nil]
      omega

theorem filterMap_range {α β : Type*} (l : List α) (g : α → Option β) (n : ℕ) :
    (List.range n).filterMap (fun i => l[i]?.bind g) = (l.take n).filterMap g := by
  induction n with
  | zero => rfl
  | succ n ih =>
    rw [List.range_succ, List.filterMap_append, ih, List.take_add_one, List.filterMap_append]
    cases hn : l[n]? <;> simp [List.filterMap_cons, hn]

theorem filterMap_completed {elementsAtLine : Bytes} (hlength : elementsAtLine.length ≤ 16) :
    ((List.range 16).map fun it => elementsAtLine[it]?.filter (· ≠ 0)).filterMap
      (fun b => b.filter (· ≠ 0)) = elementsAtLine.filter (· ≠ 0) := by
  have hfilter : ∀ b : Option UInt8, (b.filter (· ≠ 0)).filter (· ≠ 0) =
      b.bind (Option.guard (· ≠ 0)) := by
    intro b
    cases b with
    | none => rfl
    | some b => by_cases hb : b = 0 <;> simp [Option.guard, hb]
  rw [List.filterMap_map]
  simp only [Function.comp_def, hfilter]
  rw [filterMap_range, List.take_of_length_le hlength, List.filterMap_eq_filter]

def displayChar (b : UInt8) : UInt16 := if isPrint (byteChar b) then byteChar b else 63

theorem toDisplayAscii_eq (b : Option UInt8) :
    toDisplayAscii b = ((b.filter (· ≠ 0)).toList).map displayChar := by
  rw [toDisplayAscii]
  cases b.filter (· ≠ 0) <;> rfl

theorem row_shows {completed : List (Option UInt8)} (hcount : completed.length = 16)
    (asciiPart : Text) :
    readDigits ([32].intercalate (completed.map toDisplayDigit) ++
        ([32, 124, 32] ++ asciiPart)) = completed.filterMap (fun b => b.filter (· ≠ 0)) ∧
      asciiColumn ([32].intercalate (completed.map toDisplayDigit) ++
        ([32, 124, 32] ++ asciiPart)) = asciiPart := by
  have hcolumns : ∀ t ∈ completed.map toDisplayDigit, t.length = 2 := by
    intro t ht
    obtain ⟨b, -, rfl⟩ := List.mem_map.mp ht
    exact length_toDisplayDigit b
  have hmap : (completed.map toDisplayDigit).length = 16 := by rw [List.length_map, hcount]
  constructor
  · have hcolumn : ∀ i ∈ List.range 16,
        readColumn ((([32].intercalate (completed.map toDisplayDigit) ++
          ([32, 124, 32] ++ asciiPart)).drop (3 * i)).take 2) =
        completed[i]?.bind fun b => b.filter (· ≠ 0) := by
      intro i hi
      have hi : i < 16 := List.mem_range.mp hi
      rw [column_intercalate hcolumns (by omega), List.getElem_map, readColumn_toDisplayDigit,
        List.getElem?_eq_getElem (by omega), Option.bind_some]
    rw [readDigits, List.filterMap_congr hcolumn, filterMap_range,
      List.take_of_length_le hcount.le]
  · have hlength : ([32].intercalate (completed.map toDisplayDigit)).length = 47 := by
      rw [length_intercalate hcolumns, hmap]
    rw [asciiColumn, ← List.append_assoc]
    exact List.drop_left' (by rw [List.length_append, hlength]; rfl)

theorem dumpLine_shows {elementsAtLine : Bytes} (hlength : elementsAtLine.length ≤ 16) :
    readDigits (dumpLine elementsAtLine) = elementsAtLine.filter (· ≠ 0) ∧
      asciiColumn (dumpLine elementsAtLine) =
        (elementsAtLine.filter (· ≠ 0)).map displayChar := by
  have hshown := filterMap_completed hlength
  rw [dumpLine]
  generalize hcompleted : ((List.range 16).map fun it => elementsAtLine[it]?.filter (· ≠ 0)) =
    completed at hshown ⊢
  have hcount : completed.length = 16 := by rw [← hcompleted, List.length_map, List.length_range]
  obtain ⟨hdigits, hascii⟩ := row_shows hcount (completed.map toDisplayAscii).flatten
  refine ⟨hdigits.trans hshown, hascii.trans ?_⟩
  rw [← hshown]
  clear hshown hcompleted hcount hdigits hascii
  induction completed with
  | nil => rfl
  | cons b completed ih =>
    rw [List.map_cons, List.flatten_cons, ih, toDisplayAscii_eq, List.filterMap_cons]
    cases b.filter (· ≠ 0) <;> rfl

end GroovyServ.Server

import GroovyServ.ServerProtocol

/-!
# Well-formed header blocks

What the server reads of headers that are written one to a line: each key with
its trimmed values, in order, and nothing beyond the empty line.
-/

namespace GroovyServ

open Lines Server

theorem headersText_eq_unlines (fields : List (Bytes × Bytes)) :
    headersText fields = unlines lf (fields.map fun f => f.1 ++ (ascii ": " ++ f.2)) := by
  simp [headersText, headerLine, unlines, List.flatMap_map]

theorem trim_blank_cons (v : Bytes) : trim (32 :: v) = trim v := by
  have hdrop : (32 :: v).dropWhile (· ≤ 32) = v.dropWhile (· ≤ 32) :=
    List.dropWhile_cons_of_pos (by decide)
  rw [trim, hdrop, trim]

/-- No character up to the blank at either end. -/
def Trimmed (v : Bytes) : Prop := (∀ c ∈ v.head?, 32 < c) ∧ ∀ c ∈ v.getLast?, 32 < c

theorem trim_eq_self_iff (v : Bytes) : trim v = v ↔ Trimmed v := by
  have hdropped : v.dropWhile (· ≤ 32) = v ↔ ∀ c ∈ v.head?, 32 < c := by
    cases v with
    | nil => simp
    | cons c v => simp [List.dropWhile_eq_self_iff]
  have hrdropped : v.rdropWhile (· ≤ 32) = v ↔ ∀ c ∈ v.getLast?, 32 < c := by
    rw [List.rdropWhile_eq_self_iff]
    cases v using List.reverseRecOn with
    | nil => simp
    | append_singleton v c => simp
  constructor
  · intro h
    have hlength : v.length ≤ (v.dropWhile (· ≤ 32)).length := by
      have hle := (List.rdropWhile_prefix (· ≤ 32) (l := v.dropWhile (· ≤ 32))).length_le
      rwa [← trim, h] at hle
    have hdrop : v.dropWhile (· ≤ 32) = v :=
      (List.dropWhile_suffix _).eq_of_length_le hlength
    rw [trim, hdrop] at h
    exact ⟨hdropped.mp hdrop, hrdropped.mp h⟩
  · rintro ⟨hhead, hlast⟩
    rw [trim, hdropped.mpr hhead, hrdropped.mpr hlast]

theorem trim_eq_self {v : Bytes} (hv : ∀ c ∈ v, 33 ≤ c.toNat) : trim v = v := by
  have hlt : ∀ c ∈ v, 32 < c := fun c hc => UInt8.lt_iff_toNat_lt.mpr (hv c hc)
  exact (trim_eq_self_iff v).mpr ⟨fun c hc => hlt c (List.mem_of_mem_head? hc),
    fun c hc => hlt c (List.mem_of_mem_getLast? hc)⟩

theorem splitHeader_line {key : Bytes} (hkey : (58 : UInt8) ∉ key) (v : Bytes) :
    splitHeader (key ++ (ascii ": " ++ v)) = (key, trim v) := by
  have hsep : ascii ": " ++ v = 58 :: 32 :: v := rfl
  have hne : ∀ c ∈ key, decide (c ≠ 58) = true := by
    intro c hc
    simpa using fun h : c = 58 => hkey (h ▸ hc)
  rw [splitHeader, hsep, List.takeWhile_append_of_pos hne, List.dropWhile_append_of_pos hne]
  simp [trim_blank_cons]

theorem valuesOf_fields {fields : List (Bytes × Bytes)} (hfields : ∀ f ∈ fields, (58 : UInt8) ∉ f.1)
    (key : Bytes) :
    valuesOf (fields.map fun f => f.1 ++ (ascii ": " ++ f.2)) key =
      (fields.filter (·.1 = key)).map fun f => trim f.2 := by
  induction fields with
  | nil => rfl
  | cons f fields ih =>
    rw [List.forall_mem_cons] at hfields
    rw [List.map_cons, valuesOf_cons, splitHeader_line hfields.1, ih hfields.2]
    by_cases hkey : f.1 = key <;> simp [hkey]

theorem readLines_fields (ending : Ending) {fields : List (Bytes × Bytes)}
    (hkeys : ∀ f ∈ fields, f.1 ≠ [] ∧ lf ∉ f.1) (hvalues : ∀ f ∈ fields, lf ∉ f.2) (rest : Bytes) :
    readLines ending (headersText fields ++ lf :: rest) =
      .ok (fields.map fun f => f.1 ++ (ascii ": " ++ f.2), rest) := by
  have hlf : ∀ l ∈ fields.map (fun f => f.1 ++ (ascii ": " ++ f.2)), lf ∉ l := by
    intro l hl
    obtain ⟨f, hf, rfl⟩ := List.mem_map.mp hl
    have hsep : lf ∉ ascii ": " := by decide
    simp only [List.mem_append, not_or]
    exact ⟨(hkeys f hf).2, hsep, hvalues f hf⟩
  have hnil : [] ∉ fields.map (fun f => f.1 ++ (ascii ": " ++ f.2)) := by
    intro h
    obtain ⟨f, hf, heq⟩ := List.mem_map.mp h
    exact (hkeys f hf).1 (List.append_eq_nil_iff.mp heq).1
  rw [headersText_eq_unlines, readLines_unlines ending hlf, blockLines_eq_self hnil,
    afterBlock_eq_rest lf hnil]

theorem parseHeaders_fields (ending : Ending) {fields : List (Bytes × Bytes)}
    (hkeys : ∀ f ∈ fields, f.1 ≠ [] ∧ lf ∉ f.1) (hvalues : ∀ f ∈ fields, lf ∉ f.2) (rest : Bytes) :
    parseHeaders ending (headersText fields ++ lf :: rest) =
      .ok (headersOf (fields.map fun f => f.1 ++ (ascii ": " ++ f.2)), rest) := by
  rw [parseHeaders, readLines_fields ending hkeys hvalues rest]

theorem trim_decimal (n : ℕ) : trim (decimal n) = decimal n := by
  apply trim_eq_self
  intro c hc
  have h := isDigit_of_mem_decimal n c hc
  simp only [isDigit, decide_eq_true_eq] at h
  omega

theorem parseInteger_decimal_eq (n : ℕ) :
    parseInteger (decimal n) = if n < 2 ^ 31 then some (n : ℤ) else none := by
  have hhead : ∀ c ∈ (decimal n).head?, c ≠ 45 ∧ c ≠ 43 := by
    intro c hc
    have h := isDigit_of_mem_decimal n c (List.mem_of_mem_head? hc)
    constructor <;> rintro rfl <;> exact absurd h (by decide)
  have h45 : ¬ (decimal n).head? = some 45 := fun h => (hhead 45 h).1 rfl
  have hsign : ¬ ((decimal n).head? = some 45 ∨ (decimal n).head? = some 43) :=
    not_or.mpr ⟨h45, fun h => (hhead 43 h).2 rfl⟩
  have hall : (decimal n).all isDigit = true := List.all_eq_true.mpr (isDigit_of_mem_decimal n)
  rw [parseInteger, if_neg hsign, if_neg h45, digitsValue_decimal]
  by_cases hn : n < 2 ^ 31
  · rw [if_pos hn, if_pos ⟨decimal_ne_nil n, hall, by omega, by omega⟩]
  · rw [if_neg hn, if_neg fun h => hn (by omega)]

theorem parseInteger_decimal {n : ℕ} (hn : n < 2 ^ 31) :
    parseInteger (decimal n) = some (n : ℤ) := by
  rw [parseInteger_decimal_eq, if_pos hn]

end GroovyServ

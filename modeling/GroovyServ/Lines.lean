import GroovyServ.Bytes

/-!
# Separator-terminated lines and blocks

`unlines` writes every line followed by the separator. A block is a list of
lines read up to the first empty line: `blockLines` are its lines and
`afterBlock` is what follows the empty line when the lines themselves are
followed by a closing separator and `rest`.
-/

namespace GroovyServ.Lines

variable {α : Type*} (sep : α)

def unlines (ls : List (List α)) : List α := ls.flatMap fun l => l ++ [sep]

def blockLines (ls : List (List α)) : List (List α) := ls.takeWhile (· ≠ [])

def afterBlock (ls : List (List α)) (rest : List α) : List α :=
  match ls.dropWhile (· ≠ []) with
  | [] => rest
  | _ :: more => unlines sep more ++ sep :: rest

@[simp] theorem unlines_nil : unlines sep [] = ([] : List α) := rfl

@[simp] theorem unlines_cons (l : List α) (ls : List (List α)) :
    unlines sep (l :: ls) = l ++ sep :: unlines sep ls := by
  simp [unlines]

@[simp] theorem unlines_append (ls ls' : List (List α)) :
    unlines sep (ls ++ ls') = unlines sep ls ++ unlines sep ls' := by
  simp [unlines]

theorem unlines_splitOn [DecidableEq α] (s : List α) :
    unlines sep (s.splitOn sep) = s ++ [sep] := by
  induction s with
  | nil => simp
  | cons c s ih =>
    obtain ⟨l, ls, hls⟩ := List.exists_cons_of_ne_nil (List.splitOn_ne_nil sep s)
    rw [List.splitOn_cons_eq_if_modifyHead]
    by_cases hc : c = sep
    · simp [hc, ih]
    · rw [hls] at ih ⊢
      simpa [hc] using ih

theorem notMem_of_mem_splitOn [DecidableEq α] (s : List α) : ∀ l ∈ s.splitOn sep, sep ∉ l := by
  induction s with
  | nil => simp
  | cons c s ih =>
    obtain ⟨l, ls, hls⟩ := List.exists_cons_of_ne_nil (List.splitOn_ne_nil sep s)
    rw [List.splitOn_cons_eq_if_modifyHead]
    rw [hls] at ih ⊢
    by_cases hc : c = sep
    · simpa [hc] using ih
    · simp only [beq_iff_eq, hc, if_false, List.modifyHead_cons, List.forall_mem_cons] at ih ⊢
      refine ⟨?_, ih.2⟩
      rw [List.mem_cons, not_or]
      exact ⟨fun h => hc h.symm, ih.1⟩

theorem blockLines_cons_nil (ls : List (List α)) : blockLines ([] :: ls) = [] := by
  simp [blockLines]

theorem blockLines_cons {l : List α} (hl : l ≠ []) (ls : List (List α)) :
    blockLines (l :: ls) = l :: blockLines ls := by
  simp [blockLines, hl]

theorem blockLines_eq_self {ls : List (List α)} (hls : [] ∉ ls) : blockLines ls = ls := by
  induction ls with
  | nil => rfl
  | cons l ls ih =>
    rw [List.mem_cons, not_or] at hls
    rw [blockLines_cons (Ne.symm hls.1), ih hls.2]

theorem blockLines_append {ls : List (List α)} (hls : [] ∉ ls) (ls' : List (List α)) :
    blockLines (ls ++ ls') = ls ++ blockLines ls' := by
  induction ls with
  | nil => rfl
  | cons l ls ih =>
    rw [List.mem_cons, not_or] at hls
    rw [List.cons_append, blockLines_cons (Ne.symm hls.1), ih hls.2, List.cons_append]

theorem blockLines_append_of_mem {ls : List (List α)} (hls : [] ∈ ls) (ls' : List (List α)) :
    blockLines (ls ++ ls') = blockLines ls := by
  induction ls with
  | nil => cases hls
  | cons l ls ih =>
    by_cases hl : l = []
    · simp [blockLines, hl]
    · have hmem : [] ∈ ls := (List.mem_cons.mp hls).resolve_left (Ne.symm hl)
      rw [List.cons_append, blockLines_cons hl, blockLines_cons hl, ih hmem]

@[simp] theorem afterBlock_nil (rest : List α) : afterBlock sep [] rest = rest := rfl

theorem afterBlock_cons_nil (ls : List (List α)) (rest : List α) :
    afterBlock sep ([] :: ls) rest = unlines sep ls ++ sep :: rest := by
  simp [afterBlock]

theorem afterBlock_cons {l : List α} (hl : l ≠ []) (ls : List (List α)) (rest : List α) :
    afterBlock sep (l :: ls) rest = afterBlock sep ls rest := by
  simp [afterBlock, hl]

theorem afterBlock_append {ls : List (List α)} (hls : [] ∉ ls) (ls' : List (List α))
    (rest : List α) : afterBlock sep (ls ++ ls') rest = afterBlock sep ls' rest := by
  induction ls with
  | nil => rfl
  | cons l ls ih =>
    rw [List.mem_cons, not_or] at hls
    rw [List.cons_append, afterBlock_cons sep (Ne.symm hls.1), ih hls.2]

theorem afterBlock_eq_rest {ls : List (List α)} (hls : [] ∉ ls) (rest : List α) :
    afterBlock sep ls rest = rest := by
  simpa using afterBlock_append sep hls [] rest

theorem length_afterBlock (ls : List (List α)) (rest : List α) :
    (afterBlock sep ls rest).length = (afterBlock sep ls []).length + rest.length := by
  induction ls with
  | nil => simp
  | cons l ls ih =>
    by_cases hl : l = []
    · rw [hl, afterBlock_cons_nil, afterBlock_cons_nil]
      simp only [List.length_append, List.length_cons, List.length_nil]
      omega
    · rw [afterBlock_cons sep hl, afterBlock_cons sep hl, ih]

end GroovyServ.Lines

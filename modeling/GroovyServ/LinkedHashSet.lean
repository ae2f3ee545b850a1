import Mathlib

/-!
# Sets that keep the order of insertion

The elements of a set in the order in which they were first added. Adding an element
that is there changes nothing, and adding a list adds the first occurrences of its
elements.
-/

namespace GroovyServ

structure LinkedHashSet (α : Type*) where
  elems : List α
  nodup : elems.Nodup

namespace LinkedHashSet

variable {α : Type*}

def empty : LinkedHashSet α := ⟨[], List.nodup_nil⟩

variable [DecidableEq α]

def add (s : LinkedHashSet α) (a : α) : LinkedHashSet α :=
  if h : a ∈ s.elems then s
  else ⟨s.elems ++ [a], List.nodup_append'.mpr ⟨s.nodup, List.nodup_singleton a, by simpa using h⟩⟩

def addAll (s : LinkedHashSet α) (l : List α) : LinkedHashSet α := l.foldl add s

theorem elems_add_of_mem {s : LinkedHashSet α} {a : α} (h : a ∈ s.elems) : s.add a = s := dif_pos h

theorem elems_add_of_notMem {s : LinkedHashSet α} {a : α} (h : a ∉ s.elems) :
    (s.add a).elems = s.elems ++ [a] := by
  rw [add, dif_neg h]

omit [DecidableEq α] in
theorem eraseDups_of_nodup [BEq α] [LawfulBEq α] {l : List α} (h : l.Nodup) : l.eraseDups = l := by
  induction l with
  | nil => rfl
  | cons a l ih =>
    obtain ⟨ha, hl⟩ := List.nodup_cons.mp h
    have hfilter : (l.filter fun b => !b == a) = l := by
      rw [List.filter_eq_self]
      intro b hb
      simpa using fun heq : b = a => ha (heq ▸ hb)
    rw [List.eraseDups_cons, hfilter, ih hl]

theorem elems_addAll [BEq α] [LawfulBEq α] (s : LinkedHashSet α) (l : List α) :
    (s.addAll l).elems = (s.elems ++ l).eraseDups := by
  induction l generalizing s with
  | nil => rw [List.append_nil, eraseDups_of_nodup s.nodup]; rfl
  | cons a l ih =>
    change ((s.add a).addAll l).elems = _
    rw [ih]
    by_cases ha : a ∈ s.elems
    · rw [elems_add_of_mem ha, List.eraseDups_append, List.eraseDups_append]
      simp [List.removeAll, ha]
    · rw [elems_add_of_notMem ha, List.append_assoc, List.singleton_append]

theorem addAll_append (s : LinkedHashSet α) (l l' : List α) :
    s.addAll (l ++ l') = (s.addAll l).addAll l' :=
  List.foldl_append

theorem elems_addAll_empty [BEq α] [LawfulBEq α] (l : List α) :
    (empty.addAll l).elems = l.eraseDups :=
  elems_addAll empty l

end LinkedHashSet
end GroovyServ

import Mathlib

/-!
# Inherited thread-local variables

One variable that every thread has a value of its own for, and that a new thread
starts with the value of the thread that creates it. A thread carries the list of
its ancestors, itself first; a thread that is not created yet has none. A property
of the values stays confined to the descendants of a thread as long as they set
the variable to values with the property only.
-/

namespace GroovyServ

structure InheritedLocals (τ α : Type*) where
  ancestry : τ → List τ
  value : τ → Option α

namespace InheritedLocals

variable {τ α : Type*} [DecidableEq τ] (s : InheritedLocals τ α)

def single (root : τ) : InheritedLocals τ α where
  ancestry := Function.update (fun _ => []) root [root]
  value _ := none

def set (t : τ) (v : Option α) : InheritedLocals τ α :=
  { s with value := Function.update s.value t v }

def create (parent child : τ) : InheritedLocals τ α where
  ancestry := Function.update s.ancestry child (child :: s.ancestry parent)
  value := Function.update s.value child (s.value parent)

def Descends (t root : τ) : Prop := root ∈ s.ancestry t

instance (t root : τ) : Decidable (s.Descends t root) :=
  inferInstanceAs (Decidable (root ∈ s.ancestry t))

/-- The ancestors of a thread have been created. -/
def Rooted : Prop := ∀ t ancestor, s.Descends t ancestor → s.ancestry ancestor ≠ []

/-- The descendants of a thread have values with the property. -/
def Confined (root : τ) (P : Option α → Prop) : Prop := ∀ t, s.Descends t root → P (s.value t)

variable {s} {root t parent child : τ} {v : Option α} {P : Option α → Prop}

theorem ancestry_single_self (root : τ) :
    (single root : InheritedLocals τ α).ancestry root = [root] := by
  simp [single]

theorem rooted_single (root : τ) : (single root : InheritedLocals τ α).Rooted := by
  intro t ancestor h
  by_cases ht : t = root
  · subst ht
    simp only [Descends, single, Function.update_self, List.mem_singleton] at h
    simp [single, h]
  · simp [Descends, single, Function.update_of_ne ht] at h

theorem Rooted.set (h : s.Rooted) (t : τ) (v : Option α) : (s.set t v).Rooted := h

theorem ancestry_create_of_ne (ht : t ≠ child) :
    (s.create parent child).ancestry t = s.ancestry t :=
  Function.update_of_ne ht _ _

theorem ancestry_create_self :
    (s.create parent child).ancestry child = child :: s.ancestry parent :=
  Function.update_self _ _ _

theorem created_create_self : (s.create parent child).ancestry child ≠ [] := by
  rw [ancestry_create_self]
  exact List.cons_ne_nil _ _

theorem Rooted.create (h : s.Rooted) : (s.create parent child).Rooted := by
  have hkeeps : ∀ ancestor, s.ancestry ancestor ≠ [] →
      (s.create parent child).ancestry ancestor ≠ [] := by
    intro ancestor hancestor
    by_cases ha : ancestor = child
    · exact ha ▸ created_create_self
    · rwa [ancestry_create_of_ne ha]
  intro t ancestor hmem
  by_cases ht : t = child
  · rw [Descends, ht, ancestry_create_self, List.mem_cons] at hmem
    rcases hmem with rfl | hmem
    · exact created_create_self
    · exact hkeeps ancestor (h parent ancestor hmem)
  · rw [Descends, ancestry_create_of_ne ht] at hmem
    exact hkeeps ancestor (h t ancestor hmem)

omit [DecidableEq τ] in
theorem Rooted.not_descends (h : s.Rooted) (hfresh : s.ancestry root = []) (t : τ) :
    ¬ s.Descends t root := fun hmem => h t root hmem hfresh

theorem Confined.set (h : s.Confined root P) (hv : s.Descends t root → P v) :
    (s.set t v).Confined root P := by
  intro t' ht'
  by_cases heq : t' = t
  · subst heq
    simpa only [InheritedLocals.set, Function.update_self] using hv ht'
  · simpa only [InheritedLocals.set, Function.update_of_ne heq] using h t' ht'

theorem Confined.create (h : s.Confined root P) (hne : child ≠ root) :
    (s.create parent child).Confined root P := by
  intro t ht
  by_cases heq : t = child
  · subst heq
    rw [Descends, ancestry_create_self, List.mem_cons] at ht
    simpa only [InheritedLocals.create, Function.update_self] using
      h parent (ht.resolve_left (Ne.symm hne))
  · rw [Descends, ancestry_create_of_ne heq] at ht
    simpa only [InheritedLocals.create, Function.update_of_ne heq] using h t ht

theorem confined_create_self (h : s.Rooted) (hfresh : s.ancestry child = [])
    (hP : P (s.value parent)) :
    (s.create parent child).Confined child P := by
  intro t ht
  by_cases heq : t = child
  · subst heq
    simpa only [InheritedLocals.create, Function.update_self] using hP
  · rw [Descends, ancestry_create_of_ne heq] at ht
    exact absurd ht (h.not_descends hfresh t)

end InheritedLocals
end GroovyServ

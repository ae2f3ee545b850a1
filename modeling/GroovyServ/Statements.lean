import Mathlib

/-!
# Statements that change a state and may throw

A statement returns or throws, and what it has changed before it throws stays
changed. `runOn` runs statements from a state, and `within` runs them on a part of a
larger state. The rules take a sequence of statements apart.
-/

namespace GroovyServ

abbrev Statements (ε σ : Type) := ExceptT ε (StateM σ)

namespace Statements

variable {ε σ τ α β : Type}

def runOn (x : Statements ε σ α) (s : σ) : Except ε α × σ := (ExceptT.run x).run s

def within (part : τ → σ) (replace : σ → τ → τ) (x : Statements ε σ α) : Statements ε τ α :=
  ExceptT.mk fun t => ((x.runOn (part t)).1, replace (x.runOn (part t)).2 t)

@[simp] theorem runOn_ofExcept (x : Except ε α) (s : σ) :
    runOn (ofExcept x : Statements ε σ α) s = (x, s) := by
  cases x <;> rfl

@[simp] theorem runOn_get (s : σ) : runOn (get : Statements ε σ σ) s = (.ok s, s) := rfl

@[simp] theorem runOn_modify (f : σ → σ) (s : σ) :
    runOn (modify f : Statements ε σ PUnit) s = (.ok ⟨⟩, f s) := rfl

@[simp] theorem runOn_within (part : τ → σ) (replace : σ → τ → τ) (x : Statements ε σ α) (t : τ) :
    runOn (within part replace x) t = ((x.runOn (part t)).1, replace (x.runOn (part t)).2 t) := rfl

theorem runOn_bind (x : Statements ε σ α) (f : α → Statements ε σ β) (s : σ) :
    runOn (x >>= f) s =
      match x.runOn s with
      | (.ok a, s') => (f a).runOn s'
      | (.error e, s') => (.error e, s') := by
  change (ExceptT.run (x >>= f)).run s = _
  rw [ExceptT.run_bind, StateT.run_bind]
  rcases hx : x.runOn s with ⟨result, s'⟩
  change (StateT.run (ExceptT.run x) s) = (result, s') at hx
  rw [hx]
  cases result <;> rfl

@[simp] theorem runOn_pure (a : α) (s : σ) : runOn (pure a : Statements ε σ α) s = (.ok a, s) := rfl

theorem runOn_tryCatch (x : Statements ε σ α) (handle : ε → Statements ε σ α) (s : σ) :
    runOn (tryCatch x handle) s =
      match x.runOn s with
      | (.ok a, s') => (.ok a, s')
      | (.error e, s') => (handle e).runOn s' := by
  rcases hx : x.runOn s with ⟨result, s'⟩
  change (StateT.run (ExceptT.run x) s) = (result, s') at hx
  change (ExceptT.run (tryCatch x handle)).run s = _
  rw [ExceptT.run_tryCatch, StateT.run_bind, hx]
  cases result <;> rfl

/-- A `finally` block is done whichever way the statements end. -/
theorem runOn_tryFinally (x : Statements ε σ α) (f : σ → σ) (s : σ) :
    runOn (tryFinally x (modify f : Statements ε σ PUnit)) s =
      ((x.runOn s).1, f (x.runOn s).2) := by
  rcases hx : x.runOn s with ⟨result, s'⟩
  change x s = (result, s') at hx
  have hfin : (modify f : Statements ε σ PUnit) s' = (.ok ⟨⟩, f s') := rfl
  cases result <;>
    simp only [runOn, StateT.run, ExceptT.run, tryFinally, Functor.map, ExceptT.map, ExceptT.mk,
      bind, tryFinally', pure, StateT.bind, StateT.pure, hx, hfin]

end Statements
end GroovyServ

import Mathlib

/-!
# Sequences of computations that may fail

`Ensures r c Q` says of the outcome `r` of a computation that its result, if it
has one, satisfies `Q`, and that the condition `c` guarantees a result. The rules
take a sequence of computations apart step by step.
-/

namespace GroovyServ

universe u v
variable {ε : Type u} {α β : Type v}

@[simp] theorem ok_bind (a : α) (f : α → Except ε β) : (Except.ok a >>= f) = f a := rfl

@[simp] theorem error_bind (e : ε) (f : α → Except ε β) :
    ((Except.error e : Except ε α) >>= f) = .error e := rfl

theorem bind_eq_ok {x : Except ε α} {f : α → Except ε β} {b : β} :
    (x >>= f) = .ok b ↔ ∃ a, x = .ok a ∧ f a = .ok b := by
  cases x with
  | error e => simp
  | ok a => simp

theorem bind_eq_error {x : Except ε α} {f : α → Except ε β} {e : ε} :
    (x >>= f) = .error e ↔ x = .error e ∨ ∃ a, x = .ok a ∧ f a = .error e := by
  cases x with
  | error e => simp
  | ok a => simp

theorem mapError_eq_ok {ε' : Type*} {x : Except ε α} {f : ε → ε'} {a : α} :
    x.mapError f = .ok a ↔ x = .ok a := by
  cases x with
  | error e => simp [Except.mapError]
  | ok a => simp [Except.mapError]

theorem mapError_eq_error {ε' : Type*} {x : Except ε α} {f : ε → ε'} {e' : ε'} :
    x.mapError f = .error e' ↔ ∃ e, x = .error e ∧ f e = e' := by
  cases x with
  | error e => simp [Except.mapError]
  | ok a => simp [Except.mapError]

theorem mapError_bind {ε' : Type*} (g : ε → ε') (x : Except ε α) (f : α → Except ε β) :
    (x >>= f).mapError g = x.mapError g >>= fun a => (f a).mapError g := by
  cases x <;> rfl

structure Ensures (r : Except ε α) (c : Prop) (Q : α → Prop) : Prop where
  post : ∀ a, r = .ok a → Q a
  returns : c → ∃ a, r = .ok a

namespace Ensures

variable {r : Except ε α} {c c' : Prop} {Q Q' : α → Prop} {R : β → Prop}

theorem ok {a : α} (ha : Q a) : Ensures (.ok a : Except ε α) c Q where
  post _ h := Except.ok.inj h ▸ ha
  returns _ := ⟨a, rfl⟩

theorem error {e : ε} (hc : ¬ c) : Ensures (.error e : Except ε α) c Q where
  post _ h := nomatch h
  returns h := absurd h hc

theorem imp (h : Ensures r c Q) (hc : c' → c) (hQ : ∀ a, Q a → Q' a) : Ensures r c' Q' where
  post a ha := hQ a (h.post a ha)
  returns hc' := h.returns (hc hc')

theorem bind {f : α → Except ε β} (h : Ensures r c Q) (hf : ∀ a, Q a → Ensures (f a) c R) :
    Ensures (r >>= f) c R where
  post b hb := by
    obtain ⟨a, ha, hb⟩ := bind_eq_ok.mp hb
    exact (hf a (h.post a ha)).post b hb
  returns hc := by
    obtain ⟨a, ha⟩ := h.returns hc
    obtain ⟨b, hb⟩ := (hf a (h.post a ha)).returns hc
    exact ⟨b, bind_eq_ok.mpr ⟨a, ha, hb⟩⟩

end Ensures
end GroovyServ

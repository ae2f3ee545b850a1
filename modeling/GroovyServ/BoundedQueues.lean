import Mathlib

/-!
# Bounded queues with blocking writers

A queue holds as many elements as its capacity allows. Its writer has elements
still to put into it, and is blocked when there are some and the queue is full.
A write fits when its elements find room without anyone reading. Not all writers
of a family of queues are blocked as long as one write fits; once none fits, the
writers have only to go on.
-/

namespace GroovyServ

structure BoundedQueue (α : Type*) (capacity : ℕ) where
  content : List α
  pending : List α
  bounded : content.length ≤ capacity

namespace BoundedQueue

variable {α : Type*} {capacity : ℕ}

def empty : BoundedQueue α capacity := ⟨[], [], Nat.zero_le _⟩

def room (q : BoundedQueue α capacity) : ℕ := capacity - q.content.length

theorem length_push_le (q : BoundedQueue α capacity) (n : ℕ) :
    (q.content ++ q.pending.take (min n q.room)).length ≤ capacity := by
  have hbounded := q.bounded
  rw [List.length_append, List.length_take, room]
  omega

theorem length_pull_le (q : BoundedQueue α capacity) (n : ℕ) :
    (q.content.drop n).length ≤ capacity := by
  rw [List.length_drop]
  exact (Nat.sub_le _ _).trans q.bounded

def write (q : BoundedQueue α capacity) (data : List α) : BoundedQueue α capacity :=
  ⟨q.content, data, q.bounded⟩

def push (q : BoundedQueue α capacity) (n : ℕ) : BoundedQueue α capacity :=
  ⟨q.content ++ q.pending.take (min n q.room), q.pending.drop (min n q.room),
    q.length_push_le n⟩

def pull (q : BoundedQueue α capacity) (n : ℕ) : BoundedQueue α capacity :=
  ⟨q.content.drop n, q.pending, q.length_pull_le n⟩

theorem push_content (q : BoundedQueue α capacity) (n : ℕ) :
    (q.push n).content = q.content ++ q.pending.take (min n q.room) := rfl

theorem push_pending (q : BoundedQueue α capacity) (n : ℕ) :
    (q.push n).pending = q.pending.drop (min n q.room) := rfl

def Fits (q : BoundedQueue α capacity) : Prop := q.pending.length ≤ q.room

def Blocked (q : BoundedQueue α capacity) : Prop :=
  q.pending ≠ [] ∧ q.content.length = capacity

instance (q : BoundedQueue α capacity) : Decidable q.Blocked :=
  inferInstanceAs (Decidable (_ ∧ _))

theorem fits_empty : (empty : BoundedQueue α capacity).Fits := Nat.zero_le _

theorem Blocked.not_fits {q : BoundedQueue α capacity} (h : q.Blocked) : ¬ q.Fits := by
  have hpos := List.length_pos_of_ne_nil h.1
  have hfull := h.2
  unfold Fits room
  omega

theorem Blocked.room_eq_zero {q : BoundedQueue α capacity} (h : q.Blocked) : q.room = 0 := by
  rw [room, h.2, Nat.sub_self]

theorem fits_write (q : BoundedQueue α capacity) (data : List α) :
    (q.write data).Fits ↔ data.length ≤ q.room := Iff.rfl

/-- A writer that goes on neither makes its write fit nor keeps it from fitting. -/
theorem fits_push (q : BoundedQueue α capacity) (n : ℕ) : (q.push n).Fits ↔ q.Fits := by
  have hbounded := q.bounded
  simp only [Fits, room, push_content, push_pending, List.length_append, List.length_take,
    List.length_drop]
  omega

theorem Fits.pull {q : BoundedQueue α capacity} (h : q.Fits) (n : ℕ) : (q.pull n).Fits := by
  unfold Fits room at h
  simp only [Fits, room, BoundedQueue.pull, List.length_drop]
  omega

theorem blocked_of_room_eq_zero {q : BoundedQueue α capacity} (h : ¬ q.Fits)
    (hroom : q.room = 0) : q.Blocked := by
  have hbounded := q.bounded
  unfold Fits at h
  constructor
  · rw [← List.length_pos_iff]
    omega
  · unfold room at hroom
    omega

theorem blocked_push_room {q : BoundedQueue α capacity} (h : ¬ q.Fits) :
    (q.push q.room).Blocked := by
  refine blocked_of_room_eq_zero (by rwa [fits_push]) ?_
  have hroom : q.room = capacity - q.content.length := rfl
  unfold Fits at h
  rw [room, push_content, List.length_append, List.length_take]
  omega

theorem Blocked.push {q : BoundedQueue α capacity} (h : q.Blocked) (n : ℕ) :
    (q.push n).Blocked := by
  have hcount : min n q.room = 0 := by rw [h.room_eq_zero, Nat.min_zero]
  constructor
  · rw [push_pending, hcount]
    exact h.1
  · rw [push_content, hcount, List.take_zero, List.append_nil]
    exact h.2

end BoundedQueue

abbrev Queues (ι α : Type*) (capacity : ι → ℕ) := ∀ i, BoundedQueue α (capacity i)

namespace Queues

variable {ι α : Type*} {capacity : ι → ℕ}

def SomeFits (qs : Queues ι α capacity) : Prop := ∃ i, (qs i).Fits

def AllBlocked (qs : Queues ι α capacity) : Prop := ∀ i, (qs i).Blocked

theorem SomeFits.not_allBlocked {qs : Queues ι α capacity} (h : qs.SomeFits) :
    ¬ qs.AllBlocked := by
  intro hblocked
  obtain ⟨i, hi⟩ := h
  exact (hblocked i).not_fits hi

variable [DecidableEq ι]

def write (qs : Queues ι α capacity) (i : ι) (data : List α) : Queues ι α capacity :=
  Function.update qs i ((qs i).write data)

def push (qs : Queues ι α capacity) (i : ι) (n : ℕ) : Queues ι α capacity :=
  Function.update qs i ((qs i).push n)

def pull (qs : Queues ι α capacity) (i : ι) (n : ℕ) : Queues ι α capacity :=
  Function.update qs i ((qs i).pull n)

@[simp] theorem write_self (qs : Queues ι α capacity) (i : ι) (data : List α) :
    qs.write i data i = (qs i).write data := Function.update_self _ _ _

@[simp] theorem push_self (qs : Queues ι α capacity) (i : ι) (n : ℕ) :
    qs.push i n i = (qs i).push n := Function.update_self _ _ _

/-- A write of `data` into queue `i` leaves a write that fits, be it itself. -/
def HasRoom (qs : Queues ι α capacity) (i : ι) (data : List α) : Prop :=
  data.length ≤ (qs i).room ∨ ∃ j, j ≠ i ∧ (qs j).Fits

instance [Fintype ι] (qs : Queues ι α capacity) (i : ι) (data : List α) :
    Decidable (qs.HasRoom i data) :=
  inferInstanceAs (Decidable (_ ∨ ∃ j, j ≠ i ∧ (qs j).pending.length ≤ (qs j).room))

theorem someFits_update (qs : Queues ι α capacity) (i : ι) (q : BoundedQueue α (capacity i)) :
    SomeFits (Function.update qs i q) ↔ q.Fits ∨ ∃ j, j ≠ i ∧ (qs j).Fits := by
  constructor
  · rintro ⟨j, hj⟩
    by_cases hji : j = i
    · subst hji
      rw [Function.update_self] at hj
      exact .inl hj
    · rw [Function.update_of_ne hji] at hj
      exact .inr ⟨j, hji, hj⟩
  · rintro (hi | ⟨j, hji, hj⟩)
    · exact ⟨i, by rwa [Function.update_self]⟩
    · exact ⟨j, by rwa [Function.update_of_ne hji]⟩

theorem someFits_iff (qs : Queues ι α capacity) (i : ι) :
    qs.SomeFits ↔ (qs i).Fits ∨ ∃ j, j ≠ i ∧ (qs j).Fits := by
  rw [← someFits_update qs i (qs i), Function.update_eq_self]

theorem someFits_write (qs : Queues ι α capacity) (i : ι) (data : List α) :
    (qs.write i data).SomeFits ↔ qs.HasRoom i data := by
  rw [write, someFits_update, BoundedQueue.fits_write, HasRoom]

theorem someFits_push (qs : Queues ι α capacity) (i : ι) (n : ℕ) :
    (qs.push i n).SomeFits ↔ qs.SomeFits := by
  rw [push, someFits_update, BoundedQueue.fits_push, ← someFits_iff]

theorem blocked_push {qs : Queues ι α capacity} {j : ι} (h : (qs j).Blocked) (i : ι) (n : ℕ) :
    (qs.push i n j).Blocked := by
  by_cases hji : j = i
  · subst hji
    rw [push_self]
    exact h.push n
  · rwa [push, Function.update_of_ne hji]

theorem blocked_push_room {qs : Queues ι α capacity} (h : ¬ qs.SomeFits) (i : ι) :
    (qs.push i (qs i).room i).Blocked := by
  rw [push_self]
  exact BoundedQueue.blocked_push_room fun hi => h ⟨i, hi⟩

theorem SomeFits.pull {qs : Queues ι α capacity} (h : qs.SomeFits) (i : ι) (n : ℕ) :
    (qs.pull i n).SomeFits := by
  rw [Queues.pull, someFits_update]
  exact ((qs.someFits_iff i).mp h).imp_left fun hi => hi.pull n

end Queues
end GroovyServ

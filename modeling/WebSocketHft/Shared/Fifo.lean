import Mathlib.Data.List.Basic

/-! # Bounded first-in first-out queues

The interface of a bounded queue as a machine that answers calls, together with
the simulation rule that carries a whole run of one machine over to another. -/

namespace WebSocketHft.Fifo

/-- A queue of at most `capacity` elements. -/
structure BoundedQueue (α : Type*) (capacity : ℕ) where
  items : List α
  length_le : items.length ≤ capacity

/-- The calls a queue answers. -/
inductive Call (α : Type*) where
  | write (data : List α)
  | read (len : ℕ)
  | reset
  | readable
  | writeable

/-- The answers: a count, or a count together with the elements handed out. -/
inductive Reply (α : Type*) where
  | done
  | count (n : ℕ)
  | taken (n : ℕ) (items : List α)
  deriving DecidableEq

namespace BoundedQueue

variable {α : Type*} {capacity : ℕ}

/-- The elements of `xs` that still fit. -/
def accepted (q : BoundedQueue α capacity) (xs : List α) : List α :=
  xs.take (capacity - q.items.length)

def push (q : BoundedQueue α capacity) (xs : List α) : BoundedQueue α capacity where
  items := q.items ++ q.accepted xs
  length_le := by
    have h := q.length_le
    simp only [accepted, List.length_append, List.length_take]
    omega

def pop (q : BoundedQueue α capacity) (n : ℕ) : BoundedQueue α capacity where
  items := q.items.drop n
  length_le := by
    have h := q.length_le
    simp only [List.length_drop]
    omega

def empty : BoundedQueue α capacity where
  items := []
  length_le := Nat.zero_le _

/-- What a bounded queue answers to one call, and the queue afterwards. -/
def call (q : BoundedQueue α capacity) : Call α → Reply α × BoundedQueue α capacity
  | .write data => (.count (min data.length (capacity - q.items.length)), q.push data)
  | .read len => (.taken (min len q.items.length) (q.items.take len), q.pop len)
  | .reset => (.done, empty)
  | .readable => (.count q.items.length, q)
  | .writeable => (.count (capacity - q.items.length), q)

end BoundedQueue

/-! ## Runs and simulation -/

section Runs

variable {σ τ ι ο : Type*}

/-- The answers to a sequence of calls, and the state they end in. -/
def run (step : σ → ι → ο × σ) : σ → List ι → List ο × σ
  | s, [] => ([], s)
  | s, i :: is => ((step s i).1 :: (run step (step s i).2 is).1, (run step (step s i).2 is).2)

/-- Related states give equal answers and stay related. -/
structure Simulation (step : σ → ι → ο × σ) (step' : τ → ι → ο × τ) (R : σ → τ → Prop) : Prop where
  answer : ∀ {s t}, R s t → ∀ i, (step s i).1 = (step' t i).1
  next : ∀ {s t}, R s t → ∀ i, R (step s i).2 (step' t i).2

/-- A simulation carries over to every run. -/
theorem Simulation.run {step : σ → ι → ο × σ} {step' : τ → ι → ο × τ} {R : σ → τ → Prop}
    (h : Simulation step step' R) {s : σ} {t : τ} (hst : R s t) (is : List ι) :
    (run step s is).1 = (Fifo.run step' t is).1 ∧ R (Fifo.run step s is).2 (Fifo.run step' t is).2 := by
  induction is generalizing s t with
  | nil => exact ⟨rfl, hst⟩
  | cons i is ih =>
      obtain ⟨hout, hrel⟩ := ih (h.next hst i)
      refine ⟨?_, hrel⟩
      simp only [Fifo.run, hout, h.answer hst i]

end Runs

end WebSocketHft.Fifo

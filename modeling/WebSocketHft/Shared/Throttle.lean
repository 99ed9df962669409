import Mathlib.Algebra.Order.Group.Nat
import Mathlib.Tactic.Ring

/-! # Gates that open at most once a period

A gate remembers the time it last looked at and counts how often it has opened. It
opens only when a whole period has passed since that time. Over any stretch of its
life it has then opened at most once for each period that has passed. -/

namespace WebSocketHft.Throttle

structure Gate where
  last : ℕ
  opened : ℕ

/-- From `g` to `g'` each opening took a period. -/
structure Spaced (period : ℕ) (g g' : Gate) : Prop where
  opened_le : g.opened ≤ g'.opened
  last_le : g.last + (g'.opened - g.opened) * period ≤ g'.last

variable {period : ℕ} {g g' g'' : Gate}

theorem Spaced.refl (period : ℕ) (g : Gate) : Spaced period g g :=
  ⟨le_rfl, by rw [Nat.sub_self, Nat.zero_mul, Nat.add_zero]⟩

theorem Spaced.trans (h : Spaced period g g') (h' : Spaced period g' g'') : Spaced period g g'' := by
  obtain ⟨n, hn⟩ := Nat.exists_eq_add_of_le h.opened_le
  obtain ⟨m, hm⟩ := Nat.exists_eq_add_of_le h'.opened_le
  have hlast := h.last_le
  have hlast' := h'.last_le
  rw [hn, Nat.add_sub_cancel_left] at hlast
  rw [hm, Nat.add_sub_cancel_left] at hlast'
  refine ⟨h.opened_le.trans h'.opened_le, ?_⟩
  calc g.last + (g''.opened - g.opened) * period
      = g.last + n * period + m * period := by
        rw [hm, hn, Nat.add_assoc g.opened, Nat.add_sub_cancel_left]
        ring
    _ ≤ g'.last + m * period := Nat.add_le_add_right hlast _
    _ ≤ g''.last := hlast'

/-- The gate stays shut, and may take a new time. -/
theorem Spaced.shut (hopened : g'.opened = g.opened) (hlast : g.last ≤ g'.last) :
    Spaced period g g' :=
  ⟨hopened.ge, by rw [hopened, Nat.sub_self, Nat.zero_mul, Nat.add_zero]; exact hlast⟩

/-- It opens when a period has passed. -/
theorem Spaced.open (hopened : g'.opened = g.opened + 1) (hlast : g.last + period ≤ g'.last) :
    Spaced period g g' :=
  ⟨by omega, by rw [hopened, Nat.add_sub_cancel_left, Nat.one_mul]; exact hlast⟩

theorem Spaced.count_mul_le (h : Spaced period g g') {now : ℕ} (hnow : g'.last ≤ now) :
    (g'.opened - g.opened) * period ≤ now - g.last := by
  have hlast := h.last_le
  omega

end WebSocketHft.Throttle

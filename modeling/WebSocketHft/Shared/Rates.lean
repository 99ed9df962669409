import Mathlib.Algebra.Order.Field.Basic
import Mathlib.Algebra.Order.Field.Rat
import Mathlib.Data.Nat.Cast.Order.Ring
import Mathlib.Tactic.FieldSimp

/-! # Converting by a rate

Quantities in two units, of which `b` of the one are `a` of the other. Conversions
round down. A point given in the other unit is reached by going back from a known
point: its distance is converted, not the point itself. -/

namespace WebSocketHft.Rates

/-- `t` units converted at the rate `a / b`. -/
def convert (a b t : ℕ) : ℕ := t * a / b

variable {a b t x : ℕ}

theorem convert_mul_le (a b t : ℕ) : convert a b t * b ≤ t * a := Nat.div_mul_le_self _ _

theorem lt_convert_succ_mul (a t : ℕ) (hb : 0 < b) : t * a < (convert a b t + 1) * b := by
  rw [Nat.mul_comm (convert a b t + 1) b]
  exact Nat.lt_mul_div_succ _ hb

theorem convert_mono (a b : ℕ) {t t' : ℕ} (h : t ≤ t') : convert a b t ≤ convert a b t' :=
  Nat.div_le_div_right (Nat.mul_le_mul_right a h)

/-- A part of what a conversion gives stays below what was converted. -/
theorem mul_le_of_le_convert (hx : x ≤ convert a b t) : x * b ≤ t * a :=
  (Nat.mul_le_mul_right b hx).trans (convert_mul_le a b t)

theorem convert_le_of_le_convert (ha : 0 < a) (hx : x ≤ convert a b t) : convert b a x ≤ t := by
  have hmul := (convert_mul_le b a x).trans (mul_le_of_le_convert hx)
  exact Nat.le_of_mul_le_mul_right hmul ha

/-- The point `x` of the other unit, reached from the point `t` by going back. -/
def goBack (a b t x : ℕ) : ℕ := t - convert b a (convert a b t - x)

theorem goBack_le (a b t x : ℕ) : goBack a b t x ≤ t := Nat.sub_le _ _

theorem goBack_mono (a b t : ℕ) {x x' : ℕ} (h : x ≤ x') : goBack a b t x ≤ goBack a b t x' :=
  Nat.sub_le_sub_left (convert_mono b a (Nat.sub_le_sub_left h _)) t

/-- The way back and the point reached make up the point from which one went. -/
theorem goBack_mul_add (ha : 0 < a) :
    goBack a b t x * a + convert b a (convert a b t - x) * a = t * a := by
  have hle := convert_le_of_le_convert ha (Nat.sub_le (convert a b t) x)
  rw [← Nat.add_mul, goBack, Nat.sub_add_cancel hle]

/-- The point that is reached does not lie before `x`. -/
theorem mul_le_goBack_mul (ha : 0 < a) (hx : x ≤ convert a b t) : x * b ≤ goBack a b t x * a := by
  have hpoint : goBack a b t x * a + convert b a (convert a b t - x) * a = t * a := goBack_mul_add ha
  have hback := convert_mul_le b a (convert a b t - x)
  have hwhole := convert_mul_le a b t
  have hsplit : (convert a b t - x) * b + x * b = convert a b t * b := by
    rw [← Nat.add_mul, Nat.sub_add_cancel hx]
  omega

/-- It lies behind `x` by less than one unit of either kind together. -/
theorem goBack_mul_lt (ha : 0 < a) (hb : 0 < b) (hx : x ≤ convert a b t) :
    goBack a b t x * a < (x + 1) * b + a := by
  have hpoint : goBack a b t x * a + convert b a (convert a b t - x) * a = t * a := goBack_mul_add ha
  have hback := lt_convert_succ_mul b (convert a b t - x) ha
  have hwhole := lt_convert_succ_mul a t hb
  have hsplit : (convert a b t - x) * b + x * b = convert a b t * b := by
    rw [← Nat.add_mul, Nat.sub_add_cancel hx]
  simp only [Nat.add_mul, Nat.one_mul] at hback hwhole ⊢
  omega

/-! ## Over the rationals -/

theorem le_goBack_rat (ha : 0 < a) (hb : 0 < b) (hx : x ≤ convert a b t) :
    (x : ℚ) ≤ goBack a b t x * a / b := by
  rw [le_div_iff₀ (by exact_mod_cast hb)]
  exact_mod_cast mul_le_goBack_mul ha hx

theorem goBack_rat_lt (ha : 0 < a) (hb : 0 < b) (hx : x ≤ convert a b t) :
    (goBack a b t x * a / b : ℚ) < x + 1 + a / b := by
  have hpos : (0 : ℚ) < b := by exact_mod_cast hb
  have hlt : (goBack a b t x * a : ℚ) < (x + 1) * b + a := by
    exact_mod_cast goBack_mul_lt ha hb hx
  have hsum : (x + 1 + a / b : ℚ) = ((x + 1) * b + a) / b := by
    field_simp
  rw [hsum]
  exact div_lt_div_of_pos_right hlt hpos

/-- One does not go back all the way unless the exact distance is that long. -/
theorem sub_nonpos_of_convert_ge (ha : 0 < a) (h : t ≤ convert b a x) : (t - x * b / a : ℚ) ≤ 0 := by
  have hpos : (0 : ℚ) < a := by exact_mod_cast ha
  have hmul : t * a ≤ x * b := (Nat.mul_le_mul_right a h).trans (convert_mul_le b a x)
  have hle : (t : ℚ) ≤ x * b / a := by
    rw [le_div_iff₀ hpos]
    exact_mod_cast hmul
  exact sub_nonpos.mpr hle

end WebSocketHft.Rates

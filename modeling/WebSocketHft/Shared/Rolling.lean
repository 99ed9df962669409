import Mathlib.Data.List.Rotate
import WebSocketHft.Shared.Circular

/-! # Rolling windows

An array of fixed length in which every new entry overwrites the oldest one. After
any number of entries it holds the most recent ones, turned around by some offset. -/

namespace WebSocketHft.Rolling

open WebSocketHft.Circular

variable {α : Type*}

/-- The last `c` entries of a history, or all of them if there are fewer. -/
def recent (c : ℕ) (history : List α) : List α :=
  history.drop (history.length - c)

theorem length_recent (c : ℕ) (history : List α) :
    (recent c history).length = min history.length c := by
  rw [recent, List.length_drop]
  omega

/-- The array after a history: the next entry goes behind the last one, and the last `c`
entries stand in the cells given by their number. -/
structure Holds (cells : List α) (history : List α) : Prop where
  pos : 0 < cells.length
  entry : ∀ j < history.length, history.length ≤ j + cells.length →
    cells[j % cells.length]? = history[j]?

theorem Holds.initial {cells : List α} (hpos : 0 < cells.length) : Holds cells [] :=
  ⟨hpos, fun j hj => absurd hj (Nat.not_lt_zero j)⟩

/-- A new entry is written behind the last one. -/
theorem Holds.push {cells history : List α} (h : Holds cells history) (x : α) :
    Holds (cells.set (history.length % cells.length) x) (history ++ [x]) := by
  refine ⟨by rw [List.length_set]; exact h.pos, fun j hj hlast => ?_⟩
  rw [List.length_append, List.length_singleton] at hj hlast
  rw [List.length_set] at hlast ⊢
  rcases Nat.lt_or_ge j history.length with hold | hnew
  · -- an entry that stays is in another cell
    have hne : j % cells.length ≠ history.length % cells.length :=
      mod_ne_mod hold (by omega)
    rw [List.getElem?_set_ne hne.symm, h.entry j hold (by omega), List.getElem?_append_left hold]
  · obtain rfl : j = history.length := by omega
    rw [List.getElem?_set_self (Nat.mod_lt _ h.pos), List.getElem?_concat_length]

/-- As long as the array has not been filled, its front is the history. -/
theorem Holds.take_eq {cells history : List α} (h : Holds cells history)
    (hfew : history.length ≤ cells.length) : cells.take history.length = history := by
  apply List.ext_getElem? fun j => ?_
  rcases Nat.lt_or_ge j history.length with hj | hj
  · have hentry := h.entry j hj (by omega)
    rw [Nat.mod_eq_of_lt (by omega)] at hentry
    rw [List.getElem?_take_of_lt hj, hentry]
  · rw [List.getElem?_eq_none (by rw [List.length_take]; omega), List.getElem?_eq_none hj]

/-- A full array is the window, rotated. -/
theorem Holds.rotate_eq {cells history : List α} (h : Holds cells history)
    (hmany : cells.length ≤ history.length) :
    cells.rotate (history.length - cells.length) = recent cells.length history := by
  apply List.ext_getElem? fun j => ?_
  rcases Nat.lt_or_ge j cells.length with hj | hj
  · have hentry := h.entry (j + (history.length - cells.length)) (by omega) (by omega)
    rw [List.getElem?_rotate hj, hentry, recent, List.getElem?_drop, Nat.add_comm]
  · have hlen := length_recent cells.length history
    rw [List.getElem?_eq_none (by rw [List.length_rotate]; exact hj),
      List.getElem?_eq_none (by omega)]

/-- The cells in use are the window in some order. -/
theorem Holds.perm {cells history : List α} (h : Holds cells history) :
    (cells.take (min history.length cells.length)).Perm (recent cells.length history) := by
  rcases le_total history.length cells.length with hfew | hmany
  · have hall : recent cells.length history = history := by
      rw [recent, Nat.sub_eq_zero_of_le hfew, List.drop_zero]
    rw [min_eq_left hfew, h.take_eq hfew, hall]
  · rw [min_eq_right hmany, List.take_length, ← h.rotate_eq hmany]
    exact (List.rotate_perm cells _).symm

end WebSocketHft.Rolling

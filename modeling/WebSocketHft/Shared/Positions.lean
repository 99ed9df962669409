import Mathlib.Data.List.Nodup
import Mathlib.Logic.Function.Basic
import Mathlib.Order.Nat

/-! # Lists with an index

A list of distinct elements together with a map that knows the position of each.
An element is removed by moving the last one into its place; the map then needs
two updates. -/

namespace WebSocketHft.Positions

variable {α : Type*} {m : α → Option ℕ} {l : List α} {a b : α} {i : ℕ}

/-- The last element takes the place of the one at position `i`. -/
def swapRemove (l : List α) (i : ℕ) : List α :=
  match l.getLast? with
  | none => []
  | some b => (l.set i b).dropLast

theorem getElem?_swapRemove (l : List α) (i j : ℕ) (hi : i < l.length) :
    (swapRemove l i)[j]? =
      if j + 1 < l.length then if j = i then l.getLast? else l[j]? else none := by
  unfold swapRemove
  cases hlast : l.getLast? with
  | none =>
      rw [List.getLast?_eq_none_iff] at hlast
      rw [hlast] at hi
      exact absurd hi (Nat.not_lt_zero i)
  | some b =>
      simp only [List.getElem?_dropLast, List.length_set, List.getElem?_set]
      by_cases hj : j + 1 < l.length
      · rw [if_pos hj, if_pos (by omega)]
        by_cases hji : j = i
        · rw [if_pos hji.symm, if_pos hi, if_pos hji]
        · rw [if_neg (Ne.symm hji), if_neg hji]
      · rw [if_neg hj, if_neg (by omega)]

theorem swapRemove_of_getLast? (hb : l.getLast? = some b) (i : ℕ) :
    swapRemove l i = (l.set i b).dropLast := by
  rw [swapRemove, hb]

/-- The last element takes its own place. -/
theorem swapRemove_last (h : i + 1 = l.length) : swapRemove l i = l.dropLast := by
  have hi : i < l.length := by omega
  have hb : l.getLast? = some l[i] := by
    rw [List.getLast?_eq_getElem?, ← h, Nat.add_sub_cancel, List.getElem?_eq_getElem hi]
  rw [swapRemove_of_getLast? hb, List.set_getElem_self]

theorem map_swapRemove {β : Type*} (f : α → β) (l : List α) (i : ℕ) :
    (swapRemove l i).map f = swapRemove (l.map f) i := by
  unfold swapRemove
  rw [List.getLast?_map]
  cases l.getLast? with
  | none => rfl
  | some b => exact (List.map_dropLast).trans (congrArg List.dropLast List.map_set)

theorem length_swapRemove (l : List α) (i : ℕ) : (swapRemove l i).length = l.length - 1 := by
  unfold swapRemove
  cases hlast : l.getLast? with
  | none =>
      rw [List.getLast?_eq_none_iff] at hlast
      rw [hlast]
      rfl
  | some b => simp

/-- Nothing but the element at position `i` is lost. -/
theorem cons_swapRemove_perm (h : l[i]? = some a) : (a :: swapRemove l i).Perm l := by
  obtain ⟨hi, rfl⟩ := List.getElem?_eq_some_iff.mp h
  rcases List.eq_nil_or_concat' l with rfl | ⟨init, b, rfl⟩
  · exact absurd hi (Nat.not_lt_zero i)
  have hlast : (b :: init).Perm (init ++ [b]) := (List.perm_append_singleton b init).symm
  rw [List.length_append, List.length_singleton] at hi
  rcases Nat.lt_or_eq_of_le (Nat.le_of_lt_succ hi) with hlt | rfl
  · have hset : init.set i b = init.take i ++ b :: init.drop (i + 1) := by
      rw [List.set_eq_take_append_cons_drop, if_pos hlt]
    have hsplit : init.take i ++ init[i] :: init.drop (i + 1) = init := by simp
    have hswap : (init[i] :: (init.take i ++ b :: init.drop (i + 1))).Perm
        (b :: (init.take i ++ init[i] :: init.drop (i + 1))) :=
      (List.perm_middle.cons _).trans ((List.Perm.swap _ _ _).trans (List.perm_middle.symm.cons _))
    rw [hsplit] at hswap
    rw [swapRemove_of_getLast? List.getLast?_concat, List.set_append_left _ _ hlt,
      List.dropLast_concat, List.getElem_append_left hlt, hset]
    exact hswap.trans hlast
  · rw [swapRemove_last (by simp), List.dropLast_concat, List.getElem_concat_length rfl]
    exact hlast

/-- Behind the position only the last element is missing. -/
theorem drop_swapRemove (hi : i < l.length) :
    (swapRemove l i).drop (i + 1) = (l.drop (i + 1)).dropLast := by
  apply List.ext_getElem?
  intro j
  have hne : i + 1 + j ≠ i := by omega
  rw [List.getElem?_drop, getElem?_swapRemove l i _ hi, if_neg hne, List.getElem?_dropLast,
    List.length_drop, List.getElem?_drop]
  by_cases hj : i + 1 + j + 1 < l.length
  · rw [if_pos hj, if_pos (by omega)]
  · rw [if_neg hj, if_neg (by omega)]

/-- The map gives each element of the list its position, and nothing else. -/
def Indexes (m : α → Option ℕ) (l : List α) : Prop :=
  ∀ a i, m a = some i ↔ l[i]? = some a

namespace Indexes

theorem nil : Indexes (fun _ : α => none) [] := by
  intro a i
  simp

theorem unique (h : Indexes m l) {j : ℕ} (hi : l[i]? = some a) (hj : l[j]? = some a) : i = j := by
  have hsame := ((h a i).mpr hi).symm.trans ((h a j).mpr hj)
  exact Option.some_inj.mp hsame

theorem nodup (h : Indexes m l) : l.Nodup := by
  rw [List.nodup_iff_getElem?_ne_getElem?]
  intro i j hij hj hsame
  have hget : l[j]? = some l[j] := List.getElem?_eq_getElem hj
  exact hij.ne (h.unique (hsame.trans hget) hget)

variable [DecidableEq α]

/-- A new element goes to the end. -/
theorem push (h : Indexes m l) (ha : a ∉ l) :
    Indexes (Function.update m a (some l.length)) (l ++ [a]) := by
  intro x i
  by_cases hx : x = a
  · subst hx
    rw [Function.update_self, Option.some_inj]
    constructor
    · rintro rfl
      simp
    · intro hget
      rcases lt_trichotomy i l.length with hlt | heq | hgt
      · rw [List.getElem?_append_left hlt] at hget
        exact absurd (List.mem_of_getElem? hget) ha
      · exact heq.symm
      · rw [List.getElem?_eq_none (by simp; omega)] at hget
        cases hget
  · rw [Function.update_of_ne hx, h x i]
    by_cases hlt : i < l.length
    · rw [List.getElem?_append_left hlt]
    · rw [List.getElem?_eq_none (not_lt.mp hlt), List.getElem?_append_right (not_lt.mp hlt)]
      refine iff_of_false (by simp) fun hget => hx ?_
      exact List.mem_singleton.mp (List.mem_of_getElem? hget)

/-- Removing the last element. -/
theorem removeLast (h : Indexes m l) (ha : l[i]? = some a) (hlast : ¬i + 1 < l.length) :
    Indexes (Function.update m a none) (swapRemove l i) := by
  have hi : i < l.length := (List.getElem?_eq_some_iff.mp ha).1
  intro x j
  rw [getElem?_swapRemove l i j hi]
  by_cases hx : x = a
  · subst hx
    rw [Function.update_self]
    refine iff_of_false (by simp) ?_
    split_ifs with hj hji
    · omega
    · exact fun hget => hji (h.unique hget ha)
    · simp
  · rw [Function.update_of_ne hx, h x j]
    by_cases hj : j + 1 < l.length
    · rw [if_pos hj, if_neg (by omega)]
    · rw [if_neg hj]
      refine iff_of_false ?_ (by simp)
      intro hget
      have hlt : j < l.length := (List.getElem?_eq_some_iff.mp hget).1
      have hji : j = i := by omega
      rw [hji, ha, Option.some_inj] at hget
      exact hx hget.symm

/-- Removing another element: the last one is indexed at its new place. -/
theorem removeSwap (h : Indexes m l) (ha : l[i]? = some a) (hb : l.getLast? = some b)
    (hlt : i + 1 < l.length) :
    Indexes (Function.update (Function.update m a none) b (some i)) (swapRemove l i) := by
  have hi : i < l.length := by omega
  have hlast : l[l.length - 1]? = some b := by rw [← hb, List.getLast?_eq_getElem?]
  have hab : a ≠ b := by
    rintro rfl
    have hsame := h.unique ha hlast
    omega
  intro x j
  rw [getElem?_swapRemove l i j hi]
  by_cases hxb : x = b
  · subst hxb
    rw [Function.update_self, Option.some_inj]
    constructor
    · rintro rfl
      rw [if_pos hlt, if_pos rfl, hb]
    · intro hget
      split_ifs at hget with hj hji
      · exact hji.symm
      · have hsame := h.unique hget hlast
        omega
  · rw [Function.update_of_ne hxb]
    by_cases hxa : x = a
    · subst hxa
      rw [Function.update_self]
      refine iff_of_false (by simp) ?_
      split_ifs with hj hji
      · rw [hb, Option.some_inj]
        exact hab.symm
      · exact fun hget => hji (h.unique hget ha)
      · simp
    · rw [Function.update_of_ne hxa, h x j]
      constructor
      · intro hget
        have hj : j < l.length := (List.getElem?_eq_some_iff.mp hget).1
        have hji : j ≠ i := by
          rintro rfl
          rw [ha, Option.some_inj] at hget
          exact hxa hget.symm
        have hjlast : j ≠ l.length - 1 := by
          rintro rfl
          rw [hlast, Option.some_inj] at hget
          exact hxb hget.symm
        rw [if_pos (by omega), if_neg hji, hget]
      · intro hget
        split_ifs at hget with hj hji
        · rw [hb, Option.some_inj] at hget
          exact absurd hget.symm hxb
        · exact hget

end Indexes

end WebSocketHft.Positions

import Mathlib.Data.List.Basic
import Mathlib.Order.MinMax

/-! # Linear memory

A memory is a total function from addresses to cells. `load` reads a block of
consecutive cells and `store` overwrites one. -/

namespace WebSocketHft.Memory

variable {α : Type*}

/-- The `n` cells starting at address `a`. -/
def load (m : ℕ → α) (a n : ℕ) : List α :=
  (List.range n).map fun i => m (a + i)

/-- The memory after `xs` has been copied to address `a`. -/
def store (m : ℕ → α) (a : ℕ) (xs : List α) : ℕ → α :=
  fun j => if a ≤ j then xs.getD (j - a) (m j) else m j

/-! ## Reading blocks -/

@[simp] theorem load_length (m : ℕ → α) (a n : ℕ) : (load m a n).length = n := by
  simp [load]

@[simp] theorem load_zero (m : ℕ → α) (a : ℕ) : load m a 0 = [] := rfl

theorem getElem?_load (m : ℕ → α) (a n i : ℕ) (hi : i < n) :
    (load m a n)[i]? = some (m (a + i)) := by
  simp [load, hi]

theorem load_congr {m m' : ℕ → α} {a b n : ℕ} (h : ∀ i < n, m (a + i) = m' (b + i)) :
    load m a n = load m' b n := by
  apply List.map_congr_left
  intro i hi
  exact h i (List.mem_range.mp hi)

theorem load_add (m : ℕ → α) (a n k : ℕ) :
    load m a (n + k) = load m a n ++ load m (a + n) k := by
  simp [load, List.range_add, Nat.add_assoc]

theorem load_take (m : ℕ → α) (a n k : ℕ) (hk : k ≤ n) :
    (load m a n).take k = load m a k := by
  obtain ⟨d, rfl⟩ := Nat.exists_eq_add_of_le hk
  rw [load_add, List.take_left' (load_length m a k)]

theorem load_drop (m : ℕ → α) (a n k : ℕ) :
    (load m a n).drop k = load m (a + k) (n - k) := by
  rcases Nat.le_total k n with hk | hk
  · obtain ⟨d, rfl⟩ := Nat.exists_eq_add_of_le hk
    rw [load_add, List.drop_left' (load_length m a k), Nat.add_sub_cancel_left]
  · rw [Nat.sub_eq_zero_of_le hk, load_zero]
    exact List.drop_of_length_le (by simpa using hk)

/-- A block holds two lists one behind the other. -/
theorem load_eq_append_iff {m : ℕ → α} {a : ℕ} {s t : List α} :
    load m a (s ++ t).length = s ++ t ↔
      load m a s.length = s ∧ load m (a + s.length) t.length = t := by
  rw [List.length_append, load_add]
  constructor
  · intro h
    exact List.append_inj h (load_length m a _)
  · rintro ⟨hfirst, hsecond⟩
    rw [hfirst, hsecond]

theorem load_eq_cons_iff {m : ℕ → α} {a : ℕ} {x : α} {s : List α} :
    load m a (x :: s).length = x :: s ↔ m a = x ∧ load m (a + 1) s.length = s := by
  have h := load_eq_append_iff (m := m) (a := a) (s := [x]) (t := s)
  simpa [load] using h

theorem mem_of_load_eq {m : ℕ → α} {a i : ℕ} {s : List α} (h : load m a s.length = s)
    (hi : i < s.length) : m (a + i) ∈ s := by
  refine List.mem_of_getElem? (i := i) ?_
  rw [← getElem?_load m a s.length i hi, h]

/-! ## Writing blocks -/

theorem store_apply_of_lt (m : ℕ → α) {a j : ℕ} (xs : List α) (h : j < a) :
    store m a xs j = m j := by
  simp [store, Nat.not_le.mpr h]

theorem store_apply_of_ge (m : ℕ → α) {a j : ℕ} (xs : List α) (h : a + xs.length ≤ j) :
    store m a xs j = m j := by
  have hout : xs.length ≤ j - a := by omega
  simp [store, List.getElem?_eq_none hout]

theorem store_apply_add (m : ℕ → α) (a : ℕ) (xs : List α) {i : ℕ} (hi : i < xs.length) :
    store m a xs (a + i) = xs[i] := by
  simp [store, hi]

@[simp] theorem store_nil (m : ℕ → α) (a : ℕ) : store m a [] = m := by
  funext j
  simp [store]

theorem store_singleton (m : ℕ → α) (a : ℕ) (x : α) : store m a [x] = Function.update m a x := by
  funext j
  rcases Nat.lt_trichotomy j a with hbefore | rfl | hafter
  · rw [store_apply_of_lt m [x] hbefore, Function.update_of_ne hbefore.ne]
  · rw [Function.update_self]
    exact store_apply_add m j [x] Nat.zero_lt_one
  · rw [store_apply_of_ge m [x] hafter, Function.update_of_ne hafter.ne']

/-- A block that has just been copied is read back unchanged. -/
theorem load_store_self (m : ℕ → α) (a : ℕ) (xs : List α) :
    load (store m a xs) a xs.length = xs := by
  apply List.ext_getElem? fun i => ?_
  rcases Nat.lt_or_ge i xs.length with hi | hi
  · rw [getElem?_load _ _ _ _ hi, store_apply_add m a xs hi, List.getElem?_eq_getElem hi]
  · rw [List.getElem?_eq_none (by simpa using hi), List.getElem?_eq_none hi]

/-- A copy does not disturb a block that ends before it or starts after it. -/
theorem load_store_of_disjoint (m : ℕ → α) {a b n : ℕ} (xs : List α)
    (h : b + n ≤ a ∨ a + xs.length ≤ b) : load (store m a xs) b n = load m b n := by
  apply load_congr
  intro i hi
  rcases h with h | h
  · exact store_apply_of_lt m xs (by omega)
  · exact store_apply_of_ge m xs (by omega)

/-- Two copies next to each other. -/
theorem store_append (m : ℕ → α) (a : ℕ) (xs ys : List α) :
    store (store m a xs) (a + xs.length) ys = store m a (xs ++ ys) := by
  funext j
  rcases Nat.lt_or_ge j a with hbefore | hafter
  · rw [store_apply_of_lt _ _ (by omega), store_apply_of_lt _ _ hbefore, store_apply_of_lt _ _ hbefore]
  obtain ⟨i, rfl⟩ := Nat.exists_eq_add_of_le hafter
  rcases Nat.lt_or_ge i xs.length with hfirst | hsecond
  · rw [store_apply_of_lt _ _ (by omega), store_apply_add _ _ _ hfirst,
      store_apply_add _ _ _ (by rw [List.length_append]; omega), List.getElem_append_left hfirst]
  obtain ⟨k, rfl⟩ := Nat.exists_eq_add_of_le hsecond
  rcases Nat.lt_or_ge k ys.length with hinside | hbehind
  · rw [← Nat.add_assoc, store_apply_add _ _ _ hinside, Nat.add_assoc,
      store_apply_add _ _ _ (by rw [List.length_append]; omega), List.getElem_append_right (by omega)]
    simp
  · rw [store_apply_of_ge _ _ (by omega), store_apply_of_ge _ _ (by omega),
      store_apply_of_ge _ _ (by rw [List.length_append]; omega)]

/-! ## Copies over one another -/

/-- What copies to one address leave at an offset, the later ones on top. -/
def residue : List (List α) → ℕ → Option α
  | [], _ => none
  | xs :: later, i => (residue later i).or xs[i]?

theorem residue_append (first later : List (List α)) (i : ℕ) :
    residue (first ++ later) i = (residue later i).or (residue first i) := by
  induction first with
  | nil => rw [List.nil_append, residue, Option.or_none]
  | cons xs first ih => rw [List.cons_append, residue, residue, ih, Option.or_assoc]

theorem foldl_store_apply (m : ℕ → α) (a : ℕ) (copies : List (List α)) (i : ℕ) :
    copies.foldl (fun m xs => store m a xs) m (a + i) = (residue copies i).getD (m (a + i)) := by
  induction copies generalizing m with
  | nil => rfl
  | cons xs copies ih =>
      rw [List.foldl_cons, ih, residue]
      cases residue copies i with
      | some x => rfl
      | none => simp [store]

end WebSocketHft.Memory

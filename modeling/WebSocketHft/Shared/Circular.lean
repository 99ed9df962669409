import WebSocketHft.Shared.Memory

/-! # Circular buffers

The first `size` cells of a memory are used as a ring. A window is read from a
start position and continues at cell zero when it reaches the end. Two positions
delimit the occupied part: the reader's and the writer's. -/

namespace WebSocketHft.Circular

open WebSocketHft.Memory

variable {α : Type*}

/-- The `n` cells of the ring that follow position `s`. -/
def window (m : ℕ → α) (size s n : ℕ) : List α :=
  (List.range n).map fun i => m ((s + i) % size)

/-- The number of steps from position `r` forward to position `w`. -/
def distance (size r w : ℕ) : ℕ :=
  if r ≤ w then w - r else size - r + w

/-- Copying out of a ring in at most two linear pieces. -/
def circularLoad (size : ℕ) (m : ℕ → α) (s n : ℕ) : List α :=
  if s + n ≤ size then load m s n
  else load m s (size - s) ++ load m 0 (n - (size - s))

/-- Copying into a ring in at most two linear pieces. -/
def circularStore (size : ℕ) (m : ℕ → α) (s : ℕ) (xs : List α) : ℕ → α :=
  if s + xs.length ≤ size then store m s xs
  else store (store m s (xs.take (size - s))) 0 (xs.drop (size - s))

/-! ## Positions -/

/-- A position moved forward by at most one lap wraps at most once. -/
theorem add_mod_eq_ite {size s i : ℕ} (hs : s < size) (hi : i ≤ size) :
    (s + i) % size = if s + i < size then s + i else s + i - size := by
  split
  · rename_i h
    exact Nat.mod_eq_of_lt h
  · rename_i h
    rw [Nat.mod_eq_sub_mod (by omega), Nat.mod_eq_of_lt (by omega)]

/-- Two different steps of less than one lap end in different cells. -/
theorem add_mod_ne {size s i j : ℕ} (hs : s < size) (hij : i < j) (hj : j < size) :
    (s + i) % size ≠ (s + j) % size := by
  rw [add_mod_eq_ite hs (by omega), add_mod_eq_ite hs (by omega)]
  split <;> split <;> omega

/-- Absolute positions less than one lap apart are different cells. -/
theorem mod_ne_mod {size a b : ℕ} (hab : a < b) (hb : b < a + size) : a % size ≠ b % size := by
  intro h
  have hdvd : size ∣ b - a := Nat.dvd_of_mod_eq_zero (Nat.sub_mod_eq_zero_of_mod_eq h.symm)
  have hle := Nat.le_of_dvd (by omega) hdvd
  omega

theorem distance_lt {size r w : ℕ} (hr : r < size) (hw : w < size) :
    distance size r w < size := by
  unfold distance
  split <;> omega

@[simp] theorem distance_self (size r : ℕ) : distance size r r = 0 := by
  simp [distance]

theorem add_distance_mod {size r w : ℕ} (hr : r < size) (hw : w < size) :
    (r + distance size r w) % size = w := by
  rw [add_mod_eq_ite hr (distance_lt hr hw).le]
  unfold distance
  split <;> split <;> omega

/-- Moving the writer forward without completing a lap lengthens the occupied part. -/
theorem distance_add_right {size r w n : ℕ} (hr : r < size) (hw : w < size)
    (hn : distance size r w + n < size) :
    distance size r ((w + n) % size) = distance size r w + n := by
  rw [add_mod_eq_ite hw (by omega)]
  unfold distance at *
  split_ifs at * <;> omega

/-- The distance between two absolute positions less than one lap apart. -/
theorem distance_mod {size a d : ℕ} (hd : d < size) :
    distance size (a % size) ((a + d) % size) = d := by
  have ha : a % size < size := Nat.mod_lt _ (by omega)
  have h := distance_add_right ha ha (show distance size (a % size) (a % size) + d < size by simpa using hd)
  simpa [Nat.mod_add_mod] using h

/-- Moving the reader forward inside the occupied part shortens it. -/
theorem distance_add_left {size r w n : ℕ} (hr : r < size) (hw : w < size)
    (hn : n ≤ distance size r w) :
    distance size ((r + n) % size) w = distance size r w - n := by
  have hlt := distance_lt hr hw
  rw [add_mod_eq_ite hr (by omega)]
  unfold distance at *
  split_ifs at * <;> omega

/-! ## Windows -/

@[simp] theorem window_length (m : ℕ → α) (size s n : ℕ) :
    (window m size s n).length = n := by
  simp [window]

@[simp] theorem window_zero (m : ℕ → α) (size s : ℕ) : window m size s 0 = [] := rfl

theorem getElem?_window (m : ℕ → α) (size s n i : ℕ) (hi : i < n) :
    (window m size s n)[i]? = some (m ((s + i) % size)) := by
  simp [window, hi]

theorem window_congr {m m' : ℕ → α} {size s n : ℕ}
    (h : ∀ i < n, m ((s + i) % size) = m' ((s + i) % size)) :
    window m size s n = window m' size s n := by
  apply List.map_congr_left
  intro i hi
  exact h i (List.mem_range.mp hi)

theorem window_add (m : ℕ → α) (size s n k : ℕ) :
    window m size s (n + k) = window m size s n ++ window m size (s + n) k := by
  simp [window, List.range_add, Nat.add_assoc]

@[simp] theorem window_mod (m : ℕ → α) (size s n : ℕ) :
    window m size (s % size) n = window m size s n := by
  simp [window]

theorem window_take (m : ℕ → α) (size s n k : ℕ) (hk : k ≤ n) :
    (window m size s n).take k = window m size s k := by
  obtain ⟨d, rfl⟩ := Nat.exists_eq_add_of_le hk
  rw [window_add, List.take_left' (window_length m size s k)]

theorem window_drop (m : ℕ → α) (size s n k : ℕ) (hk : k ≤ n) :
    (window m size s n).drop k = window m size (s + k) (n - k) := by
  obtain ⟨d, rfl⟩ := Nat.exists_eq_add_of_le hk
  rw [window_add, List.drop_left' (window_length m size s k), Nat.add_sub_cancel_left]

/-- A window that stays before the end of the ring is a linear block. -/
theorem window_eq_load (m : ℕ → α) {size s n : ℕ} (h : s + n ≤ size) :
    window m size s n = load m s n := by
  apply List.map_congr_left
  intro i hi
  have hlt := List.mem_range.mp hi
  rw [Nat.mod_eq_of_lt (by omega)]

theorem circularLoad_eq_window (m : ℕ → α) {size s n : ℕ} (hs : s < size) (hn : n ≤ size) :
    circularLoad size m s n = window m size s n := by
  unfold circularLoad
  split
  · rename_i h
    exact (window_eq_load m h).symm
  · rename_i h
    obtain ⟨d, rfl⟩ : ∃ d, n = (size - s) + d := ⟨n - (size - s), by omega⟩
    rw [window_add, window_eq_load m (by omega), Nat.add_sub_cancel_left]
    congr 1
    have hsz : s + (size - s) = size := by omega
    rw [hsz, ← window_mod, Nat.mod_self, window_eq_load m (by omega)]

/-! ## Copying in -/

/-- The copied elements land in the cells that follow the start position. -/
theorem circularStore_apply_add (m : ℕ → α) {size s : ℕ} (xs : List α) (hs : s < size)
    (hlen : xs.length ≤ size) {i : ℕ} (hi : i < xs.length) :
    circularStore size m s xs ((s + i) % size) = xs[i] := by
  unfold circularStore
  split
  · rename_i h
    rw [Nat.mod_eq_of_lt (by omega), store_apply_add m s xs hi]
  · rename_i h
    rw [add_mod_eq_ite hs (by omega)]
    split
    · rename_i hlt
      have hi' : i < (xs.take (size - s)).length := by simp; omega
      rw [store_apply_of_ge _ _ (by simp; omega), store_apply_add m s _ hi']
      simp
    · rename_i hge
      have hi' : i - (size - s) < (xs.drop (size - s)).length := by simp; omega
      have hcell : s + i - size = 0 + (i - (size - s)) := by omega
      rw [hcell, store_apply_add _ _ _ hi']
      simp only [List.getElem_drop]
      congr 1
      omega

/-- The other cells of the ring keep their contents. -/
theorem circularStore_apply_of_ge (m : ℕ → α) {size s : ℕ} (xs : List α) (hs : s < size)
    {i : ℕ} (hi : xs.length ≤ i) (hlt : i < size) :
    circularStore size m s xs ((s + i) % size) = m ((s + i) % size) := by
  rw [add_mod_eq_ite hs hlt.le]
  unfold circularStore
  split <;> split
  · exact store_apply_of_ge m xs (by omega)
  · exact store_apply_of_lt m xs (by omega)
  · omega
  · rw [store_apply_of_ge _ _ (by simp; omega), store_apply_of_lt m _ (by omega)]

/-- Cells past the end of the ring are never written. -/
theorem circularStore_apply_of_size_le (m : ℕ → α) {size s : ℕ} (xs : List α) (hs : s < size)
    (hlen : xs.length ≤ size) {j : ℕ} (hj : size ≤ j) :
    circularStore size m s xs j = m j := by
  unfold circularStore
  split
  · exact store_apply_of_ge m xs (by omega)
  · rw [store_apply_of_ge _ _ (by simp; omega), store_apply_of_ge m _ (by simp; omega)]

/-- What has been copied in is what the window at the same position shows. -/
theorem window_circularStore_self (m : ℕ → α) {size s : ℕ} (xs : List α) (hs : s < size)
    (hlen : xs.length ≤ size) : window (circularStore size m s xs) size s xs.length = xs := by
  apply List.ext_getElem? fun i => ?_
  rcases Nat.lt_or_ge i xs.length with hi | hi
  · rw [getElem?_window _ _ _ _ _ hi, circularStore_apply_add m xs hs hlen hi,
      List.getElem?_eq_getElem hi]
  · rw [List.getElem?_eq_none (by simpa using hi), List.getElem?_eq_none hi]

/-- The cell `i` steps behind `s`, reached from the one `n` steps behind it by going around. -/
theorem add_mod_around {size n : ℕ} (s i : ℕ) (hn : n ≤ size) :
    (s + i) % size = ((s + n) % size + (size - n + i)) % size := by
  have hsum : s + n + (size - n + i) = s + i + size := by omega
  rw [Nat.mod_add_mod, hsum, Nat.add_mod_right]

/-- Copying in behind an occupied window leaves that window unchanged, as long as
both together fit in the ring. -/
theorem window_circularStore_of_fits (m : ℕ → α) {size r n : ℕ} (xs : List α) (hr : r < size)
    (hfit : n + xs.length ≤ size) :
    window (circularStore size m ((r + n) % size) xs) size r n = window m size r n := by
  apply window_congr
  intro i hi
  have hs : (r + n) % size < size := Nat.mod_lt _ (by omega)
  have hn : n ≤ size := by omega
  rw [add_mod_around r i hn]
  exact circularStore_apply_of_ge m xs hs (by omega) (by omega)

/-- Copying in two blocks one after the other is copying in their concatenation. -/
theorem circularStore_append (m : ℕ → α) {size s : ℕ} (xs ys : List α) (hs : s < size)
    (hlen : xs.length + ys.length ≤ size) :
    circularStore size (circularStore size m s xs) ((s + xs.length) % size) ys =
      circularStore size m s (xs ++ ys) := by
  have hnext : (s + xs.length) % size < size := Nat.mod_lt _ (by omega)
  have hboth : (xs ++ ys).length ≤ size := by rwa [List.length_append]
  funext j
  rcases Nat.lt_or_ge j size with hj | hj
  · -- every cell of the ring is some number of steps behind the start
    obtain ⟨i, hi, hcell⟩ : ∃ i < size, j = (s + i) % size :=
      ⟨distance size s j, distance_lt hs hj, (add_distance_mod hs hj).symm⟩
    rcases Nat.lt_or_ge i xs.length with hfirst | hfirst
    · have hback : (s + i) % size = ((s + xs.length) % size + (size - xs.length + i)) % size :=
        add_mod_around s i (by omega)
      have hin : i < (xs ++ ys).length := by
        rw [List.length_append]
        omega
      rw [hcell, circularStore_apply_add m (xs ++ ys) hs hboth hin, hback,
        circularStore_apply_of_ge _ ys hnext (by omega) (by omega), ← hback,
        circularStore_apply_add m xs hs (by omega) hfirst, List.getElem_append_left hfirst]
    · have hahead : (s + i) % size = ((s + xs.length) % size + (i - xs.length)) % size := by
        rw [Nat.mod_add_mod, Nat.add_assoc, Nat.add_sub_of_le hfirst]
      rcases Nat.lt_or_ge i (xs ++ ys).length with hin | hout
      · have hrest : i - xs.length < ys.length := by
          rw [List.length_append] at hin
          omega
        rw [hcell, circularStore_apply_add m (xs ++ ys) hs hboth hin, hahead,
          circularStore_apply_add _ ys hnext (by omega) hrest, List.getElem_append_right hfirst]
      · have hrest : ys.length ≤ i - xs.length := by
          rw [List.length_append] at hout
          omega
        rw [hcell, circularStore_apply_of_ge m (xs ++ ys) hs hout hi, hahead,
          circularStore_apply_of_ge _ ys hnext hrest (by omega), ← hahead,
          circularStore_apply_of_ge m xs hs hfirst hi]
  · rw [circularStore_apply_of_size_le _ ys hnext (by omega) hj,
      circularStore_apply_of_size_le m xs hs (by omega) hj,
      circularStore_apply_of_size_le m (xs ++ ys) hs hboth hj]

end WebSocketHft.Circular

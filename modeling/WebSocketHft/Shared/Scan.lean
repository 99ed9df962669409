import WebSocketHft.Shared.Substring

/-! # Scanning loops

A loop that visits positions in order and leaves at the first hit, and the positions
it visits on the way. -/

namespace WebSocketHft.Scan

open WebSocketHft.Memory WebSocketHft.Substring

section Loops

variable (p : ℕ → Prop) [DecidablePred p]

/-- The first hit among the `n` positions from `i` on. -/
def firstFrom : ℕ → ℕ → Option ℕ
  | 0, _ => none
  | n + 1, i => if p i then some i else firstFrom n (i + 1)

/-- The first hit, or the end of the range. -/
def stopFrom : ℕ → ℕ → ℕ
  | 0, i => i
  | n + 1, i => if p i then i else stopFrom n (i + 1)

/-- The positions that are looked at, the hit included. -/
def visited : ℕ → ℕ → List ℕ
  | 0, _ => []
  | n + 1, i => i :: if p i then [] else visited n (i + 1)

end Loops

variable {p q : ℕ → Prop} [DecidablePred p] [DecidablePred q]

theorem firstFrom_eq_none_iff {n i : ℕ} :
    firstFrom p n i = none ↔ ∀ k, i ≤ k → k < i + n → ¬p k := by
  induction n generalizing i with
  | zero => exact iff_of_true rfl fun k hle hlt => absurd hlt (by omega)
  | succ n ih =>
      rw [firstFrom]
      by_cases hi : p i
      · rw [if_pos hi]
        exact iff_of_false (Option.some_ne_none i) fun h => h i le_rfl (by omega) hi
      · rw [if_neg hi, ih]
        constructor
        · intro h k hle hlt
          rcases Nat.eq_or_lt_of_le hle with rfl | hnext
          · exact hi
          · exact h k hnext (by omega)
        · intro h k hle hlt
          exact h k (by omega) (by omega)

theorem firstFrom_eq_some_iff {n i k : ℕ} :
    firstFrom p n i = some k ↔ i ≤ k ∧ k < i + n ∧ p k ∧ ∀ j, i ≤ j → j < k → ¬p j := by
  induction n generalizing i with
  | zero => exact iff_of_false (Option.some_ne_none k).symm fun h => absurd h.2.1 (by omega)
  | succ n ih =>
      rw [firstFrom]
      split_ifs with hi
      · rw [Option.some.injEq]
        constructor
        · rintro rfl
          exact ⟨le_rfl, by omega, hi, fun j hle hlt => absurd hlt (by omega)⟩
        · rintro ⟨hle, -, -, hfirst⟩
          by_contra hne
          exact hfirst i le_rfl (by omega) hi
      · rw [ih]
        constructor
        · rintro ⟨hle, hlt, hk, hfirst⟩
          refine ⟨by omega, by omega, hk, fun j hj hjk => ?_⟩
          rcases Nat.eq_or_lt_of_le hj with rfl | hnext
          · exact hi
          · exact hfirst j hnext hjk
        · rintro ⟨hle, hlt, hk, hfirst⟩
          have hne : i ≠ k := by
            rintro rfl
            exact hi hk
          exact ⟨by omega, by omega, hk, fun j hj hjk => hfirst j (by omega) hjk⟩

/-- Loops over neighbouring ranges. -/
theorem firstFrom_add (n m i : ℕ) :
    firstFrom p (n + m) i = (firstFrom p n i).or (firstFrom p m (i + n)) := by
  induction n generalizing i with
  | zero => rw [Nat.zero_add, firstFrom, Option.none_or, Nat.add_zero]
  | succ n ih =>
      rw [Nat.add_right_comm, firstFrom, firstFrom]
      split_ifs
      · rfl
      · rw [ih, Nat.add_assoc, Nat.add_comm 1 n]

theorem firstFrom_congr {n i : ℕ} (h : ∀ k, i ≤ k → k < i + n → (p k ↔ q k)) :
    firstFrom p n i = firstFrom q n i := by
  induction n generalizing i with
  | zero => rfl
  | succ n ih =>
      rw [firstFrom, firstFrom, ih fun k hle hlt => h k (by omega) (by omega)]
      exact if_congr (h i le_rfl (by omega)) rfl rfl

theorem mem_visited_iff {n i k : ℕ} :
    k ∈ visited p n i ↔ i ≤ k ∧ k < i + n ∧ ∀ j, i ≤ j → j < k → ¬p j := by
  induction n generalizing i with
  | zero => exact iff_of_false List.not_mem_nil fun h => absurd h.2.1 (by omega)
  | succ n ih =>
      rw [visited, List.mem_cons]
      split_ifs with hi
      · constructor
        · rintro (rfl | hk)
          · exact ⟨le_rfl, by omega, fun j hle hlt => absurd hlt (by omega)⟩
          · exact absurd hk List.not_mem_nil
        · rintro ⟨hle, -, hfirst⟩
          rcases Nat.eq_or_lt_of_le hle with rfl | hlt
          · exact Or.inl rfl
          · exact absurd hi (hfirst i le_rfl hlt)
      · rw [ih]
        constructor
        · rintro (rfl | ⟨hle, hlt, hfirst⟩)
          · exact ⟨le_rfl, by omega, fun j hle hlt => absurd hlt (by omega)⟩
          · refine ⟨by omega, by omega, fun j hj hjk => ?_⟩
            rcases Nat.eq_or_lt_of_le hj with rfl | hnext
            · exact hi
            · exact hfirst j hnext hjk
        · rintro ⟨hle, hlt, hfirst⟩
          rcases Nat.eq_or_lt_of_le hle with rfl | hnext
          · exact Or.inl rfl
          · exact Or.inr ⟨hnext, by omega, fun j hj hjk => hfirst j (by omega) hjk⟩

theorem visited_lt {n i k : ℕ} (h : k ∈ visited p n i) : k < i + n :=
  (mem_visited_iff.mp h).2.1

/-- Only the visited positions matter. -/
theorem firstFrom_congr_visited {n i : ℕ} (h : ∀ k ∈ visited p n i, (p k ↔ q k)) :
    firstFrom p n i = firstFrom q n i := by
  induction n generalizing i with
  | zero => rfl
  | succ n ih =>
      have hhead := h i List.mem_cons_self
      rw [firstFrom, firstFrom]
      by_cases hi : p i
      · rw [if_pos hi, if_pos (hhead.mp hi)]
      · rw [if_neg hi, if_neg (mt hhead.mpr hi)]
        refine ih fun k hk => h k (List.mem_cons_of_mem i ?_)
        rwa [if_neg hi]

/-! ## Loops that stop -/

theorem stopFrom_bounds (p : ℕ → Prop) [DecidablePred p] (n i : ℕ) :
    i ≤ stopFrom p n i ∧ stopFrom p n i ≤ i + n := by
  induction n generalizing i with
  | zero => exact ⟨le_rfl, le_rfl⟩
  | succ n ih =>
      have hnext := ih (i + 1)
      rw [stopFrom]
      split_ifs <;> omega

/-- It stops at the hit that a search would return, or at the end. -/
theorem stopFrom_eq_getD (p : ℕ → Prop) [DecidablePred p] (n i : ℕ) :
    stopFrom p n i = (firstFrom p n i).getD (i + n) := by
  induction n generalizing i with
  | zero => rfl
  | succ n ih =>
      rw [stopFrom, firstFrom]
      split_ifs
      · rfl
      · rw [ih, Nat.add_right_comm, Nat.add_assoc]

theorem stopFrom_congr_visited {n i : ℕ} (h : ∀ k ∈ visited p n i, (p k ↔ q k)) :
    stopFrom p n i = stopFrom q n i := by
  rw [stopFrom_eq_getD, stopFrom_eq_getD, firstFrom_congr_visited h]

/-- The loop stops at the first hit. -/
theorem stopFrom_eq {n i j : ℕ} (hbefore : ∀ k, i ≤ k → k < j → ¬p k) (hj : p j) (hle : i ≤ j)
    (hlt : j < i + n) : stopFrom p n i = j := by
  induction n generalizing i with
  | zero => omega
  | succ n ih =>
      rw [stopFrom]
      rcases Nat.eq_or_lt_of_le hle with rfl | hnext
      · rw [if_pos hj]
      · rw [if_neg (hbefore i le_rfl hnext)]
        exact ih (fun k hk => hbefore k (by omega)) hnext (by omega)

/-! ## Patterns in memory -/

variable {α : Type*}

theorem prefix_load_iff {m : ℕ → α} {pat : List α} {a n : ℕ} :
    pat <+: load m a n ↔ pat.length ≤ n ∧ load m a pat.length = pat := by
  constructor
  · intro h
    have hlen := h.length_le
    rw [load_length] at hlen
    refine ⟨hlen, ?_⟩
    have htake := List.prefix_iff_eq_take.mp h
    rwa [load_take m a n _ hlen, eq_comm] at htake
  · rintro ⟨hlen, hload⟩
    rw [← hload, ← load_take m a n _ hlen]
    exact List.take_prefix _ _

/-- The pattern lies at position `i` of a text of `len` cells. -/
def OccursAt (m : ℕ → α) (len : ℕ) (pat : List α) (i : ℕ) : Prop :=
  i + pat.length ≤ len ∧ load m i pat.length = pat

variable [DecidableEq α]

instance (m : ℕ → α) (len : ℕ) (pat : List α) : DecidablePred (OccursAt m len pat) :=
  fun _ => inferInstanceAs (Decidable (_ ∧ _))

/-- The first occurrence in a block of memory is found by looking at every position. -/
theorem findInfix_load {m : ℕ → α} {pat : List α} (hpat : pat ≠ []) (a n : ℕ) :
    (findInfix pat (load m a n)).map (a + ·) = firstFrom (OccursAt m (a + n) pat) n a := by
  induction n generalizing a with
  | zero => simp [findInfix, firstFrom, hpat]
  | succ n ih =>
      have hcons : load m a (n + 1) = m a :: load m (a + 1) n := by
        rw [Nat.add_comm n 1, load_add]
        rfl
      have hiff : pat <+: load m a (n + 1) ↔ OccursAt m (a + (n + 1)) pat a := by
        rw [prefix_load_iff, OccursAt, Nat.add_le_add_iff_left]
      rw [firstFrom]
      by_cases h : OccursAt m (a + (n + 1)) pat a
      · rw [if_pos h, findInfix_of_prefix (hiff.mpr h)]
        rfl
      · have hnot := mt hiff.mp h
        rw [hcons] at hnot ⊢
        have hrest := ih (a + 1)
        rw [if_neg h, findInfix_cons_neg hnot, Option.map_map]
        have hlen : a + (n + 1) = a + 1 + n := by omega
        rw [hlen, ← hrest]
        refine congrArg (Option.map · _) (funext fun k => ?_)
        exact (Nat.add_right_comm a 1 k).symm ▸ rfl

end WebSocketHft.Scan

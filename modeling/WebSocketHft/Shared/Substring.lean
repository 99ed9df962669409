import Mathlib.Data.List.Infix
import Mathlib.Data.List.TakeWhile
import WebSocketHft.Shared.Memory

/-! # Searching for a block inside a list

The position of the first occurrence of a pattern, and strings that end at a
terminator. -/

namespace WebSocketHft.Substring

open WebSocketHft.Memory

variable {α : Type*} [DecidableEq α]

/-- The first position at which `pat` occurs. -/
def findInfix (pat : List α) : List α → Option ℕ
  | [] => if pat = [] then some 0 else none
  | x :: xs => if pat <+: x :: xs then some 0 else (findInfix pat xs).map (· + 1)

/-- The cells from address `a` up to the first terminator, at most `n` of them. -/
def stringAt (m : ℕ → α) (terminator : α) : ℕ → ℕ → List α
  | _, 0 => []
  | a, n + 1 => if m a = terminator then [] else m a :: stringAt m terminator (a + 1) n

/-! ## The first occurrence -/

theorem findInfix_cons_pos {pat : List α} {x : α} {xs : List α} (h : pat <+: x :: xs) :
    findInfix pat (x :: xs) = some 0 := if_pos h

theorem findInfix_cons_neg {pat : List α} {x : α} {xs : List α} (h : ¬pat <+: x :: xs) :
    findInfix pat (x :: xs) = (findInfix pat xs).map (· + 1) := if_neg h

/-- A pattern is found exactly when it occurs. -/
theorem findInfix_isSome {pat s : List α} : (findInfix pat s).isSome ↔ pat <:+: s := by
  induction s with
  | nil =>
      by_cases h : pat = []
      · simp [findInfix, h]
      · simp [findInfix, h]
  | cons x xs ih =>
      rw [List.infix_cons_iff]
      by_cases h : pat <+: x :: xs
      · simp [findInfix_cons_pos h, h]
      · simp [findInfix_cons_neg h, h, ih]

theorem add_length_le_of_findInfix {pat s : List α} {i : ℕ} (h : findInfix pat s = some i) :
    i + pat.length ≤ s.length := by
  induction s generalizing i with
  | nil =>
      by_cases hnil : pat = []
      · subst hnil
        simpa [findInfix, eq_comm] using h
      · simp [findInfix, hnil] at h
  | cons x xs ih =>
      by_cases hpre : pat <+: x :: xs
      · rw [findInfix_cons_pos hpre, Option.some.injEq] at h
        subst h
        simpa using hpre.length_le
      · rw [findInfix_cons_neg hpre, Option.map_eq_some_iff] at h
        obtain ⟨j, hj, rfl⟩ := h
        have := ih hj
        simp only [List.length_cons]
        omega

/-- More bytes behind the first occurrence do not move it. -/
theorem findInfix_append {pat s : List α} {i : ℕ} (h : findInfix pat s = some i) (t : List α) :
    findInfix pat (s ++ t) = some i := by
  induction s generalizing i with
  | nil =>
      by_cases hnil : pat = []
      · subst hnil
        cases t with
        | nil => exact h
        | cons y ys => exact (findInfix_cons_pos List.nil_prefix).trans h
      · simp [findInfix, hnil] at h
  | cons x xs ih =>
      by_cases hpre : pat <+: x :: xs
      · rw [findInfix_cons_pos hpre] at h
        have hlong : pat <+: x :: (xs ++ t) := hpre.trans (List.prefix_append (x :: xs) t)
        rw [List.cons_append, findInfix_cons_pos hlong, h]
      · rw [findInfix_cons_neg hpre, Option.map_eq_some_iff] at h
        obtain ⟨j, hj, rfl⟩ := h
        have hlen := add_length_le_of_findInfix hj
        have hnot : ¬pat <+: x :: (xs ++ t) := by
          intro hlong
          exact hpre (List.prefix_of_prefix_length_le hlong (List.prefix_append (x :: xs) t)
            (by simp only [List.length_cons]; omega))
        rw [List.cons_append, findInfix_cons_neg hnot, ih hj]
        rfl

theorem findInfix_of_prefix {pat s : List α} (h : pat <+: s) : findInfix pat s = some 0 := by
  cases s with
  | nil => simp [findInfix, List.prefix_nil.mp h]
  | cons x xs => exact findInfix_cons_pos h

/-- The part up to the end of the first occurrence is enough to find it. -/
theorem findInfix_take {pat s : List α} {i : ℕ} (h : findInfix pat s = some i) :
    findInfix pat (s.take (i + pat.length)) = some i := by
  induction s generalizing i with
  | nil => rwa [List.take_nil]
  | cons x xs ih =>
      by_cases hpre : pat <+: x :: xs
      · rw [findInfix_cons_pos hpre, Option.some.injEq] at h
        subst h
        refine findInfix_of_prefix ?_
        rw [Nat.zero_add, ← List.prefix_iff_eq_take.mp hpre]
      · rw [findInfix_cons_neg hpre, Option.map_eq_some_iff] at h
        obtain ⟨j, hj, rfl⟩ := h
        have hnot : ¬pat <+: x :: xs.take (j + pat.length) := by
          intro hshort
          exact hpre (hshort.trans (List.prefix_cons_inj x |>.mpr (List.take_prefix _ xs)))
        rw [Nat.add_right_comm, List.take_succ_cons, findInfix_cons_neg hnot, ih hj]
        rfl

/-- A part that holds the pattern reaches to the end of its first occurrence. -/
theorem add_length_le_of_infix_take {pat s : List α} {i p : ℕ} (h : findInfix pat s = some i)
    (hin : pat <:+: s.take p) : i + pat.length ≤ p := by
  obtain ⟨j, hj⟩ := Option.isSome_iff_exists.mp (findInfix_isSome.mpr hin)
  have hsame := findInfix_append hj (s.drop p)
  rw [List.take_append_drop, h, Option.some.injEq] at hsame
  have hle := add_length_le_of_findInfix hj
  rw [← hsame] at hle
  exact hle.trans (List.length_take_le p s)

/-! ## Texts in which a pattern does not start -/

/-- The pattern occurs at no position of the first list when the second one follows it. -/
def NoStart {β : Type*} (pat : List β) : List β → List β → Prop
  | [], _ => True
  | x :: s, t => ¬pat <+: x :: (s ++ t) ∧ NoStart pat s t

theorem noStart_append {β : Type*} {pat s₁ s₂ t : List β} :
    NoStart pat (s₁ ++ s₂) t ↔ NoStart pat s₁ (s₂ ++ t) ∧ NoStart pat s₂ t := by
  induction s₁ with
  | nil => exact (and_iff_right trivial).symm
  | cons x s₁ ih => rw [List.cons_append, NoStart, NoStart, ih, List.append_assoc, and_assoc]

/-- A pattern starts with its first symbol. -/
theorem noStart_of_not_mem {β : Type*} {x : β} {pat s : List β} (h : x ∉ s) (t : List β) :
    NoStart (x :: pat) s t := by
  induction s with
  | nil => exact trivial
  | cons y s ih =>
      refine ⟨fun hpre => ?_, ih (List.not_mem_of_not_mem_cons h)⟩
      exact List.ne_of_not_mem_cons h (List.cons_prefix_cons.mp hpre).1

theorem findInfix_of_noStart {pat s t : List α} (hs : NoStart pat s t) (ht : pat <+: t) :
    findInfix pat (s ++ t) = some s.length := by
  induction s with
  | nil => exact findInfix_of_prefix ht
  | cons x s ih =>
      rw [List.cons_append, findInfix_cons_neg hs.1, ih hs.2]
      rfl

/-- A name that ends at the first delimiter is determined by what it is a prefix of. -/
theorem eq_of_delimited {β : Type*} {d : β} {s₁ s₂ t₁ t₂ : List β} (h₁ : d ∉ s₁) (h₂ : d ∉ s₂)
    (h : s₁ ++ d :: t₁ <+: s₂ ++ d :: t₂) : s₁ = s₂ := by
  induction s₁ generalizing s₂ with
  | nil =>
      cases s₂ with
      | nil => rfl
      | cons y s₂ => exact absurd (List.cons_prefix_cons.mp h).1 (List.ne_of_not_mem_cons h₂)
  | cons x s₁ ih =>
      cases s₂ with
      | nil => exact absurd (List.cons_prefix_cons.mp h).1.symm (List.ne_of_not_mem_cons h₁)
      | cons y s₂ =>
          obtain ⟨hhead, htail⟩ := List.cons_prefix_cons.mp h
          rw [hhead, ih (List.not_mem_of_not_mem_cons h₁) (List.not_mem_of_not_mem_cons h₂) htail]

/-! ## Strings -/

/-- Up to its terminator a longer list has the same elements and perhaps more. -/
theorem takeWhile_prefix_takeWhile {β : Type*} (p : β → Bool) {s s' : List β} (h : s <+: s') :
    s.takeWhile p <+: s'.takeWhile p := by
  obtain ⟨t, rfl⟩ := h
  have hwhile : s.takeWhile p <+: s := List.takeWhile_prefix p
  rw [List.takeWhile_append]
  split_ifs
  · exact hwhile.trans (List.prefix_append _ _)
  · exact List.prefix_rfl

theorem length_takeWhile_lt {s : List α} {terminator : α} (h : terminator ∈ s) :
    (s.takeWhile (· ≠ terminator)).length < s.length := by
  have hpre : s.takeWhile (· ≠ terminator) <+: s := List.takeWhile_prefix _
  refine lt_of_le_of_ne hpre.length_le ?_
  intro hall
  have hmem : terminator ∈ s.takeWhile (· ≠ terminator) := by rwa [hpre.eq_of_length hall]
  simpa using List.mem_takeWhile_imp hmem

/-- No terminator stands in a part that the string covers. -/
theorem not_mem_take_of_le_takeWhile {s : List α} (t : List α) {terminator : α} {n : ℕ} (hs : n ≤ s.length)
    (hn : n ≤ ((s ++ t).takeWhile (· ≠ terminator)).length) : terminator ∉ s.take n := by
  have hpre : (s ++ t).takeWhile (· ≠ terminator) <+: s ++ t := List.takeWhile_prefix _
  have hwhole := List.prefix_iff_eq_take.mp hpre
  have hfront : s.take n = ((s ++ t).takeWhile (· ≠ terminator)).take n := by
    calc s.take n = (s ++ t).take n := (List.take_append_of_le_length hs).symm
      _ = ((s ++ t).take ((s ++ t).takeWhile (· ≠ terminator)).length).take n := by
          rw [List.take_take, min_eq_left hn]
      _ = ((s ++ t).takeWhile (· ≠ terminator)).take n := by rw [← hwhole]
  rw [hfront]
  intro hmem
  simpa using List.mem_takeWhile_imp (List.mem_of_mem_take hmem)

theorem stringAt_eq_takeWhile (m : ℕ → α) (terminator : α) (a n : ℕ) :
    stringAt m terminator a n = (load m a n).takeWhile (· ≠ terminator) := by
  induction n generalizing a with
  | zero => rfl
  | succ n ih =>
      have hcons : load m a (n + 1) = m a :: load m (a + 1) n := by
        rw [Nat.add_comm n 1, load_add]
        rfl
      rw [stringAt, ih, hcons]
      by_cases h : m a = terminator
      · simp [h]
      · simp [h]

end WebSocketHft.Substring

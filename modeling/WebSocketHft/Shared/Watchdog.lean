import Mathlib.Data.List.Basic
import Mathlib.Order.Nat

/-! # Watchdogs

A watchdog is started again at each look that comes an interval after its last
start, and expires at a look that comes a timeout after it. A watchdog whose start
is at time 0 is not running. -/

namespace WebSocketHft

/-- The last start, the last answer, and how often the watchdog has expired. -/
structure Watchdog where
  started : ℕ
  answered : ℕ
  expirations : ℕ

namespace Watchdog

variable (interval timeout : ℕ)

/-- The last start after a look at the time `t`. -/
def restarted (started t : ℕ) : ℕ :=
  if started = 0 ∨ started + interval ≤ t then t else started

/-- Has the watchdog been waiting for an answer for the timeout? -/
def Overdue (w : Watchdog) (t : ℕ) : Prop :=
  0 < w.started ∧ w.answered < w.started ∧ w.started + timeout ≤ t

instance (w : Watchdog) (t : ℕ) : Decidable (w.Overdue timeout t) :=
  inferInstanceAs (Decidable (_ ∧ _ ∧ _))

/-- One look: the watchdog is started again if it is time, and then expires if it is overdue. -/
def look (w : Watchdog) (t : ℕ) : Watchdog :=
  let w := { w with started := restarted interval w.started t }
  if w.Overdue timeout t then { w with started := 0, expirations := w.expirations + 1 } else w

def run (w : Watchdog) (times : List ℕ) : Watchdog := times.foldl (look interval timeout) w

/-- The looks at which a watchdog that does not expire is started. -/
def starts : ℕ → List ℕ → List ℕ
  | _, [] => []
  | started, t :: times =>
    if started = 0 ∨ started + interval ≤ t then t :: starts t times else starts started times

/-- Some look comes at least the timeout, but less than the interval, after `started`. -/
def InWindow (started : ℕ) (times : List ℕ) : Prop :=
  ∃ t ∈ times, started + timeout ≤ t ∧ t < started + interval

/-- A start is caught, either because there is no time to answer it or because of a look
before the next start. -/
def Caught (started : ℕ) (times : List ℕ) : Prop :=
  ∃ s ∈ starts interval started times, 0 < s ∧ (timeout = 0 ∨ InWindow interval timeout s times)

instance (started : ℕ) (times : List ℕ) : Decidable (InWindow interval timeout started times) :=
  inferInstanceAs (Decidable (∃ t ∈ times, _))

instance (started : ℕ) (times : List ℕ) : Decidable (Caught interval timeout started times) :=
  inferInstanceAs (Decidable (∃ s ∈ starts interval started times, _))

theorem expirations_le_look (w : Watchdog) (t : ℕ) :
    w.expirations ≤ (w.look interval timeout t).expirations := by
  unfold look
  dsimp only
  split_ifs
  · exact Nat.le_succ _
  · exact le_rfl

theorem expirations_le_run (w : Watchdog) (times : List ℕ) :
    w.expirations ≤ (w.run interval timeout times).expirations := by
  induction times generalizing w with
  | nil => exact le_rfl
  | cons t times ih => exact (expirations_le_look interval timeout w t).trans (ih _)

variable {interval timeout} {started t : ℕ} {times : List ℕ}

theorem restarted_le (h : started ≤ t) : restarted interval started t ≤ t := by
  unfold restarted
  split_ifs
  · exact le_rfl
  · exact h

theorem started_look_le {w : Watchdog} (h : w.started ≤ t) :
    (w.look interval timeout t).started ≤ t := by
  unfold look
  dsimp only
  split_ifs
  · exact Nat.zero_le t
  · exact restarted_le h

theorem answered_look (w : Watchdog) (t : ℕ) :
    (w.look interval timeout t).answered = w.answered := by
  unfold look
  dsimp only
  split_ifs <;> rfl

/-- The last start is never later than the looks that follow. -/
theorem started_run_le {w : Watchdog} {rest : List ℕ} (hsorted : (times ++ rest).Pairwise (· ≤ ·))
    (hstarted : ∀ t ∈ times ++ rest, w.started ≤ t) :
    ∀ t ∈ rest, (w.run interval timeout times).started ≤ t := by
  induction times generalizing w with
  | nil => exact hstarted
  | cons t times ih =>
      obtain ⟨hle, hsorted⟩ := List.pairwise_cons.mp hsorted
      have hlook : (w.look interval timeout t).started ≤ t :=
        started_look_le (hstarted t List.mem_cons_self)
      exact ih hsorted fun t' hmem => hlook.trans (hle t' hmem)

theorem starts_of_due (h : started = 0 ∨ started + interval ≤ t) :
    starts interval started (t :: times) = t :: starts interval t times := if_pos h

theorem starts_of_not_due (h : ¬(started = 0 ∨ started + interval ≤ t)) :
    starts interval started (t :: times) = starts interval started times := if_neg h

theorem mem_of_mem_starts {s : ℕ} (h : s ∈ starts interval started times) : s ∈ times := by
  induction times generalizing started with
  | nil => exact absurd h List.not_mem_nil
  | cons t times ih =>
      by_cases hdue : started = 0 ∨ started + interval ≤ t
      · rw [starts_of_due hdue] at h
        rcases List.mem_cons.mp h with rfl | hmem
        · exact List.mem_cons_self
        · exact List.mem_cons_of_mem _ (ih hmem)
      · rw [starts_of_not_due hdue] at h
        exact List.mem_cons_of_mem _ (ih h)

theorem inWindow_cons :
    InWindow interval timeout started (t :: times) ↔
      started + timeout ≤ t ∧ t < started + interval ∨ InWindow interval timeout started times :=
  List.exists_mem_cons_iff ..

/-- The start that was made before the looks is caught, or one that is made at them. -/
def CaughtFrom (interval timeout started : ℕ) (times : List ℕ) : Prop :=
  0 < started ∧ InWindow interval timeout started times ∨ Caught interval timeout started times

/-- For a start that comes no earlier than `t`, a look at `t` makes no difference. -/
theorem caught_look_iff {s : ℕ} (hle : t ≤ s) :
    timeout = 0 ∨ InWindow interval timeout s (t :: times) ↔
      timeout = 0 ∨ InWindow interval timeout s times := by
  rw [inWindow_cons]
  constructor
  · rintro (hzero | ⟨hwait, -⟩ | hwindow)
    · exact Or.inl hzero
    · exact Or.inl (by omega)
    · exact Or.inr hwindow
  · rintro (hzero | hwindow)
    · exact Or.inl hzero
    · exact Or.inr (Or.inr hwindow)

/-- A start is caught at the next look or at a later one. -/
theorem caughtFrom_cons (hstarted : started ≤ t) (hle : ∀ t' ∈ times, t ≤ t') :
    CaughtFrom interval timeout started (t :: times) ↔
      0 < restarted interval started t ∧ restarted interval started t + timeout ≤ t ∨
        CaughtFrom interval timeout (restarted interval started t) times := by
  have hlater (s₀ : ℕ) : (∃ s ∈ starts interval s₀ times,
      0 < s ∧ (timeout = 0 ∨ InWindow interval timeout s (t :: times))) ↔
      Caught interval timeout s₀ times := by
    refine exists_congr fun s => and_congr_right fun hs => and_congr_right fun _ => ?_
    exact caught_look_iff (hle s (mem_of_mem_starts hs))
  unfold restarted CaughtFrom
  by_cases hdue : started = 0 ∨ started + interval ≤ t
  · have hmissed : ¬(0 < started ∧ InWindow interval timeout started (t :: times)) := by
      rintro ⟨hpos, t', hmem, -, hbefore⟩
      rcases List.mem_cons.mp hmem with rfl | hmem
      · omega
      · have := hle t' hmem
        omega
    have hcaught : Caught interval timeout started (t :: times) ↔
        0 < t ∧ (timeout = 0 ∨ InWindow interval timeout t times) ∨
          Caught interval timeout t times := by
      rw [← hlater t, ← caught_look_iff le_rfl]
      unfold Caught
      rw [starts_of_due hdue]
      exact List.exists_mem_cons_iff ..
    rw [if_pos hdue, or_iff_right hmissed, hcaught, ← or_assoc, ← and_or_left]
    exact or_congr_left (and_congr_right fun _ => or_congr_left (by omega))
  · have hcaught : Caught interval timeout started (t :: times) ↔
        Caught interval timeout started times := by
      rw [← hlater started]
      unfold Caught
      rw [starts_of_not_due hdue]
    have hbefore : started + timeout ≤ t ∧ t < started + interval ↔ started + timeout ≤ t :=
      and_iff_left (by omega)
    rw [if_neg hdue, hcaught, inWindow_cons, hbefore, and_or_left, or_assoc]

/-- If the next start comes before the timeout, no start is caught. -/
theorem not_caught_of_interval_le (hinterval : interval ≤ timeout) (htimeout : 0 < timeout) :
    ¬Caught interval timeout started times := by
  rintro ⟨s, -, -, hzero | ⟨t, -, hwait, hbefore⟩⟩ <;> omega

variable (interval timeout) in
/-- An unanswered watchdog expires in the course of a run if and only if a start is caught. -/
theorem expirations_lt_run_iff {w : Watchdog} (hanswered : w.answered = 0)
    (hsorted : times.Pairwise (· ≤ ·)) (hstarted : ∀ t ∈ times, w.started ≤ t) :
    w.expirations < (w.run interval timeout times).expirations ↔
      CaughtFrom interval timeout w.started times := by
  induction times generalizing w with
  | nil =>
      refine iff_of_false (lt_irrefl _) ?_
      rintro (⟨-, t, hmem, -⟩ | ⟨s, hmem, -⟩) <;> exact List.not_mem_nil hmem
  | cons t times ih =>
      obtain ⟨hle, hsorted⟩ := List.pairwise_cons.mp hsorted
      have hnow : w.started ≤ t := hstarted t List.mem_cons_self
      have hnext : restarted interval w.started t ≤ t := restarted_le hnow
      rw [caughtFrom_cons hnow hle]
      change _ < (run interval timeout (w.look interval timeout t) times).expirations ↔ _
      by_cases hover : 0 < restarted interval w.started t ∧
          restarted interval w.started t + timeout ≤ t
      · have hlook : (w.look interval timeout t).expirations = w.expirations + 1 := by
          have hdue : Overdue timeout { w with started := restarted interval w.started t } t :=
            ⟨hover.1, hanswered ▸ hover.1, hover.2⟩
          unfold look
          dsimp only
          rw [if_pos hdue]
        have hmono := expirations_le_run interval timeout (w.look interval timeout t) times
        exact iff_of_true (by omega) (Or.inl hover)
      · have hlook : w.look interval timeout t =
            { w with started := restarted interval w.started t } := by
          have hnot : ¬Overdue timeout { w with started := restarted interval w.started t } t :=
            fun hdue => hover ⟨hdue.1, hdue.2.2⟩
          unfold look
          dsimp only
          rw [if_neg hnot]
        rw [or_iff_right hover, hlook]
        exact ih (w := { w with started := restarted interval w.started t }) hanswered hsorted
          fun t' hmem => hnext.trans (hle t' hmem)

end Watchdog

end WebSocketHft

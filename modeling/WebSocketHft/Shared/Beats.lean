import Mathlib.Data.List.Induction
import Mathlib.Data.List.Pairwise
import WebSocketHft.Shared.Runs
import WebSocketHft.Shared.Watchdog

/-! # What happens to a watchdog

A log of starts, answers and expirations. If time does not go back, every expiration
has a start of its own, with no answer in between. -/

namespace WebSocketHft

open WebSocketHft.Runs

/-- The watchdog is started, answered, found overdue by a timeout, stopped, or reset. -/
inductive Beat where
  | start (t : ℕ)
  | answer (t : ℕ)
  | expire (timeout t : ℕ)
  | stop
  | reset
  deriving DecidableEq, Repr

namespace Beat

def time? : Beat → Option ℕ
  | start t => some t
  | answer t => some t
  | expire _ t => some t
  | stop => none
  | reset => none

def isExpire : Beat → Bool
  | expire _ _ => true
  | _ => false

/-- The times of a log. -/
def times (log : List Beat) : List ℕ := log.filterMap time?

theorem times_append (log log' : List Beat) : times (log ++ log') = times log ++ times log' :=
  List.filterMap_append

/-- Beats come in the order of their times. -/
theorem time_le_of_lt {log : List Beat} (hsorted : (times log).Pairwise (· ≤ ·)) {i j t t' : ℕ}
    {b b' : Beat} (hij : i < j) (hi : log[i]? = some b) (hj : log[j]? = some b')
    (ht : b.time? = some t) (ht' : b'.time? = some t') : t ≤ t' := by
  obtain ⟨hilt, rfl⟩ := List.getElem?_eq_some_iff.mp hi
  obtain ⟨hjlt, rfl⟩ := List.getElem?_eq_some_iff.mp hj
  exact List.pairwise_iff_getElem.mp (List.pairwise_filterMap.mp hsorted) i j hilt hjlt hij t ht t' ht'

end Beat

namespace Watchdog

/-- The watchdog after a beat. -/
def after (w : Watchdog) : Beat → Watchdog
  | .start t => { w with started := t }
  | .answer t => { w with answered := t }
  | .expire _ _ => { w with started := 0, expirations := w.expirations + 1 }
  | .stop => { w with started := 0 }
  | .reset => { w with started := 0, answered := 0 }

/-- A watchdog expires only when it is overdue. -/
def Allows (w : Watchdog) : Beat → Prop
  | .expire timeout t => w.Overdue timeout t
  | _ => True

/-- Every expiration of the log is allowed. -/
def Accepts (w : Watchdog) (log : List Beat) : Prop := Along after Allows w log

theorem expirations_foldl_after (w : Watchdog) (log : List Beat) :
    (log.foldl after w).expirations = w.expirations + log.countP Beat.isExpire := by
  induction log generalizing w with
  | nil => rfl
  | cons b log ih =>
      rw [List.foldl_cons, ih, List.countP_cons]
      cases b <;> simp [after, Beat.isExpire, Nat.add_comm, Nat.add_left_comm]

/-- The start that a running watchdog goes back to: only answers have come since, none later
than the last one. -/
structure LastStart (log : List Beat) (w : Watchdog) (j : ℕ) : Prop where
  start : log[j]? = some (.start w.started)
  since : ∀ i b, j < i → log[i]? = some b → ∃ u, b = .answer u ∧ u ≤ w.answered

theorem exists_lastStart {w : Watchdog} (hstopped : w.started = 0) {log : List Beat}
    (hsorted : (Beat.times log).Pairwise (· ≤ ·)) (hrunning : (log.foldl after w).started ≠ 0) :
    ∃ j, LastStart log (log.foldl after w) j := by
  induction log using List.reverseRecOn with
  | nil => exact absurd hstopped hrunning
  | append_singleton log b ih =>
      rw [List.foldl_concat] at hrunning ⊢
      rw [Beat.times_append] at hsorted
      obtain ⟨hbefore, -, hlast⟩ := List.pairwise_append.mp hsorted
      cases b with
      | start t =>
          refine ⟨log.length, List.getElem?_concat_length, fun i b hi hb => ?_⟩
          have hrange := (List.getElem?_eq_some_iff.mp hb).1
          simp only [List.length_append, List.length_singleton] at hrange
          omega
      | answer t =>
          obtain ⟨j, hstart, hsince⟩ := ih hbefore hrunning
          have hj := (List.getElem?_eq_some_iff.mp hstart).1
          refine ⟨j, by rwa [List.getElem?_append_left hj], fun i b hi hb => ?_⟩
          have hrange := (List.getElem?_eq_some_iff.mp hb).1
          simp only [List.length_append, List.length_singleton] at hrange
          rcases Nat.lt_or_ge i log.length with hlt | hge
          · rw [List.getElem?_append_left hlt] at hb
            obtain ⟨u, rfl, -⟩ := hsince i b hi hb
            have hmem : u ∈ Beat.times log :=
              List.mem_filterMap.mpr ⟨.answer u, List.mem_of_getElem? hb, rfl⟩
            exact ⟨u, rfl, hlast u hmem t List.mem_cons_self⟩
          · obtain rfl : i = log.length := by omega
            rw [List.getElem?_concat_length] at hb
            obtain rfl := Option.some.inj hb
            exact ⟨t, rfl, le_rfl⟩
      | expire timeout t => exact absurd rfl hrunning
      | stop => exact absurd rfl hrunning
      | reset => exact absurd rfl hrunning

/-- A watchdog was not started later than what follows in the log. -/
theorem started_le {w : Watchdog} (hstopped : w.started = 0) {log later : List Beat}
    (hsorted : (Beat.times (log ++ later)).Pairwise (· ≤ ·)) {t : ℕ} (ht : t ∈ Beat.times later) :
    (log.foldl after w).started ≤ t := by
  rw [Beat.times_append] at hsorted
  obtain ⟨hbefore, -, hacross⟩ := List.pairwise_append.mp hsorted
  rcases Nat.eq_zero_or_pos (log.foldl after w).started with hzero | hrunning
  · rw [hzero]
    exact Nat.zero_le t
  · obtain ⟨j, hj⟩ := exists_lastStart hstopped hbefore hrunning.ne'
    have hstart : (log.foldl after w).started ∈ Beat.times log :=
      List.mem_filterMap.mpr ⟨_, List.mem_of_getElem? hj.start, rfl⟩
    exact hacross _ hstart t ht

/-- The beat `j` starts the watchdog, and the beat `k` finds it overdue; no answer comes
between them, neither in the log nor in time. -/
def Causes (log : List Beat) (j k : ℕ) : Prop :=
  ∃ s timeout t, log[j]? = some (.start s) ∧ log[k]? = some (.expire timeout t) ∧ j < k ∧
    s + timeout ≤ t ∧ (∀ i u, j < i → i < k → log[i]? ≠ some (.answer u)) ∧
    ∀ (i u : ℕ), log[i]? = some (.answer u) → ¬(s < u ∧ u < t)

/-- An expiration is caused by the last start before it. -/
theorem causes_of_lastStart {w : Watchdog} {log : List Beat} (haccepts : w.Accepts log)
    (hsorted : (Beat.times log).Pairwise (· ≤ ·)) {j k timeout t : ℕ}
    (hk : log[k]? = some (.expire timeout t))
    (hlast : LastStart (log.take k) ((log.take k).foldl after w) j) : Causes log j k := by
  obtain ⟨hpos, hunanswered, hlate⟩ : Overdue timeout ((log.take k).foldl after w) t :=
    Along.getElem? haccepts hk
  generalize (log.take k).foldl after w = before at *
  have hjk : j < k := by
    have hj := (List.getElem?_eq_some_iff.mp hlast.start).1
    rw [List.length_take] at hj
    omega
  have hstart : log[j]? = some (.start before.started) := by
    rw [← hlast.start, List.getElem?_take_of_lt hjk]
  have hbetween : ∀ i u, j < i → i < k → log[i]? ≠ some (.answer u) := by
    intro i u hji hik hanswer
    rw [← List.getElem?_take_of_lt hik] at hanswer
    obtain ⟨u', heq, hle⟩ := hlast.since i _ hji hanswer
    rw [List.getElem?_take_of_lt hik] at hanswer
    obtain rfl : u = u' := Beat.answer.inj heq
    have hafter := Beat.time_le_of_lt hsorted hji hstart hanswer rfl rfl
    omega
  refine ⟨before.started, timeout, t, hstart, hk, hjk, hlate, hbetween, ?_⟩
  rintro i u hanswer ⟨hafter, hbefore⟩
  rcases Nat.lt_trichotomy i j with hij | rfl | hji
  · have := Beat.time_le_of_lt hsorted hij hanswer hstart rfl rfl
    omega
  · rw [hstart] at hanswer
    cases hanswer
  · rcases Nat.lt_trichotomy i k with hik | rfl | hki
    · exact hbetween i u hji hik hanswer
    · rw [hk] at hanswer
      cases hanswer
    · have := Beat.time_le_of_lt hsorted hki hk hanswer rfl rfl
      omega

/-- In the log of a watchdog that was not running, with times that do not go back, every
expiration has a cause of its own. -/
theorem exists_causes {w : Watchdog} (hstopped : w.started = 0) {log : List Beat}
    (haccepts : w.Accepts log) (hsorted : (Beat.times log).Pairwise (· ≤ ·)) :
    ∃ cause : ℕ → ℕ,
      (∀ k timeout t, log[k]? = some (.expire timeout t) → Causes log (cause k) k) ∧
      ∀ k timeout t k' timeout' t', log[k]? = some (.expire timeout t) →
        log[k']? = some (.expire timeout' t') → cause k = cause k' → k = k' := by
  have hexists (k : ℕ) : ∃ j, ∀ timeout t, log[k]? = some (.expire timeout t) →
      LastStart (log.take k) ((log.take k).foldl after w) j := by
    by_cases hk : ∃ timeout t, log[k]? = some (.expire timeout t)
    · obtain ⟨timeout, t, hk⟩ := hk
      have hover : Overdue timeout ((log.take k).foldl after w) t := Along.getElem? haccepts hk
      have hbefore : (Beat.times (log.take k)).Pairwise (· ≤ ·) :=
        hsorted.sublist ((List.take_sublist k log).filterMap _)
      obtain ⟨j, hj⟩ := exists_lastStart hstopped hbefore hover.1.ne'
      exact ⟨j, fun _ _ _ => hj⟩
    · exact ⟨0, fun timeout t h => absurd ⟨timeout, t, h⟩ hk⟩
  choose cause hcause using hexists
  -- an expiration between a start and the next one would not be an answer
  have hearlier {k timeout t k' timeout' t' : ℕ} (hk : log[k]? = some (.expire timeout t))
      (hk' : log[k']? = some (.expire timeout' t')) (hlt : k < k') : cause k ≠ cause k' := by
    intro heq
    have hbefore := (causes_of_lastStart haccepts hsorted hk (hcause k _ _ hk))
    obtain ⟨-, -, -, -, -, hjk, -⟩ := hbefore
    rw [heq] at hjk
    obtain ⟨u, habsurd, -⟩ := (hcause k' _ _ hk').since k (.expire timeout t) hjk
      (by rwa [List.getElem?_take_of_lt hlt])
    cases habsurd
  refine ⟨cause, fun k timeout t hk => ?_, fun k timeout t k' timeout' t' hk hk' heq => ?_⟩
  · exact causes_of_lastStart haccepts hsorted hk (hcause k timeout t hk)
  · rcases Nat.lt_trichotomy k k' with hlt | rfl | hgt
    · exact absurd heq (hearlier hk hk' hlt)
    · rfl
    · exact absurd heq.symm (hearlier hk' hk hgt)

end Watchdog

end WebSocketHft

import Mathlib.Data.List.GetD
import WebSocketHft.Model.Observability
import WebSocketHft.Shared.Rolling
import WebSocketHft.Verification.Runs.Actions
import WebSocketHft.Verification.Runs.Connecting

/-! # Latency percentiles

The sample array is a rolling window, and the percentiles are entries of that window
in ascending order. -/

namespace WebSocketHft

open WebSocketHft.Rolling

/-! ## The bubble sort -/

theorem bubblePass_perm (n : ℕ) (xs : List UInt64) : (bubblePass n xs).Perm xs := by
  induction n generalizing xs with
  | zero => cases xs <;> exact .refl _
  | succ n ih =>
      match xs with
      | [] => exact .refl _
      | [x] => exact .refl _
      | x :: y :: rest =>
          rw [bubblePass]
          split_ifs
          · exact ((ih (x :: rest)).cons y).trans (List.Perm.swap x y rest)
          · exact (ih (y :: rest)).cons x

theorem bubbleSort_perm (n : ℕ) (xs : List UInt64) : (bubbleSort n xs).Perm xs := by
  induction n generalizing xs with
  | zero => exact .refl _
  | succ n ih => exact (ih _).trans (bubblePass_perm (n + 1) xs)

/-- With more cells than comparisons, a pass neither reads nor writes what lies behind them. -/
theorem bubblePass_append {n : ℕ} {xs : List UInt64} (h : n < xs.length) (behind : List UInt64) :
    bubblePass n (xs ++ behind) = bubblePass n xs ++ behind := by
  induction n generalizing xs with
  | zero => cases xs <;> cases behind <;> rfl
  | succ n ih =>
      match xs, h with
      | x :: y :: rest, h =>
          have hrest (z : UInt64) : n < (z :: rest).length := Nat.lt_of_succ_lt_succ h
          rw [List.cons_append, List.cons_append, bubblePass, bubblePass]
          split_ifs
          · exact congrArg (y :: ·) (ih (hrest x))
          · exact congrArg (x :: ·) (ih (hrest y))

theorem bubbleSort_append {n : ℕ} {xs : List UInt64} (h : n < xs.length) (behind : List UInt64) :
    bubbleSort n (xs ++ behind) = bubbleSort n xs ++ behind := by
  induction n generalizing xs with
  | zero => rfl
  | succ n ih =>
      have hlen := (bubblePass_perm (n + 1) xs).length_eq
      rw [bubbleSort, bubblePass_append h, ih (by omega), bubbleSort]

/-- `n` comparisons carry the largest of `n + 1` entries to their end and do not touch what
follows. -/
theorem bubblePass_max (x : UInt64) (front rest : List UInt64) :
    ∃ init m, bubblePass front.length (x :: (front ++ rest)) = init ++ m :: rest ∧
      (init ++ [m]).Perm (x :: front) ∧ ∀ a ∈ x :: front, a ≤ m := by
  induction front generalizing x with
  | nil =>
      refine ⟨[], x, ?_, .refl _, fun a ha => ?_⟩
      · cases rest <;> rfl
      · rw [List.mem_singleton.mp ha]
        exact UInt64.le_refl x
  | cons y front ih =>
      rw [List.length_cons, List.cons_append, bubblePass]
      split_ifs with hlt
      · obtain ⟨init, m, hpass, hperm, hmax⟩ := ih x
        have hx : x ≤ m := hmax x List.mem_cons_self
        refine ⟨y :: init, m, by rw [hpass]; rfl, ?_, ?_⟩
        · exact (hperm.cons y).trans (List.Perm.swap x y front)
        · intro a ha
          rcases List.mem_cons.mp ha with rfl | ha
          · exact hx
          · rcases List.mem_cons.mp ha with rfl | ha
            · exact UInt64.le_trans (UInt64.le_of_lt hlt) hx
            · exact hmax a (List.mem_cons_of_mem x ha)
      · obtain ⟨init, m, hpass, hperm, hmax⟩ := ih y
        have hy : y ≤ m := hmax y List.mem_cons_self
        refine ⟨x :: init, m, by rw [hpass]; rfl, hperm.cons x, ?_⟩
        intro a ha
        rcases List.mem_cons.mp ha with rfl | ha
        · exact UInt64.le_trans (UInt64.not_lt.mp hlt) hy
        · exact hmax a ha

/-- The passes settle one entry each, from the end. -/
theorem bubbleSort_sorted (n : ℕ) (front settled : List UInt64) (hlen : front.length = n + 1)
    (hsettled : settled.Pairwise (· ≤ ·)) (hcross : ∀ a ∈ front, ∀ b ∈ settled, a ≤ b) :
    (bubbleSort n (front ++ settled)).Pairwise (· ≤ ·) := by
  induction n generalizing front settled with
  | zero =>
      obtain ⟨x, rfl⟩ := List.length_eq_one_iff.mp hlen
      exact List.pairwise_cons.mpr ⟨hcross x List.mem_cons_self, hsettled⟩
  | succ n ih =>
      obtain ⟨x, front, rfl⟩ := List.exists_cons_of_length_eq_add_one hlen
      have hfront : front.length = n + 1 := Nat.succ.inj hlen
      obtain ⟨init, m, hpass, hperm, hmax⟩ := bubblePass_max x front settled
      have hinit : init.length = n + 1 := by
        have hsame := hperm.length_eq
        rw [List.length_append, List.length_singleton, List.length_cons] at hsame
        omega
      have hmem : ∀ a, a ∈ init ∨ a = m → a ∈ x :: front := fun a ha =>
        hperm.mem_iff.mp (List.mem_append.mpr (ha.imp_right List.mem_singleton.mpr))
      rw [bubbleSort, List.cons_append, ← hfront, hpass]
      refine ih init (m :: settled) hinit ?_ ?_
      · exact List.pairwise_cons.mpr ⟨hcross m (hmem m (Or.inr rfl)), hsettled⟩
      · intro a ha b hb
        rcases List.mem_cons.mp hb with rfl | hb
        · exact hmax a (hmem a (Or.inl ha))
        · exact hcross a (hmem a (Or.inl ha)) b hb

/-- The samples in ascending order. -/
def ascending (xs : List UInt64) : List UInt64 :=
  xs.mergeSort fun a b => decide (a ≤ b)

theorem ascending_perm (xs : List UInt64) : (ascending xs).Perm xs :=
  List.mergeSort_perm xs _

theorem ascending_sorted (xs : List UInt64) : (ascending xs).Pairwise (· ≤ ·) := by
  have hsorted : (ascending xs).Pairwise fun a b => decide (a ≤ b) = true := by
    apply List.pairwise_mergeSort
    · intro a b c hab hbc
      exact decide_eq_true (UInt64.le_trans (of_decide_eq_true hab) (of_decide_eq_true hbc))
    · intro a b
      simpa using UInt64.le_total a b
  exact hsorted.imp of_decide_eq_true

/-- Any arrangement of the samples is sorted into the same list. -/
theorem bubbleSort_eq_ascending {xs ys : List UInt64} (hne : xs ≠ []) (h : xs.Perm ys) :
    bubbleSort (xs.length - 1) xs = ascending ys := by
  have hpos := List.length_pos_iff.mpr hne
  have hsorted := bubbleSort_sorted (xs.length - 1) xs [] (by omega) List.Pairwise.nil
    (fun a _ b hb => absurd hb List.not_mem_nil)
  rw [List.append_nil] at hsorted
  have hperm := ((bubbleSort_perm (xs.length - 1) xs).trans h).trans (ascending_perm ys).symm
  exact hperm.eq_of_pairwise (fun a b _ _ => UInt64.le_antisymm) hsorted (ascending_sorted ys)

/-! ## The window -/

/-- The calls that touch the samples. -/
inductive LatencyCall where
  | sample (latencyNs : UInt64)
  | reset
  deriving DecidableEq, Repr

def LatencyCall.run (ws : WebSocket) : LatencyCall → WebSocket
  | .sample latencyNs => updateLatencySample ws latencyNs
  | .reset => websocketResetMetrics ws

/-- The samples recorded since the last reset. -/
def LatencyCall.record (history : List UInt64) : LatencyCall → List UInt64
  | .sample latencyNs => history ++ [latencyNs]
  | .reset => []

/-- The connection keeps a window of `c` samples with this history. -/
structure Remembers (c : ℕ) (history : List UInt64) (ws : WebSocket) : Prop where
  window : ∃ cells, ws.latencySamples = some cells ∧ cells.length = c ∧ Holds cells history
  capacity : ws.latencySampleCapacity = c
  count : ws.latencySampleCount = min history.length c
  idx : ws.latencySampleIdx = history.length % c

theorem Remembers.pos {c : ℕ} {history : List UInt64} {ws : WebSocket} (h : Remembers c history ws) :
    0 < c := by
  obtain ⟨cells, -, rfl, hholds⟩ := h.window
  exact hholds.pos

theorem Remembers.run {c : ℕ} {history : List UInt64} {ws : WebSocket} (h : Remembers c history ws)
    (call : LatencyCall) : Remembers c (call.record history) (call.run ws) := by
  have hpos := h.pos
  obtain ⟨cells, hcells, hlen, hholds⟩ := h.window
  cases call with
  | sample latencyNs =>
      have hcap : ws.latencySampleCapacity ≠ 0 := by rw [h.capacity]; omega
      have hrun : updateLatencySample ws latencyNs = { ws with
          latencySamples := some (cells.set ws.latencySampleIdx latencyNs)
          latencySampleIdx := (ws.latencySampleIdx + 1) % ws.latencySampleCapacity
          latencySampleCount :=
            if ws.latencySampleCount < ws.latencySampleCapacity then ws.latencySampleCount + 1
            else ws.latencySampleCount } := by
        unfold updateLatencySample
        rw [hcells]
        exact if_neg hcap
      have hpush := hholds.push latencyNs
      rw [LatencyCall.run, hrun]
      refine ⟨⟨_, rfl, by rw [List.length_set, hlen], ?_⟩, h.capacity, ?_, ?_⟩
      · rw [h.idx, ← hlen]
        exact hpush
      · dsimp only
        rw [h.count, h.capacity, LatencyCall.record, List.length_append, List.length_singleton]
        split_ifs <;> omega
      · dsimp only
        rw [h.idx, h.capacity, LatencyCall.record, List.length_append, List.length_singleton,
          Nat.mod_add_mod]
  | reset =>
      exact ⟨⟨cells, hcells, hlen, .initial hholds.pos⟩, h.capacity, (Nat.zero_min c).symm,
        (Nat.zero_mod c).symm⟩

theorem Remembers.run_calls {c : ℕ} {history : List UInt64} {ws : WebSocket}
    (h : Remembers c history ws) (calls : List LatencyCall) :
    Remembers c (calls.foldl LatencyCall.record history) (calls.foldl LatencyCall.run ws) := by
  induction calls generalizing history ws with
  | nil => exact h
  | cons call calls ih => exact ih (h.run call)

/-! ## The percentiles -/

/-- `p99_idx` after its bound check. -/
def p99Index (count : ℕ) : ℕ :=
  if count ≤ count * 99 / 100 then count - 1 else count * 99 / 100

theorem p99Index_eq (n : ℕ) : p99Index n = min (99 * n / 100) (n - 1) := by
  unfold p99Index
  split_ifs <;> omega

theorem Remembers.count_eq {c : ℕ} {history : List UInt64} {ws : WebSocket}
    (h : Remembers c history ws) : ws.latencySampleCount = (recent c history).length := by
  rw [h.count, length_recent]

/-- The copy of the samples is sorted in place, whatever lies behind it. -/
theorem Remembers.sorts_copy {c : ℕ} {history : List UInt64} {ws : WebSocket}
    (h : Remembers c history ws) (hne : recent c history ≠ []) {cells : List UInt64}
    (hcells : ws.latencySamples = some cells) (behind : List UInt64) :
    bubbleSort (ws.latencySampleCount - 1) (cells.take ws.latencySampleCount ++ behind) =
      ascending (recent c history) ++ behind := by
  obtain ⟨cells', hcells', rfl, hholds⟩ := h.window
  obtain rfl : cells' = cells := Option.some.inj (hcells'.symm.trans hcells)
  have hpos := List.length_pos_iff.mpr hne
  have htake : (cells'.take ws.latencySampleCount).length = ws.latencySampleCount := by
    rw [List.length_take, h.count]
    omega
  have hperm : (cells'.take ws.latencySampleCount).Perm (recent cells'.length history) := by
    rw [h.count]
    exact hholds.perm
  have hsome : cells'.take ws.latencySampleCount ≠ [] := by
    rw [← List.length_pos_iff, htake, h.count_eq]
    exact hpos
  have hsorted := bubbleSort_eq_ascending hsome hperm
  rw [htake] at hsorted
  rw [bubbleSort_append (by rw [htake, h.count_eq]; omega), hsorted]

theorem Remembers.percentiles_of_nothing {c : ℕ} {history : List UInt64} {ws : WebSocket}
    {allocated : Bool} (h : Remembers c history ws)
    (hnone : recent c history = [] ∨ allocated = false) :
    calculateLatencyPercentiles ws allocated = (0, 0) := by
  obtain ⟨cells, hcells, -, -⟩ := h.window
  have hguard : ws.latencySampleCount = 0 ∨ allocated = false := by
    rw [h.count_eq, List.length_eq_zero_iff]
    exact hnone
  unfold calculateLatencyPercentiles
  rw [hcells]
  exact if_pos hguard

/-- In a window with this history the percentiles are entries of the window in ascending
order. -/
theorem Remembers.percentiles {c : ℕ} {history : List UInt64} {ws : WebSocket}
    (h : Remembers c history ws) (hne : recent c history ≠ []) :
    calculateLatencyPercentiles ws true =
      ((((ascending (recent c history)).getD ((recent c history).length / 2) 0).toNat : ℚ),
        (((ascending (recent c history)).getD (p99Index (recent c history).length) 0).toNat : ℚ)) := by
  obtain ⟨cells, hcells, -, -⟩ := h.window
  have hsorted := h.sorts_copy hne hcells []
  rw [List.append_nil, List.append_nil] at hsorted
  have hpos := List.length_pos_iff.mpr hne
  have hcount := h.count_eq
  have hguard : ¬(ws.latencySampleCount = 0 ∨ true = false) := by
    simp only [Bool.true_eq_false, or_false]
    omega
  have hhalf : ws.latencySampleCount * 50 / 100 = ws.latencySampleCount / 2 := by omega
  unfold calculateLatencyPercentiles
  rw [hcells]
  dsimp only
  rw [if_neg hguard, hsorted, hhalf, hcount]
  rfl

/-- A sorted list has its entries in the order of their ranks. -/
theorem getElem?_le_of_le {xs : List UInt64} (h : xs.Pairwise (· ≤ ·)) {i j : ℕ} {a b : UInt64}
    (hij : i ≤ j) (hi : xs[i]? = some a) (hj : xs[j]? = some b) : a ≤ b := by
  obtain ⟨hilt, rfl⟩ := List.getElem?_eq_some_iff.mp hi
  obtain ⟨hjlt, rfl⟩ := List.getElem?_eq_some_iff.mp hj
  rcases Nat.lt_or_eq_of_le hij with hlt | rfl
  · exact List.pairwise_iff_getElem.mp h i j hilt hjlt hlt
  · exact UInt64.le_refl _

/-- The two results are the entries of these ranks. -/
theorem Remembers.percentiles_of_ranks {c : ℕ} {history : List UInt64} {ws : WebSocket}
    (h : Remembers c history ws) {n : ℕ} (hn : (recent c history).length = n)
    (hne : recent c history ≠ []) :
    ∃ p50 p99, (ascending (recent c history))[n / 2]? = some p50 ∧
      (ascending (recent c history))[min (99 * n / 100) (n - 1)]? = some p99 ∧ p50 ≤ p99 ∧
      calculateLatencyPercentiles ws true = ((p50.toNat : ℚ), (p99.toNat : ℚ)) := by
  have hpos := List.length_pos_iff.mpr hne
  have hlen : (ascending (recent c history)).length = n := by
    rw [(ascending_perm _).length_eq, hn]
  have hp50 : (ascending (recent c history))[n / 2]? =
      some ((ascending (recent c history)).getD (n / 2) 0) := by
    rw [List.getD_eq_getElem _ _ (by omega), List.getElem?_eq_getElem]
  have hp99 : (ascending (recent c history))[min (99 * n / 100) (n - 1)]? =
      some ((ascending (recent c history)).getD (p99Index n) 0) := by
    rw [← p99Index_eq, List.getD_eq_getElem _ _ (by rw [p99Index_eq]; omega),
      List.getElem?_eq_getElem]
  refine ⟨_, _, hp50, hp99, ?_, ?_⟩
  · exact getElem?_le_of_le (ascending_sorted _) (by omega) hp50 hp99
  · rw [h.percentiles hne, hn]

/-- In ascending order, the entry at `i` is beyond a limit exactly if all but the first `i` are. -/
theorem lt_getElem?_iff {xs : List UInt64} (hsorted : xs.Pairwise (· ≤ ·)) {i : ℕ}
    {x : UInt64} (hx : xs[i]? = some x) (limit : UInt64) :
    limit < x ↔ xs.length ≤ i + xs.countP (limit < ·) := by
  induction xs generalizing i with
  | nil => cases hx
  | cons y ys ih =>
      obtain ⟨hle, hrest⟩ := List.pairwise_cons.mp hsorted
      by_cases hy : limit < y
      · have hall : ∀ z ∈ y :: ys, limit < z := by
          intro z hz
          rcases List.mem_cons.mp hz with rfl | hz
          · exact hy
          · exact UInt64.lt_of_lt_of_le hy (hle z hz)
        have hcount : (y :: ys).countP (limit < ·) = (y :: ys).length :=
          List.countP_eq_length.mpr fun z hz => decide_eq_true (hall z hz)
        rw [hcount]
        exact iff_of_true (hall x (List.mem_of_getElem? hx)) (Nat.le_add_left _ _)
      · have hcount : (y :: ys).countP (limit < ·) = ys.countP (limit < ·) :=
          List.countP_cons_of_neg (by simpa using hy)
        rw [hcount, List.length_cons]
        cases i with
        | zero =>
            obtain rfl : y = x := Option.some.inj hx
            have hys : ys.countP (limit < ·) ≤ ys.length := List.countP_le_length
            exact iff_of_false hy (by omega)
        | succ i =>
            rw [ih hrest hx]
            omega

/-- At least one sample in a hundred is beyond 100 microseconds. -/
def Slow (window : List UInt64) : Prop :=
  0 < window.countP (100000 < ·) ∧ window.length ≤ 100 * window.countP (100000 < ·)

theorem Remembers.p99_gt_iff {c : ℕ} {history : List UInt64} {ws : WebSocket}
    (h : Remembers c history ws) (allocated : Bool) :
    100000 < (calculateLatencyPercentiles ws allocated).2 ↔
      allocated = true ∧ Slow (recent c history) := by
  by_cases hnone : recent c history = [] ∨ allocated = false
  · rw [h.percentiles_of_nothing hnone]
    refine iff_of_false (by decide) ?_
    rintro ⟨hallocated, hslow, -⟩
    rcases hnone with hempty | hfailed
    · rw [hempty] at hslow
      exact absurd hslow (by decide)
    · exact Bool.noConfusion (hfailed.symm.trans hallocated)
  · obtain ⟨hne, hfailed⟩ := not_or.mp hnone
    obtain rfl : allocated = true := Bool.eq_true_of_not_eq_false hfailed
    obtain ⟨p50, p99, -, hp99, -, heq⟩ := h.percentiles_of_ranks rfl hne
    have hperm := ascending_perm (recent c history)
    have hpos := List.length_pos_iff.mpr hne
    have hrank := lt_getElem?_iff (ascending_sorted _) hp99 100000
    have hcast : (100000 : ℚ) < (p99.toNat : ℚ) ↔ 100000 < p99 := by
      rw [UInt64.lt_iff_toNat_lt]
      exact Rat.natCast_lt_natCast
    rw [heq, and_iff_right rfl, hcast, hrank, hperm.length_eq, hperm.countP_eq, Slow]
    omega

/-- For every capacity and every sequence of `update_latency_sample` and
`websocket_reset_metrics`: the percentiles are the entries of rank `n / 2` and
`min (99 n / 100) (n - 1)` among the last samples since the reset, in ascending order. The next
sample and the copy stay inside the sample array, and the sort of the copy inside the copy: it
does the same whatever lies behind, and leaves that as it is. -/
theorem percentiles_of_recent_window (ws : WebSocket) (samples : List UInt64)
    (hsamples : ws.latencySamples = some samples)
    (hcapacity : ws.latencySampleCapacity = samples.length) (hpos : 1 ≤ samples.length)
    (hcount : ws.latencySampleCount = 0) (hidx : ws.latencySampleIdx = 0)
    (calls : List LatencyCall) :
    let ws' := calls.foldl LatencyCall.run ws
    let w := recent samples.length (calls.foldl LatencyCall.record [])
    let n := w.length
    (w = [] → calculateLatencyPercentiles ws' true = (0, 0)) ∧
      (w ≠ [] → ∃ p50 p99, (ascending w)[n / 2]? = some p50 ∧
        (ascending w)[min (99 * n / 100) (n - 1)]? = some p99 ∧ p50 ≤ p99 ∧
        calculateLatencyPercentiles ws' true = ((p50.toNat : ℚ), (p99.toNat : ℚ))) ∧
      ∃ cells, ws'.latencySamples = some cells ∧ ws'.latencySampleIdx < cells.length ∧
        ws'.latencySampleCount = n ∧ n ≤ cells.length ∧
        (w ≠ [] → ∀ behind,
          bubbleSort (n - 1) (cells.take n ++ behind) = ascending w ++ behind) := by
  intro ws' w n
  have hstart : Remembers samples.length [] ws :=
    ⟨⟨samples, hsamples, rfl, .initial hpos⟩, hcapacity,
      by rw [hcount]; exact (Nat.zero_min _).symm, by rw [hidx]; exact (Nat.zero_mod _).symm⟩
  have hend : Remembers samples.length (calls.foldl LatencyCall.record []) ws' :=
    hstart.run_calls calls
  have hused : ws'.latencySampleCount = n := hend.count_eq
  obtain ⟨cells, hcells, hcellsLen, -⟩ := hend.window
  refine ⟨?_, hend.percentiles_of_ranks rfl, cells, hcells, ?_, hused, ?_, ?_⟩
  · exact fun hempty => hend.percentiles_of_nothing (Or.inl hempty)
  · rw [hend.idx, hcellsLen]
    exact Nat.mod_lt _ hpos
  · rw [hcellsLen, ← hused, hend.count]
    exact min_le_right _ _
  · intro hne behind
    rw [← hused]
    exact hend.sorts_copy hne hcells behind

/-- A connection with room for three samples. -/
def threeSamples : WebSocket :=
  { websocketCreate true with latencySamples := some [0, 0, 0], latencySampleCapacity := 3 }

/-- One sample, a reset, and five more: the last three decide. -/
theorem percentiles_of_last_three :
    let calls : List LatencyCall :=
      [.sample 7, .reset, .sample 90, .sample 20, .sample 40, .sample 10, .sample 30]
    calculateLatencyPercentiles (calls.foldl LatencyCall.run threeSamples) true = (30, 40) ∧
      ∃ p50 p99, (ascending [40, 10, 30])[1]? = some p50 ∧ (ascending [40, 10, 30])[2]? = some p99 ∧
        p50 ≤ p99 := by
  intro calls
  have hwindow : recent ([0, 0, 0] : List UInt64).length (calls.foldl LatencyCall.record []) =
      [40, 10, 30] := by decide
  have hresult := (percentiles_of_recent_window threeSamples [0, 0, 0] rfl rfl (by decide) rfl rfl
    calls).2.1 (by decide)
  rw [hwindow] at hresult
  obtain ⟨p50, p99, h50, h99, hle, -⟩ := hresult
  exact ⟨by decide +kernel, p50, p99, h50, h99, hle⟩

/-! ## Runs -/

/-- All that the window is made of. -/
def WebSocket.samples (ws : WebSocket) : Option (List UInt64) × ℕ × ℕ × ℕ :=
  (ws.latencySamples, ws.latencySampleCapacity, ws.latencySampleCount, ws.latencySampleIdx)

section Runs

variable {env : Env} {ws ws' : WebSocket} {c : ℕ}

theorem Remembers.congr {history : List UInt64} (h : Remembers c history ws)
    (hsame : ws'.samples = ws.samples) : Remembers c history ws' := by
  obtain ⟨hcells, hcapacity, hcount, hidx⟩ :
      ws'.latencySamples = ws.latencySamples ∧
        ws'.latencySampleCapacity = ws.latencySampleCapacity ∧
        ws'.latencySampleCount = ws.latencySampleCount ∧
        ws'.latencySampleIdx = ws.latencySampleIdx := by
    simpa [WebSocket.samples] using hsame
  exact ⟨hcells ▸ h.window, hcapacity.trans h.capacity, hcount.trans h.count, hidx.trans h.idx⟩

theorem samples_flush (env : Env) (ws : WebSocket) : (ws.flush env).samples = ws.samples := by
  unfold WebSocket.flush
  split_ifs <;> rfl

theorem samples_keptBySending : KeptBySending env fun ws ws' => ws'.samples = ws.samples where
  refl _ := rfl
  trans h h' := h'.trans h
  found _ _ _ _ _ _ := rfl
  pass _ := rfl
  queueTx _ _ := rfl
  countSent _ _ := rfl
  flush := samples_flush env

theorem samples_websocketClose (ws : WebSocket) : (websocketClose ws).samples = ws.samples := by
  unfold websocketClose WebSocket.closeSocket
  split_ifs <;> rfl

theorem samples_attempt (h : Attempt env ws ws') : ws'.samples = ws.samples := by
  cases h with
  | setUp h => cases h <;> rfl
  | request bytes => rfl
  | flush => exact samples_flush env ws
  | connecting => rfl

/-- The connection keeps a window of `c` samples. -/
def KeepsWindow (c : ℕ) (ws : WebSocket) : Prop := ∃ history, Remembers c history ws

theorem KeepsWindow.congr (h : KeepsWindow c ws) (hsame : ws'.samples = ws.samples) :
    KeepsWindow c ws' := by
  obtain ⟨history, h⟩ := h
  exact ⟨history, h.congr hsame⟩

theorem KeepsWindow.run (h : KeepsWindow c ws) (call : LatencyCall) :
    KeepsWindow c (call.run ws) := by
  obtain ⟨history, h⟩ := h
  exact ⟨_, h.run call⟩

theorem KeepsWindow.takeMessage (h : KeepsWindow c ws) (payload : List UInt8) :
    KeepsWindow c (ws.takeMessage env payload) := by
  have hsampled : KeepsWindow c (sampleLatency env (ws.countReceived payload.length)) := by
    have hcounted : KeepsWindow c (ws.countReceived payload.length) := h.congr rfl
    have hpassed : KeepsWindow c (ws.countReceived payload.length).pass := h.congr rfl
    unfold sampleLatency
    dsimp only
    generalize (if websocketGetLastNicTimestampNs _ < _ then _ else 0 : UInt64) = latencyNs
    split_ifs
    · exact hpassed.run (.sample latencyNs)
    · exact hcounted
  unfold WebSocket.takeMessage
  dsimp only
  split_ifs
  · exact hsampled.congr rfl
  · exact hsampled

/-- Only messages are sampled. -/
theorem KeepsWindow.action (h : Action env ws ws') (hws : KeepsWindow c ws) :
    KeepsWindow c ws' := by
  cases h with
  | message payload => exact hws.takeMessage payload
  | send data isText => exact hws.congr (samples_keptBySending.websocketSend ws data isText)
  | answerPing payload => exact hws.congr (samples_keptBySending.websocketSendPong ws payload)
  | close => exact hws.congr (samples_websocketClose ws)
  | unmask frame payload =>
      refine hws.congr ?_
      unfold WebSocket.unmaskFrame
      split_ifs <;> rfl
  | health hset hstate hdue =>
      refine hws.congr ?_
      dsimp only [WebSocket.seeHealth, WebSocket.reportHealth]
      split_ifs <;> rfl
  | ping hstate hdue =>
      refine hws.congr ?_
      dsimp only [WebSocket.sendPing]
      split_ifs
      · exact samples_flush env _
      · rfl
  | _ => exact hws.congr rfl

theorem KeepsWindow.call (h : KeepsWindow c ws) (call : PublicCall) :
    KeepsWindow c (call.run env ws) := by
  cases call with
  | resetMetrics => exact h.run .reset
  | connect url answers =>
      exact (Attempts.websocketConnect ws url answers).invariant
        (fun hattempt hws => hws.congr (samples_attempt hattempt)) h
  | process events => exact (Actions.websocketProcess ws events).invariant KeepsWindow.action h
  | send data isText => exact h.congr (samples_keptBySending.websocketSend ws data isText)
  | close => exact h.congr (samples_websocketClose ws)
  | _ => exact h.congr rfl

end Runs

/-- Over every run, if the samples could be allocated, the connection keeps a window of the last
thousand. -/
theorem keepsWindow_runCalls (env : Env) (calls : List PublicCall) :
    KeepsWindow 1000 (runCalls env true calls) := by
  have hlen : (List.replicate 1000 (0 : UInt64)).length = 1000 := List.length_replicate
  have hpos : 0 < (List.replicate 1000 (0 : UInt64)).length := by
    rw [hlen]
    exact Nat.succ_pos 999
  have hcreate : Remembers 1000 [] (websocketCreate true) :=
    ⟨⟨_, rfl, hlen, .initial hpos⟩, rfl, rfl, rfl⟩
  exact Runs.foldl_invariant (fun ws call h => h.call call) ⟨[], hcreate⟩ calls

end WebSocketHft

import WebSocketHft.Verification.Observability.Latency
import WebSocketHft.Verification.Runs.States

/-! # Health

`websocket_get_health` judges by the figures that `websocket_get_metrics` stored last, not
by the samples and fill levels of the moment. -/

namespace WebSocketHft

open WebSocketHft.Rolling

/-- More than one error in ten operations. -/
def WebSocket.HighErrorRate (ws : WebSocket) : Prop :=
  0 < ws.metrics.messagesReceived + ws.metrics.messagesSent ∧
    (1 / 10 : ℚ) < (ws.metrics.errorsTotal.toNat : ℚ) /
      (ws.metrics.messagesReceived + ws.metrics.messagesSent).toNat

def Strained (latencyP99Ns utilization : ℚ) : Prop :=
  100000 < latencyP99Ns ∨ (8 / 10 : ℚ) < utilization

instance (ws : WebSocket) : Decidable ws.HighErrorRate :=
  inferInstanceAs (Decidable (_ ∧ _))

instance (latencyP99Ns utilization : ℚ) : Decidable (Strained latencyP99Ns utilization) :=
  inferInstanceAs (Decidable (_ ∨ _))

def WebSocket.utilization (ws : WebSocket) : ℚ :=
  ((ringbufferReadable ws.rxRing : ℚ) / ws.rxRing.size +
    (ringbufferReadable ws.txRing : ℚ) / ws.txRing.size) / 2

theorem websocketGetHealth_of_connected {ws : WebSocket} (h : ws.state = .connected) :
    websocketGetHealth ws =
      if ws.HighErrorRate then .unhealthy
      else if Strained ws.metrics.latencyP99Ns ws.metrics.ringbufferUtilization then .degraded
      else .ok := by
  have hguard : ¬ws.state ≠ .connected := not_not.mpr h
  unfold websocketGetHealth
  dsimp only
  rw [if_neg hguard]
  refine if_congr Iff.rfl rfl ?_
  by_cases hlatency : 100000 < ws.metrics.latencyP99Ns
  · have hstrained : Strained ws.metrics.latencyP99Ns ws.metrics.ringbufferUtilization :=
      Or.inl hlatency
    rw [if_pos hlatency, if_pos hstrained]
  · rw [if_neg hlatency]
    exact if_congr (or_iff_right hlatency).symm rfl rfl

theorem websocketGetHealth_getMetrics {ws : WebSocket} (h : ws.state = .connected)
    (nowNs : UInt64) (allocated : Bool) :
    websocketGetHealth (websocketGetMetrics ws nowNs allocated).2 =
      if ws.HighErrorRate then .unhealthy
      else if Strained (calculateLatencyPercentiles ws allocated).2 ws.utilization then .degraded
      else .ok := by
  have hstate : (websocketGetMetrics ws nowNs allocated).2.state = .connected := h
  -- reading stores the figures of the moment and changes nothing else the verdict depends on
  rw [websocketGetHealth_of_connected hstate]
  rfl

theorem degraded_or_ok_eq_iff {p q : Prop} [Decidable p] [Decidable q] :
    (if p then WSHealthStatus.degraded else .ok) = (if q then .degraded else .ok) ↔ (q ↔ p) := by
  by_cases hp : p <;> by_cases hq : q <;> simp [hp, hq]

theorem health_getMetrics_eq_iff {ws : WebSocket} (h : ws.state = .connected) (nowNs : UInt64)
    (allocated : Bool) :
    websocketGetHealth (websocketGetMetrics ws nowNs allocated).2 = websocketGetHealth ws ↔
      ws.HighErrorRate ∨
        (Strained ws.metrics.latencyP99Ns ws.metrics.ringbufferUtilization ↔
          Strained (calculateLatencyPercentiles ws allocated).2 ws.utilization) := by
  rw [websocketGetHealth_getMetrics h, websocketGetHealth_of_connected h]
  by_cases hrate : ws.HighErrorRate
  · rw [if_pos hrate, if_pos hrate]
    exact iff_of_true rfl (Or.inl hrate)
  · rw [if_neg hrate, if_neg hrate, or_iff_right hrate]
    exact degraded_or_ok_eq_iff

/-- For every connection that is CONNECTED: the verdict is the same with and without a call of
`websocket_get_metrics` before it if and only if the error rate decides it, or the figures stored
last and the figures of the moment are on the same side of the limits. The latency of the moment
is beyond its limit if one sample in a hundred of the window is. -/
theorem health_unchanged_by_metrics_iff (ws : WebSocket) (h : ws.state = .connected)
    (nowNs : UInt64) (allocated : Bool) :
    (websocketGetHealth (websocketGetMetrics ws nowNs allocated).2 = websocketGetHealth ws ↔
      ws.HighErrorRate ∨
        (Strained ws.metrics.latencyP99Ns ws.metrics.ringbufferUtilization ↔
          Strained (calculateLatencyPercentiles ws allocated).2 ws.utilization)) ∧
    ∀ capacity history, Remembers capacity history ws →
      (websocketGetHealth (websocketGetMetrics ws nowNs allocated).2 = websocketGetHealth ws ↔
        ws.HighErrorRate ∨
          (Strained ws.metrics.latencyP99Ns ws.metrics.ringbufferUtilization ↔
            (allocated = true ∧ Slow (recent capacity history)) ∨
              (8 / 10 : ℚ) < ws.utilization)) := by
  refine ⟨health_getMetrics_eq_iff h nowNs allocated, ?_⟩
  intro capacity history hwindow
  rw [health_getMetrics_eq_iff h nowNs allocated, Strained.eq_1 _ ws.utilization,
    hwindow.p99_gt_iff allocated]

def timedMessage (nic : UInt64) : PublicCall :=
  .process (some [⟨0, 0, false, false, .read, .received [0x81, 0x01, 0x41] (some nic)⟩])

/-- A message that took 90 microseconds: the verdict is OK with and without the metrics, and no
share of the window is slow. -/
theorem health_kept_by_fast_message :
    let ws := runCalls (fun _ => { now := 1000000 }) true (accepted ++ [timedMessage 910000])
    websocketGetHealth (websocketGetMetrics ws 1000000 true).2 = websocketGetHealth ws ∧
      ∃ history, Remembers 1000 history ws ∧ ¬Slow (recent 1000 history) := by
  intro ws
  have hfacts : ws.state = .connected ∧ ¬ws.HighErrorRate ∧
      ¬Strained ws.metrics.latencyP99Ns ws.metrics.ringbufferUtilization ∧
      ¬Strained (calculateLatencyPercentiles ws true).2 ws.utilization := by
    decide +kernel
  obtain ⟨hconnected, hrate, hstored, hmoment⟩ := hfacts
  have hsame := (health_unchanged_by_metrics_iff ws hconnected 1000000 true).1.mpr
    (Or.inr (iff_of_false hstored hmoment))
  obtain ⟨history, hwindow⟩ := keepsWindow_runCalls (fun _ => { now := 1000000 })
    (accepted ++ [timedMessage 910000])
  refine ⟨hsame, history, hwindow, fun hslow => ?_⟩
  rcases ((health_unchanged_by_metrics_iff ws hconnected 1000000 true).2 1000 history
    hwindow).mp hsame with hhigh | hiff
  · exact hrate hhigh
  · exact hstored (hiff.mpr (Or.inl ⟨rfl, hslow⟩))

/-- A message that took 900 microseconds: the verdict is OK until the metrics are read. -/
theorem health_changed_by_slow_message :
    let ws := runCalls (fun _ => { now := 1000000 }) true (accepted ++ [timedMessage 100000])
    ws.state = .connected ∧ websocketGetHealth ws = .ok ∧
      websocketGetHealth (websocketGetMetrics ws 1000000 true).2 = .degraded := by
  decide +kernel

end WebSocketHft

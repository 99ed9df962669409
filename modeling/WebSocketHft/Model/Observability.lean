import WebSocketHft.Model.WebSocket

/-! # Latency samples, metrics and health

The figures `websocket.c` keeps about a connection. They are computed from the
record alone; the callbacks that report them are part of the event loop. -/

namespace WebSocketHft

/-! ## Latency samples -/

/-- `update_latency_sample`: the oldest sample of the rolling window is overwritten. -/
def updateLatencySample (ws : WebSocket) (latencyNs : UInt64) : WebSocket :=
  match ws.latencySamples with
  | none => ws
  | some samples =>
    if ws.latencySampleCapacity = 0 then ws
    else
      { ws with
        latencySamples := some (samples.set ws.latencySampleIdx latencyNs)
        latencySampleIdx := (ws.latencySampleIdx + 1) % ws.latencySampleCapacity
        latencySampleCount :=
          if ws.latencySampleCount < ws.latencySampleCapacity then ws.latencySampleCount + 1
          else ws.latencySampleCount }

/-- The inner loop of the bubble sort: `n` comparisons of neighbours from the left. -/
def bubblePass : ℕ → List UInt64 → List UInt64
  | n + 1, x :: y :: rest =>
    if y < x then y :: bubblePass n (x :: rest) else x :: bubblePass n (y :: rest)
  | _, xs => xs

/-- The outer loop: the `i`-th pass makes `count - i - 1` comparisons. -/
def bubbleSort : ℕ → List UInt64 → List UInt64
  | 0, xs => xs
  | n + 1, xs => bubbleSort n (bubblePass (n + 1) xs)

/-- `calculate_latency_percentiles`; `allocated` is the outcome of its `malloc`. -/
def calculateLatencyPercentiles (ws : WebSocket) (allocated : Bool) : ℚ × ℚ :=
  match ws.latencySamples with
  | none => (0, 0)
  | some samples =>
    let count := ws.latencySampleCount
    if count = 0 ∨ allocated = false then (0, 0)
    else
      let sorted := bubbleSort (count - 1) (samples.take count)
      let p50Idx := count * 50 / 100
      let p99Idx := count * 99 / 100
      let p99Idx := if count ≤ p99Idx then count - 1 else p99Idx
      ((sorted.getD p50Idx 0).toNat, (sorted.getD p99Idx 0).toNat)

/-! ## Metrics and health -/

/-- `websocket_get_metrics`: the stored figures are brought up to date and copied out. -/
def websocketGetMetrics (ws : WebSocket) (nowNs : UInt64) (allocated : Bool) :
    WebSocketMetrics × WebSocket :=
  let percentiles := calculateLatencyPercentiles ws allocated
  let throughput :=
    if 0 < ws.connectionStartNs ∧ ws.connectionStartNs < nowNs then
      (ws.metrics.messagesReceived.toNat : ℚ) /
        (((nowNs - ws.connectionStartNs).toNat : ℚ) / 1000000000)
    else ws.metrics.throughputMsgPerSec
  let rxUtilization : ℚ := (ringbufferReadable ws.rxRing : ℚ) / ws.rxRing.size
  let txUtilization : ℚ := (ringbufferReadable ws.txRing : ℚ) / ws.txRing.size
  let uptime :=
    if 0 < ws.connectionStartNs then nowNs - ws.connectionStartNs
    else ws.metrics.connectionUptimeNs
  let metrics := { ws.metrics with
    latencyP50Ns := percentiles.1
    latencyP99Ns := percentiles.2
    throughputMsgPerSec := throughput
    ringbufferUtilization := (rxUtilization + txUtilization) / 2
    connectionUptimeNs := uptime }
  (metrics, { ws with metrics := metrics })

/-- `websocket_reset_metrics`. -/
def websocketResetMetrics (ws : WebSocket) : WebSocket :=
  { ws with
    metrics := .zero
    latencySampleCount := 0
    latencySampleIdx := 0
    metricsLastReportNs := 0 }

/-- `websocket_get_health`. -/
def websocketGetHealth (ws : WebSocket) : WSHealthStatus :=
  let total := ws.metrics.messagesReceived + ws.metrics.messagesSent
  if ws.state ≠ .connected then .unhealthy
  else if 0 < total ∧ (1 / 10 : ℚ) < (ws.metrics.errorsTotal.toNat : ℚ) / total.toNat then .unhealthy
  else if 100000 < ws.metrics.latencyP99Ns then .degraded
  else if (8 / 10 : ℚ) < ws.metrics.ringbufferUtilization then .degraded
  else .ok

end WebSocketHft

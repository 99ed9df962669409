import WebSocketHft.Model.Frames

/-! # Scheduling a reconnection

`trigger_reconnect` of `websocket.c` and the delay it computes. No other function
of the program calls it. -/

namespace WebSocketHft

/-- The position of the first significant bit. -/
def leadingExponent (x : ℚ) : ℤ :=
  let e : ℤ := (x.num.natAbs.log2 : ℤ) - x.den.log2
  if (2 : ℚ) ^ e ≤ x ∨ (2 : ℚ) ^ e ≤ -x then e else e - 1

/-- The nearest value with 53 significant bits, of two equally near ones the even one. -/
def roundDouble (x : ℚ) : ℚ :=
  let ulp : ℚ := 2 ^ (leadingExponent x - 52)
  let n := (x / ulp).floor
  let rest := x / ulp - n
  if rest < 1 / 2 ∨ (rest = 1 / 2 ∧ n % 2 = 0) then n * ulp else (n + 1) * ulp

/-- `calculate_backoff`: the initial delay is multiplied once for each attempt, up to the
maximum. Each product is a `double`. -/
def calculateBackoff (ws : WebSocket) : UInt32 :=
  let config := ws.reconnectConfig
  let attempts := ws.reconnectState.reconnectAttempts
  if attempts = 0 then config.initialBackoffMs
  else
    let backoffMs : ℚ :=
      Nat.iterate (fun backoffMs => roundDouble (backoffMs * config.backoffMultiplier))
        attempts.toNat config.initialBackoffMs.toNat
    let maxBackoffMs : ℚ := config.maxBackoffMs.toNat
    let backoffMs := if maxBackoffMs < backoffMs then maxBackoffMs else backoffMs
    UInt32.ofNat backoffMs.floor.toNat

/-- Have `max_retries` attempts been used? Zero means that there is no limit. -/
def WebSocket.retriesExceeded (ws : WebSocket) : Bool :=
  0 < ws.reconnectConfig.maxRetries ∧
    ws.reconnectConfig.maxRetries ≤ ws.reconnectState.reconnectAttempts

/-- `trigger_reconnect`. -/
def triggerReconnect (env : Env) (ws : WebSocket) : WebSocket :=
  if ws.reconnectConfig.autoReconnect = false then ws
  else if ws.retriesExceeded then
    let maxRetries := ws.reconnectConfig.maxRetries
    ws.wsLog env .warn s!"Max reconnection attempts ({maxRetries}) exceeded"
  else
    let ws := { ws with reconnectState := { ws.reconnectState with
      isReconnecting := true
      reconnectAttempts := ws.reconnectState.reconnectAttempts + 1 } }
    let ws := { ws with reconnectState := { ws.reconnectState with
      nextBackoffMs := calculateBackoff ws } }
    let ws := { ws with lastReconnectAttemptNs := (env ws.tick).now }.pass
    let attempts := ws.reconnectState.reconnectAttempts
    let backoffMs := ws.reconnectState.nextBackoffMs
    ws.wsLog env .info s!"Reconnecting (attempt {attempts}, backoff {backoffMs} ms)"

end WebSocketHft

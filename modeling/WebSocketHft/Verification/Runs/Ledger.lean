import WebSocketHft.Verification.Runs.Actions
import WebSocketHft.Verification.Runs.Connecting

/-! # What the program keeps for the application

The counters, the times of the reports and the last status reported. A new
connection disturbs none of them. -/

namespace WebSocketHft

structure Ledger where
  onMessage : Bool
  onMetrics : Option UserData
  onHealth : Option UserData
  metrics : WebSocketMetrics
  metricsLastReportNs : UInt64
  connectionStartNs : UInt64
  currentHealth : WSHealthStatus
  lastHealthCheckNs : UInt64

def WebSocket.ledger (ws : WebSocket) : Ledger where
  onMessage := ws.onMessage
  onMetrics := ws.onMetrics
  onHealth := ws.onHealth
  metrics := ws.metrics
  metricsLastReportNs := ws.metricsLastReportNs
  connectionStartNs := ws.connectionStartNs
  currentHealth := ws.currentHealth
  lastHealthCheckNs := ws.lastHealthCheckNs

/-- What a connection attempt lets an observer see. -/
def Event.isAttempt : Event → Bool
  | .opened _ => true
  | .closed _ => true
  | .state _ _ => true
  | .request _ => true
  | .sent _ => true
  | _ => false

theorem Event.isAttempt_of_isDescriptor {e : Event} (h : e.isDescriptor) : e.isAttempt := by
  cases e with
  | opened fd => rfl
  | closed fd => rfl
  | _ => cases h

/-! ## Attempts -/

structure LedgerKept (ws ws' : WebSocket) : Prop where
  ledger : ws'.ledger = ws.ledger
  tick_le : ws.tick ≤ ws'.tick
  events : ∃ es, ws'.trace = ws.trace ++ es ∧ ∀ e ∈ es, e.isAttempt

namespace LedgerKept

variable {env : Env} {ws ws' ws'' : WebSocket}

theorem trans (h : LedgerKept ws ws') (h' : LedgerKept ws' ws'') : LedgerKept ws ws'' := by
  obtain ⟨es, htrace, hes⟩ := h.events
  obtain ⟨es', htrace', hes'⟩ := h'.events
  refine ⟨h'.ledger.trans h.ledger, h.tick_le.trans h'.tick_le, es ++ es', ?_,
    List.forall_mem_append.mpr ⟨hes, hes'⟩⟩
  rw [htrace', htrace, List.append_assoc]

theorem keep (hledger : ws'.ledger = ws.ledger) (htick : ws'.tick = ws.tick)
    (htrace : ws'.trace = ws.trace) : LedgerKept ws ws' :=
  ⟨hledger, htick.ge, [], htrace.trans (List.append_nil _).symm, by simp⟩

theorem refl (ws : WebSocket) : LedgerKept ws ws := keep rfl rfl rfl

theorem after (h : LedgerKept ws' ws'') (hledger : ws'.ledger = ws.ledger)
    (htick : ws'.tick = ws.tick) (htrace : ws'.trace = ws.trace) : LedgerKept ws ws'' :=
  (keep hledger htick htrace).trans h

theorem note {e : Event} (hledger : ws'.ledger = ws.ledger) (htick : ws'.tick = ws.tick)
    (htrace : ws'.trace = ws.trace ++ [e]) (he : e.isAttempt) : LedgerKept ws ws' :=
  ⟨hledger, htick.ge, [e], htrace, by simpa using he⟩

theorem flush (ws : WebSocket) : LedgerKept ws (ws.flush env) := by
  unfold WebSocket.flush
  split_ifs
  · exact ⟨rfl, Nat.le_succ _, [.sent _], rfl, by simp [Event.isAttempt]⟩
  · exact ⟨rfl, Nat.le_succ _, [.sent _], rfl, by simp [Event.isAttempt]⟩

theorem attempt (h : Attempt env ws ws') : LedgerKept ws ws' := by
  cases h with
  | setUp h =>
      cases h with
      | endpoint ep => exact keep rfl rfl rfl
      | descriptor he => exact note rfl rfl rfl (Event.isAttempt_of_isDescriptor he)
  | request bytes => exact note rfl rfl rfl rfl
  | flush => exact flush ws
  | connecting => exact note rfl rfl rfl rfl

/-- `websocket_connect` leaves the ledger alone, whether it succeeds or not. -/
theorem websocketConnect (ws : WebSocket) (url : List UInt8) (a : ConnectAnswers) :
    LedgerKept ws (WebSocketHft.websocketConnect env ws url a).2 :=
  (Attempts.websocketConnect ws url a).invariant (fun hattempt h => h.trans (attempt hattempt))
    (refl ws)

end LedgerKept

end WebSocketHft

import Mathlib.Data.List.Chain
import WebSocketHft.Shared.Throttle
import WebSocketHft.Verification.Observability.Accounts

/-! # Reports of metrics and health

Both reports are made by `websocket_process` itself, each at most once a second. A
health report is made only when the status has changed since the last one. -/

namespace WebSocketHft

open WebSocketHft.Throttle

variable {env : Env} {ws ws' ws'' : WebSocket}

/-! ## What is reported -/

def Event.isReport : Event → Bool
  | .metrics _ _ => true
  | .health _ _ _ => true
  | _ => false

/-- What the program has reported and remembers about it. -/
structure Bulletin where
  lastHealthCheckNs : UInt64
  metricsLastReportNs : UInt64
  currentHealth : WSHealthStatus
  reports : List Event

def WebSocket.bulletin (ws : WebSocket) : Bulletin where
  lastHealthCheckNs := ws.lastHealthCheckNs
  metricsLastReportNs := ws.metricsLastReportNs
  currentHealth := ws.currentHealth
  reports := ws.trace.filter Event.isReport

theorem bulletin_record (ws : WebSocket) {e : Event} (h : e.isReport = false) :
    (ws.record e).bulletin = ws.bulletin := by
  simp [WebSocket.bulletin, WebSocket.record, List.filter_append, h]

/-- Nothing is reported, and time does not go back. -/
structure Unreported (ws ws' : WebSocket) : Prop where
  bulletin : ws'.bulletin = ws.bulletin
  tick_le : ws.tick ≤ ws'.tick

namespace Unreported

theorem refl (ws : WebSocket) : Unreported ws ws := ⟨rfl, le_rfl⟩

theorem trans (h : Unreported ws ws') (h' : Unreported ws' ws'') : Unreported ws ws'' :=
  ⟨h'.bulletin.trans h.bulletin, h.tick_le.trans h'.tick_le⟩

theorem keep (hbulletin : ws'.bulletin = ws.bulletin) (htick : ws'.tick = ws.tick) :
    Unreported ws ws' := ⟨hbulletin, htick.ge⟩

theorem pass (ws : WebSocket) : Unreported ws ws.pass := ⟨rfl, Nat.le_succ _⟩

theorem record (ws : WebSocket) {e : Event} (h : e.isReport = false) :
    Unreported ws (ws.record e) := ⟨bulletin_record ws h, le_rfl⟩

theorem setState (ws : WebSocket) (state : WSState) : Unreported ws (ws.setState state) :=
  ⟨bulletin_record { ws with state := state } rfl, le_rfl⟩

theorem queueTx (ws : WebSocket) (bytes : List UInt8) : Unreported ws (ws.queueTx bytes).2 :=
  ⟨bulletin_record { ws with txRing := _ } rfl, le_rfl⟩

theorem writeSsl (ws : WebSocket) : Unreported ws (ws.writeSsl env).2 :=
  ⟨bulletin_record { ws with txRing := _ } rfl, Nat.le_succ _⟩

theorem flush (ws : WebSocket) : Unreported ws (ws.flush env) := by
  unfold WebSocket.flush
  split_ifs
  · exact writeSsl ws
  · exact ⟨bulletin_record { ws with txRing := _ } rfl, Nat.le_succ _⟩

theorem keptBySending : KeptBySending env Unreported where
  refl := refl
  trans := trans
  found ws _ _ _ _ _ := record ws rfl
  pass := pass
  queueTx := queueTx
  countSent _ _ := keep rfl rfl
  flush := flush

theorem websocketSend (ws : WebSocket) (data : Option (List UInt8)) (isText : Bool) :
    Unreported ws (WebSocketHft.websocketSend env ws data isText).2 :=
  keptBySending.websocketSend ws data isText

theorem websocketSendPong (ws : WebSocket) (payload : List UInt8) :
    Unreported ws (WebSocketHft.websocketSendPong env ws payload).2 :=
  keptBySending.websocketSendPong ws payload

theorem sendPing (ws : WebSocket) (nowNs : UInt64) : Unreported ws (ws.sendPing env nowNs) := by
  have hping : Unreported ws ws.queuePing.2 := (record ws rfl).trans (queueTx _ _)
  unfold WebSocket.sendPing
  dsimp only
  split_ifs
  · exact (hping.trans (flush _)).trans (keep rfl rfl)
  · exact hping

theorem websocketClose (ws : WebSocket) : Unreported ws (WebSocketHft.websocketClose ws) := by
  have hsocket : Unreported ws ws.closeSocket := by
    refine keep ?_ rfl
    simp [WebSocket.bulletin, trace_closeSocket, Event.isReport, List.filter_append]
    exact ⟨rfl, rfl, rfl⟩
  unfold WebSocketHft.websocketClose
  split_ifs
  · exact refl ws
  · exact hsocket.trans (setState _ _)
  · exact setState ws _

end Unreported

theorem unreported_sampleLatency (env : Env) (ws : WebSocket) :
    Unreported ws (sampleLatency env ws) := by
  obtain ⟨samples, idx, count, tick, htick, heq⟩ := sampleLatency_eq env ws
  rw [heq]
  exact ⟨rfl, htick⟩

theorem unreported_message (env : Env) (ws : WebSocket) (payload : List UInt8) :
    Unreported ws (ws.takeMessage env payload) := by
  have hcounted : Unreported ws (ws.countReceived payload.length) := .keep rfl rfl
  have hsampled := hcounted.trans (unreported_sampleLatency env _)
  unfold WebSocket.takeMessage
  dsimp only
  split_ifs
  · exact hsampled.trans (.record _ rfl)
  · exact hsampled

/-- Every action but the two reports leaves the bulletin alone. -/
theorem Action.reports_cases (haction : Action env ws ws') :
    Unreported ws ws' ∨
      (∃ userData, ws.onHealth = some userData ∧ ws.state = .connected ∧
        1000000000 ≤ (env ws.tick).now - ws.lastHealthCheckNs ∧
          ws' = ws.seeHealth env userData) ∨
      ∃ userData, ws.onMetrics = some userData ∧
        1000000000 ≤ (env ws.tick).now - ws.metricsLastReportNs ∧
          ws' = ws.seeMetrics env userData := by
  cases haction with
  | pass => exact Or.inl (.pass ws)
  | poll _ _ => exact Or.inl (.keep rfl rfl)
  | note he =>
      rename_i e
      refine Or.inl (.record ws ?_)
      cases e with
      | metrics figures userData => exact Bool.noConfusion he
      | health status reason userData => exact Bool.noConfusion he
      | _ => rfl
  | readIo socketIndex recv =>
      exact Or.inl ⟨bulletin_record { ws with ioCtx := _, rxRing := _ } rfl, le_rfl⟩
  | readSsl =>
      exact Or.inl ⟨bulletin_record { ws with sslCtx := _, rxRing := _ } rfl, Nat.le_succ _⟩
  | writeSsl => exact Or.inl (.writeSsl ws)
  | send data isText => exact Or.inl (.websocketSend ws data isText)
  | close => exact Or.inl (.websocketClose ws)
  | unmask frame payload =>
      unfold WebSocket.unmaskFrame
      split_ifs
      · exact Or.inl (.keep rfl rfl)
      · exact Or.inl (.refl ws)
  | message payload => exact Or.inl (unreported_message env ws payload)
  | answerPing payload => exact Or.inl (.websocketSendPong ws payload)
  | pongFrame => exact Or.inl ⟨rfl, Nat.le_succ _⟩
  | closeFrame => exact Or.inl ((Unreported.record ws rfl).trans (.setState _ _))
  | malformed => exact Or.inl (.keep rfl rfl)
  | oversized => exact Or.inl (.keep rfl rfl)
  | advance n => exact Or.inl (.keep rfl rfl)
  | response _ => exact Or.inl ⟨rfl, Nat.le_succ _⟩
  | accept _ => exact Or.inl ((Unreported.record ws rfl).trans (.setState _ _))
  | start _ => exact Or.inl ⟨rfl, Nat.le_succ _⟩
  | resetBackoff => exact Or.inl (.keep rfl rfl)
  | gone _ => exact Or.inl (.setState ws _)
  | health hset hstate hdue => exact Or.inr (Or.inl ⟨_, hset, hstate, hdue, rfl⟩)
  | metrics hset hdue => exact Or.inr (Or.inr ⟨_, hset, hdue, rfl⟩)
  | ping _ _ => exact Or.inl (.sendPing ws _)
  | pingExpired => exact Or.inl (.keep rfl rfl)

/-! ## Health reports -/

def Event.status? : Event → Option WSHealthStatus
  | .health status _ _ => some status
  | _ => none

/-- The statuses that have been reported, in order. -/
def healthsOf (es : List Event) : List WSHealthStatus := es.filterMap Event.status?

/-- Of the reports so far: each tells something new, the last one what is stored as the current
status, and the reason given is that of the status. -/
structure HealthInv (b : Bulletin) : Prop where
  changes : (WSHealthStatus.ok :: healthsOf b.reports).IsChain (· ≠ ·)
  last : (healthsOf b.reports).getLastD .ok = b.currentHealth
  reasons : ∀ status reason userData, Event.health status reason userData ∈ b.reports →
    reason = healthReason status

theorem healthInv_create (allocated : Bool) : HealthInv (websocketCreate allocated).bulletin :=
  ⟨.singleton _, rfl, fun _ _ _ hmem => absurd hmem List.not_mem_nil⟩

/-- A status that differs from the last one continues the chain. -/
theorem isChain_concat_status {statuses : List WSHealthStatus} {status : WSHealthStatus}
    (h : (WSHealthStatus.ok :: statuses).IsChain (· ≠ ·)) (hnew : statuses.getLastD .ok ≠ status) :
    (WSHealthStatus.ok :: (statuses ++ [status])).IsChain (· ≠ ·) := by
  rw [← List.cons_append, List.isChain_append]
  refine ⟨h, .singleton _, ?_⟩
  intro last hlast next hnext
  obtain rfl : status = next := by simpa using hnext
  rw [List.getLast?_cons, Option.mem_def, Option.some.injEq, ← List.getLastD_eq_getLast?] at hlast
  exact hlast ▸ hnew

/-- A health report that is made keeps the invariant. -/
theorem HealthInv.seeHealth (h : HealthInv ws.bulletin) (userData : UserData) :
    HealthInv (ws.seeHealth env userData).bulletin := by
  have hchecked : HealthInv { ws with lastHealthCheckNs := (env ws.tick).now }.pass.bulletin :=
    ⟨h.changes, h.last, h.reasons⟩
  unfold WebSocket.seeHealth
  generalize { ws with lastHealthCheckNs := (env ws.tick).now }.pass = checked at hchecked ⊢
  unfold WebSocket.reportHealth
  dsimp only
  split_ifs with hsame
  · exact hchecked
  · generalize websocketGetHealth checked = status at hsame ⊢
    have hreports : ({ checked with currentHealth := status }.record
        (.health status (healthReason status) userData)).bulletin.reports =
          checked.bulletin.reports ++ [.health status (healthReason status) userData] := by
      simp [WebSocket.bulletin, WebSocket.record, List.filter_append, Event.isReport]
    have hhealths : healthsOf (checked.bulletin.reports ++
        [.health status (healthReason status) userData]) =
          healthsOf checked.bulletin.reports ++ [status] := List.filterMap_append
    refine ⟨?_, ?_, ?_⟩
    · rw [hreports, hhealths]
      refine isChain_concat_status hchecked.changes ?_
      rw [hchecked.last]
      exact fun heq => hsame heq.symm
    · rw [hreports, hhealths, List.getLastD_concat]
      rfl
    · intro status' reason userData' hmem
      rw [hreports] at hmem
      rcases List.mem_append.mp hmem with hmem | hmem
      · exact hchecked.reasons _ _ _ hmem
      · cases List.mem_singleton.mp hmem
        rfl

/-- A report of the metrics is the only thing it adds. -/
theorem reports_seeMetrics (env : Env) (ws : WebSocket) (userData : UserData) :
    ∃ figures, (ws.seeMetrics env userData).bulletin.reports =
      ws.bulletin.reports ++ [.metrics figures userData] := by
  obtain ⟨figures, htrace⟩ : ∃ figures, (ws.seeMetrics env userData).trace =
      ws.trace ++ [.metrics figures userData] := ⟨_, rfl⟩
  exact ⟨figures, by simp [WebSocket.bulletin, htrace, List.filter_append, Event.isReport]⟩

theorem HealthInv.seeMetrics (h : HealthInv ws.bulletin) (userData : UserData) :
    HealthInv (ws.seeMetrics env userData).bulletin := by
  obtain ⟨figures, hreports⟩ := reports_seeMetrics env ws userData
  have hhealths : healthsOf (ws.bulletin.reports ++ [.metrics figures userData]) =
      healthsOf ws.bulletin.reports := by
    rw [healthsOf, List.filterMap_append]
    exact List.append_nil _
  refine ⟨?_, ?_, ?_⟩
  · rw [hreports, hhealths]
    exact h.changes
  · rw [hreports, hhealths]
    exact h.last
  · intro status reason userData' hmem
    rw [hreports] at hmem
    rcases List.mem_append.mp hmem with hmem | hmem
    · exact h.reasons _ _ _ hmem
    · cases List.mem_singleton.mp hmem

theorem HealthInv.action (haction : Action env ws ws') (h : HealthInv ws.bulletin) :
    HealthInv ws'.bulletin := by
  rcases haction.reports_cases with hkept | ⟨userData, -, -, -, rfl⟩ | ⟨userData, -, -, rfl⟩
  · exact hkept.bulletin ▸ h
  · exact h.seeHealth userData
  · exact h.seeMetrics userData

theorem Event.isReport_of_isAttempt {e : Event} (h : e.isAttempt) : e.isReport = false := by
  cases e with
  | metrics figures userData => exact Bool.noConfusion h
  | health status reason userData => exact Bool.noConfusion h
  | _ => rfl

/-- Neither does a new connection report anything. -/
theorem unreported_connect (env : Env) (ws : WebSocket) (url : List UInt8) (a : ConnectAnswers) :
    Unreported ws (websocketConnect env ws url a).2 := by
  have hkept : LedgerKept ws (websocketConnect env ws url a).2 := .websocketConnect ws url a
  obtain ⟨es, htrace, hes⟩ := hkept.events
  have hnone : es.filter Event.isReport = [] :=
    List.filter_eq_nil_iff.mpr fun e he => by simp [Event.isReport_of_isAttempt (hes e he)]
  refine ⟨?_, hkept.tick_le⟩
  have hreports : (websocketConnect env ws url a).2.trace.filter Event.isReport =
      ws.trace.filter Event.isReport := by
    rw [htrace, List.filter_append, hnone, List.append_nil]
  have hhealth := congrArg Ledger.lastHealthCheckNs hkept.ledger
  have hmetrics := congrArg Ledger.metricsLastReportNs hkept.ledger
  have hcurrent := congrArg Ledger.currentHealth hkept.ledger
  unfold WebSocket.bulletin
  exact (Bulletin.mk.injEq ..).mpr ⟨hhealth, hmetrics, hcurrent, hreports⟩

/-- What a call does is done by actions, or it reports nothing, or it resets the metrics. -/
theorem PublicCall.reports_cases (env : Env) (ws : WebSocket) (call : PublicCall) :
    Actions env ws (call.run env ws) ∨ Unreported ws (call.run env ws) ∨ call = .resetMetrics := by
  cases call with
  | process events => exact Or.inl (.websocketProcess ws events)
  | send data isText => exact Or.inl (.single (.send data isText))
  | close => exact Or.inl (.single .close)
  | connect url answers => exact Or.inr (Or.inl (unreported_connect env ws url answers))
  | getMetrics => exact Or.inr (Or.inl ⟨rfl, Nat.le_succ _⟩)
  | resetMetrics => exact Or.inr (Or.inr rfl)
  | _ => exact Or.inr (Or.inl (.keep rfl rfl))

theorem HealthInv.call (env : Env) (h : HealthInv ws.bulletin) (call : PublicCall) :
    HealthInv (call.run env ws).bulletin := by
  rcases call.reports_cases env ws with hactions | hkept | rfl
  · have hstep {ws₁ ws₂ : WebSocket} (haction : Action env ws₁ ws₂)
        (hinv : HealthInv ws₁.bulletin) : HealthInv ws₂.bulletin := hinv.action haction
    exact hactions.invariant (P := fun ws => HealthInv ws.bulletin) hstep h
  · exact hkept.bulletin ▸ h
  · exact ⟨h.changes, h.last, h.reasons⟩

/-- Over every run: the health reports tell a new status each, the first of them one that is
not OK; the last one tells what the connection takes for its status; and the reason is always
that of the status, so that the application never hears "Connection not connected". -/
theorem health_reports_tell_changes (env : Env) (allocated : Bool) (calls : List PublicCall) :
    let ws := runCalls env allocated calls
    (WSHealthStatus.ok :: healthsOf ws.trace).IsChain (· ≠ ·) ∧
      (healthsOf ws.trace).getLastD .ok = ws.currentHealth ∧
      ∀ status reason userData, Event.health status reason userData ∈ ws.trace →
        reason = healthReason status ∧ reason ≠ "Connection not connected" := by
  intro ws
  have hinv : HealthInv ws.bulletin :=
    Runs.foldl_invariant (I := fun ws : WebSocket => HealthInv ws.bulletin)
      (fun _ call h => h.call env call) (healthInv_create allocated) calls
  have hhealths : healthsOf ws.bulletin.reports = healthsOf ws.trace := by
    change (ws.trace.filter Event.isReport).filterMap Event.status? = _
    rw [List.filterMap_filter]
    refine List.filterMap_congr fun e _ => ?_
    cases e <;> rfl
  have hchanges := hinv.changes
  have hlast := hinv.last
  rw [hhealths] at hchanges hlast
  refine ⟨hchanges, hlast, ?_⟩
  intro status reason userData hmem
  have hreason := hinv.reasons status reason userData (List.mem_filter.mpr ⟨hmem, rfl⟩)
  refine ⟨hreason, ?_⟩
  rw [hreason]
  cases status <;> decide

/-! ## One report a second -/

def Event.isMetrics : Event → Bool
  | .metrics _ _ => true
  | _ => false

def Event.isHealth : Event → Bool
  | .health _ _ _ => true
  | _ => false

/-- The gate in front of `on_metrics`. -/
def Bulletin.metricsGate (b : Bulletin) : Gate :=
  ⟨b.metricsLastReportNs.toNat, b.reports.countP Event.isMetrics⟩

/-- The gate in front of `on_health`. -/
def Bulletin.healthGate (b : Bulletin) : Gate :=
  ⟨b.lastHealthCheckNs.toNat, b.reports.countP Event.isHealth⟩

/-- `1000000000` nanoseconds. -/
def reportPeriod : ℕ := 1000000000

/-- Neither time lies ahead of the clock. -/
structure Timely (env : Env) (ws : WebSocket) : Prop where
  health : ws.lastHealthCheckNs ≤ (env ws.tick).now
  metrics : ws.metricsLastReportNs ≤ (env ws.tick).now

/-- On a clock that does not go back, a difference of a period is a period that has passed. -/
theorem add_period_le {last now : UInt64} (hle : last ≤ now) (hdue : 1000000000 ≤ now - last) :
    last.toNat + reportPeriod ≤ now.toNat := by
  have hperiod := UInt64.le_iff_toNat_le.mp hdue
  have hlast := UInt64.le_iff_toNat_le.mp hle
  rw [UInt64.toNat_sub_of_le _ _ hle] at hperiod
  change 1000000000 ≤ _ at hperiod
  unfold reportPeriod
  omega

/-- What happens to both gates. -/
structure Throttled (env : Env) (ws ws' : WebSocket) : Prop where
  timely : Timely env ws'
  health : Spaced reportPeriod ws.bulletin.healthGate ws'.bulletin.healthGate
  metrics : Spaced reportPeriod ws.bulletin.metricsGate ws'.bulletin.metricsGate

theorem Throttled.trans (h : Throttled env ws ws') (h' : Throttled env ws' ws'') :
    Throttled env ws ws'' :=
  ⟨h'.timely, h.health.trans h'.health, h.metrics.trans h'.metrics⟩

theorem throttled_refl (h : Timely env ws) : Throttled env ws ws :=
  ⟨h, .refl _ _, .refl _ _⟩

section Clock

variable (hclock : ∀ t t', t ≤ t' → (env t).now ≤ (env t').now)

include hclock

theorem Timely.mono (h : Timely env ws) (hhealth : ws'.lastHealthCheckNs = ws.lastHealthCheckNs)
    (hmetrics : ws'.metricsLastReportNs = ws.metricsLastReportNs) (htick : ws.tick ≤ ws'.tick) :
    Timely env ws' := by
  have hlater := hclock _ _ htick
  exact ⟨hhealth ▸ UInt64.le_trans h.health hlater, hmetrics ▸ UInt64.le_trans h.metrics hlater⟩

theorem Unreported.throttled (h : Unreported ws ws') (htimely : Timely env ws) :
    Throttled env ws ws' := by
  have hhealth : ws'.lastHealthCheckNs = ws.lastHealthCheckNs :=
    congrArg Bulletin.lastHealthCheckNs h.bulletin
  have hmetrics : ws'.metricsLastReportNs = ws.metricsLastReportNs :=
    congrArg Bulletin.metricsLastReportNs h.bulletin
  refine ⟨htimely.mono hclock hhealth hmetrics h.tick_le, ?_, ?_⟩
  · rw [h.bulletin]
    exact .refl _ _
  · rw [h.bulletin]
    exact .refl _ _

theorem throttled_seeMetrics (htimely : Timely env ws) (userData : UserData)
    (hdue : 1000000000 ≤ (env ws.tick).now - ws.metricsLastReportNs) :
    Throttled env ws (ws.seeMetrics env userData) := by
  obtain ⟨figures, hreports⟩ := reports_seeMetrics env ws userData
  have hlater : (env ws.tick).now ≤ (env (ws.tick + 1)).now := hclock _ _ (Nat.le_succ _)
  refine ⟨⟨UInt64.le_trans htimely.health hlater, hlater⟩, .shut ?_ le_rfl, .open ?_ ?_⟩
  · simp [Bulletin.healthGate, hreports, List.countP_append, Event.isHealth]
  · simp [Bulletin.metricsGate, hreports, List.countP_append, Event.isMetrics]
  · exact add_period_le htimely.metrics hdue

theorem throttled_seeHealth (htimely : Timely env ws) (userData : UserData)
    (hdue : 1000000000 ≤ (env ws.tick).now - ws.lastHealthCheckNs) :
    Throttled env ws (ws.seeHealth env userData) := by
  have hlater : (env ws.tick).now ≤ (env (ws.tick + 1)).now := hclock _ _ (Nat.le_succ _)
  have hpassed := add_period_le htimely.health hdue
  have hchecked : Timely env { ws with lastHealthCheckNs := (env ws.tick).now }.pass :=
    ⟨hlater, UInt64.le_trans htimely.metrics hlater⟩
  have hlast : { ws with lastHealthCheckNs := (env ws.tick).now }.pass.lastHealthCheckNs =
      (env ws.tick).now := rfl
  have hreports : { ws with lastHealthCheckNs := (env ws.tick).now }.pass.bulletin.reports =
      ws.bulletin.reports := rfl
  have hmetrics : { ws with lastHealthCheckNs := (env ws.tick).now }.pass.bulletin.metricsGate =
      ws.bulletin.metricsGate := rfl
  unfold WebSocket.seeHealth
  generalize { ws with lastHealthCheckNs := (env ws.tick).now }.pass = checked
    at hchecked hlast hreports hmetrics ⊢
  have hgate : checked.bulletin.healthGate =
      ⟨(env ws.tick).now.toNat, ws.bulletin.healthGate.opened⟩ := by
    rw [Bulletin.healthGate, hreports]
    exact congrArg (fun t : UInt64 => Gate.mk t.toNat _) hlast
  unfold WebSocket.reportHealth
  dsimp only
  split_ifs
  · refine ⟨hchecked, ?_, hmetrics ▸ .refl _ _⟩
    rw [hgate]
    exact .shut rfl ((Nat.le_add_right _ _).trans hpassed)
  · generalize websocketGetHealth checked = status
    have hadded : ({ checked with currentHealth := status }.record
        (.health status (healthReason status) userData)).bulletin.reports =
          checked.bulletin.reports ++ [.health status (healthReason status) userData] := by
      simp [WebSocket.bulletin, WebSocket.record, List.filter_append, Event.isReport]
    refine ⟨⟨hchecked.health, hchecked.metrics⟩, .open ?_ ?_, .shut ?_ ?_⟩
    · simp [Bulletin.healthGate, hadded, hreports, List.countP_append, Event.isHealth]
    · exact hpassed.trans (congrArg UInt64.toNat hlast).ge
    · rw [← hmetrics]
      simp [Bulletin.metricsGate, hadded, List.countP_append, Event.isMetrics]
    · rw [← hmetrics]
      exact le_rfl

theorem Action.throttled (haction : Action env ws ws') (htimely : Timely env ws) :
    Throttled env ws ws' := by
  rcases haction.reports_cases with
    hkept | ⟨userData, -, -, hdue, rfl⟩ | ⟨userData, -, hdue, rfl⟩
  · exact hkept.throttled hclock htimely
  · exact throttled_seeHealth hclock htimely userData hdue
  · exact throttled_seeMetrics hclock htimely userData hdue

theorem Actions.throttled (h : Actions env ws ws') (htimely : Timely env ws) :
    Throttled env ws ws' := by
  have hstep {ws₁ ws₂ : WebSocket} (haction : Action env ws₁ ws₂) (hbefore : Throttled env ws ws₁) :
      Throttled env ws ws₂ := hbefore.trans (haction.throttled hclock hbefore.timely)
  exact h.invariant hstep (throttled_refl htimely)

/-- A reset of the metrics opens their gate and leaves that of the health alone. -/
theorem PublicCall.throttled (call : PublicCall) (htimely : Timely env ws) :
    Throttled env ws (call.run env ws) ∨ call = .resetMetrics ∧ Timely env (call.run env ws) ∧
      (call.run env ws).bulletin.healthGate = ws.bulletin.healthGate := by
  rcases call.reports_cases env ws with hactions | hkept | rfl
  · exact Or.inl (hactions.throttled hclock htimely)
  · exact Or.inl (hkept.throttled hclock htimely)
  · exact Or.inr ⟨rfl, ⟨htimely.health, UInt64.zero_le⟩, rfl⟩

theorem throttled_foldl_calls (calls : List PublicCall) (htimely : Timely env ws) :
    Timely env (calls.foldl (PublicCall.run env) ws) ∧
      Spaced reportPeriod ws.bulletin.healthGate
        (calls.foldl (PublicCall.run env) ws).bulletin.healthGate ∧
      (PublicCall.resetMetrics ∉ calls → Spaced reportPeriod ws.bulletin.metricsGate
        (calls.foldl (PublicCall.run env) ws).bulletin.metricsGate) := by
  induction calls generalizing ws with
  | nil => exact ⟨htimely, .refl _ _, fun _ => .refl _ _⟩
  | cons call calls ih =>
      rcases call.throttled hclock htimely with hfirst | ⟨rfl, hreset, hgate⟩
      · obtain ⟨hlater, hhealth, hmetrics⟩ := ih hfirst.timely
        exact ⟨hlater, hfirst.health.trans hhealth, fun hnone =>
          hfirst.metrics.trans (hmetrics fun hmem => hnone (List.mem_cons_of_mem _ hmem))⟩
      · obtain ⟨hlater, hhealth, -⟩ := ih hreset
        exact ⟨hlater, hgate ▸ hhealth, fun hnone => absurd List.mem_cons_self hnone⟩

end Clock

theorem countP_reports (ws : WebSocket) {p : Event → Bool} (hp : ∀ e, p e → e.isReport) :
    ws.bulletin.reports.countP p = ws.trace.countP p := by
  change (ws.trace.filter Event.isReport).countP p = _
  rw [List.countP_filter]
  refine List.countP_congr fun e _ => ?_
  simpa using hp e

/-- On a clock that does not go back, between any two points of any run: `on_health` has been
called at most once for each second since the last check before, and `on_metrics`, unless the
metrics are reset in between, at most once for each second since the last report before. -/
theorem reports_once_a_second (env : Env) (allocated : Bool) (before calls : List PublicCall)
    (hclock : ∀ t t', t ≤ t' → (env t).now ≤ (env t').now) :
    let ws := runCalls env allocated before
    let ws' := calls.foldl (PublicCall.run env) ws
    (ws'.trace.countP Event.isHealth - ws.trace.countP Event.isHealth) * reportPeriod ≤
        (env ws'.tick).now.toNat - ws.lastHealthCheckNs.toNat ∧
      (PublicCall.resetMetrics ∉ calls →
        (ws'.trace.countP Event.isMetrics - ws.trace.countP Event.isMetrics) * reportPeriod ≤
          (env ws'.tick).now.toNat - ws.metricsLastReportNs.toNat) := by
  intro ws ws'
  have hcreated : Timely env (websocketCreate allocated) := ⟨UInt64.zero_le, UInt64.zero_le⟩
  have htimely : Timely env ws := (throttled_foldl_calls hclock before hcreated).1
  obtain ⟨hlater, hhealth, hmetrics⟩ := throttled_foldl_calls hclock calls htimely
  have hhealths (ws : WebSocket) := countP_reports ws (p := Event.isHealth)
    (by intro e he; cases e <;> first | rfl | exact Bool.noConfusion he)
  have hfigures (ws : WebSocket) := countP_reports ws (p := Event.isMetrics)
    (by intro e he; cases e <;> first | rfl | exact Bool.noConfusion he)
  refine ⟨?_, fun hnone => ?_⟩
  · rw [← hhealths ws, ← hhealths ws']
    exact hhealth.count_mul_le (UInt64.le_iff_toNat_le.mp hlater.health)
  · rw [← hfigures ws, ← hfigures ws']
    exact (hmetrics hnone).count_mul_le (UInt64.le_iff_toNat_le.mp hlater.metrics)

/-- Three seconds pass while the greeting is exchanged. -/
def slowClock : Env := fun t => { now := if t < 2 then 0 else 3000000000 }

/-- The greeting, and one more look at the events. -/
def slowGreeting : List PublicCall := greeting ++ [.process (some [])]

/-- The metrics are reported once during the greeting, where three reports would be allowed. -/
theorem reports_during_greeting :
    let ws := runCalls slowClock true [.setOnMetrics (some 0)]
    let ws' := slowGreeting.foldl (PublicCall.run slowClock) ws
    ws'.trace.countP Event.isMetrics = 1 ∧
      (ws'.trace.countP Event.isMetrics - ws.trace.countP Event.isMetrics) * reportPeriod ≤
        (slowClock ws'.tick).now.toNat - ws.metricsLastReportNs.toNat := by
  have hclock : ∀ t t', t ≤ t' → (slowClock t).now ≤ (slowClock t').now := by
    intro t t' hle
    unfold slowClock
    dsimp only
    split_ifs
    · exact UInt64.le_refl _
    · exact UInt64.zero_le
    · omega
    · exact UInt64.le_refl _
  have hnone : PublicCall.resetMetrics ∉ slowGreeting := by
    simp [slowGreeting, greeting]
  have hbound := (reports_once_a_second slowClock true [.setOnMetrics (some 0)] slowGreeting
    hclock).2 hnone
  exact ⟨by decide +kernel, hbound⟩

end WebSocketHft

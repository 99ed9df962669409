import WebSocketHft.Shared.Runs
import WebSocketHft.Shared.Watchdog
import WebSocketHft.Verification.Runs.Standing
import WebSocketHft.Verification.Runs.States
import WebSocketHft.Verification.Transmit.Calls

/-! # The heartbeat

`check_heartbeat` is a watchdog that is started by a ping and answered by a pong.
The ping that comes after an interval starts it again before it has been asked
whether it is overdue. -/

namespace WebSocketHft

open WebSocketHft.Runs

/-! ## One check -/

def WSHeartbeatConfig.intervalNs (config : WSHeartbeatConfig) : ℕ :=
  config.pingIntervalMs.toNat * 1000000

def WSHeartbeatConfig.timeoutNs (config : WSHeartbeatConfig) : ℕ :=
  config.pongTimeoutMs.toNat * 1000000

/-- The watchdog that the heartbeat keeps. -/
def WebSocket.watchdog (ws : WebSocket) : Watchdog :=
  ⟨ws.lastPingSentNs.toNat, ws.lastPongReceivedNs.toNat, ws.timeouts⟩

theorem Steady.watchdog_eq {ws ws' : WebSocket} (h : Steady ws ws')
    (hnotes : ws'.notes = ws.notes) : ws'.watchdog = ws.watchdog := by
  have hpong : ws'.lastPongReceivedNs = ws.lastPongReceivedNs := congrArg Prod.fst hnotes
  unfold WebSocket.watchdog
  rw [h.lastPingSentNs, h.timeouts, hpong]

theorem watchdog_wsLog (env : Env) (ws : WebSocket) (level : WSLogLevel) (msg : String) :
    (ws.wsLog env level msg).watchdog = ws.watchdog :=
  (Steady.wsLog ws level msg).watchdog_eq (notes_wsLog env ws level msg)

theorem toNat_milliseconds (ms : UInt32) : (ms.toUInt64 * 1000000).toNat = ms.toNat * 1000000 := by
  have hms : ms.toNat < 4294967296 := ms.toNat_lt
  rw [UInt64.toNat_mul, UInt32.toNat_toUInt64]
  exact Nat.mod_eq_of_lt (by
    change ms.toNat * 1000000 < 18446744073709551616
    omega)

/-- Times that do not go back are compared without overflow. -/
theorem milliseconds_le_sub_iff {ms : UInt32} {since nowNs : UInt64} (h : since ≤ nowNs) :
    ms.toUInt64 * 1000000 ≤ nowNs - since ↔ since.toNat + ms.toNat * 1000000 ≤ nowNs.toNat := by
  have hle : since.toNat ≤ nowNs.toNat := h
  rw [UInt64.le_iff_toNat_le, toNat_milliseconds, UInt64.toNat_sub_of_le _ _ h]
  omega

theorem pingDue_iff {ws : WebSocket} {nowNs : UInt64} (h : ws.lastPingSentNs ≤ nowNs) :
    pingDue ws nowNs = true ↔ ws.watchdog.started = 0 ∨
      ws.watchdog.started + ws.heartbeatConfig.intervalNs ≤ nowNs.toNat := by
  rw [pingDue, decide_eq_true_iff, milliseconds_le_sub_iff h]
  exact or_congr_left UInt64.toNat_inj.symm

/-- Is a ping due, and does the transmit ring take it whole? -/
def PingQueued (ws : WebSocket) (nowNs : UInt64) : Prop :=
  pingDue ws nowNs = true ∧ ws.queuePing.1 = 2

instance (ws : WebSocket) (nowNs : UInt64) : Decidable (PingQueued ws nowNs) :=
  inferInstanceAs (Decidable (_ ∧ _))

/-- The first half of a check starts the watchdog if a ping is queued. -/
theorem watchdog_sendHeartbeat_eq (env : Env) (ws : WebSocket) (nowNs : UInt64) :
    (sendHeartbeat env ws nowNs).watchdog =
      if PingQueued ws nowNs then { ws.watchdog with started := nowNs.toNat } else ws.watchdog := by
  unfold sendHeartbeat
  by_cases hdue : pingDue ws nowNs = true
  · rw [if_pos hdue]
    change WebSocket.watchdog (if ws.queuePing.1 = 2 then
      { ws.queuePing.2.flush env with lastPingSentNs := nowNs }.wsLog env .debug
        "Sent heartbeat ping"
      else ws.queuePing.2) = _
    by_cases hret : ws.queuePing.1 = 2
    · have hsent : (ws.queuePing.2.flush env).watchdog = ws.watchdog :=
        ((Steady.queuePing ws).trans (.flush _)).watchdog_eq (notes_flush env _)
      rw [if_pos hret, if_pos ⟨hdue, hret⟩, watchdog_wsLog, ← hsent]
      rfl
    · rw [if_neg hret, if_neg fun hqueued => hret hqueued.2]
      exact (Steady.queuePing ws).watchdog_eq rfl
  · rw [if_neg hdue, if_neg fun hqueued => hdue hqueued.1]

theorem heartbeatConfig_sendHeartbeat (env : Env) (ws : WebSocket) (nowNs : UInt64) :
    (sendHeartbeat env ws nowNs).heartbeatConfig = ws.heartbeatConfig :=
  congrArg Settings.heartbeatConfig (Standing.sendHeartbeat ws nowNs).settings

/-- With space for a ping, the watchdog is started if it is time. -/
theorem watchdog_sendHeartbeat (env : Env) (ws : WebSocket) {nowNs : UInt64}
    (hspace : 2 ≤ ringbufferWriteable ws.txRing) (htime : ws.lastPingSentNs ≤ nowNs) :
    (sendHeartbeat env ws nowNs).watchdog =
      { ws.watchdog with started :=
        Watchdog.restarted ws.heartbeatConfig.intervalNs ws.watchdog.started nowNs.toNat } := by
  have hret : ws.queuePing.1 = 2 := by
    change (ringbufferWrite ws.txRing (some pingFrame)).ret = 2
    rw [ringbufferWrite_ret]
    exact min_eq_left hspace
  rw [watchdog_sendHeartbeat_eq, Watchdog.restarted]
  by_cases hdue : pingDue ws nowNs = true
  · rw [if_pos ⟨hdue, hret⟩, if_pos ((pingDue_iff htime).mp hdue)]
  · rw [if_neg fun hqueued => hdue hqueued.1, if_neg (mt (pingDue_iff htime).mpr hdue)]

/-- `on_heartbeat_timeout` is called if it is set. -/
def WebSocket.reportTimeout (env : Env) (ws : WebSocket) : WebSocket :=
  if ws.heartbeatConfig.onHeartbeatTimeout then
    ws.callback env (.heartbeatTimeout ws.heartbeatConfig.heartbeatUserData)
  else ws

theorem watchdog_reportTimeout (env : Env) (ws : WebSocket) :
    (ws.reportTimeout env).watchdog =
      if ws.heartbeatConfig.onHeartbeatTimeout then
        { ws.watchdog with expirations := ws.watchdog.expirations + 1 }
      else ws.watchdog := by
  unfold WebSocket.reportTimeout
  by_cases hset : ws.heartbeatConfig.onHeartbeatTimeout = true
  · rw [if_pos hset, if_pos hset, (Steady.answer ws _).watchdog_eq (notes_callback env ws _)]
    simp [WebSocket.watchdog, WebSocket.timeouts, WebSocket.record, Event.isTimeout]
  · rw [if_neg hset, if_neg hset]

theorem checkPongTimeout_eq (env : Env) (ws : WebSocket) (nowNs pongTimeoutNs : UInt64) :
    ∃ msg, checkPongTimeout env ws nowNs pongTimeoutNs =
      if 0 < ws.lastPingSentNs ∧ ws.lastPongReceivedNs < ws.lastPingSentNs then
        if pongTimeoutNs ≤ nowNs - ws.lastPingSentNs then
          { (ws.wsLog env .warn msg).reportTimeout env with lastPingSentNs := 0 }
        else ws
      else ws :=
  ⟨_, rfl⟩

/-- Does `check_heartbeat` find that a PONG is missing? -/
def PongMissing (ws : WebSocket) (nowNs : UInt64) : Prop :=
  (0 < ws.lastPingSentNs ∧ ws.lastPongReceivedNs < ws.lastPingSentNs) ∧
    ws.heartbeatConfig.pongTimeoutMs.toUInt64 * 1000000 ≤ nowNs - ws.lastPingSentNs

instance (ws : WebSocket) (nowNs : UInt64) : Decidable (PongMissing ws nowNs) :=
  inferInstanceAs (Decidable (_ ∧ _))

theorem pongMissing_iff {ws : WebSocket} {nowNs : UInt64} (htime : ws.lastPingSentNs ≤ nowNs) :
    PongMissing ws nowNs ↔ ws.watchdog.Overdue ws.heartbeatConfig.timeoutNs nowNs.toNat := by
  unfold PongMissing
  rw [milliseconds_le_sub_iff htime, and_assoc]
  exact Iff.rfl

/-- The second half stops a watchdog that is overdue, and calls the callback if it is set. -/
theorem watchdog_checkPongTimeout_eq (env : Env) (ws : WebSocket) (nowNs : UInt64) :
    (checkPongTimeout env ws nowNs (ws.heartbeatConfig.pongTimeoutMs.toUInt64 * 1000000)).watchdog =
      if PongMissing ws nowNs then
        if ws.heartbeatConfig.onHeartbeatTimeout then
          { ws.watchdog with started := 0, expirations := ws.watchdog.expirations + 1 }
        else { ws.watchdog with started := 0 }
      else ws.watchdog := by
  obtain ⟨msg, heq⟩ := checkPongTimeout_eq env ws nowNs
    (ws.heartbeatConfig.pongTimeoutMs.toUInt64 * 1000000)
  rw [heq]
  by_cases hwaits : 0 < ws.lastPingSentNs ∧ ws.lastPongReceivedNs < ws.lastPingSentNs
  · rw [if_pos hwaits]
    by_cases hlong : ws.heartbeatConfig.pongTimeoutMs.toUInt64 * 1000000 ≤
        nowNs - ws.lastPingSentNs
    · have hconfig : (ws.wsLog env .warn msg).heartbeatConfig = ws.heartbeatConfig :=
        congrArg Settings.heartbeatConfig (Steady.wsLog ws .warn msg).settings
      have hreport := watchdog_reportTimeout env (ws.wsLog env .warn msg)
      rw [hconfig, watchdog_wsLog] at hreport
      rw [if_pos hlong, if_pos ⟨hwaits, hlong⟩]
      refine (congrArg (fun w : Watchdog => { w with started := 0 }) hreport).trans ?_
      split_ifs <;> rfl
    · rw [if_neg hlong, if_neg fun hmissing => hlong hmissing.2]
  · rw [if_neg hwaits, if_neg fun hmissing => hwaits hmissing.1]

/-- With a callback set, the second half calls it exactly if the watchdog is overdue. -/
theorem watchdog_checkPongTimeout (env : Env) {ws : WebSocket} {nowNs : UInt64}
    (hset : ws.heartbeatConfig.onHeartbeatTimeout = true) (htime : ws.lastPingSentNs ≤ nowNs) :
    (checkPongTimeout env ws nowNs (ws.heartbeatConfig.pongTimeoutMs.toUInt64 * 1000000)).watchdog =
      if ws.watchdog.Overdue ws.heartbeatConfig.timeoutNs nowNs.toNat then
        { ws.watchdog with started := 0, expirations := ws.watchdog.expirations + 1 }
      else ws.watchdog := by
  rw [watchdog_checkPongTimeout_eq, if_pos hset]
  exact if_congr (pongMissing_iff htime) rfl rfl

/-- A check in the state CONNECTED is a look at the watchdog. -/
theorem watchdog_checkHeartbeat (env : Env) {ws : WebSocket}
    (henabled : ws.heartbeatConfig.enableHeartbeat = true)
    (hset : ws.heartbeatConfig.onHeartbeatTimeout = true) (hstate : ws.state = .connected)
    (hspace : 2 ≤ ringbufferWriteable ws.txRing) (htime : ws.lastPingSentNs ≤ (env ws.tick).now) :
    (checkHeartbeat env ws).watchdog =
      ws.watchdog.look ws.heartbeatConfig.intervalNs ws.heartbeatConfig.timeoutNs
        (env ws.tick).now.toNat := by
  have hsent := watchdog_sendHeartbeat env ws.pass hspace htime
  have hconfig : (sendHeartbeat env ws.pass (env ws.tick).now).heartbeatConfig =
      ws.heartbeatConfig := heartbeatConfig_sendHeartbeat env ws.pass _
  unfold checkHeartbeat
  rw [if_neg (by simp [henabled, hstate])]
  dsimp only
  generalize sendHeartbeat env ws.pass (env ws.tick).now = sent at hsent hconfig ⊢
  have hlast : sent.watchdog.started ≤ (env ws.tick).now.toNat := by
    rw [hsent]
    exact Watchdog.restarted_le htime
  have hchecked := watchdog_checkPongTimeout env (hconfig ▸ hset : _ = true) hlast
  rw [hconfig] at hchecked
  rw [hchecked, hsent]
  rfl

/-! ## Runs without a PONG -/

/-- The watchdog as if no PONG had been received. -/
def WebSocket.waiting (ws : WebSocket) : Watchdog := { ws.watchdog with answered := 0 }

/-- No PONG has been received, and there is space for a ping. -/
structure Unanswered (ws : WebSocket) : Prop where
  pong : ws.lastPongReceivedNs = 0
  space : 2 ≤ ringbufferWriteable ws.txRing

instance (ws : WebSocket) : Decidable (Unanswered ws) :=
  decidable_of_iff (ws.lastPongReceivedNs = 0 ∧ 2 ≤ ringbufferWriteable ws.txRing)
    ⟨fun h => ⟨h.1, h.2⟩, fun h => ⟨h.pong, h.space⟩⟩

theorem Steady.waiting_eq {ws ws' : WebSocket} (h : Steady ws ws') :
    ws'.heartbeatConfig = ws.heartbeatConfig ∧ ws'.waiting = ws.waiting := by
  refine ⟨congrArg Settings.heartbeatConfig h.settings, ?_⟩
  unfold WebSocket.waiting WebSocket.watchdog
  rw [h.lastPingSentNs, h.timeouts]

theorem waiting_checkHeartbeat (env : Env) {ws : WebSocket} (h : Unanswered ws)
    (henabled : ws.heartbeatConfig.enableHeartbeat = true)
    (hset : ws.heartbeatConfig.onHeartbeatTimeout = true) (hstate : ws.state = .connected)
    (htime : ws.lastPingSentNs ≤ (env ws.tick).now) :
    (checkHeartbeat env ws).waiting =
      ws.waiting.look ws.heartbeatConfig.intervalNs ws.heartbeatConfig.timeoutNs
        (env ws.tick).now.toNat := by
  have hwatchdog : ws.watchdog = ws.waiting := by
    rw [WebSocket.waiting, WebSocket.watchdog, h.pong]
    rfl
  have hlook := watchdog_checkHeartbeat env henabled hset hstate h.space htime
  rw [hwatchdog] at hlook
  have hanswered : (checkHeartbeat env ws).watchdog.answered = 0 := by
    rw [hlook, Watchdog.answered_look]
    rfl
  calc (checkHeartbeat env ws).waiting
      = { (checkHeartbeat env ws).watchdog with
          answered := (checkHeartbeat env ws).watchdog.answered } := by
        rw [hanswered]
        rfl
    _ = _ := hlook

/-- The state in which `websocket_process` comes to `check_heartbeat`, if it does so CONNECTED. -/
def checksOfProcess (env : Env) (ws : WebSocket) (events : List KEvent) : List WebSocket :=
  let drained := drainTail env (events.foldl (handleEvent env) ws)
  let checked := reportMetricsIfNeeded env (checkHealth env drained)
  if drained.state = .connected ∧ checked.state = .connected then [checked] else []

def checksOfCall (env : Env) (ws : WebSocket) : PublicCall → List WebSocket
  | .process (some events) =>
    if ws.ioCtx.isSome then checksOfProcess env (ws.poll events) events else []
  | _ => []

/-- The states in which `check_heartbeat` runs. -/
def checksOfRun (env : Env) : WebSocket → List PublicCall → List WebSocket :=
  collect (PublicCall.run env) (checksOfCall env)

/-- The times of the checks. -/
def timesOf (env : Env) (checks : List WebSocket) : List ℕ :=
  checks.map fun ws => (env ws.tick).now.toNat

section Run

variable {env : Env}

/-- A call of `websocket_process` is steady up to the look it makes. -/
theorem waiting_process (ws : WebSocket) (events : List KEvent)
    (henabled : ws.heartbeatConfig.enableHeartbeat = true)
    (hset : ws.heartbeatConfig.onHeartbeatTimeout = true)
    (hchecks : ∀ checked ∈ checksOfProcess env ws events, Unanswered checked)
    (htimes : ∀ t ∈ timesOf env (checksOfProcess env ws events), ws.waiting.started ≤ t) :
    (processTail env (events.foldl (handleEvent env) ws)).waiting =
      ws.waiting.run ws.heartbeatConfig.intervalNs ws.heartbeatConfig.timeoutNs
        (timesOf env (checksOfProcess env ws events)) := by
  have hevents : Steady ws (events.foldl (handleEvent env) ws) :=
    Steady.stages.foldl_handleEvent events ws
  have hdrained : Steady ws (drainTail env (events.foldl (handleEvent env) ws)) :=
    hevents.trans (Steady.stages.drainTail _)
  unfold checksOfProcess at hchecks htimes ⊢
  rw [processTail_eq]
  dsimp only at hchecks htimes ⊢
  generalize drainTail env (events.foldl (handleEvent env) ws) = drained at *
  have hchecked : Steady ws (reportMetricsIfNeeded env (checkHealth env drained)) :=
    hdrained.trans ((Steady.checkHealth drained).trans (.reportMetricsIfNeeded _))
  generalize reportMetricsIfNeeded env (checkHealth env drained) = checked at *
  by_cases hstate : drained.state = .connected
  · rw [if_pos hstate]
    by_cases hstate' : checked.state = .connected
    · rw [if_pos ⟨hstate, hstate'⟩] at hchecks htimes ⊢
      obtain ⟨hconfig, hwaiting⟩ := hchecked.waiting_eq
      have htime : checked.lastPingSentNs ≤ (env checked.tick).now := by
        rw [hchecked.lastPingSentNs]
        exact htimes _ List.mem_cons_self
      have hlook := waiting_checkHeartbeat env (hchecks checked List.mem_cons_self)
        (hconfig ▸ henabled) (hconfig ▸ hset) hstate' htime
      rw [hlook, hconfig, hwaiting]
      rfl
    · rw [if_neg fun hboth => hstate' hboth.2, checkHeartbeat, if_pos (Or.inr hstate')]
      exact hchecked.waiting_eq.2
  · rw [if_neg hstate, if_neg fun hboth => hstate hboth.1]
    exact hdrained.waiting_eq.2

/-- A call that does not configure the heartbeat keeps its configuration, and looks at the
watchdog where `check_heartbeat` runs. -/
theorem waiting_call {ws : WebSocket} {call : PublicCall}
    (henabled : ws.heartbeatConfig.enableHeartbeat = true)
    (hset : ws.heartbeatConfig.onHeartbeatTimeout = true)
    (hcall : ∀ config, call ≠ .setHeartbeatConfig config)
    (hchecks : ∀ checked ∈ checksOfCall env ws call, Unanswered checked)
    (htimes : ∀ t ∈ timesOf env (checksOfCall env ws call), ws.waiting.started ≤ t) :
    (call.run env ws).heartbeatConfig = ws.heartbeatConfig ∧
      (call.run env ws).waiting =
        ws.waiting.run ws.heartbeatConfig.intervalNs ws.heartbeatConfig.timeoutNs
          (timesOf env (checksOfCall env ws call)) := by
  cases call with
  | setHeartbeatConfig config => exact absurd rfl (hcall config)
  | connect url answers => exact (Steady.websocketConnect ws url answers).waiting_eq
  | send data isText => exact (Steady.websocketSend ws data isText).waiting_eq
  | close => exact (Steady.websocketClose ws).waiting_eq
  | process events =>
      refine ⟨congrArg Settings.heartbeatConfig (Standing.websocketProcess ws events).settings, ?_⟩
      cases events with
      | none =>
          change (websocketProcess env ws none).2.waiting = _
          unfold websocketProcess
          cases ws.ioCtx <;> rfl
      | some events =>
          unfold checksOfCall at hchecks htimes ⊢
          dsimp only at hchecks htimes ⊢
          by_cases hctx : ws.ioCtx.isSome = true
          · rw [if_pos hctx] at hchecks htimes ⊢
            change (processCall env ws events).waiting = _
            rw [processCall_eq hctx]
            exact waiting_process (ws.poll events) events henabled hset hchecks htimes
          · rw [if_neg hctx]
            have hnone : ws.ioCtx = none := Option.not_isSome_iff_eq_none.mp hctx
            change (websocketProcess env ws (some events)).2.waiting = _
            rw [websocketProcess, hnone]
            rfl
  | _ => exact ⟨rfl, rfl⟩

/-- In a run without PONGs the heartbeat is a watchdog that nobody answers. -/
theorem waiting_run (ws : WebSocket) {calls : List PublicCall}
    (henabled : ws.heartbeatConfig.enableHeartbeat = true)
    (hset : ws.heartbeatConfig.onHeartbeatTimeout = true)
    (hcalls : ∀ config, .setHeartbeatConfig config ∉ calls)
    (hchecks : ∀ checked ∈ checksOfRun env ws calls, Unanswered checked)
    (hsorted : (timesOf env (checksOfRun env ws calls)).Pairwise (· ≤ ·))
    (htimes : ∀ t ∈ timesOf env (checksOfRun env ws calls), ws.waiting.started ≤ t) :
    (calls.foldl (PublicCall.run env) ws).waiting =
      ws.waiting.run ws.heartbeatConfig.intervalNs ws.heartbeatConfig.timeoutNs
        (timesOf env (checksOfRun env ws calls)) := by
  induction calls generalizing ws with
  | nil => rfl
  | cons call calls ih =>
      have hlog : timesOf env (checksOfRun env ws (call :: calls)) =
          timesOf env (checksOfCall env ws call) ++
            timesOf env (checksOfRun env (call.run env ws) calls) := List.map_append
      rw [hlog] at hsorted htimes ⊢
      obtain ⟨hconfig, hfirst⟩ := waiting_call henabled hset
        (fun config heq => hcalls config (heq ▸ List.mem_cons_self))
        (fun checked hmem => hchecks checked (List.mem_append_left _ hmem))
        fun t hmem => htimes t (List.mem_append_left _ hmem)
      have hrest := ih (call.run env ws) (hconfig ▸ henabled) (hconfig ▸ hset)
        (fun config hmem => hcalls config (List.mem_cons_of_mem _ hmem))
        (fun checked hmem => hchecks checked (List.mem_append_right _ hmem))
        (List.pairwise_append.mp hsorted).2.1
        (hfirst ▸ Watchdog.started_run_le hsorted htimes)
      rw [hconfig, hfirst] at hrest
      rw [List.foldl_cons, hrest]
      exact (List.foldl_append ..).symm

end Run

/-- The times of the checks from the configuration on. -/
def checkTimes (env : Env) (ws : WebSocket) (config : WSHeartbeatConfig)
    (calls : List PublicCall) : List ℕ :=
  timesOf env (checksOfRun env (websocketSetHeartbeatConfig ws config) calls)

/-- `on_heartbeat_timeout` is called if and only if a ping is caught. -/
theorem timeouts_lt_run_iff {env : Env} {ws : WebSocket} {config : WSHeartbeatConfig}
    {calls : List PublicCall} (henabled : config.enableHeartbeat = true)
    (hset : config.onHeartbeatTimeout = true)
    (hcalls : ∀ config', .setHeartbeatConfig config' ∉ calls)
    (hchecks : ∀ checked ∈ checksOfRun env (websocketSetHeartbeatConfig ws config) calls,
      Unanswered checked)
    (hsorted : (checkTimes env ws config calls).Pairwise (· ≤ ·)) :
    ws.timeouts < (calls.foldl (PublicCall.run env)
        (websocketSetHeartbeatConfig ws config)).timeouts ↔
      Watchdog.Caught config.intervalNs config.timeoutNs 0 (checkTimes env ws config calls) := by
  have hrun := waiting_run (websocketSetHeartbeatConfig ws config) henabled hset hcalls hchecks
    hsorted fun t _ => Nat.zero_le t
  have hexpires := Watchdog.expirations_lt_run_iff config.intervalNs config.timeoutNs
    (w := (websocketSetHeartbeatConfig ws config).waiting) rfl hsorted fun t _ => Nat.zero_le t
  have hfresh : Watchdog.CaughtFrom config.intervalNs config.timeoutNs 0
      (checkTimes env ws config calls) ↔
      Watchdog.Caught config.intervalNs config.timeoutNs 0 (checkTimes env ws config calls) :=
    or_iff_right fun hbefore => Nat.lt_irrefl 0 hbefore.1
  rw [← hfresh]
  exact (congrArg (ws.timeouts < ·) (congrArg Watchdog.expirations hrun)).to_iff.trans hexpires

/-- With pings at least as often as the timeout, a dead peer is never noticed. -/
theorem not_noticed_of_interval_le {env : Env} {ws : WebSocket} {config : WSHeartbeatConfig}
    {calls : List PublicCall} (henabled : config.enableHeartbeat = true)
    (hset : config.onHeartbeatTimeout = true)
    (hcalls : ∀ config', .setHeartbeatConfig config' ∉ calls)
    (hchecks : ∀ checked ∈ checksOfRun env (websocketSetHeartbeatConfig ws config) calls,
      Unanswered checked)
    (hsorted : (checkTimes env ws config calls).Pairwise (· ≤ ·))
    (hinterval : config.intervalNs ≤ config.timeoutNs) (htimeout : 0 < config.timeoutNs) :
    ¬ws.timeouts < (calls.foldl (PublicCall.run env)
      (websocketSetHeartbeatConfig ws config)).timeouts := by
  rw [timeouts_lt_run_iff henabled hset hcalls hchecks hsorted]
  exact Watchdog.not_caught_of_interval_le hinterval htimeout

/-- Some check comes the timeout after the first one, which has sent a ping. -/
def Late (timeout : ℕ) (times : List ℕ) : Prop :=
  ∃ t₀ ∈ times.head?, ∃ t ∈ times, t₀ + timeout ≤ t

instance (timeout : ℕ) (times : List ℕ) : Decidable (Late timeout times) :=
  inferInstanceAs (Decidable (∃ t₀ ∈ times.head?, ∃ t ∈ times, t₀ + timeout ≤ t))

/-- For every configuration with a callback and every run of calls in which no PONG is received
and the checks have space for a ping, at times that do not go back: a dead peer is noticed if
and only if a check comes at least the timeout, but less than the interval, after a ping, or no
time to answer is given at all. -/
theorem dead_peer_noticed_iff (env : Env) (ws : WebSocket) (config : WSHeartbeatConfig)
    (calls : List PublicCall) (henabled : config.enableHeartbeat = true)
    (hset : config.onHeartbeatTimeout = true)
    (hcalls : ∀ config', .setHeartbeatConfig config' ∉ calls)
    (hchecks : ∀ checked ∈ checksOfRun env (websocketSetHeartbeatConfig ws config) calls,
      Unanswered checked)
    (hsorted : (checkTimes env ws config calls).Pairwise (· ≤ ·)) :
    (Late config.timeoutNs (checkTimes env ws config calls) →
      ws.timeouts < (calls.foldl (PublicCall.run env)
        (websocketSetHeartbeatConfig ws config)).timeouts) ↔
    (Late config.timeoutNs (checkTimes env ws config calls) →
      Watchdog.Caught config.intervalNs config.timeoutNs 0 (checkTimes env ws config calls)) :=
  imp_congr_right fun _ => timeouts_lt_run_iff henabled hset hcalls hchecks hsorted

/-- A clock that advances by 50 ms with every look at the surroundings. -/
def tickingEnv : Env := fun tick => { now := UInt64.ofNat (1000000000 + tick * 50000000) }

/-- Pings every second, with 250 ms to answer: the fifth check notices that no PONG comes. -/
theorem dead_peer_noticed_within_interval :
    (runCalls tickingEnv true accepted).timeouts <
      ((List.replicate 5 (.process (some []))).foldl (PublicCall.run tickingEnv)
        (websocketSetHeartbeatConfig (runCalls tickingEnv true accepted)
          ⟨true, 1000, 250, true, 0⟩)).timeouts := by
  have hfacts : (∀ checked ∈ checksOfRun tickingEnv (websocketSetHeartbeatConfig
        (runCalls tickingEnv true accepted) ⟨true, 1000, 250, true, 0⟩)
        (List.replicate 5 (.process (some []))), Unanswered checked) ∧
      (checkTimes tickingEnv (runCalls tickingEnv true accepted) ⟨true, 1000, 250, true, 0⟩
        (List.replicate 5 (.process (some [])))).Pairwise (· ≤ ·) ∧
      Late 250000000 (checkTimes tickingEnv (runCalls tickingEnv true accepted)
        ⟨true, 1000, 250, true, 0⟩ (List.replicate 5 (.process (some [])))) ∧
      Watchdog.Caught 1000000000 250000000 0 (checkTimes tickingEnv
        (runCalls tickingEnv true accepted) ⟨true, 1000, 250, true, 0⟩
        (List.replicate 5 (.process (some [])))) := by
    decide +kernel
  obtain ⟨hchecks, hsorted, hlate, hcaught⟩ := hfacts
  exact (dead_peer_noticed_iff tickingEnv (runCalls tickingEnv true accepted)
    ⟨true, 1000, 250, true, 0⟩ (List.replicate 5 (.process (some []))) rfl rfl (by simp) hchecks
    hsorted).mpr (fun _ => hcaught) hlate

/-- Pings every 100 ms, with 250 ms to answer: five checks in 400 ms, all of which send a ping,
and none that notices that no PONG comes. -/
theorem dead_peer_unnoticed :
    let ws := runCalls tickingEnv true accepted
    let config : WSHeartbeatConfig := ⟨true, 100, 250, true, 0⟩
    let calls : List PublicCall := List.replicate 5 (.process (some []))
    ws.state = .connected ∧
      (∀ checked ∈ checksOfRun tickingEnv (websocketSetHeartbeatConfig ws config) calls,
        Unanswered checked) ∧
      checkTimes tickingEnv ws config calls =
        [1150000000, 1250000000, 1350000000, 1450000000, 1550000000] ∧
      Late config.timeoutNs (checkTimes tickingEnv ws config calls) ∧
      (calls.foldl (PublicCall.run tickingEnv) (websocketSetHeartbeatConfig ws config)).timeouts =
        0 := by
  decide +kernel

end WebSocketHft

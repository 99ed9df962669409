import WebSocketHft.Verification.Runs.Moves

/-! # The actions of a connection

Moves tell what a call does to the outline of a connection. Actions tell it exactly:
whatever `websocket_process`, `websocket_send` and `websocket_close` do, they do by the
elementary actions below, one after the other. What each action preserves, every call
preserves. -/

namespace WebSocketHft

/-! ## Actions with several parts -/

/-- A message is counted, its latency sampled, and the application is told. -/
def WebSocket.takeMessage (env : Env) (ws : WebSocket) (payload : List UInt8) : WebSocket :=
  let ws := sampleLatency env (ws.countReceived payload.length)
  if ws.onMessage then ws.record (.message payload ws.callbackUserData) else ws

/-- A latency sample changes the samples and the moment, and nothing else. -/
theorem sampleLatency_eq (env : Env) (ws : WebSocket) :
    ∃ samples idx count tick, ws.tick ≤ tick ∧ sampleLatency env ws = { ws with
      latencySamples := samples
      latencySampleIdx := idx
      latencySampleCount := count
      tick := tick } := by
  have hupdate (latencyNs : UInt64) : ∃ samples idx count,
      updateLatencySample ws.pass latencyNs = { ws with
        latencySamples := samples
        latencySampleIdx := idx
        latencySampleCount := count
        tick := ws.tick + 1 } := by
    unfold updateLatencySample
    cases ws.pass.latencySamples with
    | none => exact ⟨_, _, _, rfl⟩
    | some samples =>
        dsimp only
        split_ifs
        · exact ⟨_, _, _, rfl⟩
        · exact ⟨_, _, _, rfl⟩
        · exact ⟨_, _, _, rfl⟩
  unfold sampleLatency
  dsimp only
  generalize (if websocketGetLastNicTimestampNs ws < (env ws.tick).now then
    (env ws.tick).now - websocketGetLastNicTimestampNs ws else 0) = latencyNs
  split_ifs
  · obtain ⟨samples, idx, count, heq⟩ := hupdate latencyNs
    exact ⟨samples, idx, count, _, Nat.le_succ _, heq⟩
  · exact ⟨_, _, _, _, le_rfl, rfl⟩

/-- The reason that `check_health` gives on a connected socket. -/
def healthReason : WSHealthStatus → String
  | .unhealthy => "High error rate"
  | .degraded => "High latency or buffer saturation"
  | .ok => "All systems normal"

/-- A change of the health is reported. -/
def WebSocket.reportHealth (ws : WebSocket) (userData : UserData) : WebSocket :=
  let status := websocketGetHealth ws
  if status = ws.currentHealth then ws
  else { ws with currentHealth := status }.record (.health status (healthReason status) userData)

/-- A check of the health that is due. -/
def WebSocket.seeHealth (env : Env) (ws : WebSocket) (userData : UserData) : WebSocket :=
  { ws with lastHealthCheckNs := (env ws.tick).now }.pass.reportHealth userData

/-- A report of the metrics that is due. -/
def WebSocket.seeMetrics (env : Env) (ws : WebSocket) (userData : UserData) : WebSocket :=
  let ws := { ws with metricsLastReportNs := (env ws.tick).now }.pass
  let r := websocketGetMetrics ws (env ws.tick).now (env ws.tick).allocated
  r.2.record (.metrics r.1 userData)

/-- The ping of a heartbeat is queued, and transferred if it was queued whole. -/
def WebSocket.sendPing (env : Env) (ws : WebSocket) (nowNs : UInt64) : WebSocket :=
  let r := ws.queuePing
  if r.1 = 2 then { r.2.flush env with lastPingSentNs := nowNs } else r.2

/-- Callbacks that change nothing but what has been observed, and a look at the ring. -/
def Event.isNote : Event → Bool
  | .error _ _ _ => true
  | .log _ _ _ => true
  | .heartbeatTimeout _ => true
  | .frames _ => true
  | _ => false

inductive Action (env : Env) (ws : WebSocket) : WebSocket → Prop where
  | pass : Action env ws ws.pass
  | poll {ctx : IOContext} (h : ws.ioCtx = some ctx) (events : Option (List KEvent)) :
      Action env ws { ws with ioCtx := some (ioPoll ctx events).2 }
  | note {e : Event} (he : e.isNote) : Action env ws (ws.record e)
  | readIo (socketIndex : ℤ) (recv : RecvResult) : Action env ws (ws.readIo socketIndex recv).2
  | readSsl : Action env ws (ws.readSsl env).2
  | writeSsl : Action env ws (ws.writeSsl env).2
  | send (data : Option (List UInt8)) (isText : Bool) :
      Action env ws (websocketSend env ws data isText).2
  | close : Action env ws (websocketClose ws)
  | unmask (frame : WSFrame) (payload : ℕ) : Action env ws (ws.unmaskFrame frame payload)
  | message (payload : List UInt8) : Action env ws (ws.takeMessage env payload)
  | answerPing (payload : List UInt8) : Action env ws (websocketSendPong env ws payload).2
  | pongFrame : Action env ws { ws with lastPongReceivedNs := (env ws.tick).now }.pass
  | closeFrame : Action env ws ws.receiveClose
  | malformed : Action env ws ws.countFrameError.countError
  | oversized : Action env ws ws.countFrameError
  | advance (n : ℕ) : Action env ws (ws.advanceRx n)
  | response (h : ws.state = .connecting) :
      Action env ws { ws with
        rxRing := (parseHandshakeResponse ws.rxRing (env ws.tick).allocated).2 }.pass
  | accept (h : ws.state = .connecting) : Action env ws ws.becomeConnected
  | start (h : ws.connectionStartNs = 0) :
      Action env ws { ws with connectionStartNs := (env ws.tick).now }.pass
  | resetBackoff :
      Action env ws { ws with reconnectState := ⟨0, ws.reconnectConfig.initialBackoffMs, false⟩ }
  | gone (h : ws.state = .connected ∨ ws.state = .connecting) : Action env ws (ws.setState .closed)
  | health {userData : UserData} (hset : ws.onHealth = some userData)
      (hstate : ws.state = .connected)
      (hdue : 1000000000 ≤ (env ws.tick).now - ws.lastHealthCheckNs) :
      Action env ws (ws.seeHealth env userData)
  | metrics {userData : UserData} (hset : ws.onMetrics = some userData)
      (hdue : 1000000000 ≤ (env ws.tick).now - ws.metricsLastReportNs) :
      Action env ws (ws.seeMetrics env userData)
  | ping (hstate : ws.state = .connected) {nowNs : UInt64} (hdue : pingDue ws nowNs) :
      Action env ws (ws.sendPing env nowNs)
  | pingExpired : Action env ws { ws with lastPingSentNs := 0 }

def Actions (env : Env) : WebSocket → WebSocket → Prop := Relation.ReflTransGen (Action env)

namespace Actions

variable {env : Env} {ws ws' ws'' : WebSocket}

theorem refl : Actions env ws ws := Relation.ReflTransGen.refl

theorem single (h : Action env ws ws') : Actions env ws ws' := Relation.ReflTransGen.single h

theorem trans (h : Actions env ws ws') (h' : Actions env ws' ws'') : Actions env ws ws'' :=
  Relation.ReflTransGen.trans h h'

theorem head (h : Action env ws ws') (h' : Actions env ws' ws'') : Actions env ws ws'' :=
  Relation.ReflTransGen.head h h'

theorem tail (h : Actions env ws ws') (h' : Action env ws' ws'') : Actions env ws ws'' :=
  Relation.ReflTransGen.tail h h'

/-- An invariant kept by every action is kept along actions. -/
theorem invariant {P : WebSocket → Prop} (hstep : ∀ {ws ws'}, Action env ws ws' → P ws → P ws')
    (h : Actions env ws ws') (hws : P ws) : P ws' := by
  induction h with
  | refl => exact hws
  | tail _ haction ih => exact hstep haction ih

/-! ## Callbacks -/

theorem foldl_run (calls : List ApiCall) (ws : WebSocket) :
    Actions env ws (calls.foldl (ApiCall.run env) ws) := by
  refine Runs.foldl_invariant (I := Actions env ws) (fun ws' call h => h.trans (single ?_)) refl
    calls
  cases call with
  | send data isText => exact .send (some data) isText
  | close => exact .close

/-- Once the application has been called back it makes its own calls. -/
theorem callback (ws : WebSocket) {e : Event} (he : e.isNote) :
    Actions env ws (ws.callback env e) :=
  .head (.note he) (.head .pass (foldl_run _ _))

theorem wsLog (ws : WebSocket) (level : WSLogLevel) (msg : String) :
    Actions env ws (ws.wsLog env level msg) := by
  unfold WebSocket.wsLog
  cases ws.logCallback with
  | none => exact refl
  | some userData => exact callback ws rfl

/-! ## Frames -/

theorem deliverMessage (ws : WebSocket) (payload : List UInt8) :
    Actions env ws (WebSocketHft.deliverMessage env ws payload) := by
  have htaken : Action env ws (ws.takeMessage env payload) := .message payload
  unfold WebSocket.takeMessage at htaken
  unfold WebSocketHft.deliverMessage
  dsimp only at htaken ⊢
  split_ifs at htaken ⊢
  · exact .head htaken (.head .pass (foldl_run _ _))
  · exact single htaken

theorem handleFrame (ws : WebSocket) (frame : WSFrame) (start : ℕ) :
    Actions env ws (WebSocketHft.handleFrame env ws frame start) := by
  unfold WebSocketHft.handleFrame
  dsimp only
  split_ifs
  · exact .head (.unmask frame _) (deliverMessage _ _)
  · exact .head (.unmask frame _) (single (.answerPing _))
  · exact .head .pongFrame (wsLog _ _ _)
  · exact single .closeFrame
  · exact refl

/-! ## Periodic checks -/

/-- The end of `check_health`: a changed status is stored and reported. -/
theorem reportHealth {checked : WebSocket} {userData : UserData} {reason : String}
    (hseen : Action env ws (checked.reportHealth userData))
    (hreason : reason = healthReason (websocketGetHealth checked)) :
    Actions env ws (if websocketGetHealth checked = checked.currentHealth then checked
      else { checked with currentHealth := websocketGetHealth checked }.callback env
        (.health (websocketGetHealth checked) reason userData)) := by
  unfold WebSocket.reportHealth at hseen
  dsimp only at hseen
  rw [hreason]
  split_ifs at hseen ⊢
  · exact single hseen
  · exact .head hseen (.head .pass (foldl_run _ _))

theorem checkHealth (h : ws.state = .connected) :
    Actions env ws (WebSocketHft.checkHealth env ws) := by
  unfold WebSocketHft.checkHealth
  cases hset : ws.onHealth with
  | none => exact refl
  | some userData =>
      by_cases hearly : (env ws.tick).now - ws.lastHealthCheckNs < 1000000000
      · have hpass : Actions env ws ws.pass := single .pass
        exact (congrArg (Actions env ws) (if_pos hearly)).mpr hpass
      · have hseen : Action env ws (ws.seeHealth env userData) :=
          .health hset h (UInt64.not_lt.mp hearly)
        have hreason (status : WSHealthStatus) :
            (match status with
              | .unhealthy =>
                if ws.state ≠ .connected then "Connection not connected" else "High error rate"
              | .degraded => "High latency or buffer saturation"
              | .ok => "All systems normal") = healthReason status := by
          cases status with
          | unhealthy => exact if_neg (not_not.mpr h)
          | degraded => rfl
          | ok => rfl
        exact (congrArg (Actions env ws) (if_neg hearly)).mpr (reportHealth hseen (hreason _))

theorem reportMetricsIfNeeded (ws : WebSocket) :
    Actions env ws (WebSocketHft.reportMetricsIfNeeded env ws) := by
  cases hset : ws.onMetrics with
  | none =>
      simp only [WebSocketHft.reportMetricsIfNeeded, hset]
      exact refl
  | some userData =>
      by_cases hearly : (env ws.tick).now - ws.metricsLastReportNs < 1000000000
      · have heq : WebSocketHft.reportMetricsIfNeeded env ws = ws.pass := by
          simp only [WebSocketHft.reportMetricsIfNeeded, hset]
          exact if_pos hearly
        rw [heq]
        exact single .pass
      · have hseen : Action env ws (ws.seeMetrics env userData) :=
          .metrics hset (UInt64.not_lt.mp hearly)
        have heq : WebSocketHft.reportMetricsIfNeeded env ws =
            (env (ws.tick + 2)).calls.foldl (ApiCall.run env)
              (ws.seeMetrics env userData).pass.pass := by
          unfold WebSocketHft.reportMetricsIfNeeded
          rw [hset]
          exact if_neg hearly
        rw [heq]
        exact .head hseen (.head .pass (.head .pass (foldl_run _ _)))

theorem sendHeartbeat (h : ws.state = .connected) (nowNs : UInt64) :
    Actions env ws (WebSocketHft.sendHeartbeat env ws nowNs) := by
  by_cases hdue : pingDue ws nowNs
  · have hping : Action env ws (ws.sendPing env nowNs) := .ping h hdue
    unfold WebSocket.sendPing at hping
    unfold WebSocketHft.sendHeartbeat
    rw [if_pos hdue]
    change Actions env ws (if ws.queuePing.1 = 2 then
      { ws.queuePing.2.flush env with lastPingSentNs := nowNs }.wsLog env .debug
        "Sent heartbeat ping" else ws.queuePing.2)
    dsimp only at hping
    split_ifs at hping ⊢
    · exact .head hping (wsLog _ _ _)
    · exact single hping
  · unfold WebSocketHft.sendHeartbeat
    rw [if_neg hdue]
    exact refl

theorem checkPongTimeout (ws : WebSocket) (nowNs pongTimeoutNs : UInt64) :
    Actions env ws (WebSocketHft.checkPongTimeout env ws nowNs pongTimeoutNs) := by
  unfold WebSocketHft.checkPongTimeout
  dsimp only
  split_ifs
  · exact ((wsLog ws _ _).trans (callback _ rfl)).tail .pingExpired
  · exact (wsLog ws _ _).tail .pingExpired
  · exact refl
  · exact refl

theorem checkHeartbeat (ws : WebSocket) : Actions env ws (WebSocketHft.checkHeartbeat env ws) := by
  unfold WebSocketHft.checkHeartbeat
  dsimp only
  split_ifs with hguard
  · exact refl
  · have hstate : ws.pass.state = .connected := by
      by_contra hnot
      exact hguard (Or.inr hnot)
    exact .head .pass ((sendHeartbeat hstate _).trans (checkPongTimeout _ _ _))

/-! ## Events -/

theorem handshakeComplete (h : ws.state = .connecting) :
    Actions env ws (WebSocketHft.handshakeComplete env ws) := by
  have haccepted : Actions env ws ws.becomeConnected := single (.accept h)
  unfold WebSocketHft.handshakeComplete
  dsimp only
  split_ifs with hstart
  · exact ((haccepted.tail (.start hstart)).trans (wsLog _ _ _)).tail .resetBackoff
  · exact (haccepted.tail (.start hstart)).trans (wsLog _ _ _)
  · exact haccepted.tail .resetBackoff
  · exact haccepted

theorem handshakeStep (h : ws.state = .connecting) :
    Actions env ws (WebSocketHft.handshakeStep env ws) := by
  have hparsed : Action env ws { ws with
      rxRing := (parseHandshakeResponse ws.rxRing (env ws.tick).allocated).2 }.pass :=
    .response h
  unfold WebSocketHft.handshakeStep
  dsimp only
  split_ifs
  · exact .head hparsed (handshakeComplete h)
  · exact .head hparsed ((callback _ rfl).tail .close)
  · exact .head hparsed (single .close)
  · exact single hparsed
  · exact refl

theorem stages : Stages env (Actions env) where
  refl _ := refl
  trans := trans
  pass _ := single .pass
  writeSsl _ := single .writeSsl
  readSsl _ := single .readSsl
  readIo _ socketIndex recv := single (.readIo socketIndex recv)
  look _ _ := single (.note rfl)
  malformed _ _ := .head .malformed (wsLog _ _ _)
  oversized _ := single .oversized
  frame := handleFrame
  advance _ n := single (.advance n)
  response := handshakeStep
  gone hlive := single (.gone hlive)
  error _ _ _ := callback _ rfl

theorem processTail (ws : WebSocket) : Actions env ws (WebSocketHft.processTail env ws) := by
  have hdrained : Actions env ws (drainTail env ws) := stages.drainTail ws
  rw [processTail_eq]
  split_ifs with hstate
  · exact ((hdrained.trans (checkHealth hstate)).trans (reportMetricsIfNeeded _)).trans
      (checkHeartbeat _)
  · exact hdrained

/-- Everything `websocket_process` does is done by actions. -/
theorem websocketProcess (ws : WebSocket) (events : Option (List KEvent)) :
    Actions env ws (WebSocketHft.websocketProcess env ws events).2 := by
  unfold WebSocketHft.websocketProcess
  cases hctx : ws.ioCtx with
  | none => exact refl
  | some ctx =>
      have hpolled : Action env ws { ws with ioCtx := some (ioPoll ctx events).2 } :=
        .poll hctx events
      cases events with
      | none => exact single hpolled
      | some events =>
          exact .head hpolled ((stages.foldl_handleEvent events _).trans (processTail _))

end Actions

/-- Every action is made of moves. -/
theorem Action.moves {env : Env} {ws ws' : WebSocket} (haction : Action env ws ws') :
    Moves env ws ws' := by
  cases haction with
  | poll hctx events =>
      exact .keep (by simp [WebSocket.outline, slotFds, hctx, sockets_ioPoll])
  | note he =>
      refine .single (.observe ws ?_)
      rename_i e
      cases e with
      | error code msg userData => rfl
      | log level msg userData => rfl
      | heartbeatTimeout userData => rfl
      | frames data => rfl
      | _ => exact Bool.noConfusion he
  | readIo socketIndex recv => exact .readIo ws socketIndex recv
  | readSsl => exact .single (.readSsl ws)
  | writeSsl => exact .single (.writeSsl ws)
  | send data isText => exact .single (.send ws data isText)
  | close => exact .single (.close ws)
  | unmask frame payload => exact .unmaskFrame ws frame payload
  | message payload =>
      have hcount : Moves env ws (sampleLatency env (ws.countReceived payload.length)) :=
        (Moves.sampleLatency (ws.countReceived payload.length)).after rfl
      unfold WebSocket.takeMessage
      dsimp only
      split_ifs
      · exact hcount.tail (.observe _ rfl)
      · exact hcount
  | answerPing payload => exact .single (.pong ws payload)
  | closeFrame => exact .single (.receiveClose ws)
  | response hstate =>
      exact .keep (by simp [WebSocket.outline, WebSocket.pass, size_parseHandshakeResponse])
  | accept hstate => exact .single (.accept hstate)
  | gone hlive => exact .single (.gone hlive)
  | health hset hstate hdue =>
      unfold WebSocket.seeHealth WebSocket.reportHealth
      dsimp only
      split_ifs
      · exact .keep rfl
      · exact (Moves.single (.observe _ rfl)).after rfl
  | metrics hset hdue => exact (Moves.single (.observe _ rfl)).after rfl
  | ping hstate hdue =>
      have hping : Moves env ws ws.queuePing.2 := .single (.ping ws)
      unfold WebSocket.sendPing
      dsimp only
      split_ifs
      · exact (hping.trans (.flush _)).trans (.keep rfl)
      · exact hping
  | _ => exact .keep rfl

end WebSocketHft

import WebSocketHft.Verification.Runs.Callbacks
import WebSocketHft.Verification.Runs.Connecting
import WebSocketHft.Verification.Runs.Moves

/-! # What stands during a call

The settings of the application stand while the program runs, every callback goes
where they say, and an idle connection stays idle. Up to the periodic checks the
heartbeat stands as well. -/

namespace WebSocketHft

/-- What the application has set. -/
structure Settings where
  onMessage : Bool
  onError : Bool
  callbackUserData : UserData
  onMetrics : Option UserData
  onHealth : Option UserData
  logCallback : Option UserData
  reconnectConfig : WSReconnectConfig
  heartbeatConfig : WSHeartbeatConfig

def WebSocket.settings (ws : WebSocket) : Settings where
  onMessage := ws.onMessage
  onError := ws.onError
  callbackUserData := ws.callbackUserData
  onMetrics := ws.onMetrics
  onHealth := ws.onHealth
  logCallback := ws.logCallback
  reconnectConfig := ws.reconnectConfig
  heartbeatConfig := ws.heartbeatConfig

/-- A callback is one that is set, and gets the user data kept for it. -/
def Settings.Tells (s : Settings) : Event → Prop
  | .message _ userData => s.onMessage = true ∧ s.callbackUserData = userData
  | .error _ _ userData => s.onError = true ∧ s.callbackUserData = userData
  | .metrics _ userData => s.onMetrics = some userData
  | .health _ _ userData => s.onHealth = some userData
  | .log _ _ userData => s.logCallback = some userData
  | .heartbeatTimeout userData =>
    s.heartbeatConfig.onHeartbeatTimeout = true ∧ s.heartbeatConfig.heartbeatUserData = userData
  | _ => True

theorem Settings.tells_of_not_isCallback (s : Settings) {e : Event} (h : e.isCallback = false) :
    s.Tells e := by
  cases e <;> first | exact trivial | cases h

def Event.isTimeout : Event → Bool
  | .heartbeatTimeout _ => true
  | _ => false

/-- How often `on_heartbeat_timeout` has been called. -/
def WebSocket.timeouts (ws : WebSocket) : ℕ := ws.trace.countP Event.isTimeout

/-- No reconnection is under way. -/
structure WebSocket.Idle (ws : WebSocket) : Prop where
  attempts : ws.reconnectState.reconnectAttempts = 0
  waiting : ws.reconnectState.isReconnecting = false

/-- What every call but a setter leaves as it is. -/
structure Standing (ws ws' : WebSocket) : Prop where
  settings : ws'.settings = ws.settings
  idle : ws.Idle → ws'.Idle
  events : ∃ es, ws'.trace = ws.trace ++ es ∧ ∀ e ∈ es, ws.settings.Tells e

namespace Standing

variable {ws ws' ws'' : WebSocket}

theorem refl (ws : WebSocket) : Standing ws ws :=
  ⟨rfl, id, [], (List.append_nil _).symm, by simp⟩

theorem trans (h : Standing ws ws') (h' : Standing ws' ws'') : Standing ws ws'' := by
  obtain ⟨es, htrace, hes⟩ := h.events
  obtain ⟨es', htrace', hes'⟩ := h'.events
  rw [h.settings] at hes'
  refine ⟨h'.settings.trans h.settings, h'.idle ∘ h.idle, es ++ es', ?_, ?_⟩
  · rw [htrace', htrace, List.append_assoc]
  · exact List.forall_mem_append.mpr ⟨hes, hes'⟩

theorem record (ws : WebSocket) {e : Event} (he : ws.settings.Tells e) :
    Standing ws (ws.record e) :=
  ⟨rfl, fun hidle => ⟨hidle.attempts, hidle.waiting⟩, [e], rfl, by simpa using he⟩

/-- The heartbeat's own time. -/
theorem withLastPing (ws : WebSocket) (lastPingSentNs : UInt64) :
    Standing ws { ws with lastPingSentNs := lastPingSentNs } :=
  ⟨rfl, fun hidle => ⟨hidle.attempts, hidle.waiting⟩, [], (List.append_nil _).symm, by simp⟩

end Standing

/-- What everything but the heartbeat leaves as it is. -/
structure Steady (ws ws' : WebSocket) : Prop extends Standing ws ws' where
  lastPingSentNs : ws'.lastPingSentNs = ws.lastPingSentNs
  timeouts : ws'.timeouts = ws.timeouts

namespace Steady

/-- The parts of a connection that steadiness is about. -/
def parts (ws : WebSocket) : Settings × UInt64 × WSReconnectState × List Event :=
  (ws.settings, ws.lastPingSentNs, ws.reconnectState, ws.trace)

variable {env : Env} {ws ws' ws'' : WebSocket}

theorem refl (ws : WebSocket) : Steady ws ws := ⟨.refl ws, rfl, rfl⟩

theorem trans (h : Steady ws ws') (h' : Steady ws' ws'') : Steady ws ws'' :=
  ⟨h.toStanding.trans h'.toStanding, h'.lastPingSentNs.trans h.lastPingSentNs,
    h'.timeouts.trans h.timeouts⟩

theorem keep (h : parts ws' = parts ws) : Steady ws ws' := by
  obtain ⟨hsettings, hping, hreconnect, htrace⟩ : ws'.settings = ws.settings ∧
      ws'.lastPingSentNs = ws.lastPingSentNs ∧ ws'.reconnectState = ws.reconnectState ∧
      ws'.trace = ws.trace := by
    simpa only [parts, Prod.mk.injEq] using h
  refine ⟨⟨hsettings, fun hidle => ?_, [], ?_, by simp⟩, hping, ?_⟩
  · exact ⟨hreconnect ▸ hidle.attempts, hreconnect ▸ hidle.waiting⟩
  · rw [htrace, List.append_nil]
  · rw [WebSocket.timeouts, htrace, WebSocket.timeouts]

/-- A step that starts with the same parts. -/
theorem after (h : Steady ws' ws'') (hkeep : parts ws' = parts ws) : Steady ws ws'' :=
  (keep hkeep).trans h

theorem record (ws : WebSocket) {e : Event} (he : ws.settings.Tells e)
    (hother : e.isTimeout = false) : Steady ws (ws.record e) := by
  refine ⟨.record ws he, rfl, ?_⟩
  simp [WebSocket.timeouts, WebSocket.record, List.countP_append, hother]

/-- Something that is no callback is observed. -/
theorem note {e : Event} (h : parts ws' =
    (ws.settings, ws.lastPingSentNs, ws.reconnectState, ws.trace ++ [e]))
    (he : e.isCallback = false) : Steady ws ws' := by
  have hother : e.isTimeout = false := by
    cases e <;> first | rfl | cases he
  have hrecord : Steady ws (ws.record e) :=
    record ws (ws.settings.tells_of_not_isCallback he) hother
  exact hrecord.trans (keep h)

/-! ## Sending and closing -/

theorem queueTx (ws : WebSocket) (bytes : List UInt8) : Steady ws (ws.queueTx bytes).2 :=
  note rfl rfl

theorem queuePing (ws : WebSocket) : Steady ws ws.queuePing.2 :=
  .trans (.note rfl rfl) (.queueTx _ _)

theorem writeSsl (ws : WebSocket) : Steady ws (ws.writeSsl env).2 :=
  note rfl rfl

theorem writeIo (ws : WebSocket) : Steady ws (ws.writeIo env).2 :=
  note rfl rfl

theorem flush (ws : WebSocket) : Steady ws (ws.flush env) := by
  unfold WebSocket.flush
  split_ifs
  · exact writeSsl ws
  · exact writeIo ws

theorem keptBySending : KeptBySending env Steady where
  refl := refl
  trans := trans
  found _ _ _ _ _ _ := note rfl rfl
  pass _ := keep rfl
  queueTx := queueTx
  countSent _ _ := keep rfl
  flush := flush

theorem websocketSend (ws : WebSocket) (data : Option (List UInt8)) (isText : Bool) :
    Steady ws (WebSocketHft.websocketSend env ws data isText).2 :=
  keptBySending.websocketSend ws data isText

theorem websocketSendPong (ws : WebSocket) (payload : List UInt8) :
    Steady ws (WebSocketHft.websocketSendPong env ws payload).2 :=
  keptBySending.websocketSendPong ws payload

theorem setState (ws : WebSocket) (state : WSState) : Steady ws (ws.setState state) :=
  note rfl rfl

theorem websocketClose (ws : WebSocket) : Steady ws (WebSocketHft.websocketClose ws) := by
  have hclosing : Steady ws (ws.record (.closing ws.fd ws.sslFd)) := note rfl rfl
  have hsocket : Steady ws ws.closeSocket :=
    hclosing.trans (note rfl rfl)
  unfold WebSocketHft.websocketClose
  split_ifs
  · exact refl ws
  · exact hsocket.trans (setState _ _)
  · exact setState ws _

/-! ## Callbacks -/

theorem foldl_run (calls : List ApiCall) (ws : WebSocket) :
    Steady ws (calls.foldl (ApiCall.run env) ws) := by
  refine Runs.foldl_invariant (I := Steady ws) (fun ws' call h => h.trans ?_) (refl ws) calls
  cases call with
  | send data isText => exact websocketSend ws' (some data) isText
  | close => exact websocketClose ws'

/-- What the application does while it is called back. -/
theorem answer (ws : WebSocket) (e : Event) : Steady (ws.record e) (ws.callback env e) :=
  (foldl_run (env ws.tick).calls (ws.record e).pass).after rfl

theorem callback (ws : WebSocket) {e : Event} (he : ws.settings.Tells e)
    (hother : e.isTimeout = false) : Steady ws (ws.callback env e) :=
  (record ws he hother).trans (answer ws e)

theorem callback_after (hkeep : parts ws' = parts ws) {e : Event} (he : ws.settings.Tells e)
    (hother : e.isTimeout = false) : Steady ws (ws'.callback env e) := by
  have hsettings : ws'.settings = ws.settings := congrArg Prod.fst hkeep
  exact (callback ws' (hsettings ▸ he) hother).after hkeep

theorem error {ws : WebSocket} (code : ℤ) (msg : String) (hset : ws.onError = true) :
    Steady ws (ws.callback env (.error code msg ws.callbackUserData)) :=
  callback ws ⟨hset, rfl⟩ rfl

theorem wsLog (ws : WebSocket) (level : WSLogLevel) (msg : String) :
    Steady ws (ws.wsLog env level msg) := by
  unfold WebSocket.wsLog
  cases hlog : ws.logCallback with
  | none => exact refl ws
  | some userData => exact callback ws hlog rfl

/-! ## Frames -/

theorem updateLatencySample (ws : WebSocket) (latencyNs : UInt64) :
    Steady ws (WebSocketHft.updateLatencySample ws latencyNs) := by
  unfold WebSocketHft.updateLatencySample
  cases ws.latencySamples with
  | none => exact refl ws
  | some samples =>
      dsimp only
      split_ifs <;> exact keep rfl

theorem sampleLatency (ws : WebSocket) : Steady ws (WebSocketHft.sampleLatency env ws) := by
  unfold WebSocketHft.sampleLatency
  dsimp only
  split_ifs
  · exact (updateLatencySample ws.pass _).after rfl
  · exact (updateLatencySample ws.pass _).after rfl
  · exact refl ws

theorem deliverMessage (ws : WebSocket) (payload : List UInt8) :
    Steady ws (WebSocketHft.deliverMessage env ws payload) := by
  have hcount : Steady ws (WebSocketHft.sampleLatency env (ws.countReceived payload.length)) :=
    (sampleLatency (ws.countReceived payload.length)).after rfl
  unfold WebSocketHft.deliverMessage
  dsimp only
  split_ifs with hset
  · exact hcount.trans (callback _ ⟨hset, rfl⟩ rfl)
  · exact hcount

theorem unmaskFrame (ws : WebSocket) (frame : WSFrame) (payload : ℕ) :
    Steady ws (ws.unmaskFrame frame payload) := by
  unfold WebSocket.unmaskFrame
  split_ifs
  · exact keep rfl
  · exact refl ws

theorem handleFrame (ws : WebSocket) (frame : WSFrame) (start : ℕ) :
    Steady ws (WebSocketHft.handleFrame env ws frame start) := by
  have hclose : Steady ws ws.receiveClose := (note rfl rfl).trans (setState _ _)
  unfold WebSocketHft.handleFrame
  dsimp only
  split_ifs
  · exact (unmaskFrame ws frame _).trans (deliverMessage _ _)
  · exact (unmaskFrame ws frame _).trans (websocketSendPong _ _)
  · exact (wsLog _ _ _).after rfl
  · exact hclose
  · exact refl ws

/-! ## The handshake -/

/-- A reconnection that was under way is over, and none begins. -/
theorem handshakeComplete (ws : WebSocket) :
    Steady ws (WebSocketHft.handshakeComplete env ws) := by
  have haccepted : Steady ws ws.becomeConnected := (note rfl rfl).trans (setState _ _)
  have hlogged (msg : String) : Steady ws
      ({ ws.becomeConnected with connectionStartNs := (env ws.tick).now }.pass.wsLog env .info
        msg) :=
    haccepted.trans ((wsLog _ _ _).after rfl)
  have hreset (ws : WebSocket) (nextBackoffMs : UInt32) :
      Steady ws { ws with reconnectState := ⟨0, nextBackoffMs, false⟩ } :=
    ⟨⟨rfl, fun _ => ⟨rfl, rfl⟩, [], (List.append_nil _).symm, by simp⟩, rfl, rfl⟩
  unfold WebSocketHft.handshakeComplete
  dsimp only
  split_ifs
  · exact (hlogged _).trans (hreset _ _)
  · exact hlogged _
  · exact haccepted.trans (hreset _ _)
  · exact haccepted

theorem handshakeStep (ws : WebSocket) : Steady ws (WebSocketHft.handshakeStep env ws) := by
  have hparsed : Steady ws
      { ws with rxRing := (parseHandshakeResponse ws.rxRing (env ws.tick).allocated).2 }.pass :=
    keep rfl
  unfold WebSocketHft.handshakeStep
  dsimp only
  split_ifs with _ _ _ hset
  · exact hparsed.trans (handshakeComplete _)
  · exact (hparsed.trans (error _ _ hset)).trans (websocketClose _)
  · exact hparsed.trans (websocketClose _)
  · exact hparsed
  · exact refl ws

theorem readIo (ws : WebSocket) (socketIndex : ℤ) (recv : RecvResult) :
    Steady ws (ws.readIo socketIndex recv).2 :=
  note rfl rfl

theorem readSsl (ws : WebSocket) : Steady ws (ws.readSsl env).2 :=
  note rfl rfl

theorem stages : Stages env Steady where
  refl := refl
  trans := trans
  pass _ := keep rfl
  writeSsl := writeSsl
  readSsl := readSsl
  readIo := readIo
  look _ _ := note rfl rfl
  malformed ws _ := (wsLog ws.countFrameError.countError _ _).after rfl
  oversized _ := keep rfl
  frame := handleFrame
  advance _ _ := keep rfl
  response _ := handshakeStep _
  gone _ := setState _ _
  error := error

/-! ## The checks before the heartbeat -/

theorem checkHealth (ws : WebSocket) : Steady ws (WebSocketHft.checkHealth env ws) := by
  unfold WebSocketHft.checkHealth
  cases hset : ws.onHealth with
  | none => exact refl ws
  | some userData =>
      have hcall (ws' : WebSocket) (hkeep : parts ws' = parts ws) (status : WSHealthStatus)
          (reason : String) : Steady ws (ws'.callback env (.health status reason userData)) :=
        callback_after hkeep hset rfl
      dsimp only
      split_ifs
      · exact keep rfl
      · exact keep rfl
      · refine hcall _ ?_ _ _
        rfl
      · refine hcall _ ?_ _ _
        rfl

theorem reportMetricsIfNeeded (ws : WebSocket) :
    Steady ws (WebSocketHft.reportMetricsIfNeeded env ws) := by
  unfold WebSocketHft.reportMetricsIfNeeded
  cases hset : ws.onMetrics with
  | none => exact refl ws
  | some userData =>
      have hcall (ws' : WebSocket) (hkeep : parts ws' = parts ws) (metrics : WebSocketMetrics) :
          Steady ws (ws'.callback env (.metrics metrics userData)) :=
        callback_after hkeep hset rfl
      dsimp only
      split_ifs
      · exact keep rfl
      · refine hcall _ ?_ _
        rfl

/-! ## Connecting -/

theorem attempt (h : Attempt env ws ws') : Steady ws ws' := by
  cases h with
  | setUp h =>
      cases h with
      | endpoint ep => exact keep rfl
      | @descriptor e he =>
          cases e with
          | opened fd => exact note rfl rfl
          | closed fd => exact note rfl rfl
          | _ => cases he
  | request bytes => exact note rfl rfl
  | flush => exact flush ws
  | connecting => exact setState ws .connecting

theorem websocketConnect (ws : WebSocket) (url : List UInt8) (a : ConnectAnswers) :
    Steady ws (WebSocketHft.websocketConnect env ws url a).2 :=
  (Attempts.websocketConnect ws url a).invariant (fun hattempt h => h.trans (attempt hattempt))
    (refl ws)

end Steady

namespace Standing

variable {env : Env}

/-! ## The heartbeat -/

theorem sendHeartbeat (ws : WebSocket) (nowNs : UInt64) :
    Standing ws (WebSocketHft.sendHeartbeat env ws nowNs) := by
  have hping := Steady.queuePing ws
  unfold WebSocketHft.sendHeartbeat
  dsimp only
  split_ifs
  · exact ((hping.trans (.flush _)).toStanding.trans (withLastPing _ nowNs)).trans
      (Steady.wsLog _ _ _).toStanding
  · exact hping.toStanding
  · exact refl ws

theorem checkPongTimeout (ws : WebSocket) (nowNs pongTimeoutNs : UInt64) :
    Standing ws (WebSocketHft.checkPongTimeout env ws nowNs pongTimeoutNs) := by
  have hlogged (msg : String) : Standing ws (ws.wsLog env .warn msg) :=
    (Steady.wsLog ws .warn msg).toStanding
  have htold (ws : WebSocket) (hset : ws.heartbeatConfig.onHeartbeatTimeout = true) :
      Standing ws (ws.callback env (.heartbeatTimeout ws.heartbeatConfig.heartbeatUserData)) := by
    have hrecord : Standing ws (ws.record (.heartbeatTimeout ws.heartbeatConfig.heartbeatUserData)) :=
      record ws ⟨hset, rfl⟩
    exact hrecord.trans (Steady.answer ws _).toStanding
  unfold WebSocketHft.checkPongTimeout
  dsimp only
  split_ifs with _ _ hset
  · exact ((hlogged _).trans (htold _ hset)).trans (withLastPing _ 0)
  · exact (hlogged _).trans (withLastPing _ 0)
  · exact refl ws
  · exact refl ws

theorem checkHeartbeat (ws : WebSocket) :
    Standing ws (WebSocketHft.checkHeartbeat env ws) := by
  have hpass : Steady ws ws.pass := .keep rfl
  unfold WebSocketHft.checkHeartbeat
  dsimp only
  split_ifs
  · exact refl ws
  · exact hpass.toStanding.trans ((sendHeartbeat _ _).trans (checkPongTimeout _ _ _))

/-! ## Whole calls -/

theorem processTail (ws : WebSocket) : Standing ws (WebSocketHft.processTail env ws) := by
  have hdrained : Steady ws (drainTail env ws) := Steady.stages.drainTail ws
  rw [processTail_eq]
  split_ifs
  · exact (hdrained.trans ((Steady.checkHealth _).trans
      (Steady.reportMetricsIfNeeded _))).toStanding.trans (checkHeartbeat _)
  · exact hdrained.toStanding

theorem websocketProcess (ws : WebSocket) (events : Option (List KEvent)) :
    Standing ws (WebSocketHft.websocketProcess env ws events).2 := by
  have hpolled (ctx : IOContext) : Steady ws { ws with ioCtx := some ctx } := .keep rfl
  unfold WebSocketHft.websocketProcess
  cases ws.ioCtx with
  | none => exact refl ws
  | some ctx =>
      cases events with
      | none => exact (hpolled _).toStanding
      | some events =>
          exact ((hpolled _).trans (Steady.stages.foldl_handleEvent events _)).toStanding.trans
            (processTail _)

end Standing

end WebSocketHft

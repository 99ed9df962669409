import WebSocketHft.Model.Process
import WebSocketHft.Verification.Frames.Quiet

/-! # What happens beside the frames

Sending, closing, callbacks and the periodic checks. An application that is called
back may close its connection, so the state can change; the receive ring, the error
figures and what has been delivered and received do not. -/

namespace WebSocketHft

/-- Bytes that come in, and what is made of them. -/
def Event.isIncoming : Event → Bool
  | .message _ _ => true
  | .received _ => true
  | .closeFrame _ => true
  | _ => false

theorem isIncoming_of_isQuiet {e : Event} (h : e.isQuiet) : e.isIncoming = false := by
  cases e with
  | message payload userData => cases h
  | received bytes => cases h
  | closeFrame state => cases h
  | _ => rfl

structure Aside (ws ws' : WebSocket) : Prop where
  rxRing : ws'.rxRing = ws.rxRing
  onMessage : ws'.onMessage = ws.onMessage
  useSsl : ws'.useSsl = ws.useSsl
  errorFigures : ws'.errorFigures = ws.errorFigures
  events : ∃ es, ws'.trace = ws.trace ++ es ∧ ∀ e ∈ es, e.isIncoming = false

theorem Quiet.aside {ws ws' : WebSocket} (h : Quiet ws ws') : Aside ws ws' := by
  obtain ⟨es, htrace, hes⟩ := h.events
  exact ⟨h.rxRing, h.onMessage, h.useSsl, h.errorFigures, es, htrace,
    fun e he => isIncoming_of_isQuiet (hes e he)⟩

namespace Aside

variable {env : Env} {ws ws' ws'' : WebSocket}

theorem refl (ws : WebSocket) : Aside ws ws := (Quiet.refl ws).aside

theorem trans (h : Aside ws ws') (h' : Aside ws' ws'') : Aside ws ws'' := by
  obtain ⟨es, htrace, hes⟩ := h.events
  obtain ⟨es', htrace', hes'⟩ := h'.events
  refine ⟨h'.rxRing.trans h.rxRing, h'.onMessage.trans h.onMessage, h'.useSsl.trans h.useSsl,
    h'.errorFigures.trans h.errorFigures, es ++ es', ?_, ?_⟩
  · rw [htrace', htrace, List.append_assoc]
  · exact List.forall_mem_append.mpr ⟨hes, hes'⟩

/-- A step that starts with another moment, other times or other figures of the same core. -/
theorem after (h : Aside ws' ws'') (hcore : ws'.core = ws.core) (htrace : ws'.trace = ws.trace) :
    Aside ws ws'' := (Quiet.of_core hcore htrace).aside.trans h

/-- One event that is not about incoming data. -/
theorem record (ws : WebSocket) {e : Event} (he : e.isIncoming = false) : Aside ws (ws.record e) :=
  ⟨rfl, rfl, rfl, rfl, [e], rfl, by simpa using he⟩

theorem setState (ws : WebSocket) (state : WSState) : Aside ws (ws.setState state) :=
  ⟨rfl, rfl, rfl, rfl, _, rfl, by simp [Event.isIncoming]⟩

theorem close (ws : WebSocket) : Aside ws (websocketClose ws) := by
  have hsocket : Aside ws ws.closeSocket :=
    ⟨rfl, rfl, rfl, rfl, [.closing ws.fd ws.sslFd, .closed ws.fd], List.append_assoc _ _ _,
      by simp [Event.isIncoming]⟩
  unfold websocketClose
  split_ifs
  · exact refl ws
  · exact hsocket.trans (setState _ _)
  · exact setState ws _

/-! ## Callbacks -/

theorem foldl_run (calls : List ApiCall) (ws : WebSocket) :
    Aside ws (calls.foldl (ApiCall.run env) ws) := by
  refine Runs.foldl_invariant (I := Aside ws) (fun ws' call h => h.trans ?_) (refl ws) calls
  cases call with
  | send data isText => exact (Quiet.websocketSend env ws' (some data) isText).aside
  | close => exact close ws'

theorem callback (ws : WebSocket) {e : Event} (he : e.isIncoming = false) :
    Aside ws (ws.callback env e) :=
  ((record ws he).trans (Quiet.pass _).aside).trans (foldl_run (env ws.tick).calls _)

theorem wsLog (ws : WebSocket) (level : WSLogLevel) (msg : String) :
    Aside ws (ws.wsLog env level msg) := by
  unfold WebSocket.wsLog
  cases ws.logCallback with
  | none => exact refl ws
  | some userData => exact callback ws rfl

theorem notePong (ws : WebSocket) : Aside ws (WebSocketHft.notePong env ws) := by
  unfold WebSocketHft.notePong
  exact (wsLog _ _ _).after rfl rfl

/-! ## Periodic checks -/

theorem checkHealth (ws : WebSocket) : Aside ws (WebSocketHft.checkHealth env ws) := by
  unfold WebSocketHft.checkHealth
  cases ws.onHealth with
  | none => exact refl ws
  | some userData =>
      dsimp only
      split_ifs
      · exact (refl _).after rfl rfl
      · exact (refl _).after rfl rfl
      · exact (callback _ rfl).after rfl rfl
      · exact (callback _ rfl).after rfl rfl

theorem reportMetricsIfNeeded (ws : WebSocket) :
    Aside ws (WebSocketHft.reportMetricsIfNeeded env ws) := by
  unfold WebSocketHft.reportMetricsIfNeeded
  cases ws.onMetrics with
  | none => exact refl ws
  | some userData =>
      dsimp only
      split_ifs
      · exact (refl _).after rfl rfl
      · exact (callback _ rfl).after rfl rfl

theorem sendHeartbeat (ws : WebSocket) (nowNs : UInt64) :
    Aside ws (WebSocketHft.sendHeartbeat env ws nowNs) := by
  have hping : Quiet ws ((ws.record (.transmit pingFrame [] [] (ringbufferWriteable ws.txRing)
      true)).queueTx pingFrame).2 :=
    (Quiet.record ws rfl).trans (Quiet.queueTx _ _)
  unfold WebSocketHft.sendHeartbeat
  dsimp only
  split_ifs
  · have hsent := hping.trans (Quiet.flush env _)
    exact hsent.aside.trans ((wsLog _ _ _).after rfl rfl)
  · exact hping.aside
  · exact refl ws

theorem checkPongTimeout (ws : WebSocket) (nowNs pongTimeoutNs : UInt64) :
    Aside ws (WebSocketHft.checkPongTimeout env ws nowNs pongTimeoutNs) := by
  have hreset (ws : WebSocket) : Aside ws { ws with lastPingSentNs := 0 } :=
    (refl _).after rfl rfl
  unfold WebSocketHft.checkPongTimeout
  dsimp only
  split_ifs
  · exact ((wsLog ws _ _).trans (callback _ rfl)).trans (hreset _)
  · exact (wsLog ws _ _).trans (hreset _)
  · exact refl ws
  · exact refl ws

theorem checkHeartbeat (ws : WebSocket) : Aside ws (WebSocketHft.checkHeartbeat env ws) := by
  unfold WebSocketHft.checkHeartbeat
  dsimp only
  split_ifs
  · exact refl ws
  · exact ((Quiet.pass ws).aside.trans (sendHeartbeat _ _)).trans (checkPongTimeout _ _ _)

end Aside

end WebSocketHft

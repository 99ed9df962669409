import WebSocketHft.Model.Frames
import WebSocketHft.Shared.Runs
import WebSocketHft.Verification.Transmit.Calls
import WebSocketHft.Verification.Transmit.Offers

/-! # What sending and bookkeeping leave alone

The parts of a connection that only connecting, closing and receiving change.
Sending a frame, logging and keeping figures are quiet: they leave these parts
alone and are observed by none of the events that concern messages, descriptors
and received bytes. -/

namespace WebSocketHft

/-- The figures that count malformed frames. -/
def WebSocket.errorFigures (ws : WebSocket) : UInt32 × UInt64 :=
  (ws.frameParseErrors, ws.metrics.errorsTotal)

/-- The parts that quiet steps keep. -/
structure Core where
  state : WSState
  fd : ℤ
  sslCtx : Option SSLContext
  ioCtx : Option IOContext
  rxRing : RingBuffer
  txSize : ℕ
  onMessage : Bool
  onError : Bool
  callbackUserData : UserData
  useSsl : Bool
  socketIndex : ℤ
  onMetrics : Option UserData
  onHealth : Option UserData
  logCallback : Option UserData
  heartbeatConfig : WSHeartbeatConfig
  errorFigures : UInt32 × UInt64
  nextFd : ℕ

def WebSocket.core (ws : WebSocket) : Core where
  state := ws.state
  fd := ws.fd
  sslCtx := ws.sslCtx
  ioCtx := ws.ioCtx
  rxRing := ws.rxRing
  txSize := ws.txRing.size
  onMessage := ws.onMessage
  onError := ws.onError
  callbackUserData := ws.callbackUserData
  useSsl := ws.useSsl
  socketIndex := ws.socketIndex
  onMetrics := ws.onMetrics
  onHealth := ws.onHealth
  logCallback := ws.logCallback
  heartbeatConfig := ws.heartbeatConfig
  errorFigures := ws.errorFigures
  nextFd := ws.nextFd

/-- Events of quiet steps. -/
def Event.isQuiet : Event → Bool
  | .message _ _ => false
  | .opened _ => false
  | .closing _ _ => false
  | .closed _ => false
  | .state _ _ => false
  | .connected _ => false
  | .received _ => false
  | .request _ => false
  | .closeFrame _ => false
  | _ => true

structure Quiet (ws ws' : WebSocket) : Prop where
  core : ws'.core = ws.core
  events : ∃ es, ws'.trace = ws.trace ++ es ∧ ∀ e ∈ es, e.isQuiet

namespace Quiet

variable {ws ws' ws'' : WebSocket}

theorem refl (ws : WebSocket) : Quiet ws ws :=
  ⟨rfl, [], (List.append_nil _).symm, by simp⟩

theorem trans (h : Quiet ws ws') (h' : Quiet ws' ws'') : Quiet ws ws'' := by
  obtain ⟨es, htrace, hes⟩ := h.events
  obtain ⟨es', htrace', hes'⟩ := h'.events
  refine ⟨h'.core.trans h.core, es ++ es', ?_, ?_⟩
  · rw [htrace', htrace, List.append_assoc]
  · exact List.forall_mem_append.mpr ⟨hes, hes'⟩

/-- A step that changes neither the core nor what has been observed. -/
theorem of_core (hcore : ws'.core = ws.core) (htrace : ws'.trace = ws.trace) : Quiet ws ws' :=
  ⟨hcore, [], by rw [htrace, List.append_nil], by simp⟩

theorem state (h : Quiet ws ws') : ws'.state = ws.state := congrArg Core.state h.core

theorem trace_extends (h : Quiet ws ws') : ws.trace <+: ws'.trace := by
  obtain ⟨es, htrace, -⟩ := h.events
  exact ⟨es, htrace.symm⟩

theorem onMessage (h : Quiet ws ws') : ws'.onMessage = ws.onMessage :=
  congrArg Core.onMessage h.core

theorem record (ws : WebSocket) {e : Event} (he : e.isQuiet) : Quiet ws (ws.record e) :=
  ⟨rfl, [e], rfl, by simpa using he⟩

theorem pass (ws : WebSocket) : Quiet ws ws.pass := of_core rfl rfl

theorem errorFigures (h : Quiet ws ws') : ws'.errorFigures = ws.errorFigures :=
  congrArg Core.errorFigures h.core

theorem rxRing (h : Quiet ws ws') : ws'.rxRing = ws.rxRing := congrArg Core.rxRing h.core

theorem useSsl (h : Quiet ws ws') : ws'.useSsl = ws.useSsl := congrArg Core.useSsl h.core

/-! ## Sending -/

theorem size_ringbufferWrite (rb : RingBuffer) (data : Option (List UInt8)) :
    (ringbufferWrite rb data).ring.size = rb.size := by
  unfold ringbufferWrite
  cases data with
  | none => rfl
  | some data =>
      dsimp only
      split_ifs <;> rfl

/-- Replacing the transmit ring by one of the same size. -/
theorem withTx (ws : WebSocket) {rb : RingBuffer} (h : rb.size = ws.txRing.size) :
    Quiet ws { ws with txRing := rb } :=
  of_core (by simp [WebSocket.core, WebSocket.errorFigures, h]) rfl

theorem queueTx (ws : WebSocket) (bytes : List UInt8) : Quiet ws (ws.queueTx bytes).2 :=
  (withTx ws (size_ringbufferWrite _ _)).trans (record _ rfl)

theorem writeSsl (env : Env) (ws : WebSocket) : Quiet ws (ws.writeSsl env).2 := by
  have hsize : (sslWrite ws.sslCtx ws.txRing (env ws.tick).tls).ring.size = ws.txRing.size := by
    rcases sslWrite_ring ws.sslCtx ws.txRing (env ws.tick).tls with hring | ⟨-, n, hring⟩
    · rw [hring]
    · rw [hring]
      rfl
  exact ((withTx ws hsize).trans (record _ rfl)).trans (pass _)

theorem writeIo (env : Env) (ws : WebSocket) : Quiet ws (ws.writeIo env).2 := by
  have hsize : (ioWrite ws.ioCtx ws.socketIndex ws.txRing (env ws.tick).writev).ring.size =
      ws.txRing.size := by
    rcases ioWrite_ring ws.ioCtx ws.socketIndex ws.txRing (env ws.tick).writev with
      hring | ⟨-, n, hring⟩
    · rw [hring]
    · rw [hring]
      rfl
  exact ((withTx ws hsize).trans (record _ rfl)).trans (pass _)

theorem flush (env : Env) (ws : WebSocket) : Quiet ws (ws.flush env) := by
  unfold WebSocket.flush
  split_ifs
  · exact writeSsl env ws
  · exact writeIo env ws

theorem countSent (ws : WebSocket) (len : ℕ) : Quiet ws (ws.countSent len) := of_core rfl rfl

theorem keptBySending (env : Env) : KeptBySending env Quiet where
  refl := refl
  trans := trans
  found ws _ _ _ _ _ := record ws rfl
  pass := pass
  queueTx := queueTx
  countSent := countSent
  flush := flush env

theorem websocketSend (env : Env) (ws : WebSocket) (data : Option (List UInt8)) (isText : Bool) :
    Quiet ws (WebSocketHft.websocketSend env ws data isText).2 :=
  (keptBySending env).websocketSend ws data isText

theorem websocketSendPong (env : Env) (ws : WebSocket) (payload : List UInt8) :
    Quiet ws (WebSocketHft.websocketSendPong env ws payload).2 :=
  (keptBySending env).websocketSendPong ws payload

/-! ## Callbacks that do not close -/

theorem foldl_run (env : Env) {calls : List ApiCall} (hcalls : ApiCall.close ∉ calls)
    (ws : WebSocket) : Quiet ws (calls.foldl (ApiCall.run env) ws) := by
  refine Runs.foldl_invariant_of_mem (I := Quiet ws) (fun ws' call hmem h => h.trans ?_) (refl ws)
  cases call with
  | send data isText => exact websocketSend env ws' (some data) isText
  | close => exact absurd hmem hcalls

theorem callback {env : Env} (henv : ∀ t, ApiCall.close ∉ (env t).calls) (ws : WebSocket)
    {e : Event} (he : e.isQuiet) : Quiet ws (ws.callback env e) :=
  ((record ws he).trans (pass _)).trans (foldl_run env (henv ws.tick) _)

theorem wsLog {env : Env} (henv : ∀ t, ApiCall.close ∉ (env t).calls) (ws : WebSocket)
    (level : WSLogLevel) (msg : String) : Quiet ws (ws.wsLog env level msg) := by
  unfold WebSocket.wsLog
  cases ws.logCallback with
  | none => exact refl ws
  | some userData => exact callback henv ws rfl

/-! ## Bookkeeping -/

theorem updateLatencySample (ws : WebSocket) (latencyNs : UInt64) :
    Quiet ws (WebSocketHft.updateLatencySample ws latencyNs) := by
  unfold WebSocketHft.updateLatencySample
  cases ws.latencySamples with
  | none => exact refl ws
  | some samples =>
      dsimp only
      split_ifs
      · exact refl ws
      · exact of_core rfl rfl
      · exact of_core rfl rfl

theorem sampleLatency (env : Env) (ws : WebSocket) :
    Quiet ws (WebSocketHft.sampleLatency env ws) := by
  unfold WebSocketHft.sampleLatency
  dsimp only
  split_ifs
  · exact (pass ws).trans (updateLatencySample _ _)
  · exact (pass ws).trans (updateLatencySample _ _)
  · exact refl ws

theorem countReceived (ws : WebSocket) (len : ℕ) : Quiet ws (ws.countReceived len) :=
  of_core rfl rfl

theorem notePong {env : Env} (henv : ∀ t, ApiCall.close ∉ (env t).calls) (ws : WebSocket) :
    Quiet ws (WebSocketHft.notePong env ws) :=
  (of_core rfl rfl : Quiet ws { ws with lastPongReceivedNs := (env ws.tick).now }.pass).trans
    (wsLog henv _ _ _)

end Quiet

end WebSocketHft

import WebSocketHft.Model.Frames

/-! # Sending looks neither at the receive ring nor at the past

Everything the connection does between two looks at its receive ring commutes
with exchanging that ring. A callback can therefore neither see nor disturb the
bytes that are being processed. It commutes with a longer past as well: what
happens next does not depend on what has been observed so far. -/

namespace WebSocketHft

open WebSocketHft.Memory

/-- The same connection with another receive ring. -/
def WebSocket.withRx (ws : WebSocket) (rx : RingBuffer) : WebSocket :=
  { ws with rxRing := rx }

/-- The same connection with another receive ring, and with `past` before its history. -/
def WebSocket.over (ws : WebSocket) (rx : RingBuffer) (past : List Event) : WebSocket :=
  { ws with rxRing := rx, trace := past ++ ws.trace }

@[simp] theorem withRx_rxRing (ws : WebSocket) (rx : RingBuffer) : (ws.withRx rx).rxRing = rx := rfl

@[simp] theorem withRx_self (ws : WebSocket) : ws.withRx ws.rxRing = ws := rfl

@[simp] theorem withRx_withRx (ws : WebSocket) (rx rx' : RingBuffer) :
    (ws.withRx rx).withRx rx' = ws.withRx rx' := rfl

@[simp] theorem withRx_tick (ws : WebSocket) (rx : RingBuffer) : (ws.withRx rx).tick = ws.tick := rfl

@[simp] theorem withRx_state (ws : WebSocket) (rx : RingBuffer) :
    (ws.withRx rx).state = ws.state := rfl

@[simp] theorem withRx_trace (ws : WebSocket) (rx : RingBuffer) :
    (ws.withRx rx).trace = ws.trace := rfl

@[simp] theorem withRx_txRing (ws : WebSocket) (rx : RingBuffer) :
    (ws.withRx rx).txRing = ws.txRing := rfl

section Projections

variable (ws : WebSocket) (rx : RingBuffer) (past : List Event)

@[simp] theorem over_tick : (ws.over rx past).tick = ws.tick := rfl

@[simp] theorem over_state : (ws.over rx past).state = ws.state := rfl

@[simp] theorem over_fd : (ws.over rx past).fd = ws.fd := rfl

@[simp] theorem over_onMessage : (ws.over rx past).onMessage = ws.onMessage := rfl

@[simp] theorem over_useSsl : (ws.over rx past).useSsl = ws.useSsl := rfl

@[simp] theorem over_txRing : (ws.over rx past).txRing = ws.txRing := rfl

@[simp] theorem over_logCallback : (ws.over rx past).logCallback = ws.logCallback := rfl

@[simp] theorem over_callbackUserData :
    (ws.over rx past).callbackUserData = ws.callbackUserData := rfl

end Projections

/-! ## Transmitting -/

variable (env : Env) (ws : WebSocket) (rx : RingBuffer) (past : List Event)

@[simp] theorem record_over (e : Event) :
    (ws.over rx past).record e = (ws.record e).over rx past := by
  simp only [WebSocket.record, WebSocket.over, List.append_assoc]

@[simp] theorem pass_over : (ws.over rx past).pass = ws.pass.over rx past := rfl

@[simp] theorem queueTx_over (bytes : List UInt8) :
    (ws.over rx past).queueTx bytes =
      ((ws.queueTx bytes).1, (ws.queueTx bytes).2.over rx past) :=
  Prod.ext rfl (record_over { ws with txRing := _ } rx past _)

@[simp] theorem writeSsl_over :
    (ws.over rx past).writeSsl env = ((ws.writeSsl env).1, (ws.writeSsl env).2.over rx past) :=
  Prod.ext rfl (congrArg WebSocket.pass (record_over { ws with txRing := _ } rx past _))

@[simp] theorem writeIo_over :
    (ws.over rx past).writeIo env = ((ws.writeIo env).1, (ws.writeIo env).2.over rx past) :=
  Prod.ext rfl (congrArg WebSocket.pass (record_over { ws with txRing := _ } rx past _))

@[simp] theorem flush_over : (ws.over rx past).flush env = (ws.flush env).over rx past := by
  unfold WebSocket.flush
  rw [apply_ite (WebSocket.over · rx past), writeSsl_over, writeIo_over]
  rfl

@[simp] theorem countSent_over (len : ℕ) :
    (ws.over rx past).countSent len = (ws.countSent len).over rx past := rfl

@[simp] theorem setState_over (state : WSState) :
    (ws.over rx past).setState state = (ws.setState state).over rx past :=
  record_over { ws with state := state } rx past _

@[simp] theorem closeSocket_over :
    (ws.over rx past).closeSocket = ws.closeSocket.over rx past := by
  unfold WebSocket.closeSocket
  rw [record_over]
  exact record_over { ws.record _ with ioCtx := _, fd := -1 } rx past _

@[simp] theorem receiveClose_over :
    (ws.over rx past).receiveClose = ws.receiveClose.over rx past := by
  rw [WebSocket.receiveClose, record_over, setState_over]
  rfl

theorem websocketSend_over (data : Option (List UInt8)) (isText : Bool) :
    websocketSend env (ws.over rx past) data isText =
      ((websocketSend env ws data isText).1,
        (websocketSend env ws data isText).2.over rx past) := by
  cases data with
  | none => rfl
  | some data =>
      simp only [websocketSend, over_state, over_txRing, record_over, queueTx_over,
        countSent_over, flush_over]
      split_ifs <;> rfl

theorem websocketSendPong_over (payload : List UInt8) :
    websocketSendPong env (ws.over rx past) payload =
      ((websocketSendPong env ws payload).1,
        (websocketSendPong env ws payload).2.over rx past) := by
  simp only [websocketSendPong, over_state, over_tick, over_txRing, record_over, pass_over,
    queueTx_over, flush_over]
  split_ifs <;> rfl

theorem websocketClose_over :
    websocketClose (ws.over rx past) = (websocketClose ws).over rx past := by
  unfold websocketClose
  rw [apply_ite (WebSocket.over · rx past), apply_ite (WebSocket.over · rx past), closeSocket_over,
    setState_over, setState_over]
  rfl

/-! ## Callbacks -/

theorem ApiCall.run_over (call : ApiCall) :
    call.run env (ws.over rx past) = (call.run env ws).over rx past := by
  cases call with
  | send data isText => simp only [ApiCall.run, websocketSend_over]
  | close => exact websocketClose_over ws rx past

theorem foldl_run_over (calls : List ApiCall) :
    calls.foldl (ApiCall.run env) (ws.over rx past) =
      (calls.foldl (ApiCall.run env) ws).over rx past := by
  induction calls generalizing ws with
  | nil => rfl
  | cons call calls ih => rw [List.foldl_cons, List.foldl_cons, ApiCall.run_over, ih]

@[simp] theorem callback_over (e : Event) :
    (ws.over rx past).callback env e = (ws.callback env e).over rx past := by
  simp only [WebSocket.callback, over_tick, record_over, pass_over, foldl_run_over]

@[simp] theorem wsLog_over (level : WSLogLevel) (msg : String) :
    (ws.over rx past).wsLog env level msg = (ws.wsLog env level msg).over rx past := by
  simp only [WebSocket.wsLog, over_logCallback]
  cases ws.logCallback with
  | none => rfl
  | some userData => exact callback_over env ws rx past _

/-! ## Bookkeeping of the receiver -/

theorem updateLatencySample_over (latencyNs : UInt64) :
    updateLatencySample (ws.over rx past) latencyNs =
      (updateLatencySample ws latencyNs).over rx past := by
  have hsame : (ws.over rx past).latencySamples = ws.latencySamples := rfl
  unfold updateLatencySample
  rw [hsame]
  cases ws.latencySamples with
  | none => rfl
  | some samples =>
      dsimp only
      rw [apply_ite (WebSocket.over · rx past)]
      rfl

theorem sampleLatency_over :
    sampleLatency env (ws.over rx past) = (sampleLatency env ws).over rx past := by
  unfold sampleLatency
  rw [apply_ite (WebSocket.over · rx past), ← updateLatencySample_over]
  rfl

theorem deliverMessage_over (payload : List UInt8) :
    deliverMessage env (ws.over rx past) payload =
      (deliverMessage env ws payload).over rx past := by
  have hcount : (ws.over rx past).countReceived payload.length =
      (ws.countReceived payload.length).over rx past := rfl
  unfold deliverMessage
  rw [apply_ite (WebSocket.over · rx past), hcount, sampleLatency_over]
  dsimp only [over_callbackUserData]
  rw [callback_over]
  rfl

theorem notePong_over :
    notePong env (ws.over rx past) = (notePong env ws).over rx past := by
  unfold notePong
  rw [← wsLog_over]
  rfl

theorem parseError_over (offset : ℕ) :
    parseError env (ws.over rx past) offset = (parseError env ws offset).over rx past :=
  wsLog_over env ws.countFrameError.countError rx past _ _

/-! ## Another ring, the same past -/

theorem websocketSendPong_withRx (payload : List UInt8) :
    websocketSendPong env (ws.withRx rx) payload =
      ((websocketSendPong env ws payload).1, (websocketSendPong env ws payload).2.withRx rx) :=
  websocketSendPong_over env ws rx [] payload

theorem deliverMessage_withRx (payload : List UInt8) :
    deliverMessage env (ws.withRx rx) payload = (deliverMessage env ws payload).withRx rx :=
  deliverMessage_over env ws rx [] payload

theorem notePong_withRx : notePong env (ws.withRx rx) = (notePong env ws).withRx rx :=
  notePong_over env ws rx []

theorem parseError_withRx (offset : ℕ) :
    parseError env (ws.withRx rx) offset = (parseError env ws offset).withRx rx :=
  parseError_over env ws rx [] offset

end WebSocketHft

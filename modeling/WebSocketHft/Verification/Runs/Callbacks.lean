import WebSocketHft.Shared.Runs
import WebSocketHft.Verification.Transmit.Calls

/-! # The callbacks of a connection

The part of what has been observed that the application was told. Sending, closing
and reading tell it nothing, and a callback is told before anything that the
application does in it. The times of PONGs and the state of a reconnection are none
of its business. -/

namespace WebSocketHft

/-- Calls of a function that the application has registered. -/
def Event.isCallback : Event → Bool
  | .message _ _ => true
  | .error _ _ _ => true
  | .metrics _ _ => true
  | .health _ _ _ => true
  | .log _ _ _ => true
  | .heartbeatTimeout _ => true
  | _ => false

/-- The callbacks made so far, in order. -/
def WebSocket.callbacks (ws : WebSocket) : List Event := ws.trace.filter Event.isCallback

variable (env : Env) (ws : WebSocket)

theorem callbacks_record_of_isCallback {e : Event} (h : e.isCallback = true) :
    (ws.record e).callbacks = ws.callbacks ++ [e] := by
  simp [WebSocket.callbacks, WebSocket.record, List.filter_append, h]

theorem callbacks_record_of_not {e : Event} (h : e.isCallback = false) :
    (ws.record e).callbacks = ws.callbacks := by
  simp [WebSocket.callbacks, WebSocket.record, List.filter_append, h]

/-! ## Sending and closing -/

@[simp] theorem callbacks_pass : ws.pass.callbacks = ws.callbacks := rfl

@[simp] theorem callbacks_transmit (header payload clear : List UInt8) (space : ℕ)
    (allocated : Bool) :
    (ws.record (.transmit header payload clear space allocated)).callbacks = ws.callbacks :=
  callbacks_record_of_not ws rfl

@[simp] theorem callbacks_queueTx (bytes : List UInt8) :
    (ws.queueTx bytes).2.callbacks = ws.callbacks :=
  callbacks_record_of_not { ws with txRing := _ } rfl

@[simp] theorem callbacks_writeSsl : (ws.writeSsl env).2.callbacks = ws.callbacks :=
  callbacks_record_of_not { ws with txRing := _ } rfl

@[simp] theorem callbacks_writeIo : (ws.writeIo env).2.callbacks = ws.callbacks :=
  callbacks_record_of_not { ws with txRing := _ } rfl

@[simp] theorem callbacks_flush : (ws.flush env).callbacks = ws.callbacks := by
  unfold WebSocket.flush
  split_ifs <;> simp

@[simp] theorem callbacks_countSent (len : ℕ) : (ws.countSent len).callbacks = ws.callbacks := rfl

theorem callbacks_keptBySending : KeptBySending env fun ws ws' => ws'.callbacks = ws.callbacks where
  refl _ := rfl
  trans h h' := h'.trans h
  found := callbacks_transmit
  pass := callbacks_pass
  queueTx := callbacks_queueTx
  countSent := callbacks_countSent
  flush := callbacks_flush env

@[simp] theorem callbacks_websocketSend (data : Option (List UInt8)) (isText : Bool) :
    (websocketSend env ws data isText).2.callbacks = ws.callbacks :=
  (callbacks_keptBySending env).websocketSend ws data isText

@[simp] theorem callbacks_setState (state : WSState) :
    (ws.setState state).callbacks = ws.callbacks :=
  callbacks_record_of_not { ws with state := state } rfl

@[simp] theorem callbacks_closeSocket : ws.closeSocket.callbacks = ws.callbacks := by
  simp [WebSocket.closeSocket, WebSocket.callbacks, WebSocket.record, Event.isCallback]

@[simp] theorem callbacks_websocketClose : (websocketClose ws).callbacks = ws.callbacks := by
  unfold websocketClose
  split_ifs <;> simp

/-! ## Calling back -/

/-- Nothing the application does in a callback calls it back again. -/
@[simp] theorem callbacks_foldl_run (calls : List ApiCall) :
    (calls.foldl (ApiCall.run env) ws).callbacks = ws.callbacks := by
  refine Runs.foldl_invariant (I := fun ws' : WebSocket => ws'.callbacks = ws.callbacks)
    (fun ws' call h => Eq.trans ?_ h) rfl calls
  cases call with
  | send data isText => exact callbacks_websocketSend env ws' (some data) isText
  | close => exact callbacks_websocketClose ws'

theorem callbacks_callback {e : Event} (h : e.isCallback = true) :
    (ws.callback env e).callbacks = ws.callbacks ++ [e] := by
  unfold WebSocket.callback
  rw [callbacks_foldl_run, callbacks_pass, callbacks_record_of_isCallback ws h]

/-! ## Reading -/

@[simp] theorem callbacks_readSsl : (ws.readSsl env).2.callbacks = ws.callbacks :=
  callbacks_record_of_not { ws with sslCtx := _, rxRing := _ } rfl

@[simp] theorem callbacks_readIo (socketIndex : ℤ) (recv : RecvResult) :
    (ws.readIo socketIndex recv).2.callbacks = ws.callbacks :=
  callbacks_record_of_not { ws with ioCtx := _, rxRing := _ } rfl

/-! ## What is noted about PONGs and reconnections -/

def WebSocket.notes (ws : WebSocket) : UInt64 × WSReconnectState :=
  (ws.lastPongReceivedNs, ws.reconnectState)

theorem notes_flush : (ws.flush env).notes = ws.notes := by
  unfold WebSocket.flush
  split_ifs <;> rfl

theorem notes_keptBySending : KeptBySending env fun ws ws' => ws'.notes = ws.notes where
  refl _ := rfl
  trans h h' := h'.trans h
  found _ _ _ _ _ _ := rfl
  pass _ := rfl
  queueTx _ _ := rfl
  countSent _ _ := rfl
  flush := notes_flush env

theorem notes_websocketSendPong (payload : List UInt8) :
    (websocketSendPong env ws payload).2.notes = ws.notes :=
  (notes_keptBySending env).websocketSendPong ws payload

theorem notes_websocketSend (data : Option (List UInt8)) (isText : Bool) :
    (websocketSend env ws data isText).2.notes = ws.notes :=
  (notes_keptBySending env).websocketSend ws data isText

theorem notes_websocketClose : (websocketClose ws).notes = ws.notes := by
  unfold websocketClose
  split_ifs <;> rfl

theorem notes_foldl_run (calls : List ApiCall) :
    (calls.foldl (ApiCall.run env) ws).notes = ws.notes := by
  refine Runs.foldl_invariant (I := fun ws' : WebSocket => ws'.notes = ws.notes)
    (fun ws' call h => Eq.trans ?_ h) rfl calls
  cases call with
  | send data isText => exact notes_websocketSend env ws' (some data) isText
  | close => exact notes_websocketClose ws'

theorem notes_callback (e : Event) : (ws.callback env e).notes = ws.notes :=
  notes_foldl_run env (ws.record e).pass (env ws.tick).calls

theorem notes_wsLog (level : WSLogLevel) (msg : String) :
    (ws.wsLog env level msg).notes = ws.notes := by
  unfold WebSocket.wsLog
  cases ws.logCallback with
  | none => rfl
  | some userData => exact notes_callback env ws _

end WebSocketHft

import Mathlib.Logic.Relation
import WebSocketHft.Model.Api
import WebSocketHft.Verification.Frames.Quiet
import WebSocketHft.Verification.Runs.Stages
import WebSocketHft.Verification.Sockets.Registry

/-! # The moves of a connection

Whatever `websocket_process` and the other calls do to the state, the descriptors,
the registry and the transmit ring, they do by a few moves. An invariant of these
parts holds along every run once each move keeps it. -/

namespace WebSocketHft

/-- The parts of a connection that moves are about. -/
structure Outline where
  state : WSState
  fd : ℤ
  useSsl : Bool
  sslCtx : Option SSLContext
  socketIndex : ℤ
  slots : Option (List ℤ)
  rxSize : ℕ
  txRing : RingBuffer
  nextFd : ℕ
  trace : List Event

def WebSocket.outline (ws : WebSocket) : Outline where
  state := ws.state
  fd := ws.fd
  useSsl := ws.useSsl
  sslCtx := ws.sslCtx
  socketIndex := ws.socketIndex
  slots := ws.ioCtx.map slotFds
  rxSize := ws.rxRing.size
  txRing := ws.txRing
  nextFd := ws.nextFd
  trace := ws.trace

/-- Callbacks, and bytes that come in. -/
def Event.isNeutral : Event → Bool
  | .message _ _ => true
  | .error _ _ _ => true
  | .metrics _ _ => true
  | .health _ _ _ => true
  | .log _ _ _ => true
  | .heartbeatTimeout _ => true
  | .received _ => true
  | .frames _ => true
  | _ => false

/-- The ping of a heartbeat goes into the transmit ring. -/
def WebSocket.queuePing (ws : WebSocket) : ℕ × WebSocket :=
  (ws.record (.transmit pingFrame [] [] (ringbufferWriteable ws.txRing) true)).queueTx pingFrame

inductive Move (env : Env) : WebSocket → WebSocket → Prop where
  | keep {ws ws' : WebSocket} (h : ws'.outline = ws.outline) : Move env ws ws'
  | observe (ws : WebSocket) {e : Event} (he : e.isNeutral) : Move env ws (ws.record e)
  | readSsl (ws : WebSocket) : Move env ws (ws.readSsl env).2
  | writeSsl (ws : WebSocket) : Move env ws (ws.writeSsl env).2
  | writeIo (ws : WebSocket) : Move env ws (ws.writeIo env).2
  | send (ws : WebSocket) (data : Option (List UInt8)) (isText : Bool) :
      Move env ws (websocketSend env ws data isText).2
  | pong (ws : WebSocket) (payload : List UInt8) : Move env ws (websocketSendPong env ws payload).2
  | ping (ws : WebSocket) : Move env ws ws.queuePing.2
  | close (ws : WebSocket) : Move env ws (websocketClose ws)
  | accept {ws : WebSocket} (h : ws.state = .connecting) : Move env ws ws.becomeConnected
  | receiveClose (ws : WebSocket) : Move env ws ws.receiveClose
  | gone {ws : WebSocket} (h : ws.state = .connected ∨ ws.state = .connecting) :
      Move env ws (ws.setState .closed)

/-! ## What is left alone -/

theorem size_ringbufferRead (rb : RingBuffer) (dest : Bool) (len : ℕ) :
    (ringbufferRead rb dest len).ring.size = rb.size := by
  unfold ringbufferRead
  dsimp only
  split_ifs <;> rfl

theorem size_consumeResponse (rb : RingBuffer) (httpOffset : ℕ) :
    (consumeResponse rb httpOffset).size = rb.size := by
  unfold consumeResponse
  cases headerEnd rb (rb.readPtr + httpOffset) with
  | none => rfl
  | some endPos =>
      dsimp only
      split_ifs
      · exact (size_ringbufferRead _ _ _).trans (size_ringbufferRead _ _ _)
      · exact (size_ringbufferRead _ _ _).trans (size_ringbufferRead _ _ _)
      · exact size_ringbufferRead _ _ _

theorem size_parseHandshakeResponse (rb : RingBuffer) (allocated : Bool) :
    (parseHandshakeResponse rb allocated).2.size = rb.size := by
  unfold parseHandshakeResponse
  dsimp only
  cases findHttpStart (Memory.load rb.buf (ringbufferReadInline rb).data
      (ringbufferReadInline rb).len) with
  | none =>
      dsimp only
      split_ifs <;> rfl
  | some httpOffset =>
      dsimp only
      split_ifs
      · rfl
      · rfl
      · rfl
      · rfl
      · exact size_consumeResponse rb httpOffset
      · rfl

/-- Reading changes a slot's timestamp, never its descriptor, and never the size of the ring. -/
theorem ioRead_keeps (ctx : Option IOContext) (socketIndex : ℤ) (rb : RingBuffer)
    (recv : RecvResult) :
    (ioRead ctx socketIndex rb recv).ctx.map slotFds = ctx.map slotFds ∧
      (ioRead ctx socketIndex rb recv).ring.size = rb.size := by
  cases ctx with
  | none => exact ⟨rfl, rfl⟩
  | some ctx =>
      unfold ioRead
      dsimp only
      cases hsock : ctx.sockets[socketIndex.toNat]? with
      | none =>
          dsimp only
          split_ifs <;> exact ⟨rfl, rfl⟩
      | some sock =>
          have hfd : (slotFds ctx).set socketIndex.toNat sock.fd = slotFds ctx := by
            obtain ⟨hlt, rfl⟩ := List.getElem?_eq_some_iff.mp hsock
            simp [slotFds, ← List.map_set]
          cases recv with
          | failed =>
              dsimp only
              split_ifs <;> exact ⟨rfl, rfl⟩
          | received bytes nic =>
              dsimp only
              split_ifs
              · exact ⟨rfl, rfl⟩
              · exact ⟨rfl, rfl⟩
              · exact ⟨rfl, rfl⟩
              · exact ⟨rfl, rfl⟩
              · refine ⟨?_, rfl⟩
                simpa [slotFds, List.map_set] using hfd

theorem quiet_queuePing (ws : WebSocket) : Quiet ws ws.queuePing.2 :=
  (Quiet.record ws rfl).trans (Quiet.queueTx _ _)

theorem trace_closeSocket (ws : WebSocket) :
    ws.closeSocket.trace = ws.trace ++ [.closing ws.fd ws.sslFd, .closed ws.fd] := by
  simp [WebSocket.closeSocket, WebSocket.record]

theorem trace_setState (ws : WebSocket) (state : WSState) :
    (ws.setState state).trace = ws.trace ++ [.state ws.state state] := rfl

theorem websocketClose_state (ws : WebSocket) : (websocketClose ws).state = .closed := by
  unfold websocketClose
  split_ifs with hclosed
  · exact hclosed
  · rfl
  · rfl

theorem websocketClose_trace_extends (ws : WebSocket) :
    ws.trace <+: (websocketClose ws).trace := by
  unfold websocketClose
  split_ifs
  · exact List.prefix_rfl
  · rw [trace_setState, trace_closeSocket, List.append_assoc]
    exact List.prefix_append _ _
  · exact ⟨_, rfl⟩

/-- Nothing is taken back from what has been observed. -/
theorem Move.trace_extends {env : Env} {ws ws' : WebSocket} (h : Move env ws ws') :
    ws.trace <+: ws'.trace := by
  cases h with
  | keep heq => rw [show ws'.trace = ws.trace from congrArg Outline.trace heq]
  | observe _ => exact ⟨_, rfl⟩
  | readSsl => exact ⟨_, rfl⟩
  | writeSsl => exact ⟨_, rfl⟩
  | writeIo => exact ⟨_, rfl⟩
  | send data isText => exact (Quiet.websocketSend env ws data isText).trace_extends
  | pong payload => exact (Quiet.websocketSendPong env ws payload).trace_extends
  | ping => exact (quiet_queuePing ws).trace_extends
  | close => exact websocketClose_trace_extends ws
  | accept _ => exact (List.prefix_append _ _).trans (List.prefix_append _ _)
  | receiveClose => exact (List.prefix_append _ _).trans (List.prefix_append _ _)
  | gone _ => exact ⟨_, rfl⟩

/-- CONNECTING or CONNECTED. -/
def Live (ws : WebSocket) : Prop := ws.state = .connecting ∨ ws.state = .connected

instance (ws : WebSocket) : Decidable (Live ws) := inferInstanceAs (Decidable (_ ∨ _))

/-- A move keeps the state, or takes a connection out of use, or accepts the response. -/
theorem Move.state_cases {env : Env} {ws ws' : WebSocket} (h : Move env ws ws') :
    ws'.state = ws.state ∨ ¬Live ws' ∨ ws.state = .connecting ∧ ws'.state = .connected := by
  cases h with
  | keep heq => exact Or.inl (congrArg Outline.state heq)
  | send data isText => exact Or.inl (Quiet.websocketSend env ws data isText).state
  | pong payload => exact Or.inl (Quiet.websocketSendPong env ws payload).state
  | close => exact Or.inr (Or.inl (by simp [Live, websocketClose_state]))
  | accept hstate => exact Or.inr (Or.inr ⟨hstate, rfl⟩)
  | receiveClose =>
      exact Or.inr (Or.inl (by
        simp [Live, WebSocket.receiveClose, WebSocket.setState, WebSocket.record]))
  | gone _ => exact Or.inr (Or.inl (by simp [Live, WebSocket.setState, WebSocket.record]))
  | _ => exact Or.inl rfl

/-- No move brings a connection back into use. -/
theorem Move.not_live {env : Env} {ws ws' : WebSocket} (h : Move env ws ws') (hws : ¬Live ws) :
    ¬Live ws' := by
  rcases h.state_cases with hstate | hnot | ⟨hstate, -⟩
  · rwa [Live, hstate]
  · exact hnot
  · exact absurd (Or.inl hstate) hws

/-- No move leads to CONNECTING. -/
theorem Move.settled {env : Env} {ws ws' : WebSocket} (h : Move env ws ws')
    (hws : ws.state ≠ .connecting) : ws'.state ≠ .connecting := by
  rcases h.state_cases with hstate | hnot | ⟨hstate, -⟩
  · rwa [hstate]
  · exact fun hconnecting => hnot (Or.inl hconnecting)
  · exact absurd hstate hws

/-- Only `websocket_connect` decides about TLS. -/
theorem Move.useSsl_eq {env : Env} {ws ws' : WebSocket} (h : Move env ws ws') :
    ws'.useSsl = ws.useSsl := by
  cases h with
  | keep heq => exact congrArg Outline.useSsl heq
  | send data isText => exact (Quiet.websocketSend env ws data isText).useSsl
  | pong payload => exact (Quiet.websocketSendPong env ws payload).useSsl
  | close =>
      unfold websocketClose
      split_ifs <;> rfl
  | _ => rfl

def Moves (env : Env) : WebSocket → WebSocket → Prop := Relation.ReflTransGen (Move env)

namespace Moves

variable {env : Env} {ws ws' ws'' : WebSocket}

theorem refl : Moves env ws ws := Relation.ReflTransGen.refl

theorem single (h : Move env ws ws') : Moves env ws ws' := Relation.ReflTransGen.single h

theorem trans (h : Moves env ws ws') (h' : Moves env ws' ws'') : Moves env ws ws'' :=
  Relation.ReflTransGen.trans h h'

theorem head (h : Move env ws ws') (h' : Moves env ws' ws'') : Moves env ws ws'' :=
  Relation.ReflTransGen.head h h'

theorem tail (h : Moves env ws ws') (h' : Move env ws' ws'') : Moves env ws ws'' :=
  Relation.ReflTransGen.tail h h'

theorem keep (h : ws'.outline = ws.outline) : Moves env ws ws' := single (.keep h)

/-- Moves that start after the outline has been kept. -/
theorem after (h : Moves env ws' ws'') (hkeep : ws'.outline = ws.outline) : Moves env ws ws'' :=
  head (.keep hkeep) h

/-- An invariant kept by every move is kept along moves. -/
theorem invariant {P : WebSocket → Prop} (hstep : ∀ {ws ws'}, Move env ws ws' → P ws → P ws')
    (h : Moves env ws ws') (hws : P ws) : P ws' := by
  induction h with
  | refl => exact hws
  | tail _ hmove ih => exact hstep hmove ih

theorem trace_extends (h : Moves env ws ws') : ws.trace <+: ws'.trace := by
  have hstep : ∀ {ws₁ ws₂}, Move env ws₁ ws₂ → ws.trace <+: ws₁.trace → ws.trace <+: ws₂.trace :=
    fun hmove hbefore => hbefore.trans hmove.trace_extends
  exact h.invariant hstep List.prefix_rfl

theorem not_live (h : Moves env ws ws') (hws : ¬Live ws) : ¬Live ws' :=
  h.invariant Move.not_live hws

theorem useSsl_eq (h : Moves env ws ws') : ws'.useSsl = ws.useSsl := by
  have hstep : ∀ {ws₁ ws₂}, Move env ws₁ ws₂ → ws₁.useSsl = ws.useSsl → ws₂.useSsl = ws.useSsl :=
    fun hmove hbefore => hmove.useSsl_eq.trans hbefore
  exact h.invariant hstep rfl

theorem settled (h : Moves env ws ws') (hws : ws.state ≠ .connecting) : ws'.state ≠ .connecting :=
  h.invariant Move.settled hws

/-- A connection that is CONNECTED and was not CONNECTING before has been CONNECTED. -/
theorem connected_of_connected (h : Moves env ws ws') (hws' : ws'.state = .connected)
    (hws : ws.state ≠ .connecting) : ws.state = .connected := by
  by_contra hnot
  exact h.not_live (not_or.mpr ⟨hws, hnot⟩) (Or.inr hws')

/-! ## Callbacks -/

theorem foldl_run (calls : List ApiCall) (ws : WebSocket) :
    Moves env ws (calls.foldl (ApiCall.run env) ws) := by
  refine Runs.foldl_invariant (I := Moves env ws) (fun ws' call h => h.tail ?_) .refl calls
  cases call with
  | send data isText => exact .send ws' (some data) isText
  | close => exact .close ws'

theorem callback (ws : WebSocket) {e : Event} (he : e.isNeutral) :
    Moves env ws (ws.callback env e) :=
  .head (.observe ws he) ((foldl_run (env ws.tick).calls (ws.record e).pass).after rfl)

theorem wsLog (ws : WebSocket) (level : WSLogLevel) (msg : String) :
    Moves env ws (ws.wsLog env level msg) := by
  unfold WebSocket.wsLog
  cases ws.logCallback with
  | none => exact .refl
  | some userData => exact callback ws rfl

theorem flush (ws : WebSocket) : Moves env ws (ws.flush env) := by
  unfold WebSocket.flush
  split_ifs
  · exact .single (.writeSsl ws)
  · exact .single (.writeIo ws)

/-! ## Frames -/

theorem updateLatencySample (ws : WebSocket) (latencyNs : UInt64) :
    Moves env ws (WebSocketHft.updateLatencySample ws latencyNs) := by
  unfold WebSocketHft.updateLatencySample
  cases ws.latencySamples with
  | none => exact .refl
  | some samples =>
      dsimp only
      split_ifs <;> exact keep rfl

theorem sampleLatency (ws : WebSocket) : Moves env ws (WebSocketHft.sampleLatency env ws) := by
  unfold WebSocketHft.sampleLatency
  dsimp only
  split_ifs
  · exact (updateLatencySample ws.pass _).after rfl
  · exact (updateLatencySample ws.pass _).after rfl
  · exact .refl

theorem deliverMessage (ws : WebSocket) (payload : List UInt8) :
    Moves env ws (WebSocketHft.deliverMessage env ws payload) := by
  have hcount : Moves env ws (WebSocketHft.sampleLatency env (ws.countReceived payload.length)) :=
    (sampleLatency (ws.countReceived payload.length)).after rfl
  unfold WebSocketHft.deliverMessage
  dsimp only
  split_ifs
  · exact hcount.trans (callback _ rfl)
  · exact hcount

theorem unmaskFrame (ws : WebSocket) (frame : WSFrame) (payload : ℕ) :
    Moves env ws (ws.unmaskFrame frame payload) := by
  unfold WebSocket.unmaskFrame
  split_ifs
  · exact keep rfl
  · exact .refl

theorem notePong (ws : WebSocket) : Moves env ws (WebSocketHft.notePong env ws) := by
  unfold WebSocketHft.notePong
  exact (wsLog _ _ _).after rfl

theorem handleFrame (ws : WebSocket) (frame : WSFrame) (start : ℕ) :
    Moves env ws (WebSocketHft.handleFrame env ws frame start) := by
  unfold WebSocketHft.handleFrame
  dsimp only
  split_ifs
  · exact (unmaskFrame ws frame _).trans (deliverMessage _ _)
  · exact (unmaskFrame ws frame _).tail (.pong _ _)
  · exact notePong ws
  · exact .single (.receiveClose ws)
  · exact .refl

theorem parseError (ws : WebSocket) (offset : ℕ) :
    Moves env ws (WebSocketHft.parseError env ws offset) :=
  (wsLog ws.countFrameError.countError _ _).after rfl

/-! ## Periodic checks -/

theorem checkHealth (ws : WebSocket) : Moves env ws (WebSocketHft.checkHealth env ws) := by
  unfold WebSocketHft.checkHealth
  cases ws.onHealth with
  | none => exact .refl
  | some userData =>
      dsimp only
      split_ifs
      · exact keep rfl
      · exact keep rfl
      · exact (callback _ rfl).after rfl
      · exact (callback _ rfl).after rfl

theorem reportMetricsIfNeeded (ws : WebSocket) :
    Moves env ws (WebSocketHft.reportMetricsIfNeeded env ws) := by
  unfold WebSocketHft.reportMetricsIfNeeded
  cases ws.onMetrics with
  | none => exact .refl
  | some userData =>
      dsimp only
      split_ifs
      · exact keep rfl
      · exact (callback _ rfl).after rfl

theorem sendHeartbeat (ws : WebSocket) (nowNs : UInt64) :
    Moves env ws (WebSocketHft.sendHeartbeat env ws nowNs) := by
  have hping : Moves env ws ws.queuePing.2 := .single (.ping ws)
  unfold WebSocketHft.sendHeartbeat
  dsimp only
  split_ifs
  · exact (hping.trans (flush _)).trans ((wsLog _ _ _).after rfl)
  · exact hping
  · exact .refl

theorem checkPongTimeout (ws : WebSocket) (nowNs pongTimeoutNs : UInt64) :
    Moves env ws (WebSocketHft.checkPongTimeout env ws nowNs pongTimeoutNs) := by
  unfold WebSocketHft.checkPongTimeout
  dsimp only
  split_ifs
  · exact ((wsLog ws _ _).trans (callback _ rfl)).trans (keep rfl)
  · exact (wsLog ws _ _).trans (keep rfl)
  · exact .refl
  · exact .refl

theorem checkHeartbeat (ws : WebSocket) : Moves env ws (WebSocketHft.checkHeartbeat env ws) := by
  unfold WebSocketHft.checkHeartbeat
  dsimp only
  split_ifs
  · exact .refl
  · exact ((sendHeartbeat ws.pass _).trans (checkPongTimeout _ _ _)).after rfl

/-! ## Events -/

/-- What follows once the connection is CONNECTED. -/
theorem becomeConnected_handshakeComplete (ws : WebSocket) :
    Moves env ws.becomeConnected (WebSocketHft.handshakeComplete env ws) := by
  have hlogged (msg : String) : Moves env ws.becomeConnected
      ({ ws.becomeConnected with connectionStartNs := (env ws.tick).now }.pass.wsLog env .info
        msg) :=
    (wsLog _ _ _).after rfl
  unfold WebSocketHft.handshakeComplete
  dsimp only
  split_ifs
  · exact (hlogged _).trans (keep rfl)
  · exact hlogged _
  · exact keep rfl
  · exact .refl

theorem handshakeComplete (h : ws.state = .connecting) :
    Moves env ws (WebSocketHft.handshakeComplete env ws) :=
  .head (.accept h) (becomeConnected_handshakeComplete ws)

theorem handshakeStep (h : ws.state = .connecting) :
    Moves env ws (WebSocketHft.handshakeStep env ws) := by
  have hparsed : Moves env ws
      { ws with rxRing := (parseHandshakeResponse ws.rxRing (env ws.tick).allocated).2 }.pass :=
    keep (by simp [WebSocket.outline, WebSocket.pass, size_parseHandshakeResponse])
  unfold WebSocketHft.handshakeStep
  dsimp only
  split_ifs
  · exact hparsed.trans (handshakeComplete h)
  · exact (hparsed.trans (callback _ rfl)).tail (.close _)
  · exact hparsed.tail (.close _)
  · exact hparsed
  · exact .refl

theorem readIo (ws : WebSocket) (socketIndex : ℤ) (recv : RecvResult) :
    Moves env ws (ws.readIo socketIndex recv).2 := by
  have hring : Moves env ws
      { ws with
        ioCtx := (ioRead ws.ioCtx socketIndex ws.rxRing recv).ctx
        rxRing := (ioRead ws.ioCtx socketIndex ws.rxRing recv).ring } :=
    keep (by simp [WebSocket.outline, ioRead_keeps])
  exact hring.tail (.observe _ rfl)

/-- Each stage of `websocket_process` is made of moves. -/
theorem stages : Stages env (Moves env) where
  refl _ := refl
  trans := trans
  pass _ := keep rfl
  writeSsl ws := single (.writeSsl ws)
  readSsl ws := single (.readSsl ws)
  readIo := readIo
  look ws _ := single (.observe ws rfl)
  malformed := parseError
  oversized _ := keep rfl
  frame := handleFrame
  advance _ _ := keep rfl
  response := handshakeStep
  gone hlive := single (.gone hlive)
  error _ _ _ := callback _ rfl

theorem processFrames (ws : WebSocket) : Moves env ws (WebSocketHft.processFrames env ws) :=
  stages.processFrames ws

theorem connectedStep (ws : WebSocket) : Moves env ws (WebSocketHft.connectedStep env ws) :=
  stages.connectedStep ws

theorem handleEvent (ws : WebSocket) (ev : KEvent) :
    Moves env ws (WebSocketHft.handleEvent env ws ev) :=
  stages.handleEvent ws ev

theorem foldl_handleEvent (events : List KEvent) (ws : WebSocket) :
    Moves env ws (events.foldl (WebSocketHft.handleEvent env) ws) :=
  stages.foldl_handleEvent events ws

theorem sslDrain (left attempts : ℕ) (madeProgress : Bool) (ws : WebSocket) :
    Moves env ws (WebSocketHft.sslDrain env left attempts madeProgress ws) :=
  stages.sslDrain left attempts madeProgress ws

theorem processTail (ws : WebSocket) : Moves env ws (WebSocketHft.processTail env ws) := by
  have hdrained : Moves env ws (drainTail env ws) := stages.drainTail ws
  rw [processTail_eq]
  split_ifs
  · exact ((hdrained.trans (checkHealth _)).trans (reportMetricsIfNeeded _)).trans
      (checkHeartbeat _)
  · exact hdrained

/-- Everything `websocket_process` does is done by moves. -/
theorem websocketProcess (ws : WebSocket) (events : Option (List KEvent)) :
    Moves env ws (WebSocketHft.websocketProcess env ws events).2 := by
  unfold WebSocketHft.websocketProcess
  cases hctx : ws.ioCtx with
  | none => exact .refl
  | some ctx =>
      have hpolled : { ws with ioCtx := some (ioPoll ctx events).2 }.outline = ws.outline := by
        simp [WebSocket.outline, slotFds, hctx, sockets_ioPoll]
      cases events with
      | none => exact keep hpolled
      | some events => exact ((foldl_handleEvent events _).trans (processTail _)).after hpolled

end Moves

/-! ## Calls of the public interface -/

/-- `io_poll` at the start of `websocket_process`. -/
def WebSocket.poll (ws : WebSocket) (events : List KEvent) : WebSocket :=
  { ws with ioCtx := ws.ioCtx.map fun ctx => (ioPoll ctx (some events)).2 }

theorem outline_poll (ws : WebSocket) (events : List KEvent) :
    (ws.poll events).outline = ws.outline := by
  cases hctx : ws.ioCtx <;> simp [WebSocket.outline, WebSocket.poll, slotFds, hctx, sockets_ioPoll]

/-- One call of `websocket_process`. -/
def processCall (env : Env) (ws : WebSocket) (events : List KEvent) : WebSocket :=
  (websocketProcess env ws (some events)).2

theorem processCall_eq {env : Env} {ws : WebSocket} (h : ws.ioCtx.isSome) (events : List KEvent) :
    processCall env ws events =
      processTail env (events.foldl (handleEvent env) (ws.poll events)) := by
  obtain ⟨ctx, hctx⟩ := Option.isSome_iff_exists.mp h
  simp [processCall, websocketProcess, WebSocket.poll, hctx]

/-- So does every public call but `websocket_connect`. -/
theorem PublicCall.moves (env : Env) (ws : WebSocket) {call : PublicCall}
    (h : ∀ url answers, call ≠ .connect url answers) : Moves env ws (call.run env ws) := by
  cases call with
  | connect url answers => exact absurd rfl (h url answers)
  | process events => exact Moves.websocketProcess ws events
  | send data isText => exact .single (.send ws data isText)
  | close => exact .single (.close ws)
  | _ => exact Moves.keep rfl

theorem Moves.foldl_calls (env : Env) (ws : WebSocket) {calls : List PublicCall}
    (h : ∀ call ∈ calls, ∀ url answers, call ≠ .connect url answers) :
    Moves env ws (calls.foldl (PublicCall.run env) ws) :=
  Runs.foldl_invariant_of_mem (I := Moves env ws)
    (fun ws' call hcall hmoves => hmoves.trans (call.moves env ws' (h call hcall))) .refl

end WebSocketHft

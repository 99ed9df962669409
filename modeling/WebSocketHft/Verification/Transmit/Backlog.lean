import WebSocketHft.Verification.Runs.Actions
import WebSocketHft.Verification.Transmit.Outgoing

/-! # Bytes that wait in the transmit ring

Nothing but a sender transfers bytes to a plain socket: neither a write event nor a
timer does. What `writev` has not taken waits until the next frame is begun, and a
connection begins none before it is CONNECTED. -/

namespace WebSocketHft

variable {env : Env} {ws ws' ws'' : WebSocket}

def Event.isTransmit : Event → Bool
  | .transmit _ _ _ _ _ => true
  | _ => false

/-- A frame was begun among the events, and not while CONNECTING; or the transmit ring is
as before and the socket has accepted nothing. -/
def BegunOrKept (ws ws' : WebSocket) (es : List Event) : Prop :=
  (∃ e ∈ es, e.isTransmit) ∧ ws'.state ≠ .connecting ∨ ws'.txRing = ws.txRing ∧ sentOf es = []

/-- What a connection without TLS does to its transmit ring. -/
structure Rests (ws ws' : WebSocket) : Prop where
  settled : ws.state ≠ .connecting → ws'.state ≠ .connecting
  sslCtx : ws'.sslCtx = none
  events : ∃ es, ws'.trace = ws.trace ++ es ∧ BegunOrKept ws ws' es

theorem Rests.trans (h : Rests ws ws') (h' : Rests ws' ws'') : Rests ws ws'' := by
  obtain ⟨es, htrace, hes⟩ := h.events
  obtain ⟨es', htrace', hes'⟩ := h'.events
  refine ⟨h'.settled ∘ h.settled, h'.sslCtx, es ++ es', ?_, ?_⟩
  · rw [htrace', htrace, List.append_assoc]
  · rcases hes with ⟨⟨e, he, hbegun⟩, hstate⟩ | ⟨htx, hsent⟩
    · exact Or.inl ⟨⟨e, List.mem_append_left _ he, hbegun⟩, h'.settled hstate⟩
    · rcases hes' with ⟨⟨e, he, hbegun⟩, hstate⟩ | ⟨htx', hsent'⟩
      · exact Or.inl ⟨⟨e, List.mem_append_right _ he, hbegun⟩, hstate⟩
      · exact Or.inr ⟨htx'.trans htx, by rw [sentOf_append, hsent, hsent', List.append_nil]⟩

/-- Nothing happens to the transmit ring. -/
theorem rests_aside {es : List Event} (hctx : ws'.sslCtx = none)
    (hstate : ws.state ≠ .connecting → ws'.state ≠ .connecting)
    (htrace : ws'.trace = ws.trace ++ es) (htx : ws'.txRing = ws.txRing) (hsent : sentOf es = []) :
    Rests ws ws' :=
  ⟨hstate, hctx, es, htrace, Or.inr ⟨htx, hsent⟩⟩

theorem rests_refl (hctx : ws.sslCtx = none) : Rests ws ws :=
  rests_aside hctx id (List.append_nil _).symm rfl rfl

/-- A frame is begun on a connected socket, and what follows is quiet. -/
theorem rests_begins {header payload clear : List UInt8} {allocated : Bool} {begun : WebSocket}
    (hctx : ws.sslCtx = none) (hstate : ws.state = .connected)
    (hbegins : Begins ws header payload clear allocated begun) (hquiet : Quiet begun ws') :
    Rests ws ws' := by
  have hall : Quiet ws ws' := ((Quiet.keptBySending fun _ => {}).begins hbegins).trans hquiet
  have hstate' : ws'.state ≠ .connecting := by
    rw [hall.state, hstate]
    exact WSState.noConfusion
  obtain ⟨parts, htrace⟩ := hbegins.events
  obtain ⟨es, htrace', -⟩ := hquiet.events
  refine ⟨fun _ => hstate', (congrArg Core.sslCtx hall.core).trans hctx,
    .transmit header payload clear (ringbufferWriteable ws.txRing) allocated ::
      (parts.map .queued ++ es), ?_, Or.inl ⟨⟨_, List.mem_cons_self, rfl⟩, hstate'⟩⟩
  rw [htrace', htrace, List.append_assoc, List.cons_append]

theorem rests_send (hctx : ws.sslCtx = none) (data : Option (List UInt8)) (isText : Bool) :
    Rests ws (websocketSend env ws data isText).2 := by
  rcases websocketSend_cases env ws data isText with
    heq | ⟨payload, begun, whole, -, -, hstate, hbegins, -, heq⟩
  · rw [heq]
    exact rests_refl hctx
  · rw [heq]
    split_ifs
    · exact rests_begins hctx hstate hbegins ((Quiet.countSent _ _).trans (Quiet.flush env _))
    · exact rests_begins hctx hstate hbegins (.refl _)

theorem rests_pong (hctx : ws.sslCtx = none) (payload : List UInt8) :
    Rests ws (websocketSendPong env ws payload).2 := by
  rcases websocketSendPong_cases env ws payload with heq | ⟨begun, hstate, hbegins, heq⟩
  · rw [heq]
    exact rests_refl hctx
  · have hpass : Rests ws ws.pass := rests_aside hctx id (List.append_nil _).symm rfl rfl
    rcases heq with heq | heq
    · rw [heq]
      exact hpass.trans (rests_begins hctx hstate hbegins (.refl _))
    · rw [heq]
      exact hpass.trans (rests_begins hctx hstate hbegins (Quiet.flush env _))

theorem rests_ping (hctx : ws.sslCtx = none) (hstate : ws.state = .connected) (nowNs : UInt64) :
    Rests ws (ws.sendPing env nowNs) := by
  have hbegins : Begins ws pingFrame [] [] true ws.queuePing.2 := .headerOnly (Or.inl rfl)
  unfold WebSocket.sendPing
  dsimp only
  split_ifs
  · exact rests_begins hctx hstate hbegins ((Quiet.flush env _).trans (.of_core rfl rfl))
  · exact rests_begins hctx hstate hbegins (.refl _)

theorem rests_close (hctx : ws.sslCtx = none) : Rests ws (websocketClose ws) := by
  have hstate : ws.state ≠ .connecting → (websocketClose ws).state ≠ .connecting := by
    rw [websocketClose_state]
    exact fun _ => WSState.noConfusion
  unfold websocketClose at hstate ⊢
  split_ifs at hstate ⊢
  · exact rests_refl hctx
  · have htrace : (ws.closeSocket.setState .closed).trace = ws.trace ++
        [.closing ws.fd ws.sslFd, .closed ws.fd, .state ws.closeSocket.state .closed] := by
      rw [trace_setState, trace_closeSocket, List.append_assoc]
      rfl
    exact rests_aside hctx hstate htrace rfl rfl
  · exact rests_aside hctx hstate rfl rfl rfl

theorem sampleLatency_keeps (env : Env) (ws : WebSocket) :
    (sampleLatency env ws).outline = ws.outline := by
  obtain ⟨samples, idx, count, tick, -, heq⟩ := sampleLatency_eq env ws
  rw [heq]
  rfl

theorem rests_message (hctx : ws.sslCtx = none) (payload : List UInt8) :
    Rests ws (ws.takeMessage env payload) := by
  have hsampled := sampleLatency_keeps env (ws.countReceived payload.length)
  have hstate : (sampleLatency env (ws.countReceived payload.length)).state = ws.state :=
    congrArg Outline.state hsampled
  have hkept : Rests ws (sampleLatency env (ws.countReceived payload.length)) := by
    refine rests_aside ((congrArg Outline.sslCtx hsampled).trans hctx) (by rw [hstate]; exact id)
      ((congrArg Outline.trace hsampled).trans (List.append_nil _).symm)
      (congrArg Outline.txRing hsampled) rfl
  unfold WebSocket.takeMessage
  dsimp only
  split_ifs
  · exact hkept.trans (rests_aside hkept.sslCtx id rfl rfl rfl)
  · exact hkept

/-- No action but those of the senders touches the transmit ring of a plain connection. -/
theorem Action.rests (haction : Action env ws ws') (hctx : ws.sslCtx = none) : Rests ws ws' := by
  have hkeep {ws' : WebSocket} (hssl : ws'.sslCtx = ws.sslCtx) (hstate : ws'.state = ws.state)
      (htrace : ws'.trace = ws.trace) (htx : ws'.txRing = ws.txRing) : Rests ws ws' :=
    rests_aside (hssl.trans hctx) (by rw [hstate]; exact id)
      (htrace.trans (List.append_nil _).symm) htx rfl
  cases haction with
  | note he =>
      refine rests_aside hctx id rfl rfl ?_
      rename_i e
      cases e with
      | sent bytes => exact Bool.noConfusion he
      | _ => rfl
  | readIo socketIndex recv => exact rests_aside hctx id rfl rfl rfl
  | readSsl =>
      refine rests_aside ?_ id rfl rfl rfl
      change (sslRead ws.sslCtx ws.rxRing (env ws.tick).tls).ctx = none
      rw [hctx]
      rfl
  | writeSsl =>
      have hwrite : sslWrite ws.sslCtx ws.txRing (env ws.tick).tls = ⟨-1, [], ws.txRing⟩ := by
        rw [hctx]
        rfl
      have htrace : (ws.writeSsl env).2.trace = ws.trace ++ [.sent []] := by
        rw [WebSocket.writeSsl, hwrite]
        rfl
      refine rests_aside hctx id htrace ?_ rfl
      rw [WebSocket.writeSsl, hwrite]
      rfl
  | send data isText => exact rests_send hctx data isText
  | close => exact rests_close hctx
  | unmask frame payload =>
      unfold WebSocket.unmaskFrame
      split_ifs
      · exact hkeep rfl rfl rfl rfl
      · exact rests_refl hctx
  | message payload => exact rests_message hctx payload
  | answerPing payload => exact rests_pong hctx payload
  | closeFrame =>
      have htrace : ws.receiveClose.trace =
          ws.trace ++ [.closeFrame ws.state, .state ws.state .closing] := by
        simp [WebSocket.receiveClose, WebSocket.setState, WebSocket.record]
      exact rests_aside hctx (fun _ => WSState.noConfusion) htrace rfl rfl
  | accept _ =>
      have htrace : ws.becomeConnected.trace =
          ws.trace ++ [.connected ws.rxRing.queue, .state ws.state .connected] := by
        simp [WebSocket.becomeConnected, WebSocket.setState, WebSocket.record]
      exact rests_aside hctx (fun _ => WSState.noConfusion) htrace rfl rfl
  | gone _ => exact rests_aside hctx (fun _ => WSState.noConfusion) rfl rfl rfl
  | health hset hstate hdue =>
      unfold WebSocket.seeHealth WebSocket.reportHealth
      dsimp only
      split_ifs
      · exact hkeep rfl rfl rfl rfl
      · exact rests_aside hctx id rfl rfl rfl
  | metrics hset hdue => exact rests_aside hctx id rfl rfl rfl
  | ping hstate hdue => exact rests_ping hctx hstate _
  | _ => exact hkeep rfl rfl rfl rfl

theorem Actions.rests (h : Actions env ws ws') (hctx : ws.sslCtx = none) : Rests ws ws' := by
  have hstep {ws₁ ws₂ : WebSocket} (haction : Action env ws₁ ws₂) (hrests : Rests ws ws₁) :
      Rests ws ws₂ := hrests.trans (haction.rests hrests.sslCtx)
  exact h.invariant hstep (rests_refl hctx)

/-! ## Runs -/

theorem PublicCall.rests (env : Env) (hctx : ws.sslCtx = none) {call : PublicCall}
    (h : ∀ url answers, call ≠ .connect url answers) : Rests ws (call.run env ws) := by
  cases call with
  | connect url answers => exact absurd rfl (h url answers)
  | process events => exact (Actions.websocketProcess ws events).rests hctx
  | send data isText => exact rests_send hctx data isText
  | close => exact rests_close hctx
  | _ => exact rests_aside hctx id (List.append_nil _).symm rfl rfl

theorem rests_foldl_calls (env : Env) (hctx : ws.sslCtx = none) {calls : List PublicCall}
    (h : ∀ call ∈ calls, ∀ url answers, call ≠ .connect url answers) :
    Rests ws (calls.foldl (PublicCall.run env) ws) := by
  induction calls generalizing ws with
  | nil => exact rests_refl hctx
  | cons call calls ih =>
      have hfirst := call.rests env hctx (h call List.mem_cons_self)
      exact hfirst.trans (ih hfirst.sslCtx fun call' hcall => h call' (List.mem_cons_of_mem _ hcall))

/-- On a connection without a TLS context, over every sequence of calls that makes no new
connection: as long as no frame is begun, the socket is given nothing and the transmit ring
stays as it is. So does it as long as the connection is CONNECTING: the rest of an upgrade
request that `writev` took only in part is never sent. -/
theorem backlog_waits_for_frame (env : Env) (ws : WebSocket) (hctx : ws.sslCtx = none)
    (calls : List PublicCall)
    (hcalls : ∀ call ∈ calls, ∀ url answers, call ≠ .connect url answers) :
    let ws' := calls.foldl (PublicCall.run env) ws
    ∃ es, ws'.trace = ws.trace ++ es ∧
      ((∀ e ∈ es, e.isTransmit = false) ∨ ws'.state = .connecting →
        ws'.txRing = ws.txRing ∧ sentOf es = []) := by
  obtain ⟨es, htrace, hes⟩ := (rests_foldl_calls env hctx hcalls).events
  refine ⟨es, htrace, ?_⟩
  intro hquiet
  rcases hes with ⟨⟨e, he, hbegun⟩, hstate⟩ | hkept
  · rcases hquiet with hnone | hconnecting
    · exact absurd ((hnone e he).symm.trans hbegun) Bool.false_ne_true
    · exact absurd hconnecting hstate
  · exact hkept

/-- A socket that takes fifty bytes of the request; then write events and a send. -/
theorem half_a_request_stays :
    let env : Env := fun _ => { writev := some 50 }
    let ws := runCalls env true [.connect (ascii "ws://h/") {}]
    let later : List PublicCall :=
      [.process (some [⟨0, 0, false, false, .write, .failed⟩]), .send (some [0x48, 0x69]) true,
        .process (some [⟨0, 0, false, false, .write, .failed⟩])]
    let ws' := later.foldl (PublicCall.run env) ws
    ws.txRing.queue.length = 66 ∧ ws'.state = .connecting ∧ ws'.txRing = ws.txRing := by
  intro env ws later ws'
  have hstate : ws'.state = .connecting := by decide +kernel
  have hcalls : ∀ call ∈ later, ∀ url answers, call ≠ .connect url answers := by
    simp [later]
  obtain ⟨es, -, hkept⟩ := backlog_waits_for_frame env ws (by decide +kernel) later hcalls
  exact ⟨by decide +kernel, hstate, (hkept (Or.inr hstate)).1⟩

end WebSocketHft

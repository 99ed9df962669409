import Mathlib.Algebra.Group.Prod
import WebSocketHft.Verification.Runs.Ledger
import WebSocketHft.Verification.Transmit.Runs

/-! # Counters and traffic

The four traffic counters of the metrics, compared with what an observer of the
connection sees: the messages handed to the application, and the data frames that
were queued whole. The counters are `uint64_t`, so they count modulo `2 ^ 64`. -/

namespace WebSocketHft

variable {env : Env} {ws ws' ws'' : WebSocket}

/-! ## What is counted -/

/-- A number of messages and the bytes in them, as the counters hold them. -/
def tally (payloads : List (List UInt8)) : UInt64 × UInt64 :=
  (UInt64.ofNat payloads.length, UInt64.ofNat payloads.flatten.length)

def WebSocketMetrics.sentFigures (m : WebSocketMetrics) : UInt64 × UInt64 :=
  (m.messagesSent, m.bytesSent)

def WebSocketMetrics.receivedFigures (m : WebSocketMetrics) : UInt64 × UInt64 :=
  (m.messagesReceived, m.bytesReceived)

theorem add_tally_append (figures : UInt64 × UInt64) (ps qs : List (List UInt8)) :
    figures + tally (ps ++ qs) = figures + tally ps + tally qs := by
  refine Prod.ext ?_ ?_
  · simp [tally, UInt64.ofNat_add, UInt64.add_assoc]
  · simp [tally, UInt64.ofNat_add, UInt64.add_assoc]

theorem add_tally_nil (figures : UInt64 × UInt64) : figures + tally [] = figures := by
  refine Prod.ext ?_ ?_ <;> simp [tally]

/-! ## Between two moments -/

/-- From `ws` to `ws'` the events have happened and the counters have kept up with them. -/
structure Tallied (ws ws' : WebSocket) (es : List Event) : Prop where
  trace_eq : ws'.trace = ws.trace ++ es
  sent : ws'.metrics.sentFigures = ws.metrics.sentFigures + tally (acceptedOf es)
  onMessage : ws.onMessage = true → ws'.onMessage = true
  received : ws.onMessage = true →
    ws'.metrics.receivedFigures = ws.metrics.receivedFigures + tally (messagesOf es)

theorem Tallied.trans {es es' : List Event} (h : Tallied ws ws' es) (h' : Tallied ws' ws'' es') :
    Tallied ws ws'' (es ++ es') := by
  refine ⟨?_, ?_, h'.onMessage ∘ h.onMessage, fun hset => ?_⟩
  · rw [h'.trace_eq, h.trace_eq, List.append_assoc]
  · rw [h'.sent, h.sent, ← add_tally_append]
    exact congrArg (_ + tally ·) List.filterMap_append.symm
  · rw [h'.received (h.onMessage hset), h.received hset, ← add_tally_append]
    exact congrArg (_ + tally ·) List.filterMap_append.symm

/-- Events that are not counted. -/
def Event.isUncounted : Event → Bool
  | .message _ _ => false
  | .transmit _ _ _ _ _ => false
  | _ => true

theorem tallied_aside {es : List Event} (htrace : ws'.trace = ws.trace ++ es)
    (hmessage : ws'.onMessage = ws.onMessage)
    (hsent : ws'.metrics.sentFigures = ws.metrics.sentFigures)
    (hreceived : ws'.metrics.receivedFigures = ws.metrics.receivedFigures)
    (h : ∀ e ∈ es, e.isUncounted) : Tallied ws ws' es := by
  have haccepted : acceptedOf es = [] := by
    rw [acceptedOf, List.filterMap_eq_nil_iff]
    intro e he
    have hother := h e he
    cases e with
    | transmit header payload clear space allocated => exact Bool.noConfusion hother
    | _ => rfl
  have hmessages : messagesOf es = [] := by
    rw [messagesOf, List.filterMap_eq_nil_iff]
    intro e he
    have hother := h e he
    cases e with
    | message payload userData => exact Bool.noConfusion hother
    | _ => rfl
  refine ⟨htrace, ?_, fun hset => hmessage.trans hset, fun _ => ?_⟩
  · rw [haccepted, add_tally_nil, hsent]
  · rw [hmessages, add_tally_nil, hreceived]

theorem tallied_refl (ws : WebSocket) : Tallied ws ws [] :=
  tallied_aside (List.append_nil _).symm rfl rfl rfl (by simp)

theorem tallied_flush (env : Env) (ws : WebSocket) : ∃ es, Tallied ws (ws.flush env) es := by
  unfold WebSocket.flush
  split_ifs
  · exact ⟨[.sent _], tallied_aside rfl rfl rfl rfl (by simp [Event.isUncounted])⟩
  · exact ⟨[.sent _], tallied_aside rfl rfl rfl rfl (by simp [Event.isUncounted])⟩

theorem tallied_setState (ws : WebSocket) (state : WSState) :
    Tallied ws (ws.setState state) [.state ws.state state] :=
  tallied_aside rfl rfl rfl rfl (by simp [Event.isUncounted])

/-! ## Outgoing frames -/

section Begins

variable {header payload clear : List UInt8} {allocated : Bool}

/-- Of a frame that has been begun, data that fits is what is accepted. -/
theorem Begins.accepted (h : Begins ws header payload clear allocated ws') :
    ∃ es, ws'.trace = ws.trace ++ es ∧ messagesOf es = [] ∧
      acceptedOf es = (Event.acceptedData? (.transmit header payload clear
        (ringbufferWriteable ws.txRing) allocated)).toList := by
  obtain ⟨parts, htrace⟩ := h.events
  have hparts : acceptedOf (parts.map .queued) = [] := by
    rw [acceptedOf, List.filterMap_map]
    exact List.filterMap_eq_nil_iff.mpr fun _ _ => rfl
  refine ⟨_, htrace, ?_, ?_⟩
  · rw [messagesOf, List.filterMap_cons, List.filterMap_map]
    exact List.filterMap_eq_nil_iff.mpr fun _ _ => rfl
  · rw [acceptedOf, List.filterMap_cons]
    cases Event.acceptedData? (.transmit header payload clear (ringbufferWriteable ws.txRing)
        allocated) with
    | none => exact hparts
    | some data => exact congrArg (data :: ·) hparts

theorem Begins.metrics (h : Begins ws header payload clear allocated ws') :
    ws'.metrics = ws.metrics := by
  cases h with
  | both =>
      unfold WebSocket.queueBoth
      dsimp only
      split_ifs <;> rfl
  | headerOnly _ => rfl

theorem Begins.onMessage (h : Begins ws header payload clear allocated ws') :
    ws'.onMessage = ws.onMessage :=
  ((Quiet.keptBySending fun _ => {}).begins h).onMessage

/-- A frame that is no data, or does not fit, is not counted. -/
theorem Begins.tallied (h : Begins ws header payload clear allocated ws')
    (hnone : Event.acceptedData? (.transmit header payload clear (ringbufferWriteable ws.txRing)
      allocated) = none) : ∃ es, Tallied ws ws' es := by
  obtain ⟨es, htrace, hmessages, haccepted⟩ := h.accepted
  rw [hnone] at haccepted
  refine ⟨es, htrace, ?_, fun hset => h.onMessage.trans hset, fun _ => ?_⟩
  · rw [haccepted, h.metrics]
    exact (add_tally_nil _).symm
  · rw [hmessages, h.metrics]
    exact (add_tally_nil _).symm

end Begins

theorem tallied_send (env : Env) (h : ws.txRing.Usable) (data : Option (List UInt8))
    (isText : Bool) : ∃ es, Tallied ws (websocketSend env ws data isText).2 es := by
  rcases websocketSend_cases env ws data isText with
    heq | ⟨payload, begun, whole, -, -, -, hbegins, hwhole, heq⟩
  · rw [heq]
    exact ⟨[], tallied_refl ws⟩
  · rw [heq]
    split_ifs with hdone
    · obtain ⟨es, htrace, hmessages, haccepted⟩ := hbegins.accepted
      have hdata : Event.acceptedData? (.transmit (sendHeader isText payload.length) payload payload
          (ringbufferWriteable ws.txRing) true) = some payload :=
        if_pos ⟨dataHeader_sendHeader isText payload.length, (hwhole h).mp hdone⟩
      rw [hdata] at haccepted
      have hcounted : Tallied ws (begun.countSent payload.length) es := by
        refine ⟨htrace, ?_, fun hset => hbegins.onMessage.trans hset, fun _ => ?_⟩
        · rw [haccepted]
          simp [WebSocket.countSent, WebSocketMetrics.sentFigures, hbegins.metrics, tally]
        · rw [hmessages, add_tally_nil]
          simp [WebSocket.countSent, WebSocketMetrics.receivedFigures, hbegins.metrics]
      obtain ⟨es', hflush⟩ := tallied_flush env (begun.countSent payload.length)
      exact ⟨_, hcounted.trans hflush⟩
    · exact hbegins.tallied (if_neg fun hdata => hdone ((hwhole h).mpr hdata.2))

/-- A control frame carries no data to be counted. -/
theorem acceptedData?_control {header : List UInt8} (h : ¬DataHeader header)
    (payload clear : List UInt8) (space : ℕ) (allocated : Bool) :
    Event.acceptedData? (.transmit header payload clear space allocated) = none :=
  if_neg fun hdata => h hdata.1

theorem tallied_pong (env : Env) (ws : WebSocket) (payload : List UInt8) :
    ∃ es, Tallied ws (websocketSendPong env ws payload).2 es := by
  rcases websocketSendPong_cases env ws payload with heq | ⟨begun, -, hbegins, heq⟩
  · rw [heq]
    exact ⟨[], tallied_refl ws⟩
  · have hpass : Tallied ws ws.pass [] :=
      tallied_aside (List.append_nil _).symm rfl rfl rfl (by simp)
    obtain ⟨es, hes⟩ := hbegins.tallied
      (acceptedData?_control (not_dataHeader_pongHeader _ _) _ _ _ _)
    obtain ⟨es', hflush⟩ := tallied_flush env begun
    rcases heq with heq | heq
    · rw [heq]
      exact ⟨_, hpass.trans hes⟩
    · rw [heq]
      exact ⟨_, (hpass.trans hes).trans hflush⟩

theorem tallied_ping (env : Env) (ws : WebSocket) (nowNs : UInt64) :
    ∃ es, Tallied ws (ws.sendPing env nowNs) es := by
  have hbegins : Begins ws pingFrame [] [] true ws.queuePing.2 := .headerOnly (Or.inl rfl)
  obtain ⟨es, hes⟩ := hbegins.tallied (acceptedData?_control (by decide) _ _ _ _)
  obtain ⟨es', hflush⟩ := tallied_flush env ws.queuePing.2
  have hstamped : Tallied (ws.queuePing.2.flush env)
      { ws.queuePing.2.flush env with lastPingSentNs := nowNs } [] :=
    tallied_aside (List.append_nil _).symm rfl rfl rfl (by simp)
  unfold WebSocket.sendPing
  dsimp only
  split_ifs
  · exact ⟨_, (hes.trans hflush).trans hstamped⟩
  · exact ⟨es, hes⟩

/-! ## Actions -/

theorem sampleLatency_ledger (env : Env) (ws : WebSocket) :
    (sampleLatency env ws).ledger = ws.ledger ∧ (sampleLatency env ws).trace = ws.trace := by
  obtain ⟨samples, idx, count, tick, -, heq⟩ := sampleLatency_eq env ws
  rw [heq]
  exact ⟨rfl, rfl⟩

theorem tallied_message (env : Env) (ws : WebSocket) (payload : List UInt8) :
    ∃ es, Tallied ws (ws.takeMessage env payload) es := by
  obtain ⟨hledger, htrace⟩ := sampleLatency_ledger env (ws.countReceived payload.length)
  have hmessage : (sampleLatency env (ws.countReceived payload.length)).onMessage = ws.onMessage :=
    congrArg Ledger.onMessage hledger
  have hmetrics : (sampleLatency env (ws.countReceived payload.length)).metrics =
      (ws.countReceived payload.length).metrics := congrArg Ledger.metrics hledger
  unfold WebSocket.takeMessage
  dsimp only
  rw [hmessage]
  split_ifs with hset
  · refine ⟨[.message payload (sampleLatency env (ws.countReceived payload.length)).callbackUserData],
      ?_, ?_, fun _ => hmessage.trans hset, fun _ => ?_⟩
    · exact congrArg (· ++ _) htrace
    · change (sampleLatency env (ws.countReceived payload.length)).metrics.sentFigures = _
      rw [hmetrics]
      exact (add_tally_nil _).symm
    · change (sampleLatency env (ws.countReceived payload.length)).metrics.receivedFigures = _
      rw [hmetrics]
      simp [WebSocket.countReceived, WebSocketMetrics.receivedFigures, messagesOf, Event.payload?,
        tally]
  · refine ⟨[], htrace.trans (List.append_nil _).symm, ?_, fun hset' => absurd hset' hset,
      fun hset' => absurd hset' hset⟩
    rw [hmetrics]
    exact (add_tally_nil _).symm

theorem tallied_close (ws : WebSocket) : ∃ es, Tallied ws (websocketClose ws) es := by
  unfold websocketClose
  split_ifs
  · exact ⟨[], tallied_refl ws⟩
  · have hsocket : Tallied ws ws.closeSocket [.closing ws.fd ws.sslFd, .closed ws.fd] :=
      tallied_aside (trace_closeSocket ws) rfl rfl rfl (by simp [Event.isUncounted])
    exact ⟨_, hsocket.trans (tallied_setState _ _)⟩
  · exact ⟨_, tallied_setState ws _⟩

theorem Action.tallied (haction : Action env ws ws') (h : ws.txRing.Usable) :
    ∃ es, Tallied ws ws' es := by
  have hkeep {ws' : WebSocket} (htrace : ws'.trace = ws.trace)
      (hmessage : ws'.onMessage = ws.onMessage)
      (hsent : ws'.metrics.sentFigures = ws.metrics.sentFigures)
      (hreceived : ws'.metrics.receivedFigures = ws.metrics.receivedFigures) :
      ∃ es, Tallied ws ws' es :=
    ⟨[], tallied_aside (htrace.trans (List.append_nil _).symm) hmessage hsent hreceived (by simp)⟩
  have hnote {ws' : WebSocket} (e : Event) (he : e.isUncounted)
      (htrace : ws'.trace = ws.trace ++ [e]) (hmessage : ws'.onMessage = ws.onMessage)
      (hsent : ws'.metrics.sentFigures = ws.metrics.sentFigures)
      (hreceived : ws'.metrics.receivedFigures = ws.metrics.receivedFigures) :
      ∃ es, Tallied ws ws' es :=
    ⟨[e], tallied_aside htrace hmessage hsent hreceived (by simpa using he)⟩
  cases haction with
  | note he =>
      refine hnote _ ?_ rfl rfl rfl rfl
      rename_i e
      cases e with
      | message payload userData => exact Bool.noConfusion he
      | transmit header payload clear space allocated => exact Bool.noConfusion he
      | _ => rfl
  | readIo socketIndex recv => exact hnote _ rfl rfl rfl rfl rfl
  | readSsl => exact hnote _ rfl rfl rfl rfl rfl
  | writeSsl => exact hnote _ rfl rfl rfl rfl rfl
  | send data isText => exact tallied_send env h data isText
  | close => exact tallied_close ws
  | unmask frame payload =>
      unfold WebSocket.unmaskFrame
      split_ifs
      · exact hkeep rfl rfl rfl rfl
      · exact hkeep rfl rfl rfl rfl
  | message payload => exact tallied_message env ws payload
  | answerPing payload => exact tallied_pong env ws payload
  | closeFrame =>
      have hseen : Tallied ws (ws.record (.closeFrame ws.state)) [.closeFrame ws.state] :=
        tallied_aside rfl rfl rfl rfl (by simp [Event.isUncounted])
      exact ⟨_, hseen.trans (tallied_setState _ _)⟩
  | accept _ =>
      have hseen : Tallied ws (ws.record (.connected ws.rxRing.queue))
          [.connected ws.rxRing.queue] :=
        tallied_aside rfl rfl rfl rfl (by simp [Event.isUncounted])
      exact ⟨_, hseen.trans (tallied_setState _ _)⟩
  | gone _ => exact ⟨_, tallied_setState ws _⟩
  | health hset hstate hdue =>
      unfold WebSocket.seeHealth WebSocket.reportHealth
      dsimp only
      split_ifs
      · exact hkeep rfl rfl rfl rfl
      · exact hnote _ rfl rfl rfl rfl rfl
  | metrics hset hdue => exact hnote _ rfl rfl rfl rfl rfl
  | ping hstate hdue => exact tallied_ping env ws _
  | _ => exact hkeep rfl rfl rfl rfl

theorem Actions.tallied (h : Actions env ws ws') (htx : TxInv ws) :
    TxInv ws' ∧ ∃ es, Tallied ws ws' es := by
  have hstep {ws₁ ws₂ : WebSocket} (haction : Action env ws₁ ws₂)
      (hbefore : TxInv ws₁ ∧ ∃ es, Tallied ws ws₁ es) : TxInv ws₂ ∧ ∃ es, Tallied ws ws₂ es := by
    obtain ⟨hinv, es, hes⟩ := hbefore
    obtain ⟨es', hes'⟩ := haction.tallied hinv.usable
    exact ⟨haction.moves.invariant TxInv.move hinv, _, hes.trans hes'⟩
  exact h.invariant hstep ⟨htx, [], tallied_refl ws⟩

/-! ## Runs -/

/-- The call neither resets the counters nor takes the message callback away. -/
def PublicCall.keepsCounting : PublicCall → Bool
  | .resetMetrics => false
  | .setOnMessage callback _ => callback
  | _ => true

theorem Event.isUncounted_of_isAttempt {e : Event} (h : e.isAttempt) : e.isUncounted := by
  cases e with
  | message payload userData => exact h
  | transmit header payload clear space allocated => exact h
  | _ => rfl

theorem PublicCall.tallied (env : Env) (h : TxInv ws) {call : PublicCall}
    (hcall : call.keepsCounting) : ∃ es, Tallied ws (call.run env ws) es := by
  cases call with
  | setOnMessage callback userData =>
      refine ⟨[], (List.append_nil _).symm, (add_tally_nil _).symm, fun _ => hcall,
        fun _ => (add_tally_nil _).symm⟩
  | resetMetrics => exact Bool.noConfusion hcall
  | connect url answers =>
      have hkept : LedgerKept ws (websocketConnect env ws url answers).2 :=
        .websocketConnect ws url answers
      obtain ⟨es, htrace, hes⟩ := hkept.events
      have hmetrics := congrArg Ledger.metrics hkept.ledger
      exact ⟨es, tallied_aside htrace (congrArg Ledger.onMessage hkept.ledger)
        (congrArg WebSocketMetrics.sentFigures hmetrics)
        (congrArg WebSocketMetrics.receivedFigures hmetrics)
        fun e he => Event.isUncounted_of_isAttempt (hes e he)⟩
  | process events => exact ((Actions.websocketProcess ws events).tallied h).2
  | send data isText => exact tallied_send env h.usable data isText
  | close => exact tallied_close ws
  | _ => exact ⟨[], tallied_aside (List.append_nil _).symm rfl rfl rfl (by simp)⟩

end WebSocketHft

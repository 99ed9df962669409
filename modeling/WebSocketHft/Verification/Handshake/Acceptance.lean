import WebSocketHft.Verification.Handshake.Response
import WebSocketHft.Verification.Runs.Moves

/-! # A response is accepted once

The connection becomes CONNECTED only out of CONNECTING, at the end of an event
whose verdict is positive, and a connection that has left CONNECTING does not get
there again by processing. -/

namespace WebSocketHft

open WebSocketHft.Substring

/-! ## What steps record -/

/-- Between the two states only events with the property have been recorded. -/
def Records (p : Event → Bool) (ws ws' : WebSocket) : Prop :=
  ∃ es, ws'.trace = ws.trace ++ es ∧ ∀ e ∈ es, p e

/-- Anything but the acceptance of a response. -/
def Event.notAccepted : Event → Bool
  | .connected _ => false
  | _ => true

/-- Nor is anything read. -/
def Event.isCalm : Event → Bool
  | .connected _ => false
  | .received _ => false
  | _ => true

theorem Event.isCalm_of_isQuiet {e : Event} (h : e.isQuiet) : e.isCalm := by
  cases e with
  | connected pending => exact h
  | received bytes => exact h
  | _ => rfl

theorem Event.notAccepted_of_isCalm {e : Event} (h : e.isCalm) : e.notAccepted := by
  cases e with
  | connected pending => exact h
  | _ => rfl

theorem Event.notAccepted_of_isNeutral {e : Event} (h : e.isNeutral) : e.notAccepted := by
  cases e with
  | connected pending => exact h
  | _ => rfl

namespace Records

variable {env : Env} {p q : Event → Bool} {ws ws' ws'' : WebSocket}

theorem of_trace (h : ws'.trace = ws.trace) : Records p ws ws' :=
  ⟨[], by rw [h, List.append_nil], by simp⟩

theorem trans (h : Records p ws ws') (h' : Records p ws' ws'') : Records p ws ws'' := by
  obtain ⟨es, htrace, hes⟩ := h
  obtain ⟨es', htrace', hes'⟩ := h'
  refine ⟨es ++ es', by rw [htrace', htrace, List.append_assoc], ?_⟩
  intro e he
  rcases List.mem_append.mp he with he | he
  · exact hes e he
  · exact hes' e he

theorem mono (h : Records p ws ws') (hpq : ∀ {e}, p e → q e) : Records q ws ws' := by
  obtain ⟨es, htrace, hes⟩ := h
  exact ⟨es, htrace, fun e he => hpq (hes e he)⟩

theorem record (ws : WebSocket) {e : Event} (h : p e) : Records p ws (ws.record e) := by
  refine ⟨[e], rfl, ?_⟩
  simpa using h

theorem quiet (h : Quiet ws ws') : Records Event.isCalm ws ws' := by
  obtain ⟨es, htrace, hes⟩ := h.events
  exact ⟨es, htrace, fun e he => Event.isCalm_of_isQuiet (hes e he)⟩

theorem setState (ws : WebSocket) (state : WSState) (h : p (.state ws.state state)) :
    Records p ws (ws.setState state) :=
  record ws h

theorem close (ws : WebSocket) : Records Event.isCalm ws (websocketClose ws) := by
  have hsocket : Records Event.isCalm ws ws.closeSocket := by
    refine ⟨_, trace_closeSocket ws, ?_⟩
    simp [Event.isCalm]
  unfold websocketClose
  split_ifs
  · exact of_trace rfl
  · exact hsocket.trans (setState _ _ rfl)
  · exact setState ws _ rfl

/-- Whatever the application does in a callback. -/
theorem callback (env : Env) (ws : WebSocket) {e : Event} (he : e.isQuiet) :
    Records Event.isCalm ws (ws.callback env e) := by
  have hcalls (calls : List ApiCall) (ws : WebSocket) :
      Records Event.isCalm ws (calls.foldl (ApiCall.run env) ws) := by
    induction calls generalizing ws with
    | nil => exact of_trace rfl
    | cons call calls ih =>
        cases call with
        | send data isText => exact (quiet (Quiet.websocketSend env ws _ isText)).trans (ih _)
        | close => exact (close ws).trans (ih _)
  exact (record ws (Event.isCalm_of_isQuiet he)).trans (hcalls _ (ws.record e).pass)

theorem wsLog (env : Env) (ws : WebSocket) (level : WSLogLevel) (msg : String) :
    Records Event.isCalm ws (ws.wsLog env level msg) := by
  unfold WebSocket.wsLog
  cases ws.logCallback with
  | none => exact of_trace rfl
  | some userData => exact callback env ws rfl

/-- Out of CONNECTING no move accepts a response. -/
theorem move (h : Move env ws ws') (hstate : ws.state ≠ .connecting) :
    Records Event.notAccepted ws ws' := by
  have hquiet (hq : Quiet ws ws') : Records Event.notAccepted ws ws' :=
    (quiet hq).mono Event.notAccepted_of_isCalm
  cases h with
  | keep heq => exact of_trace (congrArg Outline.trace heq)
  | observe he => exact record ws (Event.notAccepted_of_isNeutral he)
  | readSsl => exact ⟨_, rfl, by simp [Event.notAccepted]⟩
  | writeSsl => exact hquiet (Quiet.writeSsl env ws)
  | writeIo => exact hquiet (Quiet.writeIo env ws)
  | send data isText => exact hquiet (Quiet.websocketSend env ws data isText)
  | pong payload => exact hquiet (Quiet.websocketSendPong env ws payload)
  | ping => exact hquiet (quiet_queuePing ws)
  | close => exact (close ws).mono Event.notAccepted_of_isCalm
  | accept hconnecting => exact absurd hconnecting hstate
  | receiveClose => exact (record ws rfl).trans (setState _ _ rfl)
  | gone _ => exact setState ws _ rfl

end Records

theorem Move.state_ne_connecting {env : Env} {ws ws' : WebSocket} (h : Move env ws ws')
    (hstate : ws.state ≠ .connecting) : ws'.state ≠ .connecting := by
  have hquiet (hq : Quiet ws ws') : ws'.state ≠ .connecting := by rwa [hq.state]
  cases h with
  | keep heq => rwa [show ws'.state = ws.state from congrArg Outline.state heq]
  | observe _ => exact hstate
  | readSsl => exact hstate
  | writeSsl => exact hstate
  | writeIo => exact hstate
  | send data isText => exact hquiet (Quiet.websocketSend env ws data isText)
  | pong payload => exact hquiet (Quiet.websocketSendPong env ws payload)
  | ping => exact hquiet (quiet_queuePing ws)
  | close =>
      unfold websocketClose
      split_ifs with hclosed
      · exact hstate
      · exact WSState.noConfusion
      · exact WSState.noConfusion
  | accept hconnecting => exact absurd hconnecting hstate
  | receiveClose => exact WSState.noConfusion
  | gone _ => exact WSState.noConfusion

/-- A connection that has left CONNECTING stays out of it and accepts no response. -/
theorem Moves.departed {env : Env} {ws ws' : WebSocket} (h : Moves env ws ws')
    (hstate : ws.state ≠ .connecting) :
    ws'.state ≠ .connecting ∧ Records Event.notAccepted ws ws' := by
  have hstep : ∀ {ws₁ ws₂}, Move env ws₁ ws₂ →
      (ws₁.state ≠ .connecting ∧ Records Event.notAccepted ws ws₁) →
      ws₂.state ≠ .connecting ∧ Records Event.notAccepted ws ws₂ := by
    intro ws₁ ws₂ hmove hbefore
    exact ⟨hmove.state_ne_connecting hbefore.1, hbefore.2.trans (Records.move hmove hbefore.1)⟩
  exact h.invariant hstep ⟨hstate, Records.of_trace rfl⟩

/-! ## The verdict of an event -/

variable {env : Env} {ws : WebSocket}

/-- The connection after the verdict has been taken. -/
def judged (env : Env) (ws : WebSocket) : WebSocket :=
  { ws with rxRing := (parseHandshakeResponse ws.rxRing (env ws.tick).allocated).2 }.pass

theorem handshakeStep_empty (h : ringbufferReadable ws.rxRing = 0) :
    handshakeStep env ws = ws :=
  if_neg (show ¬0 < (ringbufferReadInline ws.rxRing).len by
    rw [show (ringbufferReadInline ws.rxRing).len = 0 from h]
    exact lt_irrefl 0)

theorem handshakeStep_accept (hpos : 0 < ringbufferReadable ws.rxRing)
    (h : (parseHandshakeResponse ws.rxRing (env ws.tick).allocated).1 = 0) :
    handshakeStep env ws = handshakeComplete env (judged env ws) := by
  unfold handshakeStep
  exact (if_pos hpos).trans (if_pos h)

theorem handshakeStep_wait (hpos : 0 < ringbufferReadable ws.rxRing)
    (h : (parseHandshakeResponse ws.rxRing (env ws.tick).allocated).1 = 1) :
    handshakeStep env ws = judged env ws := by
  have hne : ¬(parseHandshakeResponse ws.rxRing (env ws.tick).allocated).1 = 0 := by
    rw [h]
    decide
  have hnot : ¬((parseHandshakeResponse ws.rxRing (env ws.tick).allocated).1 < 0 ∧
      200 < (ringbufferReadInline ws.rxRing).len ∧
      (findInfix (ascii "HTTP")
        (cStringAt (judged env ws).rxRing (ringbufferReadInline ws.rxRing).data)).isSome) := by
    rw [h]
    exact fun hneg => absurd hneg.1 (by decide)
  unfold handshakeStep
  exact (if_pos hpos).trans ((if_neg hne).trans (if_neg hnot))

/-- A negative verdict on few bytes is ignored. -/
theorem handshakeStep_ignore (hle : ringbufferReadable ws.rxRing ≤ 200)
    (h : (parseHandshakeResponse ws.rxRing (env ws.tick).allocated).1 ≠ 0)
    (hpos : 0 < ringbufferReadable ws.rxRing) : handshakeStep env ws = judged env ws := by
  unfold handshakeStep
  exact (if_pos hpos).trans ((if_neg h).trans (if_neg fun hlong => absurd hlong.2.1 (not_lt.mpr hle)))

/-- On many bytes it closes the connection. -/
theorem handshakeStep_close (hlong : 200 < ringbufferReadable ws.rxRing)
    (hstarts : ascii "HTTP/1.1 101" <+: ws.rxRing.linear) (hun : ws.rxRing.Unwrapped)
    (halloc : (env ws.tick).allocated = false) : (handshakeStep env ws).state = .closed := by
  have hparse : parseHandshakeResponse ws.rxRing (env ws.tick).allocated = (-1, ws.rxRing) := by
    rw [parseHandshakeResponse_of_starts _ hstarts, if_pos halloc]
  have hfound : (findInfix (ascii "HTTP") (cStringAt ws.rxRing ws.rxRing.readPtr)).isSome := by
    obtain ⟨rest, hstring⟩ := cStringAt_readPtr hun hstarts
    have hall : ∀ c ∈ ascii "HTTP/1.1 101", decide (c ≠ 0) = true :=
      List.all_eq_true.mp (by decide)
    have hword : ascii "HTTP" <+: ascii "HTTP/1.1 101" := by decide
    rw [findInfix_isSome, hstring, List.takeWhile_append_of_pos hall]
    exact (hword.trans (List.prefix_append _ _)).isInfix
  have hpos : 0 < (ringbufferReadInline ws.rxRing).len := (Nat.zero_le 200).trans_lt hlong
  have hcond : (-1 : ℤ) < 0 ∧ 200 < (ringbufferReadInline ws.rxRing).len ∧
      (findInfix (ascii "HTTP")
        (cStringAt ws.rxRing (ringbufferReadInline ws.rxRing).data)).isSome :=
    ⟨by decide, hlong, hfound⟩
  have hne : ¬(-1 : ℤ) = 0 := by decide
  unfold handshakeStep
  dsimp only
  rw [if_pos hpos, hparse]
  dsimp only
  rw [if_neg hne]
  exact (congrArg WebSocket.state (if_pos hcond)).trans (websocketClose_state _)

/-- Without a positive verdict nothing is accepted. -/
theorem handshakeStep_calm
    (h : (parseHandshakeResponse ws.rxRing (env ws.tick).allocated).1 ≠ 0) :
    Records Event.isCalm ws (handshakeStep env ws) := by
  have hjudged : Records Event.isCalm ws (judged env ws) := Records.of_trace rfl
  unfold handshakeStep
  dsimp only
  rw [if_neg h]
  split_ifs
  · exact (hjudged.trans (Records.callback env _ rfl)).trans (Records.close _)
  · exact hjudged.trans (Records.close _)
  · exact hjudged
  · exact Records.of_trace rfl

/-- On a positive verdict the connection becomes CONNECTED, once, with what the verdict has
left in the ring. -/
theorem handshakeComplete_connected (env : Env) (ws : WebSocket) :
    (handshakeComplete env ws).state ≠ .connecting ∧
      ∃ es, (handshakeComplete env ws).trace = ws.trace ++ .connected ws.rxRing.queue :: es ∧
        ∀ e ∈ es, e.isCalm := by
  have hconnected : ws.becomeConnected.state ≠ .connecting := WSState.noConfusion
  have hmoves : Moves env ws.becomeConnected (handshakeComplete env ws) :=
    Moves.becomeConnected_handshakeComplete ws
  have hcalm : Records Event.isCalm (ws.record (.connected ws.rxRing.queue))
      (handshakeComplete env ws) := by
    have hconnected : Records Event.isCalm (ws.record (.connected ws.rxRing.queue))
        ws.becomeConnected := Records.setState _ _ rfl
    refine hconnected.trans ?_
    have hlogged (msg : String) : Records Event.isCalm ws.becomeConnected
        ({ ws.becomeConnected with connectionStartNs := (env ws.tick).now }.pass.wsLog env .info
          msg) :=
      Records.trans (Records.of_trace rfl) (Records.wsLog env _ _ _)
    unfold handshakeComplete
    dsimp only
    split_ifs
    · exact (hlogged _).trans (Records.of_trace rfl)
    · exact hlogged _
    · exact Records.of_trace rfl
    · exact Records.of_trace rfl
  obtain ⟨es, htrace, hes⟩ := hcalm
  refine ⟨(hmoves.departed hconnected).1, es, ?_, hes⟩
  rw [htrace]
  exact List.append_assoc ws.trace [.connected ws.rxRing.queue] es

end WebSocketHft

import WebSocketHft.Model.Reconnect
import WebSocketHft.Verification.Frames.Receiving
import WebSocketHft.Verification.Runs.Standing
import WebSocketHft.Verification.Runs.States

/-! # Lost connections

A connection is lost by the end of the peer or an error, by a read that fails, or by
a CLOSE frame. `trigger_reconnect` would schedule the next attempt, but no call
comes to it: a connection that starts idle stays idle. -/

namespace WebSocketHft

open WebSocketHft.Runs

/-! ## What `trigger_reconnect` does -/

/-- A reconnection is under way, one attempt further than before. -/
structure Schedules (ws ws' : WebSocket) : Prop where
  waiting : ws'.reconnectState.isReconnecting = true
  attempts : ws'.reconnectState.reconnectAttempts = ws.reconnectState.reconnectAttempts + 1

theorem schedules_triggerReconnect (env : Env) {ws : WebSocket}
    (hauto : ws.reconnectConfig.autoReconnect = true) (hleft : ws.retriesExceeded = false) :
    Schedules ws (triggerReconnect env ws) := by
  have hlogged (ws : WebSocket) (msg : String) :
      (ws.wsLog env .info msg).reconnectState = ws.reconnectState :=
    congrArg Prod.snd (notes_wsLog env ws .info msg)
  unfold triggerReconnect
  rw [if_neg (by simp [hauto]), if_neg (by simp [hleft])]
  constructor
  · rw [hlogged]
    rfl
  · rw [hlogged]
    rfl

/-! ## Losing a connection -/

/-- EV_EOF or EV_ERROR comes while the connection is CONNECTED. -/
def Ends (env : Env) (ws : WebSocket) (events : List KEvent) : Prop :=
  ∃ before ev after, events = before ++ ev :: after ∧ (ev.eof = true ∨ ev.error = true) ∧
    (before.foldl (handleEvent env) ws).state = .connected

/-- `ssl_read` returns a negative value while the connection is CONNECTED. -/
def FailsToRead (env : Env) (ws : WebSocket) : Prop :=
  ws.state = .connected ∧ ws.useSsl = true ∧
    ∃ r ∈ readsOfDrain env 200 0 false ws, (r.1.readSsl env).1 < 0

/-- A CLOSE frame has been taken while the connection was CONNECTED. -/
def TakesClose (ws ws' : WebSocket) : Prop :=
  Event.closeFrame .connected ∈ ws'.trace.drop ws.trace.length

/-- A call of `websocket_process` loses the connection. -/
def Loses (env : Env) (ws : WebSocket) (events : List KEvent) : Prop :=
  ws.ioCtx.isSome = true ∧
    (Ends env (ws.poll events) events ∨
      FailsToRead env (events.foldl (handleEvent env) (ws.poll events)) ∨
      TakesClose ws (processCall env ws events))

theorem not_live_setState_closed (ws : WebSocket) : ¬Live (ws.setState .closed) := by
  simp [Live, WebSocket.setState, WebSocket.record]

/-- Telling the application does not bring the connection back. -/
theorem not_live_lost (env : Env) {ws : WebSocket} (e : Event) (he : e.isNeutral) :
    ¬Live ((ws.setState .closed).callback env e) := by
  have hmoves : Moves env (ws.setState .closed) ((ws.setState .closed).callback env e) :=
    .callback _ he
  exact hmoves.not_live (not_live_setState_closed ws)

theorem not_live_handleEvent {env : Env} {ws : WebSocket} {ev : KEvent}
    (h : ev.eof = true ∨ ev.error = true) (hstate : ws.state = .connected) :
    ¬Live (handleEvent env ws ev) := by
  unfold handleEvent
  rw [if_pos h, if_pos (Or.inl hstate)]
  dsimp only
  split_ifs
  · exact not_live_lost env _ rfl
  · exact not_live_setState_closed ws

theorem not_live_sslDrain {env : Env} (left attempts : ℕ) (madeProgress : Bool) {ws : WebSocket}
    (h : ∃ r ∈ readsOfDrain env left attempts madeProgress ws, (r.1.readSsl env).1 < 0) :
    ¬Live (sslDrain env left attempts madeProgress ws) := by
  induction left generalizing attempts madeProgress ws with
  | zero =>
      obtain ⟨r, hmem, -⟩ := h
      exact absurd hmem List.not_mem_nil
  | succ left ih =>
      obtain ⟨r, hmem, hfailed⟩ := h
      unfold readsOfDrain at hmem
      unfold sslDrain
      by_cases hstate : ws.state = .connected
      · have hkept : ¬(ws.readSsl env).2.state ≠ .connected := not_not.mpr hstate
        rw [if_pos hstate] at hmem ⊢
        dsimp only at hmem ⊢
        rw [if_neg hkept]
        by_cases hpos : 0 < (ws.readSsl env).1
        · rw [if_pos hpos] at hmem ⊢
          rcases List.mem_cons.mp hmem with rfl | hmem
          · exact absurd hfailed (not_lt.mpr hpos.le)
          · exact ih _ _ ⟨r, hmem, hfailed⟩
        · rw [if_neg hpos] at hmem ⊢
          by_cases hzero : (ws.readSsl env).1 = 0
          · rw [if_pos hzero]
            rcases List.mem_cons.mp hmem with rfl | hmem
            · exact absurd hfailed (show ¬(ws.readSsl env).1 < 0 by omega)
            · by_cases hagain : madeProgress = true ∧ attempts + 1 < 5
              · rw [if_pos ⟨hzero, hagain⟩] at hmem
                rw [if_pos hagain]
                exact ih _ _ ⟨r, hmem, hfailed⟩
              · rw [if_neg fun hall => hagain hall.2] at hmem
                exact absurd hmem List.not_mem_nil
          · rw [if_neg hzero]
            refine (Moves.processFrames _).not_live ?_
            split_ifs
            · exact not_live_lost env _ rfl
            · exact not_live_setState_closed _
      · rw [if_neg hstate] at hmem
        exact absurd hmem List.not_mem_nil

/-- A move that takes a CLOSE frame leaves the connection out of use. -/
theorem Move.not_live_of_closeFrame {env : Env} {ws ws' : WebSocket} (h : Move env ws ws')
    {es : List Event} (hes : ws'.trace = ws.trace ++ es) {state : WSState}
    (hmem : Event.closeFrame state ∈ es) : ¬Live ws' := by
  have hnew {es' : List Event} (htrace : ws'.trace = ws.trace ++ es') :
      Event.closeFrame state ∈ es' := by
    rwa [List.append_cancel_left (hes.symm.trans htrace)] at hmem
  have hquiet (hquiet : Quiet ws ws') : ¬Live ws' := by
    obtain ⟨es', htrace, hall⟩ := hquiet.events
    exact absurd (hall _ (hnew htrace)) (by simp [Event.isQuiet])
  cases h with
  | keep heq =>
      have htrace : ws'.trace = ws.trace ++ [] := by
        rw [List.append_nil]
        exact congrArg Outline.trace heq
      exact absurd (hnew htrace) List.not_mem_nil
  | @observe e he =>
      have hobserved : Event.closeFrame state ∈ [e] := hnew rfl
      obtain rfl := List.mem_singleton.mp hobserved
      exact absurd he (by simp [Event.isNeutral])
  | readSsl => exact absurd (hnew rfl) (by simp)
  | writeSsl => exact hquiet (Quiet.writeSsl env ws)
  | writeIo => exact hquiet (Quiet.writeIo env ws)
  | send data isText => exact hquiet (Quiet.websocketSend env ws data isText)
  | pong payload => exact hquiet (Quiet.websocketSendPong env ws payload)
  | ping => exact hquiet (quiet_queuePing ws)
  | close => simp [Live, websocketClose_state]
  | accept hstate =>
      have htrace : ws.becomeConnected.trace =
          ws.trace ++ [.connected ws.rxRing.queue, .state ws.state .connected] :=
        List.append_assoc _ _ _
      exact absurd (hnew htrace) (by simp)
  | receiveClose => simp [Live, WebSocket.receiveClose, WebSocket.setState, WebSocket.record]
  | gone _ => exact not_live_setState_closed ws

theorem Moves.not_live_of_takesClose {env : Env} {ws ws' : WebSocket} (h : Moves env ws ws')
    (hclose : TakesClose ws ws') : ¬Live ws' := by
  induction h with
  | refl =>
      unfold TakesClose at hclose
      rw [List.drop_length] at hclose
      exact absurd hclose List.not_mem_nil
  | @tail ws₁ ws₂ hmoves hmove ih =>
      obtain ⟨es, hes⟩ := hmove.trace_extends
      have hlen : ws.trace.length ≤ ws₁.trace.length := (Moves.trace_extends hmoves).length_le
      unfold TakesClose at hclose
      rw [← hes, List.drop_append_of_le_length hlen, List.mem_append] at hclose
      rcases hclose with hbefore | hnow
      · exact hmove.not_live (ih hbefore)
      · exact hmove.not_live_of_closeFrame hes.symm hnow

theorem Ends.not_live {env : Env} {ws : WebSocket} {events : List KEvent}
    (h : Ends env ws events) : ¬Live (events.foldl (handleEvent env) ws) := by
  obtain ⟨before, ev, after, rfl, hev, hstate⟩ := h
  have hrest : Moves env (handleEvent env (before.foldl (handleEvent env) ws) ev)
      ((before ++ ev :: after).foldl (handleEvent env) ws) := by
    rw [List.foldl_append, List.foldl_cons]
    exact .foldl_handleEvent after _
  exact hrest.not_live (not_live_handleEvent hev hstate)

theorem FailsToRead.not_live {env : Env} {ws : WebSocket} (h : FailsToRead env ws) :
    ¬Live (processTail env ws) := by
  obtain ⟨hstate, hssl, hreads⟩ := h
  have hgone : ¬Live (sslDrain env 200 0 false ws) := not_live_sslDrain 200 0 false hreads
  have hclosed : (sslDrain env 200 0 false ws).state ≠ .connected :=
    fun hconnected => hgone (Or.inr hconnected)
  have hdrained : drainTail env ws = sslDrain env 200 0 false ws := by
    unfold drainTail
    rw [if_pos ⟨hstate, hssl⟩]
    exact if_neg hclosed
  rwa [processTail_eq, hdrained, if_neg hclosed]

/-- A lost connection is not CONNECTED after the call. -/
theorem Loses.not_connected {env : Env} {ws : WebSocket} {events : List KEvent}
    (h : Loses env ws events) : (processCall env ws events).state ≠ .connected := by
  obtain ⟨hctx, hlost⟩ := h
  suffices hlive : ¬Live (processCall env ws events) from fun hstate => hlive (Or.inr hstate)
  rcases hlost with hends | hread | hclose
  · rw [processCall_eq hctx]
    exact (Moves.processTail _).not_live hends.not_live
  · rw [processCall_eq hctx]
    exact hread.not_live
  · have hmoves : Moves env ws (processCall env ws events) :=
      Moves.websocketProcess ws (some events)
    exact hmoves.not_live_of_takesClose hclose

/-! ## Every run -/

/-- No call starts a reconnection. -/
theorem PublicCall.idle (env : Env) {ws : WebSocket} (call : PublicCall) (h : ws.Idle) :
    (call.run env ws).Idle := by
  cases call with
  | connect url answers => exact (Steady.websocketConnect ws url answers).idle h
  | process events => exact (Standing.websocketProcess ws events).idle h
  | send data isText => exact (Steady.websocketSend ws data isText).idle h
  | close => exact (Steady.websocketClose ws).idle h
  | _ => exact ⟨h.attempts, h.waiting⟩

/-- A call of `websocket_process` that loses the connection schedules a reconnection, if it is
asked for and attempts are left. -/
def ReconnectsOnLoss (env : Env) (ws : WebSocket) : PublicCall → Prop
  | .process (some events) =>
    ws.reconnectConfig.autoReconnect = true → ws.retriesExceeded = false → Loses env ws events →
      Schedules ws (processCall env ws events)
  | _ => True

/-- No call loses a connection that is to be reconnected. -/
def KeepsConnection (env : Env) (ws : WebSocket) : PublicCall → Prop
  | .process (some events) =>
    ws.reconnectConfig.autoReconnect = true → ws.retriesExceeded = false → ¬Loses env ws events
  | _ => True

/-- A limit on the attempts is respected. -/
def WithinLimit (ws : WebSocket) : Prop :=
  0 < ws.reconnectConfig.maxRetries →
    ws.reconnectState.reconnectAttempts ≤ ws.reconnectConfig.maxRetries

/-- In every run of calls from `websocket_create` on, lost connections schedule a reconnection
if and only if no connection that is to be reconnected is lost. The limit is respected in any
case. -/
theorem reconnect_on_loss_iff (env : Env) (allocated : Bool) (calls : List PublicCall) :
    (Along (PublicCall.run env) (ReconnectsOnLoss env) (websocketCreate allocated) calls ↔
      Along (PublicCall.run env) (KeepsConnection env) (websocketCreate allocated) calls) ∧
    Always (PublicCall.run env) WithinLimit (websocketCreate allocated) calls := by
  have hcreate : (websocketCreate allocated).Idle := ⟨rfl, rfl⟩
  constructor
  · refine along_congr (fun ws call => call.idle env) ?_ hcreate
    intro ws call hidle
    have hnever (events : List KEvent) : ¬Schedules ws (processCall env ws events) := by
      intro hschedules
      have hwaiting : (processCall env ws events).reconnectState.isReconnecting = false :=
        (PublicCall.idle env (.process (some events)) hidle).waiting
      rw [hschedules.waiting] at hwaiting
      exact Bool.noConfusion hwaiting
    cases call with
    | process events =>
        cases events with
        | none => exact Iff.rfl
        | some events =>
            exact imp_congr_right fun _ => imp_congr_right fun _ =>
              ⟨fun hschedules hloses => hnever events (hschedules hloses),
                fun hkeeps hloses => absurd hloses hkeeps⟩
    | _ => exact Iff.rfl
  · intro before _ _
    have hidle : (before.foldl (PublicCall.run env) (websocketCreate allocated)).Idle :=
      foldl_invariant (fun ws call => call.idle env) hcreate before
    rw [hidle.attempts]
    exact UInt32.zero_le

/-- An accepted connection with `auto_reconnect`. -/
def reconnecting : List PublicCall :=
  .setReconnectConfig ⟨true, 0, 100, 30000, 2, true⟩ :: accepted

/-- The peer ends an accepted connection. It is CLOSED afterwards, and no reconnection is under
way, although one was asked for and there is no limit. -/
theorem lost_not_reconnected :
    let ws := runCalls (fun _ => { }) true reconnecting
    let events : List KEvent := [⟨0, 0, true, false, .read, .failed⟩]
    ws.state = .connected ∧ ws.reconnectConfig.autoReconnect = true ∧
      ws.retriesExceeded = false ∧ Loses (fun _ => { }) ws events ∧
      (processCall (fun _ => { }) ws events).state = .closed ∧
      ¬Schedules ws (processCall (fun _ => { }) ws events) := by
  intro ws events
  have hfacts : (ws.state = .connected ∧ ws.reconnectConfig.autoReconnect = true ∧
      ws.retriesExceeded = false ∧ ws.ioCtx.isSome = true ∧
      (ws.poll events).state = .connected) ∧
      (processCall (fun _ => { }) ws events).state = .closed ∧
      (processCall (fun _ => { }) ws events).reconnectState.isReconnecting = false := by
    decide +kernel
  obtain ⟨⟨hstate, hauto, hleft, hctx, hpolled⟩, hclosed, hwaiting⟩ := hfacts
  refine ⟨hstate, hauto, hleft, ⟨hctx, Or.inl ⟨[], _, [], rfl, Or.inl rfl, hpolled⟩⟩, hclosed, ?_⟩
  intro hschedules
  rw [hschedules.waiting] at hwaiting
  exact Bool.noConfusion hwaiting

end WebSocketHft

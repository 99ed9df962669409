import WebSocketHft.Verification.Frames.Alignment

/-! # CLOSE frames behind a callback that closes

A pass does not look at the state. A CLOSE frame finds the connection CLOSED if the
pass began so, or if the application has closed it when it was told of a frame
before. -/

namespace WebSocketHft

/-- The state in which a CLOSE frame has found the connection. -/
def Event.foundState? : Event → Option WSState
  | .closeFrame found => some found
  | _ => none

/-- What the application calls when it is told of the frame. A message is told to `on_message`,
a PONG to the log. -/
def Acting.answers (env : Env) (a : Acting) : List ApiCall :=
  if a.frame.opcode = wsOpcodeText ∨ a.frame.opcode = wsOpcodeBinary then
    if a.ws.onMessage then (env (sampleLatency env a.ws).tick).calls else []
  else if a.frame.opcode = wsOpcodePong then
    if a.ws.logCallback.isSome then (env (a.ws.tick + 1)).calls else []
  else []

/-- The state in which the frame finds the connection, if it is a CLOSE frame. -/
def Acting.found? (a : Acting) : Option WSState :=
  if a.frame.opcode = wsOpcodeClose then some a.ws.state else none

section Calls

variable (env : Env) (ws : WebSocket)

theorem state_foldl_run (calls : List ApiCall) :
    (calls.foldl (ApiCall.run env) ws).state =
      if ApiCall.close ∈ calls then .closed else ws.state := by
  induction calls generalizing ws with
  | nil => rfl
  | cons call calls ih =>
      rw [List.foldl_cons, ih]
      cases call with
      | send data isText =>
          have hsend : (ApiCall.run env ws (.send data isText)).state = ws.state :=
            (Quiet.websocketSend env ws (some data) isText).state
          simp [hsend]
      | close =>
          have hclose : (ApiCall.run env ws .close).state = .closed := websocketClose_state ws
          simp [hclose]

theorem state_callback (e : Event) :
    (ws.callback env e).state =
      if ApiCall.close ∈ (env ws.tick).calls then .closed else ws.state :=
  state_foldl_run env (ws.record e).pass (env ws.tick).calls

theorem tick_updateLatencySample (latencyNs : UInt64) :
    (updateLatencySample ws latencyNs).tick = ws.tick := by
  unfold updateLatencySample
  cases ws.latencySamples with
  | none => rfl
  | some samples =>
      dsimp only
      split_ifs <;> rfl

theorem tick_sampleLatency :
    (sampleLatency env ws).tick =
      if 0 < websocketGetLastNicTimestampNs ws then ws.tick + 1 else ws.tick := by
  unfold sampleLatency
  dsimp only
  rw [apply_ite WebSocket.tick, tick_updateLatencySample]
  rfl

theorem state_deliverMessage (payload : List UInt8) :
    (deliverMessage env ws payload).state =
      if ApiCall.close ∈ (if ws.onMessage then (env (sampleLatency env ws).tick).calls else [])
      then .closed else ws.state := by
  have hsampled : Quiet ws (sampleLatency env (ws.countReceived payload.length)) :=
    (Quiet.countReceived ws _).trans (Quiet.sampleLatency env _)
  have htick : (sampleLatency env (ws.countReceived payload.length)).tick =
      (sampleLatency env ws).tick := by
    rw [tick_sampleLatency, tick_sampleLatency]
    rfl
  unfold deliverMessage
  dsimp only
  rw [hsampled.onMessage]
  by_cases hset : ws.onMessage = true
  · rw [if_pos hset, if_pos hset, state_callback, htick, hsampled.state]
  · rw [if_neg hset, if_neg hset, if_neg List.not_mem_nil]
    exact hsampled.state

theorem state_notePong :
    (notePong env ws).state =
      if ApiCall.close ∈ (if ws.logCallback.isSome then (env (ws.tick + 1)).calls else [])
      then .closed else ws.state := by
  unfold notePong WebSocket.wsLog WebSocket.pass
  dsimp only
  cases ws.logCallback with
  | none => rfl
  | some userData => exact state_callback env _ _

end Calls

/-! ## One frame -/

section Frame

variable (env : Env) (a : Acting)

/-- One case for each kind of frame. -/
theorem actOnFrame_cases {P : WebSocket → Prop} (ws : WebSocket) (frame : WSFrame)
    (payload : List UInt8)
    (message : frame.opcode = wsOpcodeText ∨ frame.opcode = wsOpcodeBinary →
      P (deliverMessage env ws payload))
    (ping : frame.opcode = wsOpcodePing → P (websocketSendPong env ws payload).2)
    (pong : frame.opcode = wsOpcodePong → P (notePong env ws))
    (close : frame.opcode = wsOpcodeClose → P ws.receiveClose)
    (other : ¬(frame.opcode = wsOpcodeText ∨ frame.opcode = wsOpcodeBinary) →
      frame.opcode ≠ wsOpcodePong → frame.opcode ≠ wsOpcodeClose → P ws) :
    P (actOnFrame env ws frame payload) := by
  unfold actOnFrame
  split_ifs with hmsg hping hpong hclose
  · exact message hmsg
  · exact ping hping
  · exact pong hpong
  · exact close hclose
  · exact other hmsg hpong hclose

theorem ne_close_of_message {opcode : UInt8}
    (h : opcode = wsOpcodeText ∨ opcode = wsOpcodeBinary) : opcode ≠ wsOpcodeClose := by
  rcases h with rfl | rfl <;> decide

theorem Acting.state_after :
    (a.after env).state =
      if ApiCall.close ∈ a.answers env then .closed
      else if a.frame.opcode = wsOpcodeClose then .closing else a.ws.state := by
  obtain ⟨buf, heq, -⟩ := handleFrame_eq env a.ws a.frame a.start le_rfl
  rw [Acting.after, heq, withRx_state, Acting.answers]
  refine actOnFrame_cases (P := fun ws' : WebSocket => ws'.state = _) env a.ws a.frame _
    ?_ ?_ ?_ ?_ ?_
  · intro hmsg
    rw [if_pos hmsg, if_neg (ne_close_of_message hmsg), state_deliverMessage]
  · intro hping
    rw [hping]
    exact (Quiet.websocketSendPong env a.ws _).state
  · intro hpong
    rw [hpong]
    exact state_notePong env a.ws
  · intro hclose
    rw [hclose]
    rfl
  · intro hmsg hpong hclose
    rw [if_neg hmsg, if_neg hpong, if_neg List.not_mem_nil, if_neg hclose]

theorem Aside.found_eq {ws ws' : WebSocket} (h : Aside ws ws') :
    ws'.trace.filterMap Event.foundState? = ws.trace.filterMap Event.foundState? := by
  obtain ⟨es, htrace, hes⟩ := h.events
  have hnone : es.filterMap Event.foundState? = [] := by
    refine List.filterMap_eq_nil_iff.mpr fun e he => ?_
    cases e with
    | closeFrame found => exact Bool.noConfusion (hes _ he)
    | _ => rfl
  rw [htrace, List.filterMap_append, hnone, List.append_nil]

theorem found_deliverMessage (ws : WebSocket) (payload : List UInt8) :
    (deliverMessage env ws payload).trace.filterMap Event.foundState? =
      ws.trace.filterMap Event.foundState? := by
  have hsampled : Aside ws (sampleLatency env (ws.countReceived payload.length)) :=
    ((Quiet.countReceived ws _).trans (Quiet.sampleLatency env _)).aside
  unfold deliverMessage
  dsimp only
  generalize sampleLatency env (ws.countReceived payload.length) = ws₁ at hsampled ⊢
  have hcalls : Aside (ws₁.record (.message payload ws₁.callbackUserData)).pass
      (ws₁.callback env (.message payload ws₁.callbackUserData)) := Aside.foldl_run _ _
  split_ifs
  · rw [hcalls.found_eq, ← hsampled.found_eq]
    exact List.filterMap_append.trans (List.append_nil _)
  · exact hsampled.found_eq

/-- Only a CLOSE frame is recorded, with the state it finds. -/
theorem Acting.found_after :
    (a.after env).trace.filterMap Event.foundState? =
      a.ws.trace.filterMap Event.foundState? ++ a.found?.toList := by
  obtain ⟨buf, heq, -⟩ := handleFrame_eq env a.ws a.frame a.start le_rfl
  have hother {ws' : WebSocket} (hclose : a.frame.opcode ≠ wsOpcodeClose)
      (h : ws'.trace.filterMap Event.foundState? = a.ws.trace.filterMap Event.foundState?) :
      ws'.trace.filterMap Event.foundState? =
        a.ws.trace.filterMap Event.foundState? ++ a.found?.toList := by
    rw [h, Acting.found?, if_neg hclose]
    exact (List.append_nil _).symm
  rw [Acting.after, heq, withRx_trace]
  refine actOnFrame_cases
    (P := fun ws' : WebSocket => ws'.trace.filterMap Event.foundState? = _) env a.ws a.frame _
    ?_ ?_ ?_ ?_ ?_
  · exact fun hmsg => hother (ne_close_of_message hmsg) (found_deliverMessage env a.ws _)
  · exact fun hping => hother (by rw [hping]; decide)
      (Quiet.websocketSendPong env a.ws _).aside.found_eq
  · exact fun hpong => hother (by rw [hpong]; decide) (Aside.notePong a.ws).found_eq
  · intro hclose
    rw [WebSocket.receiveClose, (Aside.setState _ _).found_eq, Acting.found?, if_pos hclose]
    exact List.filterMap_append
  · exact fun _ _ hclose => hother hclose rfl

end Frame

/-! ## One pass -/

section Pass

variable {env : Env} {ws : WebSocket} {start : ℕ} {acted : List Acting}

theorem found_afterAll (h : BackToBack env ws start acted) :
    (afterAll env ws acted).trace.filterMap Event.foundState? =
      ws.trace.filterMap Event.foundState? ++ acted.filterMap Acting.found? := by
  induction acted generalizing ws start with
  | nil => exact (List.append_nil _).symm
  | cons a acted ih =>
      obtain ⟨rfl, -, hrest⟩ := h
      have hstep : afterAll env a.ws (a :: acted) = afterAll env (a.after env) acted := rfl
      rw [hstep, ih hrest, a.found_after, List.append_assoc, List.filterMap_cons]
      cases a.found? <;> rfl

/-- A CLOSE frame finds the connection CLOSED exactly if one comes behind a frame whose callback
closes, or in a pass that began so. Only the first of them finds it CLOSED. -/
theorem found_closed_iff (h : BackToBack env ws start acted) :
    WSState.closed ∈ acted.filterMap Acting.found? ↔
      ∃ front a rest, acted = front ++ a :: rest ∧ a.frame.opcode = wsOpcodeClose ∧
        (ws.state = .closed ∨ ∃ b ∈ front, ApiCall.close ∈ b.answers env) := by
  induction acted generalizing ws start with
  | nil => simp
  | cons a acted ih =>
      obtain ⟨rfl, -, hrest⟩ := h
      have hafter := a.state_after env
      have hfirst : WSState.closed ∈ (a :: acted).filterMap Acting.found? ↔
          a.frame.opcode = wsOpcodeClose ∧ a.ws.state = .closed ∨
            WSState.closed ∈ acted.filterMap Acting.found? := by
        by_cases hclose : a.frame.opcode = wsOpcodeClose
        · simp [Acting.found?, hclose, eq_comm]
        · simp [Acting.found?, hclose]
      rw [hfirst, ih hrest]
      constructor
      · rintro (⟨hclose, hstate⟩ | ⟨front, b, rest, rfl, hclose, hwhy⟩)
        · exact ⟨[], a, acted, rfl, hclose, Or.inl hstate⟩
        · refine ⟨a :: front, b, rest, rfl, hclose, ?_⟩
          rcases hwhy with hclosed | ⟨c, hc, hcalls⟩
          · by_cases hcalls : ApiCall.close ∈ a.answers env
            · exact Or.inr ⟨a, List.mem_cons_self, hcalls⟩
            · rw [hafter, if_neg hcalls] at hclosed
              split_ifs at hclosed
              exact Or.inl hclosed
          · exact Or.inr ⟨c, List.mem_cons_of_mem _ hc, hcalls⟩
      · rintro ⟨front, b, rest, hsplit, hclose, hwhy⟩
        cases front with
        | nil =>
            obtain ⟨rfl, rfl⟩ := List.cons_eq_cons.mp hsplit
            exact Or.inl ⟨hclose, hwhy.resolve_right (by simp)⟩
        | cons first front =>
            obtain ⟨rfl, rfl⟩ := List.cons_eq_cons.mp hsplit
            by_cases hcalls : ApiCall.close ∈ a.answers env
            · rw [if_pos hcalls] at hafter
              exact Or.inr ⟨front, b, rest, rfl, hclose, Or.inl hafter⟩
            · rw [if_neg hcalls] at hafter
              rcases hwhy with hclosed | ⟨c, hc, hcalls'⟩
              · by_cases hhere : a.frame.opcode = wsOpcodeClose
                · exact Or.inl ⟨hhere, hclosed⟩
                · rw [if_neg hhere, hclosed] at hafter
                  exact Or.inr ⟨front, b, rest, rfl, hclose, Or.inl hafter⟩
              · rcases List.mem_cons.mp hc with rfl | hc
                · exact absurd hcalls' hcalls
                · exact Or.inr ⟨front, b, rest, rfl, hclose, Or.inr ⟨c, hc, hcalls'⟩⟩

theorem Skips.found_eq {ws' : WebSocket} (h : Skips env ws ws') :
    ws'.trace.filterMap Event.foundState? = ws.trace.filterMap Event.foundState? := by
  cases h with
  | nothing => rfl
  | error offset =>
      have hlog : Aside ws.countFrameError.countError (parseError env ws offset) :=
        Aside.wsLog _ _ _
      exact hlog.found_eq
  | empty => rfl

end Pass

/-- In one call of `process_frames` a CLOSE frame is handled in the state CLOSED exactly if the
pass acts on a CLOSE frame behind a frame whose callback closes the connection, or acts on one
and began in CLOSED. -/
theorem processFrames_found_closed (env : Env) (ws : WebSocket) (hvalid : ws.rxRing.Valid)
    (hsize : ws.rxRing.size < 2 ^ 63) :
    ∃ es, (processFrames env ws).trace = ws.trace ++ es ∧
      (Event.closeFrame .closed ∈ es ↔
        ∃ front a rest, actedFrames env ws = front ++ a :: rest ∧
          a.frame.opcode = wsOpcodeClose ∧
          (ws.state = .closed ∨ ∃ b ∈ front, ApiCall.close ∈ b.answers env)) := by
  obtain ⟨ws', buf, haligned, -, hpass⟩ := processFrames_aligned env ws hvalid hsize
  obtain ⟨es, hes⟩ := (Moves.processFrames ws : Moves env _ _).trace_extends
  have hstart : (passStart ws).trace.filterMap Event.foundState? =
      ws.trace.filterMap Event.foundState? ∧ (passStart ws).state = ws.state := by
    unfold passStart
    split_ifs
    · exact ⟨rfl, rfl⟩
    · exact ⟨List.filterMap_append.trans (List.append_nil _), rfl⟩
  have hfound : es.filterMap Event.foundState? =
      (actedFrames env ws).filterMap Acting.found? := by
    have hall : (processFrames env ws).trace.filterMap Event.foundState? =
        ws.trace.filterMap Event.foundState? ++
          (actedFrames env ws).filterMap Acting.found? := by
      rw [hpass, ← hstart.1, ← found_afterAll haligned.backToBack]
      exact haligned.skips.found_eq
    rw [← hes, List.filterMap_append] at hall
    exact List.append_cancel_left hall
  have hmem : Event.closeFrame .closed ∈ es ↔
      WSState.closed ∈ es.filterMap Event.foundState? := by
    rw [List.mem_filterMap]
    constructor
    · exact fun h => ⟨_, h, rfl⟩
    · rintro ⟨e, he, hstate⟩
      cases e with
      | closeFrame found =>
          cases hstate
          exact he
      | _ => cases hstate
  refine ⟨es, hes.symm, ?_⟩
  rw [hmem, hfound, found_closed_iff haligned.backToBack, hstart.2]

end WebSocketHft

import WebSocketHft.Verification.Runs.States

/-! # Connections that are over

In the states CLOSING and CLOSED `websocket_process` still reads into the receive
ring, and does nothing else. A CLOSE frame of the peer therefore ends what the
application hears of a connection, but not the connection: nothing closes the
socket before the application does. -/

namespace WebSocketHft

variable {env : Env} {ws ws' ws'' : WebSocket}

/-- Outside CONNECTED nothing is sent. -/
theorem websocketSend_of_ne_connected (h : ws.state ≠ .connected) (data : Option (List UInt8))
    (isText : Bool) : websocketSend env ws data isText = (-1, ws) := by
  cases data with
  | none => rfl
  | some data => simp only [websocketSend, if_pos (Or.inr h)]

/-- From `ws` to `ws'` bytes have been read, and nothing else has happened. -/
structure StaysSilent (ws ws' : WebSocket) : Prop where
  state : ws'.state = ws.state
  fd : ws'.fd = ws.fd
  txRing : ws'.txRing = ws.txRing
  slots : ws'.ioCtx.map slotFds = ws.ioCtx.map slotFds
  events : ∃ es, ws'.trace = ws.trace ++ es ∧ ∀ e ∈ es, ∃ bytes, e = .received bytes

namespace StaysSilent

theorem trans (h : StaysSilent ws ws') (h' : StaysSilent ws' ws'') : StaysSilent ws ws'' := by
  obtain ⟨es, htrace, hes⟩ := h.events
  obtain ⟨es', htrace', hes'⟩ := h'.events
  refine ⟨h'.state.trans h.state, h'.fd.trans h.fd, h'.txRing.trans h.txRing,
    h'.slots.trans h.slots, es ++ es', ?_, List.forall_mem_append.mpr ⟨hes, hes'⟩⟩
  rw [htrace', htrace, List.append_assoc]

theorem keep (h : ws'.outline = ws.outline) : StaysSilent ws ws' :=
  ⟨congrArg Outline.state h, congrArg Outline.fd h, congrArg Outline.txRing h,
    congrArg Outline.slots h, [], (congrArg Outline.trace h).trans (List.append_nil _).symm,
    by simp⟩

theorem refl (ws : WebSocket) : StaysSilent ws ws := keep rfl

theorem readIo (ws : WebSocket) (socketIndex : ℤ) (recv : RecvResult) :
    StaysSilent ws (ws.readIo socketIndex recv).2 :=
  ⟨rfl, rfl, rfl, (ioRead_keeps ws.ioCtx socketIndex ws.rxRing recv).1, [.received _], rfl,
    by simp⟩

theorem readSsl (ws : WebSocket) : StaysSilent ws (ws.readSsl env).2 :=
  ⟨rfl, rfl, rfl, rfl, [.received _], rfl, by simp⟩

/-- An event of a connection that is over is at most read. -/
theorem handleEvent (h : ¬Live ws) (ev : KEvent) :
    StaysSilent ws (WebSocketHft.handleEvent env ws ev) := by
  have hover : ¬(ws.state = .connected ∨ ws.state = .connecting) := fun hlive => h hlive.symm
  have hread : StaysSilent ws
      (if ws.useSsl then (ws.readSsl env).2 else (ws.readIo ev.udata ev.recv).2) := by
    split_ifs
    · exact readSsl ws
    · exact readIo ws _ _
  unfold WebSocketHft.handleEvent
  by_cases hgone : ev.eof ∨ ev.error
  · rw [if_pos hgone, if_neg hover]
    exact refl ws
  · rw [if_neg hgone]
    by_cases hfilter : ev.filter = .read
    · rw [if_pos hfilter]
      dsimp only
      generalize (if ws.useSsl then (ws.readSsl env).2 else (ws.readIo ev.udata ev.recv).2) = seen
        at hread ⊢
      have hconnecting : seen.state ≠ .connecting := fun heq => h (Or.inl (hread.state ▸ heq))
      have hconnected : seen.state ≠ .connected := fun heq => h (Or.inr (hread.state ▸ heq))
      rw [if_neg hconnecting, if_neg hconnected]
      exact hread
    · rw [if_neg hfilter]
      exact refl ws

theorem not_live (h : StaysSilent ws ws') (hws : ¬Live ws) : ¬Live ws' := by
  rwa [Live, h.state]

theorem foldl_handleEvent (h : ¬Live ws) (events : List KEvent) :
    StaysSilent ws (events.foldl (WebSocketHft.handleEvent env) ws) := by
  induction events generalizing ws with
  | nil => exact refl ws
  | cons ev events ih =>
      have hfirst : StaysSilent ws (WebSocketHft.handleEvent env ws ev) := handleEvent h ev
      exact hfirst.trans (ih (hfirst.not_live h))

theorem ne_connected (h : ¬Live ws) : ws.state ≠ .connected := fun heq => h (Or.inr heq)

theorem websocketProcess (h : ¬Live ws) (events : Option (List KEvent)) :
    StaysSilent ws (WebSocketHft.websocketProcess env ws events).2 := by
  unfold WebSocketHft.websocketProcess
  cases hctx : ws.ioCtx with
  | none => exact refl ws
  | some ctx =>
      have hpolled : StaysSilent ws { ws with ioCtx := some (ioPoll ctx events).2 } :=
        keep (by simp [WebSocket.outline, slotFds, hctx, sockets_ioPoll])
      cases events with
      | none => exact hpolled
      | some events =>
          have hevents : StaysSilent ws (events.foldl (WebSocketHft.handleEvent env) _) :=
            hpolled.trans (foldl_handleEvent (hpolled.not_live h) events)
          dsimp only
          rw [processTail_of_ne_connected (ne_connected (hevents.not_live h))]
          exact hevents

theorem websocketSend (h : ¬Live ws) (data : Option (List UInt8)) (isText : Bool) :
    WebSocketHft.websocketSend env ws data isText = (-1, ws) :=
  websocketSend_of_ne_connected (ne_connected h) data isText

end StaysSilent

/-- The call neither connects nor, in the state CLOSING, closes. -/
def PublicCall.LeavesOver (ws : WebSocket) : PublicCall → Prop
  | .connect _ _ => False
  | .close => ws.state = .closed
  | _ => True

theorem PublicCall.silent (env : Env) (h : ¬Live ws) {call : PublicCall}
    (hcall : call.LeavesOver ws) : StaysSilent ws (call.run env ws) := by
  cases call with
  | connect url answers => exact hcall.elim
  | process events => exact .websocketProcess h events
  | send data isText =>
      change StaysSilent ws (websocketSend env ws data isText).2
      rw [StaysSilent.websocketSend h]
      exact .refl ws
  | close =>
      have hclosed : websocketClose ws = ws := if_pos hcall
      change StaysSilent ws (websocketClose ws)
      rw [hclosed]
      exact .refl ws
  | _ => exact .keep rfl

/-- A connection in the state CLOSING or CLOSED, over every sequence of calls without a new
connection, and in the state CLOSING without `websocket_close`: whatever the peer sends and
whatever events occur, the end of the stream included, no callback is made, nothing is queued
or sent, every `websocket_send` fails, and the state, the socket and its registration stay. -/
theorem over_is_silent (env : Env) (ws : WebSocket) (h : ¬Live ws) (calls : List PublicCall)
    (hcalls : ∀ call ∈ calls, call.LeavesOver ws) :
    let ws' := calls.foldl (PublicCall.run env) ws
    StaysSilent ws ws' ∧ ∀ data isText, websocketSend env ws' data isText = (-1, ws') := by
  have hsilent : StaysSilent ws (calls.foldl (PublicCall.run env) ws) := by
    induction calls generalizing ws with
    | nil => exact .refl ws
    | cons call calls ih =>
        have hfirst : StaysSilent ws (call.run env ws) :=
          call.silent env h (hcalls call List.mem_cons_self)
        refine hfirst.trans (ih _ (hfirst.not_live h) fun call' hmem => ?_)
        have hlater := hcalls call' (List.mem_cons_of_mem _ hmem)
        cases call' with
        | connect url answers => exact hlater
        | close => exact hfirst.state.trans hlater
        | _ => trivial
  exact ⟨hsilent, fun data isText => StaysSilent.websocketSend (hsilent.not_live h) data isText⟩

/-- The peer says goodbye, sends a message and hangs up: the connection stays CLOSING with its
socket open, and the application is not told. -/
theorem over_after_close_frame :
    let ws := (peerSends [0x88, 0x00]).run (fun _ => {})
      (runCalls (fun _ => {}) true (.setOnError true 7 :: accepted))
    let calls := [peerSends [0x81, 0x01, 0x41],
      .process (some [⟨0, 0, true, false, .read, .failed⟩]), .send (some [0x42]) true]
    let ws' := calls.foldl (PublicCall.run fun _ => {}) ws
    ws.state = .closing ∧ ws'.state = .closing ∧ 0 ≤ ws'.fd ∧ ws'.txRing = ws.txRing := by
  intro ws calls ws'
  have hstate : ws.state = .closing := by decide +kernel
  have hfd : 0 ≤ ws.fd := by decide +kernel
  have hover : ¬Live ws := by simp [Live, hstate]
  have hcalls (ws : WebSocket) : ∀ call ∈ calls, call.LeavesOver ws := by
    simp [calls, peerSends, PublicCall.LeavesOver]
  have hsilent : StaysSilent ws ws' := (over_is_silent (fun _ => {}) ws hover calls (hcalls ws)).1
  exact ⟨hstate, hsilent.state.trans hstate, hfd.trans_eq hsilent.fd.symm, hsilent.txRing⟩

end WebSocketHft

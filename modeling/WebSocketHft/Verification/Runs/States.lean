import Mathlib.Data.List.Chain
import WebSocketHft.Verification.Frames.Closing
import WebSocketHft.Verification.Runs.Moves

/-! # The states a connection goes through

Every assignment to `ws->state` is recorded, so a run tells the states it goes
through. Without `websocket_connect` the state CLOSED is left in one way only: a
CLOSE frame is handled when the connection is already CLOSED. -/

namespace WebSocketHft

/-- The state that an event assigns. -/
def Event.newState? : Event → Option WSState
  | .state _ after => some after
  | _ => none

/-- The states a connection goes through, from `state` on. -/
def states (state : WSState) (es : List Event) : List WSState :=
  state :: es.filterMap Event.newState?

/-- Once CLOSED, a connection stays CLOSED. -/
def ClosedStays (l : List WSState) : Prop := l.Pairwise fun a b => a = .closed → b = .closed

/-- Going from `ws` to `ws'` with these events, the connection ends in its last state, and leaves
CLOSED exactly if a CLOSE frame finds it there. -/
structure Passes (ws ws' : WebSocket) (es : List Event) : Prop where
  trace_eq : ws'.trace = ws.trace ++ es
  last : ∃ before, states ws.state es = before ++ [ws'.state]
  closed_iff : ClosedStays (states ws.state es) ↔ Event.closeFrame .closed ∉ es

/-- An event that tells nothing about states. -/
def Event.isStill : Event → Bool
  | .state _ _ => false
  | .closeFrame _ => false
  | _ => true

theorem newState?_of_isStill {e : Event} (h : e.isStill) : e.newState? = none := by
  cases e with
  | state before after => cases h
  | _ => rfl

theorem Event.isStill_of_isQuiet {e : Event} (h : e.isQuiet) : e.isStill := by
  cases e with
  | state before after => cases h
  | closeFrame state => cases h
  | _ => rfl

theorem Event.isStill_of_isNeutral {e : Event} (h : e.isNeutral) : e.isStill := by
  cases e with
  | state before after => cases h
  | closeFrame state => cases h
  | _ => rfl

/-- The last state of one stretch is the first one of the next. -/
theorem closedStays_append {before rest : List WSState} {state : WSState} :
    ClosedStays (before ++ state :: rest) ↔
      ClosedStays (before ++ [state]) ∧ ClosedStays (state :: rest) := by
  let R : WSState → WSState → Prop := fun a b => a = .closed → b = .closed
  have htrans : Trans R R R := ⟨fun hab hbc ha => hbc (hab ha)⟩
  have hchain (l : List WSState) : ClosedStays l ↔ l.IsChain R :=
    (List.isChain_iff_pairwise (R := R)).symm
  rw [hchain, hchain, hchain]
  exact List.isChain_split

namespace Passes

variable {env : Env} {ws ws' ws'' : WebSocket} {es es' : List Event}

theorem trans (h : Passes ws ws' es) (h' : Passes ws' ws'' es') : Passes ws ws'' (es ++ es') := by
  obtain ⟨before, hbefore⟩ := h.last
  obtain ⟨before', hbefore'⟩ := h'.last
  have hstates : states ws.state (es ++ es') =
      before ++ ws'.state :: es'.filterMap Event.newState? := by
    have hsplit : states ws.state (es ++ es') =
        states ws.state es ++ es'.filterMap Event.newState? := by
      rw [states, List.filterMap_append]
      rfl
    rw [hsplit, hbefore, List.append_assoc]
    rfl
  refine ⟨by rw [h'.trace_eq, h.trace_eq, List.append_assoc], ?_, ?_⟩
  · refine ⟨before ++ before', ?_⟩
    rw [hstates, List.append_assoc, ← hbefore']
    rfl
  · rw [hstates, closedStays_append, ← hbefore, h.closed_iff, List.mem_append, not_or]
    exact and_congr_right fun _ => h'.closed_iff

/-- Steps that tell nothing about states. -/
theorem still (htrace : ws'.trace = ws.trace ++ es) (hstate : ws'.state = ws.state)
    (hes : ∀ e ∈ es, e.isStill) : Passes ws ws' es := by
  have hstates : states ws.state es = [ws.state] := by
    rw [states, List.filterMap_eq_nil_iff.mpr fun e he => newState?_of_isStill (hes e he)]
  have hframe : Event.closeFrame .closed ∉ es := fun hmem => Bool.noConfusion (hes _ hmem)
  refine ⟨htrace, ⟨[], by rw [hstates, hstate]; rfl⟩, ?_⟩
  rw [hstates]
  exact iff_of_true (List.pairwise_singleton _ _) hframe

theorem quiet (h : Quiet ws ws') : ∃ es, Passes ws ws' es := by
  obtain ⟨es, htrace, hes⟩ := h.events
  exact ⟨es, still htrace h.state fun e he => Event.isStill_of_isQuiet (hes e he)⟩

theorem setState (ws : WebSocket) {state : WSState} (h : ws.state = .closed → state = .closed) :
    Passes ws (ws.setState state) [.state ws.state state] := by
  refine ⟨rfl, ⟨[ws.state], rfl⟩, iff_of_true ?_ (by simp)⟩
  exact List.pairwise_pair.mpr h

theorem close (ws : WebSocket) : ∃ es, Passes ws (websocketClose ws) es := by
  unfold websocketClose
  split_ifs
  · exact ⟨[], still (List.append_nil _).symm rfl (by simp)⟩
  · have hsocket : Passes ws ws.closeSocket _ :=
      still (trace_closeSocket ws) rfl (by simp [Event.isStill])
    exact ⟨_, hsocket.trans (setState _ fun _ => rfl)⟩
  · exact ⟨_, setState ws fun _ => rfl⟩

/-- A CLOSE frame leads to CLOSING from wherever it finds the connection. -/
theorem receiveClose (ws : WebSocket) :
    Passes ws ws.receiveClose [.closeFrame ws.state, .state ws.state .closing] := by
  refine ⟨List.append_assoc _ _ _, ⟨[ws.state], rfl⟩, ?_⟩
  have hpair : ClosedStays (states ws.state [.closeFrame ws.state, .state ws.state .closing]) ↔
      (ws.state = .closed → WSState.closing = .closed) := List.pairwise_pair
  rw [hpair]
  cases ws.state <;> decide

theorem move (h : Move env ws ws') : ∃ es, Passes ws ws' es := by
  cases h with
  | keep heq =>
      refine ⟨[], still ?_ (congrArg Outline.state heq) (by simp)⟩
      rw [List.append_nil]
      exact congrArg Outline.trace heq
  | observe he => exact ⟨_, still rfl rfl (by simpa using Event.isStill_of_isNeutral he)⟩
  | readSsl => exact ⟨_, still rfl rfl (by simp [Event.isStill])⟩
  | writeSsl => exact quiet (Quiet.writeSsl env ws)
  | writeIo => exact quiet (Quiet.writeIo env ws)
  | send data isText => exact quiet (Quiet.websocketSend env ws data isText)
  | pong payload => exact quiet (Quiet.websocketSendPong env ws payload)
  | ping => exact quiet (quiet_queuePing ws)
  | close => exact close ws
  | accept hstate =>
      have hrecord : Passes ws (ws.record (.connected ws.rxRing.queue)) _ :=
        still rfl rfl (by simp [Event.isStill])
      refine ⟨_, hrecord.trans (setState _ fun hclosed => ?_)⟩
      exact absurd (hstate.symm.trans hclosed) (by decide)
  | receiveClose => exact ⟨_, receiveClose ws⟩
  | gone hlive => exact ⟨_, setState ws fun _ => rfl⟩

/-- Whatever a connection does without `websocket_connect`. -/
theorem moves (h : Moves env ws ws') : ∃ es, Passes ws ws' es := by
  induction h with
  | refl => exact ⟨[], still (List.append_nil _).symm rfl (by simp)⟩
  | tail _ hmove ih =>
      obtain ⟨es, hpasses⟩ := ih
      obtain ⟨es', hlast⟩ := move hmove
      exact ⟨es ++ es', hpasses.trans hlast⟩

end Passes

/-- In every run without `websocket_connect`, from any state of the connection on, CLOSED is
not left exactly if no CLOSE frame is handled in the state CLOSED. A pass over the receive ring
handles one so exactly if it acts on a CLOSE frame behind a frame whose callback closes the
connection, or acts on one and began in CLOSED. -/
theorem closed_stays_iff (env : Env) (ws : WebSocket) (calls : List PublicCall)
    (hcalls : ∀ call ∈ calls, ∀ url answers, call ≠ .connect url answers) :
    (∃ es, (calls.foldl (PublicCall.run env) ws).trace = ws.trace ++ es ∧
      (states ws.state es).getLast? = some (calls.foldl (PublicCall.run env) ws).state ∧
      ((states ws.state es).Pairwise (fun a b => a = .closed → b = .closed) ↔
        Event.closeFrame .closed ∉ es)) ∧
    ∀ pass : WebSocket, pass.rxRing.Valid → pass.rxRing.size < 2 ^ 63 →
      ∃ es, (processFrames env pass).trace = pass.trace ++ es ∧
        (Event.closeFrame .closed ∈ es ↔
          ∃ front a rest, actedFrames env pass = front ++ a :: rest ∧
            a.frame.opcode = wsOpcodeClose ∧
            (pass.state = .closed ∨ ∃ b ∈ front, ApiCall.close ∈ b.answers env)) := by
  obtain ⟨es, hpasses⟩ := Passes.moves (Moves.foldl_calls env ws hcalls)
  have hlast : (states ws.state es).getLast? =
      some (calls.foldl (PublicCall.run env) ws).state :=
    List.getLast?_eq_some_iff.mpr hpasses.last
  exact ⟨⟨es, hpasses.trace_eq, hlast, hpasses.closed_iff⟩,
    fun pass hvalid hsize => processFrames_found_closed env pass hvalid hsize⟩

/-- A connection whose application wants messages has been accepted. -/
def accepted : List PublicCall :=
  [.setOnMessage true 0, .connect (ascii "ws://h/") {},
    .process (some [⟨0, 0, false, false, .read, .received (ascii ("HTTP/1.1 101 OK\r\n" ++
      "Upgrade: websocket\r\nConnection: Upgrade\r\n\r\n")) none⟩])]

/-- The peer has sent these bytes. -/
def peerSends (bytes : List UInt8) : PublicCall :=
  .process (some [⟨0, 0, false, false, .read, .received bytes none⟩])

/-- The application closes the connection when it gets the message `Hi`. Nothing follows, and
the connection stays CLOSED. -/
theorem closed_stays_after_message :
    let env : Env := fun _ => { calls := [.close] }
    let ws := runCalls env true accepted
    ∃ es, ([peerSends [0x81, 0x02, 0x48, 0x69]].foldl (PublicCall.run env) ws).trace =
        ws.trace ++ es ∧
      es.filterMap Event.newState? = [.closed] ∧
      (states ws.state es).Pairwise fun a b => a = .closed → b = .closed := by
  intro env ws
  obtain ⟨es, htrace, -, hiff⟩ :=
    (closed_stays_iff env ws [peerSends [0x81, 0x02, 0x48, 0x69]] (by simp [peerSends])).1
  have hes : es = ([peerSends [0x81, 0x02, 0x48, 0x69]].foldl (PublicCall.run env) ws).trace.drop
      ws.trace.length := by rw [htrace, List.drop_left]
  have hfacts : (([peerSends [0x81, 0x02, 0x48, 0x69]].foldl (PublicCall.run env) ws).trace.drop
      ws.trace.length).filterMap Event.newState? = [.closed] ∧
      Event.closeFrame .closed ∉
        ([peerSends [0x81, 0x02, 0x48, 0x69]].foldl (PublicCall.run env) ws).trace.drop
          ws.trace.length := by
    decide +kernel
  rw [← hes] at hfacts
  exact ⟨es, htrace, hfacts.1, hiff.mpr hfacts.2⟩

/-- The same message and a CLOSE frame behind it: the application closes the connection, and
the CLOSE frame takes it from CLOSED to CLOSING. -/
theorem close_frame_leaves_closed :
    let env : Env := fun _ => { calls := [.close] }
    let ws := runCalls env true (accepted ++ [peerSends [0x81, 0x02, 0x48, 0x69, 0x88, 0x00]])
    ws.state = .closing ∧
      ws.trace.filterMap Event.newState? = [.connecting, .connected, .closed, .closing] := by
  decide +kernel

end WebSocketHft

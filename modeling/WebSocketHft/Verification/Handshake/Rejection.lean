import WebSocketHft.Verification.Handshake.Cuts
import WebSocketHft.Verification.Handshake.Verdict
import WebSocketHft.Verification.Runs.Callbacks

/-! # A response that is rejected

`websocket_process` acts on a negative verdict only if more than 200 bytes are
buffered and `HTTP` stands among them. Then the connection is closed and the
error reported once; otherwise it goes on waiting. -/

namespace WebSocketHft

open WebSocketHft.Substring

/-- The gate before a negative verdict is acted on. -/
def Substantial (rb : RingBuffer) : Prop :=
  200 < ringbufferReadable rb ∧ (findInfix (ascii "HTTP") (cStringAt rb rb.readPtr)).isSome

instance (rb : RingBuffer) : Decidable (Substantial rb) :=
  inferInstanceAs (Decidable (_ ∧ _))

/-- The report of a failed handshake. -/
def handshakeFailed (ws : WebSocket) : List Event :=
  if ws.onError then [.error (-1) "Handshake failed: invalid HTTP response" ws.callbackUserData]
  else []

section Step

variable {env : Env} {ws : WebSocket}

/-- What a negative verdict leads to. -/
theorem handshakeStep_rejected
    (h : (parseHandshakeResponse ws.rxRing (env ws.tick).allocated).1 = -1) :
    handshakeStep env ws =
      if Substantial ws.rxRing then
        websocketClose
          (if ws.onError then
            ws.pass.callback env
              (.error (-1) "Handshake failed: invalid HTTP response" ws.callbackUserData)
          else ws.pass)
      else ws.pass := by
  have hparse : parseHandshakeResponse ws.rxRing (env ws.tick).allocated = (-1, ws.rxRing) :=
    parseHandshakeResponse_of_rejects ((parseHandshakeResponse_verdict _ _).2.mp h)
  have hpos : 0 < (ringbufferReadInline ws.rxRing).len := by
    by_contra hnot
    have hempty : ringbufferReadable ws.rxRing < 12 := by
      change ¬0 < ringbufferReadable ws.rxRing at hnot
      omega
    rw [parseHandshakeResponse_short _ hempty] at h
    exact absurd h (show ¬(1 : ℤ) = -1 by decide)
  have hgate : ((-1 : ℤ) < 0 ∧ 200 < (ringbufferReadInline ws.rxRing).len ∧
      (findInfix (ascii "HTTP") (cStringAt ws.rxRing (ringbufferReadInline ws.rxRing).data)).isSome) ↔
      Substantial ws.rxRing := and_iff_right (by decide)
  have hne : ¬(-1 : ℤ) = 0 := by decide
  unfold handshakeStep
  dsimp only
  rw [if_pos hpos, hparse]
  dsimp only
  rw [if_neg hne]
  by_cases hmany : Substantial ws.rxRing
  · rw [if_pos hmany]
    exact if_pos (hgate.mpr hmany)
  · rw [if_neg hmany]
    exact if_neg (mt hgate.mp hmany)

/-- A connection that is CLOSED stays so and tells nothing, whatever event comes. -/
theorem handleEvent_of_closed (hstate : ws.state = .closed) (ev : KEvent) :
    (handleEvent env ws ev).state = .closed ∧ (handleEvent env ws ev).callbacks = ws.callbacks := by
  have hlive : ¬(ws.state = .connected ∨ ws.state = .connecting) := by simp [hstate]
  unfold handleEvent
  by_cases hgone : ev.eof ∨ ev.error
  · rw [if_pos hgone, if_neg hlive]
    exact ⟨hstate, rfl⟩
  · rw [if_neg hgone]
    by_cases hfilter : ev.filter = .read
    · rw [if_pos hfilter]
      dsimp only
      have hread : (if ws.useSsl then (ws.readSsl env).2
          else (ws.readIo ev.udata ev.recv).2).state = .closed ∧
          (if ws.useSsl then (ws.readSsl env).2
            else (ws.readIo ev.udata ev.recv).2).callbacks = ws.callbacks := by
        split_ifs
        · exact ⟨hstate, callbacks_readSsl env ws⟩
        · exact ⟨hstate, callbacks_readIo ws _ _⟩
      rw [if_neg (by rw [hread.1]; decide), if_neg (by rw [hread.1]; decide)]
      exact hread
    · rw [if_neg hfilter]
      exact ⟨hstate, rfl⟩

theorem foldl_handleEvent_of_closed (env : Env) (events : List KEvent)
    (hstate : ws.state = .closed) :
    (events.foldl (handleEvent env) ws).state = .closed ∧
      (events.foldl (handleEvent env) ws).callbacks = ws.callbacks := by
  refine Runs.foldl_invariant
    (I := fun ws' : WebSocket => ws'.state = .closed ∧ ws'.callbacks = ws.callbacks)
    ?_ ⟨hstate, rfl⟩ events
  rintro ws' ev ⟨hclosed, hsame⟩
  obtain ⟨hend, hcalls⟩ := handleEvent_of_closed hclosed ev
  exact ⟨hend, hcalls.trans hsame⟩

end Step

/-! ## One call -/

/-- One call of `websocket_process`, cut at one of its events. -/
structure Look where
  handled : List KEvent
  event : KEvent
  unhandled : List KEvent

namespace Look

def events (l : Look) : List KEvent := l.handled ++ l.event :: l.unhandled

/-- The connection when the event is handled. -/
def before (l : Look) (env : Env) (ws : WebSocket) : WebSocket :=
  l.handled.foldl (handleEvent env) (ws.poll l.events)

/-- The connection when the response is looked at, after the reads of the event. -/
def seen (l : Look) (env : Env) (ws : WebSocket) : WebSocket :=
  eventReads env (l.before env ws) l.event

/-- In state CONNECTING, the response buffered at the event is rejected. -/
structure Rejected (l : Look) (env : Env) (ws : WebSocket) : Prop where
  ioCtx : ws.ioCtx.isSome
  state : (l.before env ws).state = .connecting
  alive : ¬(l.event.eof ∨ l.event.error)
  filter : l.event.filter = .read
  verdict : (parseHandshakeResponse (l.seen env ws).rxRing
    (env (l.seen env ws).tick).allocated).1 = -1

variable {l : Look} {env : Env} {ws : WebSocket}

theorem foldl_events (l : Look) (env : Env) (ws : WebSocket) :
    l.events.foldl (handleEvent env) (ws.poll l.events) =
      l.unhandled.foldl (handleEvent env) (handleEvent env (l.before env ws) l.event) := by
  rw [before, events, List.foldl_append, List.foldl_cons]

theorem state_seen (h : l.Rejected env ws) : (l.seen env ws).state = .connecting := by
  unfold seen eventReads
  rw [connectingSsl_state]
  split_ifs
  · exact h.state
  · exact h.state

end Look

/-- The attempt is over: the connection is CLOSED and the failure has been reported once. -/
structure Ended (seen ws : WebSocket) : Prop where
  state : ws.state = .closed
  reported : ws.callbacks = seen.callbacks ++ handshakeFailed seen

instance (seen ws : WebSocket) : Decidable (Ended seen ws) :=
  decidable_of_iff (ws.state = .closed ∧ ws.callbacks = seen.callbacks ++ handshakeFailed seen)
    ⟨fun h => ⟨h.1, h.2⟩, fun h => ⟨h.state, h.reported⟩⟩

/-- The attempt goes on: CONNECTING, with the same bytes buffered and nothing reported. -/
structure GoesOn (seen ws : WebSocket) : Prop where
  state : ws.state = .connecting
  silent : ws.callbacks = seen.callbacks
  rxRing : ws.rxRing = seen.rxRing

theorem GoesOn.not_ended {seen ws : WebSocket} (h : GoesOn seen ws) : ¬Ended seen ws := by
  intro hended
  have hstate := hended.state
  rw [h.state] at hstate
  cases hstate

section Calls

variable {env : Env} {ws : WebSocket} {l : Look} (h : l.Rejected env ws)
include h

theorem Look.Rejected.ended (hmany : Substantial (l.seen env ws).rxRing) :
    Ended (l.seen env ws) (handleEvent env (l.before env ws) l.event) := by
  rw [handleEvent_connecting h.state h.alive h.filter]
  change Ended _ (handshakeStep env (l.seen env ws))
  rw [handshakeStep_rejected h.verdict, if_pos hmany]
  refine ⟨websocketClose_state _, ?_⟩
  rw [callbacks_websocketClose, handshakeFailed]
  split_ifs
  · exact callbacks_callback env _ rfl
  · exact (List.append_nil _).symm

theorem Look.Rejected.goesOn (hfew : ¬Substantial (l.seen env ws).rxRing) :
    GoesOn (l.seen env ws) (handleEvent env (l.before env ws) l.event) := by
  rw [handleEvent_connecting h.state h.alive h.filter]
  change GoesOn _ (handshakeStep env (l.seen env ws))
  rw [handshakeStep_rejected h.verdict, if_neg hfew]
  exact ⟨Look.state_seen h, rfl, rfl⟩

/-- The events left over and the end of the call change nothing about a CLOSED connection. -/
theorem Look.Rejected.processCall_ended
    (hended : Ended (l.seen env ws) (handleEvent env (l.before env ws) l.event)) :
    Ended (l.seen env ws) (processCall env ws l.events) := by
  obtain ⟨hend, hcalls⟩ := foldl_handleEvent_of_closed env l.unhandled hended.state
  rw [processCall_eq h.ioCtx, Look.foldl_events, processTail_of_ne_connected (by rw [hend]; decide)]
  exact ⟨hend, hcalls.trans hended.reported⟩

/-- With no event left over, neither does the end of the call wake a waiting one. -/
theorem Look.Rejected.processCall_goesOn (hlast : l.unhandled = [])
    (hwaits : GoesOn (l.seen env ws) (handleEvent env (l.before env ws) l.event)) :
    GoesOn (l.seen env ws) (processCall env ws l.events) := by
  rw [processCall_eq h.ioCtx, Look.foldl_events, hlast, List.foldl_nil,
    processTail_of_ne_connected (by rw [hwaits.state]; decide)]
  exact hwaits

end Calls

/-- For every call of `websocket_process` and every event at which a buffered response is
rejected: the event ends the attempt exactly if more than 200 bytes are buffered and `HTTP` is
found among them, and the rest of the call leaves it ended. Otherwise the attempt goes on, also
after the call if the event was its last one. -/
theorem rejected_handshake_ends (env : Env) (ws : WebSocket) (l : Look) (h : l.Rejected env ws) :
    (Ended (l.seen env ws) (handleEvent env (l.before env ws) l.event) ↔
      Substantial (l.seen env ws).rxRing) ∧
    (Substantial (l.seen env ws).rxRing →
      Ended (l.seen env ws) (processCall env ws l.events)) ∧
    (¬Substantial (l.seen env ws).rxRing →
      GoesOn (l.seen env ws) (handleEvent env (l.before env ws) l.event) ∧
        (l.unhandled = [] → GoesOn (l.seen env ws) (processCall env ws l.events))) := by
  refine ⟨⟨?_, h.ended⟩, fun hmany => h.processCall_ended (h.ended hmany), ?_⟩
  · intro hended
    by_contra hfew
    exact (h.goesOn hfew).not_ended hended
  · intro hfew
    exact ⟨h.goesOn hfew, fun hlast => h.processCall_goesOn hlast (h.goesOn hfew)⟩

/-- A connection with an error callback, waiting for its response. -/
def listeningWebSocket : WebSocket := websocketSetOnError openingWebSocket true 7

/-- A whole response with status 404 and a body of the given length arrives in one read. -/
def notFoundLook (n : ℕ) : Look where
  handled := []
  event := ⟨0, 0, false, false, .read,
    .received (ascii "HTTP/1.1 404 Not Found\r\nContent-Length: " ++ ascii (toString n) ++
      ascii "\r\n\r\n" ++ List.replicate n 120) none⟩
  unhandled := []

theorem rejected_of_verdict {n : ℕ} {env : Env} {ws : WebSocket} (hio : ws.ioCtx.isSome)
    (hstate : ws.state = .connecting)
    (h : (parseHandshakeResponse ((notFoundLook n).seen env ws).rxRing
      (env ((notFoundLook n).seen env ws).tick).allocated).1 = -1) :
    (notFoundLook n).Rejected env ws :=
  ⟨hio, hstate, by simp [notFoundLook], rfl, h⟩

theorem listening : listeningWebSocket.ioCtx.isSome ∧ listeningWebSocket.state = .connecting := by
  decide +kernel

/-- A long response ends the attempt. -/
theorem long_rejection_ends :
    Ended ((notFoundLook 200).seen (fun _ => {}) listeningWebSocket)
      (processCall (fun _ => {}) listeningWebSocket (notFoundLook 200).events) := by
  have hlook : (parseHandshakeResponse ((notFoundLook 200).seen (fun _ => {})
      listeningWebSocket).rxRing true).1 = -1 ∧
      Substantial ((notFoundLook 200).seen (fun _ => {}) listeningWebSocket).rxRing := by
    decide +kernel
  exact (rejected_handshake_ends (fun _ => {}) listeningWebSocket (notFoundLook 200)
    (rejected_of_verdict listening.1 listening.2 hlook.1)).2.1 hlook.2

/-- After a whole response of 45 bytes the client goes on waiting and reports nothing. -/
theorem short_rejection_waits :
    (notFoundLook 0).Rejected (fun _ => {}) listeningWebSocket ∧
      ringbufferReadable ((notFoundLook 0).seen (fun _ => {}) listeningWebSocket).rxRing = 45 ∧
      (processCall (fun _ => {}) listeningWebSocket (notFoundLook 0).events).state = .connecting ∧
      (processCall (fun _ => {}) listeningWebSocket (notFoundLook 0).events).callbacks = [] := by
  have hlook : (parseHandshakeResponse ((notFoundLook 0).seen (fun _ => {})
      listeningWebSocket).rxRing true).1 = -1 ∧
      ringbufferReadable ((notFoundLook 0).seen (fun _ => {}) listeningWebSocket).rxRing = 45 ∧
      (processCall (fun _ => {}) listeningWebSocket (notFoundLook 0).events).state = .connecting ∧
      (processCall (fun _ => {}) listeningWebSocket (notFoundLook 0).events).callbacks = [] := by
    decide +kernel
  exact ⟨rejected_of_verdict listening.1 listening.2 hlook.1, hlook.2⟩

end WebSocketHft

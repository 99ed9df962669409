import WebSocketHft.Shared.Runs
import WebSocketHft.Verification.Runs.Ledger
import WebSocketHft.Verification.Runs.Silence
import WebSocketHft.Verification.Sockets.Ownership
import WebSocketHft.Verification.Transmit.Runs

/-! # The opening of a connection

What the protocol asks of a client before the first frame: the upgrade request goes
out, the response is accepted, and then frames may flow. The phases and the rule for
every event are stated here on their own; every run of the program follows them. -/

namespace WebSocketHft

/-- How far the opening has come. -/
inductive Phase where
  | idle
  | requested
  | opened
  deriving DecidableEq, Repr

/-- CONNECTED is assigned. -/
def Event.isUpgrade : Event → Bool
  | .state _ .connected => true
  | _ => false

/-- Frames that are looked at, handed over or queued, and what the periodic checks tell. -/
def Event.isTraffic : Event → Bool
  | .message _ _ => true
  | .metrics _ _ => true
  | .health _ _ _ => true
  | .heartbeatTimeout _ => true
  | .transmit _ _ _ _ _ => true
  | .queued _ => true
  | .frames _ => true
  | .closeFrame _ => true
  | _ => false

/-- The phase after an event; `none` if the event is out of place. -/
def Phase.next (p : Phase) (e : Event) : Option Phase :=
  if e.isRequest then some .requested
  else if e.isUpgrade then if p = .requested then some .opened else none
  else if e.isTraffic then if p = .opened then some .opened else none
  else some p

/-- The phase after a trace, if every event of it was in place. -/
def phaseOf (trace : List Event) : Option Phase := trace.foldlM Phase.next .idle

/-- The states a connection can be in during a phase. -/
def Phase.Fits : Phase → WSState → Prop
  | .idle, state => state = .closed
  | .requested, state => state = .connecting ∨ state = .closed
  | .opened, state => state ≠ .connecting

structure InPhase (p : Phase) (ws : WebSocket) : Prop where
  seen : phaseOf ws.trace = some p
  fits : p.Fits ws.state

variable {env : Env} {p : Phase} {ws ws' ws'' : WebSocket}

theorem Phase.fits_closed (p : Phase) : p.Fits .closed := by
  cases p <;> simp [Phase.Fits]

/-- Events that leave the phase alone. -/
theorem phaseOf_append {trace es : List Event} (h : phaseOf trace = some p)
    (hes : ∀ e ∈ es, p.next e = some p) : phaseOf (trace ++ es) = some p :=
  Runs.foldlM_append_eq_some.mpr ⟨p, h, Runs.foldlM_of_fixed hes⟩

/-! ## Once the connection is open -/

/-- Neither a request nor CONNECTED. -/
def Event.isLater (e : Event) : Bool := !e.isRequest && !e.isUpgrade

theorem Phase.opened_next {e : Event} (h : e.isLater) : Phase.opened.next e = some .opened := by
  cases e with
  | request bytes => cases h
  | state before after =>
      cases after with
      | connected => cases h
      | _ => rfl
  | _ => rfl

theorem Event.isLater_of_isQuiet {e : Event} (h : e.isQuiet) : e.isLater := by
  cases e with
  | request bytes => cases h
  | state before after => cases h
  | _ => rfl

theorem Event.isLater_of_isNeutral {e : Event} (h : e.isNeutral) : e.isLater := by
  cases e with
  | request bytes => cases h
  | state before after => cases h
  | _ => rfl

theorem websocketClose_later (ws : WebSocket) :
    ∃ es, (websocketClose ws).trace = ws.trace ++ es ∧
      ∀ e ∈ es, e.isLater ∧ e.isTraffic = false := by
  unfold websocketClose
  split_ifs
  · exact ⟨[], (List.append_nil _).symm, by simp⟩
  · refine ⟨[.closing ws.fd ws.sslFd, .closed ws.fd, .state ws.state .closed], ?_, ?_⟩
    · rw [trace_setState, trace_closeSocket, List.append_assoc]
      rfl
    · simp [Event.isLater, Event.isRequest, Event.isUpgrade, Event.isTraffic]
  · exact ⟨[_], rfl, by simp [Event.isLater, Event.isRequest, Event.isUpgrade, Event.isTraffic]⟩

/-- Only the acceptance of a response assigns CONNECTED, and no move makes a request. -/
theorem Move.later (h : Move env ws ws') (hws : ws.state ≠ .connecting) :
    ∃ es, ws'.trace = ws.trace ++ es ∧ ∀ e ∈ es, e.isLater := by
  have hquiet {ws ws' : WebSocket} (hq : Quiet ws ws') :
      ∃ es, ws'.trace = ws.trace ++ es ∧ ∀ e ∈ es, e.isLater := by
    obtain ⟨es, htrace, hes⟩ := hq.events
    exact ⟨es, htrace, fun e he => Event.isLater_of_isQuiet (hes e he)⟩
  cases h with
  | keep heq => exact ⟨[], (congrArg Outline.trace heq).trans (List.append_nil _).symm, by simp⟩
  | observe he => exact ⟨_, rfl, by simpa using Event.isLater_of_isNeutral he⟩
  | readSsl => exact ⟨[.received _], rfl, by simp [Event.isLater, Event.isRequest, Event.isUpgrade]⟩
  | writeSsl => exact hquiet (Quiet.writeSsl env ws)
  | writeIo => exact hquiet (Quiet.writeIo env ws)
  | send data isText => exact hquiet (Quiet.websocketSend env ws data isText)
  | pong payload => exact hquiet (Quiet.websocketSendPong env ws payload)
  | ping => exact hquiet (quiet_queuePing ws)
  | close =>
      obtain ⟨es, htrace, hes⟩ := websocketClose_later ws
      exact ⟨es, htrace, fun e he => (hes e he).1⟩
  | accept hstate => exact absurd hstate hws
  | receiveClose =>
      exact ⟨[.closeFrame ws.state, .state ws.state .closing], List.append_assoc _ _ _,
        by simp [Event.isLater, Event.isRequest, Event.isUpgrade]⟩
  | gone _ => exact ⟨[_], rfl, by simp [Event.isLater, Event.isRequest, Event.isUpgrade]⟩

theorem InPhase.moves (h : InPhase .opened ws) (hmoves : Moves env ws ws') :
    InPhase .opened ws' := by
  -- No move leads back to CONNECTING, so a second acceptance cannot occur.
  refine hmoves.invariant (P := InPhase .opened) (fun hmove hinv => ?_) h
  obtain ⟨es, htrace, hes⟩ := hmove.later hinv.fits
  refine ⟨?_, hmove.settled hinv.fits⟩
  rw [htrace]
  exact phaseOf_append hinv.seen fun e he => Phase.opened_next (hes e he)

/-! ## While the response is awaited -/

/-- From `ws` to `ws'` the connection at most goes down, and nothing is out of place in any
phase. -/
structure Waits (ws ws' : WebSocket) : Prop where
  state : ws'.state = ws.state ∨ ws'.state = .closed
  events : ∃ es, ws'.trace = ws.trace ++ es ∧ ∀ e ∈ es, e.isLater ∧ e.isTraffic = false

theorem Phase.next_of_later (p : Phase) {e : Event} (h : e.isLater ∧ e.isTraffic = false) :
    p.next e = some p := by
  simp only [Event.isLater, Bool.and_eq_true, Bool.not_eq_true'] at h
  simp [Phase.next, h]

theorem Waits.seen (hw : Waits ws ws') (h : phaseOf ws.trace = some p) :
    phaseOf ws'.trace = some p := by
  obtain ⟨es, htrace, hes⟩ := hw.events
  rw [htrace]
  exact phaseOf_append h fun e he => p.next_of_later (hes e he)

theorem InPhase.waits (h : InPhase p ws) (hw : Waits ws ws') : InPhase p ws' := by
  refine ⟨hw.seen h.seen, ?_⟩
  rcases hw.state with heq | heq
  · rw [heq]
    exact h.fits
  · rw [heq]
    exact p.fits_closed

namespace Waits

theorem trans (h : Waits ws ws') (h' : Waits ws' ws'') : Waits ws ws'' := by
  obtain ⟨es, htrace, hes⟩ := h.events
  obtain ⟨es', htrace', hes'⟩ := h'.events
  refine ⟨?_, es ++ es', ?_, List.forall_mem_append.mpr ⟨hes, hes'⟩⟩
  · rcases h'.state with heq | heq
    · rw [heq]
      exact h.state
    · exact Or.inr heq
  · rw [htrace', htrace, List.append_assoc]

theorem keep (hstate : ws'.state = ws.state) (htrace : ws'.trace = ws.trace) : Waits ws ws' :=
  ⟨Or.inl hstate, [], htrace.trans (List.append_nil _).symm, by simp⟩

theorem refl (ws : WebSocket) : Waits ws ws := keep rfl rfl

theorem after (h : Waits ws' ws'') (hstate : ws'.state = ws.state) (htrace : ws'.trace = ws.trace) :
    Waits ws ws'' :=
  (keep hstate htrace).trans h

theorem note {e : Event} (hstate : ws'.state = ws.state ∨ ws'.state = .closed)
    (htrace : ws'.trace = ws.trace ++ [e]) (he : e.isLater = true ∧ e.isTraffic = false) :
    Waits ws ws' :=
  ⟨hstate, [e], htrace, by simpa using he⟩

theorem not_connected (h : Waits ws ws') (hws : ws.state ≠ .connected) :
    ws'.state ≠ .connected := by
  rcases h.state with heq | heq
  · rwa [heq]
  · simp [heq]

theorem silent (h : StaysSilent ws ws') : Waits ws ws' := by
  obtain ⟨es, htrace, hes⟩ := h.events
  refine ⟨Or.inl h.state, es, htrace, fun e he => ?_⟩
  obtain ⟨bytes, rfl⟩ := hes e he
  exact ⟨rfl, rfl⟩

theorem setUps (h : SetUps ws ws') : Waits ws ws' := by
  refine h.invariant (P := Waits ws) (fun hsetUp hwaits => hwaits.trans ?_) (refl ws)
  cases hsetUp with
  | endpoint ep => exact keep rfl rfl
  | @descriptor e he =>
      refine note (Or.inl rfl) rfl ?_
      cases e with
      | opened fd => exact ⟨rfl, rfl⟩
      | closed fd => exact ⟨rfl, rfl⟩
      | _ => cases he

theorem close (ws : WebSocket) : Waits ws (websocketClose ws) :=
  ⟨Or.inr (websocketClose_state ws), websocketClose_later ws⟩

theorem foldl_run (h : ws.state ≠ .connected) (calls : List ApiCall) :
    Waits ws (calls.foldl (ApiCall.run env) ws) := by
  induction calls generalizing ws with
  | nil => exact refl ws
  | cons call calls ih =>
      have hfirst : Waits ws (call.run env ws) := by
        cases call with
        | send data isText =>
            have hnothing : ApiCall.run env ws (.send data isText) = ws :=
              congrArg Prod.snd (websocketSend_of_ne_connected h (some data) isText)
            rw [hnothing]
            exact refl ws
        | close => exact close ws
      exact hfirst.trans (ih (hfirst.not_connected h))

theorem callback (h : ws.state ≠ .connected) {e : Event}
    (he : e.isLater = true ∧ e.isTraffic = false) : Waits ws (ws.callback env e) := by
  have hrecord : Waits ws (ws.record e).pass := note (Or.inl rfl) rfl he
  have hstate : (ws.record e).pass.state ≠ .connected := h
  have hcalls : Waits (ws.record e).pass (ws.callback env e) := foldl_run hstate _
  exact hrecord.trans hcalls

theorem writeSsl (ws : WebSocket) : Waits ws (ws.writeSsl env).2 :=
  note (Or.inl rfl) rfl ⟨rfl, rfl⟩

theorem readSsl (ws : WebSocket) : Waits ws (ws.readSsl env).2 := silent (.readSsl ws)

theorem flush (ws : WebSocket) : Waits ws (ws.flush env) := by
  unfold WebSocket.flush
  split_ifs
  · exact writeSsl ws
  · exact note (Or.inl rfl) rfl ⟨rfl, rfl⟩

theorem sslHandshakeLoop (left iterations : ℕ) (madeProgress : Bool) (ws : WebSocket) :
    Waits ws (WebSocketHft.sslHandshakeLoop env left iterations madeProgress ws) := by
  induction left generalizing iterations madeProgress ws with
  | zero => exact refl ws
  | succ left ih =>
      have hround : Waits ws ((ws.writeSsl env).2.readSsl env).2.pass :=
        ((writeSsl ws).trans (readSsl _)).trans (keep rfl rfl)
      unfold WebSocketHft.sslHandshakeLoop
      dsimp only
      split_ifs
      · exact hround
      · exact hround.trans (ih _ _ _)
      · exact hround
      · exact hround
      · exact hround.trans (ih _ _ _)

theorem sslReadLoop (left : ℕ) (ws : WebSocket) :
    Waits ws (WebSocketHft.sslReadLoop env left ws) := by
  induction left generalizing ws with
  | zero => exact refl ws
  | succ left ih =>
      unfold WebSocketHft.sslReadLoop
      dsimp only
      split_ifs
      · exact readSsl ws
      · exact (readSsl ws).trans (ih _)

theorem connectingSsl (ws : WebSocket) : Waits ws (WebSocketHft.connectingSsl env ws) := by
  unfold WebSocketHft.connectingSsl
  dsimp only
  split_ifs
  · exact ((sslHandshakeLoop 20 0 false ws).trans (writeSsl _)).trans (sslReadLoop 20 _)
  · exact refl ws

end Waits

theorem InPhase.becomeConnected (h : InPhase .requested ws) :
    InPhase .opened ws.becomeConnected := by
  have htrace : ws.becomeConnected.trace =
      ws.trace ++ [.connected ws.rxRing.queue, .state ws.state .connected] :=
    List.append_assoc _ _ _
  refine ⟨?_, WSState.noConfusion⟩
  rw [htrace]
  exact Runs.foldlM_append_eq_some.mpr ⟨_, h.seen, rfl⟩

/-- What the response leads to: CONNECTED, or nothing that is out of place. -/
theorem InPhase.handshakeStep (h : InPhase .requested ws) (hws : ws.state = .connecting) :
    ∃ p', InPhase p' (WebSocketHft.handshakeStep env ws) := by
  have hidle : ws.state ≠ .connected := by simp [hws]
  have hparsed : Waits ws
      { ws with rxRing := (parseHandshakeResponse ws.rxRing (env ws.tick).allocated).2 }.pass :=
    Waits.keep rfl rfl
  have hrequested := h.waits hparsed
  unfold WebSocketHft.handshakeStep
  dsimp only
  generalize { ws with rxRing := (parseHandshakeResponse ws.rxRing (env ws.tick).allocated).2 }.pass
    = parsed at hparsed hrequested ⊢
  split_ifs
  · exact ⟨.opened, hrequested.becomeConnected.moves
      (Moves.becomeConnected_handshakeComplete parsed)⟩
  · exact ⟨.requested, (hrequested.waits (.callback (hparsed.not_connected hidle)
      ⟨rfl, rfl⟩)).waits (.close _)⟩
  · exact ⟨.requested, hrequested.waits (.close _)⟩
  · exact ⟨.requested, hrequested⟩
  · exact ⟨.requested, h⟩

/-! ## Events -/

/-- An event of a connection that awaits its response. -/
theorem InPhase.handleEvent_connecting (h : InPhase .requested ws) (hws : ws.state = .connecting)
    (ev : KEvent) : ∃ p', InPhase p' (handleEvent env ws ev) := by
  have hread : StaysSilent ws
      (if ws.useSsl then (ws.readSsl env).2 else (ws.readIo ev.udata ev.recv).2) := by
    split_ifs
    · exact .readSsl ws
    · exact .readIo ws _ _
  have hgone : Waits ws (ws.setState .closed) := .note (Or.inr rfl) rfl ⟨rfl, rfl⟩
  unfold handleEvent
  by_cases hover : ev.eof ∨ ev.error
  · rw [if_pos hover, if_pos (Or.inr hws)]
    dsimp only
    split_ifs
    · exact ⟨.requested, h.waits (hgone.trans (.callback WSState.noConfusion ⟨rfl, rfl⟩))⟩
    · exact ⟨.requested, h.waits hgone⟩
  · rw [if_neg hover]
    by_cases hfilter : ev.filter = .read
    · rw [if_pos hfilter]
      dsimp only
      generalize (if ws.useSsl then (ws.readSsl env).2 else (ws.readIo ev.udata ev.recv).2) = seen
        at hread ⊢
      have hconnecting : seen.state = .connecting := hread.state.trans hws
      have hawaited : InPhase .requested (connectingSsl env seen) :=
        (h.waits (.silent hread)).waits (.connectingSsl seen)
      rw [if_pos hconnecting]
      exact hawaited.handshakeStep ((connectingSsl_state env seen).trans hconnecting)
    · rw [if_neg hfilter]
      exact ⟨.requested, h⟩

/-- Before the connection is open it awaits its response or is down. -/
theorem InPhase.state_cases (h : InPhase p ws) :
    p = .opened ∨ ¬Live ws ∨ p = .requested ∧ ws.state = .connecting := by
  have hfits := h.fits
  cases p with
  | idle => exact Or.inr (Or.inl (by simp [Live, show ws.state = .closed from hfits]))
  | requested =>
      rcases hfits with heq | heq
      · exact Or.inr (Or.inr ⟨rfl, heq⟩)
      · exact Or.inr (Or.inl (by simp [Live, heq]))
  | opened => exact Or.inl rfl

theorem InPhase.opened_of_connected (h : InPhase p ws) (hws : ws.state = .connected) :
    p = .opened := by
  rcases h.state_cases with heq | hdown | ⟨-, hconnecting⟩
  · exact heq
  · exact absurd (Or.inr hws) hdown
  · exact absurd (hws.symm.trans hconnecting) WSState.noConfusion

theorem InPhase.handleEvent (h : InPhase p ws) (ev : KEvent) :
    ∃ p', InPhase p' (WebSocketHft.handleEvent env ws ev) := by
  rcases h.state_cases with rfl | hdown | ⟨rfl, hconnecting⟩
  · exact ⟨.opened, h.moves (Moves.handleEvent ws ev)⟩
  · exact ⟨p, h.waits (.silent (.handleEvent hdown ev))⟩
  · exact h.handleEvent_connecting hconnecting ev

/-- The frames and the checks that follow the events are for an open connection only. -/
theorem InPhase.processTail (h : InPhase p ws) : InPhase p (WebSocketHft.processTail env ws) := by
  by_cases hconnected : ws.state = .connected
  · -- Only an open connection is CONNECTED.
    obtain rfl := h.opened_of_connected hconnected
    exact h.moves (Moves.processTail ws)
  · rwa [processTail_of_ne_connected hconnected]

theorem InPhase.websocketProcess (h : InPhase p ws) (events : Option (List KEvent)) :
    ∃ p', InPhase p' (WebSocketHft.websocketProcess env ws events).2 := by
  unfold WebSocketHft.websocketProcess
  cases ws.ioCtx with
  | none => exact ⟨p, h⟩
  | some ctx =>
      have hpolled : InPhase p { ws with ioCtx := some (ioPoll ctx events).2 } :=
        h.waits (.keep rfl rfl)
      cases events with
      | none => exact ⟨p, hpolled⟩
      | some events =>
          have hstep (ws : WebSocket) (ev : KEvent) (hinv : ∃ p, InPhase p ws) :
              ∃ p, InPhase p (WebSocketHft.handleEvent env ws ev) := by
            obtain ⟨_, hinv⟩ := hinv
            exact hinv.handleEvent ev
          obtain ⟨p', hevents⟩ := Runs.foldl_invariant hstep ⟨p, hpolled⟩ events
          exact ⟨p', hevents.processTail⟩

/-! ## Attempts -/

/-- The request is out. -/
theorem sendHandshake_seen (h : phaseOf ws.trace = some p) (encoded : Option (List UInt8)) :
    phaseOf (sendHandshake env ws encoded).2.trace = some .requested := by
  have hwritten (key request : List UInt8) (ring : RingBuffer) :
      phaseOf ({ ws with secWebsocketKey := key, txRing := ring }.record
        (.request request)).trace = some .requested :=
    Runs.foldlM_append_eq_some.mpr ⟨p, h, rfl⟩
  unfold sendHandshake
  dsimp only
  split_ifs
  · exact hwritten _ _ _
  · exact (Waits.flush _).seen (hwritten _ _ _)

theorem InPhase.connectSocket (h : InPhase p ws) (htx : ws.txRing = ringbufferInit)
    (ctx : IOContext) (a : ConnectAnswers) :
    ∃ p', InPhase p' (WebSocketHft.connectSocket env ws ctx a).2 := by
  have hadded : Waits ws (ws.addSocket (ioAddSocket ctx ws.fd a.configured a.registered)) :=
    .keep rfl rfl
  have hsent := @sendHandshake_fst env
    (ws.addSocket (ioAddSocket ctx ws.fd a.configured a.registered)) a.encoded htx
  unfold WebSocketHft.connectSocket
  dsimp only
  generalize ws.addSocket (ioAddSocket ctx ws.fd a.configured a.registered) = added
    at hadded hsent ⊢
  by_cases hnone : added.socketIndex < 0
  · rw [if_pos hnone]
    split_ifs
    · exact ⟨p, h.waits (hadded.trans (.setUps ((SetUps.dropSsl _).trans (.connectCleanup _))))⟩
    · exact ⟨p, h.waits (hadded.trans (.setUps (.connectCleanup _)))⟩
  · rw [if_neg hnone, if_neg (not_not.mpr hsent)]
    -- The request always fits in a fresh ring, so it is followed by CONNECTING.
    have hrequested : phaseOf (sendHandshake env added a.encoded).2.trace = some .requested :=
      sendHandshake_seen (hadded.seen h.seen) a.encoded
    exact ⟨.requested, Runs.foldlM_append_eq_some.mpr ⟨_, hrequested, rfl⟩, Or.inl rfl⟩

theorem InPhase.websocketConnect (h : InPhase p ws) (url : List UInt8) (a : ConnectAnswers) :
    ∃ p', InPhase p' (WebSocketHft.websocketConnect env ws url a).2 := by
  generalize hparse : parseUrl url 256 1024 ⟨ws.host, ws.path, ws.port, ws.useSsl⟩ = parsed
  have hssl (ctx : IOContext) : Waits ws
      (connectSsl (ws.prepared parsed.2 ctx).openSocket a).2 :=
    .setUps ((SetUps.openSocket ws parsed.2 ctx).trans (.connectSsl _ _))
  refine websocketConnect_cases (P := fun _ ws' => ∃ p', InPhase p' ws') env ws url a hparse
    ?_ ?_ ?_ ?_ ?_
  · intro _
    exact ⟨p, h.waits (.keep rfl rfl)⟩
  · intro rx tx _
    exact ⟨p, h.waits ((Waits.setUps (.connectCleanup _)).after rfl rfl)⟩
  · intro ctx _ _
    exact ⟨p, h.waits ((Waits.setUps (.connectCleanup _)).after rfl rfl)⟩
  · intro ctx _ _ _
    exact ⟨p, h.waits ((hssl ctx).trans (.setUps (.connectCleanup _)))⟩
  · intro ctx _ _ _ _
    exact (h.waits (hssl ctx)).connectSocket (connectSsl_keeps _ a).2 ctx a

/-! ## Runs -/

theorem InPhase.call (h : InPhase p ws) (call : PublicCall) :
    ∃ p', InPhase p' (call.run env ws) := by
  cases call with
  | connect url answers => exact h.websocketConnect url answers
  | process events => exact h.websocketProcess events
  | send data isText =>
      change ∃ p', InPhase p' (websocketSend env ws data isText).2
      by_cases hconnected : ws.state = .connected
      · obtain rfl := h.opened_of_connected hconnected
        exact ⟨.opened, h.moves (.single (.send ws data isText))⟩
      · rw [websocketSend_of_ne_connected hconnected]
        exact ⟨p, h⟩
  | close => exact ⟨p, h.waits (.close ws)⟩
  | _ => exact ⟨p, h.waits (.keep rfl rfl)⟩

example : phaseOf [.request [], .message [0x48] 0] = none := rfl

end WebSocketHft

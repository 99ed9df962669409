import WebSocketHft.Model.Api
import WebSocketHft.Shared.Runs

/-! # The stages of `websocket_process`

`websocket_process` is made of reads, writes, frames, callbacks and a few
assignments to the state, in loops. A reflexive and transitive relation that holds
across each of these stages holds across the loops. -/

namespace WebSocketHft

/-! ## The state in the CONNECTING branch -/

theorem sslHandshakeLoop_state (env : Env) (left iterations : ℕ) (madeProgress : Bool)
    (ws : WebSocket) :
    (sslHandshakeLoop env left iterations madeProgress ws).state = ws.state := by
  induction left generalizing iterations madeProgress ws with
  | zero => rfl
  | succ left ih =>
      unfold sslHandshakeLoop
      dsimp only
      split_ifs
      · rfl
      · exact ih _ _ _
      · rfl
      · rfl
      · exact ih _ _ _

theorem sslReadLoop_state (env : Env) (left : ℕ) (ws : WebSocket) :
    (sslReadLoop env left ws).state = ws.state := by
  induction left generalizing ws with
  | zero => rfl
  | succ left ih =>
      unfold sslReadLoop
      dsimp only
      split_ifs
      · rfl
      · exact ih _

theorem connectingSsl_state (env : Env) (ws : WebSocket) :
    (connectingSsl env ws).state = ws.state := by
  unfold connectingSsl
  dsimp only
  split_ifs
  · exact (sslReadLoop_state env 20 _).trans (sslHandshakeLoop_state env 20 0 false ws)
  · rfl

/-! ## The end of a call -/

/-- The reads and passes that follow the loop over the events. -/
def drainTail (env : Env) (ws : WebSocket) : WebSocket :=
  if ws.state = .connected ∧ ws.useSsl then
    let ws := sslDrain env 200 0 false ws
    if ws.state = .connected then processFrames env ws else ws
  else if ws.state = .connected then processFrames env ws
  else ws

/-- The periodic checks come last. -/
theorem processTail_eq (env : Env) (ws : WebSocket) :
    processTail env ws =
      if (drainTail env ws).state = .connected then
        checkHeartbeat env (reportMetricsIfNeeded env (checkHealth env (drainTail env ws)))
      else drainTail env ws := rfl

/-- Outside CONNECTED nothing follows the loop over the events. -/
theorem processTail_of_ne_connected {env : Env} {ws : WebSocket} (h : ws.state ≠ .connected) :
    processTail env ws = ws := by
  have hdrained : drainTail env ws = ws := by
    unfold drainTail
    rw [if_neg fun hboth => h hboth.1, if_neg h]
  rw [processTail_eq, hdrained, if_neg h]

/-! ## Relations across the stages -/

structure Stages (env : Env) (R : WebSocket → WebSocket → Prop) : Prop where
  refl : ∀ ws, R ws ws
  trans : ∀ {ws ws' ws''}, R ws ws' → R ws' ws'' → R ws ws''
  pass : ∀ ws, R ws ws.pass
  writeSsl : ∀ ws, R ws (ws.writeSsl env).2
  readSsl : ∀ ws, R ws (ws.readSsl env).2
  readIo : ∀ ws socketIndex recv, R ws (ws.readIo socketIndex recv).2
  look : ∀ ws bytes, R ws (ws.record (.frames bytes))
  malformed : ∀ ws offset, R ws (parseError env ws offset)
  oversized : ∀ ws, R ws ws.countFrameError
  frame : ∀ ws frame start, R ws (handleFrame env ws frame start)
  advance : ∀ ws n, R ws (ws.advanceRx n)
  response : ∀ {ws}, ws.state = .connecting → R ws (handshakeStep env ws)
  gone : ∀ {ws}, ws.state = .connected ∨ ws.state = .connecting → R ws (ws.setState .closed)
  error : ∀ {ws} code msg, ws.onError = true →
    R ws (ws.callback env (.error code msg ws.callbackUserData))

namespace Stages

variable {env : Env} {R : WebSocket → WebSocket → Prop} (h : Stages env R)
include h

/-! ## Frames -/

theorem processFramesLoop (data len attempts offset total : ℕ) (ws : WebSocket) :
    R ws (WebSocketHft.processFramesLoop env data len attempts offset total ws).2 := by
  induction attempts generalizing offset total ws with
  | zero => exact h.refl ws
  | succ attempts ih =>
      unfold WebSocketHft.processFramesLoop
      by_cases hlt : offset < len
      · rw [if_pos hlt]
        cases neonParseWsFrame (fun i => ws.rxRing.buf (data + offset + i)) (len - offset) with
        | needMore => exact h.refl ws
        | error => exact h.trans (h.malformed ws offset) (ih _ _ _)
        | ok frame =>
            dsimp only
            split_ifs
            · exact h.trans (h.oversized ws) (ih _ _ _)
            · exact h.trans (h.frame ws frame _) (ih _ _ _)
      · rw [if_neg hlt]
        exact h.refl ws

theorem processFrames (ws : WebSocket) : R ws (WebSocketHft.processFrames env ws) := by
  have hloop (bytes : List UInt8) (data len : ℕ) :
      R ws (WebSocketHft.processFramesLoop env data len maxParseAttempts 0 0
        (ws.record (.frames bytes))).2 :=
    h.trans (h.look ws bytes) (h.processFramesLoop _ _ _ _ _ _)
  unfold WebSocketHft.processFrames
  dsimp only
  split_ifs
  · exact h.refl ws
  · exact h.trans (hloop _ _ _) (h.advance _ _)
  · exact hloop _ _ _

theorem drainFrames (fuel : ℕ) (ws : WebSocket) :
    R ws (WebSocketHft.drainFrames env fuel ws) := by
  induction fuel generalizing ws with
  | zero => exact h.refl ws
  | succ fuel ih =>
      unfold WebSocketHft.drainFrames
      dsimp only
      split_ifs
      · exact h.processFrames ws
      · exact h.trans (h.processFrames ws) (ih _)

theorem connectedStep (ws : WebSocket) : R ws (WebSocketHft.connectedStep env ws) :=
  h.trans (h.processFrames ws) (h.drainFrames _ _)

/-! ## Events -/

theorem sslHandshakeLoop (left iterations : ℕ) (madeProgress : Bool) (ws : WebSocket) :
    R ws (WebSocketHft.sslHandshakeLoop env left iterations madeProgress ws) := by
  induction left generalizing iterations madeProgress ws with
  | zero => exact h.refl ws
  | succ left ih =>
      have hround : R ws ((ws.writeSsl env).2.readSsl env).2.pass :=
        h.trans (h.trans (h.writeSsl ws) (h.readSsl _)) (h.pass _)
      unfold WebSocketHft.sslHandshakeLoop
      dsimp only
      split_ifs
      · exact hround
      · exact h.trans hround (ih _ _ _)
      · exact hround
      · exact hround
      · exact h.trans hround (ih _ _ _)

theorem sslReadLoop (left : ℕ) (ws : WebSocket) :
    R ws (WebSocketHft.sslReadLoop env left ws) := by
  induction left generalizing ws with
  | zero => exact h.refl ws
  | succ left ih =>
      unfold WebSocketHft.sslReadLoop
      dsimp only
      split_ifs
      · exact h.readSsl ws
      · exact h.trans (h.readSsl ws) (ih _)

theorem connectingSsl (ws : WebSocket) : R ws (WebSocketHft.connectingSsl env ws) := by
  unfold WebSocketHft.connectingSsl
  dsimp only
  split_ifs
  · exact h.trans (h.trans (h.sslHandshakeLoop 20 0 false ws) (h.writeSsl _)) (h.sslReadLoop 20 _)
  · exact h.refl ws

/-- The connection is given up, and the application told if it wants to be. -/
theorem lost {ws : WebSocket} (hlive : ws.state = .connected ∨ ws.state = .connecting)
    (code : ℤ) (msg : String) :
    R ws (if (ws.setState .closed).onError then
      (ws.setState .closed).callback env (.error code msg (ws.setState .closed).callbackUserData)
      else ws.setState .closed) := by
  split_ifs with hset
  · exact h.trans (h.gone hlive) (h.error code msg hset)
  · exact h.gone hlive

theorem handleEvent (ws : WebSocket) (ev : KEvent) :
    R ws (WebSocketHft.handleEvent env ws ev) := by
  have hread : R ws (if ws.useSsl then (ws.readSsl env).2 else (ws.readIo ev.udata ev.recv).2) := by
    split_ifs
    · exact h.readSsl ws
    · exact h.readIo ws _ _
  unfold WebSocketHft.handleEvent
  by_cases hgone : ev.eof ∨ ev.error
  · rw [if_pos hgone]
    by_cases hlive : ws.state = .connected ∨ ws.state = .connecting
    · rw [if_pos hlive]
      exact h.lost hlive _ _
    · rw [if_neg hlive]
      exact h.refl ws
  · rw [if_neg hgone]
    by_cases hfilter : ev.filter = .read
    · rw [if_pos hfilter]
      dsimp only
      generalize (if ws.useSsl then (ws.readSsl env).2 else (ws.readIo ev.udata ev.recv).2) = ws'
        at hread ⊢
      split_ifs with hconnecting
      · exact h.trans (h.trans hread (h.connectingSsl ws'))
          (h.response (by rwa [connectingSsl_state]))
      · exact h.trans hread (h.connectedStep ws')
      · exact hread
    · rw [if_neg hfilter]
      exact h.refl ws

theorem foldl_handleEvent (events : List KEvent) (ws : WebSocket) :
    R ws (events.foldl (WebSocketHft.handleEvent env) ws) :=
  Runs.foldl_invariant (I := R ws) (fun ws' ev hws' => h.trans hws' (h.handleEvent ws' ev))
    (h.refl ws) events

/-! ## Draining -/

theorem sslDrainFrames (left : ℕ) (ws : WebSocket) :
    R ws (WebSocketHft.sslDrainFrames env left ws) := by
  induction left generalizing ws with
  | zero => exact h.refl ws
  | succ left ih =>
      unfold WebSocketHft.sslDrainFrames
      dsimp only
      split_ifs
      · exact h.processFrames ws
      · exact h.processFrames ws
      · exact h.trans (h.processFrames ws) (ih _)
      · exact h.refl ws

theorem sslDrain (left attempts : ℕ) (madeProgress : Bool) (ws : WebSocket) :
    R ws (WebSocketHft.sslDrain env left attempts madeProgress ws) := by
  induction left generalizing attempts madeProgress ws with
  | zero => exact h.refl ws
  | succ left ih =>
      have hpass : R ws (WebSocketHft.processFrames env (ws.readSsl env).2) :=
        h.trans (h.readSsl ws) (h.processFrames _)
      unfold WebSocketHft.sslDrain
      by_cases hstate : ws.state = .connected
      · have hlive : (ws.readSsl env).2.state = .connected ∨
            (ws.readSsl env).2.state = .connecting := Or.inl hstate
        have hlost := h.trans (h.readSsl ws) (h.lost hlive (-1) "SSL connection closed")
        rw [if_pos hstate]
        dsimp only at hlost ⊢
        split_ifs with _ _ _ _ hset
        · exact hpass
        · exact h.trans (h.trans hpass (h.sslDrainFrames _ _)) (ih _ _ _)
        · exact h.trans hpass (ih _ _ _)
        · exact hpass
        · rw [if_pos hset] at hlost
          exact h.trans hlost (h.processFrames _)
        · rw [if_neg ‹_›] at hlost
          exact h.trans hlost (h.processFrames _)
      · rw [if_neg hstate]
        exact h.refl ws

theorem drainTail (ws : WebSocket) : R ws (WebSocketHft.drainTail env ws) := by
  unfold WebSocketHft.drainTail
  dsimp only
  split_ifs
  · exact h.trans (h.sslDrain _ _ _ ws) (h.processFrames _)
  · exact h.sslDrain _ _ _ ws
  · exact h.processFrames ws
  · exact h.refl ws

end Stages

end WebSocketHft

import WebSocketHft.Shared.Beats
import WebSocketHft.Verification.Runs.Heartbeat

/-! # The causes of timeouts

Runs of checks, PONGs and configurations, with anything in between that leaves the
heartbeat alone. A run logs the pings that are queued, the PONGs and the calls of
`on_heartbeat_timeout`. -/

namespace WebSocketHft

open WebSocketHft.Runs

/-! ## One check -/

/-- What the second half of a check does, by what can be observed of it: a call of the callback,
or at least the end of waiting. -/
def verdictBeats (timeout t : ℕ) (ws checked : WebSocket) : List Beat :=
  if checked.timeouts ≠ ws.timeouts then [.expire timeout t]
  else if checked.lastPingSentNs = 0 then [.stop]
  else []

/-- What a check does: a ping that is queued whole, and the verdict. -/
def checkBeats (env : Env) (ws : WebSocket) : List Beat :=
  if ws.heartbeatConfig.enableHeartbeat = false ∨ ws.state ≠ .connected then []
  else
    let t := (env ws.tick).now.toNat
    (if PingQueued ws.pass (env ws.tick).now then [.start t] else []) ++
      verdictBeats ws.heartbeatConfig.timeoutNs t ws (checkHeartbeat env ws)

section Check

variable (env : Env) {ws : WebSocket}

/-- The watchdog between the halves of a check. -/
theorem watchdog_pinged (ws : WebSocket) :
    (sendHeartbeat env ws.pass (env ws.tick).now).watchdog =
      (if PingQueued ws.pass (env ws.tick).now then
        [Beat.start (env ws.tick).now.toNat] else []).foldl Watchdog.after ws.watchdog := by
  rw [watchdog_sendHeartbeat_eq]
  split_ifs <;> rfl

/-- No callback is called between the halves. -/
theorem expirations_pinged (ws : WebSocket) :
    (sendHeartbeat env ws.pass (env ws.tick).now).watchdog.expirations = ws.timeouts := by
  rw [watchdog_sendHeartbeat_eq]
  split_ifs <;> rfl

/-- The watchdog after a check. -/
theorem watchdog_checked
    (hruns : ¬(ws.heartbeatConfig.enableHeartbeat = false ∨ ws.state ≠ .connected)) :
    (checkHeartbeat env ws).watchdog =
      let sent := sendHeartbeat env ws.pass (env ws.tick).now
      if PongMissing sent (env ws.tick).now then
        if ws.heartbeatConfig.onHeartbeatTimeout then
          { sent.watchdog with started := 0, expirations := ws.timeouts + 1 }
        else { sent.watchdog with started := 0 }
      else sent.watchdog := by
  have hconfig : (sendHeartbeat env ws.pass (env ws.tick).now).heartbeatConfig =
      ws.heartbeatConfig := heartbeatConfig_sendHeartbeat env ws.pass _
  have hchecked := watchdog_checkPongTimeout_eq env (sendHeartbeat env ws.pass (env ws.tick).now)
    (env ws.tick).now
  rw [hconfig, expirations_pinged] at hchecked
  rw [checkHeartbeat, if_neg hruns]
  exact hchecked

theorem lastPingSentNs_eq_zero_iff (ws : WebSocket) :
    ws.lastPingSentNs = 0 ↔ ws.watchdog.started = 0 := UInt64.toNat_inj.symm

/-- The second half leads to the watchdog after the check, and calls the callback only if a
PONG is missing. -/
theorem verdictBeats_cases
    (hruns : ¬(ws.heartbeatConfig.enableHeartbeat = false ∨ ws.state ≠ .connected))
    (timeout t : ℕ) :
    let sent := sendHeartbeat env ws.pass (env ws.tick).now
    let verdict := verdictBeats timeout t ws (checkHeartbeat env ws)
    (checkHeartbeat env ws).watchdog = verdict.foldl Watchdog.after sent.watchdog ∧
      (verdict = [] ∨ verdict = [.stop] ∨
        verdict = [.expire timeout t] ∧ PongMissing sent (env ws.tick).now) := by
  have hchecked := watchdog_checked env hruns
  have hpinged := expirations_pinged env ws
  dsimp only at hchecked ⊢
  generalize sendHeartbeat env ws.pass (env ws.tick).now = sent at *
  generalize checkHeartbeat env ws = checked at *
  unfold verdictBeats
  by_cases hmissing : PongMissing sent (env ws.tick).now
  · rw [if_pos hmissing] at hchecked
    by_cases hset : ws.heartbeatConfig.onHeartbeatTimeout = true
    · rw [if_pos hset] at hchecked
      have htimeouts : checked.timeouts = ws.timeouts + 1 := congrArg Watchdog.expirations hchecked
      rw [if_pos (by omega), hchecked, ← hpinged]
      exact ⟨rfl, Or.inr (Or.inr ⟨rfl, hmissing⟩)⟩
    · rw [if_neg hset] at hchecked
      have htimeouts : checked.timeouts = ws.timeouts :=
        (congrArg Watchdog.expirations hchecked).trans hpinged
      have hstopped : checked.lastPingSentNs = 0 :=
        (lastPingSentNs_eq_zero_iff checked).mpr (congrArg Watchdog.started hchecked)
      rw [if_neg (not_not_intro htimeouts), if_pos hstopped, hchecked]
      exact ⟨rfl, Or.inr (Or.inl rfl)⟩
  · rw [if_neg hmissing] at hchecked
    have htimeouts : checked.timeouts = ws.timeouts :=
      (congrArg Watchdog.expirations hchecked).trans hpinged
    rw [if_neg (not_not_intro htimeouts), hchecked]
    by_cases hstopped : checked.lastPingSentNs = 0
    · have hzero : sent.watchdog.started = 0 :=
        hchecked ▸ (lastPingSentNs_eq_zero_iff checked).mp hstopped
      rw [if_pos hstopped]
      refine ⟨?_, Or.inr (Or.inl rfl)⟩
      change _ = { sent.watchdog with started := 0 }
      rw [← hzero]
    · rw [if_neg hstopped]
      exact ⟨rfl, Or.inl rfl⟩

/-- The beats of a check lead to the watchdog after it. -/
theorem watchdog_checkBeats (ws : WebSocket) :
    (checkHeartbeat env ws).watchdog = (checkBeats env ws).foldl Watchdog.after ws.watchdog := by
  unfold checkBeats
  by_cases hruns : ws.heartbeatConfig.enableHeartbeat = false ∨ ws.state ≠ .connected
  · rw [if_pos hruns, checkHeartbeat, if_pos hruns]
    rfl
  · rw [if_neg hruns]
    dsimp only
    rw [List.foldl_append, ← watchdog_pinged]
    exact (verdictBeats_cases env hruns _ _).1

/-- At a time that has not gone back behind the last ping, a check calls the callback only for
an overdue watchdog. -/
theorem accepts_checkBeats (ws : WebSocket)
    (htime : ∀ b ∈ checkBeats env ws, b.isExpire → ws.lastPingSentNs ≤ (env ws.tick).now) :
    ws.watchdog.Accepts (checkBeats env ws) := by
  unfold checkBeats at htime ⊢
  by_cases hruns : ws.heartbeatConfig.enableHeartbeat = false ∨ ws.state ≠ .connected
  · rw [if_pos hruns]
    trivial
  rw [if_neg hruns] at htime ⊢
  dsimp only at htime ⊢
  refine along_append.mpr ⟨?_, ?_⟩
  · split_ifs
    · exact ⟨trivial, trivial⟩
    · trivial
  rw [← watchdog_pinged]
  rcases (verdictBeats_cases env hruns ws.heartbeatConfig.timeoutNs (env ws.tick).now.toNat).2 with
    hverdict | hverdict | ⟨hverdict, hmissing⟩
  · rw [hverdict]
    trivial
  · rw [hverdict]
    exact ⟨trivial, trivial⟩
  · rw [hverdict] at htime ⊢
    refine ⟨?_, trivial⟩
    have hconfig : (sendHeartbeat env ws.pass (env ws.tick).now).heartbeatConfig =
        ws.heartbeatConfig := heartbeatConfig_sendHeartbeat env ws.pass _
    have hlast : (sendHeartbeat env ws.pass (env ws.tick).now).lastPingSentNs ≤ (env ws.tick).now := by
      have hbefore := htime _ (List.mem_append_right _ List.mem_cons_self) rfl
      change (sendHeartbeat env ws.pass (env ws.tick).now).watchdog.started ≤ _
      rw [watchdog_sendHeartbeat_eq]
      split_ifs
      · exact le_rfl
      · exact hbefore
    have hoverdue := (pongMissing_iff hlast).mp hmissing
    rwa [hconfig] at hoverdue

end Check

/-! ## Runs -/

/-- The heartbeat is left alone. -/
structure Resting (ws ws' : WebSocket) : Prop where
  config : ws'.heartbeatConfig = ws.heartbeatConfig
  watchdog : ws'.watchdog = ws.watchdog

theorem Resting.tick (ws : WebSocket) (n : ℕ) : Resting ws { ws with tick := n } := ⟨rfl, rfl⟩

/-- A run and its log. Checks and PONGs happen at the time that is read in them. -/
inductive HeartbeatRun (env : Env) : WebSocket → List Beat → WebSocket → Prop where
  | start (ws : WebSocket) : HeartbeatRun env ws [] ws
  | rest {ws ws₁ ws₂ : WebSocket} {log : List Beat} (h : HeartbeatRun env ws log ws₁)
      (hrest : Resting ws₁ ws₂) : HeartbeatRun env ws log ws₂
  | check {ws ws₁ : WebSocket} {log : List Beat} (h : HeartbeatRun env ws log ws₁) :
      HeartbeatRun env ws (log ++ checkBeats env ws₁) (checkHeartbeat env ws₁)
  | pong {ws ws₁ : WebSocket} {log : List Beat} (h : HeartbeatRun env ws log ws₁) :
      HeartbeatRun env ws (log ++ [.answer (env ws₁.tick).now.toNat]) (notePong env ws₁)
  | configure {ws ws₁ : WebSocket} {log : List Beat} (h : HeartbeatRun env ws log ws₁)
      (config : WSHeartbeatConfig) :
      HeartbeatRun env ws (log ++ [.reset]) (websocketSetHeartbeatConfig ws₁ config)

theorem watchdog_notePong (env : Env) (ws : WebSocket) :
    (notePong env ws).watchdog = ws.watchdog.after (.answer (env ws.tick).now.toNat) := by
  unfold notePong
  rw [watchdog_wsLog]
  rfl

/-- The beats of a check have the time of the check. -/
theorem time_of_mem_checkBeats {env : Env} {ws : WebSocket} {b : Beat} {t : ℕ}
    (hb : b ∈ checkBeats env ws) (ht : b.time? = some t) : t = (env ws.tick).now.toNat := by
  unfold checkBeats at hb
  by_cases hruns : ws.heartbeatConfig.enableHeartbeat = false ∨ ws.state ≠ .connected
  · rw [if_pos hruns] at hb
    exact absurd hb List.not_mem_nil
  rw [if_neg hruns] at hb
  rcases List.mem_append.mp hb with hstart | hverdict
  · split_ifs at hstart
    · obtain rfl := List.mem_singleton.mp hstart
      exact (Option.some.inj ht).symm
    · exact absurd hstart List.not_mem_nil
  · unfold verdictBeats at hverdict
    split_ifs at hverdict
    · obtain rfl := List.mem_singleton.mp hverdict
      exact (Option.some.inj ht).symm
    · obtain rfl := List.mem_singleton.mp hverdict
      exact absurd ht (Option.some_ne_none t).symm
    · exact absurd hverdict List.not_mem_nil

/-- A run whose times do not go back is a run of a watchdog. -/
theorem HeartbeatRun.refines {env : Env} {ws ws' : WebSocket} {log : List Beat}
    (h : HeartbeatRun env ws log ws') (hstopped : ws.lastPingSentNs = 0)
    (hsorted : (Beat.times log).Pairwise (· ≤ ·)) :
    ws'.watchdog = log.foldl Watchdog.after ws.watchdog ∧ ws.watchdog.Accepts log := by
  induction h with
  | start => exact ⟨rfl, trivial⟩
  | rest h hrest ih =>
      obtain ⟨hwatchdog, haccepts⟩ := ih hsorted
      exact ⟨hrest.watchdog.trans hwatchdog, haccepts⟩
  | @check ws₁ log h ih =>
      have hsplit := hsorted
      rw [Beat.times_append, List.pairwise_append] at hsplit
      obtain ⟨hwatchdog, haccepts⟩ := ih hsplit.1
      rw [watchdog_checkBeats, hwatchdog, List.foldl_append]
      refine ⟨rfl, along_append.mpr ⟨haccepts, ?_⟩⟩
      rw [← hwatchdog]
      refine accepts_checkBeats env ws₁ fun b hb hexpire => ?_
      obtain ⟨t, ht⟩ : ∃ t, b.time? = some t := by
        cases b <;> first | exact ⟨_, rfl⟩ | cases hexpire
      have htime : t ∈ Beat.times (checkBeats env ws₁) := List.mem_filterMap.mpr ⟨b, hb, ht⟩
      change ws₁.watchdog.started ≤ (env ws₁.tick).now.toNat
      rw [hwatchdog, ← time_of_mem_checkBeats hb ht]
      exact Watchdog.started_le ((lastPingSentNs_eq_zero_iff _).mp hstopped) hsorted htime
  | pong h ih =>
      rw [Beat.times_append, List.pairwise_append] at hsorted
      obtain ⟨hwatchdog, haccepts⟩ := ih hsorted.1
      rw [watchdog_notePong, hwatchdog, List.foldl_append]
      exact ⟨rfl, along_append.mpr ⟨haccepts, trivial, trivial⟩⟩
  | configure h config ih =>
      rw [Beat.times_append, List.pairwise_append] at hsorted
      obtain ⟨hwatchdog, haccepts⟩ := ih hsorted.1
      rw [List.foldl_append, ← hwatchdog]
      exact ⟨rfl, along_append.mpr ⟨haccepts, trivial, trivial⟩⟩

/-! ## Runs of the interface -/

section Interface

variable {env : Env}

theorem HeartbeatRun.trans {ws ws₁ ws₂ : WebSocket} {log log' : List Beat}
    (h : HeartbeatRun env ws log ws₁) (h' : HeartbeatRun env ws₁ log' ws₂) :
    HeartbeatRun env ws (log ++ log') ws₂ := by
  induction h' with
  | start => rwa [List.append_nil]
  | rest _ hrest ih => exact ih.rest hrest
  | check _ ih => rw [← List.append_assoc]; exact ih.check
  | pong _ ih => rw [← List.append_assoc]; exact ih.pong
  | configure _ config ih => rw [← List.append_assoc]; exact ih.configure config

/-- What happens to the heartbeat is a run with some log. -/
def Beats (env : Env) (ws ws' : WebSocket) : Prop := ∃ log, HeartbeatRun env ws log ws'

namespace Beats

theorem refl (ws : WebSocket) : Beats env ws ws := ⟨[], .start ws⟩

theorem trans {ws ws₁ ws₂ : WebSocket} (h : Beats env ws ws₁) (h' : Beats env ws₁ ws₂) :
    Beats env ws ws₂ := by
  obtain ⟨log, hrun⟩ := h
  obtain ⟨log', hrun'⟩ := h'
  exact ⟨log ++ log', hrun.trans hrun'⟩

/-- A stage that sends no ping and receives no PONG. -/
theorem of_steady {ws ws' : WebSocket} (h : Steady ws ws')
    (hpong : ws'.lastPongReceivedNs = ws.lastPongReceivedNs) : Beats env ws ws' := by
  refine ⟨[], (HeartbeatRun.start ws).rest ⟨congrArg Settings.heartbeatConfig h.settings, ?_⟩⟩
  unfold WebSocket.watchdog
  rw [h.lastPingSentNs, h.timeouts, hpong]

theorem of_notes {ws ws' : WebSocket} (h : Steady ws ws') (hnotes : ws'.notes = ws.notes) :
    Beats env ws ws' :=
  of_steady h (congrArg Prod.fst hnotes)

theorem callback {ws : WebSocket} {e : Event} (h : Steady ws (ws.callback env e)) :
    Beats env ws (ws.callback env e) :=
  of_notes h (notes_callback env ws e)

theorem notes_updateLatencySample (ws : WebSocket) (latencyNs : UInt64) :
    (updateLatencySample ws latencyNs).notes = ws.notes := by
  unfold updateLatencySample
  cases ws.latencySamples with
  | none => rfl
  | some samples => dsimp only; split_ifs <;> rfl

theorem deliverMessage (ws : WebSocket) (payload : List UInt8) :
    Beats env ws (WebSocketHft.deliverMessage env ws payload) := by
  refine of_notes (Steady.deliverMessage ws payload) ?_
  have hsampled : (sampleLatency env (ws.countReceived payload.length)).notes = ws.notes := by
    unfold sampleLatency
    dsimp only
    by_cases hstamped : 0 < websocketGetLastNicTimestampNs (ws.countReceived payload.length)
    · rw [if_pos hstamped]
      exact notes_updateLatencySample _ _
    · rw [if_neg hstamped]
      rfl
  unfold WebSocketHft.deliverMessage
  dsimp only
  split_ifs
  · rw [notes_callback, hsampled]
  · exact hsampled

theorem websocketSendPong (ws : WebSocket) (payload : List UInt8) :
    Beats env ws (WebSocketHft.websocketSendPong env ws payload).2 :=
  of_notes (Steady.websocketSendPong ws payload) (notes_websocketSendPong env ws payload)

/-- A PONG is the only frame that the heartbeat notices. -/
theorem handleFrame (ws : WebSocket) (frame : WSFrame) (start : ℕ) :
    Beats env ws (WebSocketHft.handleFrame env ws frame start) := by
  have hunmask (payload : ℕ) : Beats env ws (ws.unmaskFrame frame payload) := by
    refine of_notes (Steady.unmaskFrame ws frame payload) ?_
    unfold WebSocket.unmaskFrame
    split_ifs <;> rfl
  unfold WebSocketHft.handleFrame
  dsimp only
  split_ifs
  · exact (hunmask _).trans (deliverMessage _ _)
  · exact (hunmask _).trans (websocketSendPong _ _)
  · exact ⟨_, (HeartbeatRun.start ws).pong⟩
  · exact of_steady ((Steady.note rfl rfl).trans (.setState _ _)) rfl
  · exact refl ws

theorem handshakeStep (ws : WebSocket) : Beats env ws (WebSocketHft.handshakeStep env ws) := by
  refine of_steady (Steady.handshakeStep ws) ?_
  have hlog (ws : WebSocket) (msg : String) :
      (ws.wsLog env .info msg).lastPongReceivedNs = ws.lastPongReceivedNs :=
    congrArg Prod.fst (notes_wsLog env ws .info msg)
  have hclose (ws : WebSocket) : (websocketClose ws).lastPongReceivedNs = ws.lastPongReceivedNs :=
    congrArg Prod.fst (notes_websocketClose ws)
  have hcall (ws : WebSocket) (e : Event) :
      (ws.callback env e).lastPongReceivedNs = ws.lastPongReceivedNs :=
    congrArg Prod.fst (notes_callback env ws e)
  unfold WebSocketHft.handshakeStep handshakeComplete
  dsimp only
  split_ifs
  all_goals first | rfl | simp only [hlog, hclose, hcall]
  all_goals rfl

theorem stages : Stages env (Beats env) where
  refl := refl
  trans := trans
  pass _ := of_steady (.keep rfl) rfl
  writeSsl ws := of_steady (.writeSsl ws) rfl
  readSsl ws := of_steady (.readSsl ws) rfl
  readIo ws socketIndex recv := of_steady (.readIo ws socketIndex recv) rfl
  look _ _ := of_steady (.note rfl rfl) rfl
  malformed ws offset := of_notes (Steady.stages.malformed ws offset) (notes_wsLog env _ _ _)
  oversized _ := of_steady (.keep rfl) rfl
  frame := handleFrame
  advance ws n := of_steady ((Steady.stages : Stages env Steady).advance ws n) rfl
  response {ws} _ := handshakeStep ws
  gone {ws} _ := of_steady (.setState ws .closed) rfl
  error code msg hset := callback (Steady.stages.error code msg hset)

theorem checkHealth (ws : WebSocket) : Beats env ws (WebSocketHft.checkHealth env ws) := by
  refine of_notes (Steady.checkHealth ws) ?_
  unfold WebSocketHft.checkHealth
  cases ws.onHealth with
  | none => rfl
  | some userData =>
      have hcall (ws' : WebSocket) (hkeep : ws'.notes = ws.notes) (e : Event) :
          (ws'.callback env e).notes = ws.notes := (notes_callback env ws' e).trans hkeep
      dsimp only
      split_ifs
      · rfl
      · rfl
      · refine hcall _ ?_ _
        rfl
      · refine hcall _ ?_ _
        rfl

theorem reportMetricsIfNeeded (ws : WebSocket) :
    Beats env ws (WebSocketHft.reportMetricsIfNeeded env ws) := by
  refine of_notes (Steady.reportMetricsIfNeeded ws) ?_
  unfold WebSocketHft.reportMetricsIfNeeded
  cases ws.onMetrics with
  | none => rfl
  | some userData =>
      dsimp only
      split_ifs
      · rfl
      · exact notes_callback env _ _

theorem websocketProcess (ws : WebSocket) (events : Option (List KEvent)) :
    Beats env ws (WebSocketHft.websocketProcess env ws events).2 := by
  have hpolled (ctx : IOContext) : Beats env ws { ws with ioCtx := some ctx } :=
    of_steady (.keep rfl) rfl
  unfold WebSocketHft.websocketProcess
  cases ws.ioCtx with
  | none => exact refl ws
  | some ctx =>
      cases events with
      | none => exact hpolled _
      | some events =>
          have hdrained := ((hpolled (ioPoll ctx (some events)).2).trans
            (stages.foldl_handleEvent events _)).trans (stages.drainTail _)
          dsimp only
          rw [processTail_eq]
          split_ifs
          · exact ((hdrained.trans (checkHealth _)).trans (reportMetricsIfNeeded _)).trans
              ⟨_, (HeartbeatRun.start _).check⟩
          · exact hdrained

/-! ### Connecting -/

theorem lastPong_attempt {ws ws' : WebSocket} (h : Attempt env ws ws') :
    ws'.lastPongReceivedNs = ws.lastPongReceivedNs := by
  cases h with
  | setUp h => cases h <;> rfl
  | request bytes => rfl
  | flush => exact congrArg Prod.fst (notes_flush env ws)
  | connecting => rfl

theorem websocketConnect (ws : WebSocket) (url : List UInt8) (a : ConnectAnswers) :
    Beats env ws (WebSocketHft.websocketConnect env ws url a).2 :=
  of_steady (Steady.websocketConnect ws url a)
    ((Attempts.websocketConnect ws url a).invariant
      (P := fun ws' : WebSocket => ws'.lastPongReceivedNs = ws.lastPongReceivedNs)
      (fun hattempt h => (lastPong_attempt hattempt).trans h) rfl)

/-! ### Every call -/

theorem call (ws : WebSocket) (call : PublicCall) : Beats env ws (call.run env ws) := by
  cases call with
  | setHeartbeatConfig config => exact ⟨_, (HeartbeatRun.start ws).configure config⟩
  | connect url answers => exact websocketConnect ws url answers
  | process events => exact websocketProcess ws events
  | send data isText =>
      exact of_notes (Steady.websocketSend ws data isText) (notes_websocketSend env ws data isText)
  | close => exact of_notes (Steady.websocketClose ws) (notes_websocketClose ws)
  | _ => exact ⟨[], (HeartbeatRun.start ws).rest ⟨rfl, rfl⟩⟩

end Beats

/-- Whatever the application calls, what happens to the heartbeat is a run of checks, PONGs and
configurations. -/
theorem heartbeatRun_of_calls (env : Env) (ws : WebSocket) (calls : List PublicCall) :
    ∃ log, HeartbeatRun env ws log (calls.foldl (PublicCall.run env) ws) := by
  induction calls generalizing ws with
  | nil => exact Beats.refl ws
  | cons call calls ih => exact (Beats.call ws call).trans (ih _)

end Interface

/-- For every run of checks, PONGs and configurations that starts without a ping to wait for, at
times that do not go back: the log has every call of `on_heartbeat_timeout`, and each of them has
a cause of its own. That is a ping which was queued at least the timeout before, with no PONG in
between. -/
theorem timeouts_have_causes (env : Env) (ws ws' : WebSocket) (log : List Beat)
    (hrun : HeartbeatRun env ws log ws') (hstopped : ws.lastPingSentNs = 0)
    (hsorted : (Beat.times log).Pairwise (· ≤ ·)) :
    ws'.timeouts = ws.timeouts + log.countP Beat.isExpire ∧
      ∃ cause : ℕ → ℕ,
        (∀ k timeout t, log[k]? = some (.expire timeout t) → Watchdog.Causes log (cause k) k) ∧
        ∀ k timeout t k' timeout' t', log[k]? = some (.expire timeout t) →
          log[k']? = some (.expire timeout' t') → cause k = cause k' → k = k' := by
  obtain ⟨hwatchdog, haccepts⟩ := hrun.refines hstopped hsorted
  refine ⟨?_, Watchdog.exists_causes ((lastPingSentNs_eq_zero_iff ws).mp hstopped) haccepts hsorted⟩
  have hcount := congrArg Watchdog.expirations hwatchdog
  rw [Watchdog.expirations_foldl_after] at hcount
  exact hcount

/-- A connection on which PONGs have to come within 250 ms, after its first check. -/
def firstCheck : WebSocket :=
  checkHeartbeat tickingEnv
    (websocketSetHeartbeatConfig (runCalls tickingEnv true accepted) ⟨true, 1000, 250, true, 0⟩)

/-- The same connection 350 ms after the ping. -/
def waitedFor : WebSocket := { firstCheck with tick := firstCheck.tick + 5 }

/-- The ping of the first check causes the timeout of the second one. -/
theorem timeout_caused_by_first_ping :
    ∃ j, Watchdog.Causes [.reset, .start 1150000000, .expire 250000000 1500000000] j 2 := by
  have hlog : [Beat.reset, .start 1150000000, .expire 250000000 1500000000] =
      ([] ++ [.reset] ++ checkBeats tickingEnv (websocketSetHeartbeatConfig
        (runCalls tickingEnv true accepted) ⟨true, 1000, 250, true, 0⟩)) ++
        checkBeats tickingEnv waitedFor := by
    decide +kernel
  have hstopped : (runCalls tickingEnv true accepted).lastPingSentNs = 0 := by decide +kernel
  have hrun : HeartbeatRun tickingEnv (runCalls tickingEnv true accepted)
      [.reset, .start 1150000000, .expire 250000000 1500000000]
      (checkHeartbeat tickingEnv waitedFor) := by
    rw [hlog]
    exact .check (.rest (.check (.configure (.start _) _)) (.tick _ _))
  obtain ⟨-, cause, hcause, -⟩ := timeouts_have_causes tickingEnv _ _ _ hrun hstopped (by decide)
  exact ⟨cause 2, hcause 2 250000000 1500000000 rfl⟩

end WebSocketHft

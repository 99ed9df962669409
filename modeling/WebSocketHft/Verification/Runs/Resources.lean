import WebSocketHft.Shared.Runs
import WebSocketHft.Verification.Runs.Connecting
import WebSocketHft.Verification.Sockets.Ownership

/-! # State and resources

A connection that is CONNECTING or CONNECTED needs its descriptor, its slot in the
registry, its rings and, with TLS, a context. Every call keeps this agreement but
a `websocket_connect` that fails on a connection that is still in use. -/

namespace WebSocketHft

open WebSocketHft.Runs

variable {env : Env} {ws ws' : WebSocket}

/-- Everything a connection in use needs. -/
structure Equipped (ws : WebSocket) : Prop where
  fd_nonneg : 0 ≤ ws.fd
  slot : ∃ ctx, ws.ioCtx = some ctx ∧ 0 ≤ ws.socketIndex ∧
    (slotFds ctx)[ws.socketIndex.toNat]? = some ws.fd
  rx_size : ws.rxRing.size ≠ 0
  tx_size : ws.txRing.size ≠ 0
  ssl : ws.useSsl = true → ws.sslCtx.isSome = true

def Agrees (ws : WebSocket) : Prop := Live ws → Equipped ws

/-! ## Moves -/

theorem Equipped.of_core (h : Equipped ws) (hcore : ws'.core = ws.core) : Equipped ws' := by
  have hfd : ws'.fd = ws.fd := congrArg Core.fd hcore
  have hio : ws'.ioCtx = ws.ioCtx := congrArg Core.ioCtx hcore
  have hindex : ws'.socketIndex = ws.socketIndex := congrArg Core.socketIndex hcore
  have hrx : ws'.rxRing = ws.rxRing := congrArg Core.rxRing hcore
  have htx : ws'.txRing.size = ws.txRing.size := congrArg Core.txSize hcore
  have huse : ws'.useSsl = ws.useSsl := congrArg Core.useSsl hcore
  have hssl : ws'.sslCtx = ws.sslCtx := congrArg Core.sslCtx hcore
  exact ⟨hfd ▸ h.fd_nonneg, by rw [hio, hindex, hfd]; exact h.slot, hrx ▸ h.rx_size,
    htx ▸ h.tx_size, by rw [huse, hssl]; exact h.ssl⟩

theorem Equipped.setState (h : Equipped ws) (state : WSState) : Equipped (ws.setState state) :=
  ⟨h.fd_nonneg, h.slot, h.rx_size, h.tx_size, h.ssl⟩

theorem Equipped.of_outline (h : Equipped ws) (heq : ws'.outline = ws.outline) : Equipped ws' := by
  have hfd : ws'.fd = ws.fd := congrArg Outline.fd heq
  have hslots : ws'.ioCtx.map slotFds = ws.ioCtx.map slotFds := congrArg Outline.slots heq
  have hindex : ws'.socketIndex = ws.socketIndex := congrArg Outline.socketIndex heq
  have hrx : ws'.rxRing.size = ws.rxRing.size := congrArg Outline.rxSize heq
  have htx : ws'.txRing = ws.txRing := congrArg Outline.txRing heq
  have huse : ws'.useSsl = ws.useSsl := congrArg Outline.useSsl heq
  have hssl : ws'.sslCtx = ws.sslCtx := congrArg Outline.sslCtx heq
  refine ⟨hfd ▸ h.fd_nonneg, ?_, hrx ▸ h.rx_size, htx ▸ h.tx_size, by rw [huse, hssl]; exact h.ssl⟩
  obtain ⟨ctx, hctx, hpos, hslot⟩ := h.slot
  rw [hctx, Option.map_some, Option.map_eq_some_iff] at hslots
  obtain ⟨ctx', hctx', hsame⟩ := hslots
  exact ⟨ctx', hctx', hindex ▸ hpos, by rw [hsame, hindex, hfd]; exact hslot⟩

/-- `ssl_read` keeps a context and the size of the ring. -/
theorem sslRead_keeps (ctx : Option SSLContext) (rb : RingBuffer) (answer : TlsAnswer) :
    (sslRead ctx rb answer).ctx.isSome = ctx.isSome ∧
      (sslRead ctx rb answer).ring.size = rb.size := by
  cases ctx with
  | none => exact ⟨rfl, rfl⟩
  | some ctx =>
      simp only [sslRead]
      cases ctx.backend with
      | secureTransport =>
          dsimp only [sslReadSecureTransport]
          split_ifs <;> exact ⟨rfl, rfl⟩
      | openSSL =>
          dsimp only [sslReadOpenSSL]
          split_ifs <;> exact ⟨rfl, rfl⟩

theorem Equipped.readSsl (h : Equipped ws) : Equipped (ws.readSsl env).2 := by
  obtain ⟨hctx, hsize⟩ := sslRead_keeps ws.sslCtx ws.rxRing (env ws.tick).tls
  exact ⟨h.fd_nonneg, h.slot, fun hzero => h.rx_size (hsize.symm.trans hzero), h.tx_size,
    fun huse => hctx.trans (h.ssl huse)⟩

/-- Only a connection in use is in use after a move. -/
theorem Agrees.move (hmove : Move env ws ws') (h : Agrees ws) : Agrees ws' := by
  have hquiet (hq : Quiet ws ws') : Agrees ws' := by
    intro hlive
    rw [Live, hq.state] at hlive
    exact (h hlive).of_core hq.core
  have hnot {ws₁ : WebSocket} (hstate : ws₁.state = .closed ∨ ws₁.state = .closing) :
      Agrees ws₁ := by
    rintro (hlive | hlive) <;> rcases hstate with hstate | hstate <;>
      exact WSState.noConfusion (hlive.symm.trans hstate)
  cases hmove with
  | keep heq =>
      intro hlive
      rw [Live, show ws'.state = ws.state from congrArg Outline.state heq] at hlive
      exact (h hlive).of_outline heq
  | observe _ => exact fun hlive => (h hlive).of_core rfl
  | readSsl => exact fun hlive => Equipped.readSsl (h hlive)
  | writeSsl => exact hquiet (Quiet.writeSsl env ws)
  | writeIo => exact hquiet (Quiet.writeIo env ws)
  | send data isText => exact hquiet (Quiet.websocketSend env ws data isText)
  | pong payload => exact hquiet (Quiet.websocketSendPong env ws payload)
  | ping => exact hquiet (quiet_queuePing ws)
  | close => exact hnot (Or.inl (websocketClose_state ws))
  | accept hstate => exact fun _ => ((h (Or.inl hstate)).setState .connected).of_core rfl
  | receiveClose => exact hnot (Or.inr rfl)
  | gone _ => exact hnot (Or.inl rfl)

/-! ## Connecting -/

/-- What a clean-up leaves behind agrees with the state only if that was not in use. -/
theorem agrees_connectCleanup_iff (hstate : ws'.state = ws.state) :
    Agrees (connectCleanup ws') ↔ ¬Live ws := by
  have hkept : (connectCleanup ws').state = ws.state := by
    unfold connectCleanup
    dsimp only
    split_ifs <;> exact hstate
  have hlive : Live (connectCleanup ws') ↔ Live ws := by rw [Live, hkept, Live]
  have hnone : ¬Equipped (connectCleanup ws') := by
    intro hequipped
    obtain ⟨ctx, hctx, -⟩ := hequipped.slot
    cases hctx
  rw [Agrees, hlive]
  exact ⟨fun hagrees hws => hnone (hagrees hws), fun hnot hws => absurd hws hnot⟩

/-- A socket in a fresh registry is the first one. -/
theorem slotFds_ioAddSocket_fresh {ctx : IOContext} (hfresh : ioInit true = some ctx) {fd : ℤ}
    {configured registered : Bool} (h : 0 ≤ (ioAddSocket ctx fd configured registered).1) :
    (ioAddSocket ctx fd configured registered).1 = 0 ∧
      slotFds (ioAddSocket ctx fd configured registered).2 = [fd] := by
  cases hfresh
  rcases ioAddSocket_cases ⟨some fun _ => none, []⟩ fd configured registered with heq | ⟨-, heq⟩
  · rw [heq] at h
    exact absurd h (by decide)
  · rw [heq]
    exact ⟨rfl, rfl⟩

/-- A connection that has its rings, its descriptor and, where it is asked for, a TLS context is
equipped once its socket is in the fresh registry. -/
theorem equipped_addSocket {ctx : IOContext} (hfresh : ioInit true = some ctx) {parts : UrlParts}
    {sslCtx : Option SSLContext} (hssl : parts.useSsl = true → sslCtx.isSome = true)
    (hcore : ws'.core = { (ws.prepared parts ctx).openSocket.core with sslCtx := sslCtx })
    {configured registered : Bool} (hadded : 0 ≤ (ioAddSocket ctx ws'.fd configured registered).1) :
    Equipped (ws'.addSocket (ioAddSocket ctx ws'.fd configured registered)) := by
  have hfd : ws'.fd = ws.nextFd := congrArg Core.fd hcore
  have hrx : ws'.rxRing = ringbufferInit := congrArg Core.rxRing hcore
  have htx : ws'.txRing.size = ringbufferInit.size := congrArg Core.txSize hcore
  have huse : ws'.useSsl = parts.useSsl := congrArg Core.useSsl hcore
  have hctx : ws'.sslCtx = sslCtx := congrArg Core.sslCtx hcore
  obtain ⟨hzero, hslots⟩ := slotFds_ioAddSocket_fresh hfresh hadded
  refine ⟨?_, ⟨_, rfl, hadded, ?_⟩, ?_, ?_, ?_⟩
  · change 0 ≤ ws'.fd
    rw [hfd]
    exact Int.natCast_nonneg _
  · change (slotFds _)[(ioAddSocket ctx ws'.fd configured registered).1.toNat]? = some ws'.fd
    rw [hzero, hslots]
    rfl
  · change ws'.rxRing.size ≠ 0
    rw [hrx]
    decide
  · change ws'.txRing.size ≠ 0
    rw [htx]
    decide
  · change ws'.useSsl = true → ws'.sslCtx.isSome = true
    rwa [huse, hctx]

theorem ioAddSocket_fresh_fst {ctx : IOContext} (hctx : ioInit true = some ctx)
    {fd : ℤ} (hfd : 0 ≤ fd) (configured registered : Bool) :
    (ioAddSocket ctx fd configured registered).1 =
      if configured = false ∨ registered = false then -1 else 0 := by
  cases hctx
  have hopen : ¬(fd < 0 ∨ ioMaxSockets ≤ ([] : List IOSocket).length) := by
    simp [ioMaxSockets, hfd]
  unfold ioAddSocket
  rw [if_neg hopen]
  cases configured <;> cases registered <;> rfl

/-- Nothing `websocket_connect` asks for is refused. It asks for TLS if the URL does. -/
structure ConnectAnswers.Granted (a : ConnectAnswers) (useSsl : Bool) : Prop where
  rings : a.rxInit = true ∧ a.txInit = true
  queue : a.ctxAllocated = true ∧ a.kqueue = true
  tcp : a.tcp = true
  ssl : useSsl = true → a.backend.isSome = true ∧ a.established = true
  socket : a.configured = true ∧ a.registered = true

theorem connectSsl_fst_iff (ws : WebSocket) (a : ConnectAnswers) (hfd : 0 ≤ ws.fd) :
    (connectSsl ws a).1 = true ↔
      (ws.useSsl = true → a.backend.isSome = true ∧ a.established = true) := by
  unfold connectSsl
  by_cases hssl : ws.useSsl = true
  · rw [if_pos hssl]
    cases a.backend with
    | none => simp [sslInit, hssl]
    | some backend =>
        cases hestablished : a.established <;>
          simp [sslInit, sslConnect, not_lt.mpr hfd, hssl]
  · rw [if_neg hssl]
    exact iff_of_true rfl fun hused => absurd hused hssl

/-- The request fits in a fresh ring, so only the registration can fail. -/
theorem connectSocket_fst_iff (env : Env) {ctx : IOContext} (hfresh : ioInit true = some ctx)
    (hfd : 0 ≤ ws.fd) (htx : ws.txRing = ringbufferInit) (a : ConnectAnswers) :
    (connectSocket env ws ctx a).1 = 0 ↔ a.configured = true ∧ a.registered = true := by
  have hindex : (ws.addSocket (ioAddSocket ctx ws.fd a.configured a.registered)).socketIndex =
      if a.configured = false ∨ a.registered = false then -1 else 0 :=
    ioAddSocket_fresh_fst hfresh hfd a.configured a.registered
  have hsent := @sendHandshake_fst env
    (ws.addSocket (ioAddSocket ctx ws.fd a.configured a.registered)) a.encoded htx
  unfold connectSocket
  dsimp only
  generalize ws.addSocket (ioAddSocket ctx ws.fd a.configured a.registered) = added
    at hindex hsent ⊢
  rw [hindex]
  by_cases hfailed : a.configured = false ∨ a.registered = false
  · rw [if_pos hfailed, if_pos (by decide)]
    rcases hfailed with hfailed | hfailed <;> simp [hfailed]
  · rw [if_neg hfailed, if_neg (by decide), if_neg (not_not.mpr hsent)]
    simpa using hfailed

theorem connectRest_fst_iff (env : Env) (ws : WebSocket) (htx : ws.txRing = ringbufferInit)
    (a : ConnectAnswers) :
    (connectRest env ws a).1 = 0 ↔
      (a.ctxAllocated = true ∧ a.kqueue = true) ∧ a.tcp = true ∧
        (ws.useSsl = true → a.backend.isSome = true ∧ a.established = true) ∧
        a.configured = true ∧ a.registered = true := by
  have hminus : ¬(-1 : ℤ) = 0 := by decide
  unfold connectRest
  by_cases hqueue : a.ctxAllocated = true ∧ a.kqueue = true
  · have hfresh : (if a.ctxAllocated = true then ioInit a.kqueue else none) = ioInit true := by
      rw [if_pos hqueue.1, hqueue.2]
    rw [hfresh]
    generalize hctx : ioInit true = fresh
    cases fresh with
    | none => cases hctx
    | some ctx =>
        have hssl := connectSsl_fst_iff (ws.setIo ctx).openSocket a (Int.natCast_nonneg _)
        obtain ⟨hfd, htxRing⟩ := connectSsl_keeps (ws.setIo ctx).openSocket a
        have hsocket := connectSocket_fst_iff env hctx (hfd ▸ Int.natCast_nonneg _)
          (htxRing.trans htx) a
        dsimp only
        split_ifs with htcp hfailed
        · exact iff_of_false hminus fun hall => Bool.noConfusion (htcp.symm.trans hall.2.1)
        · exact iff_of_false hminus fun hall =>
            Bool.noConfusion (hfailed.symm.trans (hssl.mpr hall.2.2.1))
        · have hgranted := hssl.mp (Bool.eq_true_of_not_eq_false hfailed)
          rw [hsocket]
          exact ⟨fun hall => ⟨hqueue, Bool.eq_true_of_not_eq_false htcp, hgranted, hall⟩,
            fun hall => hall.2.2.2⟩
  · have hnone : (if a.ctxAllocated = true then ioInit a.kqueue else none) = none := by
      revert hqueue
      cases a.ctxAllocated <;> cases a.kqueue <;> simp [ioInit]
    rw [hnone]
    exact iff_of_false hminus fun hall => hqueue hall.1

/-- `websocket_connect` succeeds exactly if the URL is accepted and nothing is refused. -/
theorem websocketConnect_fst_iff (env : Env) (ws : WebSocket) (url : List UInt8)
    (a : ConnectAnswers) {ret : ℤ} {parts : UrlParts}
    (hparse : parseUrl url 256 1024 ⟨ws.host, ws.path, ws.port, ws.useSsl⟩ = (ret, parts)) :
    (websocketConnect env ws url a).1 = 0 ↔ ret = 0 ∧ a.Granted parts.useSsl := by
  have hfailed (h : ret = 0 → ¬a.Granted parts.useSsl) :
      (-1 : ℤ) = 0 ↔ ret = 0 ∧ a.Granted parts.useSsl :=
    iff_of_false (by decide) fun hall => h hall.1 hall.2
  rw [websocketConnect_eq env ws url a hparse]
  dsimp only
  split_ifs with hret hrx htx
  · exact hfailed fun hzero => absurd hzero hret
  · exact hfailed fun _ hall => Bool.noConfusion (hrx.symm.trans hall.rings.1)
  · exact hfailed fun _ hall => Bool.noConfusion (htx.symm.trans hall.rings.2)
  · rw [connectRest_fst_iff env (ws.setUrl parts).initRings rfl]
    have hrings : a.rxInit = true ∧ a.txInit = true :=
      ⟨Bool.eq_true_of_not_eq_false hrx, Bool.eq_true_of_not_eq_false htx⟩
    constructor
    · rintro ⟨hqueue, htcp, hssl, hsocket⟩
      exact ⟨not_not.mp hret, hrings, hqueue, htcp, hssl, hsocket⟩
    · rintro ⟨-, hall⟩
      exact ⟨hall.queue, hall.tcp, hall.ssl, hall.socket⟩

/-- A connect is accepted and granted all it asks for, or it finds a connection that is not in
use, or it only rejects its URL and does not ask for TLS without a context by the way. -/
def ConnectSafe (ws : WebSocket) (url : List UInt8) (a : ConnectAnswers) : Prop :=
  let parsed := parseUrl url 256 1024 ⟨ws.host, ws.path, ws.port, ws.useSsl⟩
  parsed.1 = 0 ∧ a.Granted parsed.2.useSsl ∨ ¬Live ws ∨
    parsed.1 ≠ 0 ∧ (parsed.2.useSsl = true → ws.sslCtx.isSome = true)

theorem agrees_connect_iff (h : Agrees ws) (url : List UInt8) (a : ConnectAnswers) :
    Agrees (websocketConnect env ws url a).2 ↔ ConnectSafe ws url a := by
  unfold ConnectSafe
  generalize hparse : parseUrl url 256 1024 ⟨ws.host, ws.path, ws.port, ws.useSsl⟩ = parsed
  obtain ⟨ret, parts⟩ := parsed
  dsimp only
  rw [← websocketConnect_fst_iff env ws url a hparse]
  have hfailed {ws' : WebSocket} (hret : ret = 0) (hstate : ws'.state = ws.state) :
      Agrees (connectCleanup ws') ↔ (-1 : ℤ) = 0 ∨ ¬Live ws ∨
        ret ≠ 0 ∧ (parts.useSsl = true → ws.sslCtx.isSome = true) := by
    rw [agrees_connectCleanup_iff hstate]
    simp [hret]
  have hopened (ctx : IOContext) :
      (connectSsl (ws.prepared parts ctx).openSocket a).2.state = ws.state := by
    obtain ⟨_, hcore, -⟩ := core_connectSsl (ws.prepared parts ctx).openSocket a
    exact congrArg Core.state hcore
  refine websocketConnect_cases (P := fun r ws' => Agrees ws' ↔ r = 0 ∨ ¬Live ws ∨
    ret ≠ 0 ∧ (parts.useSsl = true → ws.sslCtx.isSome = true)) env ws url a hparse ?_ ?_ ?_ ?_ ?_
  · intro hret
    constructor
    · intro hagrees
      by_cases hlive : Live ws
      · exact Or.inr (Or.inr ⟨hret, fun huse => (hagrees hlive).ssl huse⟩)
      · exact Or.inr (Or.inl hlive)
    · rintro (hzero | hnot | ⟨-, hssl⟩) hlive
      · exact absurd hzero (by decide)
      · exact absurd hlive hnot
      · have hbefore := h hlive
        exact ⟨hbefore.fd_nonneg, hbefore.slot, hbefore.rx_size, hbefore.tx_size, hssl⟩
  · intro rx tx hret
    exact hfailed hret rfl
  · intro ctx hret _
    exact hfailed hret rfl
  · intro ctx hret _ _
    exact hfailed hret (hopened ctx)
  · intro ctx hfresh hret _ hssl
    refine connectSocket_cases (P := fun r ws' => Agrees ws' ↔ r = 0 ∨ ¬Live ws ∨
      ret ≠ 0 ∧ (parts.useSsl = true → ws.sslCtx.isSome = true)) env _ ctx a ?_ ?_
    · intro ws' hstate
      exact hfailed hret (hstate.trans (hopened ctx))
    · intro sent hadded hcore
      obtain ⟨sslCtx, hcore', hctx⟩ := core_connectSsl (ws.prepared parts ctx).openSocket a
      have hequipped := (equipped_addSocket hfresh (hctx hssl) hcore' hadded).of_core hcore
      exact iff_of_true (fun _ => hequipped.setState .connecting) (Or.inl rfl)

/-! ## Runs -/

/-- The condition on the calls of a run. -/
def PublicCall.Safe (ws : WebSocket) : PublicCall → Prop
  | .connect url a => ConnectSafe ws url a
  | _ => True

theorem agrees_call_iff (h : Agrees ws) (call : PublicCall) :
    Agrees (call.run env ws) ↔ call.Safe ws := by
  by_cases hconnect : ∃ url answers, call = .connect url answers
  · obtain ⟨url, answers, rfl⟩ := hconnect
    exact agrees_connect_iff h url answers
  · have hmoves : Moves env ws (call.run env ws) :=
      call.moves env ws fun url answers heq => hconnect ⟨url, answers, heq⟩
    refine iff_of_true (hmoves.invariant Agrees.move h) ?_
    cases call with
    | connect url answers => exact absurd ⟨url, answers, rfl⟩ hconnect
    | _ => trivial

/-- In every state of a run from `websocket_create` on, state and resources agree exactly if
every `websocket_connect` is accepted and granted all it asks for, or finds a connection that is
not in use, or only rejects its URL and does not ask for TLS without a context by the way. -/
theorem state_resources_agree_iff (env : Env) (allocated : Bool) (calls : List PublicCall) :
    Always (PublicCall.run env) Agrees (websocketCreate allocated) calls ↔
      Along (PublicCall.run env) PublicCall.Safe (websocketCreate allocated) calls := by
  have hcreate : Agrees (websocketCreate allocated) := by
    rintro (hlive | hlive)
    · cases hlive
    · cases hlive
  refine always_iff_along (G := fun _ => True) ?_ (fun _ _ => trivial) hcreate
  intro ws call hws _
  exact agrees_call_iff hws call

/-- A connection is opened and closed, and opening it again fails. -/
theorem agree_after_failing_reconnect :
    Always (PublicCall.run fun _ => {}) Agrees (websocketCreate true)
      [.connect (ascii "ws://h/") {}, .close, .connect (ascii "ws://h/") { tcp := false }] := by
  refine (state_resources_agree_iff (fun _ => {}) true _).mpr
    ⟨Or.inl ⟨?_, ?_⟩, trivial, ?_, trivial⟩
  · decide +kernel
  · exact ⟨⟨rfl, rfl⟩, ⟨rfl, rfl⟩, rfl, fun _ => ⟨rfl, rfl⟩, ⟨rfl, rfl⟩⟩
  · exact Or.inr (Or.inl (by decide +kernel))

/-- Opening a connection that is still CONNECTING fails in `tcp_connect`: it stays CONNECTING
without a descriptor, without a registry and without rings. -/
theorem failing_connect_leaves_live_state :
    let ws := runCalls (fun _ => {}) true
      [.connect (ascii "ws://h/") {}, .connect (ascii "ws://h/") { tcp := false }]
    (websocketConnect (fun _ => {}) (runCalls (fun _ => {}) true [.connect (ascii "ws://h/") {}])
        (ascii "ws://h/") { tcp := false }).1 = -1 ∧
      ws.state = .connecting ∧ ws.fd = -1 ∧ ws.ioCtx.isNone = true ∧ ws.rxRing.size = 0 ∧
      ws.txRing.size = 0 := by
  decide +kernel

end WebSocketHft

import WebSocketHft.Verification.Frames.Quiet
import WebSocketHft.Verification.Ringbuffer.Equations
import WebSocketHft.Verification.Runs.Connecting

/-! # Who closes a descriptor

A descriptor is held by the connection and, on TLS, by its context as well. The
invariant of a sound run: every descriptor ever opened has been closed exactly
once, except the one the connection holds, and the context holds no other. -/

namespace WebSocketHft

/-! ## Counting -/

/-- How often the descriptor was handed out by `tcp_connect`. -/
def opens (trace : List Event) (fd : ℤ) : ℕ := trace.count (.opened fd)

/-- How often it was passed to `close`. -/
def closes (trace : List Event) (fd : ℤ) : ℕ := trace.count (.closed fd)

def Event.isSocket : Event → Bool
  | .opened _ => true
  | .closed _ => true
  | _ => false

theorem opens_append (es es' : List Event) (fd : ℤ) :
    opens (es ++ es') fd = opens es fd + opens es' fd := List.count_append

theorem closes_append (es es' : List Event) (fd : ℤ) :
    closes (es ++ es') fd = closes es fd + closes es' fd := List.count_append

theorem opens_eq_zero {es : List Event} (h : ∀ e ∈ es, e.isSocket = false) (fd : ℤ) :
    opens es fd = 0 := by
  rw [opens, List.count_eq_zero]
  intro hmem
  exact Bool.noConfusion (h _ hmem)

theorem closes_eq_zero {es : List Event} (h : ∀ e ∈ es, e.isSocket = false) (fd : ℤ) :
    closes es fd = 0 := by
  rw [closes, List.count_eq_zero]
  intro hmem
  exact Bool.noConfusion (h _ hmem)

theorem count_singleton_of_injective {f : ℤ → Event} (hf : Function.Injective f) (fd fd' : ℤ) :
    [f fd].count (f fd') = if fd' = fd then 1 else 0 := by
  by_cases h : fd' = fd
  · simp [h]
  · have hne : f fd ≠ f fd' := fun heq => h (hf heq).symm
    simp [h, hne]

theorem closes_singleton (fd fd' : ℤ) : closes [.closed fd] fd' = if fd' = fd then 1 else 0 :=
  count_singleton_of_injective (fun _ _ heq => Event.closed.inj heq) fd fd'

theorem opens_singleton (fd fd' : ℤ) : opens [.opened fd] fd' = if fd' = fd then 1 else 0 :=
  count_singleton_of_injective (fun _ _ heq => Event.opened.inj heq) fd fd'

/-! ## The invariant -/

structure Owned (ws : WebSocket) : Prop where
  fd_lt : ws.fd < ws.nextFd
  opens_eq : ∀ fd, opens ws.trace fd = if 0 ≤ fd ∧ fd < ws.nextFd then 1 else 0
  closes_eq : ∀ fd, closes ws.trace fd =
    if 0 ≤ fd ∧ fd < ws.nextFd ∧ fd ≠ ws.fd then 1 else 0
  ssl : ws.sslFd < 0 ∨ ws.sslFd = ws.fd

variable {env : Env} {ws ws' : WebSocket}

theorem owned_websocketCreate (allocated : Bool) : Owned (websocketCreate allocated) where
  fd_lt := by change (-1 : ℤ) < 0; decide
  opens_eq fd := by
    change 0 = if 0 ≤ fd ∧ fd < ((0 : ℕ) : ℤ) then 1 else 0
    rw [if_neg (by omega)]
  closes_eq fd := by
    change 0 = if 0 ≤ fd ∧ fd < ((0 : ℕ) : ℤ) ∧ fd ≠ -1 then 1 else 0
    rw [if_neg (by omega)]
  ssl := Or.inl (by change (-1 : ℤ) < 0; decide)

/-- Steps that neither open nor close; the context may give its descriptor up. -/
theorem Owned.extend (h : Owned ws) (hfd : ws'.fd = ws.fd) (hnext : ws'.nextFd = ws.nextFd)
    (hssl : ws'.sslFd < 0 ∨ ws'.sslFd = ws.sslFd) {es : List Event}
    (htrace : ws'.trace = ws.trace ++ es) (hes : ∀ e ∈ es, e.isSocket = false) : Owned ws' where
  fd_lt := by
    rw [hfd, hnext]
    exact h.fd_lt
  opens_eq fd := by
    rw [htrace, opens_append, opens_eq_zero hes, hnext, Nat.add_zero]
    exact h.opens_eq fd
  closes_eq fd := by
    rw [htrace, closes_append, closes_eq_zero hes, hfd, hnext, Nat.add_zero]
    exact h.closes_eq fd
  ssl := by
    rw [hfd]
    rcases hssl with hnone | hsame
    · exact Or.inl hnone
    · rw [hsame]
      exact h.ssl

theorem Owned.congr (h : Owned ws) (hfd : ws'.fd = ws.fd) (hnext : ws'.nextFd = ws.nextFd)
    (hssl : ws'.sslCtx = ws.sslCtx) (htrace : ws'.trace = ws.trace) : Owned ws' :=
  h.extend hfd hnext (Or.inr (congrArg sslContextFd hssl))
    (by rw [htrace, List.append_nil]) fun _ he => absurd he List.not_mem_nil

theorem Owned.record (h : Owned ws) {e : Event} (he : e.isSocket = false) :
    Owned (ws.record e) :=
  h.extend rfl rfl (Or.inr rfl) rfl (by simpa using he)

theorem Owned.setState (h : Owned ws) (state : WSState) : Owned (ws.setState state) :=
  h.extend rfl rfl (Or.inr rfl) rfl (by simp [Event.isSocket])

theorem isSocket_of_isQuiet {e : Event} (h : e.isQuiet) : e.isSocket = false := by
  cases e with
  | opened fd => cases h
  | closed fd => cases h
  | _ => rfl

theorem Owned.quiet (h : Owned ws) (hquiet : Quiet ws ws') : Owned ws' := by
  obtain ⟨es, htrace, hes⟩ := hquiet.events
  have hssl : ws'.sslFd = ws.sslFd :=
    congrArg sslContextFd (congrArg Core.sslCtx hquiet.core)
  exact h.extend (congrArg Core.fd hquiet.core) (congrArg Core.nextFd hquiet.core) (Or.inr hssl)
    htrace fun e he => isSocket_of_isQuiet (hes e he)

/-- The connection closes its descriptor, which the context does not hold. -/
theorem Owned.release (h : Owned ws) (hpos : 0 ≤ ws.fd) (hheld : ws.sslFd ≠ ws.fd)
    (hfd : ws'.fd = -1) (hnext : ws'.nextFd = ws.nextFd) (hssl : ws'.sslCtx = ws.sslCtx)
    {es : List Event} (htrace : ws'.trace = ws.trace ++ es) (hopens : ∀ fd, opens es fd = 0)
    (hcloses : ∀ fd, closes es fd = if fd = ws.fd then 1 else 0) : Owned ws' where
  fd_lt := by
    rw [hfd, hnext]
    omega
  opens_eq fd := by
    rw [htrace, opens_append, hopens, hnext, Nat.add_zero]
    exact h.opens_eq fd
  closes_eq fd := by
    have hlt := h.fd_lt
    rw [htrace, closes_append, hcloses, h.closes_eq, hfd, hnext]
    by_cases hsame : fd = ws.fd
    · rw [if_neg (by omega), if_pos hsame, if_pos (by omega)]
    · rw [if_neg hsame, Nat.add_zero]
      congr 1
      simp only [eq_iff_iff]
      omega
  ssl := by
    have hnone := h.ssl.resolve_right hheld
    have hsame : ws'.sslFd = ws.sslFd := congrArg sslContextFd hssl
    rw [hsame]
    exact Or.inl hnone

/-! ## Moves -/

/-- A descriptor is not closed while the TLS context holds it as well. -/
def Event.Unshared : Event → Prop
  | .closing fd sslFd => sslFd ≠ fd
  | _ => True

instance (e : Event) : Decidable e.Unshared :=
  match e with
  | .closing fd sslFd => inferInstanceAs (Decidable (sslFd ≠ fd))
  | .message _ _ | .error _ _ _ | .metrics _ _ | .health _ _ _ | .log _ _ _
  | .heartbeatTimeout _ | .opened _ | .closed _ | .state _ _ | .connected _ | .received _ | .sent _ | .request _
  | .queued _ | .transmit _ _ _ _ _ | .frames _ | .closeFrame _ => isTrue trivial

/-- `ssl_read` keeps the descriptor of the context or gives it up. -/
theorem sslContextFd_sslRead (ctx : Option SSLContext) (rb : RingBuffer) (answer : TlsAnswer) :
    sslContextFd (sslRead ctx rb answer).ctx < 0 ∨
      sslContextFd (sslRead ctx rb answer).ctx = sslContextFd ctx := by
  cases ctx with
  | none => exact Or.inr rfl
  | some ctx =>
      simp only [sslRead]
      cases ctx.backend with
      | secureTransport =>
          dsimp only [sslReadSecureTransport]
          split_ifs
          all_goals first
            | exact Or.inr rfl
            | exact Or.inl (by change (-1 : ℤ) < 0; decide)
      | openSSL =>
          dsimp only [sslReadOpenSSL]
          split_ifs <;> exact Or.inr rfl

theorem Owned.close (h : Owned ws) (hunshared : ∀ e ∈ (websocketClose ws).trace, e.Unshared) :
    Owned (websocketClose ws) := by
  unfold websocketClose at hunshared ⊢
  by_cases hclosed : ws.state = .closed
  · rwa [if_pos hclosed]
  · rw [if_neg hclosed] at hunshared ⊢
    by_cases hpos : 0 ≤ ws.fd
    · rw [if_pos hpos] at hunshared ⊢
      have hheld : ws.sslFd ≠ ws.fd := by
        apply hunshared (.closing ws.fd ws.sslFd)
        rw [trace_setState, trace_closeSocket]
        simp
      have hreleased : Owned ws.closeSocket :=
        h.release hpos hheld rfl rfl rfl (trace_closeSocket ws) (fun _ => rfl)
          (closes_singleton ws.fd)
      exact hreleased.setState .closed
    · rw [if_neg hpos]
      exact h.setState _

theorem isSocket_of_isNeutral {e : Event} (h : e.isNeutral) : e.isSocket = false := by
  cases e with
  | opened fd => cases h
  | closed fd => cases h
  | _ => rfl

theorem Owned.move (hmove : Move env ws ws') (h : Owned ws)
    (hunshared : ∀ e ∈ ws'.trace, e.Unshared) : Owned ws' := by
  cases hmove with
  | keep heq =>
      exact h.congr (congrArg Outline.fd heq) (congrArg Outline.nextFd heq)
        (congrArg Outline.sslCtx heq) (congrArg Outline.trace heq)
  | observe he => exact h.record (isSocket_of_isNeutral he)
  | readSsl =>
      have hread : Owned { ws with
          sslCtx := (sslRead ws.sslCtx ws.rxRing (env ws.tick).tls).ctx
          rxRing := (sslRead ws.sslCtx ws.rxRing (env ws.tick).tls).ring } :=
        h.extend rfl rfl (sslContextFd_sslRead _ _ _) (List.append_nil _).symm
          fun _ he => absurd he List.not_mem_nil
      exact (hread.record rfl).congr rfl rfl rfl rfl
  | writeSsl => exact h.quiet (Quiet.writeSsl env ws)
  | writeIo => exact h.quiet (Quiet.writeIo env ws)
  | send data isText => exact h.quiet (Quiet.websocketSend env ws data isText)
  | pong payload => exact h.quiet (Quiet.websocketSendPong env ws payload)
  | ping => exact h.quiet (quiet_queuePing ws)
  | close => exact h.close hunshared
  | accept _ => exact Owned.setState (h.record rfl) .connected
  | receiveClose => exact Owned.setState (h.record rfl) .closing
  | gone _ => exact h.setState _

/-- Along moves that never close a shared descriptor. -/
theorem Owned.moves (h : Owned ws) (hmoves : Moves env ws ws')
    (hunshared : ∀ e ∈ ws'.trace, e.Unshared) : Owned ws' := by
  have hstep : ∀ {ws₁ ws₂}, Move env ws₁ ws₂ → ((∀ e ∈ ws₁.trace, e.Unshared) → Owned ws₁) →
      (∀ e ∈ ws₂.trace, e.Unshared) → Owned ws₂ := by
    intro ws₁ ws₂ hmove hbefore hafter
    exact (hbefore fun e he => hafter e (hmove.trace_extends.subset he)).move hmove hafter
  exact hmoves.invariant hstep (fun _ => h) hunshared

/-! ## Connecting -/

/-- A connect that gets past its URL finds no descriptor in the connection, and with TLS
neither `ssl_connect` nor `io_add_socket` fails. -/
def ConnectOrderly (ws : WebSocket) (url : List UInt8) (a : ConnectAnswers) : Prop :=
  let parsed := parseUrl url 256 1024 ⟨ws.host, ws.path, ws.port, ws.useSsl⟩
  parsed.1 = 0 → ws.fd < 0 ∧
    (parsed.2.useSsl = true → a.backend.isSome = true →
      a.established = true ∧ a.configured = true ∧ a.registered = true)

theorem Owned.connectCleanup (h : Owned ws) (hheld : 0 ≤ ws.fd → ws.sslFd ≠ ws.fd) :
    Owned (WebSocketHft.connectCleanup ws) := by
  unfold WebSocketHft.connectCleanup
  by_cases hpos : 0 ≤ ws.fd
  · rw [if_pos hpos]
    exact h.release hpos (hheld hpos) rfl rfl rfl rfl (fun _ => rfl) (closes_singleton ws.fd)
  · rw [if_neg hpos]
    exact h.congr rfl rfl rfl rfl

theorem Owned.sslFd_neg (h : Owned ws) (hnone : ws.fd < 0) : ws.sslFd < 0 := by
  rcases h.ssl with hneg | hsame
  · exact hneg
  · rwa [hsame]

/-- A connection that holds no descriptor still holds none. -/
theorem Owned.noFd (h : Owned ws) (hnone : ws.fd < 0) (hfd : ws'.fd = -1)
    (hnext : ws'.nextFd = ws.nextFd) (hssl : ws'.sslCtx = ws.sslCtx)
    (htrace : ws'.trace = ws.trace) : Owned ws' where
  fd_lt := by
    rw [hfd, hnext]
    omega
  opens_eq fd := by
    rw [htrace, hnext]
    exact h.opens_eq fd
  closes_eq fd := by
    rw [htrace, hnext, hfd, h.closes_eq]
    congr 1
    simp only [eq_iff_iff]
    omega
  ssl := by
    have hsame : ws'.sslFd = ws.sslFd := congrArg sslContextFd hssl
    rw [hsame]
    exact Or.inl (h.sslFd_neg hnone)

/-- A new descriptor, when the connection holds none. -/
theorem Owned.openSocket (h : Owned ws) (hnone : ws.fd < 0) : Owned ws.openSocket where
  fd_lt := by
    change ((ws.nextFd : ℕ) : ℤ) < ((ws.nextFd + 1 : ℕ) : ℤ)
    omega
  opens_eq fd := by
    change opens (ws.trace ++ [.opened ws.nextFd]) fd =
      if 0 ≤ fd ∧ fd < ((ws.nextFd + 1 : ℕ) : ℤ) then 1 else 0
    rw [opens_append, opens_singleton, h.opens_eq]
    split_ifs <;> omega
  closes_eq fd := by
    change closes (ws.trace ++ [.opened ws.nextFd]) fd =
      if 0 ≤ fd ∧ fd < ((ws.nextFd + 1 : ℕ) : ℤ) ∧ fd ≠ ((ws.nextFd : ℕ) : ℤ) then 1 else 0
    have hzero : closes [.opened ws.nextFd] fd = 0 := rfl
    rw [closes_append, hzero, h.closes_eq]
    split_ifs <;> omega
  ssl := Or.inl (h.sslFd_neg hnone)

/-- The TLS part of a connect: there is none, there is no back-end, or the context has taken
the descriptor. -/
theorem connectSsl_cases (a : ConnectAnswers) (hpos : 0 ≤ ws.fd)
    (hestablished : ws.useSsl = true → a.backend.isSome = true → a.established = true) :
    (ws.useSsl = false ∧ connectSsl ws a = (true, ws)) ∨ connectSsl ws a = (false, ws) ∨
      (ws.useSsl = true ∧ a.backend.isSome = true ∧
        ∃ ctx, ctx.fd = ws.fd ∧ connectSsl ws a = (true, { ws with sslCtx := some ctx })) := by
  unfold connectSsl
  by_cases hssl : ws.useSsl = true
  · rw [if_pos hssl]
    cases hbackend : a.backend with
    | none => exact Or.inr (Or.inl rfl)
    | some backend =>
        have hconnect (ctx : SSLContext) :
            sslConnect ctx ws.fd a.established = (0, { ctx with fd := ws.fd }) := by
          rw [sslConnect, if_neg (not_lt.mpr hpos), hestablished hssl (by rw [hbackend]; rfl)]
          rfl
        refine Or.inr (Or.inr ⟨hssl, rfl, { (⟨backend, -1, 64 * 1024, 0⟩ : SSLContext) with
          fd := ws.fd }, rfl, ?_⟩)
        simp only [sslInit, Option.map_some, hconnect, ne_eq, not_true_eq_false, if_false]
  · rw [if_neg hssl]
    exact Or.inl ⟨Bool.eq_false_of_not_eq_true hssl, rfl⟩

/-- The upgrade request always fits in a fresh ring. -/
theorem sendHandshake_fst (encoded : Option (List UInt8)) (h : ws.txRing = ringbufferInit) :
    (sendHandshake env ws encoded).1 = 0 := by
  have hvalid : ringbufferInit.Valid := ⟨by decide, by decide⟩
  have hspace : ringbufferWriteable ringbufferInit = ringbufferSize - 1 := by decide
  unfold sendHandshake
  dsimp only
  generalize hrequest : (wsHttpUpgradeRequest ws.path ws.host
    (generateWebsocketKey ws.secWebsocketKey encoded)).take (wsHttpUpgradeHeaderSize - 1) = request
  have hlen : request.length ≤ wsHttpUpgradeHeaderSize - 1 := by
    rw [← hrequest]
    exact List.length_take_le _ _
  have hret : (ringbufferWrite ws.txRing (some request)).ret = request.length := by
    rw [h, ringbufferWrite_eq hvalid, hspace]
    exact min_eq_left (hlen.trans (by decide))
  rw [if_neg (not_not.mpr hret)]

theorem Owned.sendHandshake (h : Owned ws) (encoded : Option (List UInt8)) :
    Owned (WebSocketHft.sendHandshake env ws encoded).2 := by
  unfold WebSocketHft.sendHandshake
  dsimp only
  generalize (wsHttpUpgradeRequest ws.path ws.host
    (generateWebsocketKey ws.secWebsocketKey encoded)).take (wsHttpUpgradeHeaderSize - 1) = request
  have hwritten : Owned ({ ws with
      secWebsocketKey := generateWebsocketKey ws.secWebsocketKey encoded
      txRing := (ringbufferWrite ws.txRing (some request)).ring }.record
        (.request (request.take (ringbufferWrite ws.txRing (some request)).ret))) :=
    h.extend rfl rfl (Or.inr rfl) rfl (by simp [Event.isSocket])
  split_ifs
  · exact hwritten
  · exact hwritten.quiet (Quiet.flush env _)

/-- Dropping a context that holds no descriptor closes nothing. -/
theorem Owned.dropSsl (h : Owned ws) (hneg : ws.sslFd < 0) :
    Owned ws.dropSsl ∧ ws.dropSsl.fd = ws.fd ∧ ws.dropSsl.sslFd < 0 := by
  unfold WebSocket.dropSsl
  cases hctx : ws.sslCtx with
  | none => exact ⟨h, rfl, hneg⟩
  | some ctx =>
      have hfd : ctx.fd < 0 := by
        rw [WebSocket.sslFd, hctx] at hneg
        exact hneg
      have hnothing : sslCleanup ctx = none := if_neg (not_le.mpr hfd)
      have hgone : sslContextFd none < 0 := by decide
      dsimp only
      rw [hnothing]
      refine ⟨?_, rfl, hgone⟩
      exact h.extend rfl rfl (Or.inl hgone) (List.append_nil _).symm
        fun _ he => absurd he List.not_mem_nil

/-- In a fresh event queue there is a slot for the socket. -/
theorem ioAddSocket_fresh {ctx : IOContext} {fd : ℤ} (hfresh : ctx.sockets = []) (hpos : 0 ≤ fd) :
    (ioAddSocket ctx fd true true).1 = 0 := by
  have hroom : ¬(fd < 0 ∨ ioMaxSockets ≤ ctx.sockets.length) := by
    rw [hfresh]
    rintro (hneg | hfull)
    · omega
    · exact absurd hfull (by decide)
  unfold ioAddSocket
  rw [if_neg hroom, hfresh]
  rfl

/-- The last part of a connect, with a context that holds the descriptor only if
`io_add_socket` is going to succeed. -/
theorem Owned.connectSocket (h : Owned ws) {ctx : IOContext} {a : ConnectAnswers}
    (htx : ws.txRing = ringbufferInit) (hpos : 0 ≤ ws.fd) (hfresh : ctx.sockets = [])
    (hssl : ws.sslFd < 0 ∨ a.configured = true ∧ a.registered = true) :
    Owned (WebSocketHft.connectSocket env ws ctx a).2 := by
  have hadded : Owned (ws.addSocket (ioAddSocket ctx ws.fd a.configured a.registered)) :=
    h.congr rfl rfl rfl rfl
  unfold WebSocketHft.connectSocket
  dsimp only
  by_cases hindex :
      (ws.addSocket (ioAddSocket ctx ws.fd a.configured a.registered)).socketIndex < 0
  · rw [if_pos hindex]
    have hneg : ws.sslFd < 0 := by
      rcases hssl with hneg | ⟨hconfigured, hregistered⟩
      · exact hneg
      · change (ioAddSocket ctx ws.fd a.configured a.registered).1 < 0 at hindex
        rw [hconfigured, hregistered, ioAddSocket_fresh hfresh hpos] at hindex
        exact absurd hindex (lt_irrefl 0)
    obtain ⟨hdropped, hfd, hgone⟩ := hadded.dropSsl hneg
    split_ifs
    · exact hdropped.connectCleanup fun hpos' => by omega
    · exact hadded.connectCleanup fun hpos' => (hneg.trans_le hpos').ne
  · have hsent : (WebSocketHft.sendHandshake env (ws.addSocket (ioAddSocket ctx ws.fd a.configured
        a.registered)) a.encoded).1 = 0 := sendHandshake_fst a.encoded htx
    rw [if_neg hindex, if_neg (not_not.mpr hsent)]
    exact (hadded.sendHandshake a.encoded).setState _

theorem Owned.connect (h : Owned ws) {url : List UInt8} {a : ConnectAnswers}
    (horderly : ConnectOrderly ws url a) : Owned (websocketConnect env ws url a).2 := by
  generalize hparse : parseUrl url 256 1024 ⟨ws.host, ws.path, ws.port, ws.useSsl⟩ = parsed
  rw [ConnectOrderly, hparse] at horderly
  have hprepared (ctx : IOContext) : Owned (ws.prepared parsed.2 ctx) := h.congr rfl rfl rfl rfl
  have hpos (ctx : IOContext) : 0 ≤ (ws.prepared parsed.2 ctx).openSocket.fd :=
    Int.natCast_nonneg ws.nextFd
  refine websocketConnect_cases (P := fun _ ws' => Owned ws') env ws url a hparse ?_ ?_ ?_ ?_ ?_
  · intro _
    exact h.congr rfl rfl rfl rfl
  · intro rx tx hret
    have hrings : Owned { ws.setUrl parsed.2 with rxRing := rx, txRing := tx } :=
      h.congr rfl rfl rfl rfl
    exact hrings.connectCleanup fun hpos => absurd hpos (not_le.mpr (horderly hret).1)
  · intro ctx hret _
    have hnone : Owned { ws.prepared parsed.2 ctx with fd := -1 } :=
      (hprepared ctx).noFd (horderly hret).1 rfl rfl rfl rfl
    exact hnone.connectCleanup fun hpos => absurd hpos (show ¬(0 : ℤ) ≤ -1 by decide)
  · intro ctx hret _ hfailed
    obtain ⟨hnone, hssl⟩ := horderly hret
    have hopened := (hprepared ctx).openSocket hnone
    have hneg : (ws.prepared parsed.2 ctx).openSocket.sslFd < 0 := (hprepared ctx).sslFd_neg hnone
    rcases connectSsl_cases a (hpos ctx) fun hs hb => (hssl hs hb).1 with
      ⟨-, heq⟩ | heq | ⟨-, -, tls, -, heq⟩
    · rw [heq] at hfailed
      exact Bool.noConfusion hfailed
    · rw [heq]
      exact hopened.connectCleanup fun hpos' => (hneg.trans_le hpos').ne
    · rw [heq] at hfailed
      exact Bool.noConfusion hfailed
  · intro ctx hinit hret _ hok
    obtain ⟨hnone, hssl⟩ := horderly hret
    have hopened := (hprepared ctx).openSocket hnone
    have hneg : (ws.prepared parsed.2 ctx).openSocket.sslFd < 0 := (hprepared ctx).sslFd_neg hnone
    have hfresh : ctx.sockets = [] := by
      cases hinit
      rfl
    rcases connectSsl_cases a (hpos ctx) fun hs hb => (hssl hs hb).1 with
      ⟨-, heq⟩ | heq | ⟨hs, hb, tls, htls, heq⟩
    · rw [heq]
      exact hopened.connectSocket rfl (hpos ctx) hfresh (Or.inl hneg)
    · rw [heq] at hok
      exact Bool.noConfusion hok
    · rw [heq]
      have hheld : Owned { (ws.prepared parsed.2 ctx).openSocket with sslCtx := some tls } :=
        ⟨hopened.fd_lt, hopened.opens_eq, hopened.closes_eq, Or.inr htls⟩
      exact hheld.connectSocket rfl (hpos ctx) hfresh (Or.inr (hssl hs hb).2)

/-! ## What has been observed stays -/

theorem SetUp.trace_extends {ws ws' : WebSocket} (h : SetUp ws ws') : ws.trace <+: ws'.trace := by
  cases h with
  | endpoint ep => exact List.prefix_rfl
  | descriptor he => exact ⟨_, rfl⟩

theorem Attempt.trace_extends {ws ws' : WebSocket} (h : Attempt env ws ws') :
    ws.trace <+: ws'.trace := by
  cases h with
  | setUp h => exact h.trace_extends
  | request bytes => exact ⟨_, rfl⟩
  | flush => exact (Quiet.flush env ws).trace_extends
  | connecting => exact ⟨_, rfl⟩

theorem dropSsl_trace_extends (ws : WebSocket) : ws.trace <+: ws.dropSsl.trace :=
  (SetUps.dropSsl ws).invariant (P := fun ws' => ws.trace <+: ws'.trace)
    (fun hsetUp h => h.trans hsetUp.trace_extends) List.prefix_rfl

theorem PublicCall.trace_extends (ws : WebSocket) (call : PublicCall) :
    ws.trace <+: (call.run env ws).trace := by
  by_cases hconnect : ∃ url answers, call = .connect url answers
  · obtain ⟨url, a, rfl⟩ := hconnect
    exact (Attempts.websocketConnect ws url a).invariant (P := fun ws' => ws.trace <+: ws'.trace)
      (fun hattempt h => h.trans hattempt.trace_extends) List.prefix_rfl
  · have hmoves : Moves env ws (call.run env ws) :=
      call.moves env ws fun url answers heq => hconnect ⟨url, answers, heq⟩
    have hstep : ∀ {ws₁ ws₂}, Move env ws₁ ws₂ → ws.trace <+: ws₁.trace → ws.trace <+: ws₂.trace :=
      fun hmove hbefore => hbefore.trans hmove.trace_extends
    exact hmoves.invariant hstep (List.prefix_rfl)

theorem websocketDestroy_trace_extends (ws : WebSocket) :
    ws.trace <+: (websocketDestroy ws).trace := by
  have hdropped (ws : WebSocket) := dropSsl_trace_extends ws
  unfold websocketDestroy
  split_ifs
  · exact (websocketClose_trace_extends ws).trans (hdropped _)
  · exact hdropped ws

theorem calls_trace_extends (ws : WebSocket) (calls : List PublicCall) :
    ws.trace <+: (calls.foldl (PublicCall.run env) ws).trace :=
  Runs.foldl_invariant (I := fun ws' : WebSocket => ws.trace <+: ws'.trace)
    (fun ws' call h => h.trans (call.trace_extends ws')) List.prefix_rfl calls

/-! ## Runs -/

/-- Every connect of the run is orderly in the state that it finds. -/
def ConnectsOrderly (env : Env) : WebSocket → List PublicCall → Prop
  | _, [] => True
  | ws, call :: calls =>
    (∀ url answers, call = .connect url answers → ConnectOrderly ws url answers) ∧
      ConnectsOrderly env (call.run env ws) calls

theorem Owned.call (h : Owned ws) {call : PublicCall}
    (horderly : ∀ url answers, call = .connect url answers → ConnectOrderly ws url answers)
    (hunshared : ∀ e ∈ (call.run env ws).trace, e.Unshared) : Owned (call.run env ws) := by
  by_cases hconnect : ∃ url answers, call = .connect url answers
  · obtain ⟨url, answers, rfl⟩ := hconnect
    exact h.connect (horderly url answers rfl)
  · exact h.moves (call.moves env ws fun url answers heq => hconnect ⟨url, answers, heq⟩) hunshared

theorem Owned.calls (h : Owned ws) {calls : List PublicCall} (horderly : ConnectsOrderly env ws calls)
    (hunshared : ∀ e ∈ (calls.foldl (PublicCall.run env) ws).trace, e.Unshared) :
    Owned (calls.foldl (PublicCall.run env) ws) := by
  induction calls generalizing ws with
  | nil => exact h
  | cons call calls ih =>
      have hfirst : ∀ e ∈ (call.run env ws).trace, e.Unshared := fun e he =>
        hunshared e ((calls_trace_extends (call.run env ws) calls).subset he)
      exact ih (h.call horderly.1 hfirst) horderly.2 hunshared

/-! ## The end of a run -/

/-- A connection that holds no descriptor has closed them all, each once. -/
theorem Owned.settled (h : Owned ws) (hnone : ws.fd < 0) (fd : ℤ) :
    closes ws.trace fd = opens ws.trace fd ∧ opens ws.trace fd ≤ 1 := by
  rw [h.closes_eq, h.opens_eq]
  constructor
  · congr 1
    simp only [eq_iff_iff]
    omega
  · split_ifs
    · exact le_rfl
    · exact Nat.zero_le 1

/-- Closing a connection that is not CLOSED leaves it without a descriptor. -/
theorem websocketClose_fd_neg (h : ws.state ≠ .closed) : (websocketClose ws).fd < 0 := by
  unfold websocketClose
  rw [if_neg h]
  split_ifs with hpos
  · change (-1 : ℤ) < 0
    decide
  · exact not_le.mp hpos

/-- A context that holds the descriptor closes it when it is dropped. -/
theorem trace_dropSsl_of_held (hpos : 0 ≤ ws.fd) (hheld : ws.sslFd = ws.fd) :
    ws.dropSsl.trace = ws.trace ++ [.closed ws.fd] := by
  unfold WebSocket.dropSsl
  cases hctx : ws.sslCtx with
  | none =>
      rw [WebSocket.sslFd, hctx] at hheld
      change (-1 : ℤ) = ws.fd at hheld
      omega
  | some ctx =>
      rw [WebSocket.sslFd, hctx] at hheld
      change ctx.fd = ws.fd at hheld
      have hcleanup : sslCleanup ctx = some ws.fd := by
        rw [sslCleanup, hheld, if_pos hpos]
      dsimp only
      rw [hcleanup]
      rfl

/-- Destroying closes what is left: the descriptor of a live connection, or the one that
the TLS context holds. -/
theorem Owned.destroy (h : Owned ws)
    (hheld : 0 ≤ ws.fd → ws.state = .connected ∨ ws.state = .connecting ∨ ws.sslFd = ws.fd)
    (hunshared : ∀ e ∈ (websocketDestroy ws).trace, e.Unshared) (fd : ℤ) :
    closes (websocketDestroy ws).trace fd = opens (websocketDestroy ws).trace fd ∧
      opens (websocketDestroy ws).trace fd ≤ 1 := by
  have htrace : (websocketDestroy ws).trace =
      (if ws.state = .connected ∨ ws.state = .connecting then websocketClose ws
        else ws).dropSsl.trace := rfl
  rw [htrace] at hunshared ⊢
  by_cases hlive : ws.state = .connected ∨ ws.state = .connecting
  · rw [if_pos hlive] at hunshared ⊢
    have hclosed : Owned (websocketClose ws) :=
      h.close fun e he => hunshared e ((dropSsl_trace_extends _).subset he)
    have hstate : ws.state ≠ .closed := by
      rcases hlive with hlive | hlive <;> rw [hlive] <;> decide
    have hnone := websocketClose_fd_neg hstate
    obtain ⟨hdropped, hfd, -⟩ := hclosed.dropSsl (hclosed.sslFd_neg hnone)
    exact hdropped.settled (hfd ▸ hnone) fd
  · rw [if_neg hlive] at hunshared ⊢
    rcases lt_or_ge ws.fd 0 with hnone | hpos
    · obtain ⟨hdropped, hfd, -⟩ := h.dropSsl (h.sslFd_neg hnone)
      exact hdropped.settled (hfd ▸ hnone) fd
    · -- the context closes the descriptor, and no one else has
      have hdrop := trace_dropSsl_of_held hpos (show ws.sslFd = ws.fd by tauto)
      have hzero : opens [.closed ws.fd] fd = 0 := rfl
      have hlt := h.fd_lt
      rw [hdrop, closes_append, opens_append, closes_singleton, hzero, h.closes_eq, h.opens_eq]
      constructor
      · split_ifs <;> omega
      · split_ifs <;> omega

/-- In every run of the public interface from `websocket_create` to `websocket_destroy` whose
connects are orderly, in which the connection never closes a descriptor that its TLS context
holds as well, and at whose end the remaining descriptor has exactly one holder that will
close it, every descriptor is closed exactly as often as it was opened, and that is at most
once. -/
theorem sockets_closed_once (env : Env) (allocated : Bool) (calls : List PublicCall)
    (horderly : ConnectsOrderly env (websocketCreate allocated) calls)
    (hclosing : ∀ fd sslFd,
      Event.closing fd sslFd ∈ (websocketDestroy (runCalls env allocated calls)).trace →
        sslFd ≠ fd)
    (hdestroy : 0 ≤ (runCalls env allocated calls).fd →
      (runCalls env allocated calls).state = .connected ∨
        (runCalls env allocated calls).state = .connecting ∨
        (runCalls env allocated calls).sslFd = (runCalls env allocated calls).fd) (fd : ℤ) :
    closes (websocketDestroy (runCalls env allocated calls)).trace fd =
        opens (websocketDestroy (runCalls env allocated calls)).trace fd ∧
      opens (websocketDestroy (runCalls env allocated calls)).trace fd ≤ 1 := by
  have hunshared : ∀ e ∈ (websocketDestroy (runCalls env allocated calls)).trace,
      e.Unshared := by
    intro e he
    cases e with
    | closing fd sslFd => exact hclosing fd sslFd he
    | _ => trivial
  have hrun : (runCalls env allocated calls).trace <+:
      (websocketDestroy (runCalls env allocated calls)).trace := websocketDestroy_trace_extends _
  have howned : Owned (runCalls env allocated calls) :=
    (owned_websocketCreate allocated).calls horderly fun e he => hunshared e (hrun.subset he)
  exact howned.destroy hdestroy hunshared fd

/-- The peer closes the connection. -/
def peerCloses : KEvent := ⟨0, 0, true, false, .read, .failed⟩

/-- A plain connection closed by its owner, then a TLS connection closed by the peer. -/
def twoConnections : List PublicCall :=
  [.connect (ascii "ws://h/") {}, .close, .connect (ascii "wss://h/") {},
    .process (some [peerCloses])]

instance (ws : WebSocket) (url : List UInt8) (a : ConnectAnswers) :
    Decidable (ConnectOrderly ws url a) :=
  inferInstanceAs (Decidable (_ → _))

theorem twoConnections_closed_once :
    opens (websocketDestroy (runCalls (fun _ => {}) true twoConnections)).trace 1 = 1 ∧
      closes (websocketDestroy (runCalls (fun _ => {}) true twoConnections)).trace 1 = 1 := by
  have hopened :
      opens (websocketDestroy (runCalls (fun _ => {}) true twoConnections)).trace 1 = 1 := by
    decide +kernel
  have horderly : ConnectsOrderly (fun _ => {}) (websocketCreate true) twoConnections := by
    refine ⟨?_, ?_, ?_, ?_, trivial⟩
    · rintro _ _ ⟨⟩
      decide +kernel
    · rintro _ _ ⟨⟩
    · rintro _ _ ⟨⟩
      decide +kernel
    · rintro _ _ ⟨⟩
  have hclosing : ∀ e ∈ (websocketDestroy (runCalls (fun _ => {}) true twoConnections)).trace,
      e.Unshared := by
    decide +kernel
  have honce := sockets_closed_once (fun _ => {}) true twoConnections horderly
    (fun fd sslFd he => hclosing _ he) (fun _ => Or.inr (Or.inr (by decide +kernel))) 1
  exact ⟨hopened, honce.1.trans hopened⟩

/-- Destroying an open TLS connection closes its descriptor twice; destroying a plain
connection that the peer has closed never closes it. -/
theorem destroy_closes_twice_or_never :
    (opens (websocketDestroy (runCalls (fun _ => {}) true
        [.connect (ascii "wss://h/") {}])).trace 0 = 1 ∧
      closes (websocketDestroy (runCalls (fun _ => {}) true
        [.connect (ascii "wss://h/") {}])).trace 0 = 2) ∧
    opens (websocketDestroy (runCalls (fun _ => {}) true
        [.connect (ascii "ws://h/") {}, .process (some [peerCloses])])).trace 0 = 1 ∧
      closes (websocketDestroy (runCalls (fun _ => {}) true
        [.connect (ascii "ws://h/") {}, .process (some [peerCloses])])).trace 0 = 0 := by
  decide +kernel

end WebSocketHft

import WebSocketHft.Verification.Runs.Allocations
import WebSocketHft.Verification.Runs.Ledger
import WebSocketHft.Verification.Runs.Resources
import WebSocketHft.Verification.Sockets.Ownership

/-! # Allocations along a run

The connection and what it has allocated run side by side. Both models take the same way
through `websocket_connect` and have a pointer at the same time, and `websocket_destroy`
releases everything unless a connection was connected once more after it had succeeded. -/

namespace WebSocketHft.Heap

open WebSocketHft WebSocketHft.Ownership

/-! ## Two models of one connection -/

/-- Which pointers are there, and the flag that decides about TLS. -/
structure Shape where
  useSsl : Bool
  rx : Bool
  tx : Bool
  io : Bool
  ssl : Bool
  deriving DecidableEq, Repr

def WebSocket.shape (own : WebSocket) : Shape :=
  ⟨own.useSsl, own.rxBuf.isSome, own.txBuf.isSome, own.ioCtx.isSome, own.sslCtx.isSome⟩

/-- A ring without memory has size zero. -/
def shapeOf (ws : WebSocketHft.WebSocket) : Shape :=
  ⟨ws.useSsl, decide (0 < ws.rxRing.size), decide (0 < ws.txRing.size), ws.ioCtx.isSome,
    ws.sslCtx.isSome⟩

/-- The outcome of `ssl_connect`. -/
def SslConnectAnswers.established (a : SslConnectAnswers) : SSLBackend → Bool
  | .secureTransport => a.setConnection && a.setPeerDomainName && a.handshake != .other
  | .openSSL => a.sslCreated && a.sslConnect

/-- The same answers, as the model of the connection knows them. -/
def ConnectAnswers.outline (a : ConnectAnswers) : WebSocketHft.ConnectAnswers where
  rxInit := a.rxInit
  txInit := a.txInit
  ctxAllocated := a.ctxAllocated
  kqueue := a.kqueue
  tcp := (tcpConnect .empty a.lookup).1.isSome
  backend := a.ssl.backend
  established := a.ssl.backend.elim true a.session.established
  configured := a.configured
  registered := a.registered
  encoded := a.encoded

theorem sslConnect_fst (heap : Inventory Kind) (ctx : SSLContext) (a : SslConnectAnswers) :
    (sslConnect heap ctx a).1 = if a.established ctx.backend then 0 else -1 := by
  unfold sslConnect SslConnectAnswers.established
  cases ctx.backend with
  | secureTransport =>
      cases a.setConnection <;> cases a.setPeerDomainName <;> cases a.handshake <;> rfl
  | openSSL => cases a.sslCreated <;> cases a.sslConnect <;> rfl

/-! ## The stages -/

section Stages

variable {ws : WebSocketHft.WebSocket} {own : WebSocket}

/-- `cleanup:` leaves the TLS context where it is. -/
def Shape.cleaned (s : Shape) : Shape := ⟨s.useSsl, false, false, false, s.ssl⟩

theorem shape_dropIo (own : WebSocket) : own.dropIo.shape = { own.shape with io := false } := by
  cases hio : own.ioCtx with
  | none => simp [WebSocket.dropIo, WebSocket.shape, hio]
  | some ctx => simp [WebSocket.dropIo, WebSocket.shape, hio]

theorem shape_connectCleanup (own : WebSocket) :
    (connectCleanup own).shape = own.shape.cleaned := by
  have hdrop := shape_dropIo own
  change Shape.mk own.dropIo.shape.useSsl false false own.dropIo.shape.io own.dropIo.shape.ssl = _
  rw [hdrop]
  rfl

theorem shapeOf_connectCleanup (ws : WebSocketHft.WebSocket) :
    shapeOf (WebSocketHft.connectCleanup ws) = (shapeOf ws).cleaned := by
  unfold WebSocketHft.connectCleanup
  dsimp only
  split_ifs <;> rfl

theorem shape_dropSsl (own : WebSocket) : own.dropSsl.shape = { own.shape with ssl := false } := by
  cases hssl : own.sslCtx with
  | none => simp [WebSocket.dropSsl, WebSocket.shape, hssl]
  | some ctx => simp [WebSocket.dropSsl, WebSocket.shape, hssl]

theorem shapeOf_dropSsl (ws : WebSocketHft.WebSocket) :
    shapeOf ws.dropSsl = { shapeOf ws with ssl := false } := by
  unfold WebSocketHft.WebSocket.dropSsl
  cases hssl : ws.sslCtx with
  | none => simp [shapeOf, hssl]
  | some ctx =>
      dsimp only
      cases WebSocketHft.sslCleanup ctx <;> rfl

/-- The TLS part of both models. -/
theorem connectSsl_agrees (h : own.shape = shapeOf ws) (hfd : 0 ≤ ws.fd) (a : ConnectAnswers) :
    (connectSsl own a).1 = (WebSocketHft.connectSsl ws a.outline).1 ∧
      (connectSsl own a).2.shape = shapeOf (WebSocketHft.connectSsl ws a.outline).2 := by
  have huse : own.useSsl = ws.useSsl := congrArg Shape.useSsl h
  unfold connectSsl WebSocketHft.connectSsl WebSocketHft.sslInit
  by_cases hssl : ws.useSsl = true
  · simp only [if_pos hssl, if_pos (huse.trans hssl)]
    have hbackend := sslInit_backend own.heap a.ssl
    have houtline : a.outline.established = a.ssl.backend.elim true a.session.established := rfl
    rw [show a.outline.backend = a.ssl.backend from rfl]
    generalize sslInit own.heap a.ssl = r at hbackend ⊢
    obtain ⟨o, heap⟩ := r
    rw [← hbackend] at houtline ⊢
    cases o with
    | none => exact ⟨rfl, h⟩
    | some ctx =>
        have hcode : (WebSocketHft.sslConnect ⟨ctx.backend, -1, 64 * 1024, 0⟩ ws.fd
            a.outline.established).1 = (sslConnect heap ctx a.session).1 := by
          rw [sslConnect_fst, WebSocketHft.sslConnect, if_neg (not_lt.mpr hfd), houtline]
          rfl
        have hadded : { own with
              sslCtx := some (sslConnect heap ctx a.session).2.1
              heap := (sslConnect heap ctx a.session).2.2 }.shape =
            shapeOf { ws with
              sslCtx := some (WebSocketHft.sslConnect ⟨ctx.backend, -1, 64 * 1024, 0⟩ ws.fd
                a.outline.established).2 } :=
          congrArg (fun s : Shape => { s with ssl := true }) h
        simp only [Option.map_some]
        rw [hcode]
        by_cases hfailed : (sslConnect heap ctx a.session).1 ≠ 0
        · simp only [if_pos hfailed, shape_dropSsl, shapeOf_dropSsl]
          rw [hadded]
          exact ⟨trivial, rfl⟩
        · simp only [if_neg hfailed]
          exact ⟨trivial, hadded⟩
  · have hown : ¬own.useSsl = true := fun hused => hssl (huse.symm.trans hused)
    simp only [if_neg hssl, if_neg hown]
    exact ⟨trivial, h⟩

theorem shapeOf_of_core {ws' : WebSocketHft.WebSocket} (h : ws'.core = ws.core) :
    shapeOf ws' = shapeOf ws := by
  have huse : ws'.useSsl = ws.useSsl := congrArg Core.useSsl h
  have hrx : ws'.rxRing = ws.rxRing := congrArg Core.rxRing h
  have htx : ws'.txRing.size = ws.txRing.size := congrArg Core.txSize h
  have hio : ws'.ioCtx = ws.ioCtx := congrArg Core.ioCtx h
  have hssl : ws'.sslCtx = ws.sslCtx := congrArg Core.sslCtx h
  rw [shapeOf, huse, hrx, htx, hio, hssl, shapeOf]

/-- From `io_add_socket` on. The request fits in a fresh ring, so that `send_handshake` does
not fail. -/
theorem connectSocket_agrees {env : Env} (h : own.shape = shapeOf ws) (hio : own.shape.io = true)
    (hfd : 0 ≤ ws.fd) (htx : ws.txRing = ringbufferInit) {ctx : WebSocketHft.IOContext}
    (hctx : ioInit true = some ctx) (a : ConnectAnswers) {handshake : Bool}
    (hsent : (WebSocketHft.connectSocket env ws ctx a.outline).1 = 0 → handshake = true) :
    (connectSocket own a handshake).1 = (WebSocketHft.connectSocket env ws ctx a.outline).1 ∧
      (connectSocket own a handshake).2.shape =
        shapeOf (WebSocketHft.connectSocket env ws ctx a.outline).2 := by
  have hindex := ioAddSocket_fresh_fst hctx hfd a.configured a.registered
  have hadded (added : ℤ × WebSocketHft.IOContext) : shapeOf (ws.addSocket added) = own.shape := by
    have hsame : shapeOf (ws.addSocket added) = { shapeOf ws with io := true } := rfl
    rw [hsame, ← h, ← hio]
  unfold connectSocket
  unfold WebSocketHft.connectSocket at hsent ⊢
  dsimp only [ConnectAnswers.outline] at hsent ⊢
  rw [show (ws.addSocket (ioAddSocket ctx ws.fd a.configured a.registered)).socketIndex = _ from
    hindex] at hsent ⊢
  have hshape := hadded (ioAddSocket ctx ws.fd a.configured a.registered)
  have hfits := @sendHandshake_fst env (ws.addSocket
    (ioAddSocket ctx ws.fd a.configured a.registered)) a.encoded htx
  have hcore := core_sendHandshake env (ws.addSocket
    (ioAddSocket ctx ws.fd a.configured a.registered)) a.encoded
  generalize ws.addSocket (ioAddSocket ctx ws.fd a.configured a.registered) = added
    at hshape hfits hcore hsent ⊢
  by_cases hfailed : a.configured = false ∨ a.registered = false
  · have huse : added.useSsl = own.useSsl := congrArg Shape.useSsl hshape
    have hcleaned : (connectCleanup (if own.useSsl then own.dropSsl else own)).shape =
        shapeOf (WebSocketHft.connectCleanup (if added.useSsl then added.dropSsl else added)) := by
      rw [shape_connectCleanup, shapeOf_connectCleanup, huse]
      split_ifs
      · rw [shape_dropSsl, shapeOf_dropSsl, hshape]
      · rw [hshape]
    simp only [if_pos hfailed]
    exact ⟨rfl, hcleaned⟩
  · have hregistered :
        ¬(if a.configured = false ∨ a.registered = false then -1 else 0 : ℤ) < 0 := by
      rw [if_neg hfailed]
      exact lt_irrefl 0
    rw [if_neg hregistered, if_neg (not_not.mpr hfits)] at hsent ⊢
    generalize (sendHandshake env added a.encoded).2 = sent at hcore hsent ⊢
    obtain rfl : handshake = true := hsent rfl
    have hstate : shapeOf (sent.setState .connecting) = shapeOf sent := rfl
    rw [if_neg hfailed, if_neg (by simp)]
    exact ⟨rfl, (hstate.trans ((shapeOf_of_core hcore).trans hshape)).symm⟩

/-- `parse_url` takes nothing from what its output parameters held. -/
theorem parseUrl_same (url : List UInt8) (hostLen pathLen : ℕ) (out out' : UrlParts) :
    (parseUrl url hostLen pathLen out).1 = (parseUrl url hostLen pathLen out').1 ∧
      (parseUrl url hostLen pathLen out).2.useSsl =
        (parseUrl url hostLen pathLen out').2.useSsl := by
  unfold parseUrl
  cases parseScheme url with
  | none => exact ⟨rfl, rfl⟩
  | some scheme =>
      obtain ⟨useSsl, rest⟩ := scheme
      dsimp only
      generalize (if rest.findIdx (· = 58) < hostEnd rest then rest.findIdx (· = 58)
        else hostEnd rest) = actualHostLen
      split_ifs <;> exact ⟨rfl, rfl⟩

theorem cleaned_agrees (huse : own.shape.useSsl = (shapeOf ws).useSsl)
    (hssl : own.shape.ssl = (shapeOf ws).ssl) :
    (connectCleanup own).shape = shapeOf (WebSocketHft.connectCleanup ws) := by
  rw [shape_connectCleanup, shapeOf_connectCleanup, Shape.cleaned, huse, hssl, Shape.cleaned]

theorem connectIo_agrees {env : Env} (h : own.shape = shapeOf ws) (htx : ws.txRing = ringbufferInit)
    (a : ConnectAnswers) {handshake : Bool}
    (hsent : (connectRest env ws a.outline).1 = 0 → handshake = true) :
    (connectIo own a handshake).1 = (connectRest env ws a.outline).1 ∧
      (connectIo own a handshake).2.shape = shapeOf (connectRest env ws a.outline).2 := by
  have huse : (own.initIo a.ctxAllocated a.kqueue).shape.useSsl = (shapeOf ws).useSsl :=
    (initIo_useSsl own a.ctxAllocated a.kqueue).trans (congrArg Shape.useSsl h)
  have hssl : (own.initIo a.ctxAllocated a.kqueue).shape.ssl = (shapeOf ws).ssl :=
    (congrArg Option.isSome (initIo_sslCtx own a.ctxAllocated a.kqueue)).trans
      (congrArg Shape.ssl h)
  unfold connectIo
  by_cases hfailed : a.ctxAllocated = false ∨ a.kqueue = false
  · have hnone : (if a.outline.ctxAllocated then ioInit a.outline.kqueue else none) = none := by
      dsimp only [ConnectAnswers.outline]
      rcases hfailed with hfailed | hfailed <;> simp [hfailed, ioInit]
    simp only [if_pos hfailed, connectRest, hnone]
    exact ⟨trivial, cleaned_agrees huse hssl⟩
  obtain ⟨hctx, hkqueue⟩ : a.ctxAllocated = true ∧ a.kqueue = true := by simpa using hfailed
  have hsome : (if a.outline.ctxAllocated then ioInit a.outline.kqueue else none) =
      some ⟨some fun _ => none, []⟩ := by
    have hallocated : a.outline.ctxAllocated = true := hctx
    have hcreated : a.outline.kqueue = true := hkqueue
    rw [if_pos hallocated, hcreated]
    rfl
  simp only [if_neg hfailed]
  unfold connectRest at hsent ⊢
  rw [hsome] at hsent ⊢
  generalize hfresh : (⟨some fun _ => none, []⟩ : WebSocketHft.IOContext) = ctx at hsent ⊢
  by_cases htcp : (tcpConnect .empty a.lookup).1 = none
  · have hnone : a.outline.tcp = false := by simp [ConnectAnswers.outline, htcp]
    simp only [if_pos htcp, if_pos hnone]
    exact ⟨trivial, @cleaned_agrees { ws.setIo ctx with fd := -1 } _ huse hssl⟩
  have hopen : ¬a.outline.tcp = false := by
    have htcp' : a.outline.tcp = (tcpConnect .empty a.lookup).1.isSome := rfl
    rw [htcp', Bool.not_eq_false, ← Option.isSome_iff_ne_none.symm.eq]
    exact htcp
  simp only [if_neg htcp, if_neg hopen] at hsent ⊢
  have hopened : (own.initIo a.ctxAllocated a.kqueue).shape =
      shapeOf (ws.setIo ctx).openSocket := by
    rw [hctx, hkqueue]
    exact congrArg (fun s : Shape => { s with io := true }) h
  have hfd : 0 ≤ (ws.setIo ctx).openSocket.fd := Int.natCast_nonneg _
  obtain ⟨hdone, hshape⟩ := connectSsl_agrees hopened hfd a
  obtain ⟨hfdKept, htxKept⟩ := connectSsl_keeps (ws.setIo ctx).openSocket a.outline
  obtain ⟨sslCtx, hcore, -⟩ := core_connectSsl (ws.setIo ctx).openSocket a.outline
  generalize connectSsl (own.initIo a.ctxAllocated a.kqueue) a = r at hdone hshape ⊢
  generalize WebSocketHft.connectSsl (ws.setIo ctx).openSocket a.outline = r'
    at hdone hshape hfdKept htxKept hcore hsent ⊢
  rw [hdone]
  by_cases hgone : r'.1 = false
  · simp only [if_pos hgone]
    exact ⟨trivial, cleaned_agrees (congrArg Shape.useSsl hshape) (congrArg Shape.ssl hshape)⟩
  · simp only [if_neg hgone] at hsent ⊢
    have hio : r.2.shape.io = true := by
      rw [hshape]
      exact congrArg (fun core : Core => core.ioCtx.isSome) hcore
    exact connectSocket_agrees hshape hio (hfdKept ▸ hfd) (htxKept.trans htx)
      (hfresh ▸ rfl) a hsent

/-- `websocket_connect` in both models. -/
theorem websocketConnect_agrees {env : Env} (h : own.shape = shapeOf ws) (url : List UInt8)
    (a : ConnectAnswers) {handshake : Bool}
    (hsent : (WebSocketHft.websocketConnect env ws url a.outline).1 = 0 → handshake = true) :
    (websocketConnect own url a handshake).1 =
        (WebSocketHft.websocketConnect env ws url a.outline).1 ∧
      (websocketConnect own url a handshake).2.shape =
        shapeOf (WebSocketHft.websocketConnect env ws url a.outline).2 := by
  obtain ⟨hret, huse⟩ := parseUrl_same url 256 1024 ⟨[], [], 0, own.useSsl⟩
    ⟨ws.host, ws.path, ws.port, ws.useSsl⟩
  rw [websocketConnect_eq env ws url a.outline rfl] at hsent ⊢
  unfold websocketConnect
  dsimp only
  generalize parseUrl url 256 1024 ⟨[], [], 0, own.useSsl⟩ = parsed at hret huse ⊢
  generalize parseUrl url 256 1024 ⟨ws.host, ws.path, ws.port, ws.useSsl⟩ = parsed'
    at hret huse hsent ⊢
  rw [hret]
  have hurl : { own.copyUrl a.urlCopied with useSsl := parsed.2.useSsl }.shape =
      shapeOf (ws.setUrl parsed'.2) := by
    have hown : { own.copyUrl a.urlCopied with useSsl := parsed.2.useSsl }.shape =
      { own.shape with useSsl := parsed.2.useSsl } := rfl
    rw [hown, h, huse]
    rfl
  generalize { own.copyUrl a.urlCopied with useSsl := parsed.2.useSsl } = own' at hurl ⊢
  generalize ws.setUrl parsed'.2 = ws' at hurl hsent ⊢
  by_cases hparsed : parsed'.1 ≠ 0
  · simp only [if_pos hparsed]
    exact ⟨trivial, hurl⟩
  rw [if_neg hparsed] at hsent ⊢
  rw [if_neg hparsed]
  have huse' : own'.shape.useSsl = (shapeOf ws').useSsl := congrArg Shape.useSsl hurl
  have hssl' : own'.shape.ssl = (shapeOf ws').ssl := congrArg Shape.ssl hurl
  unfold connectRings
  by_cases hrx : a.rxInit = false
  · have hrx' : a.outline.rxInit = false := hrx
    simp only [if_pos hrx, if_pos hrx']
    rw [hrx]
    exact ⟨trivial, cleaned_agrees huse' hssl'⟩
  have hrx' : ¬a.outline.rxInit = false := hrx
  rw [if_neg hrx'] at hsent ⊢
  simp only [if_neg hrx]
  rw [Bool.eq_true_of_not_eq_false hrx]
  by_cases htx : a.txInit = false
  · have htx' : a.outline.txInit = false := htx
    simp only [if_pos htx, if_pos htx']
    rw [htx]
    exact ⟨trivial, @cleaned_agrees { ws' with rxRing := ringbufferInit } _ huse' hssl'⟩
  have htx' : ¬a.outline.txInit = false := htx
  rw [if_neg htx'] at hsent ⊢
  simp only [if_neg htx]
  rw [Bool.eq_true_of_not_eq_false htx]
  have hrings : ((own'.initRx true).initTx true).shape = shapeOf ws'.initRings :=
    congrArg (fun s : Shape => { s with rx := true, tx := true }) hurl
  exact connectIo_agrees hrings rfl a hsent

theorem isSome_closeSocket (ws : WebSocketHft.WebSocket) :
    ws.closeSocket.ioCtx.isSome = ws.ioCtx.isSome := by
  dsimp only [WebSocket.closeSocket, WebSocket.record]
  split_ifs
  · rw [Option.isSome_map]
  · rfl

/-- No other call touches a pointer. -/
theorem shapeOf_move {env : Env} {ws ws' : WebSocketHft.WebSocket} (h : Move env ws ws') :
    shapeOf ws' = shapeOf ws := by
  cases h with
  | keep heq =>
      have huse : ws'.useSsl = ws.useSsl := congrArg Outline.useSsl heq
      have hrx : ws'.rxRing.size = ws.rxRing.size := congrArg Outline.rxSize heq
      have htx : ws'.txRing = ws.txRing := congrArg Outline.txRing heq
      have hssl : ws'.sslCtx = ws.sslCtx := congrArg Outline.sslCtx heq
      have hio : ws'.ioCtx.isSome = ws.ioCtx.isSome := by
        have hslots : ws'.ioCtx.map slotFds = ws.ioCtx.map slotFds := congrArg Outline.slots heq
        simpa using congrArg Option.isSome hslots
      rw [shapeOf, huse, hrx, htx, hio, hssl, shapeOf]
  | readSsl =>
      obtain ⟨hctx, hsize⟩ := sslRead_keeps ws.sslCtx ws.rxRing (env ws.tick).tls
      have hread : shapeOf (ws.readSsl env).2 =
          ⟨ws.useSsl, decide (0 < (sslRead ws.sslCtx ws.rxRing (env ws.tick).tls).ring.size),
            decide (0 < ws.txRing.size), ws.ioCtx.isSome,
            (sslRead ws.sslCtx ws.rxRing (env ws.tick).tls).ctx.isSome⟩ := rfl
      rw [hread, hctx, hsize, shapeOf]
  | writeSsl => exact shapeOf_of_core (Quiet.writeSsl env ws).core
  | writeIo => exact shapeOf_of_core (Quiet.writeIo env ws).core
  | send data isText => exact shapeOf_of_core (Quiet.websocketSend env ws data isText).core
  | pong payload => exact shapeOf_of_core (Quiet.websocketSendPong env ws payload).core
  | ping => exact shapeOf_of_core (quiet_queuePing ws).core
  | close =>
      unfold websocketClose
      split_ifs
      · rfl
      · have hclosed : shapeOf (ws.closeSocket.setState .closed) =
            { shapeOf ws with io := ws.closeSocket.ioCtx.isSome } := rfl
        rw [hclosed, isSome_closeSocket, shapeOf]
      · rfl
  | _ => rfl

end Stages

/-! ## From nothing to nothing -/

/-- Nothing but the object and its samples is there. -/
structure Bare (own : WebSocket) : Prop where
  url : own.url = none
  rx : own.rxBuf = none
  tx : own.txBuf = none
  io : own.ioCtx = none
  ssl : own.sslCtx = none

/-- A stage succeeds and keeps the URL, or fails and leaves nothing. -/
def Ends (url : Option Block) (r : ℤ × WebSocket) : Prop :=
  r.1 = 0 ∧ r.2.url = url ∨ r.1 ≠ 0 ∧ Bare r.2

section Ends

variable {own : WebSocket}

theorem bare_connectCleanup (h : own.sslCtx = none) : Bare (connectCleanup own) :=
  ⟨rfl, rfl, rfl, ioCtx_dropIo own, (sslCtx_dropIo own).trans h⟩

theorem ends_failed {url : Option Block} (h : Bare own) : Ends url (-1, own) :=
  Or.inr ⟨neg_ne_zero.mpr one_ne_zero, h⟩

/-- The TLS part adds a context if it succeeds, and leaves none if it fails. -/
theorem connectSsl_ends (h : own.sslCtx = none) (a : ConnectAnswers) :
    (connectSsl own a).2.url = own.url ∧ (connectSsl own a).2.useSsl = own.useSsl ∧
      ((connectSsl own a).1 = true → own.useSsl = true ∨ (connectSsl own a).2.sslCtx = none) ∧
      ((connectSsl own a).1 = false → (connectSsl own a).2.sslCtx = none) := by
  unfold connectSsl
  by_cases hssl : own.useSsl = true
  · rw [if_pos hssl]
    cases sslInit own.heap a.ssl with
    | mk o heap =>
        cases o with
        | none => exact ⟨rfl, rfl, fun _ => Or.inl hssl, fun _ => h⟩
        | some ctx =>
            dsimp only
            split_ifs
            · exact ⟨rfl, rfl, fun _ => Or.inl hssl, fun _ => rfl⟩
            · exact ⟨rfl, rfl, fun _ => Or.inl hssl, fun hfailed => absurd hfailed (by simp)⟩
  · rw [if_neg hssl]
    exact ⟨rfl, rfl, fun _ => Or.inr h, fun _ => h⟩

theorem ends_connectSocket (h : own.useSsl = true ∨ own.sslCtx = none) (a : ConnectAnswers) :
    Ends own.url (connectSocket own a true) := by
  unfold connectSocket
  split_ifs with hfailed hssl hsent
  · exact ends_failed (bare_connectCleanup (sslCtx_dropSsl own))
  · exact ends_failed (bare_connectCleanup (h.resolve_left hssl))
  · exact absurd hsent (by simp)
  · exact Or.inl ⟨rfl, rfl⟩

theorem initIo_url (own : WebSocket) (allocated created : Bool) :
    (own.initIo allocated created).url = own.url := by
  cases allocated <;> rfl

theorem ends_connectIo (h : own.sslCtx = none) (a : ConnectAnswers) :
    Ends own.url (connectIo own a true) := by
  have hssl := (initIo_sslCtx own a.ctxAllocated a.kqueue).trans h
  have hurl := initIo_url own a.ctxAllocated a.kqueue
  unfold connectIo
  generalize own.initIo a.ctxAllocated a.kqueue = io at hssl hurl ⊢
  dsimp only
  split_ifs with hfailed htcp hsslFailed
  · exact ends_failed (bare_connectCleanup hssl)
  · exact ends_failed (bare_connectCleanup hssl)
  · exact ends_failed (bare_connectCleanup ((connectSsl_ends hssl a).2.2.2 hsslFailed))
  · obtain ⟨hkept, huse, hdone, -⟩ := connectSsl_ends hssl a
    have hlast := ends_connectSocket
      (huse ▸ hdone (Bool.eq_true_of_not_eq_false hsslFailed)) a
    rwa [Ends, hkept, hurl] at hlast

theorem ends_connectRings (h : own.sslCtx = none) (a : ConnectAnswers) :
    Ends own.url (connectRings own a true) := by
  unfold connectRings
  cases a.rxInit with
  | false => exact ends_failed (bare_connectCleanup h)
  | true =>
      cases a.txInit with
      | false => exact ends_failed (bare_connectCleanup h)
      | true => exact @ends_connectIo ((own.initRx true).initTx true) h a

/-- On a connection without pointers `websocket_connect` fails and leaves it so, or keeps the
copy of the URL. -/
theorem ends_websocketConnect (h : Bare own) (url : List UInt8) (a : ConnectAnswers) :
    Ends (own.copyUrl a.urlCopied).url (websocketConnect own url a true) := by
  unfold websocketConnect
  generalize parseUrl url 256 1024 ⟨[], [], 0, own.useSsl⟩ = parsed
  dsimp only
  split_ifs
  · exact ends_failed ⟨rfl, h.rx, h.tx, h.io, h.ssl⟩
  · exact @ends_connectRings { own.copyUrl a.urlCopied with useSsl := parsed.2.useSsl } h.ssl a

theorem losesNothing_of_bare (h : Bare own) (url : List UInt8) {a : ConnectAnswers}
    (ha : ¬a.ssl.Strands) : LosesNothing own url a :=
  ⟨h.url, fun _ _ => ⟨h.rx, fun _ => ⟨h.tx, h.io, fun _ _ _ _ => ⟨ha, fun _ => h.ssl⟩⟩⟩⟩

end Ends

theorem connectSocket_of_failed {own : WebSocket} {a : ConnectAnswers}
    (h : (connectSocket own a true).1 ≠ 0) (handshake : Bool) :
    connectSocket own a handshake = connectSocket own a true := by
  unfold connectSocket at h ⊢
  by_cases hfailed : a.configured = false ∨ a.registered = false
  · rw [if_pos hfailed, if_pos hfailed]
  · rw [if_neg hfailed, if_neg (by simp)] at h
    exact absurd rfl h

/-- A call that fails although the request was queued has not come to the request. -/
theorem websocketConnect_of_failed {own : WebSocket} {url : List UInt8} {a : ConnectAnswers}
    (h : (websocketConnect own url a true).1 ≠ 0) (handshake : Bool) :
    websocketConnect own url a handshake = websocketConnect own url a true := by
  unfold websocketConnect connectRings connectIo at h ⊢
  dsimp only at h ⊢
  split_ifs at h ⊢ <;> first | rfl | exact connectSocket_of_failed h handshake

/-! ## Runs -/

/-- A call of the application; the answers to `websocket_connect` are given in full. -/
inductive Call where
  | connect (url : List UInt8) (answers : ConnectAnswers)
  | other (call : PublicCall) (h : ∀ url answers, call ≠ .connect url answers)

/-- The connection and what it has allocated. -/
structure Joint where
  ws : WebSocketHft.WebSocket
  own : WebSocket

/-- The outcome of `send_handshake` is that of the connection. -/
def Call.run (env : Env) (s : Joint) : Call → Joint
  | .connect url a =>
    let r := WebSocketHft.websocketConnect env s.ws url a.outline
    ⟨r.2, (websocketConnect s.own url a (decide (r.1 = 0))).2⟩
  | .other call _ => ⟨call.run env s.ws, s.own⟩

/-- What a call of `websocket_connect` returns. -/
def Call.codes (env : Env) (s : Joint) : Call → List ℤ
  | .connect url a => [(WebSocketHft.websocketConnect env s.ws url a.outline).1]
  | .other _ _ => []

def created (allocated : Bool) : Joint :=
  ⟨WebSocketHft.websocketCreate allocated, websocketCreate allocated⟩

/-- What the calls of `websocket_connect` return, in order. -/
def connectCodes (env : Env) (allocated : Bool) (calls : List Call) : List ℤ :=
  Runs.collect (Call.run env) (Call.codes env) (created allocated) calls

def runJoint (env : Env) (allocated : Bool) (calls : List Call) : Joint :=
  calls.foldl (Call.run env) (created allocated)

/-- A call loses nothing. -/
def Call.LosesNothing (s : Joint) : Call → Prop
  | .connect url a => Heap.LosesNothing s.own url a
  | .other _ _ => True

theorem shape_run {env : Env} {s : Joint} (h : s.own.shape = shapeOf s.ws) (call : Call) :
    (call.run env s).own.shape = shapeOf (call.run env s).ws := by
  cases call with
  | connect url a => exact (websocketConnect_agrees h url a fun hzero => decide_eq_true hzero).2
  | other call hcall =>
      have hkept : shapeOf (call.run env s.ws) = shapeOf s.ws :=
        (call.moves env s.ws hcall).invariant (P := fun ws' => shapeOf ws' = shapeOf s.ws)
          (fun hmove heq => (shapeOf_move hmove).trans heq) rfl
      exact h.trans hkept.symm

theorem shape_created (allocated : Bool) :
    (created allocated).own.shape = shapeOf (created allocated).ws := by
  cases allocated <;> rfl

theorem loses_run {env : Env} {s : Joint} {lost : Multiset Block} (h : Sound s.own lost)
    (call : Call) : Loses (call.run env s).own lost (call.LosesNothing s) := by
  cases call with
  | connect url a => exact loses_websocketConnect h url a _
  | other call hcall => exact h.loses trivial

/-- A run loses nothing if no call of it does. -/
theorem loses_foldl {env : Env} {s : Joint} {lost : Multiset Block} (h : Sound s.own lost)
    (calls : List Call) :
    Loses (calls.foldl (Call.run env) s).own lost
      (Runs.Along (Call.run env) Call.LosesNothing s calls) := by
  induction calls generalizing s lost with
  | nil => exact h.loses trivial
  | cons call calls ih =>
      obtain ⟨more, hsound, hmore⟩ := loses_run h call
      exact (ih hsound).after hmore

theorem live_websocketDestroy {own : WebSocket} {lost : Multiset Block} (h : Sound own lost) :
    (websocketDestroy own).live = [] ↔ lost = 0 := by
  rw [← Multiset.coe_eq_zero, (websocketDestroy_spec h).live_eq, zero_add]

/-- Along every run, whatever the surroundings grant and refuse, both models have the same
pointers, nothing is released twice or after its release, and `websocket_destroy` leaves
nothing allocated exactly if no call has lost anything. -/
theorem allocations_accounted (env : Env) (allocated : Bool) (calls : List Call) :
    (runJoint env allocated calls).own.shape = shapeOf (runJoint env allocated calls).ws ∧
      (websocketDestroy (runJoint env allocated calls).own).misused = [] ∧
      ((websocketDestroy (runJoint env allocated calls).own).live = [] ↔
        Runs.Along (Call.run env) Call.LosesNothing (created allocated) calls) := by
  have hshape := Runs.foldl_invariant (I := fun s : Joint => s.own.shape = shapeOf s.ws)
    (fun s call h => @shape_run env s h call) (shape_created allocated) calls
  obtain ⟨more, hsound, hmore⟩ :=
    @loses_foldl env (created allocated) 0 (sound_create allocated) calls
  refine ⟨hshape, (websocketDestroy_spec hsound).unmisused, ?_⟩
  rw [runJoint, live_websocketDestroy hsound, zero_add, hmore]

/-! ## Connecting again -/

section Again

variable {env : Env} {s : Joint}

/-- Once a URL is held, every call of `websocket_connect` loses it. -/
theorem along_connected {calls : List Call} (h : s.own.url ≠ none) :
    Runs.Along (Call.run env) Call.LosesNothing s calls ↔
      Runs.collect (Call.run env) (Call.codes env) s calls = [] := by
  induction calls generalizing s with
  | nil => exact iff_of_true trivial rfl
  | cons call calls ih =>
      cases call with
      | connect url a =>
          exact iff_of_false (fun halong => h halong.1.1) (List.cons_ne_nil _ _)
      | other call hcall => exact (and_iff_right trivial).trans (ih h)

/-- `websocket_connect` on a connection without pointers. -/
theorem ends_run (hbare : Bare s.own) (hshape : s.own.shape = shapeOf s.ws) (url : List UInt8)
    (a : ConnectAnswers) :
    Ends (s.own.copyUrl a.urlCopied).url
      ((WebSocketHft.websocketConnect env s.ws url a.outline).1,
        (Call.run env s (.connect url a)).own) := by
  have hends := ends_websocketConnect hbare url a
  have hcode := (@websocketConnect_agrees s.ws s.own env hshape url a true fun _ => rfl).1
  dsimp only [Call.run]
  by_cases hzero : (WebSocketHft.websocketConnect env s.ws url a.outline).1 = 0
  · rwa [decide_eq_true hzero, ← hcode]
  · rw [← hcode] at hzero
    rwa [websocketConnect_of_failed hzero, ← hcode]

/-- All but the last, where the list has a first. -/
theorem dropLast_cons_iff {code : ℤ} {codes : List ℤ} :
    (∀ c ∈ (code :: codes).dropLast, c ≠ 0) ↔
      codes = [] ∨ code ≠ 0 ∧ ∀ c ∈ codes.dropLast, c ≠ 0 := by
  cases codes with
  | nil => simp
  | cons next codes => simp

/-- From a connection without pointers on, nothing is lost as long as only the last call of
`websocket_connect` succeeds. -/
theorem along_bare {calls : List Call} (hbare : Bare s.own) (hshape : s.own.shape = shapeOf s.ws)
    (hanswers : ∀ url a, .connect url a ∈ calls → a.urlCopied = true ∧ ¬a.ssl.Strands) :
    Runs.Along (Call.run env) Call.LosesNothing s calls ↔
      ∀ code ∈ (Runs.collect (Call.run env) (Call.codes env) s calls).dropLast, code ≠ 0 := by
  induction calls generalizing s with
  | nil => exact iff_of_true trivial (by simp [Runs.collect])
  | cons call calls ih =>
      have hnext := @shape_run env s hshape call
      have hrest : ∀ url a, .connect url a ∈ calls → a.urlCopied = true ∧ ¬a.ssl.Strands :=
        fun url a ha => hanswers url a (List.mem_cons_of_mem call ha)
      cases call with
      | connect url a =>
          obtain ⟨hcopied, hstrands⟩ := hanswers url a List.mem_cons_self
          have hfirst : Call.LosesNothing s (.connect url a) :=
            losesNothing_of_bare hbare url hstrands
          rw [Runs.Along, and_iff_right hfirst, Runs.collect, Call.codes, List.singleton_append,
            dropLast_cons_iff]
          rcases @ends_run env s hbare hshape url a with ⟨hzero, hurl⟩ | ⟨hfailed, hbare'⟩
          · have hheld : (Call.run env s (.connect url a)).own.url ≠ none := by
              rw [hurl, hcopied]
              exact Option.some_ne_none _
            rw [along_connected hheld, or_iff_left fun hcode => absurd hzero hcode.1]
          · rw [ih hbare' hnext hrest]
            constructor
            · exact fun hcodes => Or.inr ⟨hfailed, hcodes⟩
            · rintro (hnone | ⟨-, hcodes⟩)
              · simp [hnone]
              · exact hcodes
      | other call hcall => exact (and_iff_right trivial).trans (ih hbare hnext hrest)

end Again

/-- Where the URL can be copied and SecureTransport takes its callbacks, `websocket_destroy`
leaves nothing allocated exactly if every call of `websocket_connect` but the last one failed.
What was lost before stays lost, and a connection that is connected again loses at least its
URL. -/
theorem released_iff_connected_last (env : Env) (allocated : Bool) (calls : List Call)
    (hanswers : ∀ url a, .connect url a ∈ calls → a.urlCopied = true ∧ ¬a.ssl.Strands) :
    (websocketDestroy (runJoint env allocated calls).own).live = [] ↔
      ∀ code ∈ (connectCodes env allocated calls).dropLast, code ≠ 0 := by
  obtain ⟨more, hsound, hmore⟩ :=
    @loses_foldl env (created allocated) 0 (sound_create allocated) calls
  rw [runJoint, live_websocketDestroy hsound, zero_add, hmore]
  exact along_bare ⟨rfl, rfl, rfl, rfl, rfl⟩ (shape_created allocated) hanswers

/-- A refused attempt before a successful one costs nothing; two successful ones do. -/
theorem released_after_refusal :
    let refused : Call :=
      .connect (ascii "wss://h/") { lookup := some [⟨false, false⟩, ⟨true, false⟩] }
    let accepted : Call := .connect (ascii "wss://h/") {}
    (websocketDestroy (runJoint (fun _ => {}) true [refused, accepted]).own).live = [] ∧
      (websocketDestroy (runJoint (fun _ => {}) true [accepted, accepted]).own).live ≠ [] := by
  intro refused accepted
  have hanswers (calls : List Call) (hcalls : ∀ call ∈ calls, call = refused ∨ call = accepted)
      (url : List UInt8) (a : ConnectAnswers) (ha : .connect url a ∈ calls) :
      a.urlCopied = true ∧ ¬a.ssl.Strands := by
    rcases hcalls _ ha with heq | heq <;> obtain ⟨-, rfl⟩ := Call.connect.inj heq <;>
      exact ⟨rfl, fun hstrands => Bool.noConfusion hstrands.2.2.2⟩
  have hfirst := released_iff_connected_last (fun _ => {}) true [refused, accepted]
    (hanswers _ (by simp))
  have hsecond := released_iff_connected_last (fun _ => {}) true [accepted, accepted]
    (hanswers _ (by simp))
  exact ⟨hfirst.mpr (by decide +kernel), fun hlive => absurd (hsecond.mp hlive) (by decide +kernel)⟩

end WebSocketHft.Heap

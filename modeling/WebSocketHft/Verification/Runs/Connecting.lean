import WebSocketHft.Verification.Runs.Moves

/-! # Connecting

`websocket_connect` sets up the endpoint of a connection piece by piece and takes it down
again where it gives up. Apart from that it opens and closes descriptors, queues the upgrade
request and sets the state. What each of these steps keeps, every `websocket_connect` keeps. -/

namespace WebSocketHft

/-! ## The ways `websocket_connect` ends -/

theorem core_dropSsl (ws : WebSocket) : ws.dropSsl.core = { ws.core with sslCtx := none } := by
  unfold WebSocket.dropSsl
  cases hctx : ws.sslCtx with
  | none => simp [WebSocket.core, hctx]
  | some ctx =>
      dsimp only
      cases sslCleanup ctx with
      | none => rfl
      | some fd => rfl

/-- The TLS part changes the TLS context only, and provides one if it succeeds. -/
theorem core_connectSsl (ws : WebSocket) (a : ConnectAnswers) :
    ∃ sslCtx, (connectSsl ws a).2.core = { ws.core with sslCtx := sslCtx } ∧
      ((connectSsl ws a).1 = true → ws.useSsl = true → sslCtx.isSome = true) := by
  unfold connectSsl
  split_ifs with hssl
  · cases sslInit a.backend with
    | none => exact ⟨ws.sslCtx, rfl, fun hfailed => Bool.noConfusion hfailed⟩
    | some ctx =>
        dsimp only
        split_ifs
        · exact ⟨none, core_dropSsl _, fun hfailed => absurd hfailed (by simp)⟩
        · exact ⟨_, rfl, fun _ _ => rfl⟩
  · exact ⟨ws.sslCtx, rfl, fun _ hused => absurd hused hssl⟩

/-- The TLS part leaves the descriptor and the transmit ring alone. -/
theorem connectSsl_keeps (ws : WebSocket) (a : ConnectAnswers) :
    (connectSsl ws a).2.fd = ws.fd ∧ (connectSsl ws a).2.txRing = ws.txRing := by
  have hdrop (ws : WebSocket) : ws.dropSsl.fd = ws.fd ∧ ws.dropSsl.txRing = ws.txRing := by
    unfold WebSocket.dropSsl
    cases ws.sslCtx with
    | none => exact ⟨rfl, rfl⟩
    | some ctx =>
        dsimp only
        cases sslCleanup ctx <;> exact ⟨rfl, rfl⟩
  unfold connectSsl
  split_ifs
  · cases sslInit a.backend with
    | none => exact ⟨rfl, rfl⟩
    | some ctx =>
        dsimp only
        split_ifs
        · exact hdrop { ws with sslCtx := _ }
        · exact ⟨rfl, rfl⟩
  · exact ⟨rfl, rfl⟩

/-- The upgrade request changes nothing but the transmit ring. -/
theorem core_sendHandshake (env : Env) (ws : WebSocket) (encoded : Option (List UInt8)) :
    (sendHandshake env ws encoded).2.core = ws.core := by
  unfold sendHandshake
  dsimp only
  generalize (wsHttpUpgradeRequest ws.path ws.host
    (generateWebsocketKey ws.secWebsocketKey encoded)).take (wsHttpUpgradeHeaderSize - 1) = request
  generalize hwritten : ({ ws with
      secWebsocketKey := generateWebsocketKey ws.secWebsocketKey encoded
      txRing := (ringbufferWrite ws.txRing (some request)).ring }.record
        (.request (request.take (ringbufferWrite ws.txRing (some request)).ret))) = written
  have hcore : written.core = ws.core := by
    rw [← hwritten]
    simp [WebSocket.core, WebSocket.errorFigures, WebSocket.record, Quiet.size_ringbufferWrite]
  split_ifs
  · exact hcore
  · exact (Quiet.flush env written).core.trans hcore

/-- From `io_add_socket` on, `websocket_connect` gives up and cleans up, or the socket is
registered and the request is queued. -/
theorem connectSocket_cases (env : Env) (ws : WebSocket) (ctx : IOContext) (a : ConnectAnswers)
    {P : ℤ → WebSocket → Prop}
    (hfailed : ∀ ws', ws'.state = ws.state → P (-1) (connectCleanup ws'))
    (hdone : ∀ sent : WebSocket, 0 ≤ (ioAddSocket ctx ws.fd a.configured a.registered).1 →
      sent.core = (ws.addSocket (ioAddSocket ctx ws.fd a.configured a.registered)).core →
      P 0 (sent.setState .connecting)) :
    P (connectSocket env ws ctx a).1 (connectSocket env ws ctx a).2 := by
  unfold connectSocket
  dsimp only
  generalize hadded : ws.addSocket (ioAddSocket ctx ws.fd a.configured a.registered) = added
    at hdone ⊢
  have hindex : added.socketIndex = (ioAddSocket ctx ws.fd a.configured a.registered).1 := by
    rw [← hadded]
    rfl
  have hstate : added.state = ws.state := by
    rw [← hadded]
    rfl
  have hcore := core_sendHandshake env added a.encoded
  generalize sendHandshake env added a.encoded = sent at hcore ⊢
  by_cases hnone : added.socketIndex < 0
  · rw [if_pos hnone]
    refine hfailed _ ?_
    split_ifs
    · exact (congrArg Core.state (core_dropSsl added)).trans hstate
    · exact hstate
  · rw [if_neg hnone]
    by_cases hsent : sent.1 ≠ 0
    · rw [if_pos hsent]
      exact hfailed _ ((congrArg Core.state hcore).trans hstate)
    · rw [if_neg hsent]
      exact hdone sent.2 (hindex ▸ not_lt.mp hnone) hcore

/-- The connection with its URL, its rings and its event queue set up. -/
def WebSocket.prepared (ws : WebSocket) (parts : UrlParts) (ctx : IOContext) : WebSocket :=
  ((ws.setUrl parts).initRings).setIo ctx

/-- `websocket_connect` gives up over the URL, before `tcp_connect`, in `tcp_connect` or in
the TLS part, or it comes to the last part. -/
theorem websocketConnect_cases (env : Env) (ws : WebSocket) (url : List UInt8)
    (a : ConnectAnswers) {P : ℤ → WebSocket → Prop} {parts : UrlParts} {ret : ℤ}
    (hparse : parseUrl url 256 1024 ⟨ws.host, ws.path, ws.port, ws.useSsl⟩ = (ret, parts))
    (hurl : ret ≠ 0 → P (-1) (ws.setUrl parts))
    (hearly : ∀ rx tx, ret = 0 →
      P (-1) (connectCleanup { ws.setUrl parts with rxRing := rx, txRing := tx }))
    (htcp : ∀ ctx, ret = 0 → a.tcp = false →
      P (-1) (connectCleanup { ws.prepared parts ctx with fd := -1 }))
    (hssl : ∀ ctx, ret = 0 → a.tcp = true →
      (connectSsl (ws.prepared parts ctx).openSocket a).1 = false →
      P (-1) (connectCleanup (connectSsl (ws.prepared parts ctx).openSocket a).2))
    (hsocket : ∀ ctx, ioInit true = some ctx → ret = 0 → a.tcp = true →
      (connectSsl (ws.prepared parts ctx).openSocket a).1 = true →
      P (connectSocket env (connectSsl (ws.prepared parts ctx).openSocket a).2 ctx a).1
        (connectSocket env (connectSsl (ws.prepared parts ctx).openSocket a).2 ctx a).2) :
    P (websocketConnect env ws url a).1 (websocketConnect env ws url a).2 := by
  unfold websocketConnect
  rw [hparse]
  dsimp only
  by_cases hret : ret ≠ 0
  · rw [if_pos hret]
    exact hurl hret
  · have hzero : ret = 0 := not_not.mp hret
    rw [if_neg hret]
    by_cases hrx : a.rxInit = false
    · rw [if_pos hrx]
      exact hearly _ _ hzero
    · rw [if_neg hrx]
      by_cases htx : a.txInit = false
      · rw [if_pos htx]
        exact hearly ringbufferInit _ hzero
      · rw [if_neg htx]
        cases hctx : (if a.ctxAllocated = true then ioInit a.kqueue else none) with
        | none => exact hearly ringbufferInit ringbufferInit hzero
        | some ctx =>
            have hinit : ioInit true = some ctx := by
              split_ifs at hctx
              cases hkqueue : a.kqueue with
              | false => simp [hkqueue, ioInit] at hctx
              | true => rwa [hkqueue] at hctx
            dsimp only
            by_cases htcp' : a.tcp = false
            · rw [if_pos htcp']
              exact htcp ctx hzero htcp'
            · have hopen : a.tcp = true := Bool.eq_true_of_not_eq_false htcp'
              rw [if_neg htcp']
              change P (if (connectSsl (ws.prepared parts ctx).openSocket a).1 = false then _
                else _ : ℤ × WebSocket).1 (if (connectSsl (ws.prepared parts ctx).openSocket a).1 =
                  false then _ else _ : ℤ × WebSocket).2
              by_cases hfailed : (connectSsl (ws.prepared parts ctx).openSocket a).1 = false
              · rw [if_pos hfailed]
                exact hssl ctx hzero hopen hfailed
              · rw [if_neg hfailed]
                exact hsocket ctx hinit hzero hopen (Bool.eq_true_of_not_eq_false hfailed)

/-- `websocket_connect`, from the allocation of the I/O context on. -/
def connectRest (env : Env) (ws : WebSocket) (a : ConnectAnswers) :
    ℤ × WebSocket :=
  match (if a.ctxAllocated then ioInit a.kqueue else none) with
  | none => (-1, connectCleanup ws)
  | some ctx =>
    if a.tcp = false then (-1, connectCleanup { ws.setIo ctx with fd := -1 })
    else
      let r := connectSsl (ws.setIo ctx).openSocket a
      if r.1 = false then (-1, connectCleanup r.2)
      else connectSocket env r.2 ctx a

theorem websocketConnect_eq (env : Env) (ws : WebSocket) (url : List UInt8)
    (a : ConnectAnswers) {parsed : ℤ × UrlParts}
    (hparsed : parseUrl url 256 1024 ⟨ws.host, ws.path, ws.port, ws.useSsl⟩ = parsed) :
    websocketConnect env ws url a =
      if parsed.1 ≠ 0 then (-1, ws.setUrl parsed.2)
      else if a.rxInit = false then (-1, connectCleanup (ws.setUrl parsed.2))
      else if a.txInit = false then
        (-1, connectCleanup { ws.setUrl parsed.2 with rxRing := ringbufferInit })
      else connectRest env (ws.setUrl parsed.2).initRings a := by
  rw [← hparsed]
  rfl

/-! ## The steps of `websocket_connect` -/

/-- The URL of a connection and all that carries it. -/
structure Endpoint where
  host : List UInt8
  path : List UInt8
  port : ℤ
  useSsl : Bool
  secWebsocketKey : List UInt8
  fd : ℤ
  nextFd : ℕ
  sslCtx : Option SSLContext
  ioCtx : Option IOContext
  socketIndex : ℤ
  rxRing : RingBuffer
  txRing : RingBuffer

def WebSocket.endpoint (ws : WebSocket) : Endpoint where
  host := ws.host
  path := ws.path
  port := ws.port
  useSsl := ws.useSsl
  secWebsocketKey := ws.secWebsocketKey
  fd := ws.fd
  nextFd := ws.nextFd
  sslCtx := ws.sslCtx
  ioCtx := ws.ioCtx
  socketIndex := ws.socketIndex
  rxRing := ws.rxRing
  txRing := ws.txRing

def WebSocket.withEndpoint (ws : WebSocket) (ep : Endpoint) : WebSocket :=
  { ws with
    host := ep.host
    path := ep.path
    port := ep.port
    useSsl := ep.useSsl
    secWebsocketKey := ep.secWebsocketKey
    fd := ep.fd
    nextFd := ep.nextFd
    sslCtx := ep.sslCtx
    ioCtx := ep.ioCtx
    socketIndex := ep.socketIndex
    rxRing := ep.rxRing
    txRing := ep.txRing }

/-- A descriptor that a connection attempt opens or closes. -/
def Event.isDescriptor : Event → Bool
  | .opened _ => true
  | .closed _ => true
  | _ => false

/-- A step of setting up the endpoint or taking it down. -/
inductive SetUp (ws : WebSocket) : WebSocket → Prop where
  | endpoint (ep : Endpoint) : SetUp ws (ws.withEndpoint ep)
  | descriptor {e : Event} (he : e.isDescriptor) : SetUp ws (ws.record e)

inductive Attempt (env : Env) (ws : WebSocket) : WebSocket → Prop where
  | setUp {ws' : WebSocket} (h : SetUp ws ws') : Attempt env ws ws'
  | request (bytes : List UInt8) : Attempt env ws (ws.record (.request bytes))
  | flush : Attempt env ws (ws.flush env)
  | connecting : Attempt env ws (ws.setState .connecting)

def SetUps : WebSocket → WebSocket → Prop := Relation.ReflTransGen SetUp

def Attempts (env : Env) : WebSocket → WebSocket → Prop := Relation.ReflTransGen (Attempt env)

variable {env : Env} {ws ws' ws'' : WebSocket}

namespace SetUps

theorem refl : SetUps ws ws := Relation.ReflTransGen.refl

theorem trans (h : SetUps ws ws') (h' : SetUps ws' ws'') : SetUps ws ws'' :=
  Relation.ReflTransGen.trans h h'

theorem invariant {P : WebSocket → Prop} (hstep : ∀ {ws ws'}, SetUp ws ws' → P ws → P ws')
    (h : SetUps ws ws') (hws : P ws) : P ws' := by
  induction h with
  | refl => exact hws
  | tail _ hsetUp ih => exact hstep hsetUp ih

theorem endpoint (ep : Endpoint) : SetUps ws (ws.withEndpoint ep) :=
  Relation.ReflTransGen.single (.endpoint ep)

theorem note (ep : Endpoint) {e : Event} (he : e.isDescriptor) :
    SetUps ws ((ws.withEndpoint ep).record e) :=
  (endpoint ep).trans (Relation.ReflTransGen.single (.descriptor he))

theorem openSocket (ws : WebSocket) (parts : UrlParts) (ctx : IOContext) :
    SetUps ws (ws.prepared parts ctx).openSocket :=
  note (ws.prepared parts ctx).openSocket.endpoint rfl

theorem dropSsl (ws : WebSocket) : SetUps ws ws.dropSsl := by
  unfold WebSocket.dropSsl
  cases ws.sslCtx with
  | none => exact refl
  | some ctx =>
      dsimp only
      cases sslCleanup ctx with
      | none => exact endpoint { ws.endpoint with sslCtx := none }
      | some fd => exact note { ws.endpoint with sslCtx := none } rfl

theorem connectCleanup (ws : WebSocket) : SetUps ws (WebSocketHft.connectCleanup ws) := by
  have hreleased (ws : WebSocket) : SetUps ws { ws with
      ioCtx := none
      rxRing := ringbufferCleanup
      txRing := ringbufferCleanup } :=
    endpoint { ws.endpoint with
      ioCtx := none, rxRing := ringbufferCleanup, txRing := ringbufferCleanup }
  unfold WebSocketHft.connectCleanup
  dsimp only
  split_ifs
  · exact (note { ws.endpoint with fd := -1 } rfl).trans (hreleased _)
  · exact hreleased ws

theorem connectSsl (ws : WebSocket) (a : ConnectAnswers) :
    SetUps ws (WebSocketHft.connectSsl ws a).2 := by
  have hset (ctx : SSLContext) : SetUps ws { ws with sslCtx := some ctx } :=
    endpoint { ws.endpoint with sslCtx := some ctx }
  unfold WebSocketHft.connectSsl
  split_ifs
  · cases sslInit a.backend with
    | none => exact refl
    | some ctx =>
        dsimp only
        split_ifs
        · exact (hset _).trans (dropSsl _)
        · exact hset _
  · exact refl

end SetUps

namespace Attempts

theorem trans (h : Attempts env ws ws') (h' : Attempts env ws' ws'') : Attempts env ws ws'' :=
  Relation.ReflTransGen.trans h h'

theorem single (h : Attempt env ws ws') : Attempts env ws ws' := Relation.ReflTransGen.single h

theorem setUps (h : SetUps ws ws') : Attempts env ws ws' :=
  Relation.ReflTransGen.mono (fun _ _ => Attempt.setUp) ws ws' h

theorem invariant {P : WebSocket → Prop} (hstep : ∀ {ws ws'}, Attempt env ws ws' → P ws → P ws')
    (h : Attempts env ws ws') (hws : P ws) : P ws' := by
  induction h with
  | refl => exact hws
  | tail _ hattempt ih => exact hstep hattempt ih

theorem sendHandshake (ws : WebSocket) (encoded : Option (List UInt8)) :
    Attempts env ws (WebSocketHft.sendHandshake env ws encoded).2 := by
  have hwritten (key request : List UInt8) (ring : RingBuffer) : Attempts env ws
      ({ ws with secWebsocketKey := key, txRing := ring }.record (.request request)) :=
    (setUps (.endpoint { ws.endpoint with secWebsocketKey := key, txRing := ring })).trans
      (single (.request request))
  unfold WebSocketHft.sendHandshake
  dsimp only
  split_ifs
  · exact hwritten _ _ _
  · exact (hwritten _ _ _).trans (single .flush)

theorem connectSocket (ws : WebSocket) (ctx : IOContext) (a : ConnectAnswers) :
    Attempts env ws (WebSocketHft.connectSocket env ws ctx a).2 := by
  have hadded (added : ℤ × IOContext) : Attempts env ws (ws.addSocket added) :=
    setUps (.endpoint { ws.endpoint with socketIndex := added.1, ioCtx := some added.2 })
  unfold WebSocketHft.connectSocket
  dsimp only
  split_ifs
  · exact (hadded _).trans (setUps ((SetUps.dropSsl _).trans (.connectCleanup _)))
  · exact (hadded _).trans (setUps (.connectCleanup _))
  · exact ((hadded _).trans (sendHandshake _ _)).trans (setUps (.connectCleanup _))
  · exact ((hadded _).trans (sendHandshake _ _)).trans (single .connecting)

theorem websocketConnect (ws : WebSocket) (url : List UInt8) (a : ConnectAnswers) :
    Attempts env ws (WebSocketHft.websocketConnect env ws url a).2 := by
  generalize hparse : parseUrl url 256 1024 ⟨ws.host, ws.path, ws.port, ws.useSsl⟩ = parsed
  have hssl (ctx : IOContext) : SetUps ws
      (WebSocketHft.connectSsl (ws.prepared parsed.2 ctx).openSocket a).2 :=
    (SetUps.openSocket ws parsed.2 ctx).trans (.connectSsl _ _)
  refine websocketConnect_cases (P := fun _ ws' => Attempts env ws ws') env ws url a hparse
    ?_ ?_ ?_ ?_ ?_
  · intro _
    exact setUps (.endpoint (ws.setUrl parsed.2).endpoint)
  · intro rx tx _
    have hrings : SetUps ws { ws.setUrl parsed.2 with rxRing := rx, txRing := tx } :=
      .endpoint { (ws.setUrl parsed.2).endpoint with rxRing := rx, txRing := tx }
    exact setUps (hrings.trans (.connectCleanup _))
  · intro ctx _ _
    have hprepared : SetUps ws { ws.prepared parsed.2 ctx with fd := -1 } :=
      .endpoint { (ws.prepared parsed.2 ctx).endpoint with fd := -1 }
    exact setUps (hprepared.trans (.connectCleanup _))
  · intro ctx _ _ _
    exact setUps ((hssl ctx).trans (.connectCleanup _))
  · intro ctx _ _ _ _
    exact (setUps (hssl ctx)).trans (connectSocket _ _ _)

end Attempts

end WebSocketHft

import WebSocketHft.Model.Allocations
import WebSocketHft.Shared.Runs

/-! # Releasing what was allocated

Between two calls every live block is held by the connection or lost: its pointer was
overwritten, or it is a SecureTransport context in the hands of the other backend. What is
held is released by `websocket_destroy`, each block once; what is lost stays. -/

namespace WebSocketHft.Heap

open WebSocketHft WebSocketHft.Ownership

variable {heap : Inventory Kind} {rest lost : Multiset Block}

theorem acquire_false (heap : Inventory Kind) (kind : Kind) :
    heap.acquire false kind = (none, heap) := rfl

theorem acquire_true (heap : Inventory Kind) (kind : Kind) :
    ∃ b heap', heap.acquire true kind = (some b, heap') ∧
      ∀ {rest lost}, Accounted heap rest lost → Accounted heap' ({b} + rest) lost :=
  ⟨_, _, rfl, fun h => h.acquire true kind⟩

/-! ## Sockets -/

/-- `socket` and `connect` succeed. -/
def AddressAnswer.works (a : AddressAnswer) : Bool := a.created && a.connected

theorem accounted_tcpConnectLoop (h : Accounted heap rest lost) (addresses : List AddressAnswer) :
    Accounted (tcpConnectLoop heap addresses).2
      (content (tcpConnectLoop heap addresses).1 + rest) lost := by
  induction addresses generalizing heap with
  | nil => exact h.congr (by simp [tcpConnectLoop])
  | cons a addresses ih =>
      unfold tcpConnectLoop
      cases a.created with
      | false => exact ih h
      | true =>
          obtain ⟨fd, heap', heq, hacquire⟩ := acquire_true heap .socket
          simp only [heq]
          split_ifs
          · exact hacquire h
          · exact ih (hacquire h).release

theorem tcpConnectLoop_fst (heap : Inventory Kind) (addresses : List AddressAnswer) :
    (tcpConnectLoop heap addresses).1 =
      if addresses.any AddressAnswer.works then
        some ⟨.socket, heap.next +
          (addresses.takeWhile fun a => !a.works).countP AddressAnswer.created⟩
      else none := by
  induction addresses generalizing heap with
  | nil => rfl
  | cons a addresses ih =>
      obtain ⟨created, connected⟩ := a
      cases created with
      | false => simp [tcpConnectLoop, acquire_false, ih, AddressAnswer.works]
      | true =>
          cases connected with
          | true => simp [tcpConnectLoop, Inventory.acquire, AddressAnswer.works]
          | false =>
              simp [tcpConnectLoop, Inventory.acquire, AddressAnswer.works, ih, add_assoc,
                Nat.add_comm 1]

/-- Whatever the lookup finds and however `socket` and `connect` answer: `tcp_connect` returns
the socket of the first address that can be connected, and has closed each other socket it
opened once. -/
theorem tcp_connect_keeps_one (h : Accounted heap rest lost)
    (lookup : Option (List AddressAnswer)) :
    Accounted (tcpConnect heap lookup).2 (content (tcpConnect heap lookup).1 + rest) lost ∧
      (tcpConnect heap lookup).1 =
        if (lookup.getD []).any AddressAnswer.works then
          some ⟨.socket, heap.next +
            ((lookup.getD []).takeWhile fun a => !a.works).countP AddressAnswer.created⟩
        else none := by
  cases lookup with
  | none => exact ⟨h.congr (by simp [tcpConnect]), rfl⟩
  | some addresses =>
      exact ⟨accounted_tcpConnectLoop h addresses, tcpConnectLoop_fst heap addresses⟩

/-- No socket for the first address, a refusal from the second, success with the third. -/
theorem tcp_connect_third_address :
    (tcpConnect .empty (some [⟨false, false⟩, ⟨true, false⟩, ⟨true, true⟩, ⟨true, true⟩])).1 =
        some ⟨.socket, 1⟩ ∧
      Accounted (tcpConnect .empty
        (some [⟨false, false⟩, ⟨true, false⟩, ⟨true, true⟩, ⟨true, true⟩])).2
        {⟨.socket, 1⟩} 0 :=
  ⟨rfl, (tcp_connect_keeps_one Accounted.empty
    (some [⟨false, false⟩, ⟨true, false⟩, ⟨true, true⟩, ⟨true, true⟩])).1⟩

/-! ## The TLS context -/

/-- What `ssl_cleanup` releases. -/
def SSLContext.held (ctx : SSLContext) : Multiset Block :=
  {ctx.self} + {ctx.readBuf} +
    match ctx.backend with
    | .secureTransport => content ctx.stCtx
    | .openSSL => content ctx.osslSsl + content ctx.osslCtx

/-- What the connection holds of a TLS context. -/
def heldSsl : Option SSLContext → Multiset Block
  | none => 0
  | some ctx => ctx.held

@[simp] theorem heldSsl_none : heldSsl none = 0 := rfl

@[simp] theorem heldSsl_some (ctx : SSLContext) : heldSsl (some ctx) = ctx.held := rfl

theorem heldSsl_eq_zero {o : Option SSLContext} : heldSsl o = 0 ↔ o = none := by
  cases o with
  | none => simp
  | some ctx => simp [SSLContext.held]

theorem held_secureTransport {ctx : SSLContext} (h : ctx.backend = .secureTransport) :
    ctx.held = {ctx.self} + {ctx.readBuf} + content ctx.stCtx := by
  rw [SSLContext.held, h]

theorem held_openSSL {ctx : SSLContext} (h : ctx.backend = .openSSL) :
    ctx.held = {ctx.self} + {ctx.readBuf} + (content ctx.osslSsl + content ctx.osslCtx) := by
  rw [SSLContext.held, h]

theorem sslCleanup_spec {ctx : SSLContext} (h : Accounted heap (ctx.held + rest) lost) :
    Accounted (sslCleanup heap ctx) rest lost := by
  unfold sslCleanup
  apply Accounted.release
  apply Accounted.release
  cases hbackend : ctx.backend with
  | secureTransport =>
      rw [held_secureTransport hbackend] at h
      apply Accounted.releaseIfAny
      exact h.congr (by abel)
  | openSSL =>
      rw [held_openSSL hbackend] at h
      apply Accounted.releaseIfAny
      apply Accounted.releaseIfAny
      exact h.congr (by abel)

/-- The OpenSSL part keeps nothing of the SecureTransport context. -/
theorem sslInitOpenssl_spec {self readBuf : Block} {stCtx : Option Block}
    (h : Accounted heap ({self} + {readBuf} + content stCtx + rest) lost) (a : SslInitAnswers) :
    Accounted (sslInitOpenssl heap self readBuf stCtx a).2
      (heldSsl (sslInitOpenssl heap self readBuf stCtx a).1 + rest) (lost + content stCtx) := by
  have hgone : Accounted ((heap.release readBuf).release self) (0 + rest)
      (lost + content stCtx) := by
    apply Accounted.release
    apply Accounted.release
    exact h.congr (by abel)
  unfold sslInitOpenssl
  cases a.haveOpenssl with
  | false => exact hgone
  | true =>
      cases a.osslCtxCreated with
      | false => exact hgone
      | true =>
          obtain ⟨b, heap', heq, hacquire⟩ := acquire_true heap .osslCtx
          simp only [heq, if_true]
          refine (hacquire h).congr ?_
          simp only [heldSsl, SSLContext.held, content_none, content_some]
          abel

/-- A SecureTransport context that is there and cannot be used is lost. -/
def SslInitAnswers.Strands (a : SslInitAnswers) : Prop :=
  a.ctxAllocated = true ∧ a.bufAllocated = true ∧ a.newContext = true ∧ a.setIOFuncs = false

/-- The backend of the context `ssl_init` returns. -/
def SslInitAnswers.backend (a : SslInitAnswers) : Option SSLBackend :=
  if a.ctxAllocated && a.bufAllocated then
    if a.newContext && a.setIOFuncs then some .secureTransport
    else if a.haveOpenssl && a.osslCtxCreated then some .openSSL
    else none
  else none

theorem sslInit_spec (h : Accounted heap rest lost) (a : SslInitAnswers) :
    ∃ stranded, Accounted (sslInit heap a).2 (heldSsl (sslInit heap a).1 + rest)
      (lost + stranded) ∧ (stranded = 0 ↔ ¬a.Strands) := by
  have hnone {heap : Inventory Kind} (h : Accounted heap rest lost) :
      Accounted heap (0 + rest) (lost + 0) := h.congr (by abel)
  unfold sslInit SslInitAnswers.Strands
  cases a.ctxAllocated with
  | false => exact ⟨0, hnone h, by simp⟩
  | true =>
      obtain ⟨self, heap₁, heq₁, hacquire₁⟩ := acquire_true heap .sslContext
      simp only [heq₁]
      cases a.bufAllocated with
      | false => exact ⟨0, hnone (hacquire₁ h).release, by simp⟩
      | true =>
          obtain ⟨readBuf, heap₂, heq₂, hacquire₂⟩ := acquire_true heap₁ .readBuf
          simp only [heq₂]
          have hboth := hacquire₂ (hacquire₁ h)
          cases a.newContext with
          | false =>
              refine ⟨0, ?_, by simp⟩
              have hpart : Accounted heap₂ ({self} + {readBuf} + content none + rest) lost :=
                hboth.congr (by rw [content_none]; abel)
              exact sslInitOpenssl_spec hpart a
          | true =>
              obtain ⟨stCtx, heap₃, heq₃, hacquire₃⟩ := acquire_true heap₂ .stCtx
              simp only [heq₃]
              have hthree := hacquire₃ hboth
              cases hio : a.setIOFuncs with
              | true =>
                  refine ⟨0, ?_, by simp⟩
                  refine hthree.congr ?_
                  change _ = ({self} + {readBuf} + {stCtx} : Multiset Block) + rest + (lost + 0)
                  abel
              | false =>
                  refine ⟨content (some stCtx), ?_, by simp⟩
                  have hpart : Accounted heap₃
                      ({self} + {readBuf} + content (some stCtx) + rest) lost :=
                    hthree.congr (by rw [content_some]; abel)
                  exact sslInitOpenssl_spec hpart a

theorem sslInitOpenssl_osslSsl {self readBuf : Block} {stCtx : Option Block} {a : SslInitAnswers}
    {ctx : SSLContext} (h : (sslInitOpenssl heap self readBuf stCtx a).1 = some ctx) :
    ctx.osslSsl = none := by
  unfold sslInitOpenssl at h
  cases hopenssl : a.haveOpenssl <;> cases hcreated : a.osslCtxCreated <;>
    simp [hopenssl, hcreated, Inventory.acquire] at h
  rw [← h]

/-- A fresh context has no connection of OpenSSL yet. -/
theorem sslInit_osslSsl {a : SslInitAnswers} {ctx : SSLContext}
    (h : (sslInit heap a).1 = some ctx) : ctx.osslSsl = none := by
  unfold sslInit at h
  cases hctx : a.ctxAllocated <;> cases hbuf : a.bufAllocated <;> cases hnew : a.newContext <;>
    cases hio : a.setIOFuncs <;> simp [hctx, hbuf, hnew, hio, Inventory.acquire] at h
  · exact sslInitOpenssl_osslSsl h
  · exact sslInitOpenssl_osslSsl h
  · exact sslInitOpenssl_osslSsl h
  · rw [← h]

theorem sslInitOpenssl_backend (heap : Inventory Kind) (self readBuf : Block) (stCtx : Option Block)
    (a : SslInitAnswers) : (sslInitOpenssl heap self readBuf stCtx a).1.map SSLContext.backend =
      if a.haveOpenssl && a.osslCtxCreated then some .openSSL else none := by
  unfold sslInitOpenssl
  cases a.haveOpenssl <;> cases a.osslCtxCreated <;> rfl

theorem sslInit_backend (heap : Inventory Kind) (a : SslInitAnswers) :
    (sslInit heap a).1.map SSLContext.backend = a.backend := by
  unfold sslInit SslInitAnswers.backend
  cases a.ctxAllocated <;> cases a.bufAllocated <;> cases a.newContext <;> cases a.setIOFuncs <;>
    first | rfl | exact sslInitOpenssl_backend _ _ _ _ a

theorem sslConnect_spec {ctx : SSLContext} (hfresh : ctx.osslSsl = none)
    (h : Accounted heap (ctx.held + rest) lost) (a : SslConnectAnswers) :
    Accounted (sslConnect heap ctx a).2.2 ((sslConnect heap ctx a).2.1.held + rest) lost := by
  unfold sslConnect
  cases hbackend : ctx.backend with
  | secureTransport =>
      dsimp only
      split_ifs <;> exact h
  | openSSL =>
      rw [held_openSSL hbackend, hfresh] at h
      cases a.sslCreated with
      | false =>
          simp only [acquire_false]
          rw [held_openSSL rfl]
          exact h
      | true =>
          obtain ⟨b, heap', heq, hacquire⟩ := acquire_true heap .osslSsl
          simp only [heq]
          rw [held_openSSL rfl]
          exact (hacquire h).congr (by simp only [content_none, content_some]; abel)

/-! ## The connection -/

def IOContext.held (ctx : IOContext) : Multiset Block := {ctx.self} + content ctx.kq

def heldIo : Option IOContext → Multiset Block
  | none => 0
  | some ctx => ctx.held

@[simp] theorem heldIo_none : heldIo none = 0 := rfl

@[simp] theorem heldIo_some (ctx : IOContext) : heldIo (some ctx) = ctx.held := rfl

theorem heldIo_eq_zero {o : Option IOContext} : heldIo o = 0 ↔ o = none := by
  cases o with
  | none => simp
  | some ctx => simp [IOContext.held]

/-- What the connection has pointers to. -/
def WebSocket.held (ws : WebSocket) : Multiset Block :=
  {ws.self} + content ws.latencySamples + content ws.url + content ws.rxBuf + content ws.txBuf +
    heldIo ws.ioCtx + heldSsl ws.sslCtx

/-- Everything is held by the connection or lost. -/
def Sound (ws : WebSocket) (lost : Multiset Block) : Prop := Accounted ws.heap ws.held lost

variable {ws : WebSocket}

theorem sound_create (samplesAllocated : Bool) : Sound (websocketCreate samplesAllocated) 0 := by
  have hobject : Accounted (⟨1, [⟨.webSocket, 0⟩], []⟩ : Inventory Kind) {⟨.webSocket, 0⟩} 0 :=
    ⟨by simp, by simp, by simp, rfl⟩
  refine (hobject.acquire samplesAllocated .latencySamples).congr ?_
  simp only [WebSocket.held, websocketCreate, content_none, heldIo_none, heldSsl_none]
  abel

theorem Sound.copyUrl (h : Sound ws lost) (copied : Bool) :
    Sound (ws.copyUrl copied) (lost + content ws.url) := by
  refine (h.acquire copied .url).congr ?_
  simp only [WebSocket.held, WebSocket.copyUrl]
  abel

theorem Sound.initRx (h : Sound ws lost) :
    Sound (ws.initRx true) (lost + content ws.rxBuf) := by
  obtain ⟨b, heap', heq, hacquire⟩ := acquire_true ws.heap .ring
  unfold Sound WebSocket.initRx
  simp only [heq]
  refine (hacquire h).congr ?_
  simp only [WebSocket.held, content_some]
  abel

theorem Sound.initTx (h : Sound ws lost) :
    Sound (ws.initTx true) (lost + content ws.txBuf) := by
  obtain ⟨b, heap', heq, hacquire⟩ := acquire_true ws.heap .ring
  unfold Sound WebSocket.initTx
  simp only [heq]
  refine (hacquire h).congr ?_
  simp only [WebSocket.held, content_some]
  abel

theorem initIo_useSsl (ws : WebSocket) (allocated created : Bool) :
    (ws.initIo allocated created).useSsl = ws.useSsl := by
  cases allocated <;> rfl

theorem initIo_sslCtx (ws : WebSocket) (allocated created : Bool) :
    (ws.initIo allocated created).sslCtx = ws.sslCtx := by
  cases allocated <;> rfl

theorem Sound.initIo (h : Sound ws lost) (allocated created : Bool) :
    Sound (ws.initIo allocated created) (lost + heldIo ws.ioCtx) := by
  unfold Sound WebSocket.initIo
  cases allocated with
  | false =>
      simp only [acquire_false]
      refine Accounted.congr h ?_
      simp only [WebSocket.held, heldIo_none]
      abel
  | true =>
      obtain ⟨b, heap', heq, hacquire⟩ := acquire_true ws.heap .ioContext
      simp only [heq]
      refine ((hacquire h).acquire created .kqueue).congr ?_
      simp only [WebSocket.held, heldIo_some, IOContext.held]
      abel

theorem ioCtx_dropIo (ws : WebSocket) : ws.dropIo.ioCtx = none := by
  unfold WebSocket.dropIo
  cases hio : ws.ioCtx with
  | none => exact hio
  | some ctx => rfl

theorem sslCtx_dropIo (ws : WebSocket) : ws.dropIo.sslCtx = ws.sslCtx := by
  unfold WebSocket.dropIo
  cases ws.ioCtx <;> rfl

theorem sslCtx_dropSsl (ws : WebSocket) : ws.dropSsl.sslCtx = none := by
  unfold WebSocket.dropSsl
  cases hssl : ws.sslCtx with
  | none => exact hssl
  | some ctx => rfl

theorem Sound.dropIo (h : Sound ws lost) : Sound ws.dropIo lost := by
  unfold WebSocket.dropIo
  cases hio : ws.ioCtx with
  | none => exact h
  | some ctx =>
      apply Accounted.release
      apply Accounted.releaseIfAny
      refine Accounted.congr h ?_
      simp only [WebSocket.held, hio, heldIo_some, heldIo_none, IOContext.held]
      abel

theorem Sound.dropSsl (h : Sound ws lost) : Sound ws.dropSsl lost := by
  unfold WebSocket.dropSsl
  cases hssl : ws.sslCtx with
  | none => exact h
  | some ctx =>
      apply sslCleanup_spec
      refine Accounted.congr h ?_
      simp only [WebSocket.held, hssl, heldSsl_some, heldSsl_none]
      abel

theorem Sound.dropUrl (h : Sound ws lost) : Sound ws.dropUrl lost := by
  apply Accounted.releaseIfAny
  refine Accounted.congr h ?_
  simp only [WebSocket.held, WebSocket.dropUrl, content_none]
  abel

theorem Sound.dropRings (h : Sound ws lost) : Sound ws.dropRings lost := by
  apply Accounted.releaseIfAny
  apply Accounted.releaseIfAny
  refine Accounted.congr h ?_
  simp only [WebSocket.held, WebSocket.dropRings, content_none]
  abel

theorem Sound.connectCleanup (h : Sound ws lost) : Sound (connectCleanup ws) lost :=
  h.dropIo.dropUrl.dropRings

/-! ## Connecting -/

/-- A stage ends with everything held or lost, and loses nothing more exactly if `P` holds. -/
def Loses (ws : WebSocket) (lost : Multiset Block) (P : Prop) : Prop :=
  ∃ more, Sound ws (lost + more) ∧ (more = 0 ↔ P)

theorem Sound.loses {P : Prop} (h : Sound ws lost) (hP : P) : Loses ws lost P :=
  ⟨0, h.congr (by abel), iff_of_true rfl hP⟩

/-- What a stage loses adds to what the stages before it have lost. -/
theorem Loses.after {more : Multiset Block} {P Q : Prop} (h : Loses ws (lost + more) Q)
    (hmore : more = 0 ↔ P) : Loses ws lost (P ∧ Q) := by
  obtain ⟨rest, hsound, hrest⟩ := h
  refine ⟨more + rest, hsound.congr (by abel), ?_⟩
  rw [add_eq_zero_iff_of_nonneg (Multiset.zero_le _) (Multiset.zero_le _), hmore, hrest]

theorem Loses.iff {P Q : Prop} (h : Loses ws lost P) (hPQ : P ↔ Q) : Loses ws lost Q := by
  obtain ⟨more, hsound, hmore⟩ := h
  exact ⟨more, hsound, hmore.trans hPQ⟩

/-- What keeps everything held or lost as it is may follow a stage. -/
theorem Loses.imp {ws' : WebSocket} {P : Prop} (h : Loses ws lost P)
    (himp : ∀ {lost}, Sound ws lost → Sound ws' lost) : Loses ws' lost P := by
  obtain ⟨more, hsound, hmore⟩ := h
  exact ⟨more, himp hsound, hmore⟩

/-- The TLS part loses the context that was there before, and one of SecureTransport that
cannot be used. -/
def SslLosesNothing (ws : WebSocket) (a : SslInitAnswers) : Prop :=
  ¬a.Strands ∧ (a.backend.isSome → ws.sslCtx = none)

theorem loses_connectSsl (h : Sound ws lost) (a : ConnectAnswers) :
    Loses (connectSsl ws a).2 lost (ws.useSsl = true → SslLosesNothing ws a.ssl) := by
  unfold connectSsl
  by_cases hssl : ws.useSsl = true
  · rw [if_pos hssl]
    refine Loses.iff ?_ (forall_prop_of_true hssl).symm
    have haccounted : Accounted ws.heap ws.held lost := h
    obtain ⟨stranded, hinit, hstranded⟩ := sslInit_spec haccounted a.ssl
    have hbackend := sslInit_backend ws.heap a.ssl
    have hfresh := @sslInit_osslSsl ws.heap a.ssl
    unfold SslLosesNothing
    rw [← hbackend, Option.isSome_map]
    generalize sslInit ws.heap a.ssl = r at hinit hfresh ⊢
    obtain ⟨o, heap'⟩ := r
    cases o with
    | none =>
        refine Loses.after (Sound.loses ?_ (by simp)) hstranded
        exact hinit.congr (by simp [WebSocket.held])
    | some ctx =>
        have hconnected := sslConnect_spec (hfresh rfl) hinit a.session
        dsimp only
        generalize sslConnect heap' ctx a.session = connected at hconnected ⊢
        have hsound : Loses { ws with sslCtx := some connected.2.1, heap := connected.2.2 } lost
            (¬a.ssl.Strands ∧ ws.sslCtx = none) := by
          refine Loses.after ⟨heldSsl ws.sslCtx, ?_, heldSsl_eq_zero⟩ hstranded
          refine hconnected.congr ?_
          simp only [WebSocket.held, heldSsl_some]
          abel
        have hiff : (¬a.ssl.Strands ∧ ws.sslCtx = none) ↔
            ¬a.ssl.Strands ∧ ((some ctx).isSome → ws.sslCtx = none) := by simp
        split_ifs
        · exact (hsound.imp Sound.dropSsl).iff hiff
        · exact hsound.iff hiff
  · rw [if_neg hssl]
    exact h.loses fun hused => absurd hused hssl

theorem Sound.connectSocket (h : Sound ws lost) (a : ConnectAnswers) (handshake : Bool) :
    Sound (connectSocket ws a handshake).2 lost := by
  unfold Heap.connectSocket
  split_ifs
  · exact h.dropSsl.connectCleanup
  · exact h.connectCleanup
  · exact h.connectCleanup
  · exact h

/-- From the I/O context on nothing is lost if its pointer is null, and in the TLS part. -/
def IoLosesNothing (ws : WebSocket) (a : ConnectAnswers) : Prop :=
  ws.ioCtx = none ∧ (a.ctxAllocated = true → a.kqueue = true →
    (tcpConnect .empty a.lookup).1 ≠ none → ws.useSsl = true → SslLosesNothing ws a.ssl)

theorem loses_connectIo (h : Sound ws lost) (a : ConnectAnswers) (handshake : Bool) :
    Loses (connectIo ws a handshake).2 lost (IoLosesNothing ws a) := by
  unfold connectIo
  have hio := h.initIo a.ctxAllocated a.kqueue
  refine Loses.after ?_ heldIo_eq_zero
  by_cases hfailed : a.ctxAllocated = false ∨ a.kqueue = false
  · simp only [if_pos hfailed]
    refine hio.connectCleanup.loses fun hctx hkqueue => ?_
    simp [hctx, hkqueue] at hfailed
  simp only [if_neg hfailed]
  obtain ⟨hctx, hkqueue⟩ : a.ctxAllocated = true ∧ a.kqueue = true := by simpa using hfailed
  by_cases htcp : (tcpConnect .empty a.lookup).1 = none
  · simp only [if_pos htcp]
    exact hio.connectCleanup.loses fun _ _ hsome => absurd htcp hsome
  simp only [if_neg htcp]
  have hssl := loses_connectSsl hio a
  generalize connectSsl (ws.initIo a.ctxAllocated a.kqueue) a = r at hssl ⊢
  rw [SslLosesNothing, initIo_useSsl, initIo_sslCtx] at hssl
  have hiff : (ws.useSsl = true → SslLosesNothing ws a.ssl) ↔
      (a.ctxAllocated = true → a.kqueue = true → (tcpConnect .empty a.lookup).1 ≠ none →
        ws.useSsl = true → SslLosesNothing ws a.ssl) := by
    simp [hctx, hkqueue, htcp]
  refine Loses.iff ?_ hiff
  split_ifs
  · exact hssl.imp Sound.connectCleanup
  · exact hssl.imp fun hsound => hsound.connectSocket a handshake

/-- The rings are lost if there were some. -/
def RingsLoseNothing (ws : WebSocket) (a : ConnectAnswers) : Prop :=
  a.rxInit = true → ws.rxBuf = none ∧ (a.txInit = true → ws.txBuf = none ∧ IoLosesNothing ws a)

theorem loses_connectRings (h : Sound ws lost) (a : ConnectAnswers) (handshake : Bool) :
    Loses (connectRings ws a handshake).2 lost (RingsLoseNothing ws a) := by
  unfold connectRings RingsLoseNothing
  cases a.rxInit with
  | false => exact h.connectCleanup.loses fun hfailed => absurd hfailed (by simp)
  | true =>
      refine Loses.iff ?_ (forall_prop_of_true rfl).symm
      refine Loses.after ?_ content_eq_zero
      cases a.txInit with
      | false => exact h.initRx.connectCleanup.loses fun hfailed => absurd hfailed (by simp)
      | true =>
          refine Loses.iff ?_ (forall_prop_of_true rfl).symm
          exact Loses.after (loses_connectIo h.initRx.initTx a handshake) content_eq_zero

/-- A call of `websocket_connect` loses nothing if each pointer it sets is null at that time,
and no SecureTransport context is handed to the other backend. -/
def LosesNothing (ws : WebSocket) (url : List UInt8) (a : ConnectAnswers) : Prop :=
  ws.url = none ∧
    ((parseUrl url 256 1024 ⟨[], [], 0, ws.useSsl⟩).1 = 0 →
      RingsLoseNothing
        { ws with useSsl := (parseUrl url 256 1024 ⟨[], [], 0, ws.useSsl⟩).2.useSsl } a)

theorem loses_websocketConnect (h : Sound ws lost) (url : List UInt8) (a : ConnectAnswers)
    (handshake : Bool) :
    Loses (websocketConnect ws url a handshake).2 lost (LosesNothing ws url a) := by
  unfold websocketConnect LosesNothing
  generalize parseUrl url 256 1024 ⟨[], [], 0, ws.useSsl⟩ = parsed
  have hcopied : Sound { ws.copyUrl a.urlCopied with useSsl := parsed.2.useSsl }
      (lost + content ws.url) := h.copyUrl a.urlCopied
  refine Loses.after ?_ content_eq_zero
  by_cases hparsed : parsed.1 ≠ 0
  · simp only [if_pos hparsed]
    exact hcopied.dropUrl.loses fun hzero => absurd hzero hparsed
  · simp only [if_neg hparsed]
    refine Loses.iff ?_ (forall_prop_of_true (not_not.mp hparsed)).symm
    exact loses_connectRings hcopied a handshake

/-! ## The end -/

/-- `websocket_destroy` releases what is held, each block once, and leaves what is lost. -/
theorem websocketDestroy_spec (h : Sound ws lost) : Accounted (websocketDestroy ws) 0 lost := by
  unfold websocketDestroy
  have hdropped := h.dropSsl.dropIo.dropRings
  generalize hws : ws.dropSsl.dropIo.dropRings = left at hdropped ⊢
  have hheld : left.held = {left.self} + content left.latencySamples + content left.url := by
    rw [← hws]
    simp only [WebSocket.held, WebSocket.dropRings, ioCtx_dropIo, sslCtx_dropIo, sslCtx_dropSsl,
      content_none, heldIo_none, heldSsl_none, add_zero]
  apply Accounted.release
  apply Accounted.releaseIfAny
  apply Accounted.releaseIfAny
  exact Accounted.congr hdropped (by rw [hheld]; abel)

end WebSocketHft.Heap

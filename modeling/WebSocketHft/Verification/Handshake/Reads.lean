import WebSocketHft.Verification.Ringbuffer.ZeroCopy
import WebSocketHft.Verification.Runs.Connecting

/-! # Reading while the response is awaited

A fresh receive ring fills from its first cell on, since nothing is consumed
before the response has been accepted. The bytes read so far are all that an
event adds to. -/

namespace WebSocketHft

open WebSocketHft.Memory WebSocketHft.Circular

/-! ## The outcomes of `io_read` -/

/-- Bytes are committed, or the ring is left alone. -/
theorem ioRead_received_cases (ctx : Option IOContext) (socketIndex : ℤ) (rb : RingBuffer)
    (xs : List UInt8) (nic : Option UInt64) :
    ((ioRead ctx socketIndex rb (.received xs nic)).ret ≤ 0 ∧
        (ioRead ctx socketIndex rb (.received xs nic)).ring = rb) ∨
      ((ioRead ctx socketIndex rb (.received xs nic)).ret =
          (xs.take (ringbufferWriteInline rb).len).length ∧
        (ioRead ctx socketIndex rb (.received xs nic)).ring =
          commitReceived { rb with
            buf := store rb.buf (ringbufferWriteInline rb).data
              (xs.take (ringbufferWriteInline rb).len) }
            (xs.take (ringbufferWriteInline rb).len).length) := by
  have hfailed : (-1 : ℤ) ≤ 0 := by decide
  unfold ioRead
  cases ctx with
  | none => exact Or.inl ⟨hfailed, rfl⟩
  | some ctx =>
      dsimp only
      by_cases hindex : socketIndex < 0
      · rw [if_pos hindex]
        exact Or.inl ⟨hfailed, rfl⟩
      · rw [if_neg hindex]
        cases ctx.sockets[socketIndex.toNat]? with
        | none => exact Or.inl ⟨hfailed, rfl⟩
        | some sock =>
            dsimp only
            split_ifs
            · exact Or.inl ⟨hfailed, rfl⟩
            · exact Or.inl ⟨le_rfl, rfl⟩
            · exact Or.inl ⟨hfailed, rfl⟩
            · exact Or.inr ⟨rfl, rfl⟩

theorem ioRead_failed (ctx : Option IOContext) (socketIndex : ℤ) (rb : RingBuffer) :
    (ioRead ctx socketIndex rb .failed).ring = rb := by
  unfold ioRead
  cases ctx with
  | none => rfl
  | some ctx =>
      dsimp only
      by_cases hindex : socketIndex < 0
      · rw [if_pos hindex]
      · rw [if_neg hindex]
        cases ctx.sockets[socketIndex.toNat]? with
        | none => rfl
        | some sock =>
            dsimp only
            split_ifs <;> rfl

theorem ioRead_ctx_isSome {ctx : Option IOContext} (h : ctx.isSome) (socketIndex : ℤ)
    (rb : RingBuffer) (recv : RecvResult) : (ioRead ctx socketIndex rb recv).ctx.isSome := by
  unfold ioRead
  cases ctx with
  | none => exact h
  | some ctx =>
      dsimp only
      by_cases hindex : socketIndex < 0
      · rw [if_pos hindex]
        rfl
      · rw [if_neg hindex]
        cases ctx.sockets[socketIndex.toNat]? with
        | none => rfl
        | some sock =>
            cases recv with
            | failed =>
                dsimp only
                split_ifs <;> rfl
            | received xs nic =>
                dsimp only
                split_ifs <;> rfl

/-! ## The outcomes of `ssl_read` -/

/-- Bytes may be stored behind the write pointer; either no count is returned, or the bytes
are counted and the pointer moves behind them. -/
theorem sslRead_cases (ctx : Option SSLContext) (rb : RingBuffer) (answer : TlsAnswer) :
    ∃ n ≤ (ringbufferWriteInline rb).len,
      ((sslRead ctx rb answer).ret ≤ 0 ∧
          (sslRead ctx rb answer).ring =
            { rb with buf := store rb.buf rb.writePtr (answer.bytes.take n) }) ∨
        ((sslRead ctx rb answer).ret = (answer.bytes.take n).length ∧
          (sslRead ctx rb answer).ring =
            { rb with
              buf := store rb.buf rb.writePtr (answer.bytes.take n)
              writePtr := (rb.writePtr + (answer.bytes.take n).length) % rb.size }) := by
  have hfailed : (-1 : ℤ) ≤ 0 := by decide
  have hnone : rb = { rb with buf := store rb.buf rb.writePtr (answer.bytes.take 0) } := by
    rw [List.take_zero, store_nil]
  cases ctx with
  | none => exact ⟨0, Nat.zero_le _, Or.inl ⟨hfailed, hnone⟩⟩
  | some ctx =>
      unfold sslRead
      dsimp only
      cases ctx.backend with
      | secureTransport =>
          dsimp only [sslReadSecureTransport]
          rw [writeInline_data]
          by_cases hspace : (ringbufferWriteInline rb).len = 0
          · rw [if_pos hspace]
            exact ⟨0, Nat.zero_le _, Or.inl ⟨le_rfl, hnone⟩⟩
          · rw [if_neg hspace]
            refine ⟨if (ringbufferWriteInline rb).len < ctx.readBufSize then
              (ringbufferWriteInline rb).len else ctx.readBufSize, by split_ifs <;> omega, ?_⟩
            generalize (if (ringbufferWriteInline rb).len < ctx.readBufSize then
              (ringbufferWriteInline rb).len else ctx.readBufSize) = n
            split_ifs
            · exact Or.inr ⟨rfl, rfl⟩
            · exact Or.inl ⟨le_rfl, rfl⟩
            · exact Or.inl ⟨hfailed, rfl⟩
            · exact Or.inl ⟨hfailed, rfl⟩
            · exact Or.inl ⟨hfailed, rfl⟩
            · exact Or.inl ⟨le_rfl, rfl⟩
      | openSSL =>
          dsimp only [sslReadOpenSSL]
          rw [writeInline_data]
          split_ifs
          · exact ⟨0, Nat.zero_le _, Or.inl ⟨le_rfl, hnone⟩⟩
          · exact ⟨_, le_rfl, Or.inr ⟨rfl, rfl⟩⟩
          · exact ⟨_, le_rfl, Or.inl ⟨le_rfl, rfl⟩⟩
          · exact ⟨_, le_rfl, Or.inl ⟨hfailed, rfl⟩⟩

/-! ## A ring that fills -/

/-- The ring after `bytes` have been read into it. With the last cell it starts over. -/
structure Filling (rb : RingBuffer) (bytes : List UInt8) : Prop where
  size_eq : rb.size = ringbufferSize
  readPtr_eq : rb.readPtr = 0
  writePtr_eq : rb.writePtr = bytes.length % ringbufferSize
  cells : bytes.length < ringbufferSize → load rb.buf 0 bytes.length = bytes

theorem ringbufferSize_pos : 0 < ringbufferSize := by decide

theorem filling_ringbufferInit : Filling ringbufferInit [] :=
  ⟨rfl, rfl, rfl, fun _ => rfl⟩

namespace Filling

variable {rb : RingBuffer} {bytes : List UInt8}

theorem valid (h : Filling rb bytes) : rb.Valid := by
  refine ⟨?_, ?_⟩
  · rw [h.readPtr_eq, h.size_eq]
    exact ringbufferSize_pos
  · rw [h.writePtr_eq, h.size_eq]
    exact Nat.mod_lt _ ringbufferSize_pos

theorem readable (h : Filling rb bytes) :
    ringbufferReadable rb = bytes.length % ringbufferSize := by
  simp [ringbufferReadable, dataAvailable, h.readPtr_eq, h.writePtr_eq]

theorem unwrapped (h : Filling rb bytes) : rb.Unwrapped := by
  have hlt := h.valid.readable_lt
  rw [RingBuffer.Unwrapped, h.readPtr_eq, Nat.zero_add]
  exact hlt.le

/-- As long as a cell is free, everything read lies in the ring. -/
theorem linear (h : Filling rb bytes) (hlt : bytes.length < ringbufferSize) :
    rb.linear = bytes := by
  rw [RingBuffer.linear, h.readable, h.readPtr_eq, Nat.mod_eq_of_lt hlt]
  exact h.cells hlt

/-- Bytes stored behind the write pointer do not count yet. -/
theorem store (h : Filling rb bytes) (xs : List UInt8) :
    Filling { rb with buf := Memory.store rb.buf rb.writePtr xs } bytes := by
  refine ⟨h.size_eq, h.readPtr_eq, h.writePtr_eq, ?_⟩
  intro hlt
  have hend : 0 + bytes.length ≤ rb.writePtr := by
    rw [h.writePtr_eq, Nat.mod_eq_of_lt hlt, Nat.zero_add]
  exact (load_store_of_disjoint rb.buf xs (Or.inl hend)).trans (h.cells hlt)

theorem produce (h : Filling rb bytes) {xs : List UInt8}
    (hle : xs.length ≤ (ringbufferWriteInline rb).len) : Filling (rb.produce xs) (bytes ++ xs) := by
  rw [produce_eq_store (writePtr_add_le h.valid hle)]
  refine ⟨h.size_eq, h.readPtr_eq, ?_, ?_⟩
  · change (rb.writePtr + xs.length) % rb.size = _
    rw [h.size_eq, h.writePtr_eq, Nat.mod_add_mod, List.length_append]
  · intro hlt
    rw [List.length_append] at hlt ⊢
    have hbefore : bytes.length < ringbufferSize := by omega
    have hptr : rb.writePtr = 0 + bytes.length := by
      rw [h.writePtr_eq, Nat.mod_eq_of_lt hbefore, Nat.zero_add]
    rw [load_add, (h.store xs).cells hbefore, ← hptr]
    exact congrArg (bytes ++ ·) (load_store_self rb.buf rb.writePtr xs)

/-- A read that returns no count adds nothing. -/
theorem nothing (h : Filling rb bytes) {ret : ℤ} (hret : ret ≤ 0) (xs : List UInt8) :
    Filling rb (bytes ++ xs.take ret.toNat) := by
  rwa [Int.toNat_of_nonpos hret, List.take_zero, List.append_nil]

theorem take_length_take (n : ℕ) (xs : List UInt8) :
    xs.take ((xs.take n).length : ℤ).toNat = xs.take n := by
  rw [Int.toNat_natCast, List.length_take, ← List.take_eq_take_min]

/-- Both readers commit what they have stored by moving the write pointer. -/
theorem commit (h : Filling rb bytes) (xs : List UInt8) {n : ℕ}
    (hn : n ≤ (ringbufferWriteInline rb).len) :
    Filling { rb with
      buf := Memory.store rb.buf rb.writePtr (xs.take n)
      writePtr := (rb.writePtr + (xs.take n).length) % rb.size }
      (bytes ++ xs.take ((xs.take n).length : ℤ).toNat) := by
  have hle : (xs.take n).length ≤ (ringbufferWriteInline rb).len :=
    (List.length_take_le n xs).trans hn
  rw [take_length_take, ← produce_eq_store (writePtr_add_le h.valid hle)]
  exact h.produce hle

/-- `io_read` adds what it returns the count of. -/
theorem ioRead (h : Filling rb bytes) (ctx : Option IOContext) (socketIndex : ℤ)
    (xs : List UInt8) (nic : Option UInt64) :
    Filling (WebSocketHft.ioRead ctx socketIndex rb (.received xs nic)).ring
      (bytes ++ xs.take (WebSocketHft.ioRead ctx socketIndex rb (.received xs nic)).ret.toNat) := by
  rcases ioRead_received_cases ctx socketIndex rb xs nic with ⟨hret, hring⟩ | ⟨hret, hring⟩
  · rw [hring]
    exact h.nothing hret xs
  · have hvalid : RingBuffer.Valid { rb with
        buf := Memory.store rb.buf rb.writePtr (xs.take (ringbufferWriteInline rb).len) } :=
      ⟨h.valid.readPtr_lt, h.valid.writePtr_lt⟩
    rw [hret, hring, writeInline_data, commitReceived_eq hvalid]
    exact h.commit xs le_rfl

/-- `ssl_read` adds what it returns the count of; other bytes may lie behind the write
pointer. -/
theorem sslRead (h : Filling rb bytes) (ctx : Option SSLContext) (answer : TlsAnswer) :
    Filling (WebSocketHft.sslRead ctx rb answer).ring
      (bytes ++ answer.bytes.take (WebSocketHft.sslRead ctx rb answer).ret.toNat) := by
  obtain ⟨n, hn, ⟨hret, hring⟩ | ⟨hret, hring⟩⟩ := sslRead_cases ctx rb answer
  · rw [hring]
    exact (h.store _).nothing hret _
  · rw [hret, hring]
    exact h.commit answer.bytes hn

end Filling

/-! ## A connection that awaits the response -/

/-- Bytes that come in or go out. -/
def Event.isTransfer : Event → Bool
  | .received _ => true
  | .sent _ => true
  | _ => false

/-- What has been read between two states of a connection. -/
def readSince (ws₀ ws : WebSocket) : List UInt8 := receivedOf (ws.trace.drop ws₀.trace.length)

theorem receivedOf_append (es es' : List Event) :
    receivedOf (es ++ es') = receivedOf es ++ receivedOf es' := List.flatMap_append

theorem receivedOf_received (bytes : List UInt8) : receivedOf [.received bytes] = bytes :=
  List.append_nil bytes

theorem readSince_eq {ws₀ ws : WebSocket} {es : List Event} (h : ws.trace = ws₀.trace ++ es) :
    readSince ws₀ ws = receivedOf es := by
  rw [readSince, h, List.drop_left]

/-- What was read before is part of what is read later. -/
theorem readSince_mono {ws₀ ws ws' : WebSocket} (h : ws₀.trace <+: ws.trace)
    (h' : ws.trace <+: ws'.trace) : readSince ws₀ ws <+: readSince ws₀ ws' := by
  obtain ⟨es, hes⟩ := h
  obtain ⟨es', hes'⟩ := h'
  have hboth : ws'.trace = ws₀.trace ++ (es ++ es') := by
    rw [← hes', ← hes, List.append_assoc]
  rw [readSince_eq hes.symm, readSince_eq hboth, receivedOf_append]
  exact List.prefix_append _ _

/-- The connection is CONNECTING and has done nothing since `ws₀` but transfer bytes: all that
was read lies in the receive ring. -/
structure Awaits (ws₀ ws : WebSocket) : Prop where
  state : ws.state = .connecting
  ioCtx : ws.ioCtx.isSome
  ring : Filling ws.rxRing (readSince ws₀ ws)
  events : ∃ es, ws.trace = ws₀.trace ++ es ∧ ∀ e ∈ es, e.isTransfer

/-- The state in which `websocket_connect` leaves a connection. -/
structure AwaitsResponse (ws : WebSocket) : Prop where
  state : ws.state = .connecting
  ioCtx : ws.ioCtx.isSome
  rxRing : ws.rxRing = ringbufferInit

theorem AwaitsResponse.awaits {ws : WebSocket} (h : AwaitsResponse ws) : Awaits ws ws where
  state := h.state
  ioCtx := h.ioCtx
  ring := by
    have hnil : readSince ws ws = [] := readSince_eq (List.append_nil _).symm
    rw [h.rxRing, hnil]
    exact filling_ringbufferInit
  events := ⟨[], (List.append_nil _).symm, by simp⟩

theorem awaitsResponse_connectSocket {env : Env} {ws : WebSocket} {ctx : IOContext}
    {a : ConnectAnswers} (hring : ws.rxRing = ringbufferInit)
    (hok : (connectSocket env ws ctx a).1 = 0) :
    AwaitsResponse (connectSocket env ws ctx a).2 := by
  have hcases := connectSocket_cases (P := fun r ws' => r = 0 → AwaitsResponse ws') env ws ctx a
    (fun _ _ hzero => absurd hzero (by decide)) ?_
  · exact hcases hok
  · intro sent _ hcore _
    refine ⟨rfl, ?_, (congrArg Core.rxRing hcore).trans hring⟩
    exact congrArg Option.isSome (congrArg Core.ioCtx hcore)

/-- A successful `websocket_connect` leads there. -/
theorem awaitsResponse_websocketConnect {env : Env} {ws : WebSocket} {url : List UInt8}
    {a : ConnectAnswers} (h : (websocketConnect env ws url a).1 = 0) :
    AwaitsResponse (websocketConnect env ws url a).2 := by
  have hfailed : ¬(-1 : ℤ) = 0 := by decide
  have hcases := websocketConnect_cases (P := fun r ws' => r = 0 → AwaitsResponse ws') env ws url a
    rfl (fun _ hzero => absurd hzero hfailed) (fun _ _ _ hzero => absurd hzero hfailed)
    (fun _ _ _ hzero => absurd hzero hfailed) (fun _ _ _ _ hzero => absurd hzero hfailed)
    (fun ctx _ _ _ _ => by
      obtain ⟨_, hcore, -⟩ := core_connectSsl (ws.prepared _ ctx).openSocket a
      exact awaitsResponse_connectSocket (congrArg Core.rxRing hcore))
  exact hcases h

namespace Awaits

variable {env : Env} {ws₀ ws ws' : WebSocket}

theorem trace_extends (h : Awaits ws₀ ws) : ws₀.trace <+: ws.trace := by
  obtain ⟨es, htrace, -⟩ := h.events
  exact ⟨es, htrace.symm⟩

theorem step (h : Awaits ws₀ ws) (hstate : ws'.state = ws.state) (hctx : ws'.ioCtx.isSome)
    {es : List Event} (htrace : ws'.trace = ws.trace ++ es) (hes : ∀ e ∈ es, e.isTransfer)
    (hring : Filling ws'.rxRing (readSince ws₀ ws ++ receivedOf es)) : Awaits ws₀ ws' := by
  obtain ⟨es₀, htrace₀, hes₀⟩ := h.events
  have hboth : ws'.trace = ws₀.trace ++ (es₀ ++ es) := by
    rw [htrace, htrace₀, List.append_assoc]
  refine ⟨hstate.trans h.state, hctx, ?_, es₀ ++ es, hboth, ?_⟩
  · rwa [readSince_eq hboth, receivedOf_append, ← readSince_eq htrace₀]
  · intro e he
    rcases List.mem_append.mp he with he | he
    · exact hes₀ e he
    · exact hes e he

/-- A step that reads nothing and is not observed. -/
theorem keep (h : Awaits ws₀ ws) (hstate : ws'.state = ws.state) (hctx : ws'.ioCtx.isSome)
    (hring : ws'.rxRing = ws.rxRing) (htrace : ws'.trace = ws.trace) : Awaits ws₀ ws' := by
  refine h.step hstate hctx (List.append_nil ws.trace ▸ htrace) (by simp) ?_
  rw [hring]
  exact (List.append_nil (readSince ws₀ ws)).symm ▸ h.ring

theorem pass (h : Awaits ws₀ ws) : Awaits ws₀ ws.pass := h.keep rfl h.ioCtx rfl rfl

theorem readIo (h : Awaits ws₀ ws) (socketIndex : ℤ) (recv : RecvResult) :
    Awaits ws₀ (ws.readIo socketIndex recv).2 := by
  refine h.step rfl (ioRead_ctx_isSome h.ioCtx socketIndex ws.rxRing recv) rfl
    (by simp [Event.isTransfer]) ?_
  rw [receivedOf_received]
  cases recv with
  | failed =>
      have hring : (ws.readIo socketIndex .failed).2.rxRing = ws.rxRing :=
        ioRead_failed ws.ioCtx socketIndex ws.rxRing
      rw [hring, List.append_nil]
      exact h.ring
  | received xs nic => exact h.ring.ioRead ws.ioCtx socketIndex xs nic

theorem readSsl (h : Awaits ws₀ ws) : Awaits ws₀ (ws.readSsl env).2 := by
  refine h.step rfl h.ioCtx rfl (by simp [Event.isTransfer]) ?_
  rw [receivedOf_received]
  exact h.ring.sslRead ws.sslCtx (env ws.tick).tls

theorem writeSsl (h : Awaits ws₀ ws) : Awaits ws₀ (ws.writeSsl env).2 := by
  refine h.step rfl h.ioCtx rfl (by simp [Event.isTransfer]) ?_
  exact (List.append_nil (readSince ws₀ ws)).symm ▸ h.ring

theorem sslHandshakeLoop (h : Awaits ws₀ ws) (left iterations : ℕ) (madeProgress : Bool) :
    Awaits ws₀ (WebSocketHft.sslHandshakeLoop env left iterations madeProgress ws) := by
  induction left generalizing iterations madeProgress ws with
  | zero => exact h
  | succ left ih =>
      have hround : Awaits ws₀ ((ws.writeSsl env).2.readSsl env).2.pass := h.writeSsl.readSsl.pass
      unfold WebSocketHft.sslHandshakeLoop
      dsimp only
      split_ifs
      · exact hround
      · exact ih hround _ _
      · exact hround
      · exact hround
      · exact ih hround _ _

theorem sslReadLoop (h : Awaits ws₀ ws) (left : ℕ) :
    Awaits ws₀ (WebSocketHft.sslReadLoop env left ws) := by
  induction left generalizing ws with
  | zero => exact h
  | succ left ih =>
      unfold WebSocketHft.sslReadLoop
      dsimp only
      split_ifs
      · exact h.readSsl
      · exact ih h.readSsl

theorem connectingSsl (h : Awaits ws₀ ws) : Awaits ws₀ (WebSocketHft.connectingSsl env ws) := by
  unfold WebSocketHft.connectingSsl
  dsimp only
  split_ifs
  · exact (h.sslHandshakeLoop 20 0 false).writeSsl.sslReadLoop 20
  · exact h

end Awaits

/-! ## The reads of one event -/

/-- The state after everything that an event of a CONNECTING connection reads. -/
def eventReads (env : Env) (ws : WebSocket) (ev : KEvent) : WebSocket :=
  connectingSsl env (if ws.useSsl then (ws.readSsl env).2 else (ws.readIo ev.udata ev.recv).2)

theorem Awaits.eventReads {env : Env} {ws₀ ws : WebSocket} (h : Awaits ws₀ ws) (ev : KEvent) :
    Awaits ws₀ (WebSocketHft.eventReads env ws ev) := by
  unfold WebSocketHft.eventReads
  split_ifs
  · exact h.readSsl.connectingSsl
  · exact (h.readIo _ _).connectingSsl

/-- Then the response is looked at. -/
theorem handleEvent_connecting {env : Env} {ws : WebSocket} {ev : KEvent}
    (hstate : ws.state = .connecting) (hgone : ¬(ev.eof ∨ ev.error)) (hfilter : ev.filter = .read) :
    handleEvent env ws ev = handshakeStep env (eventReads env ws ev) := by
  have hread : (if ws.useSsl then (ws.readSsl env).2
      else (ws.readIo ev.udata ev.recv).2).state = .connecting := by
    split_ifs
    · exact hstate
    · exact hstate
  unfold handleEvent eventReads
  rw [if_neg hgone, if_pos hfilter]
  exact if_pos hread

end WebSocketHft

import WebSocketHft.Shared.Runs
import WebSocketHft.Verification.Frames.Taking
import WebSocketHft.Verification.Handshake.Reads

/-! # Reads and passes of a run

What a CONNECTED connection does with its receive ring: it reads, it makes passes
over what it has read, and it does other things beside. The reads of a run are
listed, so that conditions can be put on them; an invariant of reads, passes and
the rest is an invariant of events and calls. -/

namespace WebSocketHft

open WebSocketHft.Memory WebSocketHft.Runs

/-! ## One read -/

/-- `ssl_read` or `io_read` on the receive ring. -/
def IsRead (env : Env) (ws ws' : WebSocket) : Prop :=
  ws' = (ws.readSsl env).2 ∨ ∃ socketIndex recv, ws' = (ws.readIo socketIndex recv).2

/-- What is stored behind the write pointer is not in the queue. -/
theorem queue_store_writePtr {rb : RingBuffer} (hvalid : rb.Valid) (hun : rb.Unwrapped)
    {xs : List UInt8} (hle : xs.length ≤ (ringbufferWriteInline rb).len) :
    RingBuffer.queue { rb with buf := store rb.buf rb.writePtr xs } = rb.queue := by
  have hun' : RingBuffer.Unwrapped { rb with buf := store rb.buf rb.writePtr xs } := hun
  have hr := hvalid.readPtr_lt
  have hw := hvalid.writePtr_lt
  rw [queue_eq_linear hun, queue_eq_linear hun']
  apply load_store_of_disjoint
  rw [writeInline_len hvalid] at hle
  have hreadable : rb.readPtr + ringbufferReadable rb ≤ rb.size := hun
  rw [ringbufferReadable, dataAvailable] at hreadable ⊢
  dsimp only
  split_ifs at hle hreadable ⊢ <;> omega

/-- The bytes that were counted are behind the queue, if there was room for them. -/
structure Arrives (rb rb' : RingBuffer) (bytes : List UInt8) : Prop where
  valid : rb'.Valid
  queue_eq : bytes.length ≤ ringbufferWriteable rb → rb'.queue = rb.queue ++ bytes

namespace Arrives

variable {rb : RingBuffer}

theorem nothing (hvalid : rb.Valid) (hun : rb.Unwrapped) (xs : List UInt8) {n : ℕ}
    (hn : n ≤ (ringbufferWriteInline rb).len) {ret : ℤ} (hret : ret ≤ 0) (ys : List UInt8) :
    Arrives rb { rb with buf := store rb.buf rb.writePtr (xs.take n) } (ys.take ret.toNat) := by
  refine ⟨⟨hvalid.readPtr_lt, hvalid.writePtr_lt⟩, fun _ => ?_⟩
  rw [queue_store_writePtr hvalid hun ((List.length_take_le n xs).trans hn),
    Int.toNat_of_nonpos hret, List.take_zero, List.append_nil]

theorem commit (hvalid : rb.Valid) (xs : List UInt8) {n : ℕ}
    (hn : n ≤ (ringbufferWriteInline rb).len) :
    Arrives rb { rb with
      buf := store rb.buf rb.writePtr (xs.take n)
      writePtr := (rb.writePtr + (xs.take n).length) % rb.size }
      (xs.take ((xs.take n).length : ℤ).toNat) := by
  have hle := (List.length_take_le n xs).trans hn
  rw [Filling.take_length_take, ← produce_eq_store (writePtr_add_le hvalid hle)]
  exact ⟨hvalid.produce _, fun hroom => queue_produce hvalid _ hroom⟩

theorem sslRead (hvalid : rb.Valid) (hun : rb.Unwrapped) (ctx : Option SSLContext)
    (answer : TlsAnswer) :
    Arrives rb (WebSocketHft.sslRead ctx rb answer).ring
      (answer.bytes.take (WebSocketHft.sslRead ctx rb answer).ret.toNat) := by
  obtain ⟨n, hn, ⟨hret, hring⟩ | ⟨hret, hring⟩⟩ := sslRead_cases ctx rb answer
  · rw [hring]
    exact nothing hvalid hun answer.bytes hn hret answer.bytes
  · rw [hret, hring]
    exact commit hvalid answer.bytes hn

theorem ioRead (hvalid : rb.Valid) (hun : rb.Unwrapped) (ctx : Option IOContext)
    (socketIndex : ℤ) (xs : List UInt8) (nic : Option UInt64) :
    Arrives rb (WebSocketHft.ioRead ctx socketIndex rb (.received xs nic)).ring
      (xs.take (WebSocketHft.ioRead ctx socketIndex rb (.received xs nic)).ret.toNat) := by
  rcases ioRead_received_cases ctx socketIndex rb xs nic with ⟨hret, hring⟩ | ⟨hret, hring⟩
  · have hnone := nothing hvalid hun [] (Nat.zero_le _) hret xs
    rw [List.take_zero, store_nil] at hnone
    rwa [hring]
  · have hstored : RingBuffer.Valid { rb with
        buf := store rb.buf rb.writePtr (xs.take (ringbufferWriteInline rb).len) } :=
      ⟨hvalid.readPtr_lt, hvalid.writePtr_lt⟩
    rw [hret, hring, writeInline_data, commitReceived_eq hstored]
    exact commit hvalid xs le_rfl

end Arrives

/-- What a read changes. -/
structure ReadSpec (ws ws' : WebSocket) (bytes : List UInt8) : Prop where
  trace_eq : ws'.trace = ws.trace ++ [.received bytes]
  state : ws'.state = ws.state
  onMessage : ws'.onMessage = ws.onMessage
  useSsl : ws'.useSsl = ws.useSsl
  ring : ws.rxRing.Valid → ws.rxRing.Unwrapped → Arrives ws.rxRing ws'.rxRing bytes

theorem readSpec_readSsl (env : Env) (ws : WebSocket) : ∃ bytes, ReadSpec ws (ws.readSsl env).2 bytes :=
  ⟨_, rfl, rfl, rfl, rfl, fun hvalid hun => Arrives.sslRead hvalid hun _ _⟩

theorem readSpec_readIo (ws : WebSocket) (socketIndex : ℤ) (recv : RecvResult) :
    ∃ bytes, ReadSpec ws (ws.readIo socketIndex recv).2 bytes := by
  refine ⟨_, rfl, rfl, rfl, rfl, fun hvalid hun => ?_⟩
  cases recv with
  | failed =>
      have hring : (ws.readIo socketIndex .failed).2.rxRing = ws.rxRing := ioRead_failed _ _ _
      rw [hring]
      exact ⟨hvalid, fun _ => (List.append_nil _).symm⟩
  | received xs nic => exact Arrives.ioRead hvalid hun _ _ _ _

theorem IsRead.spec {env : Env} {ws ws' : WebSocket} (h : IsRead env ws ws') :
    ∃ bytes, ReadSpec ws ws' bytes := by
  rcases h with rfl | ⟨socketIndex, recv, rfl⟩
  · exact readSpec_readSsl env ws
  · exact readSpec_readIo ws socketIndex recv

/-! ## The reads of a run -/

/-- The read that an event leads to. -/
def eventRead (env : Env) (ws : WebSocket) (ev : KEvent) : WebSocket :=
  if ws.useSsl then (ws.readSsl env).2 else (ws.readIo ev.udata ev.recv).2

theorem isRead_eventRead (env : Env) (ws : WebSocket) (ev : KEvent) :
    IsRead env ws (eventRead env ws ev) := by
  unfold eventRead
  split_ifs
  · exact Or.inl rfl
  · exact Or.inr ⟨ev.udata, ev.recv, rfl⟩

/-- The states before and after the read of an event that finds the connection CONNECTED. -/
def readsOfEvent (env : Env) (ws : WebSocket) (ev : KEvent) : List (WebSocket × WebSocket) :=
  if ws.state = .connected ∧ ¬(ev.eof ∨ ev.error) ∧ ev.filter = .read then
    [(ws, eventRead env ws ev)]
  else []

/-- An event with one of the flags closes the connection and reads nothing. -/
theorem aside_handleEvent {env : Env} {ws : WebSocket} {ev : KEvent}
    (hgone : ev.eof = true ∨ ev.error = true) : Aside ws (handleEvent env ws ev) := by
  unfold handleEvent
  rw [if_pos hgone]
  dsimp only
  split_ifs
  · exact (Aside.setState ws .closed).trans (Aside.callback _ rfl)
  · exact Aside.setState ws .closed
  · exact Aside.refl ws

/-- What an event does to a connection that is not waiting for the response: it is read for, and
the frames are looked at only if the connection is CONNECTED. -/
theorem handleEvent_cases (env : Env) {ws : WebSocket} (ev : KEvent)
    (hsettled : ws.state ≠ .connecting) :
    Aside ws (handleEvent env ws ev) ∨
      ws.state = .connected ∧ (ws, eventRead env ws ev) ∈ readsOfEvent env ws ev ∧
        handleEvent env ws ev = connectedStep env (eventRead env ws ev) ∨
      ws.state ≠ .connected ∧ handleEvent env ws ev = eventRead env ws ev := by
  by_cases hgone : ev.eof = true ∨ ev.error = true
  · exact Or.inl (aside_handleEvent hgone)
  · by_cases hfilter : ev.filter = .read
    · obtain ⟨_, hspec⟩ := (isRead_eventRead env ws ev).spec
      have heq : handleEvent env ws ev = if (eventRead env ws ev).state = .connecting then
          handshakeStep env (connectingSsl env (eventRead env ws ev))
          else if (eventRead env ws ev).state = .connected then
            connectedStep env (eventRead env ws ev)
          else eventRead env ws ev := by
        unfold handleEvent
        rw [if_neg hgone, if_pos hfilter]
        rfl
      rw [hspec.state, if_neg hsettled] at heq
      by_cases hstate : ws.state = .connected
      · rw [if_pos hstate] at heq
        exact Or.inr (Or.inl ⟨hstate, by simp [readsOfEvent, hstate, hgone, hfilter], heq⟩)
      · rw [if_neg hstate] at heq
        exact Or.inr (Or.inr ⟨hstate, heq⟩)
    · left
      unfold handleEvent
      rw [if_neg hgone, if_neg hfilter]
      exact Aside.refl ws

/-- The reads of the loop over `ssl_read`. -/
def readsOfDrain (env : Env) : ℕ → ℕ → Bool → WebSocket → List (WebSocket × WebSocket)
  | 0, _, _, _ => []
  | left + 1, attempts, madeProgress, ws =>
    if ws.state = .connected then
      let r := ws.readSsl env
      (ws, r.2) ::
        if 0 < r.1 then
          readsOfDrain env left (attempts + 1) true
            (sslDrainFrames env 50 (processFrames env r.2))
        else if r.1 = 0 ∧ madeProgress ∧ attempts + 1 < 5 then
          readsOfDrain env left (attempts + 1) madeProgress (processFrames env r.2)
        else []
    else []

/-- The reads of a call of `websocket_process`, once `io_poll` has returned. -/
def readsOfProcess (env : Env) (ws : WebSocket) (events : List KEvent) :
    List (WebSocket × WebSocket) :=
  let ws' := events.foldl (handleEvent env) ws
  collect (handleEvent env) (readsOfEvent env) ws events ++
    if ws'.state = .connected ∧ ws'.useSsl then readsOfDrain env 200 0 false ws' else []

def readsOfCall (env : Env) (ws : WebSocket) : PublicCall → List (WebSocket × WebSocket)
  | .process (some events) =>
    if ws.ioCtx.isSome then readsOfProcess env (ws.poll events) events else []
  | _ => []

/-- All reads that a run makes in the state CONNECTED. -/
def readsOfRun (env : Env) : WebSocket → List PublicCall → List (WebSocket × WebSocket) :=
  collect (PublicCall.run env) (readsOfCall env)

/-! ## Invariants of reads and passes -/

/-- While the connection is CONNECTED `A` holds, and `D` whenever no event is being handled; `B`
holds throughout. `P` is the condition on the reads. -/
structure ReceiveInvariant (env : Env) (P : WebSocket → WebSocket → Prop)
    (A D B : WebSocket → Prop) : Prop where
  aside : ∀ {ws ws'}, Aside ws ws' → A ws → A ws'
  read : ∀ {ws ws'}, IsRead env ws ws' → P ws ws' → A ws → A ws'
  pass : ∀ {ws}, A ws → A (processFrames env ws)
  rest_aside : ∀ {ws ws'}, Aside ws ws' → A ws → D ws → D ws'
  rest_pass : ∀ {ws}, A ws → D ws → D (processFrames env ws)
  rest_step : ∀ {ws}, A ws → D (connectedStep env ws)
  rest_ssl : ∀ {ws}, A ws → ws.useSsl = true → D ws
  idle : ∀ {ws}, A ws → B ws
  idle_aside : ∀ {ws ws'}, Aside ws ws' → B ws → B ws'
  idle_read : ∀ {ws ws'}, IsRead env ws ws' → B ws → B ws'

/-- The invariant between two events. -/
structure AtRest (A D B : WebSocket → Prop) (ws : WebSocket) : Prop where
  settled : ws.state ≠ .connecting
  connected : ws.state = .connected → A ws ∧ D ws
  idle : B ws

namespace ReceiveInvariant

variable {env : Env} {P : WebSocket → WebSocket → Prop} {A D B : WebSocket → Prop}
  {ws ws' : WebSocket} (h : ReceiveInvariant env P A D B)

include h

theorem drainFrames (fuel : ℕ) (hA : A ws) : A (WebSocketHft.drainFrames env fuel ws) := by
  induction fuel generalizing ws with
  | zero => exact hA
  | succ fuel ih =>
      unfold WebSocketHft.drainFrames
      dsimp only
      split_ifs
      · exact h.pass hA
      · exact ih (h.pass hA)

theorem connectedStep (hA : A ws) : A (WebSocketHft.connectedStep env ws) :=
  h.drainFrames _ (h.pass hA)

theorem sslDrainFrames (left : ℕ) (hA : A ws) : A (WebSocketHft.sslDrainFrames env left ws) := by
  induction left generalizing ws with
  | zero => exact hA
  | succ left ih =>
      unfold WebSocketHft.sslDrainFrames
      dsimp only
      split_ifs
      · exact h.pass hA
      · exact h.pass hA
      · exact ih (h.pass hA)
      · exact hA

theorem sslDrain (left attempts : ℕ) (madeProgress : Bool) (hA : A ws)
    (hreads : ∀ r ∈ readsOfDrain env left attempts madeProgress ws, P r.1 r.2) :
    A (WebSocketHft.sslDrain env left attempts madeProgress ws) := by
  induction left generalizing attempts madeProgress ws with
  | zero => exact hA
  | succ left ih =>
      unfold WebSocketHft.sslDrain
      unfold readsOfDrain at hreads
      by_cases hstate : ws.state = .connected
      · have hkept : ¬(ws.readSsl env).2.state ≠ .connected := not_not.mpr hstate
        rw [if_pos hstate] at hreads ⊢
        dsimp only at hreads ⊢
        rw [if_neg hkept]
        obtain ⟨hfirst, hrest⟩ := List.forall_mem_cons.mp hreads
        have hread : A (ws.readSsl env).2 := h.read (Or.inl rfl) hfirst hA
        by_cases hpos : 0 < (ws.readSsl env).1
        · rw [if_pos hpos] at hrest ⊢
          exact ih _ _ (h.sslDrainFrames 50 (h.pass hread)) hrest
        · rw [if_neg hpos] at hrest ⊢
          by_cases hzero : (ws.readSsl env).1 = 0
          · rw [if_pos hzero]
            by_cases hagain : madeProgress = true ∧ attempts + 1 < 5
            · rw [if_pos ⟨hzero, hagain⟩] at hrest
              rw [if_pos hagain]
              exact ih _ _ (h.pass hread) hrest
            · rw [if_neg hagain]
              exact h.pass hread
          · rw [if_neg hzero]
            have hclosed := h.aside (Aside.setState _ .closed) hread
            split_ifs
            · exact h.pass (h.aside (Aside.callback _ rfl) hclosed)
            · exact h.pass hclosed
      · rw [if_neg hstate]
        exact hA

/-- The periodic checks at the end of a call. -/
theorem checks (hA : A ws) (hD : D ws) :
    A (checkHeartbeat env (reportMetricsIfNeeded env (checkHealth env ws))) ∧
      D (checkHeartbeat env (reportMetricsIfNeeded env (checkHealth env ws))) := by
  have haside : Aside ws (checkHeartbeat env (reportMetricsIfNeeded env (checkHealth env ws))) :=
    ((Aside.checkHealth ws).trans (Aside.reportMetricsIfNeeded _)).trans (Aside.checkHeartbeat _)
  exact ⟨h.aside haside hA, h.rest_aside haside hA hD⟩

theorem drainTail (hstate : ws.state = .connected) (hA : A ws) (hD : D ws)
    (hreads : ws.useSsl = true → ∀ r ∈ readsOfDrain env 200 0 false ws, P r.1 r.2) :
    A (WebSocketHft.drainTail env ws) ∧ D (WebSocketHft.drainTail env ws) := by
  unfold WebSocketHft.drainTail
  by_cases hssl : ws.useSsl = true
  · have hdrained := h.sslDrain 200 0 false hA (hreads hssl)
    have huse : (WebSocketHft.sslDrain env 200 0 false ws).useSsl = true :=
      (Moves.sslDrain 200 0 false ws).useSsl_eq.trans hssl
    rw [if_pos ⟨hstate, hssl⟩]
    dsimp only
    split_ifs
    · have hpass := h.pass hdrained
      exact ⟨hpass, h.rest_ssl hpass ((Moves.processFrames _).useSsl_eq.trans huse)⟩
    · exact ⟨hdrained, h.rest_ssl hdrained huse⟩
  · rw [if_neg fun hboth => hssl hboth.2, if_pos hstate]
    exact ⟨h.pass hA, h.rest_pass hA hD⟩

/-- What follows the events of a CONNECTED connection. -/
theorem processTail_connected (hstate : ws.state = .connected) (hA : A ws) (hD : D ws)
    (hreads : ws.useSsl = true → ∀ r ∈ readsOfDrain env 200 0 false ws, P r.1 r.2) :
    A (WebSocketHft.processTail env ws) ∧ D (WebSocketHft.processTail env ws) := by
  obtain ⟨hA', hD'⟩ := h.drainTail hstate hA hD hreads
  rw [processTail_eq]
  split_ifs
  · exact h.checks hA' hD'
  · exact ⟨hA', hD'⟩

theorem processTail (hrest : AtRest A D B ws)
    (hreads : ws.state = .connected ∧ ws.useSsl = true →
      ∀ r ∈ readsOfDrain env 200 0 false ws, P r.1 r.2) :
    AtRest A D B (WebSocketHft.processTail env ws) := by
  by_cases hstate : ws.state = .connected
  · obtain ⟨hA, hD⟩ := hrest.connected hstate
    have hend := h.processTail_connected hstate hA hD fun hssl => hreads ⟨hstate, hssl⟩
    exact ⟨(Moves.processTail ws).settled hrest.settled, fun _ => hend, h.idle hend.1⟩
  · rwa [processTail_of_ne_connected hstate]

/-! ## Events and calls -/

/-- What keeps to the side, and does not connect, leaves the connection at rest. -/
theorem aside_rest (haside : Aside ws ws') (hsettled : ws'.state ≠ .connecting)
    (hback : ws'.state = .connected → ws.state = .connected) (hrest : AtRest A D B ws) :
    AtRest A D B ws' := by
  refine ⟨hsettled, fun hconnected => ?_, h.idle_aside haside hrest.idle⟩
  obtain ⟨hA, hD⟩ := hrest.connected (hback hconnected)
  exact ⟨h.aside haside hA, h.rest_aside haside hA hD⟩

theorem handleEvent (ev : KEvent) (hrest : AtRest A D B ws)
    (hreads : ∀ r ∈ readsOfEvent env ws ev, P r.1 r.2) :
    AtRest A D B (WebSocketHft.handleEvent env ws ev) := by
  have hmoves : Moves env ws (WebSocketHft.handleEvent env ws ev) := Moves.handleEvent ws ev
  have hsettled := hmoves.settled hrest.settled
  have hback (hconnected : (WebSocketHft.handleEvent env ws ev).state = .connected) :
      ws.state = .connected := hmoves.connected_of_connected hconnected hrest.settled
  rcases handleEvent_cases env ev hrest.settled with haside | ⟨hstate, hmem, heq⟩ | ⟨hstate, heq⟩
  · exact h.aside_rest haside hsettled hback hrest
  · have hA := h.read (isRead_eventRead env ws ev) (hreads _ hmem) (hrest.connected hstate).1
    have hstep := h.connectedStep hA
    rw [heq] at hsettled ⊢
    exact ⟨hsettled, fun _ => ⟨hstep, h.rest_step hA⟩, h.idle hstep⟩
  · -- bytes may still be read, but nothing looks at them
    refine ⟨hsettled, fun hconnected => absurd (hback hconnected) hstate, ?_⟩
    rw [heq]
    exact h.idle_read (isRead_eventRead env ws ev) hrest.idle

theorem foldl_handleEvent (events : List KEvent) (hrest : AtRest A D B ws)
    (hreads : ∀ r ∈ collect (WebSocketHft.handleEvent env) (readsOfEvent env) ws events,
      P r.1 r.2) :
    AtRest A D B (events.foldl (WebSocketHft.handleEvent env) ws) :=
  collect_invariant (G := fun _ => True) (fun _ ev _ hrest hreads => h.handleEvent ev hrest hreads)
    (fun _ _ => trivial) hreads hrest

theorem process (events : Option (List KEvent)) (hrest : AtRest A D B ws)
    (hreads : ∀ r ∈ readsOfCall env ws (.process events), P r.1 r.2) :
    AtRest A D B (websocketProcess env ws events).2 := by
  have hioCtx {ioCtx : Option IOContext} : Aside ws { ws with ioCtx := ioCtx } :=
    ⟨rfl, rfl, rfl, rfl, [], (List.append_nil _).symm, by simp⟩
  cases hctx : ws.ioCtx with
  | none => rwa [websocketProcess, hctx]
  | some ctx =>
      cases events with
      | none =>
          rw [websocketProcess, hctx]
          exact h.aside_rest hioCtx hrest.settled id hrest
      | some events =>
          have hsome : ws.ioCtx.isSome = true := by rw [hctx]; rfl
          have hpolled : AtRest A D B (ws.poll events) := h.aside_rest hioCtx hrest.settled id hrest
          rw [readsOfCall, if_pos hsome, readsOfProcess] at hreads
          rw [show (websocketProcess env ws (some events)).2 = _ from processCall_eq hsome events]
          refine h.processTail (h.foldl_handleEvent events hpolled fun r hr =>
            hreads r (List.mem_append_left _ hr)) fun hboth r hr => ?_
          refine hreads r (List.mem_append_right _ ?_)
          rwa [if_pos hboth]

/-- A run keeps the invariant if the calls but `websocket_process` do. -/
theorem run {calls : List PublicCall} {G : PublicCall → Prop}
    (hother : ∀ ws call, G call → (∀ events, call ≠ .process events) → AtRest A D B ws →
      AtRest A D B (call.run env ws))
    (hcalls : ∀ call ∈ calls, G call) (hrest : AtRest A D B ws)
    (hreads : ∀ r ∈ readsOfRun env ws calls, P r.1 r.2) :
    AtRest A D B (calls.foldl (PublicCall.run env) ws) := by
  refine collect_invariant (G := G) ?_ hcalls hreads hrest
  intro ws call hG hrest hreads
  by_cases hprocess : ∃ events, call = .process events
  · obtain ⟨events, rfl⟩ := hprocess
    exact h.process events hrest hreads
  · exact hother ws call hG (fun events heq => hprocess ⟨events, heq⟩) hrest

end ReceiveInvariant

end WebSocketHft

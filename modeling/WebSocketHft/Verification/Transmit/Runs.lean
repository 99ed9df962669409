import Mathlib.Data.List.DropRight
import WebSocketHft.Shared.Runs
import WebSocketHft.Verification.Handshake.Request
import WebSocketHft.Verification.Runs.Ledger
import WebSocketHft.Verification.Runs.Resources
import WebSocketHft.Verification.Transmit.Encodings

/-! # The outgoing stream over a run

Along every run of the public interface: the bytes that left the transmit ring since the
upgrade request, followed by those that wait in it, are the request and what has been queued
since; and the latter are whole frames as long as no frame was begun without room for all of
it. -/

namespace WebSocketHft

variable {env : Env} {ws ws' ws'' : WebSocket}

/-! ## What has happened since the request -/

def Event.isRequest : Event → Bool
  | .request _ => true
  | _ => false

/-- The events after the last upgrade request. -/
def sinceRequest (trace : List Event) : List Event := trace.rtakeWhile fun e => !e.isRequest

theorem sinceRequest_append (trace : List Event) {es : List Event}
    (h : ∀ e ∈ es, e.isRequest = false) : sinceRequest (trace ++ es) = sinceRequest trace ++ es := by
  induction es using List.reverseRecOn with
  | nil => rw [List.append_nil, List.append_nil]
  | append_singleton es e ih =>
      have hlast : e.isRequest = false := h e (List.mem_append_right _ List.mem_cons_self)
      have hfront := ih fun e' he' => h e' (List.mem_append_left _ he')
      rw [sinceRequest, ← List.append_assoc, List.rtakeWhile_concat_pos _ _ _ (by simp [hlast])]
      exact (congrArg (· ++ [e]) hfront).trans (List.append_assoc _ _ _)

/-- The last upgrade request. -/
def lastRequest (trace : List Event) : List UInt8 :=
  (trace.filterMap Event.requestBytes?).getLast?.getD []

theorem lastRequest_append (trace : List Event) {es : List Event}
    (h : ∀ e ∈ es, e.isRequest = false) : lastRequest (trace ++ es) = lastRequest trace := by
  have hnone : es.filterMap Event.requestBytes? = [] := by
    rw [List.filterMap_eq_nil_iff]
    intro e he
    cases e with
    | request bytes => exact Bool.noConfusion (h _ he)
    | _ => rfl
  rw [lastRequest, List.filterMap_append, hnone, List.append_nil]
  rfl

/-- The bytes accepted from the transmit ring, in order. -/
def sentOf (es : List Event) : List UInt8 := es.flatMap Event.sentBytes

theorem queuedOf_append (es es' : List Event) : queuedOf (es ++ es') = queuedOf es ++ queuedOf es' :=
  List.filterMap_append

theorem sentOf_append (es es' : List Event) : sentOf (es ++ es') = sentOf es ++ sentOf es' :=
  List.flatMap_append

/-- The events of a frame on its way into the transmit ring. -/
def Event.isOutgoing : Event → Bool
  | .transmit _ _ _ _ _ => true
  | .queued _ => true
  | _ => false

theorem queuedOf_eq_nil {es : List Event} (h : ∀ e ∈ es, e.isOutgoing = false) :
    queuedOf es = [] := by
  rw [queuedOf, List.filterMap_eq_nil_iff]
  intro e he
  cases e with
  | queued bytes => exact Bool.noConfusion (h _ he)
  | _ => rfl

theorem queuedOf_map_queued (parts : List (List UInt8)) :
    queuedOf (parts.map .queued) = parts := by
  rw [queuedOf, List.filterMap_map]
  exact List.filterMap_some

/-! ## Whole frames -/

/-- A frame was begun only if there was no room for any of it, or for all of it. -/
def Event.Harmless : Event → Prop
  | .transmit header payload _ space allocated => HarmlessTransmit header payload space allocated
  | _ => True

/-- Of a frame that was begun with room left: is it a pong, and what is its payload in clear? -/
def Event.begun? : Event → Option (Bool × List UInt8)
  | .transmit header _ clear space _ =>
    if space = 0 then none else some (header.head? = some pongByte0, clear)
  | _ => none

/-- The payload of a data frame that was begun with room for all of it. -/
def Event.acceptedData? : Event → Option (List UInt8)
  | .transmit header payload _ space _ =>
    if DataHeader header ∧ header.length + payload.length ≤ space then some payload else none
  | _ => none

/-- The payloads that `websocket_send` has accepted, in order. -/
def acceptedOf (es : List Event) : List (List UInt8) := es.filterMap Event.acceptedData?

/-- What has been queued are these whole frames of a client: they carry the clear payloads of
the frames that were begun, masked if they are pongs, and those that are messages are the
accepted ones. -/
structure EmittedAs (es : List Event) (frames : List WireFrame) : Prop where
  queued : (queuedOf es).flatten = encodeAll frames
  begun : frames.map (fun f => (f.maskingKey.isSome, f.payload)) = es.filterMap Event.begun?
  kinds : ∀ f ∈ frames, f.FromClient
  sizes : SizesFit frames
  messages : payloadsOf frames = acceptedOf es

theorem EmittedAs.append {es es' : List Event} {frames frames' : List WireFrame}
    (h : EmittedAs es frames) (h' : EmittedAs es' frames') :
    EmittedAs (es ++ es') (frames ++ frames') where
  queued := by rw [queuedOf_append, List.flatten_append, encodeAll_append, h.queued, h'.queued]
  begun := by rw [List.map_append, List.filterMap_append, h.begun, h'.begun]
  kinds f hf := (List.mem_append.mp hf).elim (h.kinds f) (h'.kinds f)
  sizes f hf := (List.mem_append.mp hf).elim (h.sizes f) (h'.sizes f)
  messages := by
    rw [payloadsOf_append, h.messages, h'.messages]
    exact List.filterMap_append.symm

/-- Every frame is built as the three functions build theirs. If every one was begun without
harm, whole frames have been queued. -/
structure Framed (es : List Event) : Prop where
  built : ∀ header payload clear space allocated,
    Event.transmit header payload clear space allocated ∈ es → Built header payload clear
  whole : (∀ e ∈ es, e.Harmless) → ∃ frames, EmittedAs es frames

theorem Framed.append {es es' : List Event} (h : Framed es) (h' : Framed es') :
    Framed (es ++ es') := by
  refine ⟨?_, ?_⟩
  · intro header payload clear space allocated hmem
    rcases List.mem_append.mp hmem with hmem | hmem
    · exact h.built _ _ _ _ _ hmem
    · exact h'.built _ _ _ _ _ hmem
  · intro hall
    obtain ⟨frames, hframes⟩ := h.whole fun e he => hall e (List.mem_append_left _ he)
    obtain ⟨frames', hframes'⟩ := h'.whole fun e he => hall e (List.mem_append_right _ he)
    exact ⟨frames ++ frames', hframes.append hframes'⟩

theorem framed_of_nothing_queued {es : List Event} (h : ∀ e ∈ es, e.isOutgoing = false) :
    Framed es := by
  have hnone {α : Type} {f : Event → Option α} (hf : ∀ e : Event, e.isOutgoing = false → f e = none) :
      es.filterMap f = [] := List.filterMap_eq_nil_iff.mpr fun e he => hf e (h e he)
  have hbegun : es.filterMap Event.begun? = [] := hnone fun e he => by
    cases e with
    | transmit header payload clear space allocated => cases he
    | _ => rfl
  have haccepted : acceptedOf es = [] := hnone fun e he => by
    cases e with
    | transmit header payload clear space allocated => cases he
    | _ => rfl
  exact ⟨fun _ _ _ _ _ hmem => Bool.noConfusion (h _ hmem), fun _ => ⟨[],
    by rw [queuedOf_eq_nil h]; rfl, hbegun.symm, by simp, fun _ hf => absurd hf (by simp),
    haccepted.symm⟩⟩

/-- The events of one frame: what it found, and the parts that were queued. -/
theorem framed_frame {header payload clear : List UInt8} {space : ℕ} {allocated : Bool}
    {parts : List (List UInt8)} (hbuilt : Built header payload clear) (hspace : space < 2 ^ 64)
    (hempty : space = 0 → parts.flatten = [])
    (hwhole : header.length + payload.length ≤ space → (payload = [] ∨ allocated = true) →
      parts.flatten = header ++ payload) :
    Framed (.transmit header payload clear space allocated :: parts.map .queued) := by
  refine ⟨?_, ?_⟩
  · intro header' payload' clear' space' allocated' hmem
    rcases List.mem_cons.mp hmem with heq | hmem
    · cases heq
      exact hbuilt
    · obtain ⟨_, -, heq⟩ := List.mem_map.mp hmem
      cases heq
  · intro hall
    have hqueued : queuedOf (.transmit header payload clear space allocated ::
        parts.map .queued) = parts := queuedOf_map_queued parts
    have hparts {α : Type} {f : Event → Option α} (hf : ∀ bytes, f (.queued bytes) = none) :
        (parts.map Event.queued).filterMap f = [] := by
      rw [List.filterMap_map]
      exact List.filterMap_eq_nil_iff.mpr fun bytes _ => hf bytes
    have haccepted : acceptedOf (.transmit header payload clear space allocated ::
        parts.map .queued) = if DataHeader header ∧ header.length + payload.length ≤ space then
          [payload] else [] := by
      rw [acceptedOf, List.filterMap_cons, hparts fun _ => rfl, Event.acceptedData?]
      split_ifs <;> rfl
    rcases hall _ List.mem_cons_self with hzero | ⟨hfit, hallocated⟩
    · refine ⟨[], ?_, ?_, by simp, fun _ hf => absurd hf (by simp), ?_⟩
      · rw [hqueued, hempty hzero]
        rfl
      · rw [List.filterMap_cons, hparts fun _ => rfl]
        simp [Event.begun?, hzero]
      · rw [haccepted, if_neg]
        · rfl
        · rintro ⟨hdata, hfit⟩
          have hnil : header = [] := List.length_eq_zero_iff.mp (by omega)
          rw [hnil] at hdata
          exact absurd hdata (by decide)
    · obtain ⟨f, hf⟩ := hbuilt.frame (by omega)
      have hsize : f.size = header.length + payload.length := by
        rw [← f.encode_length, ← hf.encode_eq, List.length_append]
      have hroom : space ≠ 0 := by
        have := f.two_le_size
        omega
      refine ⟨[f], ?_, ?_, by simpa using hf.kind, sizesFit_singleton (by omega), ?_⟩
      · rw [hqueued, hwhole hfit hallocated, hf.encode_eq, encodeAll_singleton]
      · rw [List.filterMap_cons, hparts fun _ => rfl]
        simp [Event.begun?, hroom, ← hf.mask_iff, hf.clear_eq]
      · rw [haccepted, hf.message]
        simp only [hfit, and_true]

/-! ## Between two moments -/

/-- From `ws` to `ws'` the events have happened. The transmit ring has kept the bytes that were
queued, but for a front part of no more bytes than have been sent; without TLS it is the bytes
that have been sent. -/
structure Carries (ws ws' : WebSocket) (es : List Event) : Prop where
  trace_eq : ws'.trace = ws.trace ++ es
  noRequest : ∀ e ∈ es, e.isRequest = false
  usable : ws'.txRing.Usable
  size_eq : ws'.txRing.size = ws.txRing.size
  sslCtx_iff : ws'.sslCtx = none ↔ ws.sslCtx = none
  taken : ∃ taken, taken ++ ws'.txRing.queue = ws.txRing.queue ++ (queuedOf es).flatten ∧
    taken.length ≤ (sentOf es).length ∧ (ws.sslCtx = none → taken = sentOf es)
  framed : Framed es

theorem Carries.trans {es es' : List Event} (h : Carries ws ws' es) (h' : Carries ws' ws'' es') :
    Carries ws ws'' (es ++ es') := by
  obtain ⟨taken, hbytes, hlen, hplain⟩ := h.taken
  obtain ⟨taken', hbytes', hlen', hplain'⟩ := h'.taken
  refine ⟨?_, List.forall_mem_append.mpr ⟨h.noRequest, h'.noRequest⟩, h'.usable,
    h'.size_eq.trans h.size_eq, h'.sslCtx_iff.trans h.sslCtx_iff, ⟨taken ++ taken', ?_, ?_, ?_⟩,
    h.framed.append h'.framed⟩
  · rw [h'.trace_eq, h.trace_eq, List.append_assoc]
  · calc taken ++ taken' ++ ws''.txRing.queue
        = taken ++ (taken' ++ ws''.txRing.queue) := List.append_assoc _ _ _
      _ = taken ++ ws'.txRing.queue ++ (queuedOf es').flatten := by
          rw [hbytes', List.append_assoc]
      _ = ws.txRing.queue ++ (queuedOf (es ++ es')).flatten := by
          rw [hbytes, queuedOf_append, List.flatten_append, List.append_assoc]
  · rw [sentOf_append, List.length_append, List.length_append]
    omega
  · intro hctx
    rw [sentOf_append, hplain hctx, hplain' (h.sslCtx_iff.mpr hctx)]

/-- Events that tell of no byte on its way out. -/
def Event.isAside : Event → Bool
  | .transmit _ _ _ _ _ => false
  | .queued _ => false
  | .sent _ => false
  | .request _ => false
  | _ => true

theorem carries_aside {es : List Event} (husable : ws.txRing.Usable)
    (htrace : ws'.trace = ws.trace ++ es) (htx : ws'.txRing = ws.txRing)
    (hctx : ws'.sslCtx = none ↔ ws.sslCtx = none) (h : ∀ e ∈ es, e.isAside) :
    Carries ws ws' es := by
  have hout : ∀ e ∈ es, e.isOutgoing = false := by
    intro e he
    have haside := h e he
    cases e with
    | transmit header payload clear space allocated => exact Bool.noConfusion haside
    | queued bytes => exact Bool.noConfusion haside
    | _ => rfl
  have hsent : sentOf es = [] := by
    rw [sentOf, List.flatMap_eq_nil_iff]
    intro e he
    have haside := h e he
    cases e with
    | sent bytes => exact Bool.noConfusion haside
    | _ => rfl
  refine ⟨htrace, ?_, htx ▸ husable, by rw [htx], hctx, ⟨[], ?_, Nat.zero_le _, fun _ => hsent.symm⟩,
    framed_of_nothing_queued hout⟩
  · intro e he
    have haside := h e he
    cases e with
    | request bytes => exact Bool.noConfusion haside
    | _ => rfl
  · rw [queuedOf_eq_nil hout, htx, List.flatten_nil, List.append_nil, List.nil_append]

theorem carries_refl (h : ws.txRing.Usable) : Carries ws ws [] :=
  carries_aside h (List.append_nil _).symm rfl Iff.rfl (by simp)

theorem carries_record (h : ws.txRing.Usable) {e : Event} (he : e.isAside) :
    Carries ws (ws.record e) [e] :=
  carries_aside h rfl rfl Iff.rfl (by simpa using he)

theorem carries_setState (h : ws.txRing.Usable) (state : WSState) :
    Carries ws (ws.setState state) [.state ws.state state] :=
  carries_aside h rfl rfl Iff.rfl (by simp [Event.isAside])

theorem writeable_lt (h : ws.txRing.Usable) (hsize : ws.txRing.size < 2 ^ 64) :
    ringbufferWriteable ws.txRing < 2 ^ 64 := by
  rcases h with hvalid | hempty
  · have hsum := hvalid.writeable_add_readable
    omega
  · rw [writeable_of_empty hempty]
    decide

/-- A frame that has been begun. -/
theorem Begins.carries (h : ws.txRing.Usable) (hsize : ws.txRing.size < 2 ^ 64)
    {header payload clear : List UInt8} {allocated : Bool} (hbuilt : Built header payload clear)
    (hbegins : Begins ws header payload clear allocated ws') : ∃ es, Carries ws ws' es := by
  have hquiet : Quiet ws ws' := (Quiet.keptBySending fun _ => {}).begins hbegins
  obtain ⟨bytes, hbegun⟩ := hbegins.begun h
  obtain ⟨parts, htrace, rfl⟩ := hbegun.queues.trace_eq
  have hqueued : queuedOf (.transmit header payload clear (ringbufferWriteable ws.txRing)
      allocated :: parts.map .queued) = parts := queuedOf_map_queued parts
  have hsent : sentOf (.transmit header payload clear (ringbufferWriteable ws.txRing) allocated ::
      parts.map .queued) = [] := by
    simp [sentOf, Event.sentBytes, List.flatMap_map]
  have hctx : ws'.sslCtx = ws.sslCtx := congrArg Core.sslCtx hquiet.core
  refine ⟨.transmit header payload clear (ringbufferWriteable ws.txRing) allocated ::
    parts.map .queued, ?_, ?_, hbegun.queues.usable, hbegun.queues.size_eq, by rw [hctx],
    ⟨[], ?_, Nat.zero_le _, fun _ => hsent.symm⟩,
    framed_frame hbuilt (writeable_lt h hsize) hbegun.nothing hbegun.whole⟩
  · rw [htrace, WebSocket.record, List.append_assoc]
    rfl
  · intro e he
    rcases List.mem_cons.mp he with rfl | he
    · rfl
    · obtain ⟨bytes, -, rfl⟩ := List.mem_map.mp he
      rfl
  · rw [hqueued, List.nil_append]
    exact hbegun.queues.queue_eq

/-! ## Transfers -/

theorem RingBuffer.Usable.consume_readable {rb rb' : RingBuffer} (h : rb.Usable)
    (heq : rb' = rb ∨ ringbufferReadable rb ≠ 0 ∧ ∃ n, rb' = rb.consume n) :
    rb'.Usable ∧ rb'.size = rb.size := by
  rcases heq with rfl | ⟨hreadable, n, rfl⟩
  · exact ⟨h, rfl⟩
  · rcases h with hvalid | ⟨hsize, hread, hwrite⟩
    · exact ⟨Or.inl (hvalid.consume n), rfl⟩
    · rw [ringbufferReadable, hsize, hread, hwrite] at hreadable
      exact absurd rfl hreadable

theorem RingBuffer.Usable.valid {rb : RingBuffer} (h : rb.Usable) (hreadable : ringbufferReadable rb ≠ 0) :
    rb.Valid := by
  rcases h with hvalid | ⟨hsize, hread, hwrite⟩
  · exact hvalid
  · rw [ringbufferReadable, hsize, hread, hwrite] at hreadable
    exact absurd rfl hreadable

/-- A transfer takes a front part of the queue. -/
theorem carries_transfer {rb : RingBuffer} {sent taken : List UInt8} (h : ws.txRing.Usable)
    (hring : rb = ws.txRing ∨ ringbufferReadable ws.txRing ≠ 0 ∧ ∃ n, rb = ws.txRing.consume n)
    (hbytes : taken ++ rb.queue = ws.txRing.queue) (hlen : taken.length ≤ sent.length)
    (hplain : ws.sslCtx = none → taken = sent) :
    Carries ws ({ ws with txRing := rb }.record (.sent sent)).pass [.sent sent] := by
  obtain ⟨husable, hsize⟩ := h.consume_readable hring
  have hsent : sentOf [.sent sent] = sent := List.append_nil _
  refine ⟨rfl, by simp [Event.isRequest], husable, hsize, Iff.rfl, ⟨taken, ?_, ?_, ?_⟩,
    framed_of_nothing_queued (by simp [Event.isOutgoing])⟩
  · exact hbytes.trans (List.append_nil _).symm
  · rwa [hsent]
  · rwa [hsent]

theorem carries_writeIo (h : ws.txRing.Usable) :
    Carries ws (ws.writeIo env).2
      [.sent (ioWrite ws.ioCtx ws.socketIndex ws.txRing (env ws.tick).writev).sent] := by
  refine carries_transfer h (ioWrite_ring _ _ _ _) ?_ le_rfl fun _ => rfl
  rcases ioWrite_cases ws.ioCtx ws.socketIndex ws.txRing (env ws.tick).writev with
    ⟨hsent, hring⟩ | ⟨hreadable, -⟩
  · rw [hsent, hring, List.nil_append]
  · exact (ioWrite_handsOver (h.valid hreadable) _ _ _).queue_eq (h.valid hreadable)

/-- Over TLS the bytes sent need not be those of the queue, and those of a blocked call stay
in it. -/
theorem sslWrite_takes {rb : RingBuffer} (h : rb.Usable) (ctx : Option SSLContext)
    (answer : TlsAnswer) :
    ∃ taken, taken ++ (sslWrite ctx rb answer).ring.queue = rb.queue ∧
      taken.length ≤ (sslWrite ctx rb answer).sent.length ∧
      (ctx = none → taken = (sslWrite ctx rb answer).sent) := by
  cases ctx with
  | none => exact ⟨[], List.nil_append _, Nat.zero_le _, fun _ => rfl⟩
  | some ctx =>
      have hsome {taken : List UInt8} (hnone : some ctx = none) :
          taken = (sslWrite (some ctx) rb answer).sent := absurd hnone (Option.some_ne_none ctx)
      rcases sslWrite_cases ctx rb answer with ⟨-, hkept, -⟩ | ⟨hreadable, hsent, hconsumed⟩
      · exact ⟨[], by rw [hkept, List.nil_append], Nat.zero_le _, hsome⟩
      · by_cases hblocks : answer.blocks ctx
        · rw [if_pos hblocks] at hconsumed
          exact ⟨[], by rw [hconsumed, List.nil_append], Nat.zero_le _, hsome⟩
        · rw [if_neg hblocks] at hconsumed
          refine ⟨rb.queue.take (min answer.count (ringbufferReadable rb)), ?_, ?_, hsome⟩
          · rw [hconsumed, queue_consume (h.valid hreadable) (min_le_right _ _),
              List.take_append_drop]
          · rw [hsent, List.length_take, List.length_take, length_queue, sslOffered_eq_linear,
              RingBuffer.linear, Memory.load_length]

theorem carries_writeSsl (h : ws.txRing.Usable) :
    Carries ws (ws.writeSsl env).2
      [.sent (sslWrite ws.sslCtx ws.txRing (env ws.tick).tls).sent] := by
  obtain ⟨taken, hbytes, hlen, hplain⟩ := sslWrite_takes h ws.sslCtx (env ws.tick).tls
  exact carries_transfer h (sslWrite_ring _ _ _) hbytes hlen hplain

theorem carries_flush (env : Env) (h : ws.txRing.Usable) : ∃ es, Carries ws (ws.flush env) es := by
  unfold WebSocket.flush
  split_ifs
  · exact ⟨_, carries_writeSsl h⟩
  · exact ⟨_, carries_writeIo h⟩

/-! ## Moves -/

theorem carries_send (env : Env) (h : ws.txRing.Usable) (hsize : ws.txRing.size < 2 ^ 64)
    (data : Option (List UInt8)) (isText : Bool) :
    ∃ es, Carries ws (websocketSend env ws data isText).2 es := by
  rcases websocketSend_cases env ws data isText with
    heq | ⟨payload, begun, whole, -, -, -, hbegins, -, heq⟩
  · rw [heq]
    exact ⟨[], carries_refl h⟩
  · obtain ⟨es, hes⟩ := hbegins.carries h hsize (built_sendHeader isText payload)
    have hcount : Carries begun (begun.countSent payload.length) [] :=
      carries_aside hes.usable (List.append_nil _).symm rfl Iff.rfl (by simp)
    obtain ⟨es', hes'⟩ := carries_flush env hcount.usable
    rw [heq]
    split_ifs
    · exact ⟨_, (hes.trans hcount).trans hes'⟩
    · exact ⟨es, hes⟩

theorem carries_pong (env : Env) (h : ws.txRing.Usable) (hsize : ws.txRing.size < 2 ^ 64)
    (payload : List UInt8) : ∃ es, Carries ws (websocketSendPong env ws payload).2 es := by
  rcases websocketSendPong_cases env ws payload with heq | ⟨begun, -, hbegins, heq⟩
  · rw [heq]
    exact ⟨[], carries_refl h⟩
  · have hpass : Carries ws ws.pass [] :=
      carries_aside h (List.append_nil _).symm rfl Iff.rfl (by simp)
    obtain ⟨es, hes⟩ := hbegins.carries hpass.usable hsize (built_pongHeader _ payload)
    obtain ⟨es', hes'⟩ := carries_flush env hes.usable
    rcases heq with heq | heq
    · rw [heq]
      exact ⟨_, hpass.trans hes⟩
    · rw [heq]
      exact ⟨_, (hpass.trans hes).trans hes'⟩

theorem carries_close (h : ws.txRing.Usable) : ∃ es, Carries ws (websocketClose ws) es := by
  unfold websocketClose
  split_ifs
  · exact ⟨[], carries_refl h⟩
  · have hsocket : Carries ws ws.closeSocket [.closing ws.fd ws.sslFd, .closed ws.fd] :=
      carries_aside h (trace_closeSocket ws) rfl Iff.rfl (by simp [Event.isAside])
    exact ⟨_, hsocket.trans (carries_setState hsocket.usable _)⟩
  · exact ⟨_, carries_setState h _⟩

theorem Event.isAside_of_isNeutral {e : Event} (h : e.isNeutral) : e.isAside := by
  cases e with
  | transmit header payload clear space allocated => exact h
  | queued bytes => exact h
  | sent bytes => exact h
  | request bytes => exact h
  | _ => rfl

theorem Move.carries (hmove : Move env ws ws') (h : ws.txRing.Usable)
    (hsize : ws.txRing.size < 2 ^ 64) : ∃ es, Carries ws ws' es := by
  cases hmove with
  | keep heq =>
      have htrace : ws'.trace = ws.trace ++ [] := by
        rw [List.append_nil]
        exact congrArg Outline.trace heq
      have hctx : ws'.sslCtx = ws.sslCtx := congrArg Outline.sslCtx heq
      exact ⟨[], carries_aside h htrace (congrArg Outline.txRing heq) (by rw [hctx]) (by simp)⟩
  | observe he => exact ⟨_, carries_record h (Event.isAside_of_isNeutral he)⟩
  | readSsl =>
      have hkeeps := (sslRead_keeps ws.sslCtx ws.rxRing (env ws.tick).tls).1
      have hctx : (sslRead ws.sslCtx ws.rxRing (env ws.tick).tls).ctx = none ↔ ws.sslCtx = none := by
        rw [← Option.isNone_iff_eq_none, ← Option.isNone_iff_eq_none, ← Option.not_isSome,
          ← Option.not_isSome, hkeeps]
      exact ⟨[.received _], carries_aside h rfl rfl hctx (by simp [Event.isAside])⟩
  | writeSsl => exact ⟨_, carries_writeSsl h⟩
  | writeIo => exact ⟨_, carries_writeIo h⟩
  | send data isText => exact carries_send env h hsize data isText
  | pong payload => exact carries_pong env h hsize payload
  | ping => exact Begins.carries h hsize built_pingFrame (.headerOnly (Or.inl rfl))
  | close => exact carries_close h
  | accept _ =>
      have hconnected : Carries ws (ws.record (.connected ws.rxRing.queue)) _ := carries_record h rfl
      exact ⟨_, hconnected.trans (carries_setState hconnected.usable _)⟩
  | receiveClose =>
      have hframe : Carries ws (ws.record (.closeFrame ws.state)) _ := carries_record h rfl
      exact ⟨_, hframe.trans (carries_setState hframe.usable _)⟩
  | gone _ => exact ⟨_, carries_setState h _⟩

/-! ## The stream since the request -/

/-- The bytes that left the transmit ring since the request, followed by those that wait in it,
are the request and what has been queued since. No more bytes have left than have been sent;
without TLS they are the bytes that have been sent. -/
def StreamKept (ws : WebSocket) : Prop :=
  ∃ taken, taken ++ ws.txRing.queue =
      lastRequest ws.trace ++ (queuedOf (sinceRequest ws.trace)).flatten ∧
    taken.length ≤ (sentOf (sinceRequest ws.trace)).length ∧
    (ws.sslCtx = none → taken = sentOf (sinceRequest ws.trace))

theorem StreamKept.carries (h : StreamKept ws) {es : List Event} (hes : Carries ws ws' es) :
    StreamKept ws' := by
  obtain ⟨taken, hbytes, hlen, hplain⟩ := h
  obtain ⟨taken', hbytes', hlen', hplain'⟩ := hes.taken
  unfold StreamKept
  rw [hes.trace_eq, sinceRequest_append _ hes.noRequest, lastRequest_append _ hes.noRequest,
    sentOf_append, queuedOf_append]
  refine ⟨taken ++ taken', ?_, ?_, ?_⟩
  · rw [List.append_assoc, hbytes', ← List.append_assoc, hbytes, List.flatten_append,
      List.append_assoc]
  · rw [List.length_append, List.length_append]
    omega
  · intro hctx
    have hctx' := hes.sslCtx_iff.mp hctx
    rw [hplain hctx', hplain' hctx']

/-- The transmit ring and its stream. Without buffers there is none. -/
structure TxKept (ws : WebSocket) : Prop where
  usable : ws.txRing.Usable
  size_lt : ws.txRing.size < 2 ^ 64
  stream : 0 < ws.txRing.size → StreamKept ws

theorem TxKept.carries (h : TxKept ws) {es : List Event} (hes : Carries ws ws' es) : TxKept ws' :=
  ⟨hes.usable, hes.size_eq ▸ h.size_lt, fun hsize => (h.stream (hes.size_eq ▸ hsize)).carries hes⟩

structure TxInv (ws : WebSocket) : Prop extends TxKept ws where
  framed : Framed (sinceRequest ws.trace)

theorem TxInv.move (hmove : Move env ws ws') (h : TxInv ws) : TxInv ws' := by
  obtain ⟨es, hes⟩ := hmove.carries h.usable h.size_lt
  refine ⟨h.toTxKept.carries hes, ?_⟩
  rw [hes.trace_eq, sinceRequest_append _ hes.noRequest]
  exact h.framed.append hes.framed

/-! ## Connecting -/

/-- Events that queue nothing; a request among them starts the stream anew. -/
theorem framed_sinceRequest_append {trace es : List Event} (h : Framed (sinceRequest trace))
    (hes : ∀ e ∈ es, e.isOutgoing = false) : Framed (sinceRequest (trace ++ es)) := by
  induction es using List.reverseRecOn with
  | nil => rwa [List.append_nil]
  | append_singleton es e ih =>
      have hfront := ih fun e' he' => hes e' (List.mem_append_left _ he')
      have hlast := hes e (List.mem_append_right _ List.mem_cons_self)
      rw [← List.append_assoc]
      by_cases hrequest : e.isRequest = true
      · have hnone : sinceRequest (trace ++ es ++ [e]) = [] :=
          List.rtakeWhile_concat_neg _ _ _ (by simp [hrequest])
        rw [hnone]
        exact framed_of_nothing_queued fun e he => absurd he List.not_mem_nil
      · rw [sinceRequest_append _ (by simpa using hrequest)]
        exact hfront.append (framed_of_nothing_queued (by simpa using hlast))

theorem txKept_connectCleanup (ws : WebSocket) : TxKept (connectCleanup ws) := by
  have htx : (connectCleanup ws).txRing = ringbufferCleanup := by
    unfold connectCleanup
    split_ifs <;> rfl
  refine ⟨Or.inr ?_, ?_, fun hsize => ?_⟩
  · rw [htx]
    exact ⟨rfl, rfl, rfl⟩
  · rw [htx, ringbufferCleanup]
    decide
  · rw [htx] at hsize
    exact absurd hsize (lt_irrefl 0)

/-- The request is the first thing in a fresh ring. -/
theorem txKept_sendHandshake (env : Env) (htx : ws.txRing = ringbufferInit)
    (encoded : Option (List UInt8)) : TxKept (sendHandshake env ws encoded).2 := by
  have hvalid : ringbufferInit.Valid := ⟨by decide, by decide⟩
  unfold sendHandshake
  dsimp only
  rw [htx]
  generalize (wsHttpUpgradeRequest ws.path ws.host
    (generateWebsocketKey ws.secWebsocketKey encoded)).take (wsHttpUpgradeHeaderSize - 1) = request
  generalize hwritten : ({ ws with
      secWebsocketKey := generateWebsocketKey ws.secWebsocketKey encoded
      txRing := (ringbufferWrite ringbufferInit (some request)).ring }.record
        (.request (request.take (ringbufferWrite ringbufferInit (some request)).ret))) = written
  have hring : written.txRing = (ringbufferWrite ringbufferInit (some request)).ring := by
    rw [← hwritten]
    rfl
  have hsince : sinceRequest written.trace = [] := by
    rw [← hwritten]
    exact List.rtakeWhile_concat_neg _ _ _ (by simp [Event.isRequest])
  have hlast : lastRequest written.trace =
      request.take (ringbufferWrite ringbufferInit (some request)).ret := by
    rw [← hwritten]
    simp [lastRequest, WebSocket.record, Event.requestBytes?]
  have hkept : TxKept written := by
    refine ⟨?_, ?_, fun _ => ⟨[], ?_, Nat.zero_le _, fun _ => by rw [hsince]; rfl⟩⟩
    · rw [hring]
      exact Or.inl (ringbufferWrite_valid hvalid request)
    · rw [hring, Quiet.size_ringbufferWrite]
      decide
    · rw [hsince, hlast, hring, ringbufferWrite_queue hvalid, queue_eq_nil_of_ptr_eq rfl,
        ringbufferWrite_ret, min_comm, ← List.take_take, List.take_length]
      exact (List.append_nil _).symm
  split_ifs
  · exact hkept
  · obtain ⟨es, hes⟩ := carries_flush env hkept.usable
    exact hkept.carries hes

theorem txKept_connectSocket (env : Env) (htx : ws.txRing = ringbufferInit) (ctx : IOContext)
    (a : ConnectAnswers) : TxKept (connectSocket env ws ctx a).2 := by
  have hadded : (ws.addSocket (ioAddSocket ctx ws.fd a.configured a.registered)).txRing =
      ringbufferInit := htx
  unfold connectSocket
  dsimp only
  generalize ws.addSocket (ioAddSocket ctx ws.fd a.configured a.registered) = added at hadded ⊢
  have hsent := txKept_sendHandshake env hadded a.encoded
  generalize sendHandshake env added a.encoded = sent at hsent ⊢
  split_ifs
  · exact txKept_connectCleanup _
  · exact txKept_connectCleanup _
  · exact txKept_connectCleanup _
  · exact hsent.carries (carries_setState hsent.usable _)

theorem TxInv.connect (h : TxInv ws) (url : List UInt8) (a : ConnectAnswers) :
    TxInv (websocketConnect env ws url a).2 := by
  have hkept : TxKept (websocketConnect env ws url a).2 := by
    refine websocketConnect_cases (P := fun _ ws' => TxKept ws') env ws url a rfl ?_ ?_ ?_ ?_ ?_
    · exact fun _ => ⟨h.usable, h.size_lt, h.stream⟩
    · exact fun rx tx _ => txKept_connectCleanup _
    · exact fun ctx _ _ => txKept_connectCleanup _
    · exact fun ctx _ _ _ => txKept_connectCleanup _
    · intro ctx _ _ _ _
      exact txKept_connectSocket env (connectSsl_keeps _ a).2 ctx a
  obtain ⟨es, htrace, hes⟩ := (@LedgerKept.websocketConnect env ws url a).events
  refine ⟨hkept, ?_⟩
  rw [htrace]
  refine framed_sinceRequest_append h.framed fun e he => ?_
  have hattempt := hes e he
  cases e with
  | transmit header payload clear space allocated => cases hattempt
  | queued bytes => cases hattempt
  | _ => rfl

/-! ## Runs -/

theorem TxInv.call (h : TxInv ws) (call : PublicCall) : TxInv (call.run env ws) := by
  by_cases hconnect : ∃ url answers, call = .connect url answers
  · obtain ⟨url, answers, rfl⟩ := hconnect
    exact h.connect url answers
  · have hmoves : Moves env ws (call.run env ws) :=
      call.moves env ws fun url answers heq => hconnect ⟨url, answers, heq⟩
    exact hmoves.invariant TxInv.move h

theorem txInv_runCalls (env : Env) (allocated : Bool) (calls : List PublicCall) :
    TxInv (runCalls env allocated calls) := by
  have hcreate : TxInv (websocketCreate allocated) :=
    ⟨⟨Or.inr ⟨rfl, rfl, rfl⟩, (show ringbufferCleanup.size < 2 ^ 64 by decide),
      fun hsize => absurd hsize (lt_irrefl 0)⟩,
      framed_of_nothing_queued fun e he => absurd he List.not_mem_nil⟩
  exact Runs.foldl_invariant (fun _ call h => h.call call) hcreate calls

/-- For each call that queues a frame: if it fails, the stream is intact, exactly when its
frame does no harm. Over every run from `websocket_create` on in which every frame since the
upgrade request was begun without harm, the bytes queued since then are whole frames: they are
what follows the request in the transmit ring, from which no more bytes are gone than have been
sent. -/
theorem failed_transmit_intact_iff (env : Env) (ws : WebSocket) (t : Transmission)
    (h : ws.txRing.Valid) (allocated : Bool) (calls : List PublicCall) :
    ((t.Fails env ws → TxIntact ws (t.run env ws)) ↔ t.Harmless env ws) ∧
      ((∀ header payload clear space alloc,
          Event.transmit header payload clear space alloc ∈
            sinceRequest (runCalls env allocated calls).trace →
          HarmlessTransmit header payload space alloc) →
        ∃ frames : List WireFrame,
          (queuedOf (sinceRequest (runCalls env allocated calls).trace)).flatten =
            frames.flatMap WireFrame.encode ∧
          (0 < (runCalls env allocated calls).txRing.size → ∃ taken,
            taken ++ (runCalls env allocated calls).txRing.queue =
              lastRequest (runCalls env allocated calls).trace ++
                frames.flatMap WireFrame.encode ∧
            taken.length ≤
              (sentOf (sinceRequest (runCalls env allocated calls).trace)).length)) := by
  refine ⟨transmission_atomic_iff env (Or.inl h) t, ?_⟩
  intro hharmless
  have hall : ∀ e ∈ sinceRequest (runCalls env allocated calls).trace, e.Harmless := by
    intro e he
    cases e with
    | transmit header payload clear space alloc =>
        exact hharmless header payload clear space alloc he
    | _ => trivial
  have hinv := txInv_runCalls env allocated calls
  obtain ⟨frames, hframes⟩ := hinv.framed.whole hall
  have hqueued : (queuedOf (sinceRequest (runCalls env allocated calls).trace)).flatten =
      frames.flatMap WireFrame.encode := hframes.queued
  refine ⟨frames, hqueued, fun hsize => ?_⟩
  obtain ⟨taken, hbytes, hlen, -⟩ := hinv.stream hsize
  exact ⟨taken, by rw [hbytes, hqueued], hlen⟩

/-- A CONNECTED connection whose transmit ring has so many bytes free. -/
def backpressure (free : ℕ) : WebSocket :=
  { websocketCreate true with
    state := .connected
    rxRing := ringbufferInit
    txRing := { ringbufferInit with writePtr := ringbufferSize - 1 - free } }

/-- A connection is opened, its upgrade accepted, and two bytes are sent. -/
def greeting : List PublicCall :=
  [.connect (ascii "ws://h/") {},
    .process (some [⟨0, 0, false, false, .read, .received (ascii ("HTTP/1.1 101 OK\r\n" ++
      "Upgrade: websocket\r\nConnection: Upgrade\r\n\r\n")) none⟩]),
    .send (some [0x48, 0x69]) true]

instance (header payload : List UInt8) (space : ℕ) (allocated : Bool) :
    Decidable (HarmlessTransmit header payload space allocated) :=
  inferInstanceAs (Decidable (_ ∨ _))

instance (e : Event) : Decidable e.Harmless :=
  match e with
  | .transmit header payload _ space allocated =>
    inferInstanceAs (Decidable (HarmlessTransmit header payload space allocated))
  | .message _ _ | .error _ _ _ | .metrics _ _ | .health _ _ _ | .log _ _ _
  | .heartbeatTimeout _ | .opened _ | .closing _ _ | .closed _ | .state _ _ | .connected _
  | .received _ | .sent _ | .request _ | .queued _ | .frames _ | .closeFrame _ => isTrue trivial

/-- A send into a full ring fails and leaves the stream intact; after the greeting the stream
is made of whole frames. -/
theorem failed_transmit_intact_greeting :
    (websocketSend (fun _ => {}) (backpressure 0) (some [0x48, 0x69]) true).1 = -1 ∧
      TxIntact (backpressure 0)
        (websocketSend (fun _ => {}) (backpressure 0) (some [0x48, 0x69]) true).2 ∧
      ∃ frames : List WireFrame,
        (queuedOf (sinceRequest (runCalls (fun _ => {}) true greeting).trace)).flatten =
          frames.flatMap WireFrame.encode ∧
        (runCalls (fun _ => {}) true greeting).txRing.queue =
          lastRequest (runCalls (fun _ => {}) true greeting).trace ++
            frames.flatMap WireFrame.encode := by
  have hfails : (websocketSend (fun _ => {}) (backpressure 0) (some [0x48, 0x69]) true).1 = -1 := by
    decide
  have hharmless : ∀ e ∈ sinceRequest (runCalls (fun _ => {}) true greeting).trace, e.Harmless := by
    decide +kernel
  obtain ⟨hcall, hrun⟩ := failed_transmit_intact_iff (fun _ => {}) (backpressure 0)
    (.send (some [0x48, 0x69]) true) ⟨by decide, by decide⟩ true greeting
  obtain ⟨frames, hframes, hring⟩ := hrun fun _ _ _ _ _ he => hharmless _ he
  obtain ⟨taken, hbytes, hlen⟩ := hring (by decide +kernel)
  -- the socket of this run has accepted nothing
  have hsent : (sentOf (sinceRequest (runCalls (fun _ => {}) true greeting).trace)).length = 0 := by
    decide +kernel
  rw [List.length_eq_zero_iff.mp (Nat.le_zero.mp (hlen.trans hsent.le)), List.nil_append] at hbytes
  exact ⟨hfails, hcall.mpr (fun _ _ => Or.inl (by decide)) hfails, frames, hframes, hbytes⟩

/-- With three bytes free, sending the three bytes `41 42 43` returns `-1` and leaves the
header and the first byte in the ring. -/
theorem send_leaves_part_of_frame :
    (websocketSend (fun _ => {}) (backpressure 3) (some [0x41, 0x42, 0x43]) true).1 = -1 ∧
      queuedOf (websocketSend (fun _ => {}) (backpressure 3) (some [0x41, 0x42, 0x43]) true).2.trace =
        [[0x81, 0x03], [0x41]] ∧
      ¬TxIntact (backpressure 3)
        (websocketSend (fun _ => {}) (backpressure 3) (some [0x41, 0x42, 0x43]) true).2 := by
  refine ⟨by decide, by decide, ?_⟩
  intro hintact
  have hlength := congrArg List.length hintact.queue_eq
  rw [length_queue, length_queue] at hlength
  exact absurd hlength (by decide)

end WebSocketHft

import WebSocketHft.Shared.Runs
import WebSocketHft.Verification.Handshake.Acceptance
import WebSocketHft.Verification.Handshake.Reads

/-! # Cutting the response

The response arrives in pieces, and each read event looks at what has arrived. A
look changes nothing as long as the bytes do not yet show both required headers;
the one that sees the whole header block must take exactly that out of the ring. -/

namespace WebSocketHft

open WebSocketHft.Substring WebSocketHft.Runs

variable {env : Env} {ws₀ ws ws' : WebSocket} {block : List UInt8}

/-- After a step the connection still waits exactly under the condition. -/
structure WaitsIff (ws₀ ws' : WebSocket) (C : Prop) : Prop where
  state_iff : ws'.state = .connecting ↔ C
  awaits : C → Awaits ws₀ ws'

theorem WaitsIff.of_awaits {C : Prop} (h : Awaits ws₀ ws) (hC : C) : WaitsIff ws₀ ws C :=
  ⟨iff_of_true h.state hC, fun _ => h⟩

theorem WaitsIff.of_left {C : Prop} (h : ws.state ≠ .connecting) (hC : ¬C) : WaitsIff ws₀ ws C :=
  ⟨iff_of_false h hC, fun hc => absurd hc hC⟩

/-! ## One look -/

/-- A look at the first `p` bytes of the block comes to nothing: there are too few of them,
the headers are not both there, or `malloc` fails while the connection may still wait. -/
def Spares (block : List UInt8) (p : ℕ) (allocated : Bool) : Prop :=
  12 ≤ p → if allocated then headersValid (block.take p) = false else p ≤ 200

instance (block : List UInt8) (p : ℕ) (allocated : Bool) : Decidable (Spares block p allocated) :=
  inferInstanceAs (Decidable (_ → _))

theorem Awaits.judged (h : Awaits ws₀ ws)
    (hring : (parseHandshakeResponse ws.rxRing (env ws.tick).allocated).2 = ws.rxRing) :
    Awaits ws₀ (WebSocketHft.judged env ws) :=
  h.keep rfl h.ioCtx hring rfl

/-- Too few bytes for a status line. -/
theorem Awaits.handshakeStep_short (h : Awaits ws₀ ws) (hlt : (readSince ws₀ ws).length < 12) :
    Awaits ws₀ (handshakeStep env ws) := by
  have hread : ringbufferReadable ws.rxRing = (readSince ws₀ ws).length := by
    rw [h.ring.readable, Nat.mod_eq_of_lt (hlt.trans (by decide))]
  rcases Nat.eq_zero_or_pos (ringbufferReadable ws.rxRing) with hzero | hpos
  · rwa [handshakeStep_empty hzero]
  · have hparse : parseHandshakeResponse ws.rxRing (env ws.tick).allocated = (1, ws.rxRing) :=
      parseHandshakeResponse_short _ (hread ▸ hlt)
    rw [handshakeStep_wait hpos (by rw [hparse])]
    exact h.judged (by rw [hparse])

/-- Enough bytes: the two headers and `malloc` decide. -/
theorem handshakeStep_waitsIff_of_starts (h : Awaits ws₀ ws)
    (hstarts : ascii "HTTP/1.1 101" <+: readSince ws₀ ws)
    (hle : (readSince ws₀ ws).length ≤ 4095) :
    WaitsIff ws₀ (handshakeStep env ws)
      (if (env ws.tick).allocated then headersValid (readSince ws₀ ws) = false
        else (readSince ws₀ ws).length ≤ 200) := by
  have hsize : (readSince ws₀ ws).length < ringbufferSize := hle.trans_lt (by decide)
  have hlinear := h.ring.linear hsize
  have hread : ringbufferReadable ws.rxRing = (readSince ws₀ ws).length := by
    rw [h.ring.readable, Nat.mod_eq_of_lt hsize]
  have hpos : 0 < ringbufferReadable ws.rxRing := by
    rw [hread]
    exact (Nat.zero_lt_succ 11).trans_le (length_of_starts hstarts)
  have hparse := parseHandshakeResponse_of_starts (env ws.tick).allocated (hlinear ▸ hstarts)
  rw [hlinear, responseCopy_of_le hle] at hparse
  cases halloc : (env ws.tick).allocated with
  | false =>
      rw [halloc, if_pos rfl] at hparse
      rw [if_neg Bool.false_ne_true]
      rcases Nat.lt_or_ge 200 (readSince ws₀ ws).length with hlong | hshort
      · -- the connection is closed
        have hclosed : (handshakeStep env ws).state = .closed :=
          handshakeStep_close (hread ▸ hlong) (hlinear ▸ hstarts) h.ring.unwrapped halloc
        refine .of_left ?_ (not_le.mpr hlong)
        rw [hclosed]
        exact WSState.noConfusion
      · have hjudged : handshakeStep env ws = judged env ws :=
          handshakeStep_ignore (hread ▸ hshort) (by rw [halloc, hparse]; exact Int.noConfusion) hpos
        rw [hjudged]
        exact .of_awaits (h.judged (by rw [halloc, hparse])) hshort
  | true =>
      rw [halloc, if_neg Bool.noConfusion] at hparse
      rw [if_pos rfl]
      by_cases hvalid : headersValid (readSince ws₀ ws) = true
      · rw [if_pos hvalid] at hparse
        rw [handshakeStep_accept hpos (by rw [halloc, hparse])]
        refine .of_left (handshakeComplete_connected env _).1 ?_
        rw [hvalid]
        exact Bool.noConfusion
      · rw [if_neg hvalid] at hparse
        rw [handshakeStep_wait hpos (by rw [halloc, hparse])]
        exact .of_awaits (h.judged (by rw [halloc, hparse])) (Bool.eq_false_of_not_eq_true hvalid)

/-- A look at a part of the block leaves the connection waiting exactly when it is spared. -/
theorem handshakeStep_waitsIff (h : Awaits ws₀ ws) (hblock : HeaderBlock block)
    (hpart : readSince ws₀ ws <+: block) :
    WaitsIff ws₀ (handshakeStep env ws)
      (Spares block (readSince ws₀ ws).length (env ws.tick).allocated) := by
  have hle := hpart.length_le.trans hblock.length_le
  rcases Nat.lt_or_ge (readSince ws₀ ws).length 12 with hshort | hlong
  · exact .of_awaits (h.handshakeStep_short hshort) fun hlong => absurd hlong (not_le.mpr hshort)
  · have hstarts : ascii "HTTP/1.1 101" <+: readSince ws₀ ws :=
      List.prefix_of_prefix_length_le hblock.starts hpart hlong
    have htake : block.take (readSince ws₀ ws).length = readSince ws₀ ws :=
      (List.prefix_iff_eq_take.mp hpart).symm
    rw [Spares, htake, forall_prop_of_true hlong]
    exact handshakeStep_waitsIff_of_starts h hstarts hle

/-! ## Events and calls -/

/-- The look of an event, if it is a read event, spares the block. -/
def EventSpares (env : Env) (block : List UInt8) (ws₀ ws : WebSocket) (ev : KEvent) : Prop :=
  ev.filter = .read →
    Spares block (readSince ws₀ (eventReads env ws ev)).length
      (env (eventReads env ws ev).tick).allocated

theorem handleEvent_waitsIff (h : Awaits ws₀ ws) (hblock : HeaderBlock block) {ev : KEvent}
    (hgone : ¬(ev.eof ∨ ev.error)) (hpart : readSince ws₀ (handleEvent env ws ev) <+: block) :
    WaitsIff ws₀ (handleEvent env ws ev) (EventSpares env block ws₀ ws ev) := by
  by_cases hfilter : ev.filter = .read
  · have hreads : Awaits ws₀ (eventReads env ws ev) := h.eventReads ev
    rw [handleEvent_connecting h.state hgone hfilter] at hpart ⊢
    have hmoves : Moves env (eventReads env ws ev) (handshakeStep env (eventReads env ws ev)) :=
      Moves.handshakeStep hreads.state
    rw [EventSpares, forall_prop_of_true hfilter]
    exact handshakeStep_waitsIff hreads hblock
      ((readSince_mono hreads.trace_extends hmoves.trace_extends).trans hpart)
  · have hsame : handleEvent env ws ev = ws := by
      unfold handleEvent
      rw [if_neg hgone, if_neg hfilter]
    rw [hsame]
    exact .of_awaits h fun hread => absurd hread hfilter

/-- If each step leaves the connection waiting exactly under its condition, so does the run. -/
theorem foldl_waitsIff {α : Type} {step : WebSocket → α → WebSocket}
    {C : WebSocket → α → Prop} {good : α → Prop} (hmoves : ∀ ws x, Moves env ws (step ws x))
    (hstep : ∀ {ws x}, Awaits ws₀ ws → good x → readSince ws₀ (step ws x) <+: block →
      WaitsIff ws₀ (step ws x) (C ws x))
    {xs : List α} (hgood : ∀ x ∈ xs, good x) (h : Awaits ws₀ ws)
    (hpart : readSince ws₀ (xs.foldl step ws) <+: block) :
    WaitsIff ws₀ (xs.foldl step ws) (Along step C ws xs) := by
  have hrun (xs : List α) (ws : WebSocket) : Moves env ws (xs.foldl step ws) := by
    induction xs generalizing ws with
    | nil => exact .refl
    | cons x xs ih => exact (hmoves ws x).trans (ih _)
  induction xs generalizing ws with
  | nil => exact .of_awaits h trivial
  | cons x xs ih =>
      have hfirst := hstep h (hgood x List.mem_cons_self)
        ((readSince_mono (h.trace_extends.trans (hmoves ws x).trace_extends)
          (hrun xs (step ws x)).trace_extends).trans hpart)
      by_cases hC : C ws x
      · have hrest := ih (fun y hy => hgood y (List.mem_cons_of_mem x hy)) (hfirst.awaits hC) hpart
        exact ⟨hrest.state_iff.trans (and_iff_right hC).symm, fun hall => hrest.awaits hall.2⟩
      · -- once the connection has left, it does not come back
        exact .of_left ((hrun xs (step ws x)).departed (mt hfirst.state_iff.mp hC)).1
          fun hall => hC hall.1

theorem Awaits.poll (h : Awaits ws₀ ws) (events : List KEvent) : Awaits ws₀ (ws.poll events) := by
  refine h.keep rfl ?_ rfl rfl
  rw [WebSocket.poll, Option.isSome_map]
  exact h.ioCtx

/-- All looks of a call spare the block. -/
def CallSpares (env : Env) (block : List UInt8) (ws₀ ws : WebSocket) (events : List KEvent) :
    Prop :=
  Along (handleEvent env) (EventSpares env block ws₀) (ws.poll events) events

theorem foldl_handleEvent_waitsIff (h : Awaits ws₀ ws) (hblock : HeaderBlock block)
    {events : List KEvent} (hgone : ∀ ev ∈ events, ¬(ev.eof ∨ ev.error))
    (hpart : readSince ws₀ (events.foldl (handleEvent env) ws) <+: block) :
    WaitsIff ws₀ (events.foldl (handleEvent env) ws)
      (Along (handleEvent env) (EventSpares env block ws₀) ws events) := by
  have hstep : ∀ {ws ev}, Awaits ws₀ ws → ¬(ev.eof ∨ ev.error) →
      readSince ws₀ (handleEvent env ws ev) <+: block →
      WaitsIff ws₀ (handleEvent env ws ev) (EventSpares env block ws₀ ws ev) :=
    fun hws hev hread => handleEvent_waitsIff hws hblock hev hread
  exact foldl_waitsIff Moves.handleEvent hstep hgone h hpart

theorem processCall_waitsIff (h : Awaits ws₀ ws) (hblock : HeaderBlock block)
    {events : List KEvent} (hgone : ∀ ev ∈ events, ¬(ev.eof ∨ ev.error))
    (hpart : readSince ws₀ (processCall env ws events) <+: block) :
    WaitsIff ws₀ (processCall env ws events) (CallSpares env block ws₀ ws events) := by
  have hpolled : Awaits ws₀ (ws.poll events) := h.poll events
  have hevents : Moves env (ws.poll events) (events.foldl (handleEvent env) (ws.poll events)) :=
    Moves.foldl_handleEvent events _
  rw [processCall_eq h.ioCtx] at hpart ⊢
  generalize hws' : events.foldl (handleEvent env) (ws.poll events) = ws' at hpart hevents ⊢
  have htail : Moves env ws' (processTail env ws') := Moves.processTail ws'
  have hfold : WaitsIff ws₀ ws' (CallSpares env block ws₀ ws events) := by
    rw [← hws']
    refine foldl_handleEvent_waitsIff hpolled hblock hgone ?_
    rw [hws']
    exact (readSince_mono (hpolled.trace_extends.trans hevents.trace_extends)
      htail.trace_extends).trans hpart
  by_cases hstate : ws'.state = .connecting
  · rwa [processTail_of_ne_connected (by rw [hstate]; decide)]
  · exact .of_left (htail.departed hstate).1 (mt hfold.state_iff.mpr hstate)

/-! ## The look at the whole block -/

/-- The connection has become CONNECTED when the whole block had been read. Nothing had been
given to `process_frames` before, and what it gets from then on, the queued bytes and those
that are read later, is `rest`. -/
def HandedOver (ws₀ ws : WebSocket) (block later rest : List UInt8) : Prop :=
  ∃ es pending es', ws.trace = ws₀.trace ++ es ++ .connected pending :: es' ∧
    block.length ≤ (receivedOf es).length ∧ (∀ data, Event.frames data ∉ es) ∧
    pending ++ later = rest

theorem receivedOf_of_isCalm {es : List Event} (h : ∀ e ∈ es, e.isCalm) : receivedOf es = [] := by
  rw [receivedOf, List.flatMap_eq_nil_iff]
  intro e he
  cases e with
  | received bytes => exact Bool.noConfusion (h _ he)
  | _ => rfl

theorem connected_not_mem_of_isCalm {es : List Event} (h : ∀ e ∈ es, e.isCalm)
    (pending : List UInt8) : Event.connected pending ∉ es :=
  fun hmem => Bool.noConfusion (h _ hmem)

theorem connected_not_mem_of_isTransfer {es : List Event} (h : ∀ e ∈ es, e.isTransfer)
    (pending : List UInt8) : Event.connected pending ∉ es :=
  fun hmem => Bool.noConfusion (h _ hmem)

/-- On a positive verdict the connection becomes CONNECTED with what is left in the ring. -/
theorem handshakeStep_connected
    (h : (parseHandshakeResponse ws.rxRing (env ws.tick).allocated).1 = 0) :
    ∃ es, (handshakeStep env ws).trace = ws.trace ++ .connected
        (parseHandshakeResponse ws.rxRing (env ws.tick).allocated).2.queue :: es ∧
      ∀ e ∈ es, e.isCalm := by
  have hpos : 0 < ringbufferReadable ws.rxRing := by
    by_contra hzero
    have hshort : ringbufferReadable ws.rxRing < 12 := by omega
    rw [parseHandshakeResponse_short _ hshort] at h
    exact absurd h (show ¬(1 : ℤ) = 0 by decide)
  rw [handshakeStep_accept hpos h]
  exact (handshakeComplete_connected env (judged env ws)).2

/-- A look reads nothing. -/
theorem readSince_handshakeStep (h : Awaits ws₀ ws) :
    readSince ws₀ (handshakeStep env ws) = readSince ws₀ ws := by
  obtain ⟨es₀, htrace₀, -⟩ := h.events
  have hmore {es : List Event} (htrace : (handshakeStep env ws).trace = ws.trace ++ es)
      (hes : receivedOf es = []) : readSince ws₀ (handshakeStep env ws) = readSince ws₀ ws := by
    rw [htrace₀, List.append_assoc] at htrace
    rw [readSince_eq htrace, readSince_eq htrace₀, receivedOf_append, hes, List.append_nil]
  by_cases hret : (parseHandshakeResponse ws.rxRing (env ws.tick).allocated).1 = 0
  · obtain ⟨es, htrace, hes⟩ := handshakeStep_connected hret
    have hnone : receivedOf es = [] := receivedOf_of_isCalm hes
    exact hmore htrace hnone
  · obtain ⟨es, htrace, hes⟩ := handshakeStep_calm hret
    exact hmore htrace (receivedOf_of_isCalm hes)

/-- Once the whole block has been read, the connection is handed over exactly when the
verdict is positive and leaves the right bytes. -/
theorem handshakeStep_handedOver_iff (h : Awaits ws₀ ws) {later rest : List UInt8}
    (hle : block.length ≤ (readSince ws₀ ws).length) :
    HandedOver ws₀ (handshakeStep env ws) block later rest ↔
      (parseHandshakeResponse ws.rxRing (env ws.tick).allocated).1 = 0 ∧
        (parseHandshakeResponse ws.rxRing (env ws.tick).allocated).2.queue ++ later = rest := by
  obtain ⟨es₀, htrace₀, hes₀⟩ := h.events
  rw [readSince_eq htrace₀] at hle
  by_cases hret : (parseHandshakeResponse ws.rxRing (env ws.tick).allocated).1 = 0
  · obtain ⟨es₁, htrace₁, hes₁⟩ := handshakeStep_connected hret
    rw [htrace₀, List.append_assoc] at htrace₁
    rw [and_iff_right hret]
    constructor
    · rintro ⟨es, pending, es', htrace, -, -, hrest⟩
      rw [htrace₁, List.append_assoc, List.append_cancel_left_eq,
        List.append_cons_inj_of_notMem (connected_not_mem_of_isTransfer hes₀ pending)
          (connected_not_mem_of_isCalm hes₁ pending)] at htrace
      obtain ⟨-, hpending, -⟩ := htrace
      rwa [Event.connected.inj hpending]
    · intro hrest
      refine ⟨es₀, _, es₁, by rw [htrace₁, List.append_assoc], hle, ?_, hrest⟩
      intro data hmem
      exact Bool.noConfusion (hes₀ _ hmem)
  · obtain ⟨es₁, htrace₁, hes₁⟩ := handshakeStep_calm hret
    refine iff_of_false ?_ fun hpositive => hret hpositive.1
    rintro ⟨es, pending, es', htrace, -⟩
    rw [htrace₁, htrace₀, List.append_assoc, List.append_assoc, List.append_cancel_left_eq]
      at htrace
    have hmem : Event.connected pending ∈ es₀ ++ es₁ := by
      rw [htrace]
      simp
    rcases List.mem_append.mp hmem with hmem | hmem
    · exact connected_not_mem_of_isTransfer hes₀ pending hmem
    · exact connected_not_mem_of_isCalm hes₁ pending hmem

/-- The verdict on the whole block and what follows it, as long as the ring has not started
over. -/
theorem verdict_iff_of_room {rb : RingBuffer} {bytes later rest : List UInt8}
    (hfill : Filling rb bytes) (hblock : HeaderBlock block) (hle : block.length ≤ bytes.length)
    (hstream : bytes ++ later = block ++ rest) (allocated : Bool)
    (hroom : bytes.length < ringbufferSize) :
    ((parseHandshakeResponse rb allocated).1 = 0 ∧
        (parseHandshakeResponse rb allocated).2.queue ++ later = rest) ↔
      0 ∉ block ∧ allocated = true := by
  have hlinear := hfill.linear hroom
  have hpart : block <+: bytes :=
    List.prefix_of_prefix_length_le (List.prefix_append block rest) ⟨later, hstream⟩ hle
  have hcopy : block <+: responseCopy bytes 0 := by
    rw [responseCopy, List.drop_zero, List.prefix_take_iff]
    exact ⟨hpart, hblock.length_le⟩
  have hparse := parseHandshakeResponse_of_starts allocated
    (show ascii "HTTP/1.1 101" <+: rb.linear by rw [hlinear]; exact hblock.starts.trans hpart)
  rw [hlinear, if_pos (headersValid_mono hcopy hblock.headersValid)] at hparse
  rw [hparse]
  cases allocated with
  | false =>
      rw [if_pos rfl]
      exact iff_of_false (fun hpos => absurd hpos.1 (show ¬(-1 : ℤ) = 0 by decide))
        fun hall => Bool.noConfusion hall.2
  | true =>
      rw [if_neg Bool.noConfusion]
      by_cases hnul : 0 ∈ block
      · rw [consumeResponse_of_nul hblock hnul hfill.unwrapped (hlinear ▸ hpart)]
        refine iff_of_false ?_ fun hall => hall.1 hnul
        rintro ⟨-, hqueue⟩
        rw [queue_eq_linear hfill.unwrapped, hlinear] at hqueue
        have hlen := congrArg List.length hstream
        have hrest := congrArg List.length hqueue
        have hmin := length_of_starts hblock.starts
        rw [List.length_append, List.length_append] at hlen
        rw [List.length_append] at hrest
        omega
      · rw [consumeResponse_of_block hfill.valid hblock hnul hfill.unwrapped (hlinear ▸ hpart),
          hlinear]
        refine iff_of_true ⟨rfl, ?_⟩ ⟨hnul, rfl⟩
        obtain ⟨tail, rfl⟩ := hpart
        rw [List.append_assoc, List.append_cancel_left_eq] at hstream
        rwa [List.drop_left]

/-- Too little is left in a ring that has started over. -/
theorem queue_ne_of_full {rb : RingBuffer} {bytes later rest : List UInt8}
    (hfill : Filling rb bytes) (hblock : HeaderBlock block)
    (hstream : bytes ++ later = block ++ rest) (allocated : Bool)
    (hfull : ringbufferSize ≤ bytes.length) :
    (parseHandshakeResponse rb allocated).2.queue ++ later ≠ rest := by
  intro hqueue
  have hshort := length_queue_parseHandshakeResponse_le hfill.valid allocated
  have hover : bytes.length % ringbufferSize ≤ bytes.length - ringbufferSize := by
    rw [Nat.mod_eq_sub_mod hfull]
    exact Nat.mod_le _ _
  have hsize : 4095 < ringbufferSize := by decide
  have hmax := hblock.length_le
  have hlen := congrArg List.length hstream
  have hrest := congrArg List.length hqueue
  rw [List.length_append, List.length_append] at hlen
  rw [List.length_append] at hrest
  rw [hfill.readable] at hshort
  omega

/-- The verdict on the whole block and what follows it. -/
theorem verdict_iff {rb : RingBuffer} {bytes later rest : List UInt8} (hfill : Filling rb bytes)
    (hblock : HeaderBlock block) (hle : block.length ≤ bytes.length)
    (hstream : bytes ++ later = block ++ rest) (allocated : Bool) :
    ((parseHandshakeResponse rb allocated).1 = 0 ∧
        (parseHandshakeResponse rb allocated).2.queue ++ later = rest) ↔
      0 ∉ block ∧ allocated = true ∧ bytes.length < ringbufferSize := by
  rcases Nat.lt_or_ge bytes.length ringbufferSize with hroom | hfull
  · rw [verdict_iff_of_room hfill hblock hle hstream allocated hroom]
    simp only [hroom, and_true]
  · refine iff_of_false ?_ fun hall => absurd hall.2.2 (not_lt.mpr hfull)
    exact fun hverdict => queue_ne_of_full hfill hblock hstream allocated hfull hverdict.2

/-! ## The run up to the whole block -/

/-- Calls of `websocket_process`, and in the last one the events handled so far, the event
that is handled next, and those still to come. -/
structure Opening where
  calls : List (List KEvent)
  handled : List KEvent
  event : KEvent
  unhandled : List KEvent

namespace Opening

/-- The last call has polled its events. -/
def start (o : Opening) (env : Env) (ws₀ : WebSocket) : WebSocket :=
  (o.calls.foldl (processCall env) ws₀).poll (o.handled ++ o.event :: o.unhandled)

def before (o : Opening) (env : Env) (ws₀ : WebSocket) : WebSocket :=
  o.handled.foldl (handleEvent env) (o.start env ws₀)

def after (o : Opening) (env : Env) (ws₀ : WebSocket) : WebSocket :=
  handleEvent env (o.before env ws₀) o.event

/-- The event brings the last bytes of the block. With `later` the stream is the block and
`rest`; no event announces the end of the connection. -/
structure Completes (o : Opening) (env : Env) (ws₀ : WebSocket) (block later rest : List UInt8) :
    Prop where
  calls_alive : ∀ events ∈ o.calls, ∀ ev ∈ events, ¬(ev.eof ∨ ev.error)
  handled_alive : ∀ ev ∈ o.handled, ¬(ev.eof ∨ ev.error)
  event_alive : ¬(o.event.eof ∨ o.event.error)
  before_lt : (readSince ws₀ (o.before env ws₀)).length < block.length
  after_ge : block.length ≤ (readSince ws₀ (o.after env ws₀)).length
  stream : readSince ws₀ (o.after env ws₀) ++ later = block ++ rest

/-- The block has no zero byte, every look before the last one spares it, and at the last one
`malloc` succeeds and the ring is not full. -/
structure Spared (o : Opening) (env : Env) (ws₀ : WebSocket) (block : List UInt8) : Prop where
  no_nul : 0 ∉ block
  calls : Along (processCall env) (CallSpares env block ws₀) ws₀ o.calls
  handled : Along (handleEvent env) (EventSpares env block ws₀) (o.start env ws₀) o.handled
  allocated : (env (eventReads env (o.before env ws₀) o.event).tick).allocated = true
  room : (readSince ws₀ (o.after env ws₀)).length < ringbufferSize

variable {o : Opening} {later rest : List UInt8}

theorem moves_calls (env : Env) (ws : WebSocket) (calls : List (List KEvent)) :
    Moves env ws (calls.foldl (processCall env) ws) :=
  foldl_invariant (I := Moves env ws)
    (fun ws' events h => h.trans (Moves.websocketProcess ws' (some events))) .refl calls

theorem moves_start (o : Opening) (env : Env) (ws₀ : WebSocket) :
    Moves env (o.calls.foldl (processCall env) ws₀) (o.start env ws₀) := Moves.keep (outline_poll _ _)

theorem moves_before (o : Opening) (env : Env) (ws₀ : WebSocket) :
    Moves env (o.start env ws₀) (o.before env ws₀) := Moves.foldl_handleEvent _ _

theorem moves_after (o : Opening) (env : Env) (ws₀ : WebSocket) :
    Moves env (o.before env ws₀) (o.after env ws₀) := Moves.handleEvent _ _

theorem trace_before (o : Opening) (env : Env) (ws₀ : WebSocket) :
    ws₀.trace <+: (o.before env ws₀).trace :=
  (((moves_calls env ws₀ o.calls).trans (o.moves_start env ws₀)).trans
    (o.moves_before env ws₀)).trace_extends

/-- Before the event a part of the block has been read. -/
theorem Completes.read_before (h : o.Completes env ws₀ block later rest) :
    readSince ws₀ (o.before env ws₀) <+: block := by
  have hstream : readSince ws₀ (o.before env ws₀) <+: block ++ rest := by
    rw [← h.stream]
    exact (readSince_mono (o.trace_before env ws₀) (o.moves_after env ws₀).trace_extends).trans
      (List.prefix_append _ _)
  exact List.prefix_of_prefix_length_le hstream (List.prefix_append _ _) h.before_lt.le

/-- Up to the event the connection waits exactly when all looks spare the block. -/
theorem Completes.before_waitsIff (h : o.Completes env ws₀ block later rest)
    (hws : AwaitsResponse ws₀) (hblock : HeaderBlock block) :
    WaitsIff ws₀ (o.before env ws₀)
      (Along (processCall env) (CallSpares env block ws₀) ws₀ o.calls ∧
        Along (handleEvent env) (EventSpares env block ws₀) (o.start env ws₀) o.handled) := by
  have hcalls_moves := moves_calls env ws₀ o.calls
  have hrest_moves := (o.moves_start env ws₀).trans (o.moves_before env ws₀)
  have hstep : ∀ {ws events}, Awaits ws₀ ws → (∀ ev ∈ events, ¬(ev.eof ∨ ev.error)) →
      readSince ws₀ (processCall env ws events) <+: block →
      WaitsIff ws₀ (processCall env ws events) (CallSpares env block ws₀ ws events) :=
    fun hws hev hread => processCall_waitsIff hws hblock hev hread
  have hcalls : WaitsIff ws₀ (o.calls.foldl (processCall env) ws₀)
      (Along (processCall env) (CallSpares env block ws₀) ws₀ o.calls) :=
    foldl_waitsIff (fun ws events => Moves.websocketProcess ws (some events)) hstep h.calls_alive
      hws.awaits ((readSince_mono hcalls_moves.trace_extends hrest_moves.trace_extends).trans
        h.read_before)
  by_cases hspared : Along (processCall env) (CallSpares env block ws₀) ws₀ o.calls
  · have hstart : Awaits ws₀ (o.start env ws₀) := (hcalls.awaits hspared).poll _
    have hhandled : WaitsIff ws₀ (o.before env ws₀)
        (Along (handleEvent env) (EventSpares env block ws₀) (o.start env ws₀) o.handled) :=
      foldl_handleEvent_waitsIff hstart hblock h.handled_alive h.read_before
    exact ⟨hhandled.state_iff.trans (and_iff_right hspared).symm,
      fun hall => hhandled.awaits hall.2⟩
  · exact .of_left (hrest_moves.departed (mt hcalls.state_iff.mp hspared)).1
      fun hall => hspared hall.1

/-- A connection that has left CONNECTING too early is not handed over any more. -/
theorem Completes.not_handedOver (h : o.Completes env ws₀ block later rest)
    (hleft : (o.before env ws₀).state ≠ .connecting) :
    ¬HandedOver ws₀ (o.after env ws₀) block later rest := by
  rintro ⟨es, pending, es', htrace, hle, -, -⟩
  obtain ⟨es₀, htrace₀⟩ := o.trace_before env ws₀
  obtain ⟨-, es₁, htrace₁, hes₁⟩ := (o.moves_after env ws₀).departed hleft
  have hlt := h.before_lt
  rw [readSince_eq htrace₀.symm] at hlt
  rw [htrace₁, ← htrace₀, List.append_assoc, List.append_assoc, List.append_cancel_left_eq]
    at htrace
  rcases List.append_eq_append_iff.mp htrace with ⟨as, -, hes₁'⟩ | ⟨bs, hes₀', -⟩
  · -- the acceptance would belong to the event
    have hmem : Event.connected pending ∈ es₁ := by
      rw [hes₁']
      simp
    exact Bool.noConfusion (hes₁ _ hmem)
  · -- or to an earlier one, when too little had been read
    rw [hes₀', receivedOf_append, List.length_append] at hlt
    omega

end Opening

/-- However a response is cut into reads, once its header block has been read the connection
has become CONNECTED and exactly the bytes behind the block are left for `process_frames`, if
and only if the block has no zero byte, no earlier look sees both required headers, `malloc`
succeeds and the ring has room. -/
theorem handshake_handed_over_iff (env : Env) (ws₀ : WebSocket) (o : Opening)
    (block later rest : List UInt8) (hws : AwaitsResponse ws₀) (hblock : HeaderBlock block)
    (ho : o.Completes env ws₀ block later rest) :
    HandedOver ws₀ (o.after env ws₀) block later rest ↔ o.Spared env ws₀ block := by
  have hwaits := ho.before_waitsIff hws hblock
  by_cases hall : Along (processCall env) (CallSpares env block ws₀) ws₀ o.calls ∧
      Along (handleEvent env) (EventSpares env block ws₀) (o.start env ws₀) o.handled
  · have hbefore := hwaits.awaits hall
    have hreads : Awaits ws₀ (eventReads env (o.before env ws₀) o.event) := hbefore.eventReads _
    have hfilter : o.event.filter = .read := by
      by_contra hfilter
      have hsame : o.after env ws₀ = o.before env ws₀ := by
        unfold Opening.after handleEvent
        rw [if_neg ho.event_alive, if_neg hfilter]
      have hlt := ho.before_lt
      have hge := ho.after_ge
      rw [hsame] at hge
      omega
    have hafter : o.after env ws₀ = handshakeStep env (eventReads env (o.before env ws₀) o.event) :=
      handleEvent_connecting hbefore.state ho.event_alive hfilter
    have hread : readSince ws₀ (o.after env ws₀) =
        readSince ws₀ (eventReads env (o.before env ws₀) o.event) := by
      rw [hafter, readSince_handshakeStep hreads]
    have hle := ho.after_ge
    have hstream := ho.stream
    rw [hread] at hle hstream
    rw [hafter, handshakeStep_handedOver_iff hreads hle,
      verdict_iff hreads.ring hblock hle hstream]
    constructor
    · rintro ⟨hnul, halloc, hroom⟩
      exact ⟨hnul, hall.1, hall.2, halloc, hread ▸ hroom⟩
    · intro hspared
      exact ⟨hspared.no_nul, hspared.allocated, hread ▸ hspared.room⟩
  · refine iff_of_false (ho.not_handedOver (mt hwaits.state_iff.mp hall)) ?_
    intro hspared
    exact hall ⟨hspared.calls, hspared.handled⟩

/-! ## Examples of cuts -/

/-- A read event of a plain connection that brings the text. -/
def readEvent (text : String) : KEvent := ⟨0, 0, false, false, .read, .received (ascii text) none⟩

/-- A plain connection whose upgrade request has been sent. -/
def openingWebSocket : WebSocket :=
  (websocketConnect (fun _ => {}) (websocketCreate true) (ascii "ws://h/") {}).2

theorem awaitsResponse_openingWebSocket : AwaitsResponse openingWebSocket :=
  awaitsResponse_websocketConnect (by decide +kernel)

/-- A short response. -/
def responseBlock : List UInt8 :=
  ascii "HTTP/1.1 101 OK\r\nUpgrade: websocket\r\nConnection: Upgrade\r\n\r\n"

theorem headerBlock_responseBlock : HeaderBlock responseBlock := by
  have hfacts : (ascii "HTTP/1.1 101" <+: responseBlock ∧
      findInfix (ascii "\r\n\r\n") responseBlock = some (responseBlock.length - 4)) ∧
      responseBlock.length ≤ 4095 ∧
      (parseHandshakeResponse (ringbufferInit.produce responseBlock) true).1 = 0 := by
    decide +kernel
  exact ⟨hfacts.1.1, hfacts.1.2, hfacts.2.1, hfacts.2.2⟩

/-- The response is cut between its two headers; some bytes follow it. -/
def cutBetweenHeaders : Opening where
  calls := [[readEvent "HTTP/1.1 101 OK\r\nUpgrade: websocket\r\n"]]
  handled := []
  event := readEvent "Connection: Upgrade\r\n\r\nab"
  unhandled := []

theorem handshake_handed_over_cut_between_headers :
    HandedOver openingWebSocket (cutBetweenHeaders.after (fun _ => {}) openingWebSocket)
      responseBlock [] (ascii "ab") := by
  -- one evaluation of the run for all facts about it
  have hfacts :
      (readSince openingWebSocket
          (cutBetweenHeaders.before (fun _ => {}) openingWebSocket)).length < responseBlock.length ∧
      readSince openingWebSocket (cutBetweenHeaders.after (fun _ => {}) openingWebSocket) =
        responseBlock ++ ascii "ab" ∧
      Spares responseBlock (readSince openingWebSocket (eventReads (fun _ => {})
        (openingWebSocket.poll [readEvent "HTTP/1.1 101 OK\r\nUpgrade: websocket\r\n"])
        (readEvent "HTTP/1.1 101 OK\r\nUpgrade: websocket\r\n"))).length true := by
    decide +kernel
  obtain ⟨hbefore, hafter, hspares⟩ := hfacts
  have hcompletes : cutBetweenHeaders.Completes (fun _ => {}) openingWebSocket responseBlock []
      (ascii "ab") :=
    ⟨by decide, by decide, by decide, hbefore, by rw [hafter]; decide, by rw [hafter]; rfl⟩
  have hspared : cutBetweenHeaders.Spared (fun _ => {}) openingWebSocket responseBlock :=
    ⟨by decide, ⟨⟨fun _ => hspares, trivial⟩, trivial⟩, trivial, rfl, by rw [hafter]; decide⟩
  exact (handshake_handed_over_iff (fun _ => {}) openingWebSocket cutBetweenHeaders responseBlock []
    (ascii "ab") awaitsResponse_openingWebSocket headerBlock_responseBlock hcompletes).mpr hspared

/-- The response is cut between its headers and the blank line. -/
def cutBeforeBlankLine : Opening where
  calls := [[readEvent "HTTP/1.1 101 OK\r\nUpgrade: websocket\r\nConnection: Upgrade\r\n"]]
  handled := []
  event := readEvent "\r\nab"
  unhandled := []

/-- The connection is CONNECTED before the blank line arrives, and the header block is given to
`process_frames`. -/
theorem header_block_treated_as_frames :
    AwaitsResponse openingWebSocket ∧ HeaderBlock responseBlock ∧
      cutBeforeBlankLine.Completes (fun _ => {}) openingWebSocket responseBlock [] (ascii "ab") ∧
      Event.frames (ascii
          "HTTP/1.1 101 OK\r\nUpgrade: websocket\r\nConnection: Upgrade\r\n") ∈
        (cutBeforeBlankLine.before (fun _ => {}) openingWebSocket).trace ∧
      ¬HandedOver openingWebSocket (cutBeforeBlankLine.after (fun _ => {}) openingWebSocket)
        responseBlock [] (ascii "ab") := by
  have hfacts :
      ((readSince openingWebSocket
          (cutBeforeBlankLine.before (fun _ => {}) openingWebSocket)).length <
            responseBlock.length ∧
        readSince openingWebSocket (cutBeforeBlankLine.after (fun _ => {}) openingWebSocket) =
          responseBlock ++ ascii "ab") ∧
      (cutBeforeBlankLine.before (fun _ => {}) openingWebSocket).state ≠ .connecting ∧
      Event.frames (ascii
          "HTTP/1.1 101 OK\r\nUpgrade: websocket\r\nConnection: Upgrade\r\n") ∈
        (cutBeforeBlankLine.before (fun _ => {}) openingWebSocket).trace := by
    decide +kernel
  obtain ⟨⟨hbefore, hafter⟩, hleft, hframes⟩ := hfacts
  have hcompletes : cutBeforeBlankLine.Completes (fun _ => {}) openingWebSocket responseBlock []
      (ascii "ab") :=
    ⟨by decide, by decide, by decide, hbefore, by rw [hafter]; decide, by rw [hafter]; rfl⟩
  exact ⟨awaitsResponse_openingWebSocket, headerBlock_responseBlock, hcompletes, hframes,
    hcompletes.not_handedOver hleft⟩

end WebSocketHft

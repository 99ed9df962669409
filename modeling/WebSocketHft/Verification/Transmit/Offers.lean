import WebSocketHft.Model.Frames
import WebSocketHft.Shared.Runs
import WebSocketHft.Verification.Ringbuffer.Equations

/-! # Handing the transmit ring over

`io_write` and `ssl_write` offer the queued bytes to the socket or to the TLS
layer, which takes a front of them. Over a run of writes and transfers nothing is
lost as long as what is offered is the queue and what was taken is released. -/

namespace WebSocketHft

open WebSocketHft.Memory WebSocketHft.Circular WebSocketHft.Runs

variable {rb : RingBuffer}

/-! ## What is offered -/

/-- The two pieces of `io_write` spell out the queue. -/
theorem ioOffered_eq_queue (h : rb.Valid) : ioOffered rb = rb.queue := by
  have hlt := h.readable_lt
  have hcircular : ioOffered rb =
      circularLoad rb.size rb.buf rb.readPtr (ringbufferReadable rb) := by
    unfold ioOffered iovecs circularLoad
    change (if rb.size < rb.readPtr + ringbufferReadable rb then _ else _ : List Span).flatMap _ = _
    by_cases hwrap : rb.size < rb.readPtr + ringbufferReadable rb
    · rw [if_pos hwrap, if_neg (not_le.mpr hwrap)]
      simp only [List.flatMap_cons, List.flatMap_nil, List.append_nil]
      rfl
    · rw [if_neg hwrap, if_pos (not_lt.mp hwrap)]
      simp only [List.flatMap_cons, List.flatMap_nil, List.append_nil]
      rfl
  rw [hcircular, circularLoad_eq_window _ h.readPtr_lt hlt.le]
  rfl

/-- They are at most two, and lie inside the buffer. -/
theorem iovecs_inside (h : rb.Valid) :
    (iovecs rb).length ≤ 2 ∧ ∀ piece ∈ iovecs rb, piece.data + piece.len ≤ rb.size := by
  have hlt := h.readable_lt
  have hread := h.readPtr_lt
  unfold iovecs
  change (if rb.size < rb.readPtr + ringbufferReadable rb then _ else _ : List Span).length ≤ 2 ∧
    ∀ piece ∈ (if rb.size < rb.readPtr + ringbufferReadable rb then _ else _ : List Span), _
  split_ifs with hwrap
  · refine ⟨le_rfl, ?_⟩
    intro piece hpiece
    simp only [List.mem_cons, List.not_mem_nil, or_false] at hpiece
    rcases hpiece with rfl | rfl
    · change rb.readPtr + (rb.size - rb.readPtr) ≤ rb.size
      omega
    · change 0 + (ringbufferReadable rb - (rb.size - rb.readPtr)) ≤ rb.size
      omega
  · refine ⟨by simp, ?_⟩
    intro piece hpiece
    rw [List.mem_singleton] at hpiece
    rw [hpiece]
    exact not_lt.mp hwrap

theorem sslOffered_eq_linear (rb : RingBuffer) : sslOffered rb = rb.linear := rfl

/-- The ring in other surroundings: what lies behind its buffer is replaced. -/
def RingBuffer.inFrontOf (rb : RingBuffer) (behind : ℕ → UInt8) : RingBuffer :=
  { rb with buf := fun i => if i < rb.size then rb.buf i else behind i }

theorem queue_inFrontOf (h : rb.Valid) (behind : ℕ → UInt8) :
    (rb.inFrontOf behind).queue = rb.queue := by
  refine window_congr fun i _ => ?_
  exact if_pos (Nat.mod_lt _ (Nat.zero_lt_of_lt h.readPtr_lt))

/-- `ssl_write` offers the queue, whatever lies behind the buffer, exactly when the queue does
not run past the end. -/
theorem sslOffered_eq_queue_iff (h : rb.Valid) :
    (∀ behind, sslOffered (rb.inFrontOf behind) = (rb.inFrontOf behind).queue) ↔
      rb.Unwrapped := by
  constructor
  · intro hall
    by_contra hwrap
    have hread := h.readPtr_lt
    have hover : rb.size - rb.readPtr < ringbufferReadable rb := by
      unfold RingBuffer.Unwrapped at hwrap
      omega
    have hcell : rb.readPtr + (rb.size - rb.readPtr) = rb.size := by omega
    have hsame : load (rb.inFrontOf fun _ => rb.buf 0 + 1).buf rb.readPtr (ringbufferReadable rb) =
        window rb.buf rb.size rb.readPtr (ringbufferReadable rb) :=
      (hall _).trans (queue_inFrontOf h _)
    -- the first byte behind the buffer stands where the first byte of the buffer belongs
    have hbyte := congrArg (·[rb.size - rb.readPtr]?) hsame
    rw [getElem?_load _ _ _ _ hover, getElem?_window _ _ _ _ _ hover, hcell, Nat.mod_self,
      Option.some_inj] at hbyte
    have hbehind : (rb.inFrontOf fun _ => rb.buf 0 + 1).buf rb.size = rb.buf 0 + 1 :=
      if_neg (lt_irrefl _)
    rw [hbehind] at hbyte
    simp at hbyte
  · intro hun behind
    have hun' : (rb.inFrontOf behind).Unwrapped := hun
    rw [sslOffered_eq_linear, queue_eq_linear hun']

/-! ## What is taken -/

/-- A front of the queue has been handed over and released. -/
def HandsOver (rb : RingBuffer) (sent : List UInt8) (rb' : RingBuffer) : Prop :=
  ∃ n ≤ ringbufferReadable rb, sent = rb.queue.take n ∧ rb' = rb.consume n

theorem HandsOver.nothing (h : rb.Valid) : HandsOver rb [] rb :=
  ⟨0, Nat.zero_le _, rfl, (consume_zero h).symm⟩

theorem HandsOver.valid {sent : List UInt8} {rb' : RingBuffer} (hover : HandsOver rb sent rb')
    (h : rb.Valid) : rb'.Valid := by
  obtain ⟨n, -, -, rfl⟩ := hover
  exact h.consume n

theorem HandsOver.queue_eq {sent : List UInt8} {rb' : RingBuffer} (hover : HandsOver rb sent rb')
    (h : rb.Valid) : sent ++ rb'.queue = rb.queue := by
  obtain ⟨n, hn, rfl, rfl⟩ := hover
  rw [queue_consume h hn, List.take_append_drop]

/-- `io_write` hands nothing over, or a front of what it offers. -/
theorem ioWrite_cases (ctx : Option IOContext) (socketIndex : ℤ) (rb : RingBuffer)
    (accepted : Option ℕ) :
    ((ioWrite ctx socketIndex rb accepted).sent = [] ∧
        (ioWrite ctx socketIndex rb accepted).ring = rb) ∨
      ringbufferReadable rb ≠ 0 ∧ ∃ n ≤ ringbufferReadable rb,
        (ioWrite ctx socketIndex rb accepted).sent = (ioOffered rb).take n ∧
          (ioWrite ctx socketIndex rb accepted).ring = rb.consume n := by
  cases ctx with
  | none => exact Or.inl ⟨rfl, rfl⟩
  | some ctx =>
      simp only [ioWrite]
      by_cases hindex : socketIndex < 0
      · rw [if_pos hindex]
        exact Or.inl ⟨rfl, rfl⟩
      · rw [if_neg hindex]
        cases ctx.sockets[socketIndex.toNat]? with
        | none => exact Or.inl ⟨rfl, rfl⟩
        | some sock =>
            dsimp only
            by_cases hlen : (ringbufferReadInline rb).len = 0
            · rw [if_pos hlen]
              split_ifs <;> exact Or.inl ⟨rfl, rfl⟩
            · rw [if_neg hlen]
              cases accepted with
              | none => split_ifs <;> exact Or.inl ⟨rfl, rfl⟩
              | some k =>
                  dsimp only
                  split_ifs
                  · exact Or.inl ⟨rfl, rfl⟩
                  · exact Or.inl ⟨rfl, rfl⟩
                  · exact Or.inr ⟨hlen, _, min_le_right _ _, rfl, rfl⟩

theorem ioWrite_handsOver (h : rb.Valid) (ctx : Option IOContext) (socketIndex : ℤ)
    (accepted : Option ℕ) :
    HandsOver rb (ioWrite ctx socketIndex rb accepted).sent
      (ioWrite ctx socketIndex rb accepted).ring := by
  rcases ioWrite_cases ctx socketIndex rb accepted with ⟨hsent, hring⟩ | ⟨-, n, hn, hsent, hring⟩
  · rw [hsent, hring]
    exact .nothing h
  · rw [ioOffered_eq_queue h] at hsent
    exact ⟨n, hn, hsent, hring⟩

/-- SecureTransport may take bytes and report that it would block. -/
def TlsAnswer.blocks (ctx : SSLContext) (answer : TlsAnswer) : Prop :=
  ctx.backend = .secureTransport ∧ answer.status = .errSSLWouldBlock ∧ 0 < answer.count

instance (ctx : SSLContext) (answer : TlsAnswer) : Decidable (answer.blocks ctx) :=
  inferInstanceAs (Decidable (_ ∧ _))

/-- `ssl_write` hands nothing over, or a front of what it offers. It releases that unless the
library has reported that it would block. -/
theorem sslWrite_cases (ctx : SSLContext) (rb : RingBuffer) (answer : TlsAnswer) :
    ((sslWrite (some ctx) rb answer).sent = [] ∧ (sslWrite (some ctx) rb answer).ring = rb ∧
        ¬(ringbufferReadable rb ≠ 0 ∧ answer.blocks ctx)) ∨
      ringbufferReadable rb ≠ 0 ∧
        (sslWrite (some ctx) rb answer).sent =
          (sslOffered rb).take (min answer.count (ringbufferReadable rb)) ∧
        (sslWrite (some ctx) rb answer).ring =
          if answer.blocks ctx then rb
          else rb.consume (min answer.count (ringbufferReadable rb)) := by
  have hlen : (ringbufferReadInline rb).len = ringbufferReadable rb := rfl
  simp only [sslWrite, hlen]
  by_cases hzero : ringbufferReadable rb = 0
  · rw [if_pos hzero]
    exact Or.inl ⟨rfl, rfl, fun hboth => hboth.1 hzero⟩
  · rw [if_neg hzero]
    cases hbackend : ctx.backend with
    | secureTransport =>
        dsimp only
        by_cases hdone : answer.status = .noErr ∧ 0 < min answer.count (ringbufferReadable rb)
        · have hblocks : ¬answer.blocks ctx := by
            rintro ⟨-, hstatus, -⟩
            rw [hdone.1] at hstatus
            cases hstatus
          rw [if_pos hdone, if_neg hblocks]
          exact Or.inr ⟨hzero, rfl, rfl⟩
        · rw [if_neg hdone]
          by_cases hstatus : answer.status = .errSSLWouldBlock
          · rw [if_pos hstatus]
            by_cases hcount : 0 < answer.count
            · rw [if_pos (show answer.blocks ctx from ⟨hbackend, hstatus, hcount⟩)]
              exact Or.inr ⟨hzero, rfl, rfl⟩
            · refine Or.inl ⟨?_, rfl, fun hboth => hcount hboth.2.2.2⟩
              rw [Nat.eq_zero_of_not_pos hcount, Nat.zero_min, List.take_zero]
          · rw [if_neg hstatus]
            exact Or.inl ⟨rfl, rfl, fun hboth => hstatus hboth.2.2.1⟩
    | openSSL =>
        have hblocks : ¬answer.blocks ctx := by
          rintro ⟨hother, -, -⟩
          rw [hbackend] at hother
          cases hother
        dsimp only
        by_cases hdone : 0 < min answer.count (ringbufferReadable rb)
        · rw [if_pos hdone, if_neg hblocks]
          exact Or.inr ⟨hzero, rfl, rfl⟩
        · rw [if_neg hdone]
          split_ifs <;> exact Or.inl ⟨rfl, rfl, fun hboth => hblocks hboth.2⟩

theorem sslWrite_ring (ctx : Option SSLContext) (rb : RingBuffer) (answer : TlsAnswer) :
    (sslWrite ctx rb answer).ring = rb ∨
      ringbufferReadable rb ≠ 0 ∧ ∃ n, (sslWrite ctx rb answer).ring = rb.consume n := by
  cases ctx with
  | none => exact Or.inl rfl
  | some ctx =>
      rcases sslWrite_cases ctx rb answer with ⟨-, hring, -⟩ | ⟨hpos, -, hring⟩
      · exact Or.inl hring
      · rw [hring]
        split_ifs
        · exact Or.inl rfl
        · exact Or.inr ⟨hpos, _, rfl⟩

theorem ioWrite_ring (ctx : Option IOContext) (socketIndex : ℤ) (rb : RingBuffer)
    (accepted : Option ℕ) :
    (ioWrite ctx socketIndex rb accepted).ring = rb ∨
      ringbufferReadable rb ≠ 0 ∧ ∃ n, (ioWrite ctx socketIndex rb accepted).ring = rb.consume n := by
  rcases ioWrite_cases ctx socketIndex rb accepted with ⟨-, hring⟩ | ⟨hpos, n, -, -, hring⟩
  · exact Or.inl hring
  · exact Or.inr ⟨hpos, n, hring⟩

/-- The queue lies in one piece, and the library does not take bytes and report that it would
block. -/
def SslWriteSafe (ctx : SSLContext) (rb : RingBuffer) (answer : TlsAnswer) : Prop :=
  rb.Unwrapped ∧ (ringbufferReadable rb = 0 ∨ ¬answer.blocks ctx)

theorem sslWrite_handsOver (h : rb.Valid) {ctx : SSLContext} {answer : TlsAnswer}
    (hsafe : SslWriteSafe ctx rb answer) :
    HandsOver rb (sslWrite (some ctx) rb answer).sent (sslWrite (some ctx) rb answer).ring := by
  obtain ⟨hun, hblocks⟩ := hsafe
  rcases sslWrite_cases ctx rb answer with ⟨hsent, hring, -⟩ | ⟨hpos, hsent, hring⟩
  · rw [hsent, hring]
    exact .nothing h
  · rw [sslOffered_eq_linear, ← queue_eq_linear hun] at hsent
    rw [if_neg (hblocks.resolve_left hpos)] at hring
    exact ⟨_, min_le_right _ _, hsent, hring⟩

/-- After `ssl_write` the queue lacks the bytes that were taken exactly when the library has
not reported that it would block. -/
theorem queue_sslWrite_iff (h : rb.Valid) (ctx : SSLContext) (answer : TlsAnswer) :
    (sslWrite (some ctx) rb answer).ring.queue =
        rb.queue.drop (sslWrite (some ctx) rb answer).sent.length ↔
      ringbufferReadable rb = 0 ∨ ¬answer.blocks ctx := by
  rcases sslWrite_cases ctx rb answer with ⟨hsent, hring, hnot⟩ | ⟨hpos, hsent, hring⟩
  · rw [hsent, hring, List.length_nil, List.drop_zero]
    exact iff_of_true rfl (by tauto)
  · have hlength : (sslWrite (some ctx) rb answer).sent.length =
        min answer.count (ringbufferReadable rb) := by
      have hoffered : (sslOffered rb).length = ringbufferReadable rb := load_length _ _ _
      rw [hsent, List.length_take, hoffered]
      omega
    rw [hlength, hring]
    by_cases hblocks : answer.blocks ctx
    · rw [if_pos hblocks]
      refine iff_of_false ?_ (by tauto)
      intro hsame
      have hcount := hblocks.2.2
      have hlen := congrArg List.length hsame
      rw [List.length_drop, length_queue] at hlen
      omega
    · rw [if_neg hblocks, queue_consume h (min_le_right _ _)]
      exact iff_of_true rfl (Or.inr hblocks)

/-! ## Runs -/

/-- A call on the transmit ring: `ringbuffer_write`, or a transfer with what it is given. -/
inductive TxCall (τ : Type) where
  | write (data : Option (List UInt8))
  | transfer (args : τ)

/-- The transmit ring, the bytes accepted into it and the bytes accepted from it. -/
structure TxHistory where
  ring : RingBuffer
  queued : List UInt8
  accepted : List UInt8

def TxHistory.start (rb : RingBuffer) : TxHistory := ⟨rb, [], []⟩

def TxHistory.call {τ : Type} (transfer : RingBuffer → τ → List UInt8 × RingBuffer)
    (s : TxHistory) : TxCall τ → TxHistory
  | .write data =>
    let r := ringbufferWrite s.ring data
    ⟨r.ring, s.queued ++ (data.getD []).take r.ret, s.accepted⟩
  | .transfer args =>
    let r := transfer s.ring args
    ⟨r.2, s.queued, s.accepted ++ r.1⟩

/-- From a ring that held `q` on, nothing has been lost. -/
structure Lossless (q : List UInt8) (s : TxHistory) : Prop where
  valid : s.ring.Valid
  bytes_eq : s.accepted ++ s.ring.queue = q ++ s.queued

theorem lossless_start (h : rb.Valid) : Lossless rb.queue (.start rb) :=
  ⟨h, (List.append_nil rb.queue).symm⟩

theorem Lossless.write {τ : Type} {transfer : RingBuffer → τ → List UInt8 × RingBuffer}
    {q : List UInt8} {s : TxHistory} (h : Lossless q s) (data : Option (List UInt8)) :
    Lossless q (s.call transfer (.write data)) := by
  cases data with
  | none =>
      refine ⟨h.valid, ?_⟩
      change s.accepted ++ s.ring.queue = q ++ (s.queued ++ [])
      rw [List.append_nil, h.bytes_eq]
  | some data =>
      have hcount : data.take (min data.length (ringbufferWriteable s.ring)) =
          data.take (ringbufferWriteable s.ring) := by
        rw [min_comm, ← List.take_take, List.take_length]
      refine ⟨ringbufferWrite_valid h.valid data, ?_⟩
      change s.accepted ++ (ringbufferWrite s.ring (some data)).ring.queue =
        q ++ (s.queued ++ data.take (ringbufferWrite s.ring (some data)).ret)
      rw [ringbufferWrite_queue h.valid, ringbufferWrite_eq h.valid, hcount, ← List.append_assoc,
        ← List.append_assoc, h.bytes_eq]

theorem Lossless.transfer {τ : Type} {transfer : RingBuffer → τ → List UInt8 × RingBuffer}
    {q : List UInt8} {s : TxHistory} (h : Lossless q s) {args : τ}
    (hover : HandsOver s.ring (transfer s.ring args).1 (transfer s.ring args).2) :
    Lossless q (s.call transfer (.transfer args)) := by
  refine ⟨hover.valid h.valid, ?_⟩
  change s.accepted ++ (transfer s.ring args).1 ++ (transfer s.ring args).2.queue = q ++ s.queued
  rw [List.append_assoc, hover.queue_eq h.valid, h.bytes_eq]

/-! ## Plain sockets -/

structure IoWriteArgs where
  ctx : Option IOContext
  socketIndex : ℤ
  accepted : Option ℕ

def ioTransfer (rb : RingBuffer) (args : IoWriteArgs) : List UInt8 × RingBuffer :=
  let r := ioWrite args.ctx args.socketIndex rb args.accepted
  (r.sent, r.ring)

/-- Over every run of `ringbuffer_write` and `io_write`, whatever `writev` takes, the bytes the
socket has accepted and the queue are the bytes that went into the ring; and the pieces of
the next `io_write` spell out the queue. -/
theorem io_write_lossless (rb : RingBuffer) (h : rb.Valid) (calls : List (TxCall IoWriteArgs)) :
    let s := calls.foldl (TxHistory.call ioTransfer) (.start rb)
    s.accepted ++ s.ring.queue = rb.queue ++ s.queued ∧
      ioOffered s.ring = s.ring.queue ∧ (iovecs s.ring).length ≤ 2 ∧
      ∀ piece ∈ iovecs s.ring, piece.data + piece.len ≤ s.ring.size := by
  have hrun : Lossless rb.queue (calls.foldl (TxHistory.call ioTransfer) (.start rb)) := by
    refine foldl_invariant ?_ (lossless_start h) calls
    intro s call hs
    cases call with
    | write data => exact hs.write data
    | transfer args => exact hs.transfer (ioWrite_handsOver hs.valid _ _ _)
  exact ⟨hrun.bytes_eq, ioOffered_eq_queue hrun.valid, iovecs_inside hrun.valid⟩

/-- Five bytes through a ring of four cells: `writev` takes two bytes of three, and a second
one fails. The rest stays in the ring, in two pieces. -/
theorem io_write_lossless_wrapping :
    let ctx : Option IOContext := some ⟨some fun _ => none, [⟨5, 0⟩]⟩
    let calls : List (TxCall IoWriteArgs) :=
      [.write (some [1, 2, 3]), .transfer ⟨ctx, 0, some 2⟩, .write (some [4, 5]),
        .transfer ⟨ctx, 0, none⟩]
    let s := calls.foldl (TxHistory.call ioTransfer) (.start ⟨fun _ => 0, 4, 0, 0⟩)
    s.accepted = [1, 2] ∧ s.queued = [1, 2, 3, 4, 5] ∧ iovecs s.ring = [⟨2, 2⟩, ⟨0, 1⟩] ∧
      s.accepted ++ s.ring.queue = s.queued := by
  intro ctx calls s
  exact ⟨by decide, by decide, by decide,
    (io_write_lossless ⟨fun _ => 0, 4, 0, 0⟩ ⟨by decide, by decide⟩ calls).1⟩

/-! ## TLS -/

structure SslWriteArgs where
  ctx : Option SSLContext
  answer : TlsAnswer

def sslTransfer (rb : RingBuffer) (args : SslWriteArgs) : List UInt8 × RingBuffer :=
  let r := sslWrite args.ctx rb args.answer
  (r.sent, r.ring)

/-- The transfers of a run are safe. -/
def TxCall.Safe (s : TxHistory) : TxCall SslWriteArgs → Prop
  | .write _ => True
  | .transfer args => ∀ ctx, args.ctx = some ctx → SslWriteSafe ctx s.ring args.answer

/-- For every ring: `ssl_write` offers the queue, as `io_write` does, and releases what was
taken, whatever lies behind the buffer, exactly when it is safe. Over every run of
`ringbuffer_write` and safe `ssl_write` calls, the bytes the TLS layer has accepted and the
queue are the bytes that went into the ring. -/
theorem ssl_write_lossless_iff (ctx : SSLContext) (rb : RingBuffer) (answer : TlsAnswer)
    (h : rb.Valid) (calls : List (TxCall SslWriteArgs)) :
    ((∀ behind,
        let ring := rb.inFrontOf behind
        let r := sslWrite (some ctx) ring answer
        sslOffered ring = ring.queue ∧ sslOffered ring = ioOffered ring ∧
          r.ring.queue = ring.queue.drop r.sent.length) ↔
      SslWriteSafe ctx rb answer) ∧
    (Along (TxHistory.call sslTransfer) TxCall.Safe (.start rb) calls →
      let s := calls.foldl (TxHistory.call sslTransfer) (.start rb)
      s.accepted ++ s.ring.queue = rb.queue ++ s.queued) := by
  have hvalid (behind : ℕ → UInt8) : (rb.inFrontOf behind).Valid := ⟨h.readPtr_lt, h.writePtr_lt⟩
  refine ⟨⟨?_, ?_⟩, ?_⟩
  · intro hall
    exact ⟨(sslOffered_eq_queue_iff h).mp fun behind => (hall behind).1,
      (queue_sslWrite_iff (hvalid _) ctx answer).mp (hall fun _ => 0).2.2⟩
  · intro hsafe behind
    have hoffered := (sslOffered_eq_queue_iff h).mpr hsafe.1 behind
    exact ⟨hoffered, hoffered.trans (ioOffered_eq_queue (hvalid behind)).symm,
      (queue_sslWrite_iff (hvalid behind) ctx answer).mpr hsafe.2⟩
  · intro hcalls
    refine (hcalls.invariant (I := Lossless rb.queue) ?_ (lossless_start h)).bytes_eq
    intro s call hs hcall
    cases call with
    | write data => exact hs.write data
    | transfer args =>
        refine hs.transfer ?_
        obtain ⟨ctx', answer'⟩ := args
        cases ctx' with
        | none => exact .nothing hs.valid
        | some ctx' => exact sslWrite_handsOver hs.valid (hcall ctx' rfl)

/-- One byte of two is taken, then the rest together with a third. -/
theorem ssl_write_lossless_three_bytes :
    let ctx : SSLContext := ⟨.secureTransport, 5, 65536, 0⟩
    let calls : List (TxCall SslWriteArgs) :=
      [.write (some [0x41, 0x42]), .transfer ⟨some ctx, ⟨.noErr, [], 1, false, none⟩⟩,
        .write (some [0x43]), .transfer ⟨some ctx, ⟨.noErr, [], 9, false, none⟩⟩]
    let s := calls.foldl (TxHistory.call sslTransfer) (.start ringbufferInit)
    Along (TxHistory.call sslTransfer) TxCall.Safe (.start ringbufferInit) calls ∧
      s.queued = [0x41, 0x42, 0x43] ∧
      s.accepted ++ s.ring.queue = ringbufferInit.queue ++ s.queued := by
  intro ctx calls s
  have hvalid : ringbufferInit.Valid := ⟨by decide, by decide⟩
  have hsafe : Along (TxHistory.call sslTransfer) TxCall.Safe (.start ringbufferInit) calls := by
    refine ⟨trivial, ?_, trivial, ?_, trivial⟩
    · rintro _ ⟨⟩
      exact ⟨by decide, Or.inr (by decide)⟩
    · rintro _ ⟨⟩
      exact ⟨by decide, Or.inr (by decide)⟩
  exact ⟨hsafe, by decide,
    (ssl_write_lossless_iff ctx ringbufferInit ⟨.noErr, [], 1, false, none⟩ hvalid calls).2 hsafe⟩

/-- A ring of the real size over zeroed memory holds `81 02`, the second byte in its first
cell: `io_write` offers these bytes, `ssl_write` offers `81 00`. And of the bytes `41 42` the
first is taken by a library that reports that it would block: both stay queued. -/
theorem ssl_write_offers_behind_buffer :
    let split := RingBuffer.produce ⟨fun _ => 0, ringbufferSize, ringbufferSize - 1,
      ringbufferSize - 1⟩ [0x81, 0x02]
    let whole := ringbufferInit.produce [0x41, 0x42]
    let blocked := sslWrite (some ⟨.secureTransport, 5, 65536, 0⟩) whole
      ⟨.errSSLWouldBlock, [], 1, false, none⟩
    split.queue = [0x81, 0x02] ∧ ioOffered split = [0x81, 0x02] ∧
      sslOffered split = [0x81, 0x00] ∧
      blocked.sent = [0x41] ∧ blocked.ring.queue = [0x41, 0x42] := by
  decide

/-! ## The transfers of a connection -/

/-- The bytes accepted from the transmit ring. -/
def Event.sentBytes : Event → List UInt8
  | .sent bytes => bytes
  | _ => []

/-- What the transmit ring of a connection has been through. -/
def WebSocket.txHistory (ws : WebSocket) : TxHistory where
  ring := ws.txRing
  queued := (queuedOf ws.trace).flatten
  accepted := ws.trace.flatMap Event.sentBytes

/-- `websocket_send` on a TLS connection makes such calls: it writes the header and the
payload and transfers. -/
theorem websocketSend_txHistory (env : Env) (ws : WebSocket) (h : ws.useSsl = true)
    (data : Option (List UInt8)) (isText : Bool) :
    ∃ calls : List (TxCall SslWriteArgs), (websocketSend env ws data isText).2.txHistory =
      calls.foldl (TxHistory.call sslTransfer) ws.txHistory := by
  have hwrite (ws : WebSocket) (bytes : List UInt8) : (ws.queueTx bytes).2.txHistory =
      ws.txHistory.call sslTransfer (.write (some bytes)) := by
    simp [WebSocket.txHistory, WebSocket.queueTx, WebSocket.record, TxHistory.call, queuedOf,
      Event.queuedBytes?, Event.sentBytes]
  have htransmit (header payload clear : List UInt8) (space : ℕ) (allocated : Bool) :
      (ws.record (.transmit header payload clear space allocated)).txHistory = ws.txHistory := by
    simp [WebSocket.txHistory, WebSocket.record, queuedOf, Event.queuedBytes?, Event.sentBytes]
  have hflush (ws : WebSocket) (h : ws.useSsl = true) : (ws.flush env).txHistory =
      ws.txHistory.call sslTransfer (.transfer ⟨ws.sslCtx, (env ws.tick).tls⟩) := by
    simp [WebSocket.txHistory, WebSocket.flush, WebSocket.writeSsl, WebSocket.record,
      WebSocket.pass, TxHistory.call, sslTransfer, queuedOf, Event.queuedBytes?, Event.sentBytes, h]
  cases data with
  | none => exact ⟨[], rfl⟩
  | some data =>
      unfold websocketSend
      dsimp only
      split_ifs
      · exact ⟨[], rfl⟩
      · refine ⟨[.write (some (sendHeader isText data.length))], ?_⟩
        rw [hwrite, htransmit]
        rfl
      · refine ⟨[.write (some (sendHeader isText data.length)), .write (some data)], ?_⟩
        rw [hwrite, hwrite, htransmit]
        rfl
      · refine ⟨[.write (some (sendHeader isText data.length)), .write (some data),
          .transfer ⟨ws.sslCtx, (env ws.tick).tls⟩], ?_⟩
        dsimp only
        rw [hflush]
        · simp only [List.foldl_cons, List.foldl_nil]
          rw [← htransmit (sendHeader isText data.length) data data (ringbufferWriteable ws.txRing)
            true, ← hwrite, ← hwrite]
          rfl
        · exact h

end WebSocketHft

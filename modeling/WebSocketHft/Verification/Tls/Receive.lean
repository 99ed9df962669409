import WebSocketHft.Model.Ssl
import WebSocketHft.Verification.Ringbuffer.ZeroCopy

/-! # Receiving through TLS

`ssl_read` hands the offered piece of the ring to the TLS library. The bytes the
library reports end up in the queue in one case only: the call succeeded and left
the reserved byte free. -/

namespace WebSocketHft

open WebSocketHft.Memory

/-- How many bytes `ssl_read` asks the library for. -/
def sslRequested (ctx : SSLContext) (rb : RingBuffer) : ℕ :=
  match ctx.backend with
  | .secureTransport => min (ringbufferWriteInline rb).len ctx.readBufSize
  | .openSSL => (ringbufferWriteInline rb).len

theorem sslRequested_le (ctx : SSLContext) (rb : RingBuffer) :
    sslRequested ctx rb ≤ (ringbufferWriteInline rb).len := by
  unfold sslRequested
  cases ctx.backend with
  | secureTransport => exact min_le_left _ _
  | openSSL => exact le_rfl

theorem requested_eq_min (len bufSize : ℕ) :
    (if len < bufSize then len else bufSize) = min len bufSize := by
  rw [min_def]
  split_ifs <;> omega

/-! ## Reads that report nothing -/

/-- A read that stored nothing leaves the queue alone. -/
theorem sslRead_nothing (ctx : SSLContext) (rb : RingBuffer) {answer : TlsAnswer}
    (hnil : answer.bytes = []) : (sslRead (some ctx) rb answer).ring.queue = rb.queue := by
  cases hb : ctx.backend with
  | secureTransport =>
      simp only [sslRead, hb, sslReadSecureTransport, hnil, List.take_nil, List.length_nil, store_nil]
      split_ifs <;> first | rfl | omega
  | openSSL =>
      simp only [sslRead, hb, sslReadOpenSSL, hnil, List.take_nil, List.length_nil, store_nil]
      split_ifs <;> first | rfl | omega

/-! ## Reads that report bytes -/

/-- Success on either backend produces the stored bytes. -/
theorem sslRead_success {ctx : SSLContext} {rb : RingBuffer} (h : rb.Valid) {answer : TlsAnswer}
    (hpos : 0 < answer.bytes.length) (hle : answer.bytes.length ≤ sslRequested ctx rb)
    (hok : ctx.backend = .openSSL ∨ answer.status = .noErr) :
    (sslRead (some ctx) rb answer).ret = answer.bytes.length ∧
      (sslRead (some ctx) rb answer).ring = rb.produce answer.bytes := by
  have hoffer := hle.trans (sslRequested_le ctx rb)
  have hspace : (ringbufferWriteInline rb).len ≠ 0 := by omega
  have hproduce := produce_eq_store (writePtr_add_le h hoffer)
  cases hb : ctx.backend with
  | secureTransport =>
      have hstatus : answer.status = .noErr := hok.resolve_left (by simp [hb])
      have hreq : answer.bytes.length ≤ min (ringbufferWriteInline rb).len ctx.readBufSize := by
        simpa only [sslRequested, hb] using hle
      have htake := List.take_of_length_le hreq
      simp only [sslRead, hb, sslReadSecureTransport, hspace, if_false, requested_eq_min, htake,
        hstatus, hpos, and_self, if_true, writeInline_data]
      exact ⟨trivial, hproduce.symm⟩
  | openSSL =>
      have htake := List.take_of_length_le hoffer
      simp only [sslRead, hb, sslReadOpenSSL, hspace, if_false, htake, hpos, if_true,
        writeInline_data]
      exact ⟨trivial, hproduce.symm⟩

/-- On SecureTransport every other status drops the bytes: the count is not returned. -/
theorem sslRead_dropped {ctx : SSLContext} {rb : RingBuffer} {answer : TlsAnswer}
    (hb : ctx.backend = .secureTransport) (hstatus : answer.status ≠ .noErr) :
    (sslRead (some ctx) rb answer).ret ≤ 0 := by
  simp only [sslRead, hb, sslReadSecureTransport]
  have hnot : ∀ p : Prop, ¬(answer.status = .noErr ∧ p) := fun p hp => hstatus hp.1
  simp only [hnot, if_false]
  split_ifs <;> simp

/-- For every ring, backend and answer of the TLS library: the queue grows by exactly the
reported bytes and their number is returned, if and only if nothing was reported, or the
bytes fit in the writeable space and the call succeeded. -/
theorem ssl_read_lossless_iff (ctx : SSLContext) (rb : RingBuffer) (answer : TlsAnswer)
    (h : rb.Valid) (hle : answer.bytes.length ≤ sslRequested ctx rb) :
    ((sslRead (some ctx) rb answer).ring.queue = rb.queue ++ answer.bytes ∧
        (0 < answer.bytes.length → (sslRead (some ctx) rb answer).ret = answer.bytes.length)) ↔
      answer.bytes.length = 0 ∨
        (answer.bytes.length ≤ ringbufferWriteable rb ∧
          (ctx.backend = .openSSL ∨ answer.status = .noErr)) := by
  rcases Nat.eq_zero_or_pos answer.bytes.length with hzero | hpos
  · have hnil := List.length_eq_zero_iff.mp hzero
    simp [hnil, sslRead_nothing ctx rb hnil]
  · have hoffer := hle.trans (sslRequested_le ctx rb)
    by_cases hok : ctx.backend = .openSSL ∨ answer.status = .noErr
    · obtain ⟨hret, hring⟩ := sslRead_success h hpos hle hok
      have hiff := produce_lossless_iff h hpos hoffer
      rw [hret, hring, hiff]
      simp [hok, hpos.ne']
    · -- the status is none that commits: the return value gives the loss away
      obtain ⟨hopen, hstatus⟩ := not_or.mp hok
      have hb : ctx.backend = .secureTransport := by
        cases hb : ctx.backend with
        | secureTransport => rfl
        | openSSL => exact absurd hb hopen
      have hret : (sslRead (some ctx) rb answer).ret ≤ 0 := sslRead_dropped hb hstatus
      constructor
      · rintro ⟨-, hcount⟩
        have hcount := hcount hpos
        omega
      · rintro (hzero | ⟨-, hok'⟩)
        · omega
        · exact absurd hok' hok

/-- A successful read of two bytes behind a queue of one. -/
theorem ssl_read_lossless_two_bytes :
    (sslRead (some ⟨.secureTransport, 3, 65536, 0⟩) ⟨fun _ => 9, 4, 0, 1⟩
        ⟨.noErr, [1, 2], 0, false, none⟩).ring.queue = [9, 1, 2] :=
  ((ssl_read_lossless_iff ⟨.secureTransport, 3, 65536, 0⟩ ⟨fun _ => 9, 4, 0, 1⟩
    ⟨.noErr, [1, 2], 0, false, none⟩ ⟨by decide, by decide⟩ (by decide)).mpr (by decide)).1

/-- A fresh ring and a read that stores an empty TEXT frame and reports its two bytes
together with `errSSLWouldBlock`: nothing is queued and zero is returned. -/
theorem ssl_read_would_block_drops_bytes :
    (sslRead (some ⟨.secureTransport, 3, 65536, 0⟩) ringbufferInit
        ⟨.errSSLWouldBlock, [0x81, 0x00], 0, false, none⟩).ring.queue = [] ∧
      (sslRead (some ⟨.secureTransport, 3, 65536, 0⟩) ringbufferInit
        ⟨.errSSLWouldBlock, [0x81, 0x00], 0, false, none⟩).ring.queue ≠
          ringbufferInit.queue ++ [0x81, 0x00] ∧
      (sslRead (some ⟨.secureTransport, 3, 65536, 0⟩) ringbufferInit
        ⟨.errSSLWouldBlock, [0x81, 0x00], 0, false, none⟩).ret = 0 := by
  decide

end WebSocketHft

import WebSocketHft.Model.Ringbuffer

/-! # Contracts of the ring operations

Every operation that moves a pointer either produces bytes behind the write
pointer or consumes bytes at the read pointer. The two moves are described once
and the source's operations are instances of them. -/

namespace WebSocketHft

open WebSocketHft.Memory WebSocketHft.Circular

/-! ## Producing and consuming -/

/-- Copies `xs` behind the write pointer and publishes them. -/
def RingBuffer.produce (rb : RingBuffer) (xs : List UInt8) : RingBuffer :=
  { rb with
    buf := circularStore rb.size rb.buf rb.writePtr xs
    writePtr := (rb.writePtr + xs.length) % rb.size }

/-- Releases `n` bytes at the read pointer. -/
def RingBuffer.consume (rb : RingBuffer) (n : ℕ) : RingBuffer :=
  { rb with readPtr := (rb.readPtr + n) % rb.size }

@[simp] theorem produce_writePtr (rb : RingBuffer) (xs : List UInt8) :
    (rb.produce xs).writePtr = (rb.writePtr + xs.length) % rb.size := rfl

theorem readable_eq_distance (rb : RingBuffer) :
    ringbufferReadable rb = distance rb.size rb.readPtr rb.writePtr := rfl

theorem RingBuffer.Valid.readable_lt {rb : RingBuffer} (h : rb.Valid) :
    ringbufferReadable rb < rb.size :=
  distance_lt h.readPtr_lt h.writePtr_lt

@[simp] theorem length_queue (rb : RingBuffer) : rb.queue.length = ringbufferReadable rb := by
  simp [RingBuffer.queue]

theorem spaceAvailable_add_distance {size rp wp : ℕ} (hr : rp < size) (hw : wp < size) :
    spaceAvailable size rp wp + distance size rp wp = size - 1 := by
  simp only [spaceAvailable, distance]
  split_ifs <;> omega

theorem RingBuffer.Valid.writeable_add_readable {rb : RingBuffer} (h : rb.Valid) :
    ringbufferWriteable rb + ringbufferReadable rb = rb.size - 1 :=
  spaceAvailable_add_distance h.readPtr_lt h.writePtr_lt

theorem RingBuffer.Valid.produce {rb : RingBuffer} (h : rb.Valid) (xs : List UInt8) :
    (rb.produce xs).Valid :=
  ⟨h.readPtr_lt, Nat.mod_lt _ (Nat.zero_lt_of_lt h.readPtr_lt)⟩

theorem RingBuffer.Valid.withBuf {rb : RingBuffer} (h : rb.Valid) (buf : ℕ → UInt8) :
    RingBuffer.Valid { rb with buf := buf } :=
  ⟨h.readPtr_lt, h.writePtr_lt⟩

theorem RingBuffer.Valid.consume {rb : RingBuffer} (h : rb.Valid) (n : ℕ) :
    (rb.consume n).Valid :=
  ⟨Nat.mod_lt _ (Nat.zero_lt_of_lt h.readPtr_lt), h.writePtr_lt⟩

theorem readable_produce {rb : RingBuffer} (h : rb.Valid) (xs : List UInt8)
    (hfit : xs.length ≤ ringbufferWriteable rb) :
    ringbufferReadable (rb.produce xs) = ringbufferReadable rb + xs.length := by
  have hsum := h.writeable_add_readable
  have hpos := h.readPtr_lt
  have hlt : distance rb.size rb.readPtr rb.writePtr + xs.length < rb.size := by
    rw [← readable_eq_distance]
    omega
  exact distance_add_right h.readPtr_lt h.writePtr_lt hlt

/-- Producing bytes that fit appends them to the queue. -/
theorem queue_produce {rb : RingBuffer} (h : rb.Valid) (xs : List UInt8)
    (hfit : xs.length ≤ ringbufferWriteable rb) :
    (rb.produce xs).queue = rb.queue ++ xs := by
  have hsum := h.writeable_add_readable
  have hpos := h.readPtr_lt
  have hwp : (rb.readPtr + ringbufferReadable rb) % rb.size = rb.writePtr :=
    add_distance_mod h.readPtr_lt h.writePtr_lt
  have hold : window (circularStore rb.size rb.buf rb.writePtr xs) rb.size rb.readPtr
      (ringbufferReadable rb) = rb.queue := by
    rw [← hwp]
    exact window_circularStore_of_fits rb.buf xs h.readPtr_lt (by omega)
  have hnew : window (circularStore rb.size rb.buf rb.writePtr xs) rb.size
      (rb.readPtr + ringbufferReadable rb) xs.length = xs := by
    rw [← window_mod, hwp]
    exact window_circularStore_self rb.buf xs h.writePtr_lt (by omega)
  unfold RingBuffer.queue at *
  rw [readable_produce h xs hfit, window_add]
  exact congrArg₂ (· ++ ·) hold hnew

theorem readable_consume {rb : RingBuffer} (h : rb.Valid) {n : ℕ}
    (hn : n ≤ ringbufferReadable rb) :
    ringbufferReadable (rb.consume n) = ringbufferReadable rb - n :=
  distance_add_left h.readPtr_lt h.writePtr_lt hn

/-- Consuming readable bytes removes them from the front of the queue. -/
theorem queue_consume {rb : RingBuffer} (h : rb.Valid) {n : ℕ}
    (hn : n ≤ ringbufferReadable rb) : (rb.consume n).queue = rb.queue.drop n := by
  unfold RingBuffer.queue
  rw [readable_consume h hn, window_drop _ _ _ _ _ hn]
  exact window_mod rb.buf rb.size (rb.readPtr + n) _

@[simp] theorem produce_nil {rb : RingBuffer} (h : rb.Valid) : rb.produce [] = rb := by
  simp [RingBuffer.produce, circularStore, h.writePtr_lt.le, Nat.mod_eq_of_lt h.writePtr_lt]

@[simp] theorem consume_zero {rb : RingBuffer} (h : rb.Valid) : rb.consume 0 = rb := by
  simp [RingBuffer.consume, Nat.mod_eq_of_lt h.readPtr_lt]

/-- The read pointer tells whether anything was consumed: the queue is shorter than the ring. -/
theorem readPtr_consume_eq_iff {rb : RingBuffer} (h : rb.Valid) {n : ℕ}
    (hn : n ≤ ringbufferReadable rb) : (rb.consume n).readPtr = rb.readPtr ↔ n = 0 := by
  change (rb.readPtr + n) % rb.size = rb.readPtr ↔ n = 0
  constructor
  · intro heq
    by_contra hne
    have hdiff := add_mod_ne h.readPtr_lt (Nat.pos_of_ne_zero hne) (hn.trans_lt h.readable_lt)
    rw [Nat.add_zero, Nat.mod_eq_of_lt h.readPtr_lt] at hdiff
    exact hdiff heq.symm
  · rintro rfl
    exact Nat.mod_eq_of_lt h.readPtr_lt

/-! ## The source's operations -/

/-- `ringbuffer_write` produces the bytes that fit and returns their number. -/
theorem ringbufferWrite_eq {rb : RingBuffer} (h : rb.Valid) (data : List UInt8) :
    ringbufferWrite rb (some data) =
      ⟨min data.length (ringbufferWriteable rb),
        rb.produce (data.take (ringbufferWriteable rb))⟩ := by
  simp only [ringbufferWrite]
  change (if data.length = 0 then _ else if ringbufferWriteable rb = 0 then _ else _) = _
  by_cases hlen : data.length = 0
  · have hnil : data = [] := List.length_eq_zero_iff.mp hlen
    simp [hnil, h]
  · by_cases hfull : ringbufferWriteable rb = 0
    · simp [hlen, hfull, h]
    · rw [if_neg hlen, if_neg hfull]
      by_cases hlt : data.length < ringbufferWriteable rb
      · have htake : data.take (ringbufferWriteable rb) = data := List.take_of_length_le hlt.le
        have hmin : min data.length (ringbufferWriteable rb) = data.length := by omega
        have hcond : data.length < spaceAvailable rb.size rb.readPtr rb.writePtr := hlt
        simp [hcond, htake, hmin, RingBuffer.produce]
      · have hlen' : (data.take (ringbufferWriteable rb)).length = ringbufferWriteable rb := by
          simp
          omega
        have hmin : min data.length (ringbufferWriteable rb) = ringbufferWriteable rb := by omega
        have hcond : ¬data.length < spaceAvailable rb.size rb.readPtr rb.writePtr := hlt
        simp only [hcond, if_false, RingBuffer.produce, hlen', hmin]
        rfl

/-- `ringbuffer_read` hands out the front of the queue and consumes it. -/
theorem ringbufferRead_eq {rb : RingBuffer} (h : rb.Valid) (len : ℕ) :
    ringbufferRead rb true len =
      ⟨min len (ringbufferReadable rb), rb.queue.take len,
        rb.consume (min len (ringbufferReadable rb))⟩ := by
  have hlt := h.readable_lt
  have htake : ∀ n ≤ ringbufferReadable rb,
      circularLoad rb.size rb.buf rb.readPtr n = rb.queue.take n := by
    intro n hn
    rw [circularLoad_eq_window _ h.readPtr_lt (by omega), RingBuffer.queue,
      window_take _ _ _ _ _ hn]
  simp only [ringbufferRead]
  change (if _ then _ else if ringbufferReadable rb = 0 then _ else _) = _
  by_cases hlen : len = 0
  · simp [hlen, h]
  · by_cases hempty : ringbufferReadable rb = 0
    · have hnil : rb.queue = [] := List.length_eq_zero_iff.mp (by rw [length_queue, hempty])
      simp [hlen, hempty, hnil, h]
    · have hguard : ¬(true = false ∨ len = 0) := by simp [hlen]
      rw [if_neg hguard, if_neg hempty]
      by_cases hlt : len < ringbufferReadable rb
      · have hmin : min len (ringbufferReadable rb) = len := by omega
        have hcond : len < dataAvailable rb.size rb.readPtr rb.writePtr := hlt
        rw [if_pos hcond, hmin, htake len hlt.le]
        rfl
      · have hmin : min len (ringbufferReadable rb) = ringbufferReadable rb := by omega
        have hcond : ¬len < dataAvailable rb.size rb.readPtr rb.writePtr := hlt
        have hall : rb.queue.take len = rb.queue.take (ringbufferReadable rb) := by
          rw [List.take_of_length_le (by simpa using not_lt.mp hlt),
            List.take_of_length_le (by simp)]
        rw [if_neg hcond, hmin, hall, ← htake _ le_rfl]
        rfl

theorem ringbufferRead_null (rb : RingBuffer) (len : ℕ) :
    ringbufferRead rb false len = ⟨0, [], rb⟩ := by
  simp [ringbufferRead]

theorem ringbufferWrite_valid {rb : RingBuffer} (h : rb.Valid) (data : List UInt8) :
    (ringbufferWrite rb (some data)).ring.Valid := by
  rw [ringbufferWrite_eq h]
  exact h.produce _

theorem ringbufferWrite_queue {rb : RingBuffer} (h : rb.Valid) (data : List UInt8) :
    (ringbufferWrite rb (some data)).ring.queue =
      rb.queue ++ data.take (ringbufferWriteable rb) := by
  rw [ringbufferWrite_eq h]
  exact queue_produce h _ (List.length_take_le _ _)

theorem RingBuffer.Valid.reset {rb : RingBuffer} (h : rb.Valid) : (ringbufferReset rb).Valid :=
  ⟨Nat.zero_lt_of_lt h.readPtr_lt, Nat.zero_lt_of_lt h.readPtr_lt⟩

theorem queue_eq_nil_of_ptr_eq {rb : RingBuffer} (h : rb.readPtr = rb.writePtr) :
    rb.queue = [] := by
  have hzero : ringbufferReadable rb = 0 := by
    rw [readable_eq_distance, h, distance_self]
  rw [RingBuffer.queue, hzero, window_zero]

theorem queue_reset (rb : RingBuffer) : (ringbufferReset rb).queue = [] :=
  queue_eq_nil_of_ptr_eq rfl

/-- An unwrapped queue lies in one piece at the read pointer. -/
theorem queue_eq_linear {rb : RingBuffer} (h : rb.Unwrapped) : rb.queue = rb.linear :=
  window_eq_load rb.buf h

end WebSocketHft

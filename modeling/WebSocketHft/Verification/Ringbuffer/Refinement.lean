import WebSocketHft.Shared.Fifo
import WebSocketHft.Verification.Ringbuffer.Equations

/-! # The ring refines a bounded byte queue

A ring of `size` bytes behaves as a queue of capacity `size - 1`: every sequence
of calls gets the same answers, and the bytes between the two pointers are the
elements of the queue at every moment. -/

namespace WebSocketHft

open WebSocketHft.Fifo

/-- One call of the interface, answered by the source's functions. -/
def ringbufferCall (rb : RingBuffer) : Call UInt8 → Reply UInt8 × RingBuffer
  | .write data =>
    (.count (ringbufferWrite rb (some data)).ret, (ringbufferWrite rb (some data)).ring)
  | .read len =>
    (.taken (ringbufferRead rb true len).ret (ringbufferRead rb true len).bytes,
      (ringbufferRead rb true len).ring)
  | .reset => (.done, ringbufferReset rb)
  | .readable => (.count (ringbufferReadable rb), rb)
  | .writeable => (.count (ringbufferWriteable rb), rb)

/-- The ring holds exactly the elements of the queue. -/
structure Represents (size : ℕ) (rb : RingBuffer) (q : BoundedQueue UInt8 (size - 1)) : Prop where
  valid : rb.Valid
  size_eq : rb.size = size
  queue_eq : rb.queue = q.items

theorem Represents.readable_eq {size : ℕ} {rb : RingBuffer} {q : BoundedQueue UInt8 (size - 1)}
    (h : Represents size rb q) : ringbufferReadable rb = q.items.length := by
  rw [← length_queue, h.queue_eq]

theorem Represents.writeable_eq {size : ℕ} {rb : RingBuffer} {q : BoundedQueue UInt8 (size - 1)}
    (h : Represents size rb q) : ringbufferWriteable rb = size - 1 - q.items.length := by
  have hsum := h.valid.writeable_add_readable
  rw [h.readable_eq, h.size_eq] at hsum
  omega

theorem represents_initial (buf : ℕ → UInt8) {size : ℕ} (hsize : 1 ≤ size) :
    Represents size ⟨buf, size, 0, 0⟩ BoundedQueue.empty :=
  ⟨⟨hsize, hsize⟩, rfl, queue_eq_nil_of_ptr_eq rfl⟩

theorem ringbufferCall_answer {size : ℕ} {rb : RingBuffer} {q : BoundedQueue UInt8 (size - 1)}
    (h : Represents size rb q) (c : Call UInt8) : (ringbufferCall rb c).1 = (q.call c).1 := by
  cases c with
  | write data => simp [ringbufferCall, BoundedQueue.call, ringbufferWrite_eq h.valid, h.writeable_eq]
  | read len =>
      simp [ringbufferCall, BoundedQueue.call, ringbufferRead_eq h.valid, h.readable_eq, h.queue_eq]
  | reset => rfl
  | readable => simp [ringbufferCall, BoundedQueue.call, h.readable_eq]
  | writeable => simp [ringbufferCall, BoundedQueue.call, h.writeable_eq]

theorem ringbufferCall_represents {size : ℕ} {rb : RingBuffer} {q : BoundedQueue UInt8 (size - 1)}
    (h : Represents size rb q) (c : Call UInt8) :
    Represents size (ringbufferCall rb c).2 (q.call c).2 := by
  cases c with
  | write data =>
      refine ⟨ringbufferWrite_valid h.valid data, ?_, ?_⟩
      · simpa [ringbufferCall, ringbufferWrite_eq h.valid, RingBuffer.produce] using h.size_eq
      · change (ringbufferWrite rb (some data)).ring.queue = _
        rw [ringbufferWrite_queue h.valid, h.queue_eq, h.writeable_eq]
        rfl
  | read len =>
      have hle : min len (ringbufferReadable rb) ≤ ringbufferReadable rb := min_le_right _ _
      simp only [ringbufferCall, ringbufferRead_eq h.valid]
      refine ⟨h.valid.consume _, h.size_eq, ?_⟩
      rw [queue_consume h.valid hle, h.queue_eq, h.readable_eq]
      change _ = q.items.drop len
      rcases le_total len q.items.length with hlen | hlen
      · rw [min_eq_left hlen]
      · rw [min_eq_right hlen, List.drop_of_length_le hlen, List.drop_of_length_le le_rfl]
  | reset => exact ⟨h.valid.reset, h.size_eq, queue_reset rb⟩
  | readable => exact h
  | writeable => exact h

theorem ringbufferCall_simulation (size : ℕ) :
    Simulation ringbufferCall BoundedQueue.call (Represents size) :=
  ⟨ringbufferCall_answer, ringbufferCall_represents⟩

/-- Every run of calls on a ring of any positive size is a run of the bounded queue. -/
theorem ringbuffer_refines_fifo (buf : ℕ → UInt8) (size : ℕ) (hsize : 1 ≤ size)
    (calls : List (Call UInt8)) :
    let rb := (run ringbufferCall ⟨buf, size, 0, 0⟩ calls).2
    let q := (run BoundedQueue.call (BoundedQueue.empty : BoundedQueue UInt8 (size - 1)) calls).2
    (run ringbufferCall ⟨buf, size, 0, 0⟩ calls).1 =
        (run BoundedQueue.call (BoundedQueue.empty : BoundedQueue UInt8 (size - 1)) calls).1 ∧
      rb.readPtr < size ∧ rb.writePtr < size ∧ rb.queue = q.items ∧
      ringbufferReadable rb = q.items.length ∧
      ringbufferReadable rb + ringbufferWriteable rb = size - 1 := by
  obtain ⟨hanswers, hrep⟩ :=
    (ringbufferCall_simulation size).run (represents_initial buf hsize) calls
  have hsum := hrep.valid.writeable_add_readable
  have hr := hrep.valid.readPtr_lt
  have hw := hrep.valid.writePtr_lt
  rw [hrep.size_eq] at hsum hr hw
  exact ⟨hanswers, hr, hw, hrep.queue_eq, hrep.readable_eq, by omega⟩

/-- Four bytes of ring hold three: the second write wraps and is cut short. -/
theorem ringbuffer_refines_fifo_wrapping :
    (1 ≤ 4) ∧
    (run ringbufferCall ⟨fun _ => 0, 4, 0, 0⟩
        [.write [1, 2, 3, 4], .read 2, .write [5, 6, 7], .readable, .read 9]).1 =
      [.count 3, .taken 2 [1, 2], .count 2, .count 3, .taken 3 [3, 5, 6]] :=
  ⟨by decide, (ringbuffer_refines_fifo (fun _ => 0) 4 (by decide)
    [.write [1, 2, 3, 4], .read 2, .write [5, 6, 7], .readable, .read 9]).1.trans (by decide)⟩

end WebSocketHft

import Mathlib.Data.List.ReduceOption
import WebSocketHft.Verification.Ringbuffer.Equations

/-! # Batch operations

A batch moves its private pointer chunk by chunk and publishes it once. What it
leaves is what one plain write of all bytes, or one plain read for every
destination, leaves. -/

namespace WebSocketHft

open WebSocketHft.Memory WebSocketHft.Circular

/-! ## Writing -/

theorem writeable_produce {rb : RingBuffer} (h : rb.Valid) (xs : List UInt8)
    (hfit : xs.length ≤ ringbufferWriteable rb) :
    ringbufferWriteable (rb.produce xs) = ringbufferWriteable rb - xs.length := by
  have hbefore := h.writeable_add_readable
  have hafter := (h.produce xs).writeable_add_readable
  rw [readable_produce h xs hfit] at hafter
  change _ = rb.size - 1 at hafter
  omega

/-- Two blocks that fit are produced one after the other as one block. -/
theorem produce_produce {rb : RingBuffer} (h : rb.Valid) (xs ys : List UInt8)
    (hfit : xs.length + ys.length ≤ ringbufferWriteable rb) :
    (rb.produce xs).produce ys = rb.produce (xs ++ ys) := by
  have hsum := h.writeable_add_readable
  have hstore := circularStore_append rb.buf xs ys h.writePtr_lt (by omega)
  unfold RingBuffer.produce
  dsimp only
  rw [hstore, Nat.mod_add_mod, List.length_append, Nat.add_assoc]

/-- The bytes of the chunks whose pointer is not `NULL`. -/
def chunkBytes (chunks : List (Option (List UInt8))) : List UInt8 :=
  chunks.reduceOption.flatten

@[simp] theorem chunkBytes_nil : chunkBytes [] = [] := rfl

@[simp] theorem chunkBytes_none (chunks : List (Option (List UInt8))) :
    chunkBytes (none :: chunks) = chunkBytes chunks := by
  rw [chunkBytes, List.reduceOption_cons_of_none, chunkBytes]

@[simp] theorem chunkBytes_some (data : List UInt8) (chunks : List (Option (List UInt8))) :
    chunkBytes (some data :: chunks) = data ++ chunkBytes chunks := by
  rw [chunkBytes, List.reduceOption_cons_of_some, List.flatten_cons, chunkBytes]

/-- The state of the write loop when it has produced what the ring holds. -/
def RingBuffer.written (rb : RingBuffer) (total : ℕ) : BatchState :=
  ⟨rb.buf, rb.writePtr, total⟩

theorem space_written (rb : RingBuffer) (total : ℕ) :
    spaceAvailable rb.size rb.readPtr (rb.written total).ptr = ringbufferWriteable rb := rfl

/-- A chunk is produced as far as it fits. -/
theorem batchWriteLoop_chunk (rb : RingBuffer) {data : List UInt8} (hlen : data.length ≠ 0)
    (hspace : ringbufferWriteable rb ≠ 0) (chunks : List (Option (List UInt8))) (total : ℕ) :
    batchWriteLoop rb.size rb.readPtr (some data :: chunks) (rb.written total) =
      batchWriteLoop rb.size rb.readPtr chunks
        ((rb.produce (data.take (ringbufferWriteable rb))).written
          (total + (data.take (ringbufferWriteable rb)).length)) := by
  have hmin : (if data.length < ringbufferWriteable rb then data.length
      else ringbufferWriteable rb) = (data.take (ringbufferWriteable rb)).length := by
    rw [List.length_take]
    split_ifs <;> omega
  have hcut : data.take (data.take (ringbufferWriteable rb)).length =
      data.take (ringbufferWriteable rb) :=
    (List.prefix_iff_eq_take.mp (List.take_prefix _ data)).symm
  rw [batchWriteLoop, if_neg hlen]
  dsimp only
  rw [space_written, if_neg hspace, hmin, hcut]
  rfl

theorem batchWriteLoop_full {rb : RingBuffer} (hfull : ringbufferWriteable rb = 0)
    (chunks : List (Option (List UInt8))) (total : ℕ) :
    batchWriteLoop rb.size rb.readPtr chunks (rb.written total) = rb.written total := by
  induction chunks with
  | nil => rfl
  | cons chunk chunks ih =>
      cases chunk with
      | none => exact ih
      | some data =>
          rw [batchWriteLoop]
          dsimp only
          rw [space_written, if_pos hfull, ih, ite_self]

/-- A chunk is cut to the free space, and the rest sees what is left of it. -/
theorem take_append_rest (data rest : List UInt8) (space : ℕ) :
    data.take space ++ rest.take (space - (data.take space).length) = (data ++ rest).take space := by
  have hleft : space - (data.take space).length = space - data.length := by
    rw [List.length_take]
    omega
  rw [List.take_append, hleft]

/-- The loop produces the front of all the bytes, as long as the free space. -/
theorem batchWriteLoop_eq {rb : RingBuffer} (h : rb.Valid) (chunks : List (Option (List UInt8)))
    (total : ℕ) :
    batchWriteLoop rb.size rb.readPtr chunks (rb.written total) =
      (rb.produce ((chunkBytes chunks).take (ringbufferWriteable rb))).written
        (total + min (chunkBytes chunks).length (ringbufferWriteable rb)) := by
  induction chunks generalizing rb total with
  | nil => simp [batchWriteLoop, h]
  | cons chunk chunks ih =>
      cases chunk with
      | none =>
          rw [batchWriteLoop, chunkBytes_none]
          exact ih h total
      | some data =>
          rw [chunkBytes_some]
          by_cases hlen : data.length = 0
          · rw [batchWriteLoop, if_pos hlen, List.length_eq_zero_iff.mp hlen, List.nil_append]
            exact ih h total
          · by_cases hfull : ringbufferWriteable rb = 0
            · rw [batchWriteLoop_full hfull, hfull, List.take_zero, produce_nil h, Nat.min_zero,
                Nat.add_zero]
            · have hfits : (data.take (ringbufferWriteable rb)).length ≤ ringbufferWriteable rb :=
                List.length_take_le _ _
              have hrest := ih (h.produce (data.take (ringbufferWriteable rb)))
                (total + (data.take (ringbufferWriteable rb)).length)
              rw [writeable_produce h _ hfits, produce_produce h _ _
                (by simp only [List.length_take]; omega)] at hrest
              have hcount : total + (data.take (ringbufferWriteable rb)).length +
                    min (chunkBytes chunks).length
                      (ringbufferWriteable rb - (data.take (ringbufferWriteable rb)).length) =
                  total + min (data ++ chunkBytes chunks).length (ringbufferWriteable rb) := by
                rw [List.length_take, List.length_append]
                omega
              rw [batchWriteLoop_chunk rb hlen hfull, ← take_append_rest, ← hcount]
              exact hrest

/-- The pointer is published once, and only if something was written. -/
theorem ringbufferBatchWrite_of_loop {rb rb' : RingBuffer} {chunks : List (Option (List UInt8))}
    {total : ℕ} (hloop : batchWriteLoop rb.size rb.readPtr chunks (rb.written 0) = rb'.written total) :
    ringbufferBatchWrite rb chunks =
      ⟨total, { rb with
        buf := rb'.buf
        writePtr := if 0 < total then rb'.writePtr else rb.writePtr }⟩ := by
  unfold ringbufferBatchWrite
  change (let s := batchWriteLoop rb.size rb.readPtr chunks (rb.written 0); WriteResult.mk s.total
    { rb with buf := s.buf, writePtr := if 0 < s.total then s.ptr else rb.writePtr }) = _
  rw [hloop]
  rfl

/-- One plain write of all the bytes leaves the same ring. -/
theorem ringbufferBatchWrite_eq {rb : RingBuffer} (h : rb.Valid)
    (chunks : List (Option (List UInt8))) :
    ringbufferBatchWrite rb chunks = ringbufferWrite rb (some (chunkBytes chunks)) := by
  have hloop := batchWriteLoop_eq h chunks 0
  have hcount : min (chunkBytes chunks).length (ringbufferWriteable rb) =
      ((chunkBytes chunks).take (ringbufferWriteable rb)).length := by
    rw [List.length_take, min_comm]
  rw [Nat.zero_add, hcount] at hloop
  rw [ringbufferBatchWrite_of_loop hloop, ringbufferWrite_eq h, hcount]
  generalize (chunkBytes chunks).take (ringbufferWriteable rb) = bytes
  by_cases hnone : bytes.length = 0
  · rw [List.length_eq_zero_iff.mp hnone, produce_nil h]
    rfl
  · rw [if_pos (Nat.pos_of_ne_zero hnone)]
    rfl

theorem ringbufferBatchWrite_full {rb : RingBuffer} (hfull : ringbufferWriteable rb = 0)
    (chunks : List (Option (List UInt8))) :
    ringbufferBatchWrite rb chunks = ringbufferWrite rb (some (chunkBytes chunks)) := by
  have hspace : spaceAvailable rb.size rb.readPtr rb.writePtr = 0 := hfull
  have hwrite : ringbufferWrite rb (some (chunkBytes chunks)) = ⟨0, rb⟩ := by
    simp [ringbufferWrite, hspace]
  rw [ringbufferBatchWrite_of_loop (batchWriteLoop_full hfull chunks 0), hwrite]
  rfl

/-! ## Reading -/

/-- Plain reads into the destinations that are not `NULL`, one after the other. -/
def successiveReads : RingBuffer → List Destination → BatchReadResult
  | rb, [] => ⟨0, [], rb⟩
  | rb, d :: dests =>
    if d.dest then
      let r := ringbufferRead rb true d.len
      let s := successiveReads r.ring dests
      ⟨r.ret + s.ret, r.bytes :: s.pieces, s.ring⟩
    else
      let s := successiveReads rb dests
      ⟨s.ret, [] :: s.pieces, s.ring⟩

theorem ringbufferRead_zero (rb : RingBuffer) : ringbufferRead rb true 0 = ⟨0, [], rb⟩ := by
  simp [ringbufferRead]

theorem ringbufferRead_empty {rb : RingBuffer} (hempty : ringbufferReadable rb = 0) (len : ℕ) :
    ringbufferRead rb true len = ⟨0, [], rb⟩ := by
  have hnone : dataAvailable rb.size rb.readPtr rb.writePtr = 0 := hempty
  simp [ringbufferRead, hnone]

theorem successiveReads_empty {rb : RingBuffer} (hempty : ringbufferReadable rb = 0)
    (dests : List Destination) :
    successiveReads rb dests = ⟨0, dests.map fun _ => [], rb⟩ := by
  induction dests with
  | nil => rfl
  | cons d dests ih =>
      rw [successiveReads]
      dsimp only
      rw [ringbufferRead_empty hempty, ih]
      split_ifs <;> rfl

/-- The state of the read loop when the ring's read pointer has moved this far. -/
def RingBuffer.released (rb : RingBuffer) (total : ℕ) : BatchState :=
  ⟨rb.buf, rb.readPtr, total⟩

theorem data_released (rb : RingBuffer) (total : ℕ) :
    dataAvailable rb.size (rb.released total).ptr rb.writePtr = ringbufferReadable rb := rfl

/-- What a read takes from a ring that is not empty. -/
def RingBuffer.toRead (rb : RingBuffer) (len : ℕ) : ℕ :=
  if len < ringbufferReadable rb then len else ringbufferReadable rb

theorem ringbufferRead_of_ne {rb : RingBuffer} {len : ℕ} (hlen : len ≠ 0)
    (hsome : ringbufferReadable rb ≠ 0) :
    ringbufferRead rb true len =
      ⟨rb.toRead len, circularLoad rb.size rb.buf rb.readPtr (rb.toRead len),
        rb.consume (rb.toRead len)⟩ := by
  have hguard : ¬(true = false ∨ len = 0) := by simpa using hlen
  unfold ringbufferRead
  rw [if_neg hguard]
  exact if_neg hsome

/-- The loop makes the plain reads, for any ring. -/
theorem batchReadLoop_eq (rb : RingBuffer) (dests : List Destination) (total : ℕ) :
    batchReadLoop rb.size rb.writePtr dests (rb.released total) =
      ((successiveReads rb dests).pieces,
        (successiveReads rb dests).ring.released (total + (successiveReads rb dests).ret)) := by
  induction dests generalizing rb total with
  | nil => rfl
  | cons d dests ih =>
      rw [batchReadLoop]
      dsimp only
      rw [data_released]
      by_cases hskip : d.dest = false ∨ d.len = 0
      · rw [if_pos hskip, ih rb total, successiveReads]
        rcases hskip with hnull | hzero
        · simp [hnull]
        · rw [hzero, ringbufferRead_zero]
          simp
      · have hdest : d.dest = true := by simpa using fun hnull => hskip (Or.inl hnull)
        have hlen : d.len ≠ 0 := fun hzero => hskip (Or.inr hzero)
        rw [if_neg hskip]
        by_cases hempty : ringbufferReadable rb = 0
        · rw [if_pos hempty, successiveReads_empty hempty]
          rfl
        · have hrest := ih (rb.consume (rb.toRead d.len)) (total + rb.toRead d.len)
          rw [if_neg hempty, successiveReads, if_pos hdest, ringbufferRead_of_ne hlen hempty]
          dsimp only
          rw [← Nat.add_assoc]
          exact congrArg
            (fun r => (circularLoad rb.size rb.buf rb.readPtr (rb.toRead d.len) :: r.1, r.2)) hrest

/-- The pieces are consecutive: together with what is left they are what was there. -/
theorem successiveReads_queue {rb : RingBuffer} (h : rb.Valid) (dests : List Destination) :
    (successiveReads rb dests).pieces.flatten ++ (successiveReads rb dests).ring.queue =
        rb.queue ∧
      (successiveReads rb dests).pieces.flatten.length = (successiveReads rb dests).ret := by
  induction dests generalizing rb with
  | nil => exact ⟨rfl, rfl⟩
  | cons d dests ih =>
      rw [successiveReads]
      split_ifs
      · have hle : min d.len (ringbufferReadable rb) ≤ ringbufferReadable rb := min_le_right _ _
        obtain ⟨hqueue, hcount⟩ := ih (h.consume (min d.len (ringbufferReadable rb)))
        have hfront : rb.queue.take d.len = rb.queue.take (min d.len (ringbufferReadable rb)) := by
          rw [← length_queue, ← List.take_take, List.take_length]
        rw [ringbufferRead_eq h]
        dsimp only
        rw [List.flatten_cons, List.append_assoc, hqueue, queue_consume h hle, hfront,
          List.length_append, hcount, List.length_take, length_queue, min_eq_left hle]
        exact ⟨List.take_append_drop _ _, rfl⟩
      · exact ih h

theorem successiveReads_ring (rb : RingBuffer) (dests : List Destination) :
    (successiveReads rb dests).ring =
        { rb with readPtr := (successiveReads rb dests).ring.readPtr } ∧
      ((successiveReads rb dests).ret = 0 → (successiveReads rb dests).ring = rb) := by
  induction dests generalizing rb with
  | nil => exact ⟨rfl, fun _ => rfl⟩
  | cons d dests ih =>
      rw [successiveReads]
      split_ifs
      · by_cases hlen : d.len = 0
        · rw [hlen, ringbufferRead_zero]
          dsimp only
          rw [Nat.zero_add]
          exact ih rb
        · by_cases hempty : ringbufferReadable rb = 0
          · rw [ringbufferRead_empty hempty]
            dsimp only
            rw [Nat.zero_add]
            exact ih rb
          · have hpos : rb.toRead d.len ≠ 0 := by
              unfold RingBuffer.toRead
              split_ifs <;> assumption
            rw [ringbufferRead_of_ne hlen hempty]
            refine ⟨(ih _).1, fun hzero => ?_⟩
            dsimp only at hzero
            omega
      · exact ih rb

/-- Plain reads into the destinations leave the same ring and the same bytes. -/
theorem ringbufferBatchRead_eq (rb : RingBuffer) (dests : List Destination) :
    ringbufferBatchRead rb dests = successiveReads rb dests := by
  have hloop := batchReadLoop_eq rb dests 0
  obtain ⟨hring, hstill⟩ := successiveReads_ring rb dests
  rw [Nat.zero_add] at hloop
  unfold ringbufferBatchRead
  change (let r := batchReadLoop rb.size rb.writePtr dests (rb.released 0);
    BatchReadResult.mk r.2.total r.1
      { rb with readPtr := if 0 < r.2.total then r.2.ptr else rb.readPtr }) = _
  rw [hloop]
  generalize successiveReads rb dests = s at hring hstill ⊢
  obtain ⟨ret, pieces, ring⟩ := s
  dsimp only [RingBuffer.released] at hring hstill ⊢
  by_cases hnone : ret = 0
  · rw [hnone, if_neg (Nat.lt_irrefl 0), hstill hnone]
  · rw [if_pos (Nat.pos_of_ne_zero hnone), ← hring]

/-! ## Both -/

/-- For every ring, initialised or cleaned up: a batch write is one write of all the bytes, and
a batch read is one read for every destination, which receive consecutive pieces. -/
theorem batch_operations_eq_plain (rb : RingBuffer) (h : rb.Valid ∨ rb = ringbufferCleanup)
    (chunks : List (Option (List UInt8))) (dests : List Destination) :
    ringbufferBatchWrite rb chunks = ringbufferWrite rb (some (chunkBytes chunks)) ∧
      ringbufferBatchRead rb dests = successiveReads rb dests ∧
      (ringbufferBatchRead rb dests).pieces.flatten ++ (ringbufferBatchRead rb dests).ring.queue =
        rb.queue := by
  rw [ringbufferBatchRead_eq]
  rcases h with hvalid | hclean
  · exact ⟨ringbufferBatchWrite_eq hvalid chunks, rfl, (successiveReads_queue hvalid dests).1⟩
  · have hempty : ringbufferReadable rb = 0 := by rw [hclean]; rfl
    have hfull : ringbufferWriteable rb = 0 := by rw [hclean]; rfl
    refine ⟨ringbufferBatchWrite_full hfull chunks, rfl, ?_⟩
    rw [successiveReads_empty hempty]
    simp

/-- Both batches cross the end of the ring; the second chunk is cut and the last destination
gets what is left. -/
theorem batch_across_the_end :
    (ringbufferBatchWrite ⟨fun i => UInt8.ofNat i, 8, 6, 2⟩
        [some [10, 11], none, some [], some [12, 13]]).ret = 3 ∧
      (ringbufferBatchRead ⟨fun i => UInt8.ofNat i, 8, 6, 2⟩
        [⟨true, 3⟩, ⟨false, 5⟩, ⟨true, 4⟩]).pieces = [[6, 7, 0], [], [1]] := by
  obtain ⟨hwrite, hread, -⟩ := batch_operations_eq_plain ⟨fun i => UInt8.ofNat i, 8, 6, 2⟩
    (Or.inl ⟨by decide, by decide⟩) [some [10, 11], none, some [], some [12, 13]]
    [⟨true, 3⟩, ⟨false, 5⟩, ⟨true, 4⟩]
  rw [hwrite, hread]
  exact ⟨by decide, by decide⟩

end WebSocketHft

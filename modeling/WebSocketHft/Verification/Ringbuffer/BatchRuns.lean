import WebSocketHft.Model.SpscBatch
import WebSocketHft.Verification.Ringbuffer.Interleaving

/-! # Undisturbed batches

If the other thread makes no step, the steps of a batch compute what the functions
`ringbuffer_batch_write` and `ringbuffer_batch_read` compute. -/

namespace WebSocketHft.SpscBatch

open WebSocketHft WebSocketHft.Circular
open Relation (ReflTransGen)

variable {s : State} {size rp wp n : ℕ} {data : List UInt8}

/-! ## Writing -/

/-- The state with another memory of the ring and another place in the batch. -/
def State.writing (s : State) (buf : ℕ → UInt8) (w : Writer) : State :=
  { s with base := { s.base with ring := { s.base.ring with buf := buf } }, writer := w }

theorem circularStore_singleton (m : ℕ → UInt8) (b : UInt8) {cell : ℕ} (hcell : cell < size) :
    circularStore size m cell [b] = Function.update m cell b := by
  have hfits : cell + [b].length ≤ size := hcell
  unfold circularStore
  rw [if_pos hfits, Memory.store_singleton]

theorem update_circularStore (buf : ℕ → UInt8) (hwp : wp < size) (hn : n ≤ size) {i : ℕ}
    (hi : i < n) {b : UInt8} (hb : data[i]? = some b) :
    Function.update (circularStore size buf wp (data.take i)) (Spsc.copyCell size wp n i) b =
      circularStore size buf wp (data.take (i + 1)) := by
  obtain ⟨hlt, hget⟩ := List.getElem?_eq_some_iff.mp hb
  have hlen : (data.take i).length = i := List.length_take_of_le hlt.le
  have hcell : Spsc.copyCell size wp n i = (wp + (data.take i).length) % size := by
    rw [hlen, Spsc.copyCell_eq_mod hwp hn hi]
  have hfits : (data.take i).length + [b].length ≤ size := by
    rw [hlen, List.length_singleton]
    omega
  rw [hcell, ← circularStore_singleton _ _ (Nat.mod_lt _ (by omega)),
    circularStore_append buf _ _ hwp hfits, List.take_succ_eq_append_getElem hlt, hget]

/-- The bytes of one chunk, copied one by one. -/
theorem writeBytes_run (s : State) (buf : ℕ → UInt8) (hwp : wp < s.base.ring.size)
    (hn : n ≤ s.base.ring.size) (hdata : n ≤ data.length) (rp : ℕ)
    (chunks : List (Option (List UInt8))) (written : List UInt8) {i : ℕ} (hi : i ≤ n) :
    ReflTransGen WriteStep (s.writing buf (.copying data n 0 chunks rp wp written))
      (s.writing (circularStore s.base.ring.size buf wp (data.take i))
        (.copying data n i chunks rp wp written)) := by
  induction i with
  | zero =>
      have hnone : circularStore s.base.ring.size buf wp (data.take 0) = buf := by
        simp [circularStore, hwp.le]
      rw [hnone]
  | succ i ih =>
      have hb : data[i]? = some data[i] := List.getElem?_eq_getElem (by omega)
      have hstep (buf : ℕ → UInt8) : WriteStep (s.writing buf (.copying data n i chunks rp wp written))
          (s.writing (Function.update buf (Spsc.copyCell s.base.ring.size wp n i) data[i])
            (.copying data n (i + 1) chunks rp wp written)) :=
        .byte _ data n i _ chunks rp wp written rfl hi hb
      rw [← update_circularStore buf hwp hn hi hb]
      exact (ih (by omega)).tail (hstep _)

/-- The loop over the chunks. -/
theorem writeLoop_run (s : State) (hrp : rp < s.base.ring.size)
    (chunks : List (Option (List UInt8))) (b : BatchState) (hptr : b.ptr < s.base.ring.size)
    (written : List UInt8) (htotal : written.length = b.total) :
    ∃ written', written'.length = (batchWriteLoop s.base.ring.size rp chunks b).total ∧
      ReflTransGen WriteStep (s.writing b.buf (.looping chunks rp b.ptr written))
        (s.writing (batchWriteLoop s.base.ring.size rp chunks b).buf
          (.looping [] rp (batchWriteLoop s.base.ring.size rp chunks b).ptr written')) := by
  induction chunks generalizing b written with
  | nil => exact ⟨written, htotal, .refl⟩
  | cons chunk chunks ih =>
      by_cases hskip : skipsChunk chunk
      · have hloop : batchWriteLoop s.base.ring.size rp (chunk :: chunks) b =
            batchWriteLoop s.base.ring.size rp chunks b := by
          cases chunk with
          | none => rfl
          | some data => exact if_pos (by simpa [skipsChunk] using hskip)
        obtain ⟨written', hlen, hrun⟩ := ih b hptr written htotal
        rw [hloop]
        exact ⟨written', hlen, .head (.skip _ chunk chunks rp b.ptr written rfl hskip) hrun⟩
      · cases chunk with
        | none => exact absurd rfl hskip
        | some data =>
            have hlen : data.length ≠ 0 := by simpa [skipsChunk] using hskip
            by_cases hfull : spaceAvailable s.base.ring.size rp b.ptr = 0
            · have hloop : batchWriteLoop s.base.ring.size rp (some data :: chunks) b = b := by
                rw [batchWriteLoop, if_neg hlen]
                exact if_pos hfull
              rw [hloop]
              exact ⟨written, htotal, .single (.full _ data chunks rp b.ptr written rfl hlen hfull)⟩
            · have hspace := spaceAvailable_add_distance hrp hptr
              obtain ⟨n, hn⟩ : ∃ n, n = min data.length (spaceAvailable s.base.ring.size rp b.ptr) :=
                ⟨_, rfl⟩
              have htaken : (data.take n).length = n := List.length_take_of_le (by omega)
              have hfirst : WriteStep (s.writing b.buf (.looping (some data :: chunks) rp b.ptr written))
                  (s.writing b.buf (.copying data n 0 chunks rp b.ptr written)) := by
                rw [hn]
                exact .chunk (s.writing b.buf _) data chunks rp b.ptr written rfl hlen hfull
              have hdata : n ≤ data.length := by omega
              have hbytes := writeBytes_run s b.buf hptr (by omega) hdata rp chunks written
                (le_refl n)
              have hlast (buf : ℕ → UInt8) :
                  WriteStep (s.writing buf (.copying data n n chunks rp b.ptr written))
                    (s.writing buf (.looping chunks rp ((b.ptr + n) % s.base.ring.size)
                      (written ++ data.take n))) :=
                .next _ data n chunks rp b.ptr written rfl
              obtain ⟨written', hlen', hrun⟩ := ih
                ⟨circularStore s.base.ring.size b.buf b.ptr (data.take n),
                  (b.ptr + n) % s.base.ring.size, b.total + n⟩ (Nat.mod_lt _ (by omega))
                (written ++ data.take n) (by rw [List.length_append, htotal, htaken])
              have hloop : batchWriteLoop s.base.ring.size rp (some data :: chunks) b =
                  batchWriteLoop s.base.ring.size rp chunks
                    ⟨circularStore s.base.ring.size b.buf b.ptr (data.take n),
                      (b.ptr + n) % s.base.ring.size, b.total + n⟩ := by
                rw [batchWriteLoop, if_neg hlen, hn, min_def_lt]
                exact if_neg hfull
              rw [hloop]
              exact ⟨written', hlen', .head hfirst (hbytes.trans (.head (hlast _) hrun))⟩

/-- The steps of a batch of writes without a step of the consumer between them compute
`ringbuffer_batch_write`. -/
theorem ringbufferBatchWrite_run (s : State) (hring : s.base.ring.Valid) (hw : s.writer = .idle)
    (hp : s.base.producer = .idle) (chunks : List (Option (List UInt8))) :
    ∃ written, written.length = (ringbufferBatchWrite s.base.ring chunks).ret ∧
      ReflTransGen WriteStep s { s with base := { s.base with
        ring := (ringbufferBatchWrite s.base.ring chunks).ring
        published := s.base.published ++ written
        accepted := s.base.accepted ++ written } } := by
  obtain ⟨base, writer, reader⟩ := s
  subst hw
  have hcall : WriteStep ⟨base, .idle, reader⟩ ⟨base, .called chunks, reader⟩ :=
    .call _ chunks rfl hp
  by_cases hcount : chunks.length = 0
  · obtain rfl := List.eq_nil_of_length_eq_zero hcount
    have hreturn : WriteStep ⟨base, .called [], reader⟩ ⟨base, .idle, reader⟩ := .nothing _ rfl
    refine ⟨[], rfl, ?_⟩
    rw [List.append_nil, List.append_nil]
    exact .tail (.single hcall) hreturn
  · have hread : WriteStep ⟨base, .called chunks, reader⟩
        ⟨base, .loadedRead chunks base.ring.readPtr, reader⟩ := .loadRead _ chunks rfl hcount
    have hwrite : WriteStep ⟨base, .loadedRead chunks base.ring.readPtr, reader⟩
        ⟨base, .looping chunks base.ring.readPtr base.ring.writePtr [], reader⟩ :=
      .loadWrite _ chunks _ rfl
    obtain ⟨written, hlen, hrun⟩ := writeLoop_run ⟨base, .idle, reader⟩ hring.readPtr_lt chunks
      ⟨base.ring.buf, base.ring.writePtr, 0⟩ hring.writePtr_lt [] rfl
    have hloop := ((ReflTransGen.single hcall).tail hread).tail hwrite |>.trans hrun
    refine ⟨written, hlen, ?_⟩
    by_cases htotal : 0 < written.length
    · have hpublish := hloop.tail (.publish _ _ _ written rfl htotal)
      have hreturn := hpublish.tail (.finish _ written rfl)
      unfold ringbufferBatchWrite
      rw [hlen] at htotal
      simp only [if_pos htotal]
      exact hreturn
    · obtain rfl : written = [] := List.eq_nil_of_length_eq_zero (by omega)
      have hreturn := hloop.tail (.finishNothing _ _ _ rfl)
      unfold ringbufferBatchWrite
      rw [hlen] at htotal
      simp only [if_neg htotal, List.append_nil]
      exact hreturn

/-! ## Reading -/

/-- The state at another place in the batch, with other bytes copied so far. -/
def State.reading (s : State) (copied : List UInt8) (r : Reader) : State :=
  { s with base := { s.base with copied := copied }, reader := r }

/-- The bytes for one destination, copied one by one. -/
theorem readBytes_run (s : State) (copied : List UInt8) (hrp : rp < s.base.ring.size)
    (hn : n ≤ s.base.ring.size) (dests : List Destination) (wp : ℕ) (out : List UInt8) {i : ℕ}
    (hi : i ≤ n) :
    ReflTransGen ReadStep (s.reading copied (.copying n [] dests wp rp out))
      (s.reading (copied ++ window s.base.ring.buf s.base.ring.size rp i)
        (.copying n (window s.base.ring.buf s.base.ring.size rp i) dests wp rp out)) := by
  induction i with
  | zero =>
      rw [window_zero, List.append_nil]
  | succ i ih =>
      obtain ⟨piece, hpiece⟩ : ∃ piece, piece = window s.base.ring.buf s.base.ring.size rp i :=
        ⟨_, rfl⟩
      have hlen : piece.length = i := by rw [hpiece, window_length]
      have hnext : window s.base.ring.buf s.base.ring.size rp (i + 1) =
          piece ++ [s.base.ring.buf (Spsc.copyCell s.base.ring.size rp n piece.length)] := by
        rw [window_add, ← hpiece, hlen, Spsc.copyCell_eq_mod hrp hn hi]
        simp [window]
      have hstep (copied : List UInt8) :
          ReadStep (s.reading copied (.copying n piece dests wp rp out))
            (s.reading (copied ++ [s.base.ring.buf (Spsc.copyCell s.base.ring.size rp n piece.length)])
              (.copying n
                (piece ++ [s.base.ring.buf (Spsc.copyCell s.base.ring.size rp n piece.length)])
                dests wp rp out)) :=
        .byte _ n piece dests wp rp out rfl (by omega)
      have hbefore := ih (by omega)
      rw [← hpiece] at hbefore
      rw [hnext, ← List.append_assoc]
      exact hbefore.tail (hstep _)

/-- The loop over the destinations. -/
theorem readLoop_run (s : State) (hwp : wp < s.base.ring.size) (dests : List Destination)
    (b : BatchState) (hbuf : b.buf = s.base.ring.buf) (hptr : b.ptr < s.base.ring.size)
    (copied out : List UInt8) (htotal : out.length = b.total) :
    let r := batchReadLoop s.base.ring.size wp dests b
    (out ++ r.1.flatten).length = r.2.total ∧
      ReflTransGen ReadStep (s.reading copied (.looping dests wp b.ptr out))
        (s.reading (copied ++ r.1.flatten) (.looping [] wp r.2.ptr (out ++ r.1.flatten))) := by
  induction dests generalizing b copied out with
  | nil =>
      simp only [batchReadLoop, List.flatten_nil, List.append_nil]
      exact ⟨htotal, .refl⟩
  | cons d dests ih =>
      by_cases hskip : skipsDestination d
      · have hloop : batchReadLoop s.base.ring.size wp (d :: dests) b =
            ([] :: (batchReadLoop s.base.ring.size wp dests b).1,
              (batchReadLoop s.base.ring.size wp dests b).2) :=
          if_pos (of_decide_eq_true hskip)
        obtain ⟨hlen, hrun⟩ := ih b hbuf hptr copied out htotal
        rw [hloop]
        exact ⟨hlen, .head (.skip _ d dests wp b.ptr out rfl hskip) hrun⟩
      · have hdest : ¬(d.dest = false ∨ d.len = 0) := fun h => hskip (decide_eq_true h)
        by_cases hempty : dataAvailable s.base.ring.size b.ptr wp = 0
        · have hloop : batchReadLoop s.base.ring.size wp (d :: dests) b =
              ((d :: dests).map fun _ => [], b) := by
            rw [batchReadLoop, if_neg hdest]
            exact if_pos hempty
          have hnone : ((d :: dests).map fun _ => ([] : List UInt8)).flatten = [] := by simp
          rw [hloop]
          simp only [hnone, List.append_nil]
          exact ⟨htotal, .single (.empty _ d dests wp b.ptr out rfl (Bool.eq_false_of_not_eq_true hskip)
            hempty)⟩
        · have hdata : dataAvailable s.base.ring.size b.ptr wp < s.base.ring.size :=
            distance_lt hptr hwp
          obtain ⟨n, hn⟩ : ∃ n, n = min d.len (dataAvailable s.base.ring.size b.ptr wp) := ⟨_, rfl⟩
          obtain ⟨piece, hpiece⟩ : ∃ piece, piece =
              window s.base.ring.buf s.base.ring.size b.ptr n := ⟨_, rfl⟩
          have hlen : piece.length = n := by rw [hpiece, window_length]
          have hfirst : ReadStep (s.reading copied (.looping (d :: dests) wp b.ptr out))
              (s.reading copied (.copying n [] dests wp b.ptr out)) := by
            rw [hn]
            exact .chunk (s.reading copied _) d dests wp b.ptr out rfl
              (Bool.eq_false_of_not_eq_true hskip) hempty
          have hbytes := readBytes_run s copied hptr (by omega) dests wp out (le_refl n)
          rw [← hpiece] at hbytes
          have hlast : ReadStep (s.reading (copied ++ piece) (.copying n piece dests wp b.ptr out))
              (s.reading (copied ++ piece) (.looping dests wp ((b.ptr + n) % s.base.ring.size)
                (out ++ piece))) :=
            .next _ n piece dests wp b.ptr out rfl hlen
          obtain ⟨hlen', hrun⟩ := ih { b with ptr := (b.ptr + n) % s.base.ring.size, total := b.total + n }
            hbuf (Nat.mod_lt _ (by omega)) (copied ++ piece) (out ++ piece)
            (by rw [List.length_append, htotal, hlen])
          have hloop : batchReadLoop s.base.ring.size wp (d :: dests) b =
              (piece :: (batchReadLoop s.base.ring.size wp dests
                { b with ptr := (b.ptr + n) % s.base.ring.size, total := b.total + n }).1,
                (batchReadLoop s.base.ring.size wp dests
                  { b with ptr := (b.ptr + n) % s.base.ring.size, total := b.total + n }).2) := by
            rw [batchReadLoop, if_neg hdest, hpiece, ← hbuf,
              ← circularLoad_eq_window b.buf hptr (by omega), hn, min_def_lt]
            exact if_neg hempty
          rw [hloop]
          simp only [List.flatten_cons, ← List.append_assoc]
          exact ⟨hlen', .head hfirst (hbytes.trans (.head hlast hrun))⟩

/-- The steps of a batch of reads without a step of the producer between them compute
`ringbuffer_batch_read`. -/
theorem ringbufferBatchRead_run (s : State) (hring : s.base.ring.Valid) (hr : s.reader = .idle)
    (hc : s.base.consumer = .idle) (dests : List Destination) :
    let r := ringbufferBatchRead s.base.ring dests
    r.pieces.flatten.length = r.ret ∧
      ReflTransGen ReadStep s { s with base := { s.base with
        ring := r.ring
        copied := s.base.copied ++ r.pieces.flatten
        released := s.base.released ++ r.pieces.flatten
        returned := s.base.returned ++ r.pieces.flatten } } := by
  obtain ⟨base, writer, reader⟩ := s
  subst hr
  have hcall : ReadStep ⟨base, writer, .idle⟩ ⟨base, writer, .called dests⟩ :=
    .call _ dests rfl hc
  by_cases hcount : dests.length = 0
  · obtain rfl := List.eq_nil_of_length_eq_zero hcount
    have hreturn : ReadStep ⟨base, writer, .called []⟩ ⟨base, writer, .idle⟩ := .nothing _ rfl
    refine ⟨rfl, ?_⟩
    simp only [ringbufferBatchRead, batchReadLoop, List.flatten_nil, List.append_nil]
    exact .tail (.single hcall) hreturn
  · have hwrite : ReadStep ⟨base, writer, .called dests⟩
        ⟨base, writer, .loadedWrite dests base.ring.writePtr⟩ := .loadWrite _ dests rfl hcount
    have hread : ReadStep ⟨base, writer, .loadedWrite dests base.ring.writePtr⟩
        ⟨base, writer, .looping dests base.ring.writePtr base.ring.readPtr []⟩ :=
      .loadRead _ dests _ rfl
    obtain ⟨hlen, hrun⟩ := readLoop_run ⟨base, writer, .idle⟩ hring.writePtr_lt dests
      ⟨base.ring.buf, base.ring.readPtr, 0⟩ rfl hring.readPtr_lt base.copied [] rfl
    have hloop := ((ReflTransGen.single hcall).tail hwrite).tail hread |>.trans hrun
    simp only [List.nil_append] at hlen hloop
    refine ⟨hlen, ?_⟩
    unfold ringbufferBatchRead
    generalize batchReadLoop base.ring.size base.ring.writePtr dests
      ⟨base.ring.buf, base.ring.readPtr, 0⟩ = r at hlen hloop ⊢
    by_cases htotal : 0 < r.2.total
    · have hrelease := hloop.tail (.release _ _ _ _ rfl (hlen ▸ htotal))
      have hreturn := hrelease.tail (.finish _ _ rfl)
      simp only [if_pos htotal]
      exact hreturn
    · have hnone : r.1.flatten = [] := List.eq_nil_of_length_eq_zero (by omega)
      rw [hnone] at hloop
      have hreturn := hloop.tail (.finishNothing _ _ _ rfl)
      simp only [if_neg htotal, hnone, List.append_nil] at hreturn ⊢
      exact hreturn

end WebSocketHft.SpscBatch

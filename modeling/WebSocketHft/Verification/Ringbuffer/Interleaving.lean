import WebSocketHft.Model.Spsc
import WebSocketHft.Verification.Ringbuffer.Equations
import Mathlib.Logic.Relation

/-! # Safety of one producer and one consumer

Each side decides from a copy of the other side's pointer that may be out of date.
The invariant counts positions absolutely: the bytes published and released so far.
A stale copy of a pointer is the position the other side had reached at some earlier
moment, so the space or data computed from it is never more than there really is. -/

namespace WebSocketHft.Spsc

open WebSocketHft WebSocketHft.Circular

/-! ## Cells and stale pointers -/

theorem copyCell_eq_mod {size start n i : ℕ} (hs : start < size) (hn : n ≤ size) (hi : i < n) :
    copyCell size start n i = (start + i) % size := by
  rw [add_mod_eq_ite hs (by omega)]
  unfold copyCell
  split_ifs <;> omega

/-- The space computed from positions less than one lap apart is exact. -/
theorem spaceAvailable_mod {size a d : ℕ} (hd : d < size) :
    spaceAvailable size (a % size) ((a + d) % size) = size - 1 - d := by
  have hpos : 0 < size := by omega
  have h := spaceAvailable_add_distance (Nat.mod_lt a hpos) (Nat.mod_lt (a + d) hpos)
  rw [distance_mod hd] at h
  omega

theorem prefix_concat {α : Type*} {xs ys : List α} {b : α} (h : xs <+: ys)
    (hb : ys[xs.length]? = some b) : xs ++ [b] <+: ys := by
  obtain ⟨t, rfl⟩ := h
  cases t with
  | nil => simp at hb
  | cons c t =>
      simp only [List.getElem?_append_right le_rfl, Nat.sub_self, List.getElem?_cons_zero,
        Option.some.injEq] at hb
      subst c
      exact ⟨t, by simp⟩

/-! ## The invariant -/

/-- What holds of the producer at each point of a call. A loaded read pointer is the
position `r` the consumer had released at that moment. -/
def ProducerOk (size releasedLen : ℕ) (buf : ℕ → UInt8) (accepted published : List UInt8) :
    Producer → Prop
  | .idle => accepted = published
  | .called _ => accepted = published
  | .loadedRead _ rp =>
    accepted = published ∧ ∃ r ≤ releasedLen, r ≤ published.length ∧ rp = r % size ∧
      published.length < r + size
  | .copying data wp n i =>
    accepted = published ∧ wp = published.length % size ∧ i ≤ n ∧ n ≤ data.length ∧
      published.length + n < releasedLen + size ∧
      ∀ t < i, some (buf ((published.length + t) % size)) = data[t]?
  | .published data n => published = accepted ++ data.take n

/-- What holds of the consumer at each point of a call. A loaded write pointer is the
position `p` the producer had published at that moment. -/
def ConsumerOk (size publishedLen : ℕ) (copied released returned : List UInt8) :
    Consumer → Prop
  | .idle => copied = released ∧ returned = released
  | .called _ => copied = released ∧ returned = released
  | .loadedWrite _ wp =>
    copied = released ∧ returned = released ∧ ∃ p ≤ publishedLen, released.length ≤ p ∧
      wp = p % size ∧ p < released.length + size
  | .copying rp n out =>
    copied = released ++ out ∧ returned = released ∧ rp = released.length % size ∧
      out.length ≤ n ∧ n < size ∧ released.length + n ≤ publishedLen
  | .released out => copied = released ∧ released = returned ++ out

structure Inv (size : ℕ) (s : State) : Prop where
  size_pos : 0 < size
  size_eq : s.ring.size = size
  writePtr_eq : s.ring.writePtr = s.published.length % size
  readPtr_eq : s.ring.readPtr = s.released.length % size
  released_le : s.released.length ≤ s.published.length
  fits : s.published.length < s.released.length + size
  cells : ∀ j, s.released.length ≤ j → j < s.published.length →
    some (s.ring.buf (j % size)) = s.published[j]?
  copied_prefix : s.copied <+: s.published
  producer : ProducerOk size s.released.length s.ring.buf s.accepted s.published s.producer
  consumer : ConsumerOk size s.published.length s.copied s.released s.returned s.consumer

theorem inv_initial (buf : ℕ → UInt8) {size : ℕ} (hsize : 1 ≤ size) :
    Inv size (State.initial buf size) where
  size_pos := hsize
  size_eq := rfl
  writePtr_eq := by simp [State.initial]
  readPtr_eq := by simp [State.initial]
  released_le := le_rfl
  fits := by
    simp only [State.initial, List.length_nil]
    omega
  cells j _ hj := by simp [State.initial] at hj
  copied_prefix := List.prefix_rfl
  producer := rfl
  consumer := ⟨rfl, rfl⟩

/-- Releasing more bytes only helps the producer. -/
theorem ProducerOk.mono {size r r' : ℕ} {buf : ℕ → UInt8} {accepted published : List UInt8}
    {p : Producer} (h : ProducerOk size r buf accepted published p) (hr : r ≤ r') :
    ProducerOk size r' buf accepted published p := by
  cases p with
  | idle => exact h
  | called data => exact h
  | loadedRead data rp =>
      obtain ⟨hacc, r₀, hle, hpub, hrp, hlap⟩ := h
      exact ⟨hacc, r₀, hle.trans hr, hpub, hrp, hlap⟩
  | copying data wp n i =>
      obtain ⟨hacc, hwp, hi, hn, hfit, hbytes⟩ := h
      exact ⟨hacc, hwp, hi, hn, by omega, hbytes⟩
  | published data n => exact h

/-- Publishing more bytes only helps the consumer. -/
theorem ConsumerOk.mono {size p p' : ℕ} {copied released returned : List UInt8}
    {c : Consumer} (h : ConsumerOk size p copied released returned c) (hp : p ≤ p') :
    ConsumerOk size p' copied released returned c := by
  cases c with
  | idle => exact h
  | called len => exact h
  | loadedWrite len wp =>
      obtain ⟨hcop, hret, p₀, hle, hrel, hwp, hlap⟩ := h
      exact ⟨hcop, hret, p₀, hle.trans hp, hrel, hwp, hlap⟩
  | copying rp n out =>
      obtain ⟨hcop, hret, hrp, hout, hn, hle⟩ := h
      exact ⟨hcop, hret, hrp, hout, hn, hle.trans hp⟩
  | released out => exact h

/-! ## Steps of the producer -/

theorem inv_setProducer {size : ℕ} {s : State} (h : Inv size s) {p : Producer}
    (hp : ProducerOk size s.released.length s.ring.buf s.accepted s.published p) :
    Inv size { s with producer := p } :=
  { h with producer := hp }

theorem producer_loadRead {size : ℕ} {s : State} (h : Inv size s) {data : List UInt8}
    (hp : s.producer = .called data) :
    ProducerOk size s.released.length s.ring.buf s.accepted s.published
      (.loadedRead data s.ring.readPtr) := by
  have hok := h.producer
  rw [hp] at hok
  exact ⟨hok, _, le_rfl, h.released_le, h.readPtr_eq, h.fits⟩

/-- From a stale read pointer the producer computes no more space than there is. -/
theorem producer_loadWrite {size : ℕ} {s : State} (h : Inv size s) {data : List UInt8} {rp : ℕ}
    (hp : s.producer = .loadedRead data rp) :
    ProducerOk size s.released.length s.ring.buf s.accepted s.published
      (.copying data s.ring.writePtr
        (min data.length (spaceAvailable s.ring.size rp s.ring.writePtr)) 0) := by
  have hok := h.producer
  rw [hp] at hok
  obtain ⟨hacc, r, hr, hpub, hrp, hlap⟩ := hok
  obtain ⟨d, hd⟩ := Nat.exists_eq_add_of_le hpub
  have hspace : spaceAvailable s.ring.size rp s.ring.writePtr = size - 1 - d := by
    rw [h.size_eq, h.writePtr_eq, hrp, hd]
    exact spaceAvailable_mod (by omega)
  rw [hspace]
  have hpos := h.size_pos
  refine ⟨hacc, h.writePtr_eq, Nat.zero_le _, min_le_left _ _, by omega, ?_⟩
  intro t ht
  exact absurd ht (Nat.not_lt_zero t)

/-- The cell a copying producer stores into lies behind every published byte. -/
theorem nextStore_eq {size : ℕ} {s : State} (h : Inv size s) {c : ℕ}
    (hc : s.producer.nextStore s.ring.size = some c) :
    ∃ k, s.published.length ≤ k ∧ k < s.released.length + size ∧ c = k % size := by
  have hok := h.producer
  cases hp : s.producer with
  | copying data wp n i =>
      rw [hp] at hok hc
      obtain ⟨hacc, hwp, hi, hn, hfit, hbytes⟩ := hok
      simp only [Producer.nextStore, Option.ite_none_right_eq_some, Option.some.injEq] at hc
      obtain ⟨hlt, rfl⟩ := hc
      have hle := h.released_le
      have hwpLt : wp < size := hwp ▸ Nat.mod_lt _ h.size_pos
      refine ⟨s.published.length + i, by omega, by omega, ?_⟩
      rw [h.size_eq, copyCell_eq_mod hwpLt (by omega) hlt, hwp, Nat.mod_add_mod]
  | idle => simp [hp, Producer.nextStore] at hc
  | called data => simp [hp, Producer.nextStore] at hc
  | loadedRead data rp => simp [hp, Producer.nextStore] at hc
  | published data n => simp [hp, Producer.nextStore] at hc

theorem inv_writeByte {size : ℕ} {s : State} (h : Inv size s) {data : List UInt8}
    {wp n i : ℕ} {b : UInt8} (hp : s.producer = .copying data wp n i) (hi : i < n)
    (hb : data[i]? = some b) :
    Inv size { s with
      ring := { s.ring with buf := Function.update s.ring.buf (copyCell s.ring.size wp n i) b }
      producer := .copying data wp n (i + 1) } := by
  have hok := h.producer
  rw [hp] at hok
  obtain ⟨hacc, hwp, hin, hn, hfit, hbytes⟩ := hok
  have hle := h.released_le
  have hwpLt : wp < size := hwp ▸ Nat.mod_lt _ h.size_pos
  have hcell : copyCell s.ring.size wp n i = (s.published.length + i) % size := by
    rw [h.size_eq, copyCell_eq_mod hwpLt (by omega) hi, hwp, Nat.mod_add_mod]
  rw [hcell]
  refine { h with cells := ?_, producer := ⟨hacc, hwp, hi, hn, hfit, ?_⟩ }
  · intro j (hj : s.released.length ≤ j) (hlt : j < s.published.length)
    have hne : j % size ≠ (s.published.length + i) % size := mod_ne_mod (by omega) (by omega)
    simpa only [Function.update_of_ne hne] using h.cells j hj hlt
  · intro t ht
    rcases Nat.lt_succ_iff_lt_or_eq.mp ht with hlt | rfl
    · have hne : (s.published.length + t) % size ≠ (s.published.length + i) % size :=
        mod_ne_mod (by omega) (by omega)
      simpa only [Function.update_of_ne hne] using hbytes t hlt
    · simpa only [Function.update_self] using hb.symm

theorem inv_writePublish {size : ℕ} {s : State} (h : Inv size s) {data : List UInt8}
    {wp n : ℕ} (hp : s.producer = .copying data wp n n) :
    Inv size { s with
      ring := { s.ring with writePtr := (wp + n) % s.ring.size }
      producer := .published data n
      published := s.published ++ data.take n } := by
  have hok := h.producer
  rw [hp] at hok
  obtain ⟨hacc, hwp, -, hn, hfit, hbytes⟩ := hok
  have hlen : (s.published ++ data.take n).length = s.published.length + n := by
    simp [hn]
  have hle := h.released_le
  refine { h with
    writePtr_eq := ?_, released_le := ?_, fits := ?_, cells := ?_, copied_prefix := ?_,
    producer := ?_, consumer := ?_ }
  · simp only [hlen, h.size_eq, hwp, Nat.mod_add_mod]
  · simp only [hlen]
    omega
  · simp only [hlen]
    omega
  · intro j hj hlt
    simp only [hlen] at hlt
    rcases Nat.lt_or_ge j s.published.length with hold | hnew
    · rw [List.getElem?_append_left hold]
      exact h.cells j hj hold
    · obtain ⟨t, rfl⟩ := Nat.exists_eq_add_of_le hnew
      rw [List.getElem?_append_right hnew, Nat.add_sub_cancel_left,
        List.getElem?_take_of_lt (by omega)]
      exact hbytes t (by omega)
  · exact h.copied_prefix.trans (List.prefix_append _ _)
  · simp only [ProducerOk, hacc]
  · exact h.consumer.mono (by simp only [hlen]; omega)

theorem inv_writeReturn {size : ℕ} {s : State} (h : Inv size s) {data : List UInt8} {n : ℕ}
    (hp : s.producer = .published data n) :
    Inv size { s with producer := .idle, accepted := s.accepted ++ data.take n } := by
  have hok := h.producer
  rw [hp] at hok
  exact { h with producer := hok.symm }

/-! ## Steps of the consumer -/

theorem inv_setConsumer {size : ℕ} {s : State} (h : Inv size s) {c : Consumer}
    (hc : ConsumerOk size s.published.length s.copied s.released s.returned c) :
    Inv size { s with consumer := c } :=
  { h with consumer := hc }

theorem consumer_loadWrite {size : ℕ} {s : State} (h : Inv size s) {len : ℕ}
    (hc : s.consumer = .called len) :
    ConsumerOk size s.published.length s.copied s.released s.returned
      (.loadedWrite len s.ring.writePtr) := by
  have hok := h.consumer
  rw [hc] at hok
  exact ⟨hok.1, hok.2, _, le_rfl, h.released_le, h.writePtr_eq, h.fits⟩

/-- From a stale write pointer the consumer computes no more data than there is. -/
theorem consumer_loadRead {size : ℕ} {s : State} (h : Inv size s) {len wp : ℕ}
    (hc : s.consumer = .loadedWrite len wp) :
    ConsumerOk size s.published.length s.copied s.released s.returned
      (.copying s.ring.readPtr (min len (dataAvailable s.ring.size s.ring.readPtr wp)) []) := by
  have hok := h.consumer
  rw [hc] at hok
  obtain ⟨hcop, hret, p, hp, hrel, hwp, hlap⟩ := hok
  obtain ⟨d, rfl⟩ := Nat.exists_eq_add_of_le hrel
  have hdata : dataAvailable s.ring.size s.ring.readPtr wp = d := by
    rw [h.size_eq, h.readPtr_eq, hwp]
    exact distance_mod (by omega)
  rw [hdata]
  have hpos := h.size_pos
  refine ⟨by simpa using hcop, hret, h.readPtr_eq, Nat.zero_le _, by omega, by omega⟩

theorem inv_readByte {size : ℕ} {s : State} (h : Inv size s) {rp n : ℕ} {out : List UInt8}
    (hc : s.consumer = .copying rp n out) (hout : out.length < n) :
    Inv size { s with
      consumer := .copying rp n (out ++ [s.ring.buf (copyCell s.ring.size rp n out.length)])
      copied := s.copied ++ [s.ring.buf (copyCell s.ring.size rp n out.length)] } := by
  have hok := h.consumer
  rw [hc] at hok
  obtain ⟨hcop, hret, hrp, hle, hn, hpub⟩ := hok
  have hrpLt : rp < size := hrp ▸ Nat.mod_lt _ h.size_pos
  have hcell : copyCell s.ring.size rp n out.length = (s.released.length + out.length) % size := by
    rw [h.size_eq, copyCell_eq_mod hrpLt hn.le hout, hrp, Nat.mod_add_mod]
  have hlen : s.copied.length = s.released.length + out.length := by
    rw [hcop, List.length_append]
  rw [hcell]
  refine { h with copied_prefix := ?_, consumer := ⟨?_, hret, hrp, ?_, hn, hpub⟩ }
  · apply prefix_concat h.copied_prefix
    rw [hlen]
    exact (h.cells _ (by omega) (by omega)).symm
  · simp [hcop]
  · simpa using Nat.succ_le_of_lt hout

theorem inv_readRelease {size : ℕ} {s : State} (h : Inv size s) {rp n : ℕ} {out : List UInt8}
    (hc : s.consumer = .copying rp n out) (hout : out.length = n) :
    Inv size { s with
      ring := { s.ring with readPtr := (rp + n) % s.ring.size }
      consumer := .released out
      released := s.released ++ out } := by
  have hok := h.consumer
  rw [hc] at hok
  obtain ⟨hcop, hret, hrp, -, hn, hpub⟩ := hok
  have hlen : (s.released ++ out).length = s.released.length + n := by
    simp [hout]
  have hfits := h.fits
  refine { h with
    readPtr_eq := ?_, released_le := ?_, fits := ?_, cells := ?_, producer := ?_,
    consumer := ?_ }
  · simp only [hlen, h.size_eq, hrp, Nat.mod_add_mod]
  · simpa only [hlen] using hpub
  · simp only [hlen]
    omega
  · intro j hj hlt
    simp only [hlen] at hj
    exact h.cells j (by omega) hlt
  · exact h.producer.mono (by simp only [hlen]; omega)
  · exact ⟨hcop, by rw [hret]⟩

theorem inv_readReturn {size : ℕ} {s : State} (h : Inv size s) {out : List UInt8}
    (hc : s.consumer = .released out) :
    Inv size { s with consumer := .idle, returned := s.returned ++ out } := by
  have hok := h.consumer
  rw [hc] at hok
  exact { h with consumer := ⟨hok.1, hok.2.symm⟩ }

/-! ## Every interleaving -/

theorem inv_step {size : ℕ} {s t : State} (h : Inv size s) (hstep : Step s t) : Inv size t := by
  have hprod := h.producer
  have hcons := h.consumer
  cases hstep with
  | writeCall data hp => rw [hp] at hprod; exact inv_setProducer h hprod
  | writeNothing hp => rw [hp] at hprod; exact inv_setProducer h hprod
  | writeLoadRead data hp _ => exact inv_setProducer h (producer_loadRead h hp)
  | writeFull data rp hp _ => rw [hp] at hprod; exact inv_setProducer h hprod.1
  | writeLoadWrite data rp hp _ => exact inv_setProducer h (producer_loadWrite h hp)
  | writeByte data wp n i b hp hi hb => exact inv_writeByte h hp hi hb
  | writePublish data wp n hp => exact inv_writePublish h hp
  | writeReturn data n hp => exact inv_writeReturn h hp
  | readCall len hc => rw [hc] at hcons; exact inv_setConsumer h hcons
  | readNothing hc => rw [hc] at hcons; exact inv_setConsumer h hcons
  | readLoadWrite len hc _ => exact inv_setConsumer h (consumer_loadWrite h hc)
  | readEmpty len wp hc _ => rw [hc] at hcons; exact inv_setConsumer h ⟨hcons.1, hcons.2.1⟩
  | readLoadRead len wp hc _ => exact inv_setConsumer h (consumer_loadRead h hc)
  | readByte rp n out hc hout => exact inv_readByte h hc hout
  | readRelease rp n out hc hout => exact inv_readRelease h hc hout
  | readReturn out hc => exact inv_readReturn h hc

theorem inv_reachable (buf : ℕ → UInt8) {size : ℕ} (hsize : 1 ≤ size) {s : State}
    (h : Relation.ReflTransGen Step (State.initial buf size) s) : Inv size s := by
  induction h with
  | refl => exact inv_initial buf hsize
  | tail _ hstep ih => exact inv_step ih hstep

theorem Inv.readable_eq {size : ℕ} {s : State} (h : Inv size s) :
    ringbufferReadable s.ring = s.published.length - s.released.length := by
  obtain ⟨d, hd⟩ := Nat.exists_eq_add_of_le h.released_le
  have hlap := h.fits
  rw [readable_eq_distance, h.size_eq, h.readPtr_eq, h.writePtr_eq, hd]
  rw [distance_mod (by omega)]
  omega

/-- The ring always holds the published bytes that have not been released. -/
theorem Inv.queue_eq {size : ℕ} {s : State} (h : Inv size s) :
    s.ring.queue = s.published.drop s.released.length := by
  apply List.ext_getElem? fun i => ?_
  have hle := h.released_le
  rw [List.getElem?_drop]
  rcases Nat.lt_or_ge i (s.published.length - s.released.length) with hi | hi
  · rw [RingBuffer.queue, h.readable_eq, getElem?_window _ _ _ _ _ hi, h.size_eq, h.readPtr_eq,
      Nat.mod_add_mod]
    exact h.cells _ (by omega) (by omega)
  · rw [List.getElem?_eq_none (by rw [length_queue, h.readable_eq]; exact hi),
      List.getElem?_eq_none (by omega)]

/-- In every reachable state of every interleaving: the bytes copied out are a prefix
of the published ones, the ring holds the published bytes that are not released yet and no
store of the producer hits one of their cells, and between calls nothing is lost or
duplicated. -/
theorem spsc_safe (buf : ℕ → UInt8) (size : ℕ) (hsize : 1 ≤ size) (s : State)
    (h : Relation.ReflTransGen Step (State.initial buf size) s) :
    s.copied <+: s.published ∧
      s.ring.queue = s.published.drop s.released.length ∧
      (∀ c, s.producer.nextStore s.ring.size = some c →
        ∀ j < ringbufferReadable s.ring, c ≠ (s.ring.readPtr + j) % s.ring.size) ∧
      (s.producer = .idle → s.consumer = .idle →
        s.accepted = s.returned ++ s.ring.queue) := by
  have hinv := inv_reachable buf hsize h
  refine ⟨hinv.copied_prefix, hinv.queue_eq, ?_, ?_⟩
  · intro c hc j hj
    obtain ⟨k, hk, hlap, rfl⟩ := nextStore_eq hinv hc
    rw [hinv.readable_eq] at hj
    rw [hinv.size_eq, hinv.readPtr_eq, Nat.mod_add_mod]
    exact (mod_ne_mod (by omega) (by omega)).symm
  · intro hp hc
    have hprod := hinv.producer
    have hcons := hinv.consumer
    rw [hp] at hprod
    rw [hc] at hcons
    have hacc : s.accepted = s.published := hprod
    rw [hacc, hinv.queue_eq, hcons.2]
    have hpre := hinv.copied_prefix
    rw [hcons.1] at hpre
    exact (List.prefix_iff_eq_append.mp hpre).symm

/-- A ring of four holds one byte in its third cell. Between the loads and the publication of a
write of two bytes, which turns at the end of the buffer, the consumer takes that byte. -/
theorem spsc_safe_wrapping_write : ∃ s,
    Relation.ReflTransGen Step (State.initial (fun _ => 0) 4) s ∧ s.accepted = [1, 2, 3, 4, 5] ∧
      s.returned = [1, 2, 3] ∧ s.accepted = s.returned ++ s.ring.queue := by
  have h := Relation.ReflTransGen.refl (r := Step) (a := State.initial (fun _ => 0) 4)
    -- three bytes are written and two of them read
    |>.tail (.writeCall _ [1, 2, 3] rfl)
    |>.tail (.writeLoadRead _ _ rfl (by decide))
    |>.tail (.writeLoadWrite _ _ 0 rfl (by decide))
    |>.tail (.writeByte _ _ 0 3 0 1 rfl (by decide) rfl)
    |>.tail (.writeByte _ _ 0 3 1 2 rfl (by decide) rfl)
    |>.tail (.writeByte _ _ 0 3 2 3 rfl (by decide) rfl)
    |>.tail (.writePublish _ _ 0 3 rfl)
    |>.tail (.writeReturn _ _ 3 rfl)
    |>.tail (.readCall _ 2 rfl)
    |>.tail (.readLoadWrite _ 2 rfl (by decide))
    |>.tail (.readLoadRead _ 2 3 rfl (by decide))
    |>.tail (.readByte _ 0 2 [] rfl (by decide))
    |>.tail (.readByte _ 0 2 [1] rfl (by decide))
    |>.tail (.readRelease _ 0 2 [1, 2] rfl rfl)
    |>.tail (.readReturn _ [1, 2] rfl)
    -- the two threads in turns
    |>.tail (.writeCall _ [4, 5] rfl)
    |>.tail (.writeLoadRead _ _ rfl (by decide))
    |>.tail (.writeLoadWrite _ _ 2 rfl (by decide))
    |>.tail (.writeByte _ _ 3 2 0 4 rfl (by decide) rfl)
    |>.tail (.readCall _ 5 rfl)
    |>.tail (.readLoadWrite _ 5 rfl (by decide))
    |>.tail (.writeByte _ _ 3 2 1 5 rfl (by decide) rfl)
    |>.tail (.readLoadRead _ 5 3 rfl (by decide))
    |>.tail (.readByte _ 2 1 [] rfl (by decide))
    |>.tail (.readRelease _ 2 1 [3] rfl rfl)
    |>.tail (.writePublish _ _ 3 2 rfl)
    |>.tail (.readReturn _ [3] rfl)
    |>.tail (.writeReturn _ _ 2 rfl)
  exact ⟨_, h, rfl, rfl, (spsc_safe _ 4 (by decide) _ h).2.2.2 rfl rfl⟩

end WebSocketHft.Spsc

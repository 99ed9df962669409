import WebSocketHft.Model.SpscBatch
import WebSocketHft.Shared.Runs
import WebSocketHft.Verification.Ringbuffer.Batch
import WebSocketHft.Verification.Ringbuffer.Interleaving

/-! # Safety of batches

A batch is answered by one single call that writes all its chunks as one piece of data, or
reads as much as all its destinations take together. The private pointer of the batch is the
start of that call plus the bytes moved so far, so the space or data it computes for a chunk
is what the call has left. -/

namespace WebSocketHft.SpscBatch

open WebSocketHft WebSocketHft.Circular

variable {size : ℕ} {s t : State} {p : Spsc.Producer} {c : Spsc.Consumer}

/-- The threads of single calls that answer the state, with its ring and its histories. -/
def State.answer (s : State) (p : Spsc.Producer) (c : Spsc.Consumer) : Spsc.State :=
  { s.base with producer := p, consumer := c }

/-! ## Steps of one thread -/

theorem step_withConsumer {a b : Spsc.State} (h : Spsc.Step a b) (hother : b.consumer = a.consumer)
    (c : Spsc.Consumer) : Spsc.Step { a with consumer := c } { b with consumer := c } := by
  cases h with
  | writeCall data hp => exact .writeCall _ data hp
  | writeNothing hp => exact .writeNothing _ hp
  | writeLoadRead data hp hlen => exact .writeLoadRead _ data hp hlen
  | writeFull data rp hp hfull => exact .writeFull _ data rp hp hfull
  | writeLoadWrite data rp hp hspace => exact .writeLoadWrite _ data rp hp hspace
  | writeByte data wp n i b hp hi hb => exact .writeByte _ data wp n i b hp hi hb
  | writePublish data wp n hp => exact .writePublish _ data wp n hp
  | writeReturn data n hp => exact .writeReturn _ data n hp
  | readCall len hc => simp [hc] at hother
  | readNothing hc => simp [hc] at hother
  | readLoadWrite len hc _ => simp [hc] at hother
  | readEmpty len wp hc _ => simp [hc] at hother
  | readLoadRead len wp hc _ => simp [hc] at hother
  | readByte rp n out hc _ => simp [hc] at hother
  | readRelease rp n out hc _ => simp [hc] at hother
  | readReturn out hc => simp [hc] at hother

theorem step_withProducer {a b : Spsc.State} (h : Spsc.Step a b) (hother : b.producer = a.producer)
    (p : Spsc.Producer) : Spsc.Step { a with producer := p } { b with producer := p } := by
  cases h with
  | readCall len hc => exact .readCall _ len hc
  | readNothing hc => exact .readNothing _ hc
  | readLoadWrite len hc hlen => exact .readLoadWrite _ len hc hlen
  | readEmpty len wp hc hempty => exact .readEmpty _ len wp hc hempty
  | readLoadRead len wp hc hdata => exact .readLoadRead _ len wp hc hdata
  | readByte rp n out hc hout => exact .readByte _ rp n out hc hout
  | readRelease rp n out hc hout => exact .readRelease _ rp n out hc hout
  | readReturn out hc => exact .readReturn _ out hc
  | writeCall data hp => simp [hp] at hother
  | writeNothing hp => simp [hp] at hother
  | writeLoadRead data hp _ => simp [hp] at hother
  | writeFull data rp hp _ => simp [hp] at hother
  | writeLoadWrite data rp hp _ => simp [hp] at hother
  | writeByte data wp n i b hp _ _ => simp [hp] at hother
  | writePublish data wp n hp => simp [hp] at hother
  | writeReturn data n hp => simp [hp] at hother

/-! ## Writers -/

theorem chunkBytes_skip {chunk : Option (List UInt8)} (h : skipsChunk chunk)
    (chunks : List (Option (List UInt8))) : chunkBytes (chunk :: chunks) = chunkBytes chunks := by
  cases chunk with
  | none => exact chunkBytes_none chunks
  | some data =>
      have hnil : data = [] := by simpa [skipsChunk] using h
      rw [hnil, chunkBytes_some, List.nil_append]

/-- How far a batch is in the call that answers it: a write of `data` that started at `wp₀`
and moves `n` bytes, of which `written` are done. -/
structure Written (size rp wp : ℕ) (written data : List UInt8) (wp₀ n : ℕ) : Prop where
  readPtr_lt : rp < size
  start_lt : wp₀ < size
  wp_eq : wp = (wp₀ + written.length) % size
  toWrite_eq : n = min data.length (spaceAvailable size rp wp₀)
  toWrite_ne : n ≠ 0
  isPrefix : written <+: data
  length_le : written.length ≤ n

section Written

variable {rp wp wp₀ n : ℕ} {written data : List UInt8}

/-- The space left for a chunk is what the whole batch had, less the bytes written. -/
theorem Written.space_add (h : Written size rp wp written data wp₀ n) :
    spaceAvailable size rp wp + written.length = spaceAvailable size rp wp₀ := by
  have hlt : wp < size := h.wp_eq ▸ Nat.mod_lt _ (by have := h.start_lt; omega)
  have hstart := spaceAvailable_add_distance h.readPtr_lt h.start_lt
  have hnow := spaceAvailable_add_distance h.readPtr_lt hlt
  have hle := h.length_le
  have hn := h.toWrite_eq
  have hpos := h.start_lt
  rw [h.wp_eq, distance_add_right h.readPtr_lt h.start_lt (by omega), ← h.wp_eq] at hnow
  omega

theorem Written.cell (h : Written size rp wp written data wp₀ n) {m i : ℕ}
    (hm : m ≤ spaceAvailable size rp wp) (hi : i < m) (hn : written.length + i < n) :
    Spsc.copyCell size wp m i = Spsc.copyCell size wp₀ n (written.length + i) := by
  have hlt : wp < size := h.wp_eq ▸ Nat.mod_lt _ (by have := h.start_lt; omega)
  have hstart := spaceAvailable_add_distance h.readPtr_lt h.start_lt
  have hnow := spaceAvailable_add_distance h.readPtr_lt hlt
  have hle := h.toWrite_eq
  rw [Spsc.copyCell_eq_mod hlt (by omega) hi, Spsc.copyCell_eq_mod h.start_lt (by omega) hn,
    h.wp_eq, Nat.mod_add_mod, Nat.add_assoc]

/-- A chunk copied as far as it fits. -/
theorem Written.next (h : Written size rp wp written data wp₀ n) {chunk rest : List UInt8} {m : ℕ}
    (hdata : data = written ++ (chunk ++ rest))
    (hm : m = min chunk.length (spaceAvailable size rp wp)) :
    Written size rp ((wp + m) % size) (written ++ chunk.take m) data wp₀ n := by
  have hspace := h.space_add
  have hn := h.toWrite_eq
  have hlen : (written ++ chunk.take m).length = written.length + m := by
    simp only [List.length_append, List.length_take]
    omega
  have hwhole : data.length = written.length + (chunk.length + rest.length) := by
    rw [hdata, List.length_append, List.length_append]
  refine { h with wp_eq := ?_, isPrefix := ?_, length_le := by omega }
  · rw [hlen, h.wp_eq, Nat.mod_add_mod, Nat.add_assoc]
  · rw [hdata, List.prefix_append_right_inj]
    exact (List.take_prefix m chunk).trans (List.prefix_append chunk rest)

end Written

/-- The producer that answers a batch. Before the first byte there may be nothing to write or
no space: then the answering call has returned already. -/
inductive WriterSim (size : ℕ) : Writer → Spsc.Producer → Spsc.Producer → Prop where
  | idle (q) : WriterSim size .idle q q
  | called (chunks) : WriterSim size (.called chunks) .idle (.called (chunkBytes chunks))
  | loadedNothing {chunks} (rp) (h : chunkBytes chunks = []) :
      WriterSim size (.loadedRead chunks rp) .idle (.called [])
  | loadedRead {chunks} (rp) (h : chunkBytes chunks ≠ []) :
      WriterSim size (.loadedRead chunks rp) .idle (.loadedRead (chunkBytes chunks) rp)
  | nothing {chunks rp wp} (h : chunkBytes chunks = [] ∨ spaceAvailable size rp wp = 0) :
      WriterSim size (.looping chunks rp wp []) .idle .idle
  | looping {chunks rp wp written data wp₀ n} (h : Written size rp wp written data wp₀ n)
      (hrest : data = written ++ chunkBytes chunks ∨ spaceAvailable size rp wp = 0) :
      WriterSim size (.looping chunks rp wp written) .idle (.copying data wp₀ n written.length)
  | copying {chunk m i chunks rp wp written data wp₀ n}
      (h : Written size rp wp written data wp₀ n)
      (hrest : data = written ++ (chunk ++ chunkBytes chunks))
      (hm : m = min chunk.length (spaceAvailable size rp wp)) (hi : i ≤ m) :
      WriterSim size (.copying chunk m i chunks rp wp written) .idle
        (.copying data wp₀ n (written.length + i))
  | published (data n) :
      WriterSim size (.published (data.take n)) .idle (.published data n)

/-- The start of a batch that has something to write and space for some of it. -/
theorem written_start {chunks : List (Option (List UInt8))} {rp : ℕ}
    (hinv : Spsc.Inv size (s.answer (.loadedRead (chunkBytes chunks) rp) c))
    (hbytes : chunkBytes chunks ≠ [])
    (hspace : spaceAvailable s.base.ring.size rp s.base.ring.writePtr ≠ 0) :
    Written size rp s.base.ring.writePtr [] (chunkBytes chunks) s.base.ring.writePtr
      (min (chunkBytes chunks).length
        (spaceAvailable s.base.ring.size rp s.base.ring.writePtr)) := by
  obtain ⟨-, r, -, -, hrp, -⟩ := hinv.producer
  have hsize : s.base.ring.size = size := hinv.size_eq
  have hwp : s.base.ring.writePtr < size := hinv.writePtr_eq ▸ Nat.mod_lt _ hinv.size_pos
  have hlen : 0 < (chunkBytes chunks).length := List.length_pos_iff.mpr hbytes
  constructor
  · exact hrp ▸ Nat.mod_lt _ hinv.size_pos
  · exact hwp
  · exact (Nat.mod_eq_of_lt hwp).symm
  · rw [hsize]
  · omega
  · exact List.nil_prefix
  · exact Nat.zero_le _

/-- At the end of the loop the answering call has copied all it takes. -/
theorem Written.complete {rp wp wp₀ n : ℕ} {written data : List UInt8}
    (h : Written size rp wp written data wp₀ n)
    (hrest : data = written ++ chunkBytes [] ∨ spaceAvailable size rp wp = 0) :
    written.length = n ∧ written = data.take n := by
  have hle := h.length_le
  have hn := h.toWrite_eq
  have hlen : written.length = n := by
    rcases hrest with hdata | hfull
    · rw [hdata, chunkBytes_nil, List.append_nil] at hn
      omega
    · have hspace := h.space_add
      omega
  refine ⟨hlen, ?_⟩
  rw [← hlen]
  exact List.prefix_iff_eq_take.mp h.isPrefix

theorem WriterSim.of_idle {w : Writer} {q : Spsc.Producer} (hq : q = .idle)
    (h : WriterSim size w .idle p) : WriterSim size w q p :=
  hq ▸ h

theorem WriterSim.eq_of_idle {q : Spsc.Producer} (h : WriterSim size .idle q p) : q = p := by
  cases h
  rfl

/-- A step of a batch of writes is one step of the answering call, or none. -/
theorem WriteStep.simulated (h : WriteStep s t) (hinv : Spsc.Inv size (s.answer p c))
    (hsim : WriterSim size s.writer s.base.producer p) :
    ∃ p', Relation.ReflGen Spsc.Step (s.answer p c) (t.answer p' c) ∧
      WriterSim size t.writer t.base.producer p' := by
  have hsize : s.base.ring.size = size := hinv.size_eq
  generalize hidle : s.base.producer = q at hsim
  cases h with
  | call chunks hw hp =>
      rw [hw] at hsim
      cases hsim
      refine ⟨_, .single (.writeCall _ (chunkBytes chunks) (hidle.symm.trans hp)), .of_idle hp ?_⟩
      exact .called chunks
  | nothing hw =>
      rw [hw] at hsim
      cases hsim
      exact ⟨.idle, .single (.writeNothing _ rfl), .of_idle hidle (.idle _)⟩
  | loadRead chunks hw hcount =>
      rw [hw] at hsim
      cases hsim
      by_cases hbytes : chunkBytes chunks = []
      · rw [hbytes]
        exact ⟨_, .refl, .of_idle hidle (.loadedNothing _ hbytes)⟩
      · have hlen : (chunkBytes chunks).length ≠ 0 := fun h => hbytes (List.eq_nil_of_length_eq_zero h)
        exact ⟨_, .single (.writeLoadRead _ _ rfl hlen), .of_idle hidle (.loadedRead _ hbytes)⟩
  | loadWrite chunks rp hw =>
      rw [hw] at hsim
      cases hsim with
      | loadedNothing _ hbytes =>
          exact ⟨.idle, .single (.writeNothing _ rfl), .of_idle hidle (.nothing (.inl hbytes))⟩
      | loadedRead _ hbytes =>
          by_cases hfull : spaceAvailable s.base.ring.size rp s.base.ring.writePtr = 0
          · exact ⟨.idle, .single (.writeFull _ _ rp rfl hfull),
              .of_idle hidle (.nothing (.inr (hsize ▸ hfull)))⟩
          · refine ⟨_, .single (.writeLoadWrite _ _ rp rfl hfull), .of_idle hidle ?_⟩
            exact .looping (written_start hinv hbytes hfull) (.inl (List.nil_append _).symm)
  | skip chunk chunks rp wp written hw hskip =>
      rw [hw] at hsim
      cases hsim with
      | nothing hnone =>
          rw [chunkBytes_skip hskip] at hnone
          exact ⟨.idle, .refl, .of_idle hidle (.nothing hnone)⟩
      | looping hwritten hrest =>
          rw [chunkBytes_skip hskip] at hrest
          exact ⟨_, .refl, .of_idle hidle (.looping hwritten hrest)⟩
  | chunk data chunks rp wp written hw hlen hspace =>
      rw [hw] at hsim
      cases hsim with
      | nothing hnone =>
          rcases hnone with hbytes | hfull
          · simp [chunkBytes_some] at hbytes
            exact absurd (congrArg List.length hbytes.1) hlen
          · exact absurd (hsize ▸ hfull) hspace
      | looping hwritten hrest =>
          rcases hrest with hdata | hfull
          · rw [chunkBytes_some] at hdata
            exact ⟨_, .refl, .of_idle hidle
              (.copying hwritten hdata (by rw [hsize]) (Nat.zero_le _))⟩
          · exact absurd (hsize ▸ hfull) hspace
  | byte data n i b chunks rp wp written hw hi hb =>
      rw [hw] at hsim
      cases hsim with
      | @copying _ _ _ _ _ _ _ whole wp₀ N hwritten hdata hm hle =>
          have hspace := hwritten.space_add
          have hn := hwritten.toWrite_eq
          have hwhole : whole.length = written.length + (data.length + (chunkBytes chunks).length) := by
            rw [hdata, List.length_append, List.length_append]
          have hlt : written.length + i < N := by omega
          have hcell : Spsc.copyCell s.base.ring.size wp n i =
              Spsc.copyCell s.base.ring.size wp₀ N (written.length + i) := by
            rw [hsize]
            exact hwritten.cell (by omega) hi hlt
          have hbyte : whole[written.length + i]? = some b := by
            rw [hdata, List.getElem?_append_right (Nat.le_add_right _ _), Nat.add_sub_cancel_left,
              List.getElem?_append_left (by omega), hb]
          refine ⟨.copying whole wp₀ N (written.length + (i + 1)), .single ?_,
            .of_idle hidle (.copying hwritten hdata hm hi)⟩
          rw [hcell]
          exact .writeByte _ whole wp₀ N _ b rfl hlt hbyte
  | next data n chunks rp wp written hw =>
      rw [hw] at hsim
      cases hsim with
      | copying hwritten hdata hm hle =>
          have hnext := hwritten.next hdata hm
          have hlen : (written ++ data.take n).length = written.length + n := by
            simp only [List.length_append, List.length_take]
            omega
          rw [← hlen, hsize]
          refine ⟨_, .refl, .of_idle hidle (.looping hnext ?_)⟩
          rcases Nat.lt_or_ge n data.length with hcut | hall
          · have hspace := hwritten.space_add
            have hleft := hnext.space_add
            right
            omega
          · left
            rw [hdata, List.take_of_length_le hall, List.append_assoc]
  | full data chunks rp wp written hw hlen hfull =>
      rw [hw] at hsim
      rw [hsize] at hfull
      cases hsim with
      | nothing _ => exact ⟨.idle, .refl, .of_idle hidle (.nothing (.inr hfull))⟩
      | looping hwritten _ => exact ⟨_, .refl, .of_idle hidle (.looping hwritten (.inr hfull))⟩
  | publish rp wp written hw htotal =>
      rw [hw] at hsim
      cases hsim with
      | nothing _ => exact absurd htotal (Nat.lt_irrefl 0)
      | @looping _ _ _ _ whole wp₀ N hwritten hrest =>
          obtain ⟨hlen, hbytes⟩ := hwritten.complete hrest
          have hptr : wp = (wp₀ + N) % s.base.ring.size := by
            rw [hwritten.wp_eq, hlen, hsize]
          rw [hlen, hbytes, hptr]
          exact ⟨_, .single (.writePublish _ whole wp₀ N rfl), .of_idle hidle (.published whole N)⟩
  | finishNothing rp wp hw =>
      rw [hw] at hsim
      cases hsim with
      | nothing _ => exact ⟨.idle, .refl, .of_idle hidle (.idle _)⟩
      | looping hwritten hrest =>
          exact absurd (hwritten.complete hrest).1.symm hwritten.toWrite_ne
  | finish written hw =>
      rw [hw] at hsim
      cases hsim with
      | published data n => exact ⟨.idle, .single (.writeReturn _ data n rfl), .of_idle hidle (.idle _)⟩

/-! ## Readers -/

/-- The bytes the destinations take together. -/
def wanted : List Destination → ℕ
  | [] => 0
  | d :: dests => (if skipsDestination d then 0 else d.len) + wanted dests

@[simp] theorem wanted_nil : wanted [] = 0 := rfl

theorem wanted_skip {d : Destination} (h : skipsDestination d) (dests : List Destination) :
    wanted (d :: dests) = wanted dests := by
  simp [wanted, h]

theorem wanted_cons {d : Destination} (h : skipsDestination d = false)
    (dests : List Destination) : wanted (d :: dests) = d.len + wanted dests := by
  simp [wanted, h]

theorem len_pos {d : Destination} (h : skipsDestination d = false) : 0 < d.len := by
  simp only [skipsDestination, decide_eq_false_iff_not, not_or] at h
  omega

/-- How far a batch is in the call that answers it: a read of at most `len` bytes that started
at `rp₀` and moves `n` bytes, of which `out` are done. -/
structure Taken (size wp rp : ℕ) (out : List UInt8) (len rp₀ n : ℕ) : Prop where
  writePtr_lt : wp < size
  start_lt : rp₀ < size
  rp_eq : rp = (rp₀ + out.length) % size
  toRead_eq : n = min len (dataAvailable size rp₀ wp)
  toRead_ne : n ≠ 0
  length_le : out.length ≤ n

section Taken

variable {wp rp rp₀ n len : ℕ} {out : List UInt8}

/-- The data left for a destination is what the whole batch had, less the bytes taken. -/
theorem Taken.data_add (h : Taken size wp rp out len rp₀ n) :
    dataAvailable size rp wp + out.length = dataAvailable size rp₀ wp := by
  have hle := h.length_le
  have hn := h.toRead_eq
  have hdata : dataAvailable size rp wp = dataAvailable size rp₀ wp - out.length := by
    rw [h.rp_eq]
    exact distance_add_left h.start_lt h.writePtr_lt (show _ ≤ dataAvailable size rp₀ wp by omega)
  omega

theorem Taken.cell (h : Taken size wp rp out len rp₀ n) {m i : ℕ}
    (hm : m ≤ dataAvailable size rp wp) (hi : i < m) (hn : out.length + i < n) :
    Spsc.copyCell size rp m i = Spsc.copyCell size rp₀ n (out.length + i) := by
  have hlt : rp < size := h.rp_eq ▸ Nat.mod_lt _ (by have := h.start_lt; omega)
  have hstart : dataAvailable size rp₀ wp < size := distance_lt h.start_lt h.writePtr_lt
  have hnow : dataAvailable size rp wp < size := distance_lt hlt h.writePtr_lt
  have hle := h.toRead_eq
  rw [Spsc.copyCell_eq_mod hlt (by omega) hi, Spsc.copyCell_eq_mod h.start_lt (by omega) hn,
    h.rp_eq, Nat.mod_add_mod, Nat.add_assoc]

theorem Taken.next (h : Taken size wp rp out len rp₀ n) {piece : List UInt8} {want m rest : ℕ}
    (hlen : len = out.length + (want + rest)) (hm : m = min want (dataAvailable size rp wp))
    (hpiece : piece.length = m) : Taken size wp ((rp + m) % size) (out ++ piece) len rp₀ n := by
  have hdata := h.data_add
  have hn := h.toRead_eq
  refine { h with rp_eq := ?_, length_le := ?_ }
  · rw [List.length_append, hpiece, h.rp_eq, Nat.mod_add_mod, Nat.add_assoc]
  · rw [List.length_append]
    omega

theorem Taken.complete (h : Taken size wp rp out len rp₀ n)
    (hrest : len = out.length + wanted [] ∨ dataAvailable size rp wp = 0) : out.length = n := by
  have hle := h.length_le
  have hn := h.toRead_eq
  have hdata := h.data_add
  rw [wanted_nil] at hrest
  omega

end Taken

/-- The consumer that answers a batch. -/
inductive ReaderSim (size : ℕ) : Reader → Spsc.Consumer → Spsc.Consumer → Prop where
  | idle (q) : ReaderSim size .idle q q
  | called (dests) : ReaderSim size (.called dests) .idle (.called (wanted dests))
  | loadedNothing {dests} (wp) (h : wanted dests = 0) :
      ReaderSim size (.loadedWrite dests wp) .idle (.called 0)
  | loadedWrite {dests} (wp) (h : wanted dests ≠ 0) :
      ReaderSim size (.loadedWrite dests wp) .idle (.loadedWrite (wanted dests) wp)
  | nothing {dests wp rp} (h : wanted dests = 0 ∨ dataAvailable size rp wp = 0) :
      ReaderSim size (.looping dests wp rp []) .idle .idle
  | looping {dests wp rp out len rp₀ n} (h : Taken size wp rp out len rp₀ n)
      (hrest : len = out.length + wanted dests ∨ dataAvailable size rp wp = 0) :
      ReaderSim size (.looping dests wp rp out) .idle (.copying rp₀ n out)
  | copying {m piece want dests wp rp out len rp₀ n} (h : Taken size wp rp out len rp₀ n)
      (hrest : len = out.length + (want + wanted dests))
      (hm : m = min want (dataAvailable size rp wp)) (hpiece : piece.length ≤ m) :
      ReaderSim size (.copying m piece dests wp rp out) .idle (.copying rp₀ n (out ++ piece))
  | released (out) : ReaderSim size (.released out) .idle (.released out)

/-- The start of a batch that takes something and finds data. -/
theorem taken_start {dests : List Destination} {wp : ℕ}
    (hinv : Spsc.Inv size (s.answer p (.loadedWrite (wanted dests) wp)))
    (hwanted : wanted dests ≠ 0)
    (hdata : dataAvailable s.base.ring.size s.base.ring.readPtr wp ≠ 0) :
    Taken size wp s.base.ring.readPtr [] (wanted dests) s.base.ring.readPtr
      (min (wanted dests) (dataAvailable s.base.ring.size s.base.ring.readPtr wp)) := by
  obtain ⟨-, -, r, -, -, hwp, -⟩ := hinv.consumer
  have hsize : s.base.ring.size = size := hinv.size_eq
  have hrp : s.base.ring.readPtr < size := hinv.readPtr_eq ▸ Nat.mod_lt _ hinv.size_pos
  constructor
  · exact hwp ▸ Nat.mod_lt _ hinv.size_pos
  · exact hrp
  · exact (Nat.mod_eq_of_lt hrp).symm
  · rw [hsize]
  · omega
  · exact Nat.zero_le _

theorem ReaderSim.of_idle {r : Reader} {q : Spsc.Consumer} (hq : q = .idle)
    (h : ReaderSim size r .idle c) : ReaderSim size r q c :=
  hq ▸ h

theorem ReaderSim.eq_of_idle {q : Spsc.Consumer} (h : ReaderSim size .idle q c) : q = c := by
  cases h
  rfl

/-- A step of a batch of reads is one step of the answering call, or none. -/
theorem ReadStep.simulated (h : ReadStep s t) (hinv : Spsc.Inv size (s.answer p c))
    (hsim : ReaderSim size s.reader s.base.consumer c) :
    ∃ c', Relation.ReflGen Spsc.Step (s.answer p c) (t.answer p c') ∧
      ReaderSim size t.reader t.base.consumer c' := by
  have hsize : s.base.ring.size = size := hinv.size_eq
  generalize hidle : s.base.consumer = q at hsim
  cases h with
  | call dests hr hc =>
      rw [hr] at hsim
      cases hsim
      refine ⟨_, .single (.readCall _ (wanted dests) (hidle.symm.trans hc)), .of_idle hc ?_⟩
      exact .called dests
  | nothing hr =>
      rw [hr] at hsim
      cases hsim
      exact ⟨.idle, .single (.readNothing _ rfl), .of_idle hidle (.idle _)⟩
  | loadWrite dests hr hcount =>
      rw [hr] at hsim
      cases hsim
      by_cases hwanted : wanted dests = 0
      · rw [hwanted]
        exact ⟨_, .refl, .of_idle hidle (.loadedNothing _ hwanted)⟩
      · exact ⟨_, .single (.readLoadWrite _ _ rfl hwanted),
          .of_idle hidle (.loadedWrite _ hwanted)⟩
  | loadRead dests wp hr =>
      rw [hr] at hsim
      cases hsim with
      | loadedNothing _ hwanted =>
          exact ⟨.idle, .single (.readNothing _ rfl), .of_idle hidle (.nothing (.inl hwanted))⟩
      | loadedWrite _ hwanted =>
          by_cases hempty : dataAvailable s.base.ring.size s.base.ring.readPtr wp = 0
          · exact ⟨.idle, .single (.readEmpty _ _ wp rfl hempty),
              .of_idle hidle (.nothing (.inr (hsize ▸ hempty)))⟩
          · refine ⟨_, .single (.readLoadRead _ _ wp rfl hempty), .of_idle hidle ?_⟩
            exact .looping (taken_start hinv hwanted hempty) (.inl (Nat.zero_add _).symm)
  | skip d dests wp rp out hr hskip =>
      rw [hr] at hsim
      cases hsim with
      | nothing hnone =>
          rw [wanted_skip hskip] at hnone
          exact ⟨.idle, .refl, .of_idle hidle (.nothing hnone)⟩
      | looping htaken hrest =>
          rw [wanted_skip hskip] at hrest
          exact ⟨_, .refl, .of_idle hidle (.looping htaken hrest)⟩
  | chunk d dests wp rp out hr hdest hdata =>
      rw [hr] at hsim
      rw [hsize] at hdata
      have hpos := len_pos hdest
      cases hsim with
      | nothing hnone =>
          rw [wanted_cons hdest] at hnone
          omega
      | @looping _ _ _ _ len rp₀ N htaken hrest =>
          rw [wanted_cons hdest] at hrest
          rcases hrest with hlen | hempty
          · have hcopying : ReaderSim size
                (.copying (min d.len (dataAvailable size rp wp)) [] dests wp rp out) .idle
                (.copying rp₀ N (out ++ [])) := .copying htaken hlen rfl (Nat.zero_le _)
            rw [List.append_nil] at hcopying
            rw [hsize]
            exact ⟨_, .refl, .of_idle hidle hcopying⟩
          · exact absurd hempty hdata
  | byte n piece dests wp rp out hr hpiece =>
      rw [hr] at hsim
      cases hsim with
      | @copying _ _ want _ _ _ _ len rp₀ N htaken hlen hm hle =>
          have hdata := htaken.data_add
          have hn := htaken.toRead_eq
          have hlt : (out ++ piece).length < N := by
            rw [List.length_append]
            omega
          have hcell : Spsc.copyCell s.base.ring.size rp n piece.length =
              Spsc.copyCell s.base.ring.size rp₀ N (out ++ piece).length := by
            rw [hsize, List.length_append]
            exact htaken.cell (by omega) hpiece (by rwa [List.length_append] at hlt)
          have hnext (b : UInt8) : ReaderSim size (.copying n (piece ++ [b]) dests wp rp out) .idle
              (.copying rp₀ N (out ++ piece ++ [b])) := by
            rw [List.append_assoc]
            exact .copying htaken hlen hm (by simpa using Nat.succ_le_of_lt hpiece)
          rw [hcell]
          exact ⟨_, .single (.readByte _ rp₀ N _ rfl hlt), .of_idle hidle (hnext _)⟩
  | next n piece dests wp rp out hr hpiece =>
      rw [hr] at hsim
      cases hsim with
      | copying htaken hlen hm hle =>
          have hnext := htaken.next hlen hm hpiece
          rw [hsize]
          refine ⟨_, .refl, .of_idle hidle (.looping hnext ?_)⟩
          have hdata := htaken.data_add
          have hleft := hnext.data_add
          rw [List.length_append, hpiece] at hleft ⊢
          omega
  | empty d dests wp rp out hr hdest hempty =>
      rw [hr] at hsim
      rw [hsize] at hempty
      cases hsim with
      | nothing _ => exact ⟨.idle, .refl, .of_idle hidle (.nothing (.inr hempty))⟩
      | looping htaken _ => exact ⟨_, .refl, .of_idle hidle (.looping htaken (.inr hempty))⟩
  | release wp rp out hr htotal =>
      rw [hr] at hsim
      cases hsim with
      | nothing _ => exact absurd htotal (Nat.lt_irrefl 0)
      | @looping _ _ _ _ len rp₀ N htaken hrest =>
          have hlen := htaken.complete hrest
          have hptr : rp = (rp₀ + N) % s.base.ring.size := by
            rw [htaken.rp_eq, hlen, hsize]
          rw [hptr]
          exact ⟨_, .single (.readRelease _ rp₀ N out rfl hlen), .of_idle hidle (.released out)⟩
  | finishNothing wp rp hr =>
      rw [hr] at hsim
      cases hsim with
      | nothing _ => exact ⟨.idle, .refl, .of_idle hidle (.idle _)⟩
      | looping htaken hrest => exact absurd (htaken.complete hrest).symm htaken.toRead_ne
  | finish out hr =>
      rw [hr] at hsim
      cases hsim
      exact ⟨.idle, .single (.readReturn _ out rfl), .of_idle hidle (.idle _)⟩

/-! ## Every interleaving -/

/-- The state of single calls that answers a state with batches. -/
structure Answers (size : ℕ) (s : State) (a : Spsc.State) : Prop where
  inv : Spsc.Inv size a
  same : a = s.answer a.producer a.consumer
  writer : WriterSim size s.writer s.base.producer a.producer
  reader : ReaderSim size s.reader s.base.consumer a.consumer

theorem WriteStep.other (h : WriteStep s t) :
    t.reader = s.reader ∧ t.base.consumer = s.base.consumer := by
  cases h <;> exact ⟨rfl, rfl⟩

theorem ReadStep.other (h : ReadStep s t) :
    t.writer = s.writer ∧ t.base.producer = s.base.producer := by
  cases h <;> exact ⟨rfl, rfl⟩

theorem inv_of_reflGen {a b : Spsc.State} (h : Spsc.Inv size a)
    (hstep : Relation.ReflGen Spsc.Step a b) : Spsc.Inv size b := by
  cases hstep with
  | refl => exact h
  | single hstep => exact Spsc.inv_step h hstep

theorem Answers.step (s t : State) (a : Spsc.State) (h : Answers size s a) (hstep : Step s t) :
    ∃ b, Relation.ReflGen Spsc.Step a b ∧ Answers size t b := by
  obtain ⟨hinv, hsame, hwriter, hreader⟩ := h
  rw [hsame] at hinv ⊢
  cases hstep with
  | write t hbase hother hw =>
      have hp : s.base.producer = a.producer := WriterSim.eq_of_idle (hw ▸ hwriter)
      have hanswer : Spsc.Step (s.answer a.producer a.consumer) { t with consumer := a.consumer } := by
        rw [← hp]
        exact step_withConsumer hbase hother a.consumer
      refine ⟨_, .single hanswer, Spsc.inv_step hinv hanswer, rfl, ?_, hother ▸ hreader⟩
      exact hw ▸ .idle t.producer
  | read t hbase hother hr =>
      have hc : s.base.consumer = a.consumer := ReaderSim.eq_of_idle (hr ▸ hreader)
      have hanswer : Spsc.Step (s.answer a.producer a.consumer) { t with producer := a.producer } := by
        rw [← hc]
        exact step_withProducer hbase hother a.producer
      refine ⟨_, .single hanswer, Spsc.inv_step hinv hanswer, rfl, hother ▸ hwriter, ?_⟩
      exact hr ▸ .idle t.consumer
  | batchWrite hwrite =>
      obtain ⟨p', hanswer, hwriter'⟩ := hwrite.simulated hinv hwriter
      obtain ⟨hr, hc⟩ := hwrite.other
      exact ⟨_, hanswer, inv_of_reflGen hinv hanswer, rfl, hwriter', hr ▸ hc ▸ hreader⟩
  | batchRead hread =>
      obtain ⟨c', hanswer, hreader'⟩ := hread.simulated hinv hreader
      obtain ⟨hw, hp⟩ := hread.other
      exact ⟨_, hanswer, inv_of_reflGen hinv hanswer, rfl, hw ▸ hp ▸ hwriter, hreader'⟩

theorem answers_reachable (buf : ℕ → UInt8) (hsize : 1 ≤ size)
    (h : Relation.ReflTransGen Step (State.initial buf size) s) : ∃ a, Answers size s a := by
  have hinitial : Answers size (State.initial buf size) (.initial buf size) :=
    ⟨Spsc.inv_initial buf hsize, rfl, .idle _, .idle _⟩
  obtain ⟨a, -, ha⟩ := Runs.reachable_of_simulation Answers.step hinitial h
  exact ⟨a, ha⟩

/-- The cell a batch stores into is the one the answering call stores into. -/
theorem Answers.nextStore {a : Spsc.State} (h : Answers size s a) {cell : ℕ}
    (hcell : s.nextStore = some cell) : a.producer.nextStore a.ring.size = some cell := by
  have hsize : s.base.ring.size = size := by
    have hring := h.inv.size_eq
    rwa [h.same] at hring
  have hwriter := h.writer
  unfold State.nextStore at hcell
  rw [hsize] at hcell
  rw [h.inv.size_eq]
  generalize s.writer = w at hcell hwriter
  generalize s.base.producer = q at hcell hwriter
  generalize a.producer = p at hwriter
  cases hwriter with
  | idle => exact hcell
  | called => cases hcell
  | loadedNothing => cases hcell
  | loadedRead => cases hcell
  | nothing => cases hcell
  | looping => cases hcell
  | published => cases hcell
  | @copying chunk m i chunks rp wp written data wp₀ n hwritten hdata hm hi =>
      simp only [Writer.nextStore, Option.ite_none_right_eq_some, Option.some.injEq] at hcell
      obtain ⟨hlt, rfl⟩ := hcell
      have hlen : data.length = written.length + (chunk.length + (chunkBytes chunks).length) := by
        rw [hdata, List.length_append, List.length_append]
      have hspace := hwritten.space_add
      have hn := hwritten.toWrite_eq
      have hcopied : written.length + i < n := by omega
      rw [Spsc.Producer.nextStore, if_pos hcopied, hwritten.cell (by omega) hlt hcopied]

theorem store_ne {a : Spsc.State} (h : Spsc.Inv size a) {cell j : ℕ}
    (hcell : a.producer.nextStore a.ring.size = some cell) (hj : j < ringbufferReadable a.ring) :
    cell ≠ (a.ring.readPtr + j) % a.ring.size := by
  obtain ⟨k, hk, hlap, rfl⟩ := Spsc.nextStore_eq h hcell
  rw [h.readable_eq] at hj
  rw [h.size_eq, h.readPtr_eq, Nat.mod_add_mod]
  exact (mod_ne_mod (by omega) (by omega)).symm

theorem accepted_eq {a : Spsc.State} (h : Spsc.Inv size a) (hp : a.producer = .idle)
    (hc : a.consumer = .idle) : a.accepted = a.returned ++ a.ring.queue := by
  have hproducer := h.producer
  have hconsumer := h.consumer
  rw [hp] at hproducer
  rw [hc] at hconsumer
  have hall : a.accepted = a.published := hproducer
  have hfront : a.released <+: a.published := hconsumer.1 ▸ h.copied_prefix
  rw [hall, h.queue_eq, hconsumer.2]
  exact (List.prefix_iff_eq_append.mp hfront).symm

/-- In every reachable state of every interleaving of single calls and batches: the bytes
copied out are a prefix of the published ones, the ring holds the published bytes that are not
released yet and no store hits one of their cells, and between calls nothing is lost or
duplicated. -/
theorem batches_interleave_safely (buf : ℕ → UInt8) (size : ℕ) (hsize : 1 ≤ size) (s : State)
    (h : Relation.ReflTransGen Step (State.initial buf size) s) :
    s.base.copied <+: s.base.published ∧
      s.base.ring.queue = s.base.published.drop s.base.released.length ∧
      (∀ cell, s.nextStore = some cell →
        ∀ j < ringbufferReadable s.base.ring,
          cell ≠ (s.base.ring.readPtr + j) % s.base.ring.size) ∧
      (s.writer = .idle → s.base.producer = .idle → s.reader = .idle → s.base.consumer = .idle →
        s.base.accepted = s.base.returned ++ s.base.ring.queue) := by
  obtain ⟨a, ha⟩ := answers_reachable buf hsize h
  have hinv : Spsc.Inv size (s.answer a.producer a.consumer) := ha.same ▸ ha.inv
  refine ⟨hinv.copied_prefix, hinv.queue_eq, ?_, ?_⟩
  · intro cell hcell j hj
    have hstore := ha.nextStore hcell
    rw [ha.same] at hstore
    exact store_ne hinv hstore hj
  · intro hw hp hr hc
    have hproducer : a.producer = .idle := (WriterSim.eq_of_idle (hw ▸ ha.writer)).symm.trans hp
    have hconsumer : a.consumer = .idle := (ReaderSim.eq_of_idle (hr ▸ ha.reader)).symm.trans hc
    have haccepted := accepted_eq hinv hproducer hconsumer
    exact haccepted

/-- Two chunks around a `NULL` pointer, the second one cut, while the consumer looks at the ring
between the two: it finds nothing before the batch is published. -/
theorem batches_interleave_two_chunks : ∃ s,
    Relation.ReflTransGen Step (State.initial (fun _ => 0) 3) s ∧
      s.base.accepted = [7, 8] ∧ s.base.accepted = s.base.returned ++ s.base.ring.queue := by
  have h := Relation.ReflTransGen.refl (r := Step) (a := State.initial (fun _ => 0) 3)
    |>.tail (.batchWrite (.call _ [some [7], none, some [8, 9]] rfl rfl))
    |>.tail (.batchWrite (.loadRead _ _ rfl (by decide)))
    |>.tail (.batchWrite (.loadWrite _ _ 0 rfl))
    |>.tail (.batchWrite (.chunk _ [7] _ 0 0 [] rfl (by decide) (by decide)))
    |>.tail (.batchWrite (.byte _ [7] 1 0 7 _ 0 0 [] rfl (by decide) rfl))
    |>.tail (.batchRead (.call _ [⟨true, 5⟩] rfl rfl))
    |>.tail (.batchRead (.loadWrite _ _ rfl (by decide)))
    |>.tail (.batchWrite (.next _ [7] 1 _ 0 0 [] rfl))
    |>.tail (.batchWrite (.skip _ none _ 0 1 [7] rfl rfl))
    |>.tail (.batchWrite (.chunk _ [8, 9] _ 0 1 [7] rfl (by decide) (by decide)))
    |>.tail (.batchWrite (.byte _ [8, 9] 1 0 8 _ 0 1 [7] rfl (by decide) rfl))
    |>.tail (.batchWrite (.next _ [8, 9] 1 _ 0 1 [7] rfl))
    |>.tail (.batchWrite (.publish _ 0 2 [7, 8] rfl (by decide)))
    |>.tail (.batchWrite (.finish _ [7, 8] rfl))
    |>.tail (.batchRead (.loadRead _ _ 0 rfl))
    |>.tail (.batchRead (.empty _ ⟨true, 5⟩ _ 0 0 [] rfl rfl rfl))
    |>.tail (.batchRead (.finishNothing _ 0 0 rfl))
  exact ⟨_, h, rfl, (batches_interleave_safely _ 3 (by decide) _ h).2.2.2 rfl rfl rfl rfl⟩

end WebSocketHft.SpscBatch

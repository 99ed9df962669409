import WebSocketHft.Verification.Transmit.Runs

/-! # Masking of the outgoing stream

Of the three functions that build frames only `websocket_send_pong` masks them.
A stream of whole frames is masked throughout exactly when it is made of pongs. -/

namespace WebSocketHft

open WebSocketHft.Memory

/-! ## Reading the mask bits back -/

theorem masks_of_encodeAll_eq {fs gs : List WireFrame} (h : encodeAll fs = encodeAll gs) :
    fs.map (·.maskingKey.isSome) = gs.map (·.maskingKey.isSome) := by
  induction fs generalizing gs with
  | nil =>
      have hnil : gs = [] := encodeAll_length_eq_zero.mp (by rw [← h]; rfl)
      rw [hnil]
  | cons f fs ih =>
      cases gs with
      | nil =>
          have hnil := encodeAll_length_eq_zero.mp (congrArg List.length h)
          exact absurd hnil (List.cons_ne_nil f fs)
      | cons g gs =>
          rw [encodeAll_cons, encodeAll_cons] at h
          obtain ⟨hmask, hrest⟩ := encode_append_inj h
          rw [List.map_cons, List.map_cons, hmask, ih hrest]

/-! ## Masked streams -/

/-- Every frame that was begun with room left is a pong. -/
def OnlyPongs (es : List Event) : Prop :=
  ∀ header payload clear space allocated,
    Event.transmit header payload clear space allocated ∈ es → space ≠ 0 →
      header.head? = some pongByte0

theorem onlyPongs_iff {es : List Event} :
    OnlyPongs es ↔ ∀ b ∈ es.filterMap Event.begun?, b.1 = true := by
  constructor
  · intro h b hb
    obtain ⟨e, he, hbegun⟩ := List.mem_filterMap.mp hb
    cases e with
    | transmit header payload clear space allocated =>
        by_cases hspace : space = 0
        · simp [Event.begun?, hspace] at hbegun
        · have hpong := h _ _ _ _ _ he hspace
          simp only [Event.begun?, if_neg hspace, hpong, Option.some.injEq] at hbegun
          rw [← hbegun]
          rfl
    | _ => cases hbegun
  · intro h header payload clear space allocated he hspace
    have hbegun : (Event.transmit header payload clear space allocated).begun? =
        some (decide (header.head? = some pongByte0), clear) := if_neg hspace
    exact of_decide_eq_true (h _ (List.mem_filterMap.mpr ⟨_, he, hbegun⟩))

/-- The payloads in clear of the frames that were begun with room left, in order. -/
def clearOf (es : List Event) : List (List UInt8) := (es.filterMap Event.begun?).map Prod.snd

/-- Whole frames with the clear payloads have been queued. They are masked throughout exactly if
all are pongs. -/
theorem Framed.masked_iff {es : List Event} (h : Framed es) (hharmless : ∀ e ∈ es, e.Harmless) :
    (∃ frames : List WireFrame, (queuedOf es).flatten = encodeAll frames ∧
        frames.map WireFrame.payload = clearOf es ∧ ∀ f ∈ frames, f.maskingKey.isSome) ↔
      OnlyPongs es := by
  obtain ⟨frames, hframes⟩ := h.whole hharmless
  have hmasks : (es.filterMap Event.begun?).map Prod.fst = frames.map (·.maskingKey.isSome) := by
    rw [← hframes.begun, List.map_map]
    rfl
  have hclear : frames.map WireFrame.payload = clearOf es := by
    rw [clearOf, ← hframes.begun, List.map_map]
    rfl
  have hpongs : OnlyPongs es ↔ ∀ f ∈ frames, f.maskingKey.isSome := by
    rw [onlyPongs_iff, ← List.forall_mem_map (f := Prod.fst) (P := fun b => b = true), hmasks,
      List.forall_mem_map]
  rw [hpongs]
  constructor
  · rintro ⟨gs, hgs, -, hall⟩
    have hsame := masks_of_encodeAll_eq (hframes.queued.symm.trans hgs)
    intro f hf
    have hmem : f.maskingKey.isSome ∈ gs.map (·.maskingKey.isSome) := by
      rw [← hsame]
      exact List.mem_map_of_mem hf
    obtain ⟨g, hg, hmask⟩ := List.mem_map.mp hmem
    rw [← hmask]
    exact hall g hg
  · intro hall
    exact ⟨frames, hframes.queued, hclear, hall⟩

/-- Over every run: the frames begun since the upgrade request have the mask bit set and carry a
key with which their clear payload has been combined, exactly if all are pongs. If each found
room for all of it, the bytes queued since then are masked frames with the clear payloads exactly
if all are pongs. The bytes queued are those that follow the request in the transmit ring, from
which no more bytes are gone than have been sent. -/
theorem client_frames_masked_iff (env : Env) (allocated : Bool) (calls : List PublicCall) :
    let ws := runCalls env allocated calls
    let es := sinceRequest ws.trace
    ((∀ header payload clear space alloc,
        Event.transmit header payload clear space alloc ∈ es → space ≠ 0 →
          MaskedBytes header payload clear) ↔ OnlyPongs es) ∧
      ((∀ header payload clear space alloc,
          Event.transmit header payload clear space alloc ∈ es →
            HarmlessTransmit header payload space alloc) →
        ((∃ frames : List WireFrame, (queuedOf es).flatten = frames.flatMap WireFrame.encode ∧
            frames.map WireFrame.payload = clearOf es ∧ ∀ f ∈ frames, f.maskingKey.isSome) ↔
          OnlyPongs es)) ∧
      (0 < ws.txRing.size → ∃ taken,
        taken ++ ws.txRing.queue = lastRequest ws.trace ++ (queuedOf es).flatten ∧
          taken.length ≤ (sentOf es).length) := by
  intro ws es
  have hinv : TxInv ws := txInv_runCalls env allocated calls
  refine ⟨⟨?_, ?_⟩, ?_, ?_⟩
  · intro hmasked header payload clear space alloc he hspace
    exact (hinv.framed.built _ _ _ _ _ he).masked_iff.mp (hmasked _ _ _ _ _ he hspace)
  · intro hpongs header payload clear space alloc he hspace
    exact (hinv.framed.built _ _ _ _ _ he).masked_iff.mpr (hpongs _ _ _ _ _ he hspace)
  · intro hharmless
    refine hinv.framed.masked_iff fun e he => ?_
    cases e with
    | transmit header payload clear space alloc => exact hharmless _ _ _ _ _ he
    | _ => trivial
  · intro hsize
    obtain ⟨taken, hbytes, hlen, -⟩ := hinv.stream hsize
    exact ⟨taken, hbytes, hlen⟩

/-- A connection is opened and answers a ping. -/
def pinged : List PublicCall :=
  [.connect (ascii "ws://h/") {},
    .process (some [⟨0, 0, false, false, .read, .received (ascii ("HTTP/1.1 101 OK\r\n" ++
      "Upgrade: websocket\r\nConnection: Upgrade\r\n\r\n")) none⟩]),
    .process (some [⟨0, 0, false, false, .read, .received [0x89, 0x02, 0x48, 0x69] none⟩])]

/-- Its pong is masked. -/
theorem pinged_frames_masked :
    let es := sinceRequest (runCalls (fun _ => { maskingKey := ⟨1, 2, 3, 4⟩ }) true pinged).trace
    (queuedOf es).flatten = [0x8A, 0x82, 1, 2, 3, 4, 0x49, 0x6B] ∧ clearOf es = [[0x48, 0x69]] ∧
      ∃ frames : List WireFrame, (queuedOf es).flatten = frames.flatMap WireFrame.encode ∧
        frames.map WireFrame.payload = [[0x48, 0x69]] ∧ ∀ f ∈ frames, f.maskingKey.isSome := by
  intro es
  have hfacts : (queuedOf es).flatten = [0x8A, 0x82, 1, 2, 3, 4, 0x49, 0x6B] ∧
      clearOf es = [[0x48, 0x69]] ∧ (∀ e ∈ es, e.Harmless) ∧
      ∀ b ∈ es.filterMap Event.begun?, b.1 = true := by
    decide +kernel
  obtain ⟨hqueued, hclear, hharmless, hpongs⟩ := hfacts
  have hmasked := ((client_frames_masked_iff (fun _ => { maskingKey := ⟨1, 2, 3, 4⟩ }) true
    pinged).2.1 fun _ _ _ _ _ he => hharmless _ he).mpr (onlyPongs_iff.mpr hpongs)
  refine ⟨hqueued, hclear, ?_⟩
  rwa [← hclear]

/-- After the greeting the frame `81 02 48 69` has been queued, without a mask. -/
theorem greeting_sent_unmasked :
    let es := sinceRequest (runCalls (fun _ => {}) true greeting).trace
    queuedOf es = [[0x81, 0x02], [0x48, 0x69]] ∧
      (∃ space, Event.transmit [0x81, 0x02] [0x48, 0x69] [0x48, 0x69] space true ∈ es ∧
        space ≠ 0) ∧
      ¬MaskedBytes [0x81, 0x02] [0x48, 0x69] [0x48, 0x69] := by
  intro es
  have hfacts : queuedOf es = [[0x81, 0x02], [0x48, 0x69]] ∧
      Event.transmit [0x81, 0x02] [0x48, 0x69] [0x48, 0x69] (ringbufferSize - 117) true ∈ es := by
    decide +kernel
  refine ⟨hfacts.1, ⟨_, hfacts.2, by decide⟩, ?_⟩
  exact fun hmasked => absurd hmasked.byte1 (by decide)

end WebSocketHft

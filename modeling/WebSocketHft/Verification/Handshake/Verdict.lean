import WebSocketHft.Verification.Handshake.Response

/-! # The verdict on a response

What `parse_handshake_response` makes of the readable bytes, as a function of
these bytes. A verdict other than "need more data" is not changed by bytes that
come later. What is taken out of the ring is the header block only where the
block starts at the read pointer, is short enough and holds no zero byte. -/

namespace WebSocketHft

open WebSocketHft.Memory WebSocketHft.Substring

/-! ## The verdict as a function of the bytes -/

/-- The response that starts at position `httpOffset` is accepted. -/
structure Accepts (response : List UInt8) (allocated : Bool) (httpOffset : ℕ) : Prop where
  starts : findHttpStart response = some httpOffset
  status : httpValid (responseCopy response httpOffset) = true
  allocated : allocated = true
  headers : headersValid (responseCopy response httpOffset) = true

/-- No response starts where one should have, or the one that does is not a 101, or the copy
for the search cannot be allocated. -/
def Rejects (response : List UInt8) (allocated : Bool) : Prop :=
  findHttpStart response = none ∧ 200 < response.length ∨
    ∃ httpOffset, findHttpStart response = some httpOffset ∧
      (httpValid (responseCopy response httpOffset) = false ∨ allocated = false)

theorem findHttpStart_eq_some {response : List UInt8} {i : ℕ} :
    findHttpStart response = some i ↔
      httpStartsAt response i = true ∧ i < min response.length 100 ∧
        ∀ j < i, httpStartsAt response j = false := by
  rw [findHttpStart, List.find?_range_eq_some]
  simp only [List.mem_range, Bool.not_eq_true']

theorem findHttpStart_eq_none {response : List UInt8} :
    findHttpStart response = none ↔
      ∀ i < min response.length 100, httpStartsAt response i = false := by
  rw [findHttpStart, List.find?_range_eq_none]
  simp only [Bool.not_eq_true']

theorem length_of_httpStartsAt {response : List UInt8} {i : ℕ}
    (h : httpStartsAt response i = true) : 12 ≤ response.length - i := by
  simp only [httpStartsAt, decide_eq_true_eq] at h
  exact h.1

theorem parseHandshakeResponse_none {rb : RingBuffer} (allocated : Bool)
    (hlen : 12 ≤ ringbufferReadable rb) (h : findHttpStart rb.linear = none) :
    parseHandshakeResponse rb allocated =
      if 200 < ringbufferReadable rb then (-1, rb) else (1, rb) := by
  have hlong : ¬(ringbufferReadInline rb).len < 12 := not_lt.mpr hlen
  have hsome : ¬(ringbufferReadInline rb).len = 0 := by omega
  have hstart : findHttpStart (load rb.buf (ringbufferReadInline rb).data
      (ringbufferReadInline rb).len) = none := h
  unfold parseHandshakeResponse
  dsimp only
  rw [if_neg hsome, if_neg hlong, hstart]
  rfl

theorem parseHandshakeResponse_some {rb : RingBuffer} (allocated : Bool) {httpOffset : ℕ}
    (h : findHttpStart rb.linear = some httpOffset) :
    parseHandshakeResponse rb allocated =
      if httpValid (responseCopy rb.linear httpOffset) = false then (-1, rb)
      else if allocated = false then (-1, rb)
      else if headersValid (responseCopy rb.linear httpOffset) then
        (0, consumeResponse rb httpOffset)
      else (1, rb) := by
  have hlen := length_of_httpStartsAt (findHttpStart_eq_some.mp h).1
  rw [RingBuffer.linear, load_length] at hlen
  have hlong : ¬(ringbufferReadInline rb).len < 12 := by
    change ¬ringbufferReadable rb < 12
    omega
  have hsome : ¬(ringbufferReadInline rb).len = 0 := by omega
  have hstart : findHttpStart (load rb.buf (ringbufferReadInline rb).data
      (ringbufferReadInline rb).len) = some httpOffset := h
  unfold parseHandshakeResponse
  dsimp only
  rw [if_neg hsome, if_neg hlong, hstart]
  rfl

/-- An accepted response is consumed. -/
theorem parseHandshakeResponse_of_accepts {rb : RingBuffer} {allocated : Bool} {httpOffset : ℕ}
    (h : Accepts rb.linear allocated httpOffset) :
    parseHandshakeResponse rb allocated = (0, consumeResponse rb httpOffset) := by
  rw [parseHandshakeResponse_some allocated h.starts, if_neg (by simp [h.status]),
    if_neg (by simp [h.allocated]), if_pos h.headers]

theorem parseHandshakeResponse_of_rejects {rb : RingBuffer} {allocated : Bool}
    (h : Rejects rb.linear allocated) : parseHandshakeResponse rb allocated = (-1, rb) := by
  rcases h with ⟨hnone, hmany⟩ | ⟨httpOffset, hsome, hbad⟩
  · rw [RingBuffer.linear, load_length] at hmany
    rw [parseHandshakeResponse_none allocated (by omega) hnone, if_pos hmany]
  · rw [parseHandshakeResponse_some allocated hsome]
    rcases hbad with hstatus | halloc
    · rw [if_pos hstatus]
    · rw [if_pos halloc, ite_self]

/-- Anything else waits for more data. -/
theorem parseHandshakeResponse_of_undecided {rb : RingBuffer} {allocated : Bool}
    (haccepts : ¬∃ httpOffset, Accepts rb.linear allocated httpOffset)
    (hrejects : ¬Rejects rb.linear allocated) :
    parseHandshakeResponse rb allocated = (1, rb) := by
  cases hstart : findHttpStart rb.linear with
  | none =>
      rcases Nat.lt_or_ge (ringbufferReadable rb) 12 with hshort | hlong
      · exact parseHandshakeResponse_short allocated hshort
      · have hfew : ¬200 < ringbufferReadable rb := by
          intro hmany
          exact hrejects (Or.inl ⟨hstart, by rwa [RingBuffer.linear, load_length]⟩)
        rw [parseHandshakeResponse_none allocated hlong hstart, if_neg hfew]
  | some httpOffset =>
      have hstatus : ¬httpValid (responseCopy rb.linear httpOffset) = false :=
        fun hbad => hrejects (Or.inr ⟨httpOffset, hstart, Or.inl hbad⟩)
      have halloc : ¬allocated = false :=
        fun hbad => hrejects (Or.inr ⟨httpOffset, hstart, Or.inr hbad⟩)
      have hheaders : ¬headersValid (responseCopy rb.linear httpOffset) = true :=
        fun hvalid => haccepts ⟨httpOffset, hstart, Bool.eq_true_of_not_eq_false hstatus,
          Bool.eq_true_of_not_eq_false halloc, hvalid⟩
      rw [parseHandshakeResponse_some allocated hstart, if_neg hstatus, if_neg halloc,
        if_neg hheaders]

/-- The verdicts and what they stand for. -/
theorem parseHandshakeResponse_verdict (rb : RingBuffer) (allocated : Bool) :
    ((parseHandshakeResponse rb allocated).1 = 0 ↔
        ∃ httpOffset, Accepts rb.linear allocated httpOffset) ∧
      ((parseHandshakeResponse rb allocated).1 = -1 ↔ Rejects rb.linear allocated) := by
  by_cases haccepts : ∃ httpOffset, Accepts rb.linear allocated httpOffset
  · obtain ⟨httpOffset, h⟩ := haccepts
    rw [parseHandshakeResponse_of_accepts h]
    refine ⟨iff_of_true rfl ⟨httpOffset, h⟩, iff_of_false (show ¬(0 : ℤ) = -1 by decide) ?_⟩
    intro hrejects
    have heq := parseHandshakeResponse_of_rejects hrejects
    rw [parseHandshakeResponse_of_accepts h] at heq
    exact absurd (congrArg Prod.fst heq) (show ¬(0 : ℤ) = -1 by decide)
  · by_cases hrejects : Rejects rb.linear allocated
    · rw [parseHandshakeResponse_of_rejects hrejects]
      exact ⟨iff_of_false (show ¬(-1 : ℤ) = 0 by decide) haccepts, iff_of_true rfl hrejects⟩
    · rw [parseHandshakeResponse_of_undecided haccepts hrejects]
      exact ⟨iff_of_false (show ¬(1 : ℤ) = 0 by decide) haccepts,
        iff_of_false (show ¬(1 : ℤ) = -1 by decide) hrejects⟩

/-! ## More bytes -/

section More

variable {b : List UInt8} (c : List UInt8)

/-- Longer texts with the same front start with the same patterns that fit into the front. -/
theorem prefix_iff_of_prefix {α : Type*} {pat s s' : List α} (h : s <+: s')
    (hlen : pat.length ≤ s.length) : pat <+: s' ↔ pat <+: s :=
  ⟨fun hpat => List.prefix_of_prefix_length_le hpat h hlen, fun hpat => hpat.trans h⟩

theorem httpStartsAt_append {i : ℕ} (h : 12 ≤ b.length - i) :
    httpStartsAt (b ++ c) i = httpStartsAt b i := by
  have hfront : b.drop i <+: (b ++ c).drop i := by
    rw [List.drop_append_of_le_length (by omega)]
    exact List.prefix_append _ _
  have hlong : 12 ≤ (b ++ c).length - i := by
    rw [List.length_append]
    omega
  have hpat (version : List UInt8) (hversion : version.length = 8) :
      version <+: (b ++ c).drop i ↔ version <+: b.drop i :=
    prefix_iff_of_prefix hfront (by rw [List.length_drop]; omega)
  simp only [httpStartsAt, h, hlong, true_and, hpat (ascii "HTTP/1.1") (by decide),
    hpat (ascii "HTTP/1.0") (by decide)]

/-- The first place where a response starts stays the first. -/
theorem findHttpStart_append {i : ℕ} (h : findHttpStart b = some i) :
    findHttpStart (b ++ c) = some i := by
  obtain ⟨hstart, hlt, hbefore⟩ := findHttpStart_eq_some.mp h
  have hlen := length_of_httpStartsAt hstart
  refine findHttpStart_eq_some.mpr ⟨?_, ?_, ?_⟩
  · rwa [httpStartsAt_append c hlen]
  · rw [List.length_append]
    omega
  · intro j hj
    rw [httpStartsAt_append c (by omega)]
    exact hbefore j hj

/-- After 200 bytes without one, none is found any more. -/
theorem findHttpStart_append_none (h : findHttpStart b = none) (hlen : 200 < b.length) :
    findHttpStart (b ++ c) = none := by
  rw [findHttpStart_eq_none] at h ⊢
  intro i hi
  rw [httpStartsAt_append c (by omega)]
  exact h i (by omega)

theorem responseCopy_append (i : ℕ) (h : i ≤ b.length) :
    responseCopy b i <+: responseCopy (b ++ c) i := by
  rw [responseCopy, responseCopy, List.drop_append_of_le_length h, List.take_append]
  exact List.prefix_append _ _

theorem httpValid_of_prefix {copy copy' : List UInt8} (h : copy <+: copy')
    (hlen : 12 ≤ copy.length) : httpValid copy' = httpValid copy := by
  have hlen' : 12 ≤ copy'.length := hlen.trans h.length_le
  have hpat (status : List UInt8) (hstatus : status.length = 12) :
      status <+: copy' ↔ status <+: copy := prefix_iff_of_prefix h (hstatus.le.trans hlen)
  simp only [httpValid, hlen, hlen', true_and, hpat (ascii "HTTP/1.1 101") (by decide),
    hpat (ascii "HTTP/1.0 101") (by decide)]

theorem httpValid_append {i : ℕ} (h : findHttpStart b = some i) :
    httpValid (responseCopy (b ++ c) i) = httpValid (responseCopy b i) := by
  have hlen := length_of_httpStartsAt (findHttpStart_eq_some.mp h).1
  refine httpValid_of_prefix (responseCopy_append c i (by omega)) ?_
  rw [responseCopy, List.length_take, List.length_drop]
  exact le_min (by decide) hlen

theorem Accepts.append {allocated : Bool} {i : ℕ} (h : Accepts b allocated i) :
    Accepts (b ++ c) allocated i := by
  have hlen := length_of_httpStartsAt (findHttpStart_eq_some.mp h.starts).1
  refine ⟨findHttpStart_append c h.starts, ?_, h.allocated, ?_⟩
  · rw [httpValid_append c h.starts]
    exact h.status
  · exact headersValid_mono (responseCopy_append c i (by omega)) h.headers

theorem Rejects.append {allocated : Bool} (h : Rejects b allocated) :
    Rejects (b ++ c) allocated := by
  rcases h with ⟨hnone, hmany⟩ | ⟨i, hsome, hbad⟩
  · refine Or.inl ⟨findHttpStart_append_none c hnone hmany, ?_⟩
    rw [List.length_append]
    omega
  · refine Or.inr ⟨i, findHttpStart_append c hsome, ?_⟩
    rwa [httpValid_append c hsome]

end More

/-- For all byte strings: the verdict on the longer one is the verdict on its front, unless that
was to wait for more. -/
theorem verdict_never_reversed (b c : List UInt8) (rb rb' : RingBuffer) (hun : rb.Unwrapped)
    (hun' : rb'.Unwrapped) (hb : rb.queue = b) (hb' : rb'.queue = b ++ c)
    (h : (parseHandshakeResponse rb true).1 = 0 ∨ (parseHandshakeResponse rb true).1 = -1) :
    (parseHandshakeResponse rb' true).1 = (parseHandshakeResponse rb true).1 := by
  obtain ⟨haccepts, hrejects⟩ := parseHandshakeResponse_verdict rb true
  obtain ⟨haccepts', hrejects'⟩ := parseHandshakeResponse_verdict rb' true
  rw [← queue_eq_linear hun, hb] at haccepts hrejects
  rw [← queue_eq_linear hun', hb'] at haccepts' hrejects'
  rcases h with hzero | hnegative
  · obtain ⟨i, hi⟩ := haccepts.mp hzero
    rw [hzero]
    exact haccepts'.mpr ⟨i, hi.append c⟩
  · rw [hnegative]
    exact hrejects'.mpr ((hrejects.mp hnegative).append c)

/-- A response with status 404 is rejected at its twelfth byte and stays rejected. -/
theorem not_found_stays_rejected :
    (parseHandshakeResponse (ringbufferInit.produce (ascii "HTTP/1.1 404")) true).1 = -1 ∧
      (parseHandshakeResponse (ringbufferInit.produce (ascii "HTTP/1.1 404 Not Found\r\n")) true).1 =
        (parseHandshakeResponse (ringbufferInit.produce (ascii "HTTP/1.1 404")) true).1 := by
  have hrejected :
      (parseHandshakeResponse (ringbufferInit.produce (ascii "HTTP/1.1 404")) true).1 = -1 := by
    decide +kernel
  exact ⟨hrejected, verdict_never_reversed (ascii "HTTP/1.1 404") (ascii " Not Found\r\n") _ _
    (unwrapped_produce_init _) (unwrapped_produce_init _) (queue_produce_init (by decide))
    (queue_produce_init (by decide)) (Or.inr hrejected)⟩

/-! ## What is taken out of the ring -/

/-- The queue held a header block, from the first `HTTP/1.` to the first blank line behind it,
and what is left is what follows the block. -/
def BlockTaken (queue queue' : List UInt8) : Prop :=
  ∃ before block, queue = before ++ (block ++ queue') ∧
    findInfix (ascii "HTTP/1.") queue = some before.length ∧
    findInfix (ascii "\r\n\r\n") block = some (block.length - 4)

theorem four_le_of_blank_line {block : List UInt8} {i : ℕ}
    (h : findInfix (ascii "\r\n\r\n") block = some i) : i + 4 ≤ block.length :=
  add_length_le_of_findInfix h

theorem not_blockTaken_self (queue : List UInt8) : ¬BlockTaken queue queue := by
  rintro ⟨before, block, hqueue, -, hend⟩
  have hfour := four_le_of_blank_line hend
  have hlen := congrArg List.length hqueue
  rw [List.length_append, List.length_append] at hlen
  omega

/-- Where the response starts at the read pointer, it starts with its version. -/
theorem version_of_httpStartsAt {response : List UInt8} (h : httpStartsAt response 0 = true) :
    ascii "HTTP/1." <+: response := by
  simp only [httpStartsAt, decide_eq_true_eq, List.drop_zero] at h
  rcases h.2 with hversion | hversion
  · exact (show ascii "HTTP/1." <+: ascii "HTTP/1.1" by decide).trans hversion
  · exact (show ascii "HTTP/1." <+: ascii "HTTP/1.0" by decide).trans hversion

section Consuming

variable {rb : RingBuffer}

/-- Bytes before the response are not skipped: the read without a destination takes nothing. -/
theorem consumeResponse_of_offset {httpOffset : ℕ} (h : httpOffset ≠ 0) :
    consumeResponse rb httpOffset = rb := by
  unfold consumeResponse
  cases headerEnd rb (rb.readPtr + httpOffset) with
  | none => rfl
  | some endPos =>
      simp only [ringbufferRead_null]
      rw [if_neg (Ne.symm h)]

theorem queue_consumeResponse_zero (hvalid : rb.Valid) :
    (consumeResponse rb 0).queue =
      match headerEnd rb rb.readPtr with
      | none => rb.queue
      | some endPos => rb.queue.drop (min (endPos + 4) 4096) := by
  unfold consumeResponse
  rw [Nat.add_zero]
  cases headerEnd rb rb.readPtr with
  | none => rfl
  | some endPos =>
      have hcap : (if endPos + 4 < 4096 then endPos + 4 else 4096) = min (endPos + 4) 4096 := by
        split_ifs <;> omega
      simp only [ringbufferRead_null, if_true, ringbufferRead_eq hvalid, hcap]
      rw [queue_consume hvalid (min_le_right _ _), ← length_queue, ← List.drop_eq_drop_min]

/-- The search for the blank line finds one within the C string at the read pointer. -/
theorem headerEnd_readPtr (hun : rb.Unwrapped) :
    ∃ rest, headerEnd rb rb.readPtr =
      findInfix (ascii "\r\n\r\n") ((rb.queue ++ rest).takeWhile (· ≠ 0)) := by
  obtain ⟨rest, hstring⟩ := cStringAt_readPtr hun (List.prefix_refl rb.linear)
  exact ⟨rest, by rw [headerEnd, hstring, queue_eq_linear hun]⟩

/-- The blank line of the queue is found if no zero byte comes before its end. -/
theorem headerEnd_of_clean (hun : rb.Unwrapped) {endPos : ℕ}
    (hend : findInfix (ascii "\r\n\r\n") rb.queue = some endPos)
    (hnul : 0 ∉ rb.queue.take (endPos + 4)) : headerEnd rb rb.readPtr = some endPos := by
  obtain ⟨rest, hsearch⟩ := headerEnd_readPtr hun
  have hall : ∀ c ∈ rb.queue.take (endPos + 4), decide (c ≠ 0) = true :=
    fun c hc => decide_eq_true fun hzero => hnul (hzero ▸ hc)
  have hblock : findInfix (ascii "\r\n\r\n") (rb.queue.take (endPos + 4)) = some endPos :=
    findInfix_take hend
  rw [hsearch, ← List.take_append_drop (endPos + 4) rb.queue, List.append_assoc,
    List.takeWhile_append_of_pos hall]
  exact findInfix_append hblock _

end Consuming

/-- The response starts at the read pointer, and its blank line ends within 4096 bytes and
before any zero byte. -/
def PlainBlock (queue : List UInt8) (httpOffset : ℕ) : Prop :=
  httpOffset = 0 ∧ ∃ endPos, findInfix (ascii "\r\n\r\n") queue = some endPos ∧
    endPos + 4 ≤ 4096 ∧ 0 ∉ queue.take (endPos + 4)

/-- What is left of an accepted response is what follows its block exactly for plain blocks. -/
theorem blockTaken_consumeResponse_iff {rb : RingBuffer} (hvalid : rb.Valid) (hun : rb.Unwrapped)
    {httpOffset : ℕ} (hstart : httpStartsAt rb.queue httpOffset = true) :
    BlockTaken rb.queue (consumeResponse rb httpOffset).queue ↔ PlainBlock rb.queue httpOffset := by
  by_cases hoffset : httpOffset = 0
  · subst hoffset
    have hversion := findInfix_of_prefix (version_of_httpStartsAt hstart)
    have hqueue := queue_consumeResponse_zero hvalid
    constructor
    · intro htaken
      obtain ⟨rest, hsearch⟩ := headerEnd_readPtr hun
      cases hend : headerEnd rb rb.readPtr with
      | none =>
          rw [hend] at hqueue
          dsimp only at hqueue
          rw [hqueue] at htaken
          exact absurd htaken (not_blockTaken_self rb.queue)
      | some endPos =>
          rw [hend] at hqueue hsearch
          dsimp only at hqueue
          rw [hqueue] at htaken
          obtain ⟨before, block, hsplit, hbefore, hblank⟩ := htaken
          rw [hversion, Option.some.injEq, eq_comm, List.length_eq_zero_iff] at hbefore
          subst hbefore
          rw [List.nil_append] at hsplit
          have hfour := four_le_of_blank_line hblank
          have hlen := congrArg List.length hsplit
          rw [List.length_append, List.length_drop] at hlen
          have hstring := four_le_of_blank_line hsearch.symm
          have hfirst : findInfix (ascii "\r\n\r\n") rb.queue = some (block.length - 4) := by
            rw [hsplit]
            exact findInfix_append hblank _
          refine ⟨rfl, block.length - 4, hfirst, by omega, ?_⟩
          exact not_mem_take_of_le_takeWhile rest (by omega) (by omega)
    · rintro ⟨-, endPos, hend, hshort, hnul⟩
      have hfour := four_le_of_blank_line hend
      rw [headerEnd_of_clean hun hend hnul] at hqueue
      dsimp only at hqueue
      rw [min_eq_left hshort] at hqueue
      refine ⟨[], rb.queue.take (endPos + 4), ?_, hversion, ?_⟩
      · rw [List.nil_append, hqueue, List.take_append_drop]
      · rw [List.length_take, min_eq_left hfour, Nat.add_sub_cancel]
        exact findInfix_take hend
  · rw [consumeResponse_of_offset hoffset]
    exact iff_of_false (not_blockTaken_self rb.queue) fun hplain => hoffset hplain.1

/-- For every content of the ring: `parse_handshake_response` takes out exactly the header block
when it accepts, and nothing otherwise, if and only if the response, should it be accepted, is a
plain block. -/
theorem handshake_consumes_block_iff (rb : RingBuffer) (allocated : Bool) (hvalid : rb.Valid)
    (hun : rb.Unwrapped) :
    (((parseHandshakeResponse rb allocated).1 = 0 →
          BlockTaken rb.queue (parseHandshakeResponse rb allocated).2.queue) ∧
        ((parseHandshakeResponse rb allocated).1 ≠ 0 →
          (parseHandshakeResponse rb allocated).2.queue = rb.queue)) ↔
      ∀ httpOffset, Accepts rb.queue allocated httpOffset → PlainBlock rb.queue httpOffset := by
  have hlinear := queue_eq_linear hun
  by_cases haccepts : ∃ httpOffset, Accepts rb.queue allocated httpOffset
  · obtain ⟨httpOffset, h⟩ := haccepts
    have honly : ∀ i, Accepts rb.queue allocated i → i = httpOffset := by
      intro i hi
      have hsame := hi.starts
      rw [h.starts, Option.some.injEq] at hsame
      exact hsame.symm
    have hstart := (findHttpStart_eq_some.mp h.starts).1
    have hparse : parseHandshakeResponse rb allocated = (0, consumeResponse rb httpOffset) :=
      parseHandshakeResponse_of_accepts (hlinear ▸ h)
    have htaken := blockTaken_consumeResponse_iff hvalid hun hstart
    rw [hparse]
    constructor
    · rintro ⟨hzero, -⟩ i hi
      rw [honly i hi]
      exact htaken.mp (hzero rfl)
    · intro hplain
      exact ⟨fun _ => htaken.mpr (hplain httpOffset h), fun hne => absurd rfl hne⟩
  · have hkeep : (parseHandshakeResponse rb allocated).1 ≠ 0 ∧
        (parseHandshakeResponse rb allocated).2 = rb := by
      by_cases hrejects : Rejects rb.linear allocated
      · rw [parseHandshakeResponse_of_rejects hrejects]
        exact ⟨show ¬(-1 : ℤ) = 0 by decide, rfl⟩
      · rw [parseHandshakeResponse_of_undecided (hlinear ▸ haccepts) hrejects]
        exact ⟨show ¬(1 : ℤ) = 0 by decide, rfl⟩
    refine iff_of_true ⟨fun hzero => absurd hzero hkeep.1, fun _ => by rw [hkeep.2]⟩ ?_
    exact fun i hi => absurd ⟨i, hi⟩ haccepts

/-- A short response and the start of a frame behind it. -/
def upgraded : List UInt8 :=
  ascii "HTTP/1.1 101 OK\r\nUpgrade: websocket\r\nConnection: Upgrade\r\n\r\n" ++ [0x81]

/-- At the read pointer the response is taken out. -/
theorem block_taken_at_readPtr :
    (parseHandshakeResponse (ringbufferInit.produce upgraded) true).1 = 0 ∧
      BlockTaken upgraded
        (parseHandshakeResponse (ringbufferInit.produce upgraded) true).2.queue := by
  have hzero : (parseHandshakeResponse (ringbufferInit.produce upgraded) true).1 = 0 := by
    decide +kernel
  have hqueue : (ringbufferInit.produce upgraded).queue = upgraded :=
    queue_produce_init (by decide +kernel)
  have hplain : ∀ httpOffset, Accepts upgraded true httpOffset →
      PlainBlock upgraded httpOffset := by
    intro httpOffset haccepts
    have hbytes : findHttpStart upgraded = some 0 ∧
        findInfix (ascii "\r\n\r\n") upgraded = some 56 ∧ 0 ∉ upgraded.take (56 + 4) := by
      decide +kernel
    obtain ⟨hstart, hend, hnul⟩ := hbytes
    rw [haccepts.starts, Option.some.injEq] at hstart
    exact ⟨hstart, 56, hend, by decide, hnul⟩
  have htaken := (handshake_consumes_block_iff (ringbufferInit.produce upgraded) true
    ⟨by decide, by decide⟩ (unwrapped_produce_init _)).mpr (hqueue.symm ▸ hplain)
  exact ⟨hzero, hqueue ▸ htaken.1 hzero⟩

/-- One byte further on it is accepted, but nothing is taken out. -/
theorem block_left_behind_one_byte :
    (parseHandshakeResponse (ringbufferInit.produce (0 :: upgraded)) true).1 = 0 ∧
      (parseHandshakeResponse (ringbufferInit.produce (0 :: upgraded)) true).2.queue =
        0 :: upgraded ∧
      ¬BlockTaken (ringbufferInit.produce (0 :: upgraded)).queue
        (parseHandshakeResponse (ringbufferInit.produce (0 :: upgraded)) true).2.queue := by
  have hparse : (parseHandshakeResponse (ringbufferInit.produce (0 :: upgraded)) true).1 = 0 ∧
      (parseHandshakeResponse (ringbufferInit.produce (0 :: upgraded)) true).2.queue =
        0 :: upgraded := by decide +kernel
  have hqueue : (ringbufferInit.produce (0 :: upgraded)).queue = 0 :: upgraded :=
    queue_produce_init (by decide +kernel)
  refine ⟨hparse.1, hparse.2, ?_⟩
  rw [hparse.2, hqueue]
  exact not_blockTaken_self _

end WebSocketHft

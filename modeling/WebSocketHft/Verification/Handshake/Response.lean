import WebSocketHft.Model.Handshake
import WebSocketHft.Verification.Ringbuffer.Equations

/-! # Looking at a response

Acceptance is decided on a copy of the bytes, the end of the header block is
searched for in the ring itself. Both searches stop at a zero byte. -/

namespace WebSocketHft

open WebSocketHft.Memory WebSocketHft.Substring

/-! ## The two required headers -/

theorem containsText_mono {s s' : List UInt8} (h : s <+: s') {pat : String}
    (hs : containsText s pat) : containsText s' pat := by
  rw [containsText, findInfix_isSome] at hs ⊢
  exact hs.trans (takeWhile_prefix_takeWhile _ h).isInfix

/-- What has been accepted stays accepted when more bytes follow. -/
theorem headersValid_mono {copy copy' : List UInt8} (h : copy <+: copy')
    (hvalid : headersValid copy) : headersValid copy' := by
  have hlower : copy.map toLower <+: copy'.map toLower := h.map toLower
  simp only [headersValid, Bool.and_eq_true, Bool.or_eq_true] at hvalid ⊢
  exact hvalid.imp (Or.imp (containsText_mono hlower) (containsText_mono hlower))
    (Or.imp (containsText_mono hlower) (containsText_mono hlower))

/-! ## The start of the response -/

theorem length_of_starts {response : List UInt8} (h : ascii "HTTP/1.1 101" <+: response) :
    12 ≤ response.length := h.length_le

theorem findHttpStart_of_starts {response : List UInt8} (h : ascii "HTTP/1.1 101" <+: response) :
    findHttpStart response = some 0 := by
  have hlen := length_of_starts h
  have hstart : httpStartsAt response 0 = true := by
    have hversion : ascii "HTTP/1.1" <+: response :=
      (show ascii "HTTP/1.1" <+: ascii "HTTP/1.1 101" by decide).trans h
    simp [httpStartsAt, hlen, hversion]
  obtain ⟨n, hn⟩ : ∃ n, min response.length 100 = n + 1 := ⟨min response.length 100 - 1, by omega⟩
  rw [findHttpStart, hn, List.range_succ_eq_map, List.find?_cons_of_pos hstart]

theorem httpValid_of_starts {response : List UInt8} (h : ascii "HTTP/1.1 101" <+: response) :
    httpValid (responseCopy response 0) = true := by
  have hcopy : ascii "HTTP/1.1 101" <+: responseCopy response 0 := by
    rw [responseCopy, List.drop_zero, List.prefix_take_iff]
    exact ⟨h, by decide⟩
  simp [httpValid, hcopy, length_of_starts hcopy]

/-! ## The verdict -/

theorem parseHandshakeResponse_short {rb : RingBuffer} (allocated : Bool)
    (h : ringbufferReadable rb < 12) : parseHandshakeResponse rb allocated = (1, rb) := by
  have hshort : (ringbufferReadInline rb).len < 12 := h
  unfold parseHandshakeResponse
  dsimp only
  rw [if_pos hshort]
  split_ifs <;> rfl

/-- Once the status line is there, the verdict depends on the two headers alone. -/
theorem parseHandshakeResponse_of_starts {rb : RingBuffer} (allocated : Bool)
    (h : ascii "HTTP/1.1 101" <+: rb.linear) :
    parseHandshakeResponse rb allocated =
      if allocated = false then (-1, rb)
      else if headersValid (responseCopy rb.linear 0) then (0, consumeResponse rb 0)
      else (1, rb) := by
  have hlen : 12 ≤ (ringbufferReadInline rb).len := by
    have hlinear := length_of_starts h
    rwa [RingBuffer.linear, load_length] at hlinear
  have hresponse : load rb.buf (ringbufferReadInline rb).data (ringbufferReadInline rb).len =
      rb.linear := rfl
  unfold parseHandshakeResponse
  dsimp only
  rw [if_neg (by omega), if_neg (not_lt.mpr hlen), hresponse, findHttpStart_of_starts h]
  simp [httpValid_of_starts h]

/-! ## The end of the header block -/

/-- The bytes up to and with the first blank line of an HTTP/1.1 response with status 101
that is accepted when it is buffered whole. -/
structure HeaderBlock (block : List UInt8) : Prop where
  starts : ascii "HTTP/1.1 101" <+: block
  ends : findInfix (ascii "\r\n\r\n") block = some (block.length - 4)
  length_le : block.length ≤ 4095
  accepted : (parseHandshakeResponse (ringbufferInit.produce block) true).1 = 0

variable {rb : RingBuffer} {block : List UInt8}

/-- The C string at the read pointer starts with what is readable there. -/
theorem cStringAt_readPtr (hun : rb.Unwrapped) (h : block <+: rb.linear) :
    ∃ rest, cStringAt rb rb.readPtr = (block ++ rest).takeWhile (· ≠ 0) := by
  obtain ⟨tail, htail⟩ := h
  have hlen := congrArg List.length htail
  rw [List.length_append, RingBuffer.linear, load_length] at hlen
  have hfit : rb.readPtr + ringbufferReadable rb ≤ rb.size := hun
  obtain ⟨n, hn⟩ : ∃ n, rb.size + ringbufferAlignment - rb.readPtr = block.length + n :=
    ⟨rb.size + ringbufferAlignment - rb.readPtr - block.length, by omega⟩
  refine ⟨load rb.buf (rb.readPtr + block.length) n, ?_⟩
  have hblock : load rb.buf rb.readPtr block.length = block := by
    rw [← load_take rb.buf rb.readPtr (ringbufferReadable rb) block.length (by omega)]
    change rb.linear.take block.length = block
    rw [← htail, List.take_left]
  rw [cStringAt, stringAt_eq_takeWhile, hn, load_add, hblock]

theorem headerEnd_of_block (hblock : HeaderBlock block) (hnul : 0 ∉ block) (hun : rb.Unwrapped)
    (h : block <+: rb.linear) : headerEnd rb rb.readPtr = some (block.length - 4) := by
  obtain ⟨rest, hstring⟩ := cStringAt_readPtr hun h
  have hall : ∀ c ∈ block, decide (c ≠ 0) = true := by
    intro c hc
    exact decide_eq_true fun hzero => hnul (hzero ▸ hc)
  rw [headerEnd, hstring, List.takeWhile_append_of_pos hall]
  exact findInfix_append hblock.ends _

/-- A zero byte inside the block hides its end. -/
theorem headerEnd_of_nul (hblock : HeaderBlock block) (hnul : 0 ∈ block) (hun : rb.Unwrapped)
    (h : block <+: rb.linear) : headerEnd rb rb.readPtr = none := by
  obtain ⟨rest, hstring⟩ := cStringAt_readPtr hun h
  have hlt := length_takeWhile_lt hnul
  have hpre : block.takeWhile (· ≠ 0) <+: block := List.takeWhile_prefix _
  rw [headerEnd, hstring, List.takeWhile_append, if_neg hlt.ne, ← Option.not_isSome_iff_eq_none,
    findInfix_isSome, List.prefix_iff_eq_take.mp hpre]
  intro hfound
  have hle := add_length_le_of_infix_take hblock.ends hfound
  have hpat : (ascii "\r\n\r\n").length = 4 := by decide
  have hlen := length_of_starts hblock.starts
  omega

/-! ## Consuming -/

/-- The block is taken out of the ring. -/
theorem consumeResponse_of_block (hvalid : rb.Valid) (hblock : HeaderBlock block)
    (hnul : 0 ∉ block) (hun : rb.Unwrapped) (h : block <+: rb.linear) :
    (consumeResponse rb 0).queue = rb.linear.drop block.length := by
  have hlen := length_of_starts hblock.starts
  have hle := hblock.length_le
  have hread : block.length ≤ ringbufferReadable rb := by
    have hlinear := h.length_le
    rwa [RingBuffer.linear, load_length] at hlinear
  have hheader : block.length - 4 + 4 = block.length := by omega
  simp only [consumeResponse, Nat.add_zero, headerEnd_of_block hblock hnul hun h, hheader,
    ringbufferRead_null, if_true, show block.length < 4096 by omega, ringbufferRead_eq hvalid,
    min_eq_left hread]
  rw [queue_consume hvalid hread, queue_eq_linear hun]

theorem consumeResponse_of_nul (hblock : HeaderBlock block) (hnul : 0 ∈ block)
    (hun : rb.Unwrapped) (h : block <+: rb.linear) : consumeResponse rb 0 = rb := by
  simp only [consumeResponse, Nat.add_zero, headerEnd_of_nul hblock hnul hun h]

/-- Nothing is ever added to the ring. -/
theorem length_queue_consumeResponse_le (hvalid : rb.Valid) (httpOffset : ℕ) :
    (consumeResponse rb httpOffset).queue.length ≤ ringbufferReadable rb := by
  have hself : rb.queue.length ≤ ringbufferReadable rb := (length_queue rb).le
  unfold consumeResponse
  cases headerEnd rb (rb.readPtr + httpOffset) with
  | none => exact hself
  | some endPos =>
      simp only [ringbufferRead_null, ringbufferRead_eq hvalid]
      split_ifs
      · rw [queue_consume hvalid (min_le_right _ _), List.length_drop, length_queue]
        exact Nat.sub_le _ _
      · rw [queue_consume hvalid (min_le_right _ _), List.length_drop, length_queue]
        exact Nat.sub_le _ _
      · exact hself

theorem length_queue_parseHandshakeResponse_le (hvalid : rb.Valid) (allocated : Bool) :
    (parseHandshakeResponse rb allocated).2.queue.length ≤ ringbufferReadable rb := by
  have hself : rb.queue.length ≤ ringbufferReadable rb := (length_queue rb).le
  unfold parseHandshakeResponse
  dsimp only
  cases findHttpStart
      (load rb.buf (ringbufferReadInline rb).data (ringbufferReadInline rb).len) with
  | none =>
      dsimp only
      split_ifs <;> exact hself
  | some httpOffset =>
      dsimp only
      split_ifs
      all_goals first
        | exact hself
        | exact length_queue_consumeResponse_le hvalid httpOffset

/-! ## Acceptance -/

theorem responseCopy_of_le {response : List UInt8} (h : response.length ≤ 4095) :
    responseCopy response 0 = response := by
  rw [responseCopy, List.drop_zero, List.take_of_length_le (h.trans (by decide))]

theorem unwrapped_produce_init (block : List UInt8) : (ringbufferInit.produce block).Unwrapped := by
  have hvalid : ringbufferInit.Valid := ⟨by decide, by decide⟩
  have hlt := (hvalid.produce block).readable_lt
  have hzero : (ringbufferInit.produce block).readPtr = 0 := rfl
  rw [RingBuffer.Unwrapped, hzero, Nat.zero_add]
  exact hlt.le

theorem queue_produce_init (h : block.length < ringbufferSize) :
    (ringbufferInit.produce block).queue = block := by
  have hvalid : ringbufferInit.Valid := ⟨by decide, by decide⟩
  have hspace : block.length ≤ ringbufferWriteable ringbufferInit := by
    rw [show ringbufferWriteable ringbufferInit = ringbufferSize - 1 by decide]
    omega
  rw [queue_produce hvalid block hspace, queue_eq_nil_of_ptr_eq rfl, List.nil_append]

/-- Buffered whole, the block is what lies in the ring. -/
theorem linear_produce_init (h : block.length < ringbufferSize) :
    (ringbufferInit.produce block).linear = block := by
  rw [← queue_eq_linear (unwrapped_produce_init block), queue_produce_init h]

theorem HeaderBlock.headersValid (h : HeaderBlock block) : WebSocketHft.headersValid block := by
  have hlinear : (ringbufferInit.produce block).linear = block :=
    linear_produce_init (h.length_le.trans_lt (by decide))
  have haccepted := h.accepted
  rw [parseHandshakeResponse_of_starts true (by rw [hlinear]; exact h.starts), hlinear,
    responseCopy_of_le h.length_le] at haccepted
  by_contra hnot
  rw [if_neg Bool.noConfusion, if_neg hnot] at haccepted
  exact absurd haccepted (show ¬(1 : ℤ) = 0 by decide)

end WebSocketHft

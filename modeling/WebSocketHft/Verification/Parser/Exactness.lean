import WebSocketHft.Verification.Frames.Stream
import WebSocketHft.Verification.Parser.Bounds

/-! # What the parser accepts

Every header that is complete announces a frame, with the reserved bits of the first byte
taken for zero. The parser accepts the input if the frame is all there and waits if it is
not, so that it waits only for input that can still become a frame. -/

namespace WebSocketHft

open WebSocketHft.Memory WebSocketHft.BigEndian

/-! ## The frame a memory announces -/

/-- The memory without the three reserved bits of its first byte. -/
def clearReserved (data : ℕ → UInt8) : ℕ → UInt8 :=
  Function.update data 0 (data 0 &&& 0x8F)

def formAt (data : ℕ → UInt8) : LengthForm :=
  if (data 1).toNat % 128 = 126 then .medium
  else if (data 1).toNat % 128 = 127 then .long else .short

def keyAt (data : ℕ → UInt8) : Option MaskingKey :=
  if Masked data then some (frameAt data).maskingKey else none

/-- The payload as it travels. -/
def bodyAt (data : ℕ → UInt8) : List UInt8 :=
  load data (headerBytes data) (announcedLength data)

theorem width_formAt (data : ℕ → UInt8) : (formAt data).width = lengthBytes data := by
  unfold formAt lengthBytes
  split_ifs <;> rfl

theorem announcedLength_lt_limit (data : ℕ → UInt8) :
    announcedLength data < (formAt data).limit := by
  have hlt := announcedLength_lt data
  unfold formAt
  split_ifs with hmedium hlong
  · exact announcedLength_lt_of_not_extended (by omega)
  · exact hlt
  · have hshort : announcedLength data = (data 1).toNat % 128 := by
      simp [announcedLength, lengthBytes, hmedium, hlong]
    change announcedLength data < 126
    omega

/-- The payload as it was meant. -/
def payloadAt (data : ℕ → UInt8) : List UInt8 :=
  match keyAt data with
  | none => bodyAt data
  | some key => xorKey key (bodyAt data)

theorem length_payloadAt (data : ℕ → UInt8) : (payloadAt data).length = announcedLength data := by
  unfold payloadAt
  cases keyAt data with
  | none => simp [bodyAt]
  | some key => simp [bodyAt, xorKey]

theorem opcode_lt_sixteen (data : ℕ → UInt8) : (data 0 &&& 0x0F).toNat < 16 := by
  rw [toNat_and_15]
  omega

def wireFrameAt (data : ℕ → UInt8) : WireFrame where
  fin := Nat.ble 128 (data 0).toNat
  opcode := data 0 &&& 0x0F
  form := formAt data
  maskingKey := keyAt data
  payload := payloadAt data
  opcode_lt := opcode_lt_sixteen data
  length_lt := (length_payloadAt data).trans_lt (announcedLength_lt_limit data)

variable {data : ℕ → UInt8}

theorem wireFrameAt_payload_length (data : ℕ → UInt8) :
    (wireFrameAt data).payload.length = announcedLength data :=
  length_payloadAt data

theorem isSome_keyAt (data : ℕ → UInt8) : (keyAt data).isSome ↔ Masked data := by
  unfold keyAt
  split_ifs with h <;> simp [h]

theorem wireFrameAt_headerSize (data : ℕ → UInt8) :
    (wireFrameAt data).headerSize = headerBytes data := by
  change 2 + (formAt data).width + (if (keyAt data).isSome then 4 else 0) = _
  simp only [width_formAt, isSome_keyAt, headerBytes]

theorem wireFrameAt_size (data : ℕ → UInt8) :
    (wireFrameAt data).size = headerBytes data + announcedLength data := by
  rw [WireFrame.size, wireFrameAt_headerSize, wireFrameAt_payload_length]

theorem wireFrameAt_body (data : ℕ → UInt8) : (wireFrameAt data).body = bodyAt data := by
  simp only [WireFrame.body, wireFrameAt, payloadAt]
  cases keyAt data with
  | none => rfl
  | some key => exact xorKey_xorKey key (bodyAt data)

theorem toNat_and_143 (b : UInt8) :
    (b &&& 0x8F).toNat = (if 128 ≤ b.toNat then 128 else 0) + b.toNat % 16 := by
  have hall : ∀ n < 256, n &&& 0x8F = (if 128 ≤ n then 128 else 0) + n % 16 := by
    decide +kernel
  rw [UInt8.toNat_and]
  exact hall b.toNat b.toNat_lt

theorem wireFrameAt_byte0 (data : ℕ → UInt8) :
    (wireFrameAt data).byte0 = data 0 &&& 0x8F := by
  rw [← UInt8.toNat_inj, WireFrame.toNat_byte0, toNat_and_143, ← toNat_and_15]
  simp [wireFrameAt]

theorem wireFrameAt_byte1 (data : ℕ → UInt8) : (wireFrameAt data).byte1 = data 1 := by
  have hcode : (formAt data).code (announcedLength data) = (data 1).toNat % 128 := by
    unfold formAt
    split_ifs with hmedium hlong
    · exact hmedium.symm
    · exact hlong.symm
    · simp [LengthForm.code, announcedLength, lengthBytes, hmedium, hlong]
  rw [← UInt8.toNat_inj, WireFrame.toNat_byte1, wireFrameAt_payload_length]
  change (if (keyAt data).isSome then 128 else 0) + (formAt data).code (announcedLength data) = _
  have hlt := (data 1).toNat_lt
  simp only [hcode, isSome_keyAt, Masked]
  split_ifs <;> omega

theorem wireFrameAt_lengthBytes (data : ℕ → UInt8) :
    toBytes (wireFrameAt data).form.width (wireFrameAt data).payload.length =
      load data 2 (lengthBytes data) := by
  rw [wireFrameAt_payload_length]
  change toBytes (formAt data).width _ = _
  rw [width_formAt]
  by_cases hshort : lengthBytes data = 0
  · rw [hshort, load_zero, toBytes]
  · have hread := toBytes_ofBytes (load data 2 (lengthBytes data))
    rwa [load_length, show ofBytes (load data 2 (lengthBytes data)) = announcedLength data from
      (if_neg hshort).symm] at hread

theorem wireFrameAt_keyBytes (data : ℕ → UInt8) :
    (wireFrameAt data).keyBytes =
      load data (2 + lengthBytes data) (if Masked data then 4 else 0) := by
  by_cases hmasked : Masked data
  · have hkey : (wireFrameAt data).maskingKey = some (frameAt data).maskingKey := if_pos hmasked
    simp only [WireFrame.keyBytes, hkey, frameAt, if_pos hmasked]
    rfl
  · have hkey : (wireFrameAt data).maskingKey = none := if_neg hmasked
    simp only [WireFrame.keyBytes, hkey, if_neg hmasked, load_zero]

theorem load_clearReserved (data : ℕ → UInt8) (n : ℕ) :
    load (clearReserved data) 0 (2 + n) = (data 0 &&& 0x8F) :: data 1 :: load data 2 n := by
  have hrest : load (clearReserved data) 2 n = load data 2 n := by
    apply load_congr
    intro i _
    exact Function.update_of_ne (by omega) _ _
  rw [load_add, hrest]
  rfl

/-- The memory starts with the frame it announces. -/
theorem encode_wireFrameAt (data : ℕ → UInt8) :
    (wireFrameAt data).encode =
      load (clearReserved data) 0 (headerBytes data + announcedLength data) := by
  have hheader : headerBytes data = 2 + lengthBytes data + if Masked data then 4 else 0 := rfl
  have hsplit : headerBytes data + announcedLength data = 2 + (lengthBytes data +
      ((if Masked data then 4 else 0) + announcedLength data)) := by
    rw [hheader]
    omega
  rw [WireFrame.encode_cons, wireFrameAt_byte0, wireFrameAt_byte1, wireFrameAt_lengthBytes,
    wireFrameAt_keyBytes, wireFrameAt_body, hsplit, load_clearReserved, load_add, load_add,
    ← hheader]
  rfl

/-! ## Reserved bits -/

theorem clearReserved_zero (data : ℕ → UInt8) : clearReserved data 0 = data 0 &&& 0x8F :=
  Function.update_self ..

theorem clearReserved_of_ne (data : ℕ → UInt8) {i : ℕ} (hi : i ≠ 0) :
    clearReserved data i = data i :=
  Function.update_of_ne hi _ _

theorem lengthBytes_clearReserved (data : ℕ → UInt8) :
    lengthBytes (clearReserved data) = lengthBytes data :=
  lengthBytes_congr (clearReserved_of_ne data Nat.one_ne_zero)

theorem masked_clearReserved (data : ℕ → UInt8) : Masked (clearReserved data) ↔ Masked data :=
  masked_congr (clearReserved_of_ne data Nat.one_ne_zero)

theorem headerBytes_clearReserved (data : ℕ → UInt8) :
    headerBytes (clearReserved data) = headerBytes data :=
  headerBytes_congr (clearReserved_of_ne data Nat.one_ne_zero)

theorem announcedLength_clearReserved (data : ℕ → UInt8) :
    announcedLength (clearReserved data) = announcedLength data := by
  have hload (n : ℕ) : load (clearReserved data) 2 n = load data 2 n :=
    load_congr fun i _ => clearReserved_of_ne data (by omega)
  simp only [announcedLength, lengthBytes_clearReserved, hload,
    clearReserved_of_ne data Nat.one_ne_zero]

/-- The parser looks at no reserved bit. -/
theorem frameAt_clearReserved (data : ℕ → UInt8) :
    frameAt (clearReserved data) = frameAt data := by
  have hlt := (data 0).toNat_lt
  have hfin : ((clearReserved data 0 >>> 7) &&& 1 : UInt8) = (data 0 >>> 7) &&& 1 := by
    rw [← UInt8.toNat_inj, toNat_highBit, toNat_highBit, clearReserved_zero, toNat_and_143]
    split_ifs <;> omega
  have hopcode : clearReserved data 0 &&& 0x0F = data 0 &&& 0x0F := by
    rw [← UInt8.toNat_inj, toNat_and_15, toNat_and_15, clearReserved_zero, toNat_and_143]
    split_ifs <;> omega
  have hcell (i : ℕ) : clearReserved data (2 + lengthBytes data + i) =
      data (2 + lengthBytes data + i) := clearReserved_of_ne data (by omega)
  have hkey := hcell 0
  simp only [frameAt, hfin, hopcode, lengthBytes_clearReserved, masked_clearReserved,
    headerBytes_clearReserved, announcedLength_clearReserved, hcell,
    clearReserved_of_ne data Nat.one_ne_zero]
  rw [Nat.add_zero] at hkey
  rw [hkey]

theorem wireFrameAt_parsed (data : ℕ → UInt8) : (wireFrameAt data).parsed = frameAt data := by
  have hload : load (clearReserved data) 0 (wireFrameAt data).size =
      (wireFrameAt data).encode.take (wireFrameAt data).size := by
    rw [List.take_of_length_le (WireFrame.encode_length _).le, encode_wireFrameAt,
      wireFrameAt_size]
  rw [← frameAt_clearReserved]
  exact (WireFrame.frameAt_eq hload (Nat.le_add_right _ _)).symm

section Front

variable {f : WireFrame} {n : ℕ}

theorem headerBytes_of_front (h : load (clearReserved data) 0 n = f.encode.take n) (hn : 2 ≤ n) :
    headerBytes data = f.headerSize := by
  rw [← headerBytes_clearReserved, WireFrame.headerBytes_eq (WireFrame.data_one h hn)]

/-- A memory that holds the header of a frame announces this frame. -/
theorem announces_of_front (h : load (clearReserved data) 0 n = f.encode.take n)
    (hn : f.headerSize ≤ n) :
    frameAt data = f.parsed ∧ headerBytes data + announcedLength data = f.size := by
  have htwo := f.two_le_headerSize
  have hbyte := WireFrame.data_one h (by omega)
  have hlength := WireFrame.load_length_bytes h (by
    rw [WireFrame.headerSize] at hn
    omega)
  refine ⟨?_, ?_⟩
  · rw [← frameAt_clearReserved, WireFrame.frameAt_eq h hn]
  · rw [headerBytes_of_front h (by omega), ← announcedLength_clearReserved,
      WireFrame.announcedLength_eq hbyte hlength, WireFrame.size]

end Front

/-! ## The verdicts -/

/-- A byte string without the three reserved bits of its first byte. -/
def withoutReserved : List UInt8 → List UInt8
  | [] => []
  | b :: bs => (b &&& 0x8F) :: bs

variable {bs : List UInt8}

@[simp] theorem length_withoutReserved (bs : List UInt8) :
    (withoutReserved bs).length = bs.length := by
  cases bs <;> rfl

theorem bytesAt_withoutReserved (h : bs ≠ []) :
    bytesAt (withoutReserved bs) = clearReserved (bytesAt bs) := by
  cases bs with
  | nil => exact absurd rfl h
  | cons b bs =>
      funext i
      cases i with
      | zero => rfl
      | succ i => rfl

/-- The parser in terms of the true length of the announced frame. -/
theorem parseBytes_eq (hlen : 2 ≤ bs.length) (hwraps : ¬LengthWraps (bytesAt bs) bs.length) :
    parseBytes bs = if headerBytes (bytesAt bs) + announcedLength (bytesAt bs) ≤ bs.length then
      .ok (frameAt (bytesAt bs)) else .needMore := by
  rw [lengthWraps_iff, not_and, not_le] at hwraps
  rw [parseBytes, neonParseWsFrame_eq _ hlen]
  refine if_congr ?_ rfl rfl
  constructor
  · rintro ⟨hheader, hfit⟩
    rwa [sizeMax, Nat.mod_eq_of_lt (hwraps hheader)] at hfit
  · intro hfit
    exact ⟨by omega, (Nat.mod_le _ _).trans hfit⟩

theorem parseBytes_short (h : bs.length < 2) : parseBytes bs = .error :=
  neonParseWsFrame_short _ h

theorem load_clearReserved_take (hbs : bs ≠ []) {n : ℕ} (hn : n ≤ bs.length) :
    load (clearReserved (bytesAt bs)) 0 n = (withoutReserved bs).take n := by
  rw [← bytesAt_withoutReserved hbs, load_bytesAt_take _ (by rwa [length_withoutReserved])]

/-- The input starts with a frame if the one it announces is all there. -/
theorem starts_with_frame_iff (hbs : bs ≠ []) (frame : WSFrame) :
    (∃ f : WireFrame, f.encode <+: withoutReserved bs ∧ frame = f.parsed) ↔
      headerBytes (bytesAt bs) + announcedLength (bytesAt bs) ≤ bs.length ∧
        frame = frameAt (bytesAt bs) := by
  constructor
  · rintro ⟨f, hfront, rfl⟩
    have hle : f.size ≤ bs.length := by simpa using hfront.length_le
    have hload : load (clearReserved (bytesAt bs)) 0 f.size = f.encode.take f.size := by
      rw [load_clearReserved_take hbs hle, List.take_of_length_le (WireFrame.encode_length f).le,
        ← WireFrame.encode_length f]
      exact (List.prefix_iff_eq_take.mp hfront).symm
    obtain ⟨hframe, hsize⟩ := announces_of_front hload (Nat.le_add_right _ _)
    exact ⟨hsize ▸ hle, hframe.symm⟩
  · rintro ⟨hfit, rfl⟩
    refine ⟨wireFrameAt (bytesAt bs), ?_, (wireFrameAt_parsed _).symm⟩
    rw [encode_wireFrameAt, load_clearReserved_take hbs hfit]
    exact List.take_prefix _ _

/-- The input is part of a frame if the one it announces is longer. -/
theorem part_of_frame_iff (hlen : 2 ≤ bs.length) :
    (∃ f : WireFrame, withoutReserved bs <+: f.encode ∧ bs.length < f.size) ↔
      bs.length < headerBytes (bytesAt bs) + announcedLength (bytesAt bs) := by
  have hbs : bs ≠ [] := List.ne_nil_of_length_pos (by omega)
  have hall : load (clearReserved (bytesAt bs)) 0 bs.length = withoutReserved bs := by
    rw [load_clearReserved_take hbs le_rfl, List.take_of_length_le (length_withoutReserved bs).le]
  constructor
  · rintro ⟨f, hfront, hlt⟩
    have hload : load (clearReserved (bytesAt bs)) 0 bs.length = f.encode.take bs.length := by
      rw [hall, ← length_withoutReserved bs]
      exact List.prefix_iff_eq_take.mp hfront
    have hheader := headerBytes_of_front hload hlen
    by_cases hcomplete : f.headerSize ≤ bs.length
    · rw [(announces_of_front hload hcomplete).2]
      exact hlt
    · omega
  · intro hlt
    refine ⟨wireFrameAt (bytesAt bs), ?_, by rwa [wireFrameAt_size]⟩
    rw [encode_wireFrameAt, ← hall, ← load_take _ 0 _ _ hlt.le]
    exact List.take_prefix _ _

/-- For every input whose header announces no length that wraps: the parser accepts it exactly
if it starts with a frame, up to the reserved bits, and then describes this frame; it asks for
more exactly if the input is at least two bytes and a proper front part of a frame; and it
reports an error exactly if there are fewer than two bytes. -/
theorem parser_exact (bs : List UInt8) (hwraps : ¬LengthWraps (bytesAt bs) bs.length) :
    (∀ frame, parseBytes bs = .ok frame ↔
      ∃ f : WireFrame, f.encode <+: withoutReserved bs ∧ frame = f.parsed) ∧
    (parseBytes bs = .needMore ↔ 2 ≤ bs.length ∧
      ∃ f : WireFrame, withoutReserved bs <+: f.encode ∧ bs.length < f.size) ∧
    (parseBytes bs = .error ↔ bs.length < 2) := by
  rcases Nat.lt_or_ge bs.length 2 with hshort | hlen
  · rw [parseBytes_short hshort]
    refine ⟨fun frame => iff_of_false (by simp) ?_, iff_of_false (by simp) (by omega),
      iff_of_true rfl hshort⟩
    rintro ⟨f, hfront, -⟩
    have hle : f.size ≤ bs.length := by simpa using hfront.length_le
    have htwo := f.two_le_size
    omega
  · have hbs : bs ≠ [] := List.ne_nil_of_length_pos (by omega)
    simp only [parseBytes_eq hlen hwraps, starts_with_frame_iff hbs, part_of_frame_iff hlen]
    split_ifs with hfit
    · refine ⟨fun frame => ?_, iff_of_false (by simp) (by omega), iff_of_false (by simp) (by omega)⟩
      rw [and_iff_right hfit, ParseResult.ok.injEq, eq_comm]
    · exact ⟨fun frame => iff_of_false (by simp) fun h => hfit h.1,
        iff_of_true rfl ⟨hlen, not_le.mp hfit⟩, iff_of_false (by simp) (by omega)⟩

/-- A text frame with a reserved bit set, and its front part. -/
theorem parser_exact_reserved_bit :
    ¬LengthWraps (bytesAt [0xC1, 2, 0x68, 0x69]) 4 ∧
      ∃ f : WireFrame, f.encode <+: [0x81, 2, 0x68, 0x69] ∧ f.parsed.payloadLen = 2 := by
  have hwraps : ¬LengthWraps (bytesAt [0xC1, 2, 0x68, 0x69]) 4 := fun h =>
    absurd h.extended (by decide)
  obtain ⟨f, hfront, hframe⟩ :=
    ((parser_exact [0xC1, 2, 0x68, 0x69] hwraps).1 _).mp (rfl : parseBytes _ = .ok _)
  exact ⟨hwraps, f, hfront, by rw [← hframe]; rfl⟩

end WebSocketHft

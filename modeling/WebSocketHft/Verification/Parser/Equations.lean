import WebSocketHft.Model.ParserNeon

/-! # The parser in one equation

What a header announces is a function of the first bytes alone. The parser
compares it with the length it was given and accepts or waits. -/

namespace WebSocketHft

open WebSocketHft.Memory WebSocketHft.BigEndian

/-! ## Bits of a byte -/

theorem toNat_and_127 (b : UInt8) : (b &&& 0x7F).toNat = b.toNat % 128 := by
  rw [UInt8.toNat_and]
  exact Nat.and_two_pow_sub_one_eq_mod b.toNat 7

theorem toNat_and_15 (b : UInt8) : (b &&& 0x0F).toNat = b.toNat % 16 := by
  rw [UInt8.toNat_and]
  exact Nat.and_two_pow_sub_one_eq_mod b.toNat 4

theorem toNat_highBit (b : UInt8) : ((b >>> 7) &&& 1).toNat = b.toNat / 128 := by
  have hb := b.toNat_lt
  have hshift : (b >>> 7).toNat = b.toNat / 128 := by
    rw [UInt8.toNat_shiftRight]
    exact Nat.shiftRight_eq_div_pow b.toNat 7
  rw [UInt8.toNat_and, hshift]
  change (b.toNat / 128) &&& 1 = _
  rw [Nat.and_one_is_mod]
  omega

theorem highBit_ne_zero_iff (b : UInt8) : (b >>> 7) &&& 1 ≠ 0 ↔ 128 ≤ b.toNat := by
  have hb := b.toNat_lt
  rw [ne_eq, ← UInt8.toNat_inj, toNat_highBit]
  change ¬b.toNat / 128 = 0 ↔ _
  omega

/-! ## What a header announces -/

/-- The bytes of the extended length. -/
def lengthBytes (data : ℕ → UInt8) : ℕ :=
  if (data 1).toNat % 128 = 126 then 2 else if (data 1).toNat % 128 = 127 then 8 else 0

def Masked (data : ℕ → UInt8) : Prop := 128 ≤ (data 1).toNat

instance (data : ℕ → UInt8) : Decidable (Masked data) :=
  inferInstanceAs (Decidable (_ ≤ _))

def headerBytes (data : ℕ → UInt8) : ℕ :=
  2 + lengthBytes data + if Masked data then 4 else 0

def announcedLength (data : ℕ → UInt8) : ℕ :=
  if lengthBytes data = 0 then (data 1).toNat % 128 else ofBytes (load data 2 (lengthBytes data))

/-- The frame the parser describes when it accepts. -/
def frameAt (data : ℕ → UInt8) : WSFrame where
  fin := (data 0 >>> 7) &&& 1
  opcode := data 0 &&& 0x0F
  mask := (data 1 >>> 7) &&& 1
  payloadLenType := if lengthBytes data = 0 then 7 else 8 * lengthBytes data
  payloadLen := announcedLength data
  maskingKey :=
    if Masked data then
      ⟨data (2 + lengthBytes data), data (2 + lengthBytes data + 1), data (2 + lengthBytes data + 2),
        data (2 + lengthBytes data + 3)⟩
    else ⟨0, 0, 0, 0⟩
  payload := headerBytes data
  headerSize := headerBytes data

theorem lengthBytes_le (data : ℕ → UInt8) : lengthBytes data ≤ 8 := by
  unfold lengthBytes
  split_ifs <;> omega

theorem headerBytes_le (data : ℕ → UInt8) : headerBytes data ≤ 14 := by
  have h := lengthBytes_le data
  unfold headerBytes
  split_ifs <;> omega

theorem two_le_headerBytes (data : ℕ → UInt8) : 2 ≤ headerBytes data := by
  unfold headerBytes
  omega

theorem announcedLength_lt (data : ℕ → UInt8) : announcedLength data < 2 ^ 64 := by
  unfold announcedLength
  split_ifs with h
  · omega
  · have hlt := ofBytes_lt (load data 2 (lengthBytes data))
    rw [load_length] at hlt
    calc ofBytes (load data 2 (lengthBytes data)) < 256 ^ lengthBytes data := hlt
      _ ≤ 256 ^ 8 := Nat.pow_le_pow_right (by decide) (lengthBytes_le data)
      _ = 2 ^ 64 := by decide

/-! ## The equation -/

theorem completeFrame_eq (len : ℕ) (frame : WSFrame) :
    completeFrame len frame =
      if (frame.headerSize + frame.payloadLen) % sizeMax ≤ len then .ok frame else .needMore := by
  by_cases h : (frame.headerSize + frame.payloadLen) % sizeMax ≤ len
  · rw [if_pos h]
    exact if_neg (not_lt.mpr h)
  · rw [if_neg h]
    exact if_pos (not_le.mp h)

/-- Masking key and completeness, for a header whose length is known. -/
theorem maskedFrame_eq (data : ℕ → UInt8) (len base : ℕ) (frame : WSFrame)
    (hmask : frame.mask = (data 1 >>> 7) &&& 1) (hkey : frame.maskingKey = ⟨0, 0, 0, 0⟩)
    (hbase : base ≤ len) :
    maskedFrame data len frame base =
      if base + (if Masked data then 4 else 0) ≤ len ∧
          (base + (if Masked data then 4 else 0) + frame.payloadLen) % sizeMax ≤ len then
        .ok { frame with
          maskingKey :=
            if Masked data then
              ⟨data base, data (base + 1), data (base + 2), data (base + 3)⟩
            else ⟨0, 0, 0, 0⟩
          payload := base + if Masked data then 4 else 0
          headerSize := base + if Masked data then 4 else 0 }
      else .needMore := by
  unfold maskedFrame
  by_cases hm : Masked data
  · have hbit : frame.mask ≠ 0 := by
      rw [hmask]
      exact (highBit_ne_zero_iff _).mpr hm
    simp only [hbit, ne_eq, not_false_eq_true, if_true, hm, completeFrame_eq]
    by_cases hshort : len < base + 4
    · rw [if_pos hshort, if_neg (by omega)]
    · have hthere : base + 4 ≤ len := not_lt.mp hshort
      simp only [hshort, if_false, hthere, true_and]
  · have hbit : ¬frame.mask ≠ 0 := by
      rw [hmask, highBit_ne_zero_iff]
      exact hm
    simp only [hbit, if_false, hm, completeFrame_eq, Nat.add_zero, hbase, true_and, hkey]

/-- The parser accepts exactly when the header is there and the announced frame, counted
in `size_t`, is not longer than the input. -/
theorem neonParseWsFrame_eq (data : ℕ → UInt8) {len : ℕ} (hlen : 2 ≤ len) :
    neonParseWsFrame data len =
      if headerBytes data ≤ len ∧ (headerBytes data + announcedLength data) % sizeMax ≤ len then
        .ok (frameAt data)
      else .needMore := by
  have hlow := toNat_and_127 (data 1)
  unfold neonParseWsFrame
  rw [if_neg (by omega)]
  simp only [hlow]
  by_cases h126 : (data 1).toNat % 128 = 126
  · have hbytes : lengthBytes data = 2 := by simp [lengthBytes, h126]
    have hann : announcedLength data = ofBytes (load data 2 2) := by simp [announcedLength, hbytes]
    simp only [h126, if_true]
    by_cases hshort : len < 4
    · rw [if_pos hshort, if_neg]
      rintro ⟨hle, -⟩
      rw [headerBytes, hbytes] at hle
      omega
    · rw [if_neg hshort, maskedFrame_eq data len 4 _ rfl rfl (by omega)]
      simp only [headerBytes, hbytes, hann, frameAt]
      rfl
  · simp only [h126, if_false]
    by_cases h127 : (data 1).toNat % 128 = 127
    · have hbytes : lengthBytes data = 8 := by simp [lengthBytes, h127]
      have hann : announcedLength data = ofBytes (load data 2 8) := by simp [announcedLength, hbytes]
      simp only [h127, if_true]
      by_cases hshort : len < 10
      · rw [if_pos hshort, if_neg]
        rintro ⟨hle, -⟩
        rw [headerBytes, hbytes] at hle
        omega
      · rw [if_neg hshort, maskedFrame_eq data len 10 _ rfl rfl (by omega)]
        simp only [headerBytes, hbytes, hann, frameAt]
        rfl
    · have hbytes : lengthBytes data = 0 := by simp [lengthBytes, h126, h127]
      have hann : announcedLength data = (data 1).toNat % 128 := by simp [announcedLength, hbytes]
      simp only [h127, if_false]
      rw [maskedFrame_eq data len 2 _ rfl rfl hlen]
      simp only [headerBytes, hbytes, hann, frameAt]
      rfl

theorem neonParseWsFrame_short (data : ℕ → UInt8) {len : ℕ} (hlen : len < 2) :
    neonParseWsFrame data len = .error := by
  rw [neonParseWsFrame, if_pos hlen]

/-- Everything the parser knows about an accepted frame. -/
theorem neonParseWsFrame_ok {data : ℕ → UInt8} {len : ℕ} {frame : WSFrame}
    (h : neonParseWsFrame data len = .ok frame) :
    2 ≤ len ∧ headerBytes data ≤ len ∧ (headerBytes data + announcedLength data) % sizeMax ≤ len ∧
      frame = frameAt data := by
  rcases Nat.lt_or_ge len 2 with hlt | hge
  · rw [neonParseWsFrame_short data hlt] at h
    cases h
  · rw [neonParseWsFrame_eq data hge] at h
    split at h
    · rename_i hfit
      cases h
      exact ⟨hge, hfit.1, hfit.2, rfl⟩
    · cases h

/-! ## Locality -/

theorem lengthBytes_congr {data data' : ℕ → UInt8} (h : data 1 = data' 1) :
    lengthBytes data = lengthBytes data' := by
  simp only [lengthBytes, h]

theorem masked_congr {data data' : ℕ → UInt8} (h : data 1 = data' 1) :
    Masked data ↔ Masked data' := by
  simp only [Masked, h]

theorem headerBytes_congr {data data' : ℕ → UInt8} (h : data 1 = data' 1) :
    headerBytes data = headerBytes data' := by
  simp only [headerBytes, lengthBytes_congr h, masked_congr h]

theorem announcedLength_congr {data data' : ℕ → UInt8}
    (h : ∀ i < headerBytes data, data i = data' i) :
    announcedLength data = announcedLength data' := by
  have htwo := two_le_headerBytes data
  have h1 := h 1 (by omega)
  have hload : load data 2 (lengthBytes data) = load data' 2 (lengthBytes data) := by
    apply load_congr
    intro i hi
    exact h (2 + i) (by unfold headerBytes; omega)
  simp only [announcedLength, ← lengthBytes_congr h1, hload, h1]

theorem frameAt_congr {data data' : ℕ → UInt8} (h : ∀ i < headerBytes data, data i = data' i) :
    frameAt data = frameAt data' := by
  have htwo := two_le_headerBytes data
  have h0 := h 0 (by omega)
  have h1 := h 1 (by omega)
  have hkey : (frameAt data).maskingKey = (frameAt data').maskingKey := by
    simp only [frameAt, ← lengthBytes_congr h1, ← masked_congr h1]
    by_cases hm : Masked data
    · have hheader : headerBytes data = 2 + lengthBytes data + 4 := by simp [headerBytes, hm]
      simp only [hm, if_true]
      rw [h _ (by omega), h (2 + lengthBytes data + 1) (by omega),
        h (2 + lengthBytes data + 2) (by omega), h (2 + lengthBytes data + 3) (by omega)]
    · simp only [hm, if_false]
  rw [WSFrame.ext_iff]
  refine ⟨?_, ?_, ?_, ?_, announcedLength_congr h, hkey, headerBytes_congr h1,
    headerBytes_congr h1⟩
  · simp only [frameAt, h0]
  · simp only [frameAt, h0]
  · simp only [frameAt, h1]
  · simp only [frameAt, lengthBytes_congr h1]

/-- How far the parser looks: at two bytes, and at the extended length and the masking key as
far as the length it was given allows. -/
def parserReach (data : ℕ → UInt8) (len : ℕ) : ℕ :=
  if len < 2 then 0
  else if len < 2 + lengthBytes data then 2
  else if len < headerBytes data then 2 + lengthBytes data
  else headerBytes data

theorem parserReach_le (data : ℕ → UInt8) (len : ℕ) : parserReach data len ≤ len := by
  unfold parserReach
  split_ifs <;> omega

theorem two_le_parserReach (data : ℕ → UInt8) {len : ℕ} (hlen : 2 ≤ len) :
    2 ≤ parserReach data len := by
  have hheader := two_le_headerBytes data
  unfold parserReach
  split_ifs <;> omega

/-- A complete header is looked at as a whole. -/
theorem parserReach_of_header {data : ℕ → UInt8} {len : ℕ} (h : headerBytes data ≤ len) :
    parserReach data len = headerBytes data := by
  have htwo := two_le_headerBytes data
  have hlength : 2 + lengthBytes data ≤ headerBytes data := Nat.le_add_right _ _
  rw [parserReach, if_neg (by omega), if_neg (by omega), if_neg (by omega)]

theorem parserReach_congr {data data' : ℕ → UInt8} (h : data 1 = data' 1) (len : ℕ) :
    parserReach data len = parserReach data' len := by
  simp only [parserReach, lengthBytes_congr h, headerBytes_congr h]

/-- What the parser does not look at makes no difference to it. -/
theorem neonParseWsFrame_congr_reach {data data' : ℕ → UInt8} {len : ℕ}
    (h : ∀ i < parserReach data len, data i = data' i) :
    neonParseWsFrame data len = neonParseWsFrame data' len := by
  rcases Nat.lt_or_ge len 2 with hlt | hge
  · rw [neonParseWsFrame_short data hlt, neonParseWsFrame_short data' hlt]
  · have htwo := two_le_parserReach data hge
    have hheader := headerBytes_congr (h 1 (by omega))
    rw [neonParseWsFrame_eq data hge, neonParseWsFrame_eq data' hge, ← hheader]
    by_cases hle : headerBytes data ≤ len
    · have hcells : ∀ i < headerBytes data, data i = data' i := by
        rwa [parserReach_of_header hle] at h
      rw [announcedLength_congr hcells, frameAt_congr hcells]
    · rw [if_neg (fun hfit => hle hfit.1), if_neg (fun hfit => hle hfit.1)]

/-- The parser looks at nothing behind the length it was given. -/
theorem neonParseWsFrame_congr {data data' : ℕ → UInt8} {len : ℕ}
    (h : ∀ i < len, data i = data' i) : neonParseWsFrame data len = neonParseWsFrame data' len :=
  neonParseWsFrame_congr_reach fun i hi => h i (hi.trans_le (parserReach_le data len))

/-- The memory that holds a byte string at address zero. -/
def bytesAt (bs : List UInt8) : ℕ → UInt8 := fun i => bs.getD i 0

/-- The parser on a byte string of its own. -/
def parseBytes (bs : List UInt8) : ParseResult := neonParseWsFrame (bytesAt bs) bs.length

theorem bytesAt_load (m : ℕ → UInt8) (a n : ℕ) {i : ℕ} (hi : i < n) :
    bytesAt (load m a n) i = m (a + i) := by
  rw [bytesAt, List.getD_eq_getElem?_getD, getElem?_load m a n i hi, Option.getD_some]

theorem load_bytesAt (bs : List UInt8) : load (bytesAt bs) 0 bs.length = bs := by
  apply List.ext_getElem? fun i => ?_
  rcases Nat.lt_or_ge i bs.length with hi | hi
  · rw [getElem?_load _ _ _ _ hi, List.getElem?_eq_getElem hi]
    simp [bytesAt, hi]
  · rw [List.getElem?_eq_none (by simpa using hi), List.getElem?_eq_none hi]

theorem neonParseWsFrame_eq_parseBytes (m : ℕ → UInt8) (a n : ℕ) :
    neonParseWsFrame (fun i => m (a + i)) n = parseBytes (load m a n) := by
  rw [parseBytes, load_length]
  exact neonParseWsFrame_congr fun i hi => (bytesAt_load m a n hi).symm

end WebSocketHft

import WebSocketHft.Verification.Parser.Equations

/-! # Frames inside the input

The parser adds the header to a 64-bit length in `size_t` arithmetic. The frame
it describes lies inside the input unless that sum wraps. -/

namespace WebSocketHft

open WebSocketHft.Memory WebSocketHft.BigEndian

/-- Whatever the parser accepts ends inside the input, and so does every byte of its
payload. -/
def FramesInside (data : ℕ → UInt8) (len : ℕ) : Prop :=
  ∀ frame, neonParseWsFrame data len = .ok frame →
    frame.headerSize + frame.payloadLen ≤ len ∧ ∀ i < frame.payloadLen, frame.payload + i < len

/-- A complete header with a 64-bit length that, counted with the header, reaches `2 ^ 64`. -/
structure LengthWraps (data : ℕ → UInt8) (len : ℕ) : Prop where
  extended : (data 1).toNat % 128 = 127
  header_le : (if Masked data then 14 else 10) ≤ len
  wraps : 2 ^ 64 ≤ (if Masked data then 14 else 10) + ofBytes (load data 2 8)

theorem headerBytes_of_extended {data : ℕ → UInt8} (h : (data 1).toNat % 128 = 127) :
    headerBytes data = if Masked data then 14 else 10 := by
  have hbytes : lengthBytes data = 8 := by simp [lengthBytes, h]
  rw [headerBytes, hbytes]
  split_ifs <;> rfl

theorem announcedLength_of_extended {data : ℕ → UInt8} (h : (data 1).toNat % 128 = 127) :
    announcedLength data = ofBytes (load data 2 8) := by
  have hbytes : lengthBytes data = 8 := by simp [lengthBytes, h]
  simp [announcedLength, hbytes]

/-- A length of 7 or 16 bits is far too short to wrap. -/
theorem announcedLength_lt_of_not_extended {data : ℕ → UInt8} (h : (data 1).toNat % 128 ≠ 127) :
    announcedLength data < 65536 := by
  by_cases h126 : (data 1).toNat % 128 = 126
  · have hbytes : lengthBytes data = 2 := by simp [lengthBytes, h126]
    have hlt := ofBytes_lt (load data 2 2)
    simpa [announcedLength, hbytes] using hlt
  · have hbytes : lengthBytes data = 0 := by simp [lengthBytes, h126, h]
    simp only [announcedLength, hbytes, if_true]
    omega

theorem lengthWraps_iff {data : ℕ → UInt8} {len : ℕ} :
    LengthWraps data len ↔
      headerBytes data ≤ len ∧ 2 ^ 64 ≤ headerBytes data + announcedLength data := by
  constructor
  · rintro ⟨hext, hheader, hwraps⟩
    rw [headerBytes_of_extended hext, announcedLength_of_extended hext]
    exact ⟨hheader, hwraps⟩
  · rintro ⟨hheader, hwraps⟩
    have hext : (data 1).toNat % 128 = 127 := by
      by_contra hne
      have hlen := announcedLength_lt_of_not_extended hne
      have hbytes := headerBytes_le data
      omega
    rw [headerBytes_of_extended hext] at hheader hwraps
    rw [announcedLength_of_extended hext] at hwraps
    exact ⟨hext, hheader, hwraps⟩

/-- Without a wrap the comparison of the parser is the comparison of the true lengths. -/
theorem framesInside_of_not_wraps {data : ℕ → UInt8} {len : ℕ} (h : ¬LengthWraps data len) :
    FramesInside data len := by
  intro frame hparse
  obtain ⟨-, hheader, hfit, rfl⟩ := neonParseWsFrame_ok hparse
  have hsum : headerBytes data + announcedLength data < sizeMax := by
    by_contra hge
    exact h (lengthWraps_iff.mpr ⟨hheader, not_lt.mp hge⟩)
  rw [Nat.mod_eq_of_lt hsum] at hfit
  refine ⟨hfit, ?_⟩
  intro i hi
  change i < announcedLength data at hi
  change headerBytes data + i < len
  omega

/-- A wrapped sum is smaller than the header, so the parser accepts. -/
theorem neonParseWsFrame_of_wraps {data : ℕ → UInt8} {len : ℕ} (h : LengthWraps data len) :
    neonParseWsFrame data len = .ok (frameAt data) := by
  obtain ⟨hheader, hwraps⟩ := lengthWraps_iff.mp h
  have hlt := announcedLength_lt data
  have htwo := two_le_headerBytes data
  have hle := headerBytes_le data
  have hmod : (headerBytes data + announcedLength data) % sizeMax ≤ len := by
    rw [sizeMax, Nat.mod_eq_sub_mod hwraps, Nat.mod_eq_of_lt (by omega)]
    omega
  rw [neonParseWsFrame_eq data (by omega), if_pos ⟨hheader, hmod⟩]

/-- For every input: whatever the parser accepts lies inside it if and only if its header
does not announce a length that wraps. -/
theorem frames_inside_iff (data : ℕ → UInt8) (len : ℕ) (hlen : len < 2 ^ 64) :
    FramesInside data len ↔ ¬LengthWraps data len := by
  refine ⟨?_, framesInside_of_not_wraps⟩
  intro hinside hwraps
  obtain ⟨-, hover⟩ := lengthWraps_iff.mp hwraps
  have hfit := (hinside _ (neonParseWsFrame_of_wraps hwraps)).1
  change headerBytes data + announcedLength data ≤ len at hfit
  omega

/-- A complete TEXT frame of two bytes lies inside an input of four. -/
theorem frames_inside_text :
    neonParseWsFrame (fun i => [0x81, 0x02, 0x41, 0x42].getD i 0) 4 =
        .ok ⟨1, 1, 0, 7, 2, ⟨0, 0, 0, 0⟩, 2, 2⟩ ∧
      FramesInside (fun i => [0x81, 0x02, 0x41, 0x42].getD i 0) 4 :=
  ⟨by decide, (frames_inside_iff _ 4 (by decide)).mpr fun h => absurd h.extended (by decide)⟩

/-- Ten bytes that announce `2 ^ 64 - 1` more are accepted as a frame. -/
theorem huge_length_accepted :
    neonParseWsFrame (fun i => [0x82, 0x7F, 0xFF, 0xFF, 0xFF, 0xFF, 0xFF, 0xFF, 0xFF, 0xFF].getD i 0)
        10 = .ok ⟨1, 2, 0, 64, 2 ^ 64 - 1, ⟨0, 0, 0, 0⟩, 10, 10⟩ ∧
      ¬FramesInside
        (fun i => [0x82, 0x7F, 0xFF, 0xFF, 0xFF, 0xFF, 0xFF, 0xFF, 0xFF, 0xFF].getD i 0) 10 := by
  have hparse : neonParseWsFrame
      (fun i => [0x82, 0x7F, 0xFF, 0xFF, 0xFF, 0xFF, 0xFF, 0xFF, 0xFF, 0xFF].getD i 0) 10 =
      .ok ⟨1, 2, 0, 64, 2 ^ 64 - 1, ⟨0, 0, 0, 0⟩, 10, 10⟩ := by decide
  refine ⟨hparse, ?_⟩
  intro hinside
  have hfit := (hinside _ hparse).1
  exact absurd hfit (by decide)

/-! ## Behind a frame of size zero -/

section Shifted

variable {data : ℕ → UInt8} {len : ℕ} {frame : WSFrame}

/-- A size is zero modulo `2 ^ 64` only if the announced length makes up for the header. -/
theorem announced_of_zero_size (hzero : (frameAt data).frameSize = 0) :
    (data 1).toNat % 128 = 127 ∧ headerBytes data + ofBytes (load data 2 8) = 2 ^ 64 := by
  have htwo := two_le_headerBytes data
  have hle := headerBytes_le data
  have hlt := announcedLength_lt data
  have hmod : (headerBytes data + announcedLength data) % 2 ^ 64 = 0 := hzero
  have hsum : headerBytes data + announcedLength data = 2 ^ 64 := by omega
  have hext : (data 1).toNat % 128 = 127 := by
    by_contra hne
    have hshort := announcedLength_lt_of_not_extended hne
    omega
  rw [announcedLength_of_extended hext] at hsum
  exact ⟨hext, hsum⟩

/-- The bytes of such a length, but for the last one, are all ones. Read one byte further on
they announce a masked frame that is longer than any buffer. -/
theorem shifted_size_of_zero_size (hzero : (frameAt data).frameSize = 0) :
    2 ^ 63 ≤ headerBytes (fun i => data (1 + i)) + announcedLength (fun i => data (1 + i)) ∧
      headerBytes (fun i => data (1 + i)) + announcedLength (fun i => data (1 + i)) < 2 ^ 64 := by
  obtain ⟨hext, hsum⟩ := announced_of_zero_size hzero
  have hheader : 10 ≤ headerBytes data ∧ headerBytes data ≤ 14 := by
    rw [headerBytes_of_extended hext]
    split_ifs <;> omega
  have hlow := ofBytes_lt (load data 3 7)
  have hfirst : load data 2 8 = data 2 :: load data 3 7 := rfl
  rw [load_length] at hlow
  rw [hfirst, ofBytes_cons, load_length] at hsum
  have hbyte : (data 2).toNat = 255 := by
    have := (data 2).toNat_lt
    omega
  have hext' : (data (1 + 1)).toNat % 128 = 127 := by
    change (data 2).toNat % 128 = 127
    omega
  have hmasked : Masked (fun i => data (1 + i)) := by
    change 128 ≤ (data 2).toNat
    omega
  have hshift : load (fun i => data (1 + i)) 2 8 = load data 3 7 ++ [data 10] := rfl
  have hlast := (data 10).toNat_lt
  rw [headerBytes_of_extended hext', announcedLength_of_extended hext', if_pos hmasked, hshift,
    ofBytes_concat]
  omega

/-- The parser waits for such a frame. -/
theorem needMore_behind_zero_size (hparse : neonParseWsFrame data len = .ok frame)
    (hzero : frame.frameSize = 0) (hlen : len < 2 ^ 63) :
    neonParseWsFrame (fun i => data (1 + i)) (len - 1) = .needMore := by
  obtain ⟨htwo, hheader, -, rfl⟩ := neonParseWsFrame_ok hparse
  obtain ⟨hext, -⟩ := announced_of_zero_size hzero
  obtain ⟨hge, hlt⟩ := shifted_size_of_zero_size hzero
  have hten : 10 ≤ len := by
    rw [headerBytes_of_extended hext] at hheader
    split_ifs at hheader <;> omega
  rw [neonParseWsFrame_eq _ (by omega), if_neg]
  rintro ⟨-, hfit⟩
  rw [sizeMax, Nat.mod_eq_of_lt hlt] at hfit
  omega

end Shifted

end WebSocketHft

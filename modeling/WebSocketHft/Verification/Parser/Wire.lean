import WebSocketHft.Verification.Parser.Equations

/-! # Frames on the wire

A frame as a sender means it, and its bytes. The parser reads every encoding
back, whatever follows it, and never accepts a proper part of one. -/

namespace WebSocketHft

open WebSocketHft.Memory WebSocketHft.BigEndian

/-! ## Encoding -/

/-- The three ways to write a payload length. -/
inductive LengthForm where
  | short
  | medium
  | long
  deriving DecidableEq, Repr

/-- Lengths below the limit can be written in the form. -/
def LengthForm.limit : LengthForm → ℕ
  | .short => 126
  | .medium => 65536
  | .long => 2 ^ 64

theorem LengthForm.limit_pos (form : LengthForm) : 0 < form.limit := by
  cases form <;> decide

/-- The bytes of the extended length. -/
def LengthForm.width : LengthForm → ℕ
  | .short => 0
  | .medium => 2
  | .long => 8

/-- The seven bits in the second byte. -/
def LengthForm.code (form : LengthForm) (n : ℕ) : ℕ :=
  match form with
  | .short => n
  | .medium => 126
  | .long => 127

structure WireFrame where
  fin : Bool
  opcode : UInt8
  form : LengthForm
  maskingKey : Option MaskingKey
  payload : List UInt8
  opcode_lt : opcode.toNat < 16
  length_lt : payload.length < form.limit
  deriving DecidableEq

namespace WireFrame

def byte0 (f : WireFrame) : UInt8 :=
  UInt8.ofNat ((if f.fin then 128 else 0) + f.opcode.toNat)

def byte1 (f : WireFrame) : UInt8 :=
  UInt8.ofNat ((if f.maskingKey.isSome then 128 else 0) + f.form.code f.payload.length)

def keyBytes (f : WireFrame) : List UInt8 :=
  match f.maskingKey with
  | none => []
  | some key => key.bytes

/-- The payload as it travels. -/
def body (f : WireFrame) : List UInt8 :=
  match f.maskingKey with
  | none => f.payload
  | some key => xorKey key f.payload

def header (f : WireFrame) : List UInt8 :=
  f.byte0 :: f.byte1 :: (toBytes f.form.width f.payload.length ++ f.keyBytes)

def encode (f : WireFrame) : List UInt8 := f.header ++ f.body

def headerSize (f : WireFrame) : ℕ :=
  2 + f.form.width + if f.maskingKey.isSome then 4 else 0

def size (f : WireFrame) : ℕ := f.headerSize + f.payload.length

/-- What the parser reports about the frame. -/
def parsed (f : WireFrame) : WSFrame where
  fin := if f.fin then 1 else 0
  opcode := f.opcode
  mask := if f.maskingKey.isSome then 1 else 0
  payloadLenType := if f.form.width = 0 then 7 else 8 * f.form.width
  payloadLen := f.payload.length
  maskingKey := f.maskingKey.getD ⟨0, 0, 0, 0⟩
  payload := f.headerSize
  headerSize := f.headerSize

/-! ## Lengths -/

@[simp] theorem keyBytes_length (f : WireFrame) :
    f.keyBytes.length = if f.maskingKey.isSome then 4 else 0 := by
  unfold keyBytes
  cases f.maskingKey with
  | none => rfl
  | some key => rfl

@[simp] theorem body_length (f : WireFrame) : f.body.length = f.payload.length := by
  unfold body
  cases f.maskingKey with
  | none => rfl
  | some key => simp [xorKey]

@[simp] theorem header_length (f : WireFrame) : f.header.length = f.headerSize := by
  simp [header, headerSize]
  omega

@[simp] theorem encode_length (f : WireFrame) : f.encode.length = f.size := by
  simp [encode, size]

theorem two_le_headerSize (f : WireFrame) : 2 ≤ f.headerSize := by
  unfold headerSize
  omega

theorem two_le_size (f : WireFrame) : 2 ≤ f.size :=
  f.two_le_headerSize.trans (Nat.le_add_right _ _)

theorem size_ne_zero (f : WireFrame) : f.size ≠ 0 :=
  (Nat.zero_lt_two.trans_le f.two_le_size).ne'

/-! ## The two fixed bytes -/

theorem code_lt (f : WireFrame) : f.form.code f.payload.length < 128 := by
  have h := f.length_lt
  cases hform : f.form with
  | short =>
      rw [hform] at h
      exact h.trans (by decide)
  | medium =>
      change 126 < 128
      decide
  | long =>
      change 127 < 128
      decide

theorem toNat_byte0 (f : WireFrame) :
    f.byte0.toNat = (if f.fin then 128 else 0) + f.opcode.toNat := by
  have h := f.opcode_lt
  rw [byte0, UInt8.toNat_ofNat_of_lt']
  split_ifs <;> simp [UInt8.size] <;> omega

theorem toNat_byte1 (f : WireFrame) :
    f.byte1.toNat =
      (if f.maskingKey.isSome then 128 else 0) + f.form.code f.payload.length := by
  have h := f.code_lt
  rw [byte1, UInt8.toNat_ofNat_of_lt']
  split_ifs <;> simp [UInt8.size] <;> omega

theorem byte1_low (f : WireFrame) : f.byte1.toNat % 128 = f.form.code f.payload.length := by
  have h := f.code_lt
  rw [toNat_byte1]
  split_ifs <;> omega

theorem byte1_masked (f : WireFrame) : 128 ≤ f.byte1.toNat ↔ f.maskingKey.isSome := by
  have h := f.code_lt
  rw [toNat_byte1]
  by_cases hkey : f.maskingKey.isSome
  · simp [hkey]
  · simp [hkey]
    omega

/-! ## Reading an encoding back -/

section Reading

variable {f : WireFrame} {data : ℕ → UInt8} {n : ℕ}

theorem encode_cons (f : WireFrame) :
    f.encode = f.byte0 :: f.byte1 ::
      (toBytes f.form.width f.payload.length ++ (f.keyBytes ++ f.body)) := by
  simp [encode, header]

theorem data_zero (h : load data 0 n = f.encode.take n) (hn : 0 < n) : data 0 = f.byte0 := by
  have hcell := getElem?_load data 0 n 0 hn
  rw [h, List.getElem?_take_of_lt hn, encode_cons] at hcell
  simpa using hcell.symm

theorem data_one (h : load data 0 n = f.encode.take n) (hn : 1 < n) : data 1 = f.byte1 := by
  have hcell := getElem?_load data 0 n 1 hn
  rw [h, List.getElem?_take_of_lt hn, encode_cons] at hcell
  simpa using hcell.symm

/-- A block of the memory is the corresponding block of the encoding. -/
theorem load_block (h : load data 0 n = f.encode.take n) {a k : ℕ} (hk : a + k ≤ n) :
    load data a k = (f.encode.drop a).take k := by
  have hblock : load data a k = ((load data 0 n).drop a).take k := by
    rw [load_drop, load_take _ _ _ _ (by omega), Nat.zero_add]
  rw [hblock, h, List.drop_take, List.take_take, min_eq_left (by omega)]

theorem load_length_bytes (h : load data 0 n = f.encode.take n) (hn : 2 + f.form.width ≤ n) :
    load data 2 f.form.width = toBytes f.form.width f.payload.length := by
  rw [load_block h hn, encode_cons]
  simp

theorem load_key_bytes (h : load data 0 n = f.encode.take n) (hn : f.headerSize ≤ n) :
    load data (2 + f.form.width) f.keyBytes.length = f.keyBytes := by
  have hsum : 2 + f.form.width + f.keyBytes.length ≤ n := by
    simpa [headerSize] using hn
  have hdrop : f.encode.drop (2 + f.form.width) = f.keyBytes ++ f.body := by
    rw [encode_cons, Nat.add_comm]
    change (toBytes _ _ ++ (f.keyBytes ++ f.body)).drop f.form.width = _
    exact List.drop_left' (toBytes_length _ _)
  rw [load_block h hsum, hdrop, List.take_left' rfl]

theorem lengthBytes_eq (h : data 1 = f.byte1) : lengthBytes data = f.form.width := by
  have hlt := f.length_lt
  rw [lengthBytes, h, byte1_low]
  cases hform : f.form with
  | short =>
      rw [hform] at hlt
      change f.payload.length < 126 at hlt
      have h126 : LengthForm.short.code f.payload.length ≠ 126 := hlt.ne
      have h127 : LengthForm.short.code f.payload.length ≠ 127 := (hlt.trans (by decide)).ne
      rw [if_neg h126, if_neg h127]
      rfl
  | medium => rfl
  | long => rfl

theorem masked_iff (h : data 1 = f.byte1) : Masked data ↔ f.maskingKey.isSome := by
  rw [Masked, h, byte1_masked]

theorem headerBytes_eq (h : data 1 = f.byte1) : headerBytes data = f.headerSize := by
  simp only [headerBytes, headerSize, lengthBytes_eq h, masked_iff h]

theorem announcedLength_eq (h : data 1 = f.byte1)
    (hbytes : load data 2 f.form.width = toBytes f.form.width f.payload.length) :
    announcedLength data = f.payload.length := by
  have hlt := f.length_lt
  rw [announcedLength, lengthBytes_eq h, hbytes, h, byte1_low, ofBytes_toBytes]
  cases hform : f.form with
  | short => rfl
  | medium =>
      rw [hform] at hlt
      exact Nat.mod_eq_of_lt hlt
  | long =>
      rw [hform] at hlt
      exact Nat.mod_eq_of_lt hlt

theorem frameAt_key (h : load data 0 n = f.encode.take n) (hn : f.headerSize ≤ n) :
    (frameAt data).maskingKey = f.maskingKey.getD ⟨0, 0, 0, 0⟩ := by
  have htwo := f.two_le_headerSize
  have h1 := data_one h (by omega)
  have hbytes := load_key_bytes h hn
  simp only [frameAt, lengthBytes_eq h1, masked_iff h1]
  cases hkey : f.maskingKey with
  | none => rfl
  | some key =>
      simp only [keyBytes, hkey] at hbytes
      simpa [load, MaskingKey.bytes, List.range_succ, Nat.add_assoc, MaskingKey.ext_iff] using hbytes

theorem frameAt_eq (h : load data 0 n = f.encode.take n) (hn : f.headerSize ≤ n) :
    frameAt data = f.parsed := by
  have htwo := f.two_le_headerSize
  have h0 := data_zero h (by omega)
  have h1 := data_one h (by omega)
  have hlen := load_length_bytes h (by unfold headerSize at hn; omega)
  have hop := f.opcode_lt
  have hcode := f.code_lt
  have hfin : (data 0 >>> 7) &&& 1 = if f.fin then 1 else 0 := by
    rw [← UInt8.toNat_inj, toNat_highBit, h0, toNat_byte0]
    split_ifs <;> simp <;> omega
  have hopcode : data 0 &&& 0x0F = f.opcode := by
    rw [← UInt8.toNat_inj, toNat_and_15, h0, toNat_byte0]
    split_ifs <;> omega
  have hmask : (data 1 >>> 7) &&& 1 = if f.maskingKey.isSome then 1 else 0 := by
    rw [← UInt8.toNat_inj, toNat_highBit, h1, toNat_byte1]
    split_ifs <;> simp <;> omega
  have hkey := frameAt_key h hn
  rw [WSFrame.ext_iff]
  refine ⟨hfin, hopcode, hmask, ?_, announcedLength_eq h1 hlen, hkey, headerBytes_eq h1,
    headerBytes_eq h1⟩
  simp only [frameAt, lengthBytes_eq h1, parsed]

/-- The same memory does not start with encodings of frames that differ in size or masking. -/
theorem size_unique {g : WireFrame} (hf : load data 0 f.size = f.encode)
    (hg : load data 0 g.size = g.encode) :
    f.size = g.size ∧ f.maskingKey.isSome = g.maskingKey.isSome := by
  have hread {f : WireFrame} (h : load data 0 f.size = f.encode) :
      data 1 = f.byte1 ∧ announcedLength data = f.payload.length := by
    have htwo := f.two_le_size
    have hheader : f.headerSize ≤ f.size := Nat.le_add_right _ _
    have htake : load data 0 f.size = f.encode.take f.size := by
      rw [List.take_of_length_le (encode_length f).le, h]
    have h1 := data_one htake (by omega)
    exact ⟨h1, announcedLength_eq h1
      (load_length_bytes htake (by unfold headerSize at hheader; omega))⟩
  obtain ⟨hf1, hflen⟩ := hread hf
  obtain ⟨hg1, hglen⟩ := hread hg
  refine ⟨?_, ?_⟩
  · rw [size, size, ← headerBytes_eq hf1, ← headerBytes_eq hg1, ← hflen, ← hglen]
  · rw [Bool.eq_iff_iff, ← byte1_masked, ← byte1_masked, ← hf1, ← hg1]

/-- An encoding is read back, whatever follows it. -/
theorem parse_encode (h : load data 0 f.size = f.encode) {len : ℕ} (hlen : f.size ≤ len)
    (hsize : f.size < 2 ^ 64) : neonParseWsFrame data len = .ok f.parsed := by
  have htwo := f.two_le_size
  have htake : load data 0 f.size = f.encode.take f.size := by
    rw [List.take_of_length_le (encode_length f).le, h]
  have h1 := data_one htake (by omega)
  have hheader : f.headerSize ≤ f.size := Nat.le_add_right _ _
  have hbytes := load_length_bytes htake (by unfold headerSize at hheader; omega)
  rw [neonParseWsFrame_eq data (by omega), headerBytes_eq h1, announcedLength_eq h1 hbytes,
    frameAt_eq htake hheader]
  have hmod : (f.headerSize + f.payload.length) % sizeMax = f.size := Nat.mod_eq_of_lt hsize
  rw [hmod, if_pos ⟨by omega, hlen⟩]

/-- A proper part of an encoding is not accepted: one byte is an error, more wait. -/
theorem parse_partial (h : load data 0 n = f.encode.take n) (hn : n < f.size)
    (hsize : f.size < 2 ^ 64) :
    neonParseWsFrame data n = if n < 2 then .error else .needMore := by
  by_cases hshort : n < 2
  · rw [if_pos hshort, neonParseWsFrame_short data hshort]
  · rw [if_neg hshort]
    have h1 := data_one h (by omega)
    rw [neonParseWsFrame_eq data (by omega), headerBytes_eq h1, if_neg]
    rintro ⟨hheader, hfit⟩
    have hbytes := load_length_bytes h (by unfold headerSize at hheader; omega)
    rw [announcedLength_eq h1 hbytes] at hfit
    have hmod : (f.headerSize + f.payload.length) % sizeMax = f.size := Nat.mod_eq_of_lt hsize
    omega

end Reading

end WireFrame

end WebSocketHft

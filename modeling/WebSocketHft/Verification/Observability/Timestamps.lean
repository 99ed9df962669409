import WebSocketHft.Model.Timestamps
import WebSocketHft.Shared.Rates

/-! # The time of a packet in ticks

As long as the present time can be multiplied by the numerator of the timebase, the
conversion of an earlier time computes what it would with unbounded integers. -/

namespace WebSocketHft

open WebSocketHft.Rates

variable {tb : Timebase} {nowTicks nicNs : UInt64}

/-! ## Without overflow -/

theorem toNat_mul_of_lt {x y : UInt64} (h : x.toNat * y.toNat < 2 ^ 64) :
    (x * y).toNat = x.toNat * y.toNat := by
  rw [UInt64.toNat_mul, Nat.mod_eq_of_lt h]

theorem toNat_toNs (hfits : nowTicks.toNat * tb.numer.toNat < 2 ^ 64) :
    (tb.toNs nowTicks).toNat = convert tb.numer.toNat tb.denom.toNat nowTicks.toNat := by
  rw [Timebase.toNs, UInt64.toNat_div, toNat_mul_of_lt hfits]
  rfl

/-- A time span up to now can be multiplied by the denominator. -/
theorem toNat_mul_denom (hfits : nowTicks.toNat * tb.numer.toNat < 2 ^ 64) {ns : UInt64}
    (hns : ns ≤ tb.toNs nowTicks) :
    (ns * tb.denom.toUInt64).toNat = ns.toNat * tb.denom.toNat := by
  have hle : ns.toNat ≤ convert tb.numer.toNat tb.denom.toNat nowTicks.toNat := by
    rw [← toNat_toNs hfits]
    exact hns
  exact toNat_mul_of_lt ((mul_le_of_le_convert hle).trans_lt hfits)

theorem toNat_toTicks (hfits : nowTicks.toNat * tb.numer.toNat < 2 ^ 64) {ns : UInt64}
    (hns : ns ≤ tb.toNs nowTicks) :
    (tb.toTicks ns).toNat = convert tb.denom.toNat tb.numer.toNat ns.toNat := by
  rw [Timebase.toTicks, UInt64.toNat_div, toNat_mul_denom hfits hns]
  rfl

theorem le_toNs_iff (hfits : nowTicks.toNat * tb.numer.toNat < 2 ^ 64) :
    nicNs ≤ tb.toNs nowTicks ↔
      nicNs.toNat ≤ convert tb.numer.toNat tb.denom.toNat nowTicks.toNat := by
  rw [UInt64.le_iff_toNat_le, toNat_toNs hfits]

theorem toNat_diffNs (hnic : nicNs ≤ tb.toNs nowTicks) :
    (tb.toNs nowTicks - nicNs).toNat = (tb.toNs nowTicks).toNat - nicNs.toNat :=
  UInt64.toNat_sub_of_le _ _ hnic

theorem diffNs_le (hnic : nicNs ≤ tb.toNs nowTicks) :
    tb.toNs nowTicks - nicNs ≤ tb.toNs nowTicks := by
  rw [UInt64.le_iff_toNat_le, toNat_diffNs hnic]
  exact Nat.sub_le _ _

/-- The ticks that `io_read` computes are those of unbounded integers. -/
theorem toNat_ioNicTicks (hfits : nowTicks.toNat * tb.numer.toNat < 2 ^ 64)
    (hpos : 0 < tb.toNs nowTicks) (hnic : nicNs ≤ tb.toNs nowTicks) :
    (ioNicTicks tb nowTicks nicNs).toNat =
      goBack tb.numer.toNat tb.denom.toNat nowTicks.toNat nicNs.toNat := by
  have hdiff : (tb.toTicks (tb.toNs nowTicks - nicNs)).toNat =
      convert tb.denom.toNat tb.numer.toNat
        (convert tb.numer.toNat tb.denom.toNat nowTicks.toNat - nicNs.toNat) := by
    rw [toNat_toTicks hfits (diffNs_le hnic), toNat_diffNs hnic, toNat_toNs hfits]
  unfold ioNicTicks goBack
  dsimp only
  rw [if_pos ⟨hnic, hpos⟩, ← hdiff]
  split_ifs with hlt
  · exact UInt64.toNat_sub_of_le _ _ (UInt64.le_of_lt hlt)
  · have hge := UInt64.le_iff_toNat_le.mp (UInt64.not_lt.mp hlt)
    exact (Nat.sub_eq_zero_of_le hge).symm

theorem sslNicTicks_eq (hdenom : 0 < tb.denom) :
    sslNicTicks tb nowTicks nicNs = ioNicTicks tb nowTicks nicNs := by
  unfold sslNicTicks ioNicTicks
  simp only [hdenom, and_true]

/-! ## The control messages -/

/-- The first timestamp there is gets stored. -/
theorem readTimestamp_eq (toTicks : UInt64 → UInt64) (last : NicTimestamp)
    (msgs : List ControlMessage) :
    readTimestamp toTicks last msgs =
      ((msgs.findSome? ControlMessage.nicNs?).map fun nicNs => ⟨nicNs, toTicks nicNs⟩).getD last := by
  induction msgs with
  | nil => rfl
  | cons msg msgs ih =>
      rw [readTimestamp, List.findSome?_cons]
      cases msg.nicNs? with
      | some nicNs => rfl
      | none => exact ih

theorem readTimestamp_of_first {toTicks : UInt64 → UInt64} {last : NicTimestamp}
    {msgs : List ControlMessage} (h : msgs.findSome? ControlMessage.nicNs? = some nicNs) :
    readTimestamp toTicks last msgs = ⟨nicNs, toTicks nicNs⟩ := by
  rw [readTimestamp_eq, h]
  rfl

/-- A read of the socket that gets anything keeps the time it is given. -/
theorem ioRead_nic {ctx : IOContext} {i : ℕ} {sock : IOSocket}
    (hslot : ctx.sockets[i]? = some sock) {rb : RingBuffer} {bytes : List UInt8}
    {nic : Option UInt64} (hread : 0 < (ioRead (some ctx) i rb (.received bytes nic)).ret) :
    ioGetLastNicTimestampNs (ioRead (some ctx) i rb (.received bytes nic)).ctx i =
      nic.getD sock.lastNicTimestampNs := by
  have hi : ¬(i : ℤ) < 0 := Int.not_lt.mpr (Int.natCast_nonneg i)
  have hlt : i < ctx.sockets.length := (List.getElem?_eq_some_iff.mp hslot).1
  revert hread
  simp only [ioRead, if_neg hi, Int.toNat_natCast, hslot]
  split_ifs
  · intro hread
    cases hread
  · intro hread
    cases hread
  · intro hread
    cases hread
  · intro _
    simp only [ioGetLastNicTimestampNs, if_neg hi, Int.toNat_natCast, List.getElem?_set_self hlt]

/-- The nanoseconds stored here are those that `io_read` keeps. -/
theorem ioRead_keeps_ns (tb : Timebase) (nowTicks ticks : UInt64) {ctx : IOContext} {i : ℕ}
    {sock : IOSocket} (hslot : ctx.sockets[i]? = some sock) {rb : RingBuffer} {bytes : List UInt8}
    {msgs : List ControlMessage}
    (hread : 0 < (ioRead (some ctx) i rb
      (.received bytes (msgs.findSome? ControlMessage.nicNs?))).ret) :
    ioGetLastNicTimestampNs
        (ioRead (some ctx) i rb (.received bytes (msgs.findSome? ControlMessage.nicNs?))).ctx i =
      (ioReadTimestamp tb nowTicks ⟨sock.lastNicTimestampNs, ticks⟩ msgs).ns := by
  rw [ioRead_nic hslot hread, ioReadTimestamp, readTimestamp_eq]
  cases msgs.findSome? ControlMessage.nicNs? <;> rfl

/-! ## The conversion -/

/-- For every timebase and every time whose product with the numerator fits into 64 bits: the
conversion of an earlier time does not overflow and is not cut off at zero unless that is exact.
`io_read` and `ssl_read_func` store the same ticks. These are not later than now, in the order of
the times converted, and less than a nanosecond and a tick behind the exact value. -/
theorem nic_ticks_tight (tb : Timebase) (nowTicks nicNs : UInt64) (hnumer : 1 ≤ tb.numer)
    (hdenom : 1 ≤ tb.denom) (hfits : nowTicks.toNat * tb.numer.toNat < 2 ^ 64)
    (hpos : 0 < nowTicks.toNat * tb.numer.toNat / tb.denom.toNat)
    (hnic : nicNs.toNat ≤ nowTicks.toNat * tb.numer.toNat / tb.denom.toNat) :
    let diffNs := tb.toNs nowTicks - nicNs
    let r := ioNicTicks tb nowTicks nicNs
    ((nowTicks * tb.numer.toUInt64).toNat = nowTicks.toNat * tb.numer.toNat ∧
        (tb.toNs nowTicks).toNat = nowTicks.toNat * tb.numer.toNat / tb.denom.toNat ∧
        diffNs.toNat = (tb.toNs nowTicks).toNat - nicNs.toNat ∧
        (diffNs * tb.denom.toUInt64).toNat = diffNs.toNat * tb.denom.toNat) ∧
      (¬tb.toTicks diffNs < nowTicks →
        (nowTicks.toNat - diffNs.toNat * tb.denom.toNat / tb.numer.toNat : ℚ) ≤ 0) ∧
      (∀ last packetArrivalTicks msgs, msgs.findSome? ControlMessage.nicNs? = some nicNs →
        ioReadTimestamp tb nowTicks last msgs = ⟨nicNs, r⟩ ∧
          sslReadTimestamp tb packetArrivalTicks nowTicks msgs = ⟨nicNs, r⟩) ∧
      r ≤ nowTicks ∧
      (∀ nicNs', nicNs ≤ nicNs' → nicNs' ≤ tb.toNs nowTicks → r ≤ ioNicTicks tb nowTicks nicNs') ∧
      (nicNs.toNat : ℚ) ≤ r.toNat * tb.numer.toNat / tb.denom.toNat ∧
      (r.toNat * tb.numer.toNat / tb.denom.toNat : ℚ) <
        nicNs.toNat + 1 + tb.numer.toNat / tb.denom.toNat := by
  intro diffNs r
  have hnumer' : 0 < tb.numer.toNat := UInt32.le_iff_toNat_le.mp hnumer
  have hdenom' : 0 < tb.denom.toNat := UInt32.le_iff_toNat_le.mp hdenom
  have hnow : nicNs ≤ tb.toNs nowTicks := (le_toNs_iff hfits).mpr hnic
  have hnonzero : 0 < tb.toNs nowTicks := by
    rw [UInt64.lt_iff_toNat_lt, toNat_toNs hfits]
    exact hpos
  have hr : r.toNat = goBack tb.numer.toNat tb.denom.toNat nowTicks.toNat nicNs.toNat :=
    toNat_ioNicTicks hfits hnonzero hnow
  refine ⟨⟨toNat_mul_of_lt hfits, toNat_toNs hfits, toNat_diffNs hnow,
    toNat_mul_denom hfits (diffNs_le hnow)⟩, ?_, ?_, ?_, ?_, ?_, ?_⟩
  · intro hclamped
    apply sub_nonpos_of_convert_ge hnumer'
    rw [← toNat_toTicks hfits (diffNs_le hnow)]
    exact UInt64.le_iff_toNat_le.mp (UInt64.not_lt.mp hclamped)
  · intro last packetArrivalTicks msgs hfirst
    refine ⟨readTimestamp_of_first hfirst, (readTimestamp_of_first hfirst).trans ?_⟩
    exact congrArg (NicTimestamp.mk nicNs) (sslNicTicks_eq hdenom)
  · rw [UInt64.le_iff_toNat_le, hr]
    exact goBack_le _ _ _ _
  · intro nicNs' hle hnow'
    rw [UInt64.le_iff_toNat_le, hr, toNat_ioNicTicks hfits hnonzero hnow']
    exact goBack_mono _ _ _ hle
  · rw [hr]
    exact le_goBack_rat hnumer' hdenom' hnic
  · rw [hr]
    exact goBack_rat_lt hnumer' hdenom' hnic

/-- With a timebase of 125 / 3, a packet that arrived 1000 ns ago arrived 24 ticks ago. -/
theorem nic_ticks_of_recent_packet :
    ioReadTimestamp ⟨125, 3⟩ 240 ⟨0, 0⟩ [.other, .timestamp 0 9] = ⟨9000, 216⟩ ∧
      sslReadTimestamp ⟨125, 3⟩ 230 240 [.other, .timestamp 0 9] = ⟨9000, 216⟩ := by
  obtain ⟨-, -, hstored, -⟩ := nic_ticks_tight ⟨125, 3⟩ 240 9000 (by decide) (by decide) (by decide)
    (by decide) (by decide)
  exact hstored ⟨0, 0⟩ 230 [.other, .timestamp 0 9] (by decide)

end WebSocketHft

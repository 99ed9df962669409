import Mathlib.Order.Lattice.Nat
import WebSocketHft.Model.Json

/-! # Searching for a field

The vector search looks at every position of the full blocks and then at those before
`json_len - pattern_len`. In a text with room for the pattern it finds what `strstr` finds,
unless the pattern ends the text. -/

namespace WebSocketHft

open WebSocketHft.Memory WebSocketHft.Scan WebSocketHft.Substring

/-! ## The pattern -/

@[simp] theorem length_searchPattern (name : List UInt8) :
    (searchPattern name).length = name.length + 3 := by
  simp [searchPattern]

theorem searchPattern_ne_nil (name : List UInt8) : searchPattern name ≠ [] :=
  List.cons_ne_nil _ _

/-- The tests on a lane amount to an occurrence. -/
theorem laneHit_iff {json : ℕ → UInt8} {jsonLen : ℕ} {pat : List UInt8} (hpat : pat ≠ []) (k : ℕ) :
    LaneHit json jsonLen pat k ↔ OccursAt json jsonLen pat k := by
  constructor
  · rintro ⟨-, -, hfits, hmatch⟩
    exact ⟨hfits, hmatch⟩
  · rintro ⟨hfits, hmatch⟩
    have hpos := List.length_pos_iff.mpr hpat
    have hfirst : some (json k) = pat.head? := by
      rw [← hmatch, List.head?_eq_getElem?, getElem?_load _ _ _ _ hpos, Nat.add_zero]
    exact ⟨by omega, hfirst, hfits, hmatch⟩

/-! ## The blocks -/

/-- The end of the last full block. -/
def blocksEnd (jsonLen : ℕ) : ℕ := 16 * (jsonLen / 16)

/-- The loop over the blocks looks at every position up to the end of the last one. -/
theorem scanBlocks_eq (json : ℕ → UInt8) {jsonLen : ℕ} {pat : List UInt8} (hpat : pat ≠ [])
    {fuel i : ℕ} (hfuel : (jsonLen - i) / 16 ≤ fuel) :
    (scanBlocks json jsonLen pat fuel i).1 =
        firstFrom (OccursAt json jsonLen pat) (16 * ((jsonLen - i) / 16)) i ∧
      ((scanBlocks json jsonLen pat fuel i).1 = none →
        (scanBlocks json jsonLen pat fuel i).2 = i + 16 * ((jsonLen - i) / 16)) := by
  induction fuel generalizing i with
  | zero =>
      have hzero : (jsonLen - i) / 16 = 0 := Nat.le_zero.mp hfuel
      rw [hzero]
      exact ⟨rfl, fun _ => rfl⟩
  | succ fuel ih =>
      by_cases hblock : i + 16 ≤ jsonLen
      · have hlanes : firstFrom (LaneHit json jsonLen pat) 16 i =
            firstFrom (OccursAt json jsonLen pat) 16 i :=
          firstFrom_congr fun k _ _ => laneHit_iff hpat k
        obtain ⟨hfound, hend⟩ := ih (i := i + 16) (by omega)
        have hsplit : 16 * ((jsonLen - i) / 16) = 16 + 16 * ((jsonLen - (i + 16)) / 16) := by omega
        rw [scanBlocks, if_pos hblock, hlanes, hsplit, firstFrom_add]
        cases hhit : firstFrom (OccursAt json jsonLen pat) 16 i with
        | some k => exact ⟨rfl, fun hnone => absurd hnone (Option.some_ne_none k)⟩
        | none =>
            refine ⟨by rw [Option.none_or]; exact hfound, fun hnone => ?_⟩
            exact (hend hnone).trans (Nat.add_assoc i 16 _)
      · have hzero : (jsonLen - i) / 16 = 0 := by omega
        rw [scanBlocks, if_neg hblock, hzero]
        exact ⟨rfl, fun _ => rfl⟩

/-- The loop from the start of the text. -/
theorem scanBlocks_whole (json : ℕ → UInt8) (jsonLen : ℕ) {pat : List UInt8} (hpat : pat ≠ []) :
    (scanBlocks json jsonLen pat jsonLen 0).1 =
        firstFrom (OccursAt json jsonLen pat) (blocksEnd jsonLen) 0 ∧
      ((scanBlocks json jsonLen pat jsonLen 0).1 = none →
        (scanBlocks json jsonLen pat jsonLen 0).2 = blocksEnd jsonLen) := by
  have hfuel : (jsonLen - 0) / 16 ≤ jsonLen := by omega
  have hscan := scanBlocks_eq json hpat hfuel
  rwa [Nat.sub_zero, Nat.zero_add] at hscan

/-- Both loops together. -/
theorem neonSearch_eq_or (json : ℕ → UInt8) (jsonLen : ℕ) {pat : List UInt8} (hpat : pat ≠ []) :
    neonSearch json jsonLen pat =
      (firstFrom (OccursAt json jsonLen pat) (blocksEnd jsonLen) 0).or
        (scanTail json jsonLen pat (blocksEnd jsonLen)) := by
  obtain ⟨hfound, hend⟩ := scanBlocks_whole json jsonLen hpat
  unfold neonSearch
  cases hhit : (scanBlocks json jsonLen pat jsonLen 0).1 with
  | some k =>
      rw [hhit] at hfound
      rw [← hfound]
      simp [hhit]
  | none =>
      rw [hhit] at hfound
      rw [← hfound]
      simp [hhit, hend hhit]

/-- A text that is at least as long as the pattern: every position is looked at that lies in a
full block or before the last one at which the pattern fits. -/
theorem neonSearch_eq (json : ℕ → UInt8) {jsonLen : ℕ} {pat : List UInt8} (hpat : pat ≠ [])
    (hle : pat.length ≤ jsonLen) :
    neonSearch json jsonLen pat =
      firstFrom (OccursAt json jsonLen pat) (max (blocksEnd jsonLen) (jsonLen - pat.length)) 0 := by
  have htail : scanTail json jsonLen pat (blocksEnd jsonLen) =
      firstFrom (OccursAt json jsonLen pat) (jsonLen - pat.length - blocksEnd jsonLen)
        (blocksEnd jsonLen) := by
    unfold scanTail subSize
    rw [if_pos hle]
    exact firstFrom_congr fun k hge hlt => ⟨fun hmatch => ⟨by omega, hmatch⟩, fun hoccurs => hoccurs.2⟩
  have hmax : max (blocksEnd jsonLen) (jsonLen - pat.length) =
      blocksEnd jsonLen + (jsonLen - pat.length - blocksEnd jsonLen) := by omega
  rw [neonSearch_eq_or json jsonLen hpat, htail, hmax, firstFrom_add, Nat.zero_add]

theorem findInfix_text (json : ℕ → UInt8) (jsonLen : ℕ) {pat : List UInt8} (hpat : pat ≠ []) :
    findInfix pat (load json 0 jsonLen) = firstFrom (OccursAt json jsonLen pat) jsonLen 0 := by
  have h := findInfix_load (m := json) hpat 0 jsonLen
  rw [Nat.zero_add] at h
  rw [← h]
  simp

/-- The pattern first occurs at the very end, behind the last full block. -/
def Overlooked (text pat : List UInt8) : Prop :=
  findInfix pat text = some (text.length - pat.length) ∧
    blocksEnd text.length ≤ text.length - pat.length

instance (text pat : List UInt8) : Decidable (Overlooked text pat) :=
  inferInstanceAs (Decidable (_ ∧ _))

theorem neonSearch_of_overlooked {json : ℕ → UInt8} {jsonLen : ℕ} {pat : List UInt8}
    (hpat : pat ≠ []) (hle : pat.length ≤ jsonLen) (h : Overlooked (load json 0 jsonLen) pat) :
    neonSearch json jsonLen pat = none := by
  obtain ⟨hfirst, hblocks⟩ := h
  rw [load_length] at hfirst hblocks
  rw [findInfix_text json jsonLen hpat, firstFrom_eq_some_iff] at hfirst
  rw [neonSearch_eq json hpat hle, max_eq_right hblocks, firstFrom_eq_none_iff]
  intro k hk hlt
  exact hfirst.2.2.2 k hk (by omega)

theorem neonSearch_of_not_overlooked {json : ℕ → UInt8} {jsonLen : ℕ} {pat : List UInt8}
    (hpat : pat ≠ []) (hle : pat.length ≤ jsonLen) (h : ¬Overlooked (load json 0 jsonLen) pat) :
    neonSearch json jsonLen pat = findInfix pat (load json 0 jsonLen) := by
  have hpos := List.length_pos_iff.mpr hpat
  have hblocks : blocksEnd jsonLen ≤ jsonLen := Nat.mul_div_le jsonLen 16
  rw [neonSearch_eq json hpat hle, findInfix_text json jsonLen hpat]
  cases hfound : firstFrom (OccursAt json jsonLen pat) jsonLen 0 with
  | none =>
      rw [firstFrom_eq_none_iff] at hfound ⊢
      exact fun k hk hlt => hfound k hk (by omega)
  | some k =>
      have hspec := firstFrom_eq_some_iff.mp hfound
      have hfits := hspec.2.2.1.1
      rw [firstFrom_eq_some_iff]
      refine ⟨hspec.1, ?_, hspec.2.2⟩
      -- a hit outside the searched positions can only be the last one
      by_contra hnot
      have hlast : k = jsonLen - pat.length := by omega
      refine h ⟨?_, ?_⟩
      · rw [findInfix_text json jsonLen hpat, hfound, hlast, load_length]
      · rw [load_length]
        omega

theorem neonSearch_eq_none_iff {json : ℕ → UInt8} {jsonLen : ℕ} {pat : List UInt8}
    (hpat : pat ≠ []) (hle : pat.length ≤ jsonLen) :
    neonSearch json jsonLen pat = none ↔
      findInfix pat (load json 0 jsonLen) = none ∨ Overlooked (load json 0 jsonLen) pat := by
  by_cases h : Overlooked (load json 0 jsonLen) pat
  · exact iff_of_true (neonSearch_of_overlooked hpat hle h) (Or.inr h)
  · rw [neonSearch_of_not_overlooked hpat hle h]
    exact (or_iff_left h).symm

/-! ## Both parsers -/

/-- The same return code and, on success, the same value. -/
def JsonResult.Agrees (r s : JsonResult) : Prop :=
  r.ret = s.ret ∧
    (r.ret = 0 → r.valueLen = s.valueLen ∧ load r.valueBuf 0 r.valueLen = load s.valueBuf 0 s.valueLen)

/-- What a text that ends with its only NUL is as a C string. -/
theorem stringAt_text {json : ℕ → UInt8} {text : List UInt8} (htext : load json 0 text.length = text)
    (hend : json text.length = 0) (hnul : 0 ∉ text) :
    stringAt json 0 0 (text.length + 1) = text := by
  have hload : load json 0 (text.length + 1) = text ++ [0] := by
    rw [load_add, htext, Nat.zero_add]
    simp [load, hend]
  rw [stringAt_eq_takeWhile, hload, List.takeWhile_append_of_pos fun c hc => ?_]
  · simp
  · simp only [decide_eq_true_eq]
    rintro rfl
    exact hnul hc

section Outcomes

variable {json : ℕ → UInt8} {jsonLen : ℕ} {name : List UInt8}
variable (valueBuf : ℕ → UInt8) (valueBufSize valueLen : ℕ)

theorem neonParse_of_none (hnone : neonSearch json jsonLen (searchPattern name) = none) :
    neonParseJsonMarketData json jsonLen name valueBuf valueBufSize valueLen =
      ⟨-1, valueBuf, valueLen⟩ := by
  simp [neonParseJsonMarketData, hnone]

theorem neonParse_of_some {k : ℕ} (hshort : (searchPattern name).length < searchPatternSize)
    (hfound : neonSearch json jsonLen (searchPattern name) = some k) :
    neonParseJsonMarketData json jsonLen name valueBuf valueBufSize valueLen =
      extractValue json jsonLen (k + (searchPattern name).length) valueBuf valueBufSize := by
  rw [neonParseJsonMarketData, if_neg (Nat.not_le.mpr hshort), hfound]

theorem neonParse_of_long (hlong : searchPatternSize ≤ (searchPattern name).length) :
    neonParseJsonMarketData json jsonLen name valueBuf valueBufSize valueLen =
      ⟨-1, valueBuf, valueLen⟩ := by
  rw [neonParseJsonMarketData, if_pos hlong]

/-- With the same search result the parsers do the same. -/
theorem neonParse_eq_scalarParse (hsearch : neonSearch json jsonLen (searchPattern name) =
      findInfix (searchPattern name) (stringAt json 0 0 (jsonLen + 1))) :
    neonParseJsonMarketData json jsonLen name valueBuf valueBufSize valueLen =
      scalarParseJsonMarketData json jsonLen name valueBuf valueBufSize valueLen := by
  rw [neonParseJsonMarketData, scalarParseJsonMarketData, hsearch]

theorem scalarParse_ret_of_some {k : ℕ} (hshort : (searchPattern name).length < searchPatternSize)
    (hfound : findInfix (searchPattern name) (stringAt json 0 0 (jsonLen + 1)) = some k) :
    (scalarParseJsonMarketData json jsonLen name valueBuf valueBufSize valueLen).ret = 0 := by
  rw [scalarParseJsonMarketData, if_neg (Nat.not_le.mpr hshort), hfound]
  rfl

end Outcomes

theorem JsonResult.Agrees.of_eq {r s : JsonResult} (h : r = s) : r.Agrees s := by
  subst h
  exact ⟨rfl, fun _ => ⟨rfl, rfl⟩⟩

/-- A match that covers the end of the text would contain the NUL. -/
theorem not_matchesAt_across_end {json : ℕ → UInt8} {pat : List UInt8} {len k : ℕ}
    (hend : json len = 0) (hpat : 0 ∉ pat) (hle : k ≤ len) (hlt : len < k + pat.length) :
    ¬MatchesAt json pat k := by
  intro hmatch
  have hcell : pat[len - k]? = some 0 := by
    rw [← hmatch, getElem?_load _ _ _ _ (by omega), Nat.add_sub_cancel' hle, hend]
  exact hpat (List.mem_of_getElem? hcell)

section Agreement

variable {json : ℕ → UInt8} {text name : List UInt8}
variable (valueBuf : ℕ → UInt8) (valueBufSize valueLen : ℕ)

/-- A text with room for the pattern. -/
theorem agrees_iff_of_le (htext : load json 0 text.length = text) (hend : json text.length = 0)
    (hnul : 0 ∉ text) (hshort : (searchPattern name).length < searchPatternSize)
    (hle : (searchPattern name).length ≤ text.length) :
    (neonParseJsonMarketData json text.length name valueBuf valueBufSize valueLen).Agrees
        (scalarParseJsonMarketData json text.length name valueBuf valueBufSize valueLen) ↔
      ¬Overlooked text (searchPattern name) := by
  have hpat := searchPattern_ne_nil name
  have hstring := stringAt_text htext hend hnul
  constructor
  · intro hagrees hover
    have hnone : neonSearch json text.length (searchPattern name) = none :=
      neonSearch_of_overlooked hpat hle (htext.symm ▸ hover)
    have hfound := hover.1
    rw [← hstring] at hfound
    have hret := hagrees.1
    rw [neonParse_of_none _ _ _ hnone, scalarParse_ret_of_some _ _ _ hshort hfound] at hret
    exact absurd hret (by decide : (-1 : ℤ) ≠ 0)
  · intro hover
    refine .of_eq (neonParse_eq_scalarParse _ _ _ ?_)
    rw [hstring, neonSearch_of_not_overlooked hpat hle (by rwa [htext]), htext]

end Agreement

/-- A memory that holds a text and zeros behind it. -/
def textMemory (text : List UInt8) : ℕ → UInt8 :=
  fun i => text.getD i 0

/-- The text `{"a":1}`. -/
def smallObject : List UInt8 := [123, 34, 97, 34, 58, 49, 125]

end WebSocketHft

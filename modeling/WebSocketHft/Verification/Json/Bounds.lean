import WebSocketHft.Verification.Json.Search

/-! # The memory that the extraction touches

The positions of `json` that are read and those of `value_buf` that are written, in the
order of the code. What is not listed does not matter and is not changed. The vector parser
agrees with the scalar one where it stays in the text and does not overlook the last
occurrence. -/

namespace WebSocketHft

open WebSocketHft.Memory WebSocketHft.Scan WebSocketHft.Substring

/-- `n` neighbouring cells. -/
def cells (a n : ℕ) : List ℕ := List.range' a n

@[simp] theorem mem_cells {a n k : ℕ} : k ∈ cells a n ↔ a ≤ k ∧ k < a + n :=
  List.mem_range'_1

theorem load_congr_cells {json json' : ℕ → UInt8} {a n : ℕ}
    (h : ∀ k ∈ cells a n, json k = json' k) : load json a n = load json' a n :=
  load_congr fun i hi => h (a + i) (mem_cells.mpr ⟨Nat.le_add_right a i, by omega⟩)

/-! ## Loops that stop -/

def NotBlank (json : ℕ → UInt8) (k : ℕ) : Prop := ¬(json k = 32 ∨ json k = 9)

instance (json : ℕ → UInt8) : DecidablePred (NotBlank json) :=
  fun _ => inferInstanceAs (Decidable (¬_))

theorem skipBlanks_eq (json : ℕ → UInt8) (left i : ℕ) :
    skipBlanks json left i = stopFrom (NotBlank json) left i := by
  induction left generalizing i with
  | zero => rfl
  | succ left ih =>
      rw [skipBlanks, stopFrom, ih]
      by_cases hblank : json i = 32 ∨ json i = 9
      · have hgoes : ¬NotBlank json i := not_not_intro hblank
        rw [if_pos hblank, if_neg hgoes]
      · have hstops : NotBlank json i := hblank
        rw [if_neg hblank, if_pos hstops]

theorem scanLiteral_eq (json : ℕ → UInt8) (left i : ℕ) :
    scanLiteral json left i = stopFrom (fun k => endsLiteral (json k)) left i := by
  induction left generalizing i with
  | zero => rfl
  | succ left ih => rw [scanLiteral, stopFrom, ih]

/-! ## The cells that are read -/

section Reads

variable (json : ℕ → UInt8) (jsonLen : ℕ)

/-- What `memcmp` is given for a lane of a block. -/
def laneReads (pat : List UInt8) (k : ℕ) : List ℕ :=
  if some (json k) = pat.head? ∧ k + pat.length ≤ jsonLen then cells k pat.length else []

def blockReads (pat : List UInt8) : ℕ → ℕ → List ℕ
  | 0, _ => []
  | fuel + 1, i =>
    if i + 16 ≤ jsonLen then
      cells i 16 ++ (visited (LaneHit json jsonLen pat) 16 i).flatMap (laneReads json jsonLen pat) ++
        match firstFrom (LaneHit json jsonLen pat) 16 i with
        | some _ => []
        | none => blockReads pat fuel (i + 16)
    else []

def tailReads (pat : List UInt8) (i : ℕ) : List ℕ :=
  (visited (MatchesAt json pat) (subSize jsonLen pat.length - i) i).flatMap (cells · pat.length)

def searchReads (pat : List UInt8) : List ℕ :=
  let r := scanBlocks json jsonLen pat jsonLen 0
  blockReads json jsonLen pat jsonLen 0 ++
    match r.1 with
    | some _ => []
    | none => tailReads json jsonLen pat r.2

def stringReads : ℕ → ℕ → List ℕ
  | 0, _ => []
  | 1, i => [i]
  | left + 2, i =>
    i :: if json i = 34 ∨ json i = 0 then []
      else if json i = 92 then stringReads left (i + 2)
      else stringReads (left + 1) (i + 1)

def valueReads (fieldStart : ℕ) : List ℕ :=
  let start := skipBlanks json (jsonLen - fieldStart) fieldStart
  visited (NotBlank json) (jsonLen - fieldStart) fieldStart ++
    if start < jsonLen then
      start :: if json start = 34 then stringReads json (jsonLen - (start + 1)) (start + 1)
        else visited (fun k => endsLiteral (json k)) (jsonLen - start) start
    else []

/-- How much of the value is copied. -/
def copiedLen (fieldStart valueBufSize : ℕ) : ℕ :=
  let span := valueSpan json jsonLen fieldStart
  extractedLen (span.2 - span.1) valueBufSize

theorem extractValue_eq (fieldStart : ℕ) (valueBuf : ℕ → UInt8) (valueBufSize : ℕ) :
    extractValue json jsonLen fieldStart valueBuf valueBufSize =
      let n := copiedLen json jsonLen fieldStart valueBufSize
      ⟨0, store (store valueBuf 0 (load json (valueSpan json jsonLen fieldStart).1 n)) n [0], n⟩ :=
  rfl

def extractReads (fieldStart valueBufSize : ℕ) : List ℕ :=
  valueReads json jsonLen fieldStart ++
    cells (valueSpan json jsonLen fieldStart).1 (copiedLen json jsonLen fieldStart valueBufSize)

/-- The positions of `json` that `neon_parse_json_market_data` reads. -/
def jsonReads (name : List UInt8) (valueBufSize : ℕ) : List ℕ :=
  let pat := searchPattern name
  if searchPatternSize ≤ pat.length then []
  else
    searchReads json jsonLen pat ++
      match neonSearch json jsonLen pat with
      | none => []
      | some k => extractReads json jsonLen (k + pat.length) valueBufSize

/-- The positions of `value_buf` that it writes. -/
def jsonWrites (name : List UInt8) (valueBufSize : ℕ) : List ℕ :=
  let pat := searchPattern name
  if searchPatternSize ≤ pat.length then []
  else
    match neonSearch json jsonLen pat with
    | none => []
    | some k =>
      let n := copiedLen json jsonLen (k + pat.length) valueBufSize
      cells 0 n ++ [n]

end Reads

/-! ## Other cells do not matter -/

section Congruence

variable {json json' : ℕ → UInt8} {jsonLen : ℕ} {pat : List UInt8}

theorem matchesAt_congr {k : ℕ} (h : ∀ j ∈ cells k pat.length, json j = json' j) :
    MatchesAt json pat k ↔ MatchesAt json' pat k := by
  unfold MatchesAt
  rw [load_congr_cells h]

theorem laneHit_congr {k : ℕ} (hk : json k = json' k)
    (h : ∀ j ∈ laneReads json jsonLen pat k, json j = json' j) :
    LaneHit json jsonLen pat k ↔ LaneHit json' jsonLen pat k := by
  unfold LaneHit
  rw [← hk]
  refine and_congr_right fun _ => and_congr_right fun hfirst => and_congr_right fun hfits => ?_
  refine matchesAt_congr fun j hj => h j ?_
  rwa [laneReads, if_pos ⟨hfirst, hfits⟩]

theorem scanBlocks_congr {fuel i : ℕ}
    (h : ∀ k ∈ blockReads json jsonLen pat fuel i, json k = json' k) :
    scanBlocks json jsonLen pat fuel i = scanBlocks json' jsonLen pat fuel i := by
  induction fuel generalizing i with
  | zero => rfl
  | succ fuel ih =>
      by_cases hblock : i + 16 ≤ jsonLen
      · rw [blockReads, if_pos hblock] at h
        have hlanes : firstFrom (LaneHit json jsonLen pat) 16 i =
            firstFrom (LaneHit json' jsonLen pat) 16 i := by
          refine firstFrom_congr_visited fun k hk => laneHit_congr (h k ?_) fun j hj => h j ?_
          · have hrange := mem_visited_iff.mp hk
            simp [hrange.1, hrange.2.1]
          · refine List.mem_append_left _ (List.mem_append_right _ ?_)
            exact List.mem_flatMap.mpr ⟨k, hk, hj⟩
        rw [scanBlocks, scanBlocks, if_pos hblock, if_pos hblock, ← hlanes]
        cases hhit : firstFrom (LaneHit json jsonLen pat) 16 i with
        | some k => rfl
        | none =>
            refine ih fun k hk => h k (List.mem_append_right _ ?_)
            rwa [hhit]
      · rw [scanBlocks, scanBlocks, if_neg hblock, if_neg hblock]

theorem scanTail_congr {i : ℕ} (h : ∀ k ∈ tailReads json jsonLen pat i, json k = json' k) :
    scanTail json jsonLen pat i = scanTail json' jsonLen pat i :=
  firstFrom_congr_visited fun k hk =>
    matchesAt_congr fun j hj => h j (List.mem_flatMap.mpr ⟨k, hk, hj⟩)

theorem neonSearch_congr (h : ∀ k ∈ searchReads json jsonLen pat, json k = json' k) :
    neonSearch json jsonLen pat = neonSearch json' jsonLen pat := by
  have hblocks := scanBlocks_congr fun k hk => h k (List.mem_append_left _ hk)
  unfold neonSearch
  rw [← hblocks]
  cases hhit : (scanBlocks json jsonLen pat jsonLen 0).1 with
  | some k => simp only [hhit]
  | none =>
      simp only [hhit]
      refine scanTail_congr fun k hk => h k (List.mem_append_right _ ?_)
      simpa only [hhit] using hk

theorem skipBlanks_congr {left i : ℕ}
    (h : ∀ k ∈ visited (NotBlank json) left i, json k = json' k) :
    skipBlanks json left i = skipBlanks json' left i := by
  rw [skipBlanks_eq, skipBlanks_eq]
  refine stopFrom_congr_visited fun k hk => ?_
  unfold NotBlank
  rw [h k hk]

theorem scanLiteral_congr {left i : ℕ}
    (h : ∀ k ∈ visited (fun k => endsLiteral (json k)) left i, json k = json' k) :
    scanLiteral json left i = scanLiteral json' left i := by
  rw [scanLiteral_eq, scanLiteral_eq]
  exact stopFrom_congr_visited fun k hk => by rw [h k hk]

theorem scanString_congr {left i : ℕ} (h : ∀ k ∈ stringReads json left i, json k = json' k) :
    scanString json left i = scanString json' left i := by
  induction left, i using scanString.induct json with
  | case1 i => rfl
  | case2 i hends => rw [scanString, scanString, h i List.mem_cons_self]
  | case3 i hgoes => rw [scanString, scanString, h i List.mem_cons_self]
  | case4 left i hends =>
      rw [scanString, scanString, ← h i List.mem_cons_self, if_pos hends, if_pos hends]
  | case5 left i hgoes hescape ih =>
      rw [stringReads, if_neg hgoes, if_pos hescape] at h
      rw [scanString, scanString, ← h i List.mem_cons_self, if_neg hgoes, if_pos hescape,
        if_neg hgoes, if_pos hescape]
      exact ih fun k hk => h k (List.mem_cons_of_mem i hk)
  | case6 left i hgoes hplain ih =>
      rw [stringReads, if_neg hgoes, if_neg hplain] at h
      rw [scanString, scanString, ← h i List.mem_cons_self, if_neg hgoes, if_neg hplain,
        if_neg hgoes, if_neg hplain]
      exact ih fun k hk => h k (List.mem_cons_of_mem i hk)

theorem valueSpan_congr {fieldStart : ℕ}
    (h : ∀ k ∈ valueReads json jsonLen fieldStart, json k = json' k) :
    valueSpan json jsonLen fieldStart = valueSpan json' jsonLen fieldStart := by
  have hstart := skipBlanks_congr fun k hk => h k (List.mem_append_left _ hk)
  unfold valueSpan
  rw [← hstart]
  by_cases hinside : skipBlanks json (jsonLen - fieldStart) fieldStart < jsonLen
  · have hrest := fun k hk => h k (List.mem_append_right _ hk)
    rw [if_pos hinside] at hrest
    simp only [if_pos hinside]
    rw [← hrest _ List.mem_cons_self]
    by_cases hquote : json (skipBlanks json (jsonLen - fieldStart) fieldStart) = 34
    · simp only [if_pos hquote] at hrest ⊢
      rw [scanString_congr fun k hk => hrest k (List.mem_cons_of_mem _ hk)]
    · simp only [if_neg hquote] at hrest ⊢
      rw [scanLiteral_congr fun k hk => hrest k (List.mem_cons_of_mem _ hk)]
  · simp only [if_neg hinside]

theorem extractValue_congr {fieldStart valueBufSize : ℕ} {valueBuf : ℕ → UInt8}
    (h : ∀ k ∈ extractReads json jsonLen fieldStart valueBufSize, json k = json' k) :
    extractValue json jsonLen fieldStart valueBuf valueBufSize =
      extractValue json' jsonLen fieldStart valueBuf valueBufSize := by
  have hspan := valueSpan_congr fun k hk => h k (List.mem_append_left _ hk)
  have hcopy := load_congr_cells fun k hk => h k (List.mem_append_right _ hk)
  unfold copiedLen at hcopy
  simp only [extractValue, ← hspan, hcopy]

end Congruence

variable {json : ℕ → UInt8} {jsonLen : ℕ} {name : List UInt8} {valueBufSize : ℕ}

/-- The result depends on the listed cells of `json` only. -/
theorem neonParse_congr {json' : ℕ → UInt8} (valueBuf : ℕ → UInt8) (valueLen : ℕ)
    (h : ∀ k ∈ jsonReads json jsonLen name valueBufSize, json k = json' k) :
    neonParseJsonMarketData json jsonLen name valueBuf valueBufSize valueLen =
      neonParseJsonMarketData json' jsonLen name valueBuf valueBufSize valueLen := by
  by_cases hlong : searchPatternSize ≤ (searchPattern name).length
  · rw [neonParse_of_long _ _ _ hlong, neonParse_of_long _ _ _ hlong]
  have hshort := Nat.not_le.mp hlong
  unfold jsonReads at h
  simp only [if_neg hlong] at h
  have hsearch := neonSearch_congr fun k hk => h k (List.mem_append_left _ hk)
  cases hfound : neonSearch json jsonLen (searchPattern name) with
  | none =>
      rw [neonParse_of_none _ _ _ hfound, neonParse_of_none _ _ _ (hsearch ▸ hfound)]
  | some k =>
      rw [neonParse_of_some _ _ _ hshort hfound, neonParse_of_some _ _ _ hshort (hsearch ▸ hfound)]
      refine extractValue_congr fun j hj => h j (List.mem_append_right _ ?_)
      rwa [hfound]

/-- Only the listed cells of `value_buf` change. -/
theorem neonParse_valueBuf_of_not_mem (valueBuf : ℕ → UInt8) (valueLen : ℕ) {j : ℕ}
    (h : j ∉ jsonWrites json jsonLen name valueBufSize) :
    (neonParseJsonMarketData json jsonLen name valueBuf valueBufSize valueLen).valueBuf j =
      valueBuf j := by
  by_cases hlong : searchPatternSize ≤ (searchPattern name).length
  · rw [neonParse_of_long _ _ _ hlong]
  have hshort := Nat.not_le.mp hlong
  unfold jsonWrites at h
  simp only [if_neg hlong] at h
  cases hfound : neonSearch json jsonLen (searchPattern name) with
  | none => rw [neonParse_of_none _ _ _ hfound]
  | some k =>
      rw [hfound] at h
      rw [neonParse_of_some _ _ _ hshort hfound]
      have hbehind : copiedLen json jsonLen (k + (searchPattern name).length) valueBufSize < j := by
        simp only [List.mem_append, mem_cells, List.mem_singleton] at h
        omega
      rw [extractValue_eq]
      refine (store_apply_of_ge _ [0] hbehind).trans (store_apply_of_ge _ _ ?_)
      rw [load_length]
      omega

/-! ## Bounds of the single loops -/

theorem blockReads_lt {pat : List UInt8} {fuel i k : ℕ}
    (h : k ∈ blockReads json jsonLen pat fuel i) : k < jsonLen := by
  induction fuel generalizing i with
  | zero => exact absurd h List.not_mem_nil
  | succ fuel ih =>
      rw [blockReads] at h
      by_cases hblock : i + 16 ≤ jsonLen
      · rw [if_pos hblock] at h
        rcases List.mem_append.mp h with hfront | hnext
        · rcases List.mem_append.mp hfront with hchunk | hlane
          · have := mem_cells.mp hchunk
            omega
          · obtain ⟨lane, -, hk⟩ := List.mem_flatMap.mp hlane
            unfold laneReads at hk
            split_ifs at hk with hfits
            · have := mem_cells.mp hk
              omega
            · exact absurd hk List.not_mem_nil
        · cases hhit : firstFrom (LaneHit json jsonLen pat) 16 i with
          | some hit => exact absurd (hhit ▸ hnext) List.not_mem_nil
          | none =>
              rw [hhit] at hnext
              exact ih hnext
      · rw [if_neg hblock] at h
        exact absurd h List.not_mem_nil

theorem tailReads_lt {pat : List UInt8} {i k : ℕ} (hle : pat.length ≤ jsonLen)
    (h : k ∈ tailReads json jsonLen pat i) : k < jsonLen := by
  obtain ⟨position, hposition, hk⟩ := List.mem_flatMap.mp h
  have hrange := mem_visited_iff.mp hposition
  rw [subSize, if_pos hle] at hrange
  have := mem_cells.mp hk
  omega

theorem searchReads_lt {pat : List UInt8} {k : ℕ} (hle : pat.length ≤ jsonLen)
    (h : k ∈ searchReads json jsonLen pat) : k < jsonLen := by
  rcases List.mem_append.mp h with hblock | htail
  · exact blockReads_lt hblock
  · cases hhit : (scanBlocks json jsonLen pat jsonLen 0).1 with
    | some found => simp [hhit] at htail
    | none =>
        simp only [hhit] at htail
        exact tailReads_lt hle htail

/-- The two bytes of an escape are both before the end. -/
theorem scanString_bounds (json : ℕ → UInt8) (left i : ℕ) :
    i ≤ scanString json left i ∧ scanString json left i ≤ i + left := by
  induction left, i using scanString.induct json with
  | case1 i => exact ⟨le_rfl, le_rfl⟩
  | case2 i hends => rw [scanString, if_pos hends]; omega
  | case3 i hgoes => rw [scanString, if_neg hgoes]; omega
  | case4 left i hends => rw [scanString, if_pos hends]; omega
  | case5 left i hgoes hescape ih => rw [scanString, if_neg hgoes, if_pos hescape]; omega
  | case6 left i hgoes hplain ih => rw [scanString, if_neg hgoes, if_neg hplain]; omega

theorem stringReads_lt {left i k : ℕ} (h : k ∈ stringReads json left i) : k < i + left := by
  induction left, i using scanString.induct json with
  | case1 i => exact absurd h List.not_mem_nil
  | case2 i hends => rw [List.mem_singleton.mp h]; omega
  | case3 i hgoes => rw [List.mem_singleton.mp h]; omega
  | case4 left i hends =>
      rw [stringReads, if_pos hends, List.mem_singleton] at h
      omega
  | case5 left i hgoes hescape ih =>
      rw [stringReads, if_neg hgoes, if_pos hescape, List.mem_cons] at h
      rcases h with rfl | hrest
      · omega
      · have := ih hrest
        omega
  | case6 left i hgoes hplain ih =>
      rw [stringReads, if_neg hgoes, if_neg hplain, List.mem_cons] at h
      rcases h with rfl | hrest
      · omega
      · have := ih hrest
        omega

/-- The value lies in the text. -/
theorem valueSpan_bounds (json : ℕ → UInt8) {jsonLen fieldStart : ℕ} (hstart : fieldStart ≤ jsonLen) :
    (valueSpan json jsonLen fieldStart).1 ≤ (valueSpan json jsonLen fieldStart).2 ∧
      (valueSpan json jsonLen fieldStart).2 ≤ jsonLen := by
  have hblanks := stopFrom_bounds (NotBlank json) (jsonLen - fieldStart) fieldStart
  rw [← skipBlanks_eq] at hblanks
  unfold valueSpan
  generalize skipBlanks json (jsonLen - fieldStart) fieldStart = start at hblanks
  have hstring := scanString_bounds json (jsonLen - (start + 1)) (start + 1)
  have hliteral := stopFrom_bounds (fun k => endsLiteral (json k)) (jsonLen - start) start
  rw [← scanLiteral_eq] at hliteral
  by_cases hinside : start < jsonLen
  · by_cases hquote : json start = 34
    · simp only [if_pos hinside, if_pos hquote]
      omega
    · simp only [if_pos hinside, if_neg hquote]
      omega
  · simp only [if_neg hinside]
    omega

theorem valueReads_lt {fieldStart k : ℕ} (hstart : fieldStart ≤ jsonLen)
    (h : k ∈ valueReads json jsonLen fieldStart) : k < jsonLen := by
  rcases List.mem_append.mp h with hblank | hvalue
  · have := visited_lt hblank
    omega
  · by_cases hinside : skipBlanks json (jsonLen - fieldStart) fieldStart < jsonLen
    · rw [if_pos hinside, List.mem_cons] at hvalue
      rcases hvalue with rfl | hvalue
      · exact hinside
      · split_ifs at hvalue
        · have := stringReads_lt hvalue
          omega
        · have := visited_lt hvalue
          omega
    · rw [if_neg hinside] at hvalue
      exact absurd hvalue List.not_mem_nil

theorem extractedLen_lt {len valueBufSize : ℕ} (hsize : 1 ≤ valueBufSize) :
    extractedLen len valueBufSize < valueBufSize ∧ extractedLen len valueBufSize ≤ len := by
  unfold extractedLen subSize
  rw [if_pos hsize]
  split_ifs <;> omega

theorem extractReads_lt {fieldStart k : ℕ} (hstart : fieldStart ≤ jsonLen)
    (hsize : 1 ≤ valueBufSize) (h : k ∈ extractReads json jsonLen fieldStart valueBufSize) :
    k < jsonLen := by
  rcases List.mem_append.mp h with hvalue | hcopy
  · exact valueReads_lt hstart hvalue
  · have hspan := valueSpan_bounds json hstart
    have hcopied : copiedLen json jsonLen fieldStart valueBufSize ≤
        (valueSpan json jsonLen fieldStart).2 - (valueSpan json jsonLen fieldStart).1 :=
      (extractedLen_lt hsize).2
    have hcell := mem_cells.mp hcopy
    omega

/-! ## The whole call -/

/-- Every read of `json` and every write of `value_buf` is in its buffer. -/
def ExtractsInBounds (json : ℕ → UInt8) (jsonLen : ℕ) (name : List UInt8) (valueBufSize : ℕ) : Prop :=
  (∀ k ∈ jsonReads json jsonLen name valueBufSize, k < jsonLen) ∧
    ∀ k ∈ jsonWrites json jsonLen name valueBufSize, k < valueBufSize

theorem extractsInBounds_of_long (json : ℕ → UInt8) (jsonLen valueBufSize : ℕ)
    (hlong : searchPatternSize ≤ (searchPattern name).length) :
    ExtractsInBounds json jsonLen name valueBufSize := by
  unfold ExtractsInBounds jsonReads jsonWrites
  simp only [if_pos hlong]
  exact ⟨fun k hk => absurd hk List.not_mem_nil, fun k hk => absurd hk List.not_mem_nil⟩

/-- In a text without room for the pattern no block has a hit, and the bound of the second
loop wraps: it visits every position up to its first match. -/
theorem mem_jsonReads_of_shorter (hshort : (searchPattern name).length < searchPatternSize)
    (hlt : jsonLen < (searchPattern name).length) {i k : ℕ} (hge : blocksEnd jsonLen ≤ i)
    (hle : i ≤ jsonLen) (hbefore : ∀ j, blocksEnd jsonLen ≤ j → j < i →
      ¬MatchesAt json (searchPattern name) j)
    (hk : k ∈ cells i (searchPattern name).length) :
    k ∈ jsonReads json jsonLen name valueBufSize := by
  obtain ⟨hfound, hend⟩ := scanBlocks_whole json jsonLen (searchPattern_ne_nil name)
  have hnone : (scanBlocks json jsonLen (searchPattern name) jsonLen 0).1 = none := by
    rw [hfound, firstFrom_eq_none_iff]
    intro j _ _ hoccurs
    have := hoccurs.1
    omega
  have hposition := hend hnone
  have hread : k ∈ tailReads json jsonLen (searchPattern name) (blocksEnd jsonLen) := by
    refine List.mem_flatMap.mpr ⟨i, mem_visited_iff.mpr ⟨hge, ?_, hbefore⟩, hk⟩
    rw [subSize, if_neg (Nat.not_le.mpr hlt)]
    unfold searchPatternSize at hshort
    unfold sizeMax
    omega
  unfold jsonReads
  simp only [if_neg (Nat.not_le.mpr hshort)]
  refine List.mem_append_left _ (List.mem_append_right _ ?_)
  simpa only [hnone, hposition] using hread

/-- A pattern that is longer than the text is compared with memory behind the text. -/
theorem not_extractsInBounds_of_shorter (json : ℕ → UInt8) (valueBufSize : ℕ)
    (hshort : (searchPattern name).length < searchPatternSize)
    (hlt : jsonLen < (searchPattern name).length) :
    ¬ExtractsInBounds json jsonLen name valueBufSize := by
  rintro ⟨hreads, -⟩
  have hblocks : blocksEnd jsonLen ≤ jsonLen := Nat.mul_div_le _ 16
  -- the first comparison of the second loop reaches the end of the text
  refine lt_irrefl jsonLen (hreads jsonLen (mem_jsonReads_of_shorter hshort hlt le_rfl hblocks ?_ ?_))
  · exact fun j hge hbefore => absurd hbefore (Nat.not_lt.mpr hge)
  · rw [mem_cells]
    omega

/-- A size of zero wraps when the terminator's place is subtracted. -/
theorem not_extractsInBounds_of_no_room {k : ℕ}
    (hshort : (searchPattern name).length < searchPatternSize)
    (hfound : neonSearch json jsonLen (searchPattern name) = some k) :
    ¬ExtractsInBounds json jsonLen name 0 := by
  rintro ⟨-, hwrites⟩
  refine Nat.not_lt_zero _ (hwrites (copiedLen json jsonLen (k + (searchPattern name).length) 0) ?_)
  unfold jsonWrites
  simp only [if_neg (Nat.not_le.mpr hshort), hfound]
  exact List.mem_append_right _ (List.mem_singleton_self _)

theorem neonSearch_fits {pat : List UInt8} {k : ℕ} (hpat : pat ≠ []) (hle : pat.length ≤ jsonLen)
    (hfound : neonSearch json jsonLen pat = some k) : k + pat.length ≤ jsonLen := by
  rw [neonSearch_eq json hpat hle, firstFrom_eq_some_iff] at hfound
  exact hfound.2.2.1.1

/-- With room for the pattern and for a terminator, or without a hit, nothing is out of
bounds. -/
theorem extractsInBounds_of_le (hshort : (searchPattern name).length < searchPatternSize)
    (hle : (searchPattern name).length ≤ jsonLen)
    (hsize : 1 ≤ valueBufSize ∨ neonSearch json jsonLen (searchPattern name) = none) :
    ExtractsInBounds json jsonLen name valueBufSize := by
  unfold ExtractsInBounds jsonReads jsonWrites
  simp only [if_neg (Nat.not_le.mpr hshort)]
  cases hfound : neonSearch json jsonLen (searchPattern name) with
  | none =>
      refine ⟨fun k hk => ?_, fun k hk => absurd hk List.not_mem_nil⟩
      exact searchReads_lt hle (by simpa using hk)
  | some position =>
      have hroom : 1 ≤ valueBufSize := hsize.resolve_right (by simp [hfound])
      have hfits := neonSearch_fits (searchPattern_ne_nil name) hle hfound
      refine ⟨fun k hk => ?_, fun k hk => ?_⟩
      · rcases List.mem_append.mp hk with hsearch | hextract
        · exact searchReads_lt hle hsearch
        · exact extractReads_lt hfits hroom hextract
      · have hcopied : copiedLen json jsonLen (position + (searchPattern name).length) valueBufSize <
            valueBufSize := (extractedLen_lt hroom).1
        rcases List.mem_append.mp hk with hcopy | hterminator
        · have := mem_cells.mp hcopy
          omega
        · rwa [List.mem_singleton.mp hterminator]

/-- The extraction stays in bounds exactly if the pattern is refused for its length, or
the text has room for the pattern and `value_buf` for a terminator, the latter only if the
pattern is found. -/
theorem extracts_in_bounds_iff (json : ℕ → UInt8) (jsonLen : ℕ) (name : List UInt8)
    (valueBufSize : ℕ) :
    ExtractsInBounds json jsonLen name valueBufSize ↔
      searchPatternSize ≤ (searchPattern name).length ∨
      ((searchPattern name).length ≤ jsonLen ∧
        (1 ≤ valueBufSize ∨ findInfix (searchPattern name) (load json 0 jsonLen) = none ∨
          Overlooked (load json 0 jsonLen) (searchPattern name))) := by
  by_cases hlong : searchPatternSize ≤ (searchPattern name).length
  · exact iff_of_true (extractsInBounds_of_long json jsonLen valueBufSize hlong) (Or.inl hlong)
  have hshort := Nat.not_le.mp hlong
  rw [or_iff_right hlong]
  rcases Nat.lt_or_ge jsonLen (searchPattern name).length with hlt | hle
  · exact iff_of_false (not_extractsInBounds_of_shorter json valueBufSize hshort hlt)
      fun h => absurd h.1 (Nat.not_le.mpr hlt)
  rw [and_iff_right hle, ← neonSearch_eq_none_iff (searchPattern_ne_nil name) hle]
  refine ⟨fun hbounds => ?_, extractsInBounds_of_le hshort hle⟩
  by_contra hneither
  obtain ⟨hsize, hfound⟩ := not_or.mp hneither
  obtain ⟨k, hk⟩ := Option.ne_none_iff_exists'.mp hfound
  obtain rfl : valueBufSize = 0 := by omega
  exact not_extractsInBounds_of_no_room hshort hk hbounds

/-- The empty object is shorter than the pattern of a field `a`, whatever follows it; and a
buffer of size zero is written to. -/
theorem extraction_leaves_buffers :
    (∀ valueBufSize, ¬ExtractsInBounds (textMemory [123, 125]) 2 [97] valueBufSize) ∧
      ¬ExtractsInBounds (textMemory smallObject) 7 [97] 0 :=
  ⟨fun valueBufSize =>
      not_extractsInBounds_of_shorter (textMemory [123, 125]) valueBufSize (by decide) (by decide),
    not_extractsInBounds_of_no_room (k := 1) (by decide) (by decide)⟩

/-! ## Agreement with the scalar parser -/

/-- Behind a text without room for the pattern the loop goes past the NUL: no match covers it. -/
theorem reads_past_nul_of_shorter {text : List UInt8} (hend : json text.length = 0) (hname : 0 ∉ name)
    (hshort : (searchPattern name).length < searchPatternSize)
    (hlt : text.length < (searchPattern name).length) (valueBufSize : ℕ) :
    text.length + 1 ∈ jsonReads json text.length name valueBufSize := by
  have hzero : (0 : UInt8) ∉ searchPattern name := by simpa [searchPattern] using hname
  refine mem_jsonReads_of_shorter hshort hlt (Nat.mul_div_le _ 16) le_rfl ?_ ?_
  · intro j hge hbefore
    have hcovers : text.length < j + (searchPattern name).length := by omega
    exact not_matchesAt_across_end hend hzero hbefore.le hcovers
  · rw [mem_cells, length_searchPattern]
    omega

/-- The vector parser gives what the scalar one gives, and reads nothing but the text and its
NUL, exactly if the pattern is refused for its length, or the text has room for the pattern
and the pattern does not first occur at its end, outside the full blocks. -/
theorem neon_agrees_scalar_iff (json : ℕ → UInt8) (text name : List UInt8)
    (htext : load json 0 text.length = text) (hend : json text.length = 0) (hnul : 0 ∉ text)
    (hname : 0 ∉ name) (valueBuf : ℕ → UInt8) (valueBufSize valueLen : ℕ)
    (hsize : 1 ≤ valueBufSize) :
    ((neonParseJsonMarketData json text.length name valueBuf valueBufSize valueLen).Agrees
          (scalarParseJsonMarketData json text.length name valueBuf valueBufSize valueLen) ∧
        ∀ k ∈ jsonReads json text.length name valueBufSize, k ≤ text.length) ↔
      searchPatternSize ≤ (searchPattern name).length ∨
      ((searchPattern name).length ≤ text.length ∧ ¬Overlooked text (searchPattern name)) := by
  by_cases hlong : searchPatternSize ≤ (searchPattern name).length
  · have hreads := (extractsInBounds_of_long json text.length valueBufSize hlong).1
    refine iff_of_true ⟨.of_eq ?_, fun k hk => (hreads k hk).le⟩ (Or.inl hlong)
    rw [neonParse_of_long _ _ _ hlong, scalarParseJsonMarketData, if_pos hlong]
  have hshort := Nat.not_le.mp hlong
  rw [or_iff_right hlong]
  rcases Nat.lt_or_ge text.length (searchPattern name).length with hlt | hle
  · refine iff_of_false ?_ fun h => absurd h.1 (Nat.not_le.mpr hlt)
    rintro ⟨-, hreads⟩
    have := hreads _ (reads_past_nul_of_shorter hend hname hshort hlt valueBufSize)
    omega
  · have hbounds : ExtractsInBounds json text.length name valueBufSize :=
      extractsInBounds_of_le hshort hle (Or.inl hsize)
    rw [and_iff_left fun k hk => (hbounds.1 k hk).le, and_iff_right hle]
    exact agrees_iff_of_le _ _ _ htext hend hnul hshort hle

/-- The field `a` of `{"a":1}`. -/
theorem neon_agrees_on_small_object :
    (neonParseJsonMarketData (textMemory smallObject) 7 [97] (fun _ => 0) 16 0).Agrees
        (scalarParseJsonMarketData (textMemory smallObject) 7 [97] (fun _ => 0) 16 0) ∧
      ∀ k ∈ jsonReads (textMemory smallObject) 7 [97] 16, k ≤ 7 :=
  (neon_agrees_scalar_iff (textMemory smallObject) smallObject [97] (by decide) (by decide)
    (by decide) (by decide) (fun _ => 0) 16 0 (by decide)).mpr (Or.inr ⟨by decide, by decide⟩)

/-- The field `a` of a text that ends behind its colon, `{"a":`. -/
theorem neon_misses_last_pattern :
    ¬(neonParseJsonMarketData (textMemory [123, 34, 97, 34, 58]) 5 [97] (fun _ => 0) 16 0).Agrees
      (scalarParseJsonMarketData (textMemory [123, 34, 97, 34, 58]) 5 [97] (fun _ => 0) 16 0) := by
  intro hagrees
  exact absurd hagrees.1 (by decide)

end WebSocketHft

import WebSocketHft.Verification.Json.Bounds

/-! # Extracting several fields

All values go to one scratch buffer, to which every `field_value` points afterwards. A field
keeps its value only if the later values happen to leave its bytes in place. -/

namespace WebSocketHft

open WebSocketHft.Memory WebSocketHft.Scan WebSocketHft.Substring

/-! ## One field -/

section OneField

variable (json : ℕ → UInt8) (jsonLen : ℕ)

/-- What `neon_parse_json_market_data` extracts for a name. -/
def ownValue (name : List UInt8) : Option (List UInt8) :=
  let r := neonParseJsonMarketData json jsonLen name (fun _ => 0) valueBufSize 0
  if r.ret = 0 then some (load r.valueBuf 0 r.valueLen) else none

/-- The value behind a pattern and its terminator are copied to the start of the buffer. -/
theorem extractValue_eq_store (fieldStart : ℕ) (buf : ℕ → UInt8) (size : ℕ) :
    extractValue json jsonLen fieldStart buf size =
      let v := load json (valueSpan json jsonLen fieldStart).1 (copiedLen json jsonLen fieldStart size)
      ⟨0, store buf 0 (v ++ [0]), v.length⟩ := by
  have hstore := store_append buf 0
    (load json (valueSpan json jsonLen fieldStart).1 (copiedLen json jsonLen fieldStart size)) [0]
  rw [Nat.zero_add, load_length] at hstore
  simp only [extractValue_eq, load_length]
  rw [hstore]

theorem load_store_front (buf : ℕ → UInt8) (v tail : List UInt8) :
    load (store buf 0 (v ++ tail)) 0 v.length = v := by
  rw [← store_append, load_store_of_disjoint _ _ (Or.inl le_rfl), load_store_self]

theorem ownValue_of_none {name : List UInt8}
    (hnone : searchPatternSize ≤ (searchPattern name).length ∨
      neonSearch json jsonLen (searchPattern name) = none) : ownValue json jsonLen name = none := by
  unfold ownValue
  rcases hnone with hlong | hnone
  · rw [neonParse_of_long _ _ _ hlong]
    rfl
  · rw [neonParse_of_none _ _ _ hnone]
    rfl

theorem ownValue_of_some {name : List UInt8} {k : ℕ}
    (hshort : (searchPattern name).length < searchPatternSize)
    (hfound : neonSearch json jsonLen (searchPattern name) = some k) :
    ownValue json jsonLen name =
      some (load json (valueSpan json jsonLen (k + (searchPattern name).length)).1
        (copiedLen json jsonLen (k + (searchPattern name).length) valueBufSize)) := by
  unfold ownValue
  rw [neonParse_of_some _ _ _ hshort hfound, extractValue_eq_store]
  exact congrArg some (load_store_front _ _ _)

/-- The outcome of the parser, whatever the buffer held before. -/
theorem neonParse_eq_ownValue (name : List UInt8) (buf : ℕ → UInt8) :
    neonParseJsonMarketData json jsonLen name buf valueBufSize 0 =
      match ownValue json jsonLen name with
      | none => ⟨-1, buf, 0⟩
      | some v => ⟨0, store buf 0 (v ++ [0]), v.length⟩ := by
  by_cases hlong : searchPatternSize ≤ (searchPattern name).length
  · rw [ownValue_of_none json jsonLen (Or.inl hlong), neonParse_of_long _ _ _ hlong]
  have hshort := Nat.not_le.mp hlong
  cases hfound : neonSearch json jsonLen (searchPattern name) with
  | none => rw [ownValue_of_none json jsonLen (Or.inr hfound), neonParse_of_none _ _ _ hfound]
  | some k =>
      rw [ownValue_of_some json jsonLen hshort hfound, neonParse_of_some _ _ _ hshort hfound,
        extractValue_eq_store]

theorem valueSpan_of_ge {jsonLen fieldStart : ℕ} (h : jsonLen ≤ fieldStart) :
    valueSpan json jsonLen fieldStart = (fieldStart, fieldStart) := by
  unfold valueSpan
  rw [Nat.sub_eq_zero_of_le h]
  exact if_neg (Nat.not_lt.mpr h)

/-- A value consists of bytes of the text. -/
theorem mem_text_of_mem_ownValue {name v : List UInt8} {c : UInt8}
    (hv : ownValue json jsonLen name = some v) (hc : c ∈ v) : c ∈ load json 0 jsonLen := by
  by_cases hlong : searchPatternSize ≤ (searchPattern name).length
  · rw [ownValue_of_none json jsonLen (Or.inl hlong)] at hv
    exact absurd hv (Option.some_ne_none v).symm
  cases hfound : neonSearch json jsonLen (searchPattern name) with
  | none =>
      rw [ownValue_of_none json jsonLen (Or.inr hfound)] at hv
      exact absurd hv (Option.some_ne_none v).symm
  | some k =>
      rw [ownValue_of_some json jsonLen (Nat.not_le.mp hlong) hfound, Option.some.injEq] at hv
      subst hv
      obtain ⟨i, hi, rfl⟩ := List.mem_map.mp hc
      rw [List.mem_range] at hi
      have hcopied : copiedLen json jsonLen (k + (searchPattern name).length) valueBufSize ≤ _ :=
        (extractedLen_lt (by decide)).2
      have hinside : k + (searchPattern name).length ≤ jsonLen := by
        by_contra hbehind
        rw [valueSpan_of_ge json (Nat.le_of_not_le hbehind)] at hcopied
        omega
      have hspan := valueSpan_bounds json hinside
      refine List.mem_map.mpr ⟨_, List.mem_range.mpr ?_, congrArg json (Nat.zero_add _)⟩
      omega

end OneField

/-! ## All fields -/

section AllFields

variable (json : ℕ → UInt8) (jsonLen : ℕ)

/-- The value of a field's own name. -/
def JSONField.own (field : JSONField) : Option (List UInt8) :=
  field.fieldName.bind (ownValue json jsonLen)

/-- The field after its round. -/
def JSONField.settled (field : JSONField) : JSONField :=
  match field.fieldName, field.own json jsonLen with
  | none, _ => field
  | some _, some v => { field with found := true, fieldValue := .scratch, valueLen := v.length }
  | some _, none => { field with found := false }

/-- The buffer after copying a value and its terminator into it. -/
def intoScratch (buf : ℕ → UInt8) (v : List UInt8) : ℕ → UInt8 :=
  store buf 0 (v ++ [0])

theorem extractField_eq (buf : ℕ → UInt8) (field : JSONField) :
    extractField json jsonLen buf field =
      (field.settled json jsonLen, (field.own json jsonLen).toList.foldl intoScratch buf,
        (field.own json jsonLen).isSome) := by
  unfold extractField JSONField.settled JSONField.own
  cases field.fieldName with
  | none => rfl
  | some name =>
      simp only [neonParse_eq_ownValue, Option.bind_some]
      cases ownValue json jsonLen name with
      | none => rfl
      | some v => rfl

/-- The values that are found, in order. -/
def foundValues (fields : List JSONField) : List (List UInt8) :=
  fields.filterMap (JSONField.own json jsonLen)

theorem extractLoop_eq (fields : List JSONField) (buf : ℕ → UInt8) (foundCount : ℕ) :
    extractLoop json jsonLen fields buf foundCount =
      (foundCount + (foundValues json jsonLen fields).length,
        fields.map (JSONField.settled json jsonLen),
        (foundValues json jsonLen fields).foldl intoScratch buf) := by
  induction fields generalizing buf foundCount with
  | nil => rfl
  | cons field fields ih =>
      rw [extractLoop, extractField_eq]
      simp only [ih]
      unfold foundValues
      cases hown : field.own json jsonLen with
      | none => simp [hown]
      | some v => simp [hown, Nat.add_assoc, Nat.add_comm 1]

/-! ## What the later values leave of an earlier one -/

/-- The byte that the values leave at a position of the buffer, terminators included. -/
def scratchByte (values : List (List UInt8)) (p : ℕ) : Option UInt8 :=
  residue (values.map (· ++ [0])) p

/-- Wherever later values write into an earlier one, they write its own byte. -/
def Undisturbed (values : List (List UInt8)) : Prop :=
  ∀ before v later, values = before ++ v :: later →
    ∀ p < v.length, ∀ c, scratchByte later p = some c → v[p]? = some c

theorem foldl_intoScratch_apply (before later : List (List UInt8)) (v : List UInt8)
    (buf : ℕ → UInt8) {p : ℕ} (hp : p < v.length) :
    (before ++ v :: later).foldl intoScratch buf p = (scratchByte later p).getD v[p] := by
  have hcell := foldl_store_apply buf 0 ((before ++ v :: later).map (· ++ [0])) p
  rw [List.foldl_map, Nat.zero_add, List.map_append, List.map_cons, residue_append, residue,
    List.getElem?_append_left hp, List.getElem?_eq_getElem hp] at hcell
  refine hcell.trans ?_
  unfold scratchByte
  cases residue (later.map (· ++ [0])) p with
  | none => rfl
  | some c => rfl

/-- A value can be read in the end exactly if the later ones leave it alone. -/
theorem load_scratch_iff (before later : List (List UInt8)) (v : List UInt8) (buf : ℕ → UInt8) :
    load ((before ++ v :: later).foldl intoScratch buf) 0 v.length = v ↔
      ∀ p < v.length, ∀ c, scratchByte later p = some c → v[p]? = some c := by
  constructor
  · intro hload p hp c hc
    have hcell : v[p]? = some ((before ++ v :: later).foldl intoScratch buf (0 + p)) := by
      rw [← getElem?_load _ 0 v.length p hp, hload]
    rw [hcell, Nat.zero_add, foldl_intoScratch_apply before later v buf hp, hc]
    rfl
  · intro hkept
    refine List.ext_getElem (load_length _ _ _) fun p hp hpv => ?_
    have hcell : (load ((before ++ v :: later).foldl intoScratch buf) 0 v.length)[p]? = _ :=
      getElem?_load _ 0 v.length p hpv
    rw [List.getElem?_eq_getElem hp, Option.some.injEq, Nat.zero_add,
      foldl_intoScratch_apply before later v buf hpv] at hcell
    rw [hcell]
    cases hbyte : scratchByte later p with
    | none => rfl
    | some c =>
        have hown := hkept p hpv c hbyte
        rw [List.getElem?_eq_getElem hpv, Option.some.injEq] at hown
        exact hown.symm

/-! ## The whole call -/

/-- Every field that is found shows its own value, and the return value is their number. -/
def KeepsOwnValues (json : ℕ → UInt8) (jsonLen : ℕ) (r : ℤ × List JSONField × (ℕ → UInt8)) : Prop :=
  (∀ field ∈ r.2.1, field.found = true → ∃ v, field.own json jsonLen = some v ∧
      field.fieldValue = .scratch ∧ load r.2.2 0 field.valueLen = v) ∧
    r.1 = r.2.1.countP fun field => field.found

theorem JSONField.own_settled (field : JSONField) :
    (field.settled json jsonLen).own json jsonLen = field.own json jsonLen := by
  unfold JSONField.settled
  split <;> rfl

theorem JSONField.settled_of_own {field : JSONField} {v : List UInt8}
    (hown : field.own json jsonLen = some v) :
    field.settled json jsonLen =
      { field with found := true, fieldValue := .scratch, valueLen := v.length } := by
  unfold JSONField.settled
  cases hname : field.fieldName with
  | none => simp [JSONField.own, hname] at hown
  | some name => simp [hown]

/-- A field without a value counts as found only if it has no name and was marked before. -/
theorem JSONField.found_settled_of_none {field : JSONField}
    (hown : field.own json jsonLen = none) :
    (field.settled json jsonLen).found = (field.fieldName.isNone && field.found) := by
  unfold JSONField.settled
  cases hname : field.fieldName with
  | none => rfl
  | some name => simp [hown]

/-- Without marked fields that have no name, the found fields are those with a value. -/
theorem countP_settled {fields : List JSONField}
    (hnamed : ∀ field ∈ fields, field.fieldName = none → field.found = false) :
    (fields.map (JSONField.settled json jsonLen)).countP (fun field => field.found) =
      (foundValues json jsonLen fields).length := by
  induction fields with
  | nil => rfl
  | cons field fields ih =>
      have hrest := ih fun other hother => hnamed other (List.mem_cons_of_mem field hother)
      unfold foundValues at hrest ⊢
      rw [List.map_cons, List.countP_cons, hrest]
      cases hown : field.own json jsonLen with
      | none =>
          have hnot : (field.settled json jsonLen).found = false := by
            rw [JSONField.found_settled_of_none json jsonLen hown]
            cases hname : field.fieldName with
            | none => rw [hnamed field List.mem_cons_self hname]; rfl
            | some name => rfl
          simp [hown, hnot]
      | some v => simp [hown, JSONField.settled_of_own json jsonLen hown]

theorem neonExtract_eq {fields : List JSONField} (hne : fields ≠ []) (buf : ℕ → UInt8) :
    neonExtractJsonFields json jsonLen fields buf =
      (((foundValues json jsonLen fields).length : ℤ), fields.map (JSONField.settled json jsonLen),
        (foundValues json jsonLen fields).foldl intoScratch buf) := by
  have hlength : fields.length ≠ 0 := mt List.length_eq_zero_iff.mp hne
  simp [neonExtractJsonFields, hlength, extractLoop_eq]

theorem undisturbed_of_keeps {fields : List JSONField} (hne : fields ≠ []) {buf : ℕ → UInt8}
    (h : KeepsOwnValues json jsonLen (neonExtractJsonFields json jsonLen fields buf)) :
    (∀ field ∈ fields, field.fieldName = none → field.found = false) ∧
      Undisturbed (foundValues json jsonLen fields) := by
  rw [neonExtract_eq json jsonLen hne] at h
  constructor
  · intro field hfield hname
    by_contra hmarked
    have hsettled : field.settled json jsonLen = field := by simp [JSONField.settled, hname]
    have hmem := List.mem_map_of_mem (f := JSONField.settled json jsonLen) hfield
    rw [hsettled] at hmem
    obtain ⟨v, hown, -⟩ := h.1 field hmem (Bool.not_eq_false _ ▸ hmarked)
    simp [JSONField.own, hname] at hown
  · intro before v later hsplit
    have hv : v ∈ foundValues json jsonLen fields := by simp [hsplit]
    obtain ⟨field, hfield, hown⟩ := List.mem_filterMap.mp hv
    obtain ⟨w, hw, -, hload⟩ := h.1 (field.settled json jsonLen) (List.mem_map_of_mem hfield)
      (by rw [JSONField.settled_of_own json jsonLen hown])
    rw [JSONField.own_settled, hown, Option.some.injEq] at hw
    subst hw
    rw [JSONField.settled_of_own json jsonLen hown, hsplit] at hload
    exact (load_scratch_iff before later v buf).mp hload

theorem keeps_of_undisturbed {fields : List JSONField} (hne : fields ≠ []) (buf : ℕ → UInt8)
    (hnamed : ∀ field ∈ fields, field.fieldName = none → field.found = false)
    (h : Undisturbed (foundValues json jsonLen fields)) :
    KeepsOwnValues json jsonLen (neonExtractJsonFields json jsonLen fields buf) := by
  rw [neonExtract_eq json jsonLen hne]
  refine ⟨fun settled hsettled hfound => ?_, ?_⟩
  · obtain ⟨field, hfield, rfl⟩ := List.mem_map.mp hsettled
    cases hown : field.own json jsonLen with
    | none =>
        rw [JSONField.found_settled_of_none json jsonLen hown, Bool.and_eq_true,
          Option.isNone_iff_eq_none] at hfound
        exact absurd hfound.2 (by simp [hnamed field hfield hfound.1])
    | some v =>
        have hv : v ∈ foundValues json jsonLen fields := List.mem_filterMap.mpr ⟨field, hfield, hown⟩
        obtain ⟨before, later, hsplit⟩ := List.append_of_mem hv
        refine ⟨v, by rw [JSONField.own_settled, hown], ?_, ?_⟩
        · rw [JSONField.settled_of_own json jsonLen hown]
        · rw [JSONField.settled_of_own json jsonLen hown, hsplit]
          exact (load_scratch_iff before later v buf).mpr (h before v later hsplit)
  · rw [countP_settled json jsonLen hnamed]

end AllFields

/-! ## Values without a NUL -/

theorem scratchByte_last (values : List (List UInt8)) (w : List UInt8) {p : ℕ} (hp : p ≤ w.length) :
    scratchByte (values ++ [w]) p = (w ++ [0])[p]? := by
  have hinside : p < (w ++ [0]).length := by
    rw [List.length_append, List.length_singleton]
    omega
  unfold scratchByte
  rw [List.map_append, residue_append, List.map_singleton, residue, residue, Option.none_or,
    List.getElem?_eq_getElem hinside]
  rfl

/-- A value without a NUL that the last one leaves in place is a prefix of it: the terminator
of the last value must not fall into it. -/
theorem prefix_of_kept {v last : List UInt8} (hnul : 0 ∉ v)
    (hkept : ∀ p < v.length, ∀ c, p ≤ last.length → (last ++ [0])[p]? = some c → v[p]? = some c) :
    v <+: last := by
  have hlength : v.length ≤ last.length := by
    by_contra hlong
    have hzero := hkept last.length (Nat.lt_of_not_le hlong) 0 le_rfl (by simp)
    exact hnul (List.mem_of_getElem? hzero)
  rw [List.prefix_iff_getElem?]
  intro p hp
  have hinside : p < last.length := Nat.lt_of_lt_of_le hp hlength
  have hbyte := hkept p hp last[p] hinside.le (by
    rw [List.getElem?_append_left hinside, List.getElem?_eq_getElem hinside])
  rw [List.getElem?_eq_getElem hp, Option.some.injEq] at hbyte
  rw [List.getElem?_eq_getElem hinside, hbyte]

theorem getLast?_behind (before middle : List (List UInt8)) (v last : List UInt8) :
    (before ++ v :: (middle ++ [last])).getLast? = some last := by
  rw [← List.cons_append, ← List.append_assoc, List.getLast?_concat]

/-- Values without a NUL stay readable exactly if they are prefixes of the last one. -/
theorem undisturbed_iff_prefix {values : List (List UInt8)} (hnul : ∀ v ∈ values, 0 ∉ v) :
    Undisturbed values ↔ ∀ v ∈ values, ∀ w ∈ values.getLast?, v <+: w := by
  constructor
  · intro h v hv w hw
    obtain ⟨before, later, rfl⟩ := List.append_of_mem hv
    rcases List.eq_nil_or_concat later with rfl | ⟨middle, last, rfl⟩
    · have hlast : v = w := by simpa using hw
      rw [hlast]
    · rw [List.concat_eq_append] at h hw
      rw [getLast?_behind, Option.mem_some_iff] at hw
      subst hw
      refine prefix_of_kept (hnul v hv) fun p hp c hle hc => ?_
      refine h before v (middle ++ [last]) rfl p hp c ?_
      rw [scratchByte_last middle last hle, hc]
  · rintro h before v later rfl p hp c hc
    rcases List.eq_nil_or_concat later with rfl | ⟨middle, last, rfl⟩
    · exact absurd hc (Option.some_ne_none c).symm
    · rw [List.concat_eq_append] at h hc
      have hpre : v <+: last := h v (by simp) last (getLast?_behind _ _ _ _)
      have hinside : p < last.length := Nat.lt_of_lt_of_le hp hpre.length_le
      rw [scratchByte_last middle last hinside.le, List.getElem?_append_left hinside] at hc
      rw [← hc, List.prefix_iff_getElem?.mp hpre p hp, List.getElem?_eq_getElem hp]

/-- Batch extraction keeps each field's own value exactly if there are fields, none without
a name is marked as found, and the values leave each other's bytes in place. For a text
without a NUL the last condition says that every value is a prefix of the last one found. -/
theorem fields_keep_values_iff (json : ℕ → UInt8) (jsonLen : ℕ) (fields : List JSONField)
    (buf : ℕ → UInt8) :
    (KeepsOwnValues json jsonLen (neonExtractJsonFields json jsonLen fields buf) ↔
      fields ≠ [] ∧ (∀ field ∈ fields, field.fieldName = none → field.found = false) ∧
        Undisturbed (foundValues json jsonLen fields)) ∧
    (0 ∉ load json 0 jsonLen →
      (Undisturbed (foundValues json jsonLen fields) ↔
        ∀ v ∈ foundValues json jsonLen fields, ∀ w ∈ (foundValues json jsonLen fields).getLast?,
          v <+: w)) := by
  constructor
  · rcases eq_or_ne fields [] with rfl | hne
    · refine iff_of_false (fun h => ?_) fun h => h.1 rfl
      exact absurd h.2 (by decide : (-1 : ℤ) ≠ 0)
    · rw [and_iff_right hne]
      exact ⟨undisturbed_of_keeps json jsonLen hne,
        fun h => keeps_of_undisturbed json jsonLen hne buf h.1 h.2⟩
  · intro hnul
    refine undisturbed_iff_prefix fun v hv hzero => hnul ?_
    obtain ⟨field, -, hown⟩ := List.mem_filterMap.mp hv
    obtain ⟨name, -, hvalue⟩ := Option.bind_eq_some_iff.mp hown
    exact mem_text_of_mem_ownValue json jsonLen hvalue hzero

/-- A field that asks for a name. -/
def askFor (name : List UInt8) : JSONField := ⟨some name, .caller 0, 0, false⟩

/-- The text `{"a":1,"b":12}`. -/
def nestedValues : List UInt8 := [123, 34, 97, 34, 58, 49, 44, 34, 98, 34, 58, 49, 50, 125]

/-- Its first value is a prefix of the second. -/
theorem fields_kept_for_prefix :
    KeepsOwnValues (textMemory nestedValues) 14
      (neonExtractJsonFields (textMemory nestedValues) 14 [askFor [97], askFor [98]] fun _ => 0) := by
  have h := fields_keep_values_iff (textMemory nestedValues) 14 [askFor [97], askFor [98]] fun _ => 0
  have hvalues : foundValues (textMemory nestedValues) 14 [askFor [97], askFor [98]] =
      [[49], [49, 50]] := by decide
  refine h.1.mpr ⟨by decide, by decide, (h.2 (by decide)).mpr ?_⟩
  rw [hvalues]
  decide

/-- The text `{"a":1,"b":2}`: field `a` shows the value of `b`. -/
theorem fields_lose_first_value :
    ¬KeepsOwnValues (textMemory [123, 34, 97, 34, 58, 49, 44, 34, 98, 34, 58, 50, 125]) 13
      (neonExtractJsonFields (textMemory [123, 34, 97, 34, 58, 49, 44, 34, 98, 34, 58, 50, 125]) 13
        [askFor [97], askFor [98]] fun _ => 0) := by
  intro h
  obtain ⟨v, hown, -, hshown⟩ := h.1 ⟨some [97], .scratch, 1, true⟩ (by decide) rfl
  rw [← hshown] at hown
  exact absurd hown (by decide)

end WebSocketHft

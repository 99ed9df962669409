import Mathlib.Data.Bool.AllAny
import WebSocketHft.Verification.Json.Bounds

/-! # Fields of flat objects

Compact objects whose values are strings and literals. The search is textual: the pattern
of a key starts in no other key and in no value, so that its first occurrence is the key
itself. -/

namespace WebSocketHft

open WebSocketHft.Memory WebSocketHft.Scan WebSocketHft.Substring

/-! ## Flat objects -/

/-- Letters, digits and the underscore. -/
def isKeyByte (c : UInt8) : Bool :=
  (48 ≤ c ∧ c ≤ 57) ∨ (65 ≤ c ∧ c ≤ 90) ∨ (97 ≤ c ∧ c ≤ 122) ∨ c = 95

/-- The bytes of numbers and of `true`, `false` and `null`. -/
def isLiteralByte (c : UInt8) : Bool :=
  (48 ≤ c ∧ c ≤ 57) ∨ (65 ≤ c ∧ c ≤ 90) ∨ (97 ≤ c ∧ c ≤ 122) ∨ c = 43 ∨ c = 45 ∨ c = 46

structure Key where
  bytes : List UInt8
  nonempty : bytes ≠ []
  valid : ∀ c ∈ bytes, isKeyByte c

/-- A byte of a string or an escape; the digits of a Unicode escape count as plain. -/
inductive StringItem where
  | plain (c : UInt8) (valid : c ≠ 34 ∧ c ≠ 92 ∧ c ≠ 0)
  | escape (c : UInt8) (valid : c ≠ 0)

def StringItem.text : StringItem → List UInt8
  | plain c _ => [c]
  | escape c _ => [92, c]

def bodyText (items : List StringItem) : List UInt8 :=
  items.flatMap StringItem.text

inductive FieldValue where
  | string (items : List StringItem)
  | literal (bytes : List UInt8) (nonempty : bytes ≠ []) (valid : ∀ c ∈ bytes, isLiteralByte c)

/-- The raw text, without the quotes of a string. -/
def FieldValue.raw : FieldValue → List UInt8
  | string items => bodyText items
  | literal bytes _ _ => bytes

def FieldValue.text : FieldValue → List UInt8
  | string items => 34 :: (bodyText items ++ [34])
  | literal bytes _ _ => bytes

structure Member where
  key : Key
  blanks : List UInt8
  blank : ∀ c ∈ blanks, c = 32 ∨ c = 9
  value : FieldValue

def Member.text (member : Member) : List UInt8 :=
  34 :: (member.key.bytes ++ [34, 58]) ++ (member.blanks ++ member.value.text)

/-- The members with commas between them and the closing brace. -/
def membersText : List Member → List UInt8
  | [] => [125]
  | [member] => member.text ++ [125]
  | member :: members => member.text ++ 44 :: membersText members

structure FlatObject where
  members : List Member
  distinct : (members.map fun member => member.key.bytes).Nodup

def FlatObject.text (object : FlatObject) : List UInt8 :=
  123 :: membersText object.members

/-! ## Where the pattern of a key does not start -/

theorem ne_of_isKeyByte {c d : UInt8} (hc : isKeyByte c) (hd : isKeyByte d = false) : c ≠ d := by
  rintro rfl
  exact absurd hc (by simp [hd])

theorem ne_of_isLiteralByte {c d : UInt8} (hc : isLiteralByte c) (hd : isLiteralByte d = false) :
    c ≠ d := by
  rintro rfl
  exact absurd hc (by simp [hd])

theorem Key.quote_not_mem (key : Key) : 34 ∉ key.bytes :=
  fun h => ne_of_isKeyByte (key.valid 34 h) (by decide) rfl

/-- Behind a quote the pattern goes on with the key, not with a delimiter. -/
theorem Key.not_prefix_of_delimiter (key : Key) {d : UInt8} (hd : isKeyByte d = false)
    (rest : List UInt8) : ¬searchPattern key.bytes <+: 34 :: d :: rest := by
  obtain ⟨bytes, nonempty, valid⟩ := key
  cases bytes with
  | nil => exact absurd rfl nonempty
  | cons c bytes =>
      intro hpre
      have hinner := (List.cons_prefix_cons.mp hpre).2
      exact ne_of_isKeyByte (valid c List.mem_cons_self) hd (List.cons_prefix_cons.mp hinner).1

/-- Another key with its quotes and colon. -/
theorem Key.noStart_key (key other : Key) (hne : other.bytes ≠ key.bytes) (t : List UInt8) :
    NoStart (searchPattern key.bytes) (34 :: (other.bytes ++ [34, 58])) t := by
  refine ⟨?_, noStart_append.mpr ⟨noStart_of_not_mem other.quote_not_mem _, ?_⟩⟩
  · intro hpre
    have hinner := (List.cons_prefix_cons.mp hpre).2
    rw [List.append_assoc] at hinner
    exact hne (eq_of_delimited key.quote_not_mem other.quote_not_mem hinner).symm
  · exact ⟨key.not_prefix_of_delimiter (by decide) t, noStart_of_not_mem (by decide) t⟩

/-- Inside a string the key is not followed by the closing quote and a colon: a quote in
the body has a backslash before it, which no key has, and behind the closing quote is a
delimiter. -/
theorem not_prefix_body {name : List UInt8} (hname : ∀ c ∈ name, isKeyByte c)
    (items : List StringItem) {d : UInt8} (hd : d ≠ 58) (rest : List UInt8) :
    ¬name ++ [34, 58] <+: bodyText items ++ 34 :: d :: rest := by
  induction items generalizing name with
  | nil =>
      cases name with
      | nil =>
          intro hpre
          have hcolon := (List.cons_prefix_cons.mp hpre).2
          exact hd (List.cons_prefix_cons.mp hcolon).1.symm
      | cons c name =>
          intro hpre
          exact ne_of_isKeyByte (hname c List.mem_cons_self) (by decide) (List.cons_prefix_cons.mp hpre).1
  | cons item items ih =>
      cases item with
      | plain c valid =>
          cases name with
          | nil => exact fun hpre => valid.1 (List.cons_prefix_cons.mp hpre).1.symm
          | cons a name =>
              intro hpre
              exact ih (fun b hb => hname b (List.mem_cons_of_mem a hb)) (List.cons_prefix_cons.mp hpre).2
      | escape c valid =>
          cases name with
          | nil => exact fun hpre => absurd (List.cons_prefix_cons.mp hpre).1 (by decide)
          | cons a name =>
              intro hpre
              exact ne_of_isKeyByte (hname a List.mem_cons_self) (by decide)
                (List.cons_prefix_cons.mp hpre).1

theorem Key.not_prefix_quoted_body (key : Key) (items : List StringItem) {d : UInt8} (hd : d ≠ 58)
    (rest : List UInt8) :
    ¬searchPattern key.bytes <+: 34 :: (bodyText items ++ 34 :: d :: rest) := by
  intro hpre
  exact not_prefix_body key.valid items hd rest (List.cons_prefix_cons.mp hpre).2

/-- The body of a string and its closing quote. -/
theorem Key.noStart_body (key : Key) (items : List StringItem) {d : UInt8}
    (hd : isKeyByte d = false) (hcolon : d ≠ 58) (rest : List UInt8) :
    NoStart (searchPattern key.bytes) (bodyText items ++ [34]) (d :: rest) := by
  induction items with
  | nil => exact ⟨key.not_prefix_of_delimiter hd rest, trivial⟩
  | cons item items ih =>
      cases item with
      | plain c valid =>
          change NoStart _ (c :: (bodyText items ++ [34])) (d :: rest)
          exact ⟨fun hpre => valid.1 (List.cons_prefix_cons.mp hpre).1.symm, ih⟩
      | escape c valid =>
          change NoStart _ (92 :: c :: (bodyText items ++ [34])) (d :: rest)
          refine ⟨fun hpre => absurd (List.cons_prefix_cons.mp hpre).1 (by decide), ?_, ih⟩
          -- an escaped quote is where the pattern could start
          intro hpre
          obtain rfl := (List.cons_prefix_cons.mp hpre).1
          rw [List.append_assoc] at hpre
          exact key.not_prefix_quoted_body items hcolon rest hpre

theorem Key.noStart_value (key : Key) (value : FieldValue) {d : UInt8}
    (hd : isKeyByte d = false) (hcolon : d ≠ 58) (rest : List UInt8) :
    NoStart (searchPattern key.bytes) value.text (d :: rest) := by
  cases value with
  | string items =>
      refine ⟨?_, key.noStart_body items hd hcolon rest⟩
      rw [List.append_assoc]
      exact key.not_prefix_quoted_body items hcolon rest
  | literal bytes nonempty valid =>
      exact noStart_of_not_mem (fun h => ne_of_isLiteralByte (valid 34 h) (by decide) rfl) _

/-- Another member and the comma behind it. -/
theorem Key.noStart_member (key : Key) (member : Member) (hne : member.key.bytes ≠ key.bytes)
    (t : List UInt8) : NoStart (searchPattern key.bytes) (member.text ++ [44]) t := by
  have hblanks : 34 ∉ member.blanks := by
    intro h
    rcases member.blank 34 h with h | h <;> exact absurd h (by decide)
  refine noStart_append.mpr ⟨?_, noStart_of_not_mem (by decide) t⟩
  refine noStart_append.mpr ⟨key.noStart_key member.key hne _, ?_⟩
  refine noStart_append.mpr ⟨noStart_of_not_mem hblanks _, ?_⟩
  exact key.noStart_value member.value (by decide) (by decide) t

theorem Key.noStart_members (key : Key) {members : List Member}
    (hne : ∀ member ∈ members, member.key.bytes ≠ key.bytes) (t : List UInt8) :
    NoStart (searchPattern key.bytes) (members.flatMap fun member => member.text ++ [44]) t := by
  induction members with
  | nil => exact trivial
  | cons member members ih =>
      refine noStart_append.mpr ⟨key.noStart_member member (hne member List.mem_cons_self) _, ?_⟩
      exact ih fun other hother => hne other (List.mem_cons_of_mem member hother)

/-! ## The members around a key -/

/-- What follows a member: a comma or the closing brace, and the rest. -/
theorem membersText_split (before : List Member) (member : Member) (after : List Member) :
    ∃ d rest, (d = 44 ∨ d = 125) ∧
      membersText (before ++ member :: after) =
        (before.flatMap fun member => member.text ++ [44]) ++ (member.text ++ d :: rest) := by
  induction before with
  | nil =>
      cases after with
      | nil => exact ⟨125, [], Or.inr rfl, rfl⟩
      | cons next after => exact ⟨44, membersText (next :: after), Or.inl rfl, rfl⟩
  | cons first before ih =>
      obtain ⟨d, rest, hd, htext⟩ := ih
      refine ⟨d, rest, hd, ?_⟩
      have hcons : membersText (first :: (before ++ member :: after)) =
          first.text ++ 44 :: membersText (before ++ member :: after) := by
        cases before <;> rfl
      rw [List.cons_append, hcons, htext, List.flatMap_cons]
      simp

/-- The first occurrence of a key's pattern is at the key. -/
theorem FlatObject.findInfix_key (object : FlatObject) {member : Member}
    (hmember : member ∈ object.members) :
    ∃ front d rest, (d = 44 ∨ d = 125) ∧ object.text = front ++ (member.text ++ d :: rest) ∧
      findInfix (searchPattern member.key.bytes) object.text = some front.length := by
  obtain ⟨before, after, hsplit⟩ := List.append_of_mem hmember
  obtain ⟨d, rest, hd, htext⟩ := membersText_split before member after
  have hne : ∀ other ∈ before, other.key.bytes ≠ member.key.bytes := by
    have hdistinct := object.distinct
    rw [hsplit, List.map_append, List.nodup_append] at hdistinct
    intro other hother
    exact hdistinct.2.2 _ (List.mem_map_of_mem hother) _ List.mem_cons_self
  have hobject : object.text =
      (123 :: before.flatMap fun member => member.text ++ [44]) ++ (member.text ++ d :: rest) := by
    rw [FlatObject.text, hsplit, htext, List.cons_append]
  refine ⟨_, d, rest, hd, hobject, ?_⟩
  rw [hobject]
  refine findInfix_of_noStart ⟨fun hpre => ?_, member.key.noStart_members hne _⟩ ?_
  · exact absurd (List.cons_prefix_cons.mp hpre).1 (by decide)
  · rw [Member.text, List.append_assoc]
    exact List.prefix_append _ _

/-! ## The value behind a key -/

theorem skipBlanks_over {json : ℕ → UInt8} {blanks : List UInt8} {left i : ℕ}
    (hblank : ∀ b ∈ blanks, b = 32 ∨ b = 9) (hload : load json i blanks.length = blanks)
    (hnext : ¬(json (i + blanks.length) = 32 ∨ json (i + blanks.length) = 9))
    (hleft : blanks.length < left) : skipBlanks json left i = i + blanks.length := by
  rw [skipBlanks_eq]
  refine stopFrom_eq (fun k hge hlt => ?_) hnext (Nat.le_add_right _ _) (by omega)
  obtain ⟨d, rfl⟩ := Nat.exists_eq_add_of_le hge
  exact not_not_intro (hblank _ (mem_of_load_eq hload (by omega)))

theorem scanLiteral_over {json : ℕ → UInt8} {bytes : List UInt8} {left i : ℕ}
    (hgoes : ∀ c ∈ bytes, ¬endsLiteral c) (hload : load json i bytes.length = bytes)
    (hnext : endsLiteral (json (i + bytes.length))) (hleft : bytes.length < left) :
    scanLiteral json left i = i + bytes.length := by
  rw [scanLiteral_eq]
  refine stopFrom_eq (fun k hge hlt => ?_) hnext (Nat.le_add_right _ _) (by omega)
  obtain ⟨d, rfl⟩ := Nat.exists_eq_add_of_le hge
  exact hgoes _ (mem_of_load_eq hload (by omega))

/-- Escapes are skipped as a whole, so that the loop ends at the closing quote. -/
theorem scanString_over {json : ℕ → UInt8} {items : List StringItem} {left i : ℕ}
    (hload : load json i (bodyText items).length = bodyText items)
    (hquote : json (i + (bodyText items).length) = 34) (hleft : (bodyText items).length < left) :
    scanString json left i = i + (bodyText items).length := by
  induction items generalizing left i with
  | nil =>
      match left, hleft with
      | 1, _ => exact if_pos (Or.inl hquote)
      | left + 2, _ => exact if_pos (Or.inl hquote)
  | cons item items ih =>
      cases item with
      | plain c valid =>
          have hlength : (bodyText (.plain c valid :: items)).length = 1 + (bodyText items).length :=
            Nat.add_comm _ 1
          obtain ⟨hcell, hrest⟩ := load_eq_cons_iff.mp hload
          rw [hlength, ← Nat.add_assoc] at hquote ⊢
          obtain ⟨left, rfl⟩ : ∃ n, left = n + 2 := ⟨left - 2, by omega⟩
          have hgoes : ¬(json i = 34 ∨ json i = 0) := by
            rw [hcell]
            exact not_or.mpr ⟨valid.1, valid.2.2⟩
          have hplain : json i ≠ 92 := hcell ▸ valid.2.1
          rw [scanString, if_neg hgoes, if_neg hplain]
          exact ih hrest hquote (by omega)
      | escape c valid =>
          have hlength : (bodyText (.escape c valid :: items)).length = 2 + (bodyText items).length :=
            Nat.add_comm _ 2
          obtain ⟨hcell, hescaped⟩ := load_eq_cons_iff.mp hload
          obtain ⟨-, hrest⟩ := load_eq_cons_iff.mp hescaped
          rw [hlength, ← Nat.add_assoc] at hquote ⊢
          obtain ⟨left, rfl⟩ : ∃ n, left = n + 2 := ⟨left - 2, by omega⟩
          have hgoes : ¬(json i = 34 ∨ json i = 0) := by
            rw [hcell]
            decide
          rw [scanString, if_neg hgoes, if_pos hcell]
          exact ih hrest hquote (by omega)

section Values

variable {json : ℕ → UInt8} {jsonLen i : ℕ}

theorem valueSpan_string {items : List StringItem} {start : ℕ}
    (hstart : skipBlanks json (jsonLen - i) i = start) (hopening : json start = 34)
    (hbody : load json (start + 1) (bodyText items).length = bodyText items)
    (hclosing : json (start + 1 + (bodyText items).length) = 34)
    (hfits : start + 1 + (bodyText items).length < jsonLen) :
    valueSpan json jsonLen i = (start + 1, start + 1 + (bodyText items).length) := by
  have hinside : start < jsonLen := by omega
  unfold valueSpan
  rw [hstart]
  simp only [if_pos hinside, if_pos hopening]
  rw [scanString_over hbody hclosing (by omega)]

theorem valueSpan_literal {bytes : List UInt8} {start : ℕ} (valid : ∀ c ∈ bytes, isLiteralByte c)
    (hstart : skipBlanks json (jsonLen - i) i = start) (hfirst : json start ≠ 34)
    (hbytes : load json start bytes.length = bytes)
    (hends : endsLiteral (json (start + bytes.length))) (hfits : start + bytes.length < jsonLen) :
    valueSpan json jsonLen i = (start, start + bytes.length) := by
  have hinside : start < jsonLen := by omega
  have hgoes : ∀ c ∈ bytes, ¬endsLiteral c := by
    intro c hc
    have hne (d : UInt8) (hd : isLiteralByte d = false) := ne_of_isLiteralByte (valid c hc) hd
    simp [endsLiteral, hne 44 (by decide), hne 125 (by decide), hne 93 (by decide),
      hne 32 (by decide), hne 9 (by decide), hne 10 (by decide), hne 13 (by decide)]
  unfold valueSpan
  rw [hstart]
  simp only [if_pos hinside, if_neg hfirst]
  rw [scanLiteral_over hgoes hbytes hends (by omega)]

/-- The scan delimits the raw text of a value. -/
theorem valueSpan_of_value {blanks : List UInt8} (hblank : ∀ b ∈ blanks, b = 32 ∨ b = 9)
    (value : FieldValue) {d : UInt8} (hd : d = 44 ∨ d = 125)
    (hload : load json i (blanks ++ (value.text ++ [d])).length = blanks ++ (value.text ++ [d]))
    (hfits : i + (blanks ++ (value.text ++ [d])).length ≤ jsonLen) :
    ∃ start, valueSpan json jsonLen i = (start, start + value.raw.length) ∧
      load json start value.raw.length = value.raw := by
  obtain ⟨hblanks, hrest⟩ := load_eq_append_iff.mp hload
  obtain ⟨hvalue, hdelimiter⟩ := load_eq_append_iff.mp hrest
  replace hdelimiter := (load_eq_cons_iff.mp hdelimiter).1
  simp only [List.length_append, List.length_singleton] at hfits
  cases value with
  | string items =>
      obtain ⟨hopening, hinner⟩ := load_eq_cons_iff.mp hvalue
      obtain ⟨hbody, hclosing⟩ := load_eq_append_iff.mp hinner
      replace hclosing := (load_eq_cons_iff.mp hclosing).1
      have hlength : (FieldValue.string items).text.length = (bodyText items).length + 2 := by
        simp [FieldValue.text]
      have hstart : skipBlanks json (jsonLen - i) i = i + blanks.length :=
        skipBlanks_over hblank hblanks (by rw [hopening]; decide) (by omega)
      exact ⟨_, valueSpan_string hstart hopening hbody hclosing (by omega), hbody⟩
  | literal bytes nonempty valid =>
      obtain ⟨c, rest, rfl⟩ := List.exists_cons_of_ne_nil nonempty
      have hfirst : json (i + blanks.length) = c := (load_eq_cons_iff.mp hvalue).1
      have hc (e : UInt8) (he : isLiteralByte e = false) : json (i + blanks.length) ≠ e :=
        hfirst ▸ ne_of_isLiteralByte (valid c List.mem_cons_self) he
      have hstart : skipBlanks json (jsonLen - i) i = i + blanks.length :=
        skipBlanks_over hblank hblanks (not_or.mpr ⟨hc 32 (by decide), hc 9 (by decide)⟩) (by omega)
      have hends : endsLiteral (json (i + blanks.length + (c :: rest).length)) := by
        have hcell : json (i + blanks.length + (c :: rest).length) = d := hdelimiter
        rw [hcell]
        rcases hd with rfl | rfl <;> rfl
      have hlength : (FieldValue.literal (c :: rest) nonempty valid).text.length =
        (c :: rest).length := rfl
      have hinside : i + blanks.length + (c :: rest).length < jsonLen := by omega
      exact ⟨_, valueSpan_literal valid hstart (hc 34 (by decide)) hvalue hends hinside, hvalue⟩

/-- A value that fits is copied whole. -/
theorem extractValue_of_span {raw : List UInt8} {start : ℕ} (valueBuf : ℕ → UInt8)
    {valueBufSize : ℕ} (hspan : valueSpan json jsonLen i = (start, start + raw.length))
    (hraw : load json start raw.length = raw) (hsize : raw.length < valueBufSize) :
    let r := extractValue json jsonLen i valueBuf valueBufSize
    r.ret = 0 ∧ r.valueLen = raw.length ∧ load r.valueBuf 0 r.valueLen = raw := by
  have hcopied : copiedLen json jsonLen i valueBufSize = raw.length := by
    simp [copiedLen, hspan, extractedLen, Nat.not_le.mpr hsize]
  rw [extractValue_eq, hcopied, hspan]
  refine ⟨rfl, rfl, ?_⟩
  change load (store (store valueBuf 0 (load json start raw.length)) raw.length [0]) 0 raw.length = raw
  rw [load_store_of_disjoint _ _ (Or.inl (Nat.zero_add _).le), hraw, load_store_self]

end Values

/-- Every key of a flat object yields the raw text of its value, whatever the values hold and
whatever memory follows the text. -/
theorem field_of_flat_object (object : FlatObject) (member : Member)
    (hmember : member ∈ object.members)
    (hshort : (searchPattern member.key.bytes).length < searchPatternSize)
    (json : ℕ → UInt8) (htext : load json 0 object.text.length = object.text)
    (valueBuf : ℕ → UInt8) (valueBufSize valueLen : ℕ)
    (hsize : member.value.raw.length < valueBufSize) :
    let r := neonParseJsonMarketData json object.text.length member.key.bytes valueBuf
      valueBufSize valueLen
    r.ret = 0 ∧ r.valueLen = member.value.raw.length ∧
      load r.valueBuf 0 r.valueLen = member.value.raw := by
  obtain ⟨front, d, rest, hd, hobject, hfound⟩ := object.findInfix_key hmember
  have hlayout : object.text = front ++ (searchPattern member.key.bytes ++
      ((member.blanks ++ (member.value.text ++ [d])) ++ rest)) := by
    rw [hobject, Member.text]
    simp [searchPattern]
  have hlength := congrArg List.length hlayout
  simp only [List.length_append, List.length_singleton] at hlength
  -- the value follows the pattern, so that the pattern does not end the text
  have hsearch : neonSearch json object.text.length (searchPattern member.key.bytes) =
      some front.length := by
    rw [neonSearch_of_not_overlooked (searchPattern_ne_nil _) (by omega), htext, hfound]
    rintro ⟨hlast, -⟩
    rw [htext, hfound, Option.some.injEq] at hlast
    omega
  rw [neonParse_of_some _ _ _ hshort hsearch]
  have hload := htext
  rw [hlayout] at hload
  obtain ⟨-, hload⟩ := load_eq_append_iff.mp hload
  obtain ⟨-, hload⟩ := load_eq_append_iff.mp hload
  obtain ⟨hload, -⟩ := load_eq_append_iff.mp hload
  rw [Nat.zero_add] at hload
  have hfits : front.length + (searchPattern member.key.bytes).length +
      (member.blanks ++ (member.value.text ++ [d])).length ≤ object.text.length := by
    simp only [List.length_append, List.length_singleton]
    omega
  obtain ⟨start, hspan, hraw⟩ := valueSpan_of_value member.blank member.value hd hload hfits
  exact extractValue_of_span valueBuf hspan hraw hsize

def keyA : Key := ⟨[97], by decide, List.all_iff_forall_prop.mp (by decide)⟩

/-- The member `"b": 1`. -/
def memberB : Member where
  key := ⟨[98], by decide, List.all_iff_forall_prop.mp (by decide)⟩
  blanks := [32]
  blank := List.all_iff_forall_prop.mp (by decide)
  value := .literal [49] (by decide) (List.all_iff_forall_prop.mp (by decide))

/-- The object `{"a":"\"b\":2","b": 1}`. -/
def quotingObject : FlatObject where
  members := [⟨keyA, [], List.forall_mem_nil _,
      .string [.escape 34 (by decide), .plain 98 (by decide), .escape 34 (by decide),
        .plain 58 (by decide), .plain 50 (by decide)]⟩, memberB]
  distinct := by decide

/-- The key `b` in it. -/
theorem field_behind_quoted_name :
    let r := neonParseJsonMarketData (textMemory quotingObject.text) 22 [98] (fun _ => 0) 16 0
    r.ret = 0 ∧ r.valueLen = 1 ∧ load r.valueBuf 0 r.valueLen = [49] :=
  field_of_flat_object quotingObject memberB (List.mem_cons_of_mem _ List.mem_cons_self) (by decide)
    (textMemory quotingObject.text) (by decide) (fun _ => 0) 16 0 (by decide)

end WebSocketHft

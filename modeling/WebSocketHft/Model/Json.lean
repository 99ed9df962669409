import WebSocketHft.Model.ParserNeon
import WebSocketHft.Shared.Scan

/-! # JSON field extraction of `parser_neon.c`

`json` is the memory seen from the pointer of that name and `value_buf` likewise, so
that reading or writing past a length is expressible. A field name is the bytes before
its terminating NUL. Sums of positions stay below the size of memory; differences of
sizes are `size_t` differences. -/

namespace WebSocketHft

open WebSocketHft.Memory WebSocketHft.Scan WebSocketHft.Substring

/-- `a - b` for two `size_t` values. -/
def subSize (a b : ℕ) : ℕ :=
  if b ≤ a then a - b else sizeMax + a - b

/-- What `snprintf` makes of the field name: the name in quotes and a colon. -/
def searchPattern (fieldName : List UInt8) : List UInt8 :=
  34 :: (fieldName ++ [34, 58])

/-- `sizeof(search_pattern)`. -/
def searchPatternSize : ℕ := 256

/-! ## Searching for the field -/

/-- `memcmp(json + i, search_pattern, pattern_len) == 0`. -/
def MatchesAt (json : ℕ → UInt8) (pat : List UInt8) (i : ℕ) : Prop :=
  load json i pat.length = pat

/-- The tests on one lane of a block, in their order. -/
def LaneHit (json : ℕ → UInt8) (jsonLen : ℕ) (pat : List UInt8) (k : ℕ) : Prop :=
  k < jsonLen ∧ some (json k) = pat.head? ∧ k + pat.length ≤ jsonLen ∧ MatchesAt json pat k

instance (json : ℕ → UInt8) (pat : List UInt8) : DecidablePred (MatchesAt json pat) :=
  fun _ => inferInstanceAs (Decidable (_ = _))

instance (json : ℕ → UInt8) (jsonLen : ℕ) (pat : List UInt8) :
    DecidablePred (LaneHit json jsonLen pat) :=
  fun _ => inferInstanceAs (Decidable (_ ∧ _))

/-- The loop over blocks of 16 bytes: a hit, or the position at which it has ended. -/
def scanBlocks (json : ℕ → UInt8) (jsonLen : ℕ) (pat : List UInt8) : ℕ → ℕ → Option ℕ × ℕ
  | 0, i => (none, i)
  | fuel + 1, i =>
    if i + 16 ≤ jsonLen then
      match firstFrom (LaneHit json jsonLen pat) 16 i with
      | some k => (some k, i + 16)
      | none => scanBlocks json jsonLen pat fuel (i + 16)
    else (none, i)

/-- The loop over the remaining bytes, up to `json_len - pattern_len`. -/
def scanTail (json : ℕ → UInt8) (jsonLen : ℕ) (pat : List UInt8) (i : ℕ) : Option ℕ :=
  firstFrom (MatchesAt json pat) (subSize jsonLen pat.length - i) i

/-- Both loops: where the pattern is found. -/
def neonSearch (json : ℕ → UInt8) (jsonLen : ℕ) (pat : List UInt8) : Option ℕ :=
  let r := scanBlocks json jsonLen pat jsonLen 0
  match r.1 with
  | some k => some k
  | none => scanTail json jsonLen pat r.2

/-! ## The value -/

/-- The spaces and tabs after the colon are skipped; `left` positions are before the end. -/
def skipBlanks (json : ℕ → UInt8) : ℕ → ℕ → ℕ
  | 0, i => i
  | left + 1, i => if json i = 32 ∨ json i = 9 then skipBlanks json left (i + 1) else i

/-- The loop over a string value: an escape takes two bytes, unless the text ends between
them. -/
def scanString (json : ℕ → UInt8) : ℕ → ℕ → ℕ
  | 0, i => i
  | 1, i => if json i = 34 ∨ json i = 0 then i else i + 1
  | left + 2, i =>
    if json i = 34 ∨ json i = 0 then i
    else if json i = 92 then scanString json left (i + 2)
    else scanString json (left + 1) (i + 1)

/-- What ends a number or a boolean: a comma, a closing brace or bracket, white space. -/
def endsLiteral (c : UInt8) : Bool :=
  c = 44 ∨ c = 125 ∨ c = 93 ∨ c = 32 ∨ c = 9 ∨ c = 10 ∨ c = 13

def scanLiteral (json : ℕ → UInt8) : ℕ → ℕ → ℕ
  | 0, i => i
  | left + 1, i => if endsLiteral (json i) then i else scanLiteral json left (i + 1)

/-- `value_start` and `value_end` for the first position behind the pattern. -/
def valueSpan (json : ℕ → UInt8) (jsonLen fieldStart : ℕ) : ℕ × ℕ :=
  let start := skipBlanks json (jsonLen - fieldStart) fieldStart
  if start < jsonLen then
    if json start = 34 then (start + 1, scanString json (jsonLen - (start + 1)) (start + 1))
    else (start, scanLiteral json (jsonLen - start) start)
  else (start, start)

/-- The return code and the two output parameters. -/
structure JsonResult where
  ret : ℤ
  valueBuf : ℕ → UInt8
  valueLen : ℕ

/-- `extracted_len` after its bound check. -/
def extractedLen (len valueBufSize : ℕ) : ℕ :=
  if valueBufSize ≤ len then subSize valueBufSize 1 else len

/-- The value behind the pattern is copied out and terminated. -/
def extractValue (json : ℕ → UInt8) (jsonLen fieldStart : ℕ) (valueBuf : ℕ → UInt8)
    (valueBufSize : ℕ) : JsonResult :=
  let span := valueSpan json jsonLen fieldStart
  let n := extractedLen (span.2 - span.1) valueBufSize
  ⟨0, store (store valueBuf 0 (load json span.1 n)) n [0], n⟩

/-! ## The two parsers -/

/-- `neon_parse_json_market_data`. -/
def neonParseJsonMarketData (json : ℕ → UInt8) (jsonLen : ℕ) (fieldName : List UInt8)
    (valueBuf : ℕ → UInt8) (valueBufSize valueLen : ℕ) : JsonResult :=
  let pat := searchPattern fieldName
  if searchPatternSize ≤ pat.length then ⟨-1, valueBuf, valueLen⟩
  else
    match neonSearch json jsonLen pat with
    | none => ⟨-1, valueBuf, valueLen⟩
    | some k => extractValue json jsonLen (k + pat.length) valueBuf valueBufSize

/-- `scalar_parse_json_market_data`; `strstr` looks at the bytes before the first NUL, which
follows the text at the latest. -/
def scalarParseJsonMarketData (json : ℕ → UInt8) (jsonLen : ℕ) (fieldName : List UInt8)
    (valueBuf : ℕ → UInt8) (valueBufSize valueLen : ℕ) : JsonResult :=
  let pat := searchPattern fieldName
  if searchPatternSize ≤ pat.length then ⟨-1, valueBuf, valueLen⟩
  else
    match findInfix pat (stringAt json 0 0 (jsonLen + 1)) with
    | none => ⟨-1, valueBuf, valueLen⟩
    | some k => extractValue json jsonLen (k + pat.length) valueBuf valueBufSize

/-! ## Several fields -/

/-- Where `field_value` points: to what the caller has put there, or to `value_buf`. -/
inductive ValuePtr where
  | caller (address : ℕ)
  | scratch
  deriving DecidableEq, Repr

structure JSONField where
  fieldName : Option (List UInt8)
  fieldValue : ValuePtr
  valueLen : ℕ
  found : Bool
  deriving DecidableEq, Repr

/-- `sizeof(value_buf)`. -/
def valueBufSize : ℕ := 256

/-- One round of the loop: the field and the buffer afterwards, and whether it counts. -/
def extractField (json : ℕ → UInt8) (jsonLen : ℕ) (valueBuf : ℕ → UInt8) (field : JSONField) :
    JSONField × (ℕ → UInt8) × Bool :=
  match field.fieldName with
  | none => (field, valueBuf, false)
  | some name =>
    let r := neonParseJsonMarketData json jsonLen name valueBuf valueBufSize 0
    if r.ret = 0 then
      ({ field with found := true, fieldValue := .scratch, valueLen := r.valueLen }, r.valueBuf, true)
    else ({ field with found := false }, r.valueBuf, false)

/-- The loop over the fields with `found_count`. -/
def extractLoop (json : ℕ → UInt8) (jsonLen : ℕ) :
    List JSONField → (ℕ → UInt8) → ℕ → ℕ × List JSONField × (ℕ → UInt8)
  | [], valueBuf, foundCount => (foundCount, [], valueBuf)
  | field :: fields, valueBuf, foundCount =>
    let r := extractField json jsonLen valueBuf field
    let s := extractLoop json jsonLen fields r.2.1 (if r.2.2 then foundCount + 1 else foundCount)
    (s.1, r.1 :: s.2.1, s.2.2)

/-- `neon_extract_json_fields`: the return value, the fields, and what `value_buf` holds. -/
def neonExtractJsonFields (json : ℕ → UInt8) (jsonLen : ℕ) (fields : List JSONField)
    (valueBuf : ℕ → UInt8) : ℤ × List JSONField × (ℕ → UInt8) :=
  if fields.length = 0 then (-1, fields, valueBuf)
  else
    let r := extractLoop json jsonLen fields valueBuf 0
    (r.1, r.2.1, r.2.2)

end WebSocketHft

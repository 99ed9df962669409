import Mathlib.Data.Bool.AllAny
import Mathlib.Data.List.TakeWhile
import WebSocketHft.Model.Url

/-! # URLs

A URL is a scheme, a host, perhaps a port text behind a colon, and the rest from the
first slash or question mark on. `parse_url` finds these parts by three searches. -/

namespace WebSocketHft

/-! ## Port texts -/

theorem digitsValue_append (xs ys : List UInt8) :
    digitsValue (xs ++ ys) = digitsValue xs * 10 ^ ys.length + digitsValue ys := by
  induction ys using List.reverseRecOn with
  | nil => simp [digitsValue]
  | append_singleton ys y ih =>
      have hstep (zs : List UInt8) :
          digitsValue (zs ++ [y]) = digitsValue zs * 10 + (y.toNat - 48) := by
        simp [digitsValue]
      rw [← List.append_assoc, hstep, hstep, ih, List.length_append, List.length_singleton,
        Nat.pow_succ, Nat.add_mul, Nat.mul_assoc, Nat.add_assoc]

theorem isSpace_of_isDigit {c : UInt8} (h : isDigit c = true) : isSpace c = false := by
  simp only [isDigit, isSpace, decide_eq_true_eq, decide_eq_false_iff_not, UInt8.le_iff_toNat_le,
    ← UInt8.toNat_inj] at h ⊢
  change 48 ≤ c.toNat ∧ c.toNat ≤ 57 at h
  change ¬(c.toNat = 32 ∨ 9 ≤ c.toNat ∧ c.toNat ≤ 13)
  omega

/-- A text of digits is read as its value, as long as that is an `int`. -/
theorem atoi_digits {cs : List UInt8} (hdigits : ∀ c ∈ cs, isDigit c = true)
    (hvalue : digitsValue cs < 2 ^ 31) : atoi cs = digitsValue cs := by
  have hall : cs.takeWhile isDigit = cs := List.takeWhile_eq_self_iff.mpr hdigits
  have hstrtol : strtol cs = digitsValue cs := by
    cases cs with
    | nil => decide
    | cons c cs =>
        have hc := hdigits c List.mem_cons_self
        have hspace := isSpace_of_isDigit hc
        have hminus : c ≠ 45 := by
          rintro rfl
          exact absurd hc (by decide)
        have hplus : c ≠ 43 := by
          rintro rfl
          exact absurd hc (by decide)
        unfold strtol
        rw [List.dropWhile_cons_of_neg (by simp [hspace])]
        dsimp only
        split
        · rename_i heq
          exact absurd (List.cons.inj heq).1 hminus
        · rename_i heq
          exact absurd (List.cons.inj heq).1 hplus
        · rw [hall]
          omega
  unfold atoi
  rw [hstrtol]
  exact Int.bmod_eq_of_le (by omega) (by omega)

/-- The decimal numeral of a number. -/
def numeral (n : ℕ) : List UInt8 := ascii n.repr

/-- The byte of a digit has the digit's code. -/
theorem toNat_ofNat_digit {c : Char} (h : c.isDigit = true) :
    (UInt8.ofNat c.toNat).toNat = c.toNat := by
  have hle : c.toNat ≤ 57 := (Char.isDigit_iff_toNat.mp h).2
  rw [UInt8.toNat_ofNat', Nat.mod_eq_of_lt (by omega)]

theorem isDigit_of_mem_repr {n : ℕ} {c : Char} (h : c ∈ n.repr.toList) : c.isDigit = true := by
  rw [Nat.toList_repr] at h
  exact Nat.isDigit_of_mem_toDigits (by decide) (by decide) h

theorem numeral_digit {n : ℕ} {c : UInt8} (h : c ∈ numeral n) : isDigit c = true := by
  obtain ⟨ch, hmem, rfl⟩ := List.mem_map.mp h
  have hdigit := isDigit_of_mem_repr hmem
  simp only [isDigit, decide_eq_true_eq, UInt8.le_iff_toNat_le, toNat_ofNat_digit hdigit]
  exact Char.isDigit_iff_toNat.mp hdigit

theorem digitsValue_numeral (n : ℕ) : digitsValue (numeral n) = n := by
  have hvalue : Nat.ofDigitChars 10 n.repr.toList 0 = n := by
    rw [Nat.toList_repr]
    exact Nat.ofDigitChars_ten_toDigits
  have hstep : ∀ (acc : ℕ), ∀ c ∈ n.repr.toList,
      acc * 10 + ((UInt8.ofNat c.toNat).toNat - 48) = 10 * acc + (c.toNat - 48) := by
    intro acc c hc
    rw [toNat_ofNat_digit (isDigit_of_mem_repr hc), Nat.mul_comm]
  unfold digitsValue numeral ascii
  rw [List.foldl_map, List.foldl_ext _ _ 0 hstep]
  exact hvalue

theorem length_numeral_le {n k : ℕ} (hk : 0 < k) (hn : n < 10 ^ k) : (numeral n).length ≤ k := by
  unfold numeral ascii
  rw [List.length_map, Nat.toList_repr]
  exact (Nat.length_toDigits_le_iff (by decide) hk).mpr hn

theorem numeral_ne_nil (n : ℕ) : numeral n ≠ [] := by
  unfold numeral ascii
  rw [Nat.toList_repr]
  exact fun h => Nat.toDigits_ne_nil (List.map_eq_nil_iff.mp h)

/-! ## The parts of a URL -/

/-- A URL in its parts; `port` is the text behind the colon, if there is one. -/
structure Url where
  useSsl : Bool
  host : List UInt8
  port : Option (List UInt8)
  rest : List UInt8
  host_plain : ∀ c ∈ host, c ≠ 58 ∧ c ≠ 47 ∧ c ≠ 63
  port_plain : ∀ text ∈ port, ∀ c ∈ text, c ≠ 47 ∧ c ≠ 63
  rest_start : ∀ c ∈ rest.head?, c = 47 ∨ c = 63

/-- The scheme with its slashes. -/
def schemeText (useSsl : Bool) : List UInt8 :=
  if useSsl then ascii "wss://" else ascii "ws://"

/-- The colon and the text behind it. -/
def portPart : Option (List UInt8) → List UInt8
  | none => []
  | some text => 58 :: text

/-- The URL as it is written. -/
def Url.text (u : Url) : List UInt8 :=
  schemeText u.useSsl ++ (u.host ++ (portPart u.port ++ u.rest))

theorem parseScheme_schemeText (useSsl : Bool) (rest : List UInt8) :
    parseScheme (schemeText useSsl ++ rest) = some (useSsl, rest) := by
  cases useSsl with
  | true => exact if_pos (List.prefix_append _ _)
  | false =>
      have hnot : ¬ascii "wss://" <+: schemeText false ++ rest := by
        rintro ⟨t, ht⟩
        have hthird := congrArg (fun l : List UInt8 => l[2]?) ht
        exact absurd hthird (by
          rw [List.getElem?_append_left (by decide), List.getElem?_append_left (by decide)]
          decide)
      have hyes : ascii "ws://" <+: schemeText false ++ rest := List.prefix_append _ _
      unfold parseScheme
      rw [if_neg hnot, if_pos hyes]
      rfl

theorem Url.portPart_plain (u : Url) : ∀ c ∈ portPart u.port, c ≠ 47 ∧ c ≠ 63 := by
  intro c hc
  cases hport : u.port with
  | none =>
      rw [hport] at hc
      exact absurd hc List.not_mem_nil
  | some text =>
      rw [hport] at hc
      rcases List.mem_cons.mp hc with rfl | hc
      · decide
      · exact u.port_plain text hport c hc

/-- The search for the end of the host stops behind the port. -/
theorem Url.hostEnd_eq (u : Url) :
    hostEnd (u.host ++ (portPart u.port ++ u.rest)) = u.host.length + (portPart u.port).length := by
  have hplain : ∀ c ∈ u.host ++ portPart u.port, ¬(c = 47 ∨ c = 63) := by
    intro c hc
    rcases List.mem_append.mp hc with hc | hc
    · exact not_or.mpr (u.host_plain c hc).2
    · exact not_or.mpr (u.portPart_plain c hc)
  have hfront : (u.host ++ portPart u.port).findIdx (fun c => c = 47 ∨ c = 63) =
      (u.host ++ portPart u.port).length := by
    rw [List.findIdx_eq_length]
    intro c hc
    exact decide_eq_false (hplain c hc)
  have hrest : u.rest.findIdx (fun c => c = 47 ∨ c = 63) = 0 := by
    cases hcons : u.rest with
    | nil => rfl
    | cons c rest =>
        have hstart := u.rest_start c (by rw [hcons]; rfl)
        rw [List.findIdx_cons, decide_eq_true hstart]
        rfl
  unfold hostEnd
  rw [← List.append_assoc, List.findIdx_append, hfront, if_neg (Nat.lt_irrefl _), hrest,
    Nat.zero_add, List.length_append]

/-- The search for a colon stops behind the host if there is a port, and not before its end if
there is none. -/
theorem Url.colon_eq (u : Url) :
    (u.host ++ (portPart u.port ++ u.rest)).findIdx (· = 58) =
      u.host.length + (portPart u.port ++ u.rest).findIdx (· = 58) := by
  have hfront : u.host.findIdx (· = 58) = u.host.length := by
    rw [List.findIdx_eq_length]
    intro c hc
    exact decide_eq_false (u.host_plain c hc).1
  rw [List.findIdx_append, hfront, if_neg (Nat.lt_irrefl _), Nat.add_comm]

/-- The length of the host, whichever of the two searches gives it. -/
theorem Url.hostLength_eq (u : Url) {colon : ℕ}
    (hcolon : colon = u.host.length + (portPart u.port ++ u.rest).findIdx (· = 58)) :
    (if colon < u.host.length + (portPart u.port).length then colon
      else u.host.length + (portPart u.port).length) = u.host.length := by
  cases hport : u.port with
  | none =>
      rw [if_neg (by simp only [portPart, List.length_nil]; omega)]
      rfl
  | some text =>
      have hfirst : colon = u.host.length := by
        rw [hcolon, hport]
        rfl
      rw [hfirst, if_pos (by simp only [portPart, List.length_cons]; omega)]

/-- The port, if the colon comes before the end of the host. -/
theorem Url.port_eq (u : Url) {colon : ℕ}
    (hcolon : colon = u.host.length + (portPart u.port ++ u.rest).findIdx (· = 58)) :
    (if colon < u.host.length + (portPart u.port).length then
        parsePort u.useSsl (((u.host ++ (portPart u.port ++ u.rest)).take
          (u.host.length + (portPart u.port).length)).drop (colon + 1))
      else defaultPort u.useSsl) = u.port.elim (defaultPort u.useSsl) (parsePort u.useSsl) := by
  cases hport : u.port with
  | none =>
      rw [if_neg (by simp only [portPart, List.length_nil]; omega)]
      rfl
  | some text =>
      have hfirst : colon = u.host.length := by
        rw [hcolon, hport]
        rfl
      have hfront : (u.host ++ (portPart (some text) ++ u.rest)).take
          (u.host.length + (portPart (some text)).length) = u.host ++ 58 :: text := by
        rw [← List.append_assoc, ← List.length_append, List.take_left]
        rfl
      have hbehind : (u.host ++ 58 :: text).drop (u.host.length + 1) = text := by
        rw [← List.drop_drop, List.drop_left]
        rfl
      rw [hfirst, if_pos (by simp only [portPart, List.length_cons]; omega), hfront, hbehind]
      rfl

/-- What `parse_url` finds in a URL given by its parts. -/
theorem parseUrl_text (u : Url) (hostLen pathLen : ℕ) (out : UrlParts) :
    parseUrl u.text hostLen pathLen out =
      let out := { out with useSsl := u.useSsl }
      if hostLen ≤ u.host.length then (-1, out)
      else
        let out := { out with
          host := u.host
          port := u.port.elim (defaultPort u.useSsl) (parsePort u.useSsl) }
        if u.rest = [] then
          if pathLen < 2 then (-1, out) else (0, { out with path := ascii "/" })
        else if pathLen ≤ u.rest.length then (-1, out)
        else (0, { out with path := u.rest }) := by
  have hpath : (u.host ++ (portPart u.port ++ u.rest)).drop
      (u.host.length + (portPart u.port).length) = u.rest := by
    rw [← List.append_assoc, ← List.length_append, List.drop_left]
  have hlen : (u.host ++ (portPart u.port ++ u.rest)).length =
      u.host.length + (portPart u.port).length + u.rest.length := by
    rw [← List.append_assoc, List.length_append, List.length_append]
  unfold parseUrl Url.text
  rw [parseScheme_schemeText]
  dsimp only
  rw [u.hostEnd_eq, u.hostLength_eq u.colon_eq, u.port_eq u.colon_eq, List.take_left, hpath, hlen,
    Nat.add_sub_cancel_left]
  by_cases hrest : u.rest = []
  · rw [hrest, List.length_nil, Nat.add_zero, if_neg (Nat.lt_irrefl _), if_pos rfl]
  · have hmore := List.length_pos_iff.mpr hrest
    rw [if_pos (Nat.lt_add_of_pos_right hmore), if_neg hrest]

/-- What the code makes of a URL that it accepts. -/
def Url.parts (u : Url) : UrlParts :=
  ⟨u.host, if u.rest = [] then ascii "/" else u.rest,
    u.port.elim (defaultPort u.useSsl) (parsePort u.useSsl), u.useSsl⟩

/-- With room for a slash, a URL is accepted exactly if its host and its rest fit. -/
theorem parseUrl_text_iff (u : Url) (hostLen : ℕ) {pathLen : ℕ} (hpath : 2 ≤ pathLen) (out : UrlParts) :
    ((parseUrl u.text hostLen pathLen out).1 = -1 ↔
        hostLen ≤ u.host.length ∨ pathLen ≤ u.rest.length) ∧
      (¬(hostLen ≤ u.host.length ∨ pathLen ≤ u.rest.length) →
        parseUrl u.text hostLen pathLen out = (0, u.parts)) := by
  have haccepted : ¬(0 : ℤ) = -1 := by decide
  rw [parseUrl_text, Url.parts]
  dsimp only
  by_cases hlong : hostLen ≤ u.host.length
  · rw [if_pos hlong]
    exact ⟨iff_of_true rfl (Or.inl hlong), fun hfits => absurd (Or.inl hlong) hfits⟩
  rw [if_neg hlong]
  by_cases hnil : u.rest = []
  · have hshort : ¬pathLen ≤ u.rest.length := by
      rw [hnil, List.length_nil]
      omega
    rw [if_pos hnil, if_neg (Nat.not_lt.mpr hpath), if_pos hnil]
    exact ⟨iff_of_false haccepted (not_or.mpr ⟨hlong, hshort⟩), fun _ => rfl⟩
  rw [if_neg hnil, if_neg hnil]
  by_cases hbig : pathLen ≤ u.rest.length
  · rw [if_pos hbig]
    exact ⟨iff_of_true rfl (Or.inr hbig), fun hfits => absurd (Or.inr hbig) hfits⟩
  · rw [if_neg hbig]
    exact ⟨iff_of_false haccepted (not_or.mpr ⟨hlong, hbig⟩), fun _ => rfl⟩

/-! ## Rendering and parsing -/

/-- The port part of a URL: none, a colon alone, or a colon and a number. -/
inductive PortPart where
  | absent
  | colon
  | number (p : Fin 65536)
  deriving DecidableEq, Repr

def PortPart.text : PortPart → Option (List UInt8)
  | .absent => none
  | .colon => some []
  | .number p => some (numeral p)

/-- The port it stands for. -/
def PortPart.port (useSsl : Bool) : PortPart → ℤ
  | .number p => p.val
  | _ => defaultPort useSsl

theorem PortPart.text_digit {port : PortPart} {text : List UInt8} (h : text ∈ port.text) {c : UInt8}
    (hc : c ∈ text) : isDigit c = true := by
  cases port with
  | absent => cases h
  | colon =>
      cases h
      cases hc
  | number p =>
      cases h
      exact numeral_digit hc

theorem PortPart.text_plain {port : PortPart} {text : List UInt8} {c : UInt8}
    (htext : port.text = some text) (hc : c ∈ text) : c ≠ 47 ∧ c ≠ 63 := by
  have hdigit := PortPart.text_digit htext hc
  constructor
  · rintro rfl
    exact absurd hdigit (by decide)
  · rintro rfl
    exact absurd hdigit (by decide)

theorem PortPart.port_eq (port : PortPart) (useSsl : Bool) :
    port.text.elim (defaultPort useSsl) (parsePort useSsl) = port.port useSsl := by
  cases port with
  | absent => rfl
  | colon => rfl
  | number p =>
      have hlt := p.isLt
      have hpos : 0 < (numeral p).length := List.length_pos_iff.mpr (numeral_ne_nil p)
      have hlen : (numeral p).length ≤ 20 := length_numeral_le (by decide) (by omega)
      have hvalue := digitsValue_numeral p
      change parsePort useSsl (numeral p) = (p.val : ℤ)
      rw [parsePort, if_pos hpos, List.take_of_length_le hlen,
        atoi_digits (fun c hc => numeral_digit hc) (by omega), hvalue]

/-- What a pointer to these bytes shows as a string. -/
def cString (bytes : List UInt8) : List UInt8 := bytes.takeWhile (· ≠ 0)

theorem cString_append_zero {s : List UInt8} (h : 0 ∉ s) (behind : List UInt8) :
    cString (s ++ 0 :: behind) = s := by
  unfold cString
  rw [List.takeWhile_append_of_pos fun c hc => by simpa using ne_of_mem_of_not_mem hc h]
  simp

theorem zero_not_mem_schemeText (useSsl : Bool) : 0 ∉ schemeText useSsl := by
  cases useSsl <;> decide

theorem PortPart.zero_not_mem (port : PortPart) : 0 ∉ portPart port.text := by
  intro hzero
  cases htext : port.text with
  | none =>
      rw [htext] at hzero
      cases hzero
  | some text =>
      rw [htext] at hzero
      have hmem : (0 : UInt8) ∈ text := (List.mem_cons.mp hzero).resolve_left (by decide)
      exact absurd (PortPart.text_digit htext hmem) (by decide)

/-- `parse_url` undoes the rendering of a URL: it fails exactly when the host or the rest does
not fit into its buffer, and otherwise gives back the parts. -/
theorem parse_url_undoes_rendering (useSsl : Bool) (host : List UInt8) (port : PortPart)
    (rest behind : List UInt8) (out : UrlParts)
    (hhost : ∀ c ∈ host, c ≠ 58 ∧ c ≠ 47 ∧ c ≠ 63 ∧ c ≠ 0)
    (hstart : rest = [] ∨ rest.head? = some 47 ∨ rest.head? = some 63) (hrest : 0 ∉ rest) :
    let url := schemeText useSsl ++ host ++ portPart port.text ++ rest
    let result := parseUrl (cString (url ++ 0 :: behind)) 256 1024 out
    (result.1 = -1 ↔ 256 ≤ host.length ∨ 1024 ≤ rest.length) ∧
      (¬(256 ≤ host.length ∨ 1024 ≤ rest.length) →
        result = (0, ⟨host, if rest = [] then ascii "/" else rest, port.port useSsl, useSsl⟩)) := by
  intro url result
  let u : Url :=
    { useSsl, host, port := port.text, rest
      host_plain := fun c hc => ⟨(hhost c hc).1, (hhost c hc).2.1, (hhost c hc).2.2.1⟩
      port_plain := fun text htext c hc => PortPart.text_plain htext hc
      rest_start := fun c hc => by
        rcases hstart with hnil | hslash | hquestion
        · rw [hnil] at hc
          cases hc
        · exact Or.inl (Option.some.inj (hc.symm.trans hslash))
        · exact Or.inr (Option.some.inj (hc.symm.trans hquestion)) }
  have htext : url = u.text := by
    simp only [url, u, Url.text, List.append_assoc]
  have hnul : 0 ∉ url := by
    simp only [url, List.mem_append, not_or]
    exact ⟨⟨⟨zero_not_mem_schemeText useSsl, fun hzero => (hhost 0 hzero).2.2.2 rfl⟩,
      port.zero_not_mem⟩, hrest⟩
  have hparse : result = parseUrl u.text 256 1024 out := by
    rw [← htext, ← cString_append_zero hnul behind]
  have hparts : u.parts = ⟨host, if rest = [] then ascii "/" else rest, port.port useSsl, useSsl⟩ := by
    rw [← port.port_eq]
    rfl
  rw [hparse, ← hparts]
  exact parseUrl_text_iff u 256 (by decide) out

/-- Colons and slashes in the query are not taken for the port or the end of the host. -/
theorem parse_url_of_ticker :
    parseUrl (cString (ascii "wss://h:9443/ws?a=b:c/d" ++ [0])) 256 1024 ⟨[], [], 0, false⟩ =
      (0, ⟨ascii "h", ascii "/ws?a=b:c/d", 9443, true⟩) :=
  (parse_url_undoes_rendering true (ascii "h") (.number 9443) (ascii "/ws?a=b:c/d") []
    ⟨[], [], 0, false⟩ (List.all_iff_forall_prop.mp (by decide)) (by decide) (by decide)).2 (by decide)

/-! ## What is accepted -/

theorem eq_of_parseScheme {url rest : List UInt8} {useSsl : Bool}
    (h : parseScheme url = some (useSsl, rest)) : url = schemeText useSsl ++ rest := by
  unfold parseScheme at h
  split_ifs at h with hwss hws
  · obtain ⟨rfl, rfl⟩ := Prod.mk.inj (Option.some.inj h)
    obtain ⟨t, rfl⟩ := hwss
    rfl
  · obtain ⟨rfl, rfl⟩ := Prod.mk.inj (Option.some.inj h)
    obtain ⟨t, rfl⟩ := hws
    rfl

/-- A list is split where a property ends. -/
theorem exists_front (p : UInt8 → Prop) [DecidablePred p] (l : List UInt8) :
    ∃ front back, l = front ++ back ∧ (∀ c ∈ front, p c) ∧ ∀ c ∈ back.head?, ¬p c := by
  refine ⟨l.takeWhile p, l.dropWhile p, List.takeWhile_append_dropWhile.symm, ?_, ?_⟩
  · intro c hc
    simpa using List.mem_takeWhile_imp hc
  · intro c hc
    have hnot := List.head?_dropWhile_not (fun c => decide (p c)) l
    rw [Option.mem_def.mp hc] at hnot
    simpa using hnot

/-- Every string with one of the two schemes has the parts of a URL. -/
theorem exists_url {url rest : List UInt8} {useSsl : Bool}
    (h : parseScheme url = some (useSsl, rest)) : ∃ u : Url, u.text = url := by
  have hurl := eq_of_parseScheme h
  obtain ⟨authority, tail, rfl, hplain, htail⟩ := exists_front (fun c => c ≠ 47 ∧ c ≠ 63) rest
  obtain ⟨host, after, rfl, hhost, hafter⟩ := exists_front (fun c => c ≠ 58) authority
  have hstart : ∀ c ∈ tail.head?, c = 47 ∨ c = 63 := by
    intro c hc
    simpa [imp_iff_not_or] using htail c hc
  have hclean : ∀ c ∈ host, c ≠ 58 ∧ c ≠ 47 ∧ c ≠ 63 := fun c hc =>
    ⟨hhost c hc, hplain c (List.mem_append_left _ hc)⟩
  cases after with
  | nil =>
      refine ⟨⟨useSsl, host, none, tail, hclean, ?_, hstart⟩, ?_⟩
      · intro text htext
        cases htext
      · rw [hurl, List.append_nil]
        rfl
  | cons c text =>
      obtain rfl : c = 58 := not_not.mp (hafter c rfl)
      refine ⟨⟨useSsl, host, some text, tail, hclean, ?_, hstart⟩, ?_⟩
      · rintro _ ⟨⟩ d hd
        exact hplain d (List.mem_append_right _ (List.mem_cons_of_mem _ hd))
      · rw [hurl, List.append_assoc]
        rfl

/-- The parts can be used: a host, a port in its range that is the value of the port text if
there is one, and a path that starts with a slash. -/
structure UsableParts (u : Url) (parts : UrlParts) : Prop where
  host : parts.host ≠ []
  port : ∀ text ∈ u.port, text ≠ [] → (∀ c ∈ text, isDigit c = true) ∧ 1 ≤ digitsValue text ∧
    digitsValue text ≤ 65535 ∧ parts.port = digitsValue text
  path : parts.path.head? = some 47

/-- The URL names a host, its port text is a number in range of at most twenty digits, and there
is no query without a path. -/
structure Url.Proper (u : Url) : Prop where
  host : u.host ≠ []
  port : ∀ text ∈ u.port, text ≠ [] → (∀ c ∈ text, isDigit c = true) ∧ 1 ≤ digitsValue text ∧
    digitsValue text ≤ 65535 ∧ text.length ≤ 20
  rest : u.rest.head? ≠ some 63

/-- The first twenty digits give the value of the whole text only if there are no more. -/
theorem atoi_take_eq_iff {text : List UInt8} (hdigits : ∀ c ∈ text, isDigit c = true)
    (hpos : 1 ≤ digitsValue text) (hle : digitsValue text ≤ 65535) :
    atoi (text.take 20) = digitsValue text ↔ text.length ≤ 20 := by
  constructor
  · intro hsame
    by_contra hlong
    have hsplit := digitsValue_append (text.take 20) (text.drop 20)
    rw [List.take_append_drop, List.length_drop] at hsplit
    have hten : 10 ≤ 10 ^ (text.length - 20) := Nat.le_self_pow (by omega) 10
    have hmul : digitsValue (text.take 20) * 10 ≤
        digitsValue (text.take 20) * 10 ^ (text.length - 20) := Nat.mul_le_mul_left _ hten
    rw [atoi_digits (fun c hc => hdigits c (List.mem_of_mem_take hc)) (by omega)] at hsame
    omega
  · intro hshort
    rw [List.take_of_length_le hshort, atoi_digits hdigits (by omega)]

/-- What is returned for a URL that is accepted. -/
theorem parts_of_parseUrl_text {u : Url} {hostLen pathLen : ℕ} {out parts : UrlParts}
    (h : parseUrl u.text hostLen pathLen out = (0, parts)) : parts = u.parts := by
  have hfail : ∀ {r : UrlParts}, ((-1 : ℤ), r) = (0, parts) → False := by
    intro r hr
    exact absurd (congrArg Prod.fst hr) (show ¬(-1 : ℤ) = 0 by decide)
  rw [parseUrl_text] at h
  unfold Url.parts
  dsimp only at h
  split_ifs at h with hhost hrest hslash hpath
  · exact (hfail h).elim
  · exact (hfail h).elim
  · rw [if_pos hrest]
    exact (congrArg Prod.snd h).symm
  · exact (hfail h).elim
  · rw [if_neg hrest]
    exact (congrArg Prod.snd h).symm

theorem parseScheme_of_accepted {url : List UInt8} {hostLen pathLen : ℕ} {out parts : UrlParts}
    (h : parseUrl url hostLen pathLen out = (0, parts)) :
    ∃ useSsl rest, parseScheme url = some (useSsl, rest) := by
  cases hscheme : parseScheme url with
  | none =>
      unfold parseUrl at h
      rw [hscheme] at h
      exact absurd (congrArg Prod.fst h) (show ¬(-1 : ℤ) = 0 by decide)
  | some scheme => exact ⟨scheme.1, scheme.2, rfl⟩

theorem Url.parts_port (u : Url) {text : List UInt8} (htext : text ∈ u.port) (hne : text ≠ []) :
    u.parts.port = atoi (text.take 20) := by
  have hpos : 0 < text.length := List.length_pos_iff.mpr hne
  rw [Url.parts, Option.mem_def.mp htext]
  exact if_pos hpos

/-- The path starts with a slash unless there is a query without a path. -/
theorem Url.parts_path (u : Url) : u.parts.path.head? = some 47 ↔ u.rest.head? ≠ some 63 := by
  unfold Url.parts
  dsimp only
  cases hrest : u.rest with
  | nil => exact iff_of_true rfl (by simp)
  | cons c rest =>
      have hstart := u.rest_start c (by rw [hrest]; rfl)
      rw [if_neg (List.cons_ne_nil c rest)]
      simp only [List.head?_cons, ne_eq, Option.some.injEq]
      rcases hstart with rfl | rfl
      · exact iff_of_true rfl (by decide)
      · exact iff_of_false (by decide) (not_not.mpr rfl)

/-- For every string that `parse_url` accepts: it is a URL, and the parts returned can be used if
and only if the URL has a host, a port text that is a number in range of at most twenty digits,
and no query without a path. -/
theorem accepted_url_usable_iff (url : List UInt8) (hostLen pathLen : ℕ) (out parts : UrlParts)
    (h : parseUrl url hostLen pathLen out = (0, parts)) :
    (∃ u : Url, u.text = url) ∧ ∀ u : Url, u.text = url → (UsableParts u parts ↔ u.Proper) := by
  obtain ⟨useSsl, rest, hscheme⟩ := parseScheme_of_accepted h
  refine ⟨exists_url hscheme, ?_⟩
  rintro u rfl
  obtain rfl := parts_of_parseUrl_text h
  constructor
  · intro husable
    refine ⟨husable.host, fun text htext hne => ?_, u.parts_path.mp husable.path⟩
    obtain ⟨hdigits, hpos, hle, hvalue⟩ := husable.port text htext hne
    rw [u.parts_port htext hne] at hvalue
    exact ⟨hdigits, hpos, hle, (atoi_take_eq_iff hdigits hpos hle).mp hvalue⟩
  · intro hproper
    refine ⟨hproper.host, fun text htext hne => ?_, u.parts_path.mpr hproper.rest⟩
    obtain ⟨hdigits, hpos, hle, hshort⟩ := hproper.port text htext hne
    rw [u.parts_port htext hne]
    exact ⟨hdigits, hpos, hle, (atoi_take_eq_iff hdigits hpos hle).mpr hshort⟩

/-- The URL `ws://h:80/`. -/
def properUrl : Url where
  useSsl := false
  host := ascii "h"
  port := some (ascii "80")
  rest := ascii "/"
  host_plain := List.all_iff_forall_prop.mp (by decide)
  port_plain := by
    rintro text ⟨⟩
    exact List.all_iff_forall_prop.mp (by decide)
  rest_start := by
    rintro c ⟨⟩
    exact Or.inl rfl

theorem proper_url_usable :
    UsableParts properUrl ⟨ascii "h", ascii "/", 80, false⟩ := by
  refine ((accepted_url_usable_iff (ascii "ws://h:80/") 256 1024 ⟨[], [], 0, false⟩
    ⟨ascii "h", ascii "/", 80, false⟩ (by decide)).2 properUrl (by decide)).mpr
      ⟨by decide, ?_, by decide⟩
  rintro text ⟨⟩ -
  exact ⟨List.all_iff_forall_prop.mp (by decide), by decide, by decide, by decide⟩

/-- Two of the URLs that are to fail are accepted: one without a host, one with a port out of
range. -/
theorem unusable_urls_accepted :
    parseUrl (ascii "wss://") 256 1024 ⟨[], [], 0, false⟩ = (0, ⟨[], ascii "/", 443, true⟩) ∧
      parseUrl (ascii "wss://host:99999/") 256 1024 ⟨[], [], 0, false⟩ =
        (0, ⟨ascii "host", ascii "/", 99999, true⟩) ∧
      ∀ u : Url, u.text = ascii "wss://" → ¬UsableParts u ⟨[], ascii "/", 443, true⟩ := by
  refine ⟨by decide, by decide, fun u _ husable => husable.host rfl⟩

end WebSocketHft

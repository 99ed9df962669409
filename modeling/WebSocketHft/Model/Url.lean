import Mathlib.Algebra.Group.Int.Defs
import WebSocketHft.Model.WebSocket

/-! # URLs: `parse_url`

A URL is the bytes before its terminating NUL. The parts are output parameters:
what has been stored before a failure stays stored. -/

namespace WebSocketHft

/-- The bytes of an ASCII text. -/
def ascii (s : String) : List UInt8 :=
  s.toList.map fun c => UInt8.ofNat c.toNat

structure UrlParts where
  host : List UInt8
  path : List UInt8
  port : ℤ
  useSsl : Bool
  deriving DecidableEq, Repr

/-! ## `atoi` -/

def isSpace (c : UInt8) : Bool := c = 32 ∨ (9 ≤ c ∧ c ≤ 13)

def isDigit (c : UInt8) : Bool := 48 ≤ c ∧ c ≤ 57

/-- The value of a run of digits. -/
def digitsValue (cs : List UInt8) : ℕ :=
  cs.foldl (fun acc c => acc * 10 + (c.toNat - 48)) 0

/-- `strtol` in base ten: the value is clamped to the range of `long`. -/
def strtol (cs : List UInt8) : ℤ :=
  let cs := cs.dropWhile isSpace
  let value (cs : List UInt8) : ℤ := digitsValue (cs.takeWhile isDigit)
  match cs with
  | 45 :: cs => max (-2 ^ 63) (-value cs)
  | 43 :: cs => min (2 ^ 63 - 1) (value cs)
  | cs => min (2 ^ 63 - 1) (value cs)

/-- `atoi` is the low 32 bits of `strtol`, as an `int`. -/
def atoi (cs : List UInt8) : ℤ := (strtol cs).bmod (2 ^ 32)

/-! ## `parse_url` -/

/-- The scheme, and what follows it. -/
def parseScheme (url : List UInt8) : Option (Bool × List UInt8) :=
  if ascii "wss://" <+: url then some (true, url.drop 6)
  else if ascii "ws://" <+: url then some (false, url.drop 5)
  else none

/-- The first `/` or `?`, or the end. -/
def hostEnd (rest : List UInt8) : ℕ :=
  rest.findIdx fun c => c = 47 ∨ c = 63

def defaultPort (useSsl : Bool) : ℤ := if useSsl then 443 else 80

/-- The text after the colon: at most twenty bytes of it are read. -/
def parsePort (useSsl : Bool) (text : List UInt8) : ℤ :=
  if 0 < text.length then atoi (text.take 20) else defaultPort useSsl

/-- `parse_url` with buffers of `hostLen` and `pathLen` bytes. -/
def parseUrl (url : List UInt8) (hostLen pathLen : ℕ) (out : UrlParts) : ℤ × UrlParts :=
  let out := { out with useSsl := false }
  match parseScheme url with
  | none => (-1, out)
  | some (useSsl, rest) =>
    let out := { out with useSsl := useSsl }
    let stop := hostEnd rest
    let colon := rest.findIdx (· = 58)
    let actualHostLen := if colon < stop then colon else stop
    if hostLen ≤ actualHostLen then (-1, out)
    else
      let out := { out with
        host := rest.take actualHostLen
        port :=
          if colon < stop then parsePort useSsl ((rest.take stop).drop (colon + 1))
          else defaultPort useSsl }
      if stop < rest.length then
        if pathLen ≤ rest.length - stop then (-1, out)
        else (0, { out with path := rest.drop stop })
      else if pathLen < 2 then (-1, out)
      else (0, { out with path := ascii "/" })

end WebSocketHft

import CallChart.Binary64
import CallChart.Json.Fault

/-!
# Quoted texts, numerals and words

The scanners of the three kinds of JSON literal. Each takes the characters behind the first one
and says what it read and what is left. A literal can be sound as a literal and yet name no
value : a quoted text with half a surrogate pair (`Quoted.spelling`), a numeral that is computed to
lie beyond the range of binary floating point (`Numeral.isFinite`). A place whose value is passed
over takes such a literal, a place that wants a value does not.
-/

namespace CallChart

/-! ## Quoted texts -/

/-- What one character or escape of a quoted text stands for. -/
inductive Glyph where
  | char (c : Char)
  /-- First half of a surrogate pair. -/
  | high (n : Nat)
  /-- Second half of a surrogate pair. -/
  | low (n : Nat)
  deriving DecidableEq

/-- A quoted text : what it holds and why it lacks its closing quote, if it does. -/
structure Quoted where
  glyphs : List Glyph
  stop : Option Fault

namespace Glyph

def ofCode (n : Nat) : Glyph :=
  if 0xd800 ≤ n ∧ n < 0xdc00 then .high (n - 0xd800)
  else if 0xdc00 ≤ n ∧ n < 0xe000 then .low (n - 0xdc00)
  else .char (Char.ofNat n)

end Glyph

namespace Quoted

def hexValue? (c : Char) : Option Nat :=
  if c.isDigit then some (c.toNat - 48)
  else if 'a' ≤ c ∧ c ≤ 'f' then some (c.toNat - 87)
  else if 'A' ≤ c ∧ c ≤ 'F' then some (c.toNat - 55)
  else none

def hexCode? (a b c d : Char) : Option Nat := do
  return ((← hexValue? a) * 16 + (← hexValue? b)) * 256 + (← hexValue? c) * 16 + (← hexValue? d)

/-- The character that a backslash and one letter stand for. -/
def escaped? : Char → Option Char
  | '"' => some '"'
  | '\\' => some '\\'
  | '/' => some '/'
  | 'b' => some '\x08'
  | 'f' => some '\x0c'
  | 'n' => some '\n'
  | 'r' => some '\r'
  | 't' => some '\t'
  | _ => none

/-- Bytes of a text. -/
def byteCount : List Char → Nat
  | [] => 0
  | c :: cs => c.utf8Size + byteCount cs

/-- Read on to the closing quote, `seen` being what was read so far, last first. A code of four
hexadecimal digits is cut short by the end of the text when fewer than four bytes are left. -/
def read (seen : List Glyph) : List Char → Quoted × List Char
  | [] => (⟨seen.reverse, some .truncated⟩, [])
  | '"' :: rest => (⟨seen.reverse, none⟩, rest)
  | ['\\'] => (⟨seen.reverse, some .truncated⟩, [])
  | '\\' :: 'u' :: a :: b :: c :: d :: rest =>
    match hexCode? a b c d with
    | some n => read (.ofCode n :: seen) rest
    | none => (⟨seen.reverse, some .malformed⟩, rest)
  | '\\' :: 'u' :: rest =>
    (⟨seen.reverse, some (if byteCount rest < 4 then .truncated else .malformed)⟩, [])
  | '\\' :: e :: rest =>
    match escaped? e with
    | some c => read (.char c :: seen) rest
    | none => (⟨seen.reverse, some .malformed⟩, rest)
  | c :: rest =>
    if c.toNat < 0x20 then (⟨seen.reverse, some .malformed⟩, rest)
    else read (.char c :: seen) rest

/-- The characters that glyphs spell, `seen` being those before, last first. Only two halves in
order make a pair ; half a pair at the very end of a text that stops short has the fault of the
stop. -/
def spell (stop : Option Fault) (seen : List Char) : List Glyph → Except Fault (List Char)
  | [] =>
    match stop with
    | none => .ok seen.reverse
    | some fault => .error fault
  | .char c :: gs => spell stop (c :: seen) gs
  | .high h :: .low l :: gs => spell stop (Char.ofNat (0x10000 + h * 1024 + l) :: seen) gs
  | [.high _] => .error (stop.getD .malformed)
  | _ => .error .malformed

/-- The text a quoted text spells. -/
def spelling (q : Quoted) : Except Fault String :=
  (spell q.stop [] q.glyphs).map String.ofList

end Quoted

/-! ## Numerals -/

/-- A number as it is written : the digits as one whole number, the power of ten they are to be
multiplied by, and whether there is neither a fraction nor an exponent. -/
structure Numeral where
  negative : Bool
  digits : Nat
  scale : Int
  whole : Bool
  deriving DecidableEq, Repr

namespace Numeral

def digitsValue (ds : List Char) : Nat :=
  Nat.ofDigitChars 10 ds 0

/-- How many decimal digits there are. -/
def places (n : Numeral) : Nat :=
  (Nat.toDigits 10 n.digits).length

/-- Whether the value rounds to a finite binary64 number. The number of digits decides unless
the value is near the bound. -/
def fits (n : Numeral) : Bool :=
  let size : Int := n.places + n.scale
  if n.digits = 0 ∨ size ≤ 308 then true
  else if 310 < size then false
  else if 0 ≤ n.scale then n.digits * Nat.pow 10 n.scale.toNat < Binary64.tooLarge
  else n.digits < Binary64.tooLarge * Nat.pow 10 (-n.scale).toNat

/-- The first number that 64 bits do not hold. -/
def doubleWordBound : Nat :=
  18446744073709551616

/-- How many digits at the end are left out, so that 64 bits hold the others. -/
def dropped (n : Numeral) : Nat :=
  let count := n.places - 20
  if n.digits / Nat.pow 10 count < doubleWordBound then count else count + 1

/-- The number made of the digits that 64 bits hold, from the first on, and the power of ten
that it is to be multiplied by. -/
def leading (n : Numeral) : Nat × Int :=
  let count := n.dropped
  (n.digits / Nat.pow 10 count, n.scale + count)

/-- Whether the value is computed as a finite binary64 number. It is the product of the leading
digits and their power of ten, of which both are rounded before they are multiplied, so near the
bound it can leave the range although the exact value does not, and the other way round. -/
def isFinite (n : Numeral) : Bool :=
  let (lead, scale) := n.leading
  if lead = 0 ∨ scale ≤ 0 then true
  else if 308 < scale then false
  else Binary64.nearest lead * Binary64.nearest (Nat.pow 10 scale.toNat) < Binary64.tooLarge

/-- The number of a numeral without sign, fraction and exponent. -/
def natural? (n : Numeral) : Option Nat :=
  if n.whole && !n.negative then some n.digits else none

/-- The number of a numeral without fraction and exponent. -/
def integer? (n : Numeral) : Option Int :=
  if n.whole then some (if n.negative then -n.digits else n.digits) else none

/-- Digits at the front and what is behind them. -/
def takeDigits (cs : List Char) : List Char × List Char :=
  cs.span Char.isDigit

/-- What a numeral that breaks off lacks : everything if the text ends here. -/
def cutAt : List Char → Fault
  | [] => .truncated
  | _ => .malformed

/-- The exponent, if one follows the digits. -/
def readExponent (cs : List Char) : Except Fault (Option Int × List Char) :=
  match cs with
  | [] => .ok (none, [])
  | e :: r =>
    if e = 'e' ∨ e = 'E' then
      let (negative, r) :=
        match r with
        | '-' :: r => (true, r)
        | '+' :: r => (false, r)
        | r => (false, r)
      match takeDigits r with
      | ([], r) => .error (cutAt r)
      | (ds, r) => .ok (some (if negative then -(digitsValue ds) else digitsValue ds), r)
    else .ok (none, cs)

/-- The fraction, if one follows the whole part. -/
def readFraction (cs : List Char) : Except Fault (Option (List Char) × List Char) :=
  match cs with
  | '.' :: r =>
    match takeDigits r with
    | ([], r) => .error (cutAt r)
    | (ds, r) => .ok (some ds, r)
  | cs => .ok (none, cs)

/-- The whole part : one zero, or digits of which the first is not zero. -/
def readWhole (cs : List Char) : Except Fault (List Char × List Char) :=
  match takeDigits cs with
  | ([], r) => .error (cutAt r)
  | ('0' :: _ :: _, _) => .error .malformed
  | (ds, r) => .ok (ds, r)

/-- A numeral whose sign has been read. -/
def readUnsigned (negative : Bool) (cs : List Char) : Except Fault (Numeral × List Char) := do
  let (whole, cs) ← readWhole cs
  let (fraction, cs) ← readFraction cs
  let (exponent, cs) ← readExponent cs
  let places := fraction.getD []
  return (⟨negative, digitsValue (whole ++ places), exponent.getD 0 - places.length,
    fraction.isNone && exponent.isNone⟩, cs)

/-- A numeral, from its first character on. -/
def read (cs : List Char) : Except Fault (Numeral × List Char) :=
  match cs with
  | '-' :: r => readUnsigned true r
  | cs => readUnsigned false cs

end Numeral

/-! ## Words -/

/-- The rest of a word : `expected` is to come next. -/
def readWord : List Char → List Char → Except Fault (List Char)
  | [], cs => .ok cs
  | _ :: _, [] => .error .truncated
  | w :: ws, c :: cs => if w = c then readWord ws cs else .error .malformed

end CallChart

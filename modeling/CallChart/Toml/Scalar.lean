import CallChart.Json.Literal
import CallChart.Toml.Basic

/-!
# TOML scalars

Texts, numbers and dates of the TOML format. A text is read from its opening quote on ; numbers,
dates and the words `true`, `false`, `inf` and `nan` are told from the whole run of characters
they are written with.
-/

namespace CallChart

namespace Toml

def isSpace (c : Char) : Bool :=
  c == ' ' || c == '\t'

def skipSpace (cs : List Char) : List Char :=
  cs.dropWhile isSpace

/-- A character that may stand in a comment or on one line of a text. -/
def isPlain (c : Char) : Bool :=
  c == '\t' || (0x20 ≤ c.toNat && c.toNat != 0x7f)

/-- The characters behind a line end, if there is one. -/
def lineEnd? : List Char → Option (List Char)
  | '\n' :: r => some r
  | '\r' :: '\n' :: r => some r
  | _ => none

/-! ## Texts -/

/-- The character of a code point, surrogates excluded. -/
def charOf? (n : Nat) : Option Char :=
  if n.isValidChar then some (Char.ofNat n) else none

/-- The character that a backslash and one letter stand for. -/
def escaped? : Char → Option Char
  | 'b' => some '\x08'
  | 't' => some '\t'
  | 'n' => some '\n'
  | 'f' => some '\x0c'
  | 'r' => some '\r'
  | '"' => some '"'
  | '\\' => some '\\'
  | _ => none

def hexWord? (a b c d e f g h : Char) : Option Nat := do
  return (← Quoted.hexCode? a b c d) * 65536 + (← Quoted.hexCode? e f g h)

/-- A text between quotes on one line, from behind the opening quote on. -/
def readBasic (seen : List Char) : List Char → Option (String × List Char)
  | [] => none
  | '"' :: rest => some (String.ofList seen.reverse, rest)
  | '\\' :: 'u' :: a :: b :: c :: d :: rest =>
    match (Quoted.hexCode? a b c d).bind charOf? with
    | some c => readBasic (c :: seen) rest
    | none => none
  | '\\' :: 'U' :: a :: b :: c :: d :: e :: f :: g :: h :: rest =>
    match (hexWord? a b c d e f g h).bind charOf? with
    | some c => readBasic (c :: seen) rest
    | none => none
  | '\\' :: e :: rest =>
    match escaped? e with
    | some c => readBasic (c :: seen) rest
    | none => none
  | c :: rest => if isPlain c && c != '\\' then readBasic (c :: seen) rest else none

/-- A text between apostrophes on one line, from behind the opening one on. -/
def readLiteral (seen : List Char) : List Char → Option (String × List Char)
  | [] => none
  | c :: rest =>
    if c = '\'' then some (String.ofList seen.reverse, rest)
    else if isPlain c then readLiteral (c :: seen) rest
    else none

/-- A text between three quotes on either side, from behind the opening ones on. After a
backslash at the end of a line all white space is passed over, which `passing` remembers. Up to
two quotes may stand right in front of the closing ones. -/
def readLongBasic (passing : Bool) (seen : List Char) : List Char → Option (String × List Char)
  | [] => none
  | '"' :: '"' :: '"' :: '"' :: '"' :: rest =>
    some (String.ofList ('"' :: '"' :: seen).reverse, rest)
  | '"' :: '"' :: '"' :: '"' :: rest => some (String.ofList ('"' :: seen).reverse, rest)
  | '"' :: '"' :: '"' :: rest => some (String.ofList seen.reverse, rest)
  | '\r' :: '\n' :: rest => readLongBasic passing (if passing then seen else '\n' :: seen) rest
  | '\n' :: rest => readLongBasic passing (if passing then seen else '\n' :: seen) rest
  | '\\' :: 'u' :: a :: b :: c :: d :: rest =>
    match (Quoted.hexCode? a b c d).bind charOf? with
    | some c => readLongBasic false (c :: seen) rest
    | none => none
  | '\\' :: 'U' :: a :: b :: c :: d :: e :: f :: g :: h :: rest =>
    match (hexWord? a b c d e f g h).bind charOf? with
    | some c => readLongBasic false (c :: seen) rest
    | none => none
  | '\\' :: e :: rest =>
    match escaped? e with
    | some c => readLongBasic false (c :: seen) rest
    | none =>
      if (lineEnd? (skipSpace (e :: rest))).isSome then readLongBasic true seen rest else none
  | c :: rest =>
    if !isPlain c || c == '\\' then none
    else if passing && isSpace c then readLongBasic true seen rest
    else readLongBasic false (c :: seen) rest

/-- A text between three apostrophes on either side, from behind the opening ones on. -/
def readLongLiteral (seen : List Char) : List Char → Option (String × List Char)
  | [] => none
  | '\'' :: '\'' :: '\'' :: '\'' :: '\'' :: rest =>
    some (String.ofList ('\'' :: '\'' :: seen).reverse, rest)
  | '\'' :: '\'' :: '\'' :: '\'' :: rest => some (String.ofList ('\'' :: seen).reverse, rest)
  | '\'' :: '\'' :: '\'' :: rest => some (String.ofList seen.reverse, rest)
  | '\r' :: '\n' :: rest => readLongLiteral ('\n' :: seen) rest
  | c :: rest => if isPlain c || c == '\n' then readLongLiteral (c :: seen) rest else none

/-- A line end right behind the opening quotes of a long text does not belong to it. -/
def dropLineEnd (cs : List Char) : List Char :=
  (lineEnd? cs).getD cs

/-! ## Numbers -/

/-- Digits with single underscores between them, less the underscores. -/
def spacedDigits? (isDigit : Char → Bool) (cs : List Char) : Option (List Char) :=
  let groups := cs.splitOn '_'
  if groups.all fun g => !g.isEmpty && g.all isDigit then some groups.flatten else none

/-- Digits of a decimal number, of which the first is zero only if it is the only one. -/
def decimalDigits? (cs : List Char) : Option (List Char) :=
  match spacedDigits? Char.isDigit cs with
  | some ('0' :: _ :: _) => none
  | ds => ds

/-- A sign and what follows it. -/
def splitSign : List Char → Bool × List Char
  | '-' :: r => (true, r)
  | '+' :: r => (false, r)
  | r => (false, r)

def valueIn (base : Nat) (ds : List Char) : Nat :=
  ds.foldl (fun n c => n * base + (Quoted.hexValue? c).getD 0) 0

/-- A number that 64 bits with a sign hold. -/
def bounded? (n : Int) : Option Toml :=
  if -9223372036854775808 ≤ n ∧ n ≤ 9223372036854775807 then some (.int n) else none

def isBinaryDigit (c : Char) : Bool :=
  c == '0' || c == '1'

def isOctalDigit (c : Char) : Bool :=
  '0' ≤ c && c ≤ '7'

def isHexDigit (c : Char) : Bool :=
  (Quoted.hexValue? c).isSome

/-- A whole number. -/
def integer? (cs : List Char) : Option Toml :=
  match cs with
  | '0' :: 'x' :: r => (spacedDigits? isHexDigit r).bind fun ds => bounded? (valueIn 16 ds)
  | '0' :: 'o' :: r => (spacedDigits? isOctalDigit r).bind fun ds => bounded? (valueIn 8 ds)
  | '0' :: 'b' :: r => (spacedDigits? isBinaryDigit r).bind fun ds => bounded? (valueIn 2 ds)
  | cs =>
    let (negative, r) := splitSign cs
    (decimalDigits? r).bind fun ds =>
      bounded? (if negative then -(valueIn 10 ds) else valueIn 10 ds)

/-- What stands in front of the first character that passes `p`, and what stands behind it if
there is one. -/
def cutAt (p : Char → Bool) (cs : List Char) : List Char × Option (List Char) :=
  match cs.span fun c => !p c with
  | (before, _ :: behind) => (before, some behind)
  | (before, []) => (before, none)

/-- A number with a fraction or an exponent. One that rounds to positive infinity is refused. -/
def float? (cs : List Char) : Option Toml := do
  let (negative, r) := splitSign cs
  if r = "inf".toList ∨ r = "nan".toList then return .float (String.ofList cs)
  let (mantissa, exponent) := cutAt (fun c => c == 'e' || c == 'E') r
  let (whole, fraction) := cutAt (· == '.') mantissa
  if fraction.isNone && exponent.isNone then none
  let wholeDigits ← decimalDigits? whole
  let places ← match fraction with
    | none => some []
    | some ds => spacedDigits? Char.isDigit ds
  let power ← match exponent with
    | none => some 0
    | some e =>
      let (down, ds) := splitSign e
      (spacedDigits? Char.isDigit ds).map fun ds =>
        if down then -(valueIn 10 ds : Int) else valueIn 10 ds
  let n : Numeral := ⟨negative, valueIn 10 (wholeDigits ++ places), power - places.length, false⟩
  if n.fits || negative then return .float (String.ofList cs) else none

/-! ## Dates -/

def number2? (a b : Char) : Option Nat :=
  if a.isDigit && b.isDigit then some (valueIn 10 [a, b]) else none

def daysIn (year month : Nat) : Nat :=
  if month = 2 then
    (if year % 4 = 0 ∧ (year % 100 ≠ 0 ∨ year % 400 = 0) then 29 else 28)
  else if month = 4 ∨ month = 6 ∨ month = 9 ∨ month = 11 then 30
  else 31

/-- The characters behind a date. -/
def afterDate? : List Char → Option (List Char)
  | a :: b :: c :: d :: '-' :: e :: f :: '-' :: g :: h :: rest => do
    let year := (← number2? a b) * 100 + (← number2? c d)
    let month ← number2? e f
    let day ← number2? g h
    if 1 ≤ month ∧ month ≤ 12 ∧ 1 ≤ day ∧ day ≤ daysIn year month then some rest else none
  | _ => none

/-- The characters behind hours and minutes. -/
def afterMinutes? : List Char → Option (List Char)
  | a :: b :: ':' :: c :: d :: rest => do
    if (← number2? a b) ≤ 23 ∧ (← number2? c d) ≤ 59 then some rest else none
  | _ => none

/-- The characters behind a time of day. -/
def afterTime? (cs : List Char) : Option (List Char) := do
  match ← afterMinutes? cs with
  | ':' :: a :: b :: rest =>
    if 60 < (← number2? a b) then none
    match rest with
    | '.' :: r =>
      match r.span Char.isDigit with
      | ([], _) => none
      | (_, r) => some r
    | r => some r
  | _ => none

/-- Whether the text is an offset from universal time, or nothing. -/
def isOffset : List Char → Bool
  | [] => true
  | ['Z'] => true
  | ['z'] => true
  | '+' :: r => afterMinutes? r == some []
  | '-' :: r => afterMinutes? r == some []
  | _ => false

/-- Whether the text is a date, a time, or both with an offset perhaps. -/
def isDate (cs : List Char) : Bool :=
  match afterDate? cs with
  | some [] => true
  | some (delimiter :: r) =>
    (delimiter == 'T' || delimiter == 't' || delimiter == ' ') &&
      (match afterTime? r with
      | some r => isOffset r
      | none => false)
  | none => afterTime? cs == some []

/-! ## Words -/

/-- A character of a number, date or word. -/
def isWordPart (c : Char) : Bool :=
  c.isAlphanum || c == '+' || c == '-' || c == '.' || c == '_' || c == ':'

/-- The value that a run of characters writes. -/
def ofWord? (cs : List Char) : Option Toml :=
  if cs = "true".toList then some (.bool true)
  else if cs = "false".toList then some (.bool false)
  else if isDate cs then some (.date (String.ofList cs))
  else (float? cs).or (integer? cs)

/-- A number, date or word. A date may have a blank in front of its time. -/
def readWord (cs : List Char) : Option (Toml × List Char) :=
  let (word, rest) := cs.span isWordPart
  match rest with
  | ' ' :: r =>
    let (time, behind) := r.span isWordPart
    if afterDate? word = some [] ∧ isDate (word ++ ' ' :: time) then
      some (.date (String.ofList (word ++ ' ' :: time)), behind)
    else (ofWord? word).map (·, rest)
  | rest => (ofWord? word).map (·, rest)

end Toml

end CallChart

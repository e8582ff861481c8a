import CallChart.Json.Basic
import CallChart.Json.Literal

/-!
# Outlines of JSON texts

An outline is what can be told of a JSON text up to the place where it breaks off, if it does.
Reading a text into its outline never fails. Whoever wants a value of some kind walks over the
outline in reading order, so the first problem in the text, of whichever sort, is the one that
is met first. `Outline.fault?` is the first problem of a value that is only passed over, and
`Outline.value?` the value of a whole text, however deeply nested.
-/

namespace CallChart

/-- A JSON value as far as it can be read. -/
inductive Outline where
  | null
  | bool (b : Bool)
  | number (n : Numeral)
  | text (q : Quoted)
  /-- Items, and why the closing bracket is missing, if it is. -/
  | array (items : List Outline) (stop : Option Fault)
  /-- Members, and why the closing brace is missing, if it is. -/
  | object (members : List (Quoted × Outline)) (stop : Option Fault)
  /-- No value : the fault where one is wanted, and where one is passed over. -/
  | broken (wanted passed : Fault)

namespace Outline

/-! ## Reading -/

/-- Blanks of the format : space, tab, line feed, carriage return. -/
def isSpace (c : Char) : Bool :=
  c == ' ' || c == '\t' || c == '\n' || c == '\r'

def skipSpace (cs : List Char) : List Char :=
  cs.dropWhile isSpace

/-- What reading came to : the text behind the value, or the fault that ended it. -/
abbrev After := Except Fault (List Char)

def After.stop : After → Option Fault
  | .ok _ => none
  | .error fault => some fault

/-- Nothing could be read because of `fault`. -/
def brokenBy (fault : Fault) : Outline × After :=
  (.broken fault fault, .error fault)

/-- A word that begins like `value`. -/
def readWordAs (value : Outline) (expected cs : List Char) : Outline × After :=
  match readWord expected cs with
  | .ok rest => (value, .ok rest)
  | .error fault => brokenBy fault

def readText (cs : List Char) : Outline × After :=
  match Quoted.read [] cs with
  | (q, rest) => (.text q, match q.stop with | none => .ok rest | some fault => .error fault)

/-- A numeral. One that the text cuts short is malformed where it is passed over. -/
def readNumber (cs : List Char) : Outline × After :=
  match Numeral.read cs with
  | .ok (n, rest) => (.number n, .ok rest)
  | .error fault => (.broken fault .malformed, .error fault)

mutual

/-- A value and what is behind it. Each step of `fuel` reads one value or looks for one item. -/
def readValue (fuel : Nat) (cs : List Char) : Outline × After :=
  match fuel with
  | 0 => brokenBy .truncated
  | fuel + 1 =>
    match skipSpace cs with
    | [] => brokenBy .truncated
    | '"' :: rest => readText rest
    | '[' :: rest =>
      match skipSpace rest with
      | ']' :: rest => (.array [] none, .ok rest)
      | rest =>
        match readItems fuel rest with
        | (items, after) => (.array items after.stop, after)
    | '\x7b' :: rest =>
      match skipSpace rest with
      | '\x7d' :: rest => (.object [] none, .ok rest)
      | rest =>
        match readMembers fuel rest with
        | (members, after) => (.object members after.stop, after)
    | 'n' :: rest => readWordAs .null ['u', 'l', 'l'] rest
    | 't' :: rest => readWordAs (.bool true) ['r', 'u', 'e'] rest
    | 'f' :: rest => readWordAs (.bool false) ['a', 'l', 's', 'e'] rest
    | c :: rest => if c = '-' ∨ c.isDigit then readNumber (c :: rest) else brokenBy .malformed

/-- One item or more and the closing bracket. -/
def readItems (fuel : Nat) (cs : List Char) : List Outline × After :=
  match fuel with
  | 0 => ([], .error .truncated)
  | fuel + 1 =>
    match readValue fuel cs with
    | (item, .error fault) => ([item], .error fault)
    | (item, .ok rest) =>
      match skipSpace rest with
      | ',' :: rest =>
        match readItems fuel rest with
        | (items, after) => (item :: items, after)
      | ']' :: rest => ([item], .ok rest)
      | [] => ([item], .error .truncated)
      | _ => ([item], .error .malformed)

/-- One member or more and the closing brace. -/
def readMembers (fuel : Nat) (cs : List Char) : List (Quoted × Outline) × After :=
  match fuel with
  | 0 => ([], .error .truncated)
  | fuel + 1 =>
    match skipSpace cs with
    | [] => ([], .error .truncated)
    | '"' :: rest =>
      match Quoted.read [] rest with
      | (⟨name, some fault⟩, _) =>
        ([(⟨name, some fault⟩, .broken fault fault)], .error fault)
      | (⟨name, none⟩, rest) =>
        match skipSpace rest with
        | ':' :: rest =>
          match readValue fuel rest with
          | (value, .error fault) => ([(⟨name, none⟩, value)], .error fault)
          | (value, .ok rest) =>
            match skipSpace rest with
            | ',' :: rest =>
              match readMembers fuel rest with
              | (members, after) => ((⟨name, none⟩, value) :: members, after)
            | '\x7d' :: rest => ([(⟨name, none⟩, value)], .ok rest)
            | [] => ([(⟨name, none⟩, value)], .error .truncated)
            | _ => ([(⟨name, none⟩, value)], .error .malformed)
        | [] => ([(⟨name, none⟩, .broken .truncated .truncated)], .error .truncated)
        | _ => ([(⟨name, none⟩, .broken .malformed .malformed)], .error .malformed)
    | _ => ([], .error .malformed)

end

/-- The outline of a text and what is behind its value. No value needs more steps than twice
the characters of the text. -/
def ofChars (cs : List Char) : Outline × After :=
  readValue (2 * cs.length + 2) cs

/-! ## Passing over a value -/

mutual

/-- The first fault of a value that is passed over. -/
def fault? : Outline → Option Fault
  | .broken _ fault => some fault
  | .text q => q.stop
  | .array items stop => (itemsFault? items).or stop
  | .object members stop => (membersFault? members).or stop
  | _ => none

def itemsFault? : List Outline → Option Fault
  | [] => none
  | item :: items => (fault? item).or (itemsFault? items)

def membersFault? : List (Quoted × Outline) → Option Fault
  | [] => none
  | (name, value) :: members => (name.stop.or (fault? value)).or (membersFault? members)

end

/-- Pass over a value. -/
def skip (o : Outline) : Except Fault Unit :=
  match o.fault? with
  | some fault => .error fault
  | none => .ok ()

/-! ## Wanting a value -/

/-- The fault of a value of another kind than is wanted. A literal has to be sound to be told
from what is wanted, an array or object shows with its bracket. -/
def otherKind : Outline → Fault
  | .broken fault _ => fault
  | .number n => if n.isFinite then .mistyped else .malformed
  | .text q =>
    match q.spelling with
    | .ok _ => .mistyped
    | .error fault => fault
  | _ => .mistyped

def wantText : Outline → Except Fault String
  | .text q => q.spelling
  | o => .error o.otherKind

def wantBool : Outline → Except Fault Bool
  | .bool b => .ok b
  | o => .error o.otherKind

/-- The first number that 32 bits do not hold. -/
def wordBound : Nat :=
  4294967296

/-- A natural number that 32 bits hold. -/
def wantNat32 (o : Outline) : Except Fault Nat :=
  match o with
  | .number n =>
    match n.natural? with
    | some k => if k < wordBound then .ok k else .error o.otherKind
    | none => .error o.otherKind
  | o => .error o.otherKind

/-- A text, or null for none. -/
def wantText? : Outline → Except Fault (Option String)
  | .null => .ok none
  | o => o.wantText.map some

/-- What is wanted of the end of an array or object. -/
def wantEnd : Option Fault → Except Fault Unit
  | none => .ok ()
  | some fault => .error fault

/-- The value that `want` makes of a whole text. Nothing but blanks may follow it. -/
def parse {α : Type} (want : Outline → Except Fault α) (cs : List Char) : Except Fault α := do
  let (o, after) := ofChars cs
  let a ← want o
  let rest ← after
  if (skipSpace rest).isEmpty then return a else throw .malformed

/-! ## Values of any kind -/

mutual

/-- The value of an outline that does not break off and holds no fraction. -/
def value? : Outline → Option Json
  | .null => some .null
  | .bool b => some (.bool b)
  | .number n => n.integer?.map .int
  | .text q => q.spelling.toOption.map .text
  | .array items none => (itemValues? items).map .array
  | .object members none => (memberValues? members).map .object
  | _ => none

def itemValues? : List Outline → Option (List Json)
  | [] => some []
  | item :: items =>
    match value? item, itemValues? items with
    | some v, some vs => some (v :: vs)
    | _, _ => none

def memberValues? : List (Quoted × Outline) → Option (List (String × Json))
  | [] => some []
  | (name, value) :: members =>
    match name.spelling, value? value, memberValues? members with
    | .ok k, some v, some ms => some ((k, v) :: ms)
    | _, _, _ => none

end

end Outline

/-- The value that a JSON text writes, if its numbers are integers. There is no limit to how
deeply it may be nested. -/
def Json.parse? (cs : List Char) : Option Json :=
  match Outline.ofChars cs with
  | (o, .ok rest) => if (Outline.skipSpace rest).isEmpty then o.value? else none
  | _ => none

end CallChart

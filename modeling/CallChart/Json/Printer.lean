import CallChart.Json.Basic

/-!
# JSON text

Two written forms of a value. `Json.compact` has no blanks at all. `Json.pretty` puts every
item and member on a line of its own, two spaces deeper than the brackets around it, and a
blank behind each colon ; an empty array or object stays on one line.
-/

namespace CallChart

namespace Json

/-- Lower case hexadecimal digit. -/
def hexDigit (n : Nat) : Char :=
  if n < 10 then Char.ofNat (48 + n) else Char.ofNat (87 + n)

/-- How a character is written between quotes : quotes, backslashes and control characters are
escaped, all others stand for themselves. -/
def quoteChar (c : Char) : List Char :=
  if c = '"' then ['\\', '"']
  else if c = '\\' then ['\\', '\\']
  else if c = '\x08' then ['\\', 'b']
  else if c = '\x0c' then ['\\', 'f']
  else if c = '\n' then ['\\', 'n']
  else if c = '\r' then ['\\', 'r']
  else if c = '\t' then ['\\', 't']
  else if c.toNat < 0x20 then
    ['\\', 'u', '0', '0', hexDigit (c.toNat / 16), hexDigit (c.toNat % 16)]
  else [c]

/-- A text between quotes. -/
def quote (s : String) : List Char :=
  '"' :: (s.toList.flatMap quoteChar ++ ['"'])

/-- A decimal integer. -/
def decimal : Int → List Char
  | .ofNat n => Nat.toDigits 10 n
  | .negSucc n => '-' :: Nat.toDigits 10 (n + 1)

def word (b : Bool) : List Char :=
  if b then ['t', 'r', 'u', 'e'] else ['f', 'a', 'l', 's', 'e']

def nullWord : List Char :=
  ['n', 'u', 'l', 'l']

mutual

/-- The form without blanks. -/
def compact : Json → List Char
  | .null => nullWord
  | .bool b => word b
  | .int n => decimal n
  | .text s => quote s
  | .array [] => ['[', ']']
  | .array (v :: vs) => '[' :: (compact v ++ compactItems vs)
  | .object [] => ['\x7b', '\x7d']
  | .object ((k, v) :: ms) =>
    '\x7b' :: (quote k ++ ':' :: (compact v ++ compactMembers ms))

/-- The items behind the first one, each behind a comma, and the closing bracket. -/
def compactItems : List Json → List Char
  | [] => [']']
  | v :: vs => ',' :: (compact v ++ compactItems vs)

/-- The members behind the first one, each behind a comma, and the closing brace. -/
def compactMembers : List (String × Json) → List Char
  | [] => ['\x7d']
  | (k, v) :: ms => ',' :: (quote k ++ ':' :: (compact v ++ compactMembers ms))

end

/-- A new line with a margin of `depth` levels. -/
def newLine (depth : Nat) : List Char :=
  '\n' :: List.replicate (2 * depth) ' '

mutual

/-- The form with one item or member a line, inside `depth` brackets. -/
def pretty (depth : Nat) : Json → List Char
  | .null => nullWord
  | .bool b => word b
  | .int n => decimal n
  | .text s => quote s
  | .array [] => ['[', ']']
  | .array (v :: vs) =>
    '[' :: (newLine (depth + 1) ++ (pretty (depth + 1) v ++ prettyItems depth vs))
  | .object [] => ['\x7b', '\x7d']
  | .object ((k, v) :: ms) =>
    '\x7b' :: (newLine (depth + 1) ++ (quote k ++ ':' :: ' ' ::
      (pretty (depth + 1) v ++ prettyMembers depth ms)))

/-- The items behind the first one and the closing bracket on its own line. -/
def prettyItems (depth : Nat) : List Json → List Char
  | [] => newLine depth ++ [']']
  | v :: vs => ',' :: (newLine (depth + 1) ++ (pretty (depth + 1) v ++ prettyItems depth vs))

/-- The members behind the first one and the closing brace on its own line. -/
def prettyMembers (depth : Nat) : List (String × Json) → List Char
  | [] => newLine depth ++ ['\x7d']
  | (k, v) :: ms =>
    ',' :: (newLine (depth + 1) ++ (quote k ++ ':' :: ' ' ::
      (pretty (depth + 1) v ++ prettyMembers depth ms)))

end

def compactText (v : Json) : String :=
  String.ofList v.compact

def prettyText (v : Json) : String :=
  String.ofList (v.pretty 0)

end Json

end CallChart

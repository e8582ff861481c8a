/-!
# Entity codes

Node texts of a diagram may not hold quotes, brackets, braces, angle brackets or ampersands.
`escape` writes an entity code for each, `unescape` reads the codes back from left to right.
-/

namespace CallChart.Text

/-- The entity code of a character that may not stand in a node text. -/
def entity? : Char → Option String
  | '"' => some "#quot;"
  | '[' => some "#91;"
  | ']' => some "#93;"
  | '\x7b' => some "#123;"
  | '\x7d' => some "#125;"
  | '<' => some "#lt;"
  | '>' => some "#gt;"
  | '&' => some "#amp;"
  | _ => none

/-- The written form of one character : its entity code if it has one, else itself. -/
def escapeChar (c : Char) : List Char :=
  match entity? c with
  | some code => code.toList
  | none => [c]

def escapeChars (cs : List Char) : List Char :=
  cs.flatMap escapeChar

/-- A text with entity codes in place of the characters that may not stand in a node. -/
def escape (s : String) : String :=
  String.ofList (escapeChars s.toList)

/-- The text that entity codes stand for, read from left to right. -/
def unescapeChars : List Char → List Char
  | '#' :: 'q' :: 'u' :: 'o' :: 't' :: ';' :: r => '"' :: unescapeChars r
  | '#' :: '9' :: '1' :: ';' :: r => '[' :: unescapeChars r
  | '#' :: '9' :: '3' :: ';' :: r => ']' :: unescapeChars r
  | '#' :: '1' :: '2' :: '3' :: ';' :: r => '\x7b' :: unescapeChars r
  | '#' :: '1' :: '2' :: '5' :: ';' :: r => '\x7d' :: unescapeChars r
  | '#' :: 'l' :: 't' :: ';' :: r => '<' :: unescapeChars r
  | '#' :: 'g' :: 't' :: ';' :: r => '>' :: unescapeChars r
  | '#' :: 'a' :: 'm' :: 'p' :: ';' :: r => '&' :: unescapeChars r
  | c :: r => c :: unescapeChars r
  | [] => []

def unescape (s : String) : String :=
  String.ofList (unescapeChars s.toList)

end CallChart.Text

import CallChart.Text.Lines

/-!
# Measuring a diagram

Each line of a diagram opens a block, closes one, draws an edge, draws a node, or does none of
these (`lineKind`). An edge line is an identifier and an arrow, a node line an identifier and an
opening bracket, with white space before, between, and anything behind. A hyphen may belong to
an identifier as well as to an arrow, so `nameThen` looks for what is to follow after each
character of the name. `Counts.measure` counts the lines of each kind and the characters.
-/

namespace CallChart

/-- What a line of a diagram does. -/
inductive LineKind where
  | opening | closing | edge | node | other
  deriving DecidableEq

namespace Diagram

/-- Whether name characters and white space can be followed by what `p` accepts. -/
def nameThen (p : List Char → Bool) : List Char → Bool
  | [] => p []
  | c :: cs => p (Text.trimStart (c :: cs)) || (Text.isNamePart c && nameThen p cs)

/-- Whether white space, an identifier and white space can be followed by what `p` accepts. -/
def identifierThen (p : List Char → Bool) (line : List Char) : Bool :=
  match Text.trimStart line with
  | [] => false
  | c :: cs => Text.isNameStart c && nameThen p cs

/-- An arrow, plain, dotted or thick. -/
def beginsArrow (cs : List Char) : Bool :=
  Text.beginsWith ['-', '-', '>'] cs || Text.beginsWith ['-', '.', '-', '>'] cs ||
    Text.beginsWith ['=', '=', '>'] cs

def beginsBracket (cs : List Char) : Bool :=
  Text.beginsWith ['['] cs

def isEdgeLine (line : List Char) : Bool :=
  identifierThen beginsArrow line

def isNodeLine (line : List Char) : Bool :=
  identifierThen beginsBracket line

def openingWord : List Char :=
  "subgraph".toList

def closingWord : List Char :=
  "end".toList

/-- What a line does. -/
def lineKind (line : List Char) : LineKind :=
  let trimmed := Text.trim line
  if Text.beginsWith (openingWord ++ [' ']) trimmed || trimmed == openingWord then .opening
  else if trimmed == closingWord then .closing
  else if isEdgeLine line then .edge
  else if isNodeLine line then .node
  else .other

end Diagram

/-- How many lines of each kind and how many characters a diagram has. -/
structure Counts where
  nodes : Nat
  edges : Nat
  opened : Nat
  closed : Nat
  size : Nat
  deriving DecidableEq, Repr

namespace Counts

/-- Counts of lines of known kinds. -/
def ofKinds (kinds : List LineKind) (size : Nat) : Counts where
  nodes := kinds.count .node
  edges := kinds.count .edge
  opened := kinds.count .opening
  closed := kinds.count .closing
  size := size

/-- The counts of a text. -/
def measure (text : List Char) : Counts :=
  ofKinds ((Text.lines text).map Diagram.lineKind) text.length

end Counts

end CallChart

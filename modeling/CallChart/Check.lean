import CallChart.Failure
import CallChart.Measure

/-!
# Checking a diagram

A finished diagram is checked before it is written : it has an opening fence near the top and a
closing fence below, as many blocks are closed as are opened, nothing exceeds its limit, and a
known diagram type is declared near the opening fence. `Limits.check` reports the first of these
that fails, in this order.
-/

namespace CallChart

/-- How much a diagram may hold. -/
structure Limits where
  nodes : Nat := 500
  edges : Nat := 1000
  blocks : Nat := 200
  size : Nat := 50000
  deriving DecidableEq, Inhabited

namespace Diagram

/-- How many lines count as near. -/
def window : Nat :=
  5

/-- Types that a diagram may declare. -/
def types : List (List Char) :=
  ["flowchart", "graph", "sequenceDiagram", "classDiagram", "stateDiagram", "stateDiagram-v2",
    "erDiagram", "gantt", "pie", "mindmap", "journey", "gitGraph"].map String.toList

def fence : List Char :=
  "```".toList

def isOpeningFence (line : List Char) : Bool :=
  Text.beginsWith (fence ++ "mermaid".toList) (Text.trimStart line)

def isClosingFence (line : List Char) : Bool :=
  Text.trim line == fence

def declaresType (line : List Char) : Bool :=
  types.contains (Text.firstWord line)

/-- The lines behind the opening fence, if it is near the top. -/
def behindFence? (lines : List (List Char)) : Option (List (List Char)) :=
  ((lines.take window).findIdx? isOpeningFence).map fun k => lines.drop (k + 1)

end Diagram

namespace Limits

def ensure (quantity : Quantity) (count limit : Nat) : Except Failure Unit :=
  if count > limit then .error (.limitExceeded quantity count limit) else .ok ()

/-- The counts of a text that passes every check. -/
def check (limits : Limits) (text : List Char) : Except Failure Counts := do
  let some behind := Diagram.behindFence? (Text.lines text) | throw .missingOpeningFence
  unless behind.any Diagram.isClosingFence do throw .missingClosingFence
  let counts := Counts.measure text
  unless counts.opened = counts.closed do throw (.unbalanced counts.opened counts.closed)
  ensure .nodes counts.nodes limits.nodes
  ensure .edges counts.edges limits.edges
  ensure .blocks counts.opened limits.blocks
  ensure .size counts.size limits.size
  unless (behind.take Diagram.window).any Diagram.declaresType do throw .missingType
  return counts

end Limits

end CallChart

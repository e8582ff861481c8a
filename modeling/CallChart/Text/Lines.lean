import CallChart.Text.Character

/-!
# Lines

`lines` cuts a text at its line feeds, `unlines` ends each line with one, `indent` is the
margin of a nesting depth, `indented` sets a text off by a margin, `pieces` cuts at a set of
separators.
-/

namespace CallChart.Text

/-- A line without the carriage return that ends it. -/
def dropReturn (cs : List Char) : List Char :=
  if cs.getLast? = some '\r' then cs.dropLast else cs

/-- The lines of a text : what stands before each line feed, less one carriage return at its
end, and then what stands behind the last line feed if that is anything. -/
def lines (cs : List Char) : List (List Char) :=
  let parts := cs.splitOn '\n'
  let ended := parts.dropLast.map dropReturn
  match parts.getLast? with
  | none | some [] => ended
  | some last => ended ++ [last]

/-- The text with a line feed behind each line. -/
def unlines (ls : List String) : String :=
  String.ofList (ls.flatMap fun l => l.toList ++ ['\n'])

/-- Margin of `depth` levels, four spaces each. -/
def indent (depth : Nat) : String :=
  String.ofList (List.replicate (4 * depth) ' ')

/-- A text with a margin in front of it and behind each line feed. -/
def indented (margin s : String) : String :=
  margin ++ String.ofList (s.toList.flatMap fun c => if c = '\n' then c :: margin.toList else [c])

/-- The pieces between the separators, empty ones left out. -/
def pieces (isSeparator : Char → Bool) (cs : List Char) : List (List Char) :=
  (cs.splitOnP isSeparator).filter fun p => !p.isEmpty

end CallChart.Text

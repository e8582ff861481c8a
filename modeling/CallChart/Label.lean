import CallChart.Symbol
import CallChart.Text.Entity

/-!
# Labels

The text inside a node. A label names the function and, the more verbose the level, also its
class, its file and its lines (`Label.format`). What stands in a source is written with entity
codes. `Label.recommended` picks a level from how full a chart gets : the fuller, the terser.
-/

namespace CallChart

/-- How much a label says. -/
inductive Level where
  /-- The function. -/
  | minimal
  /-- And its class. -/
  | simple
  /-- And its file. -/
  | medium
  /-- And its first line. -/
  | detailed
  /-- And its last line. -/
  | verbose
  deriving DecidableEq, Inhabited

namespace Level

def all : List Level :=
  [.minimal, .simple, .medium, .detailed, .verbose]

def name : Level → String
  | .minimal => "minimal"
  | .simple => "simple"
  | .medium => "medium"
  | .detailed => "detailed"
  | .verbose => "verbose"

/-- The level of a name, whatever its case and the white space around it. A text that names no
level counts as `minimal`. -/
def ofText (s : String) : Level :=
  (all.find? fun level => Text.names level.name s).getD .minimal

/-- The class is shown. -/
def showsClass (level : Level) : Bool :=
  level != .minimal

/-- The file is shown. -/
def showsFile (level : Level) : Bool :=
  level == .medium || level == .detailed || level == .verbose

/-- The first line is shown. -/
def showsLine (level : Level) : Bool :=
  level == .detailed || level == .verbose

end Level

namespace Label

/-- Begins a new line inside a node. -/
def lineBreak : String :=
  "<br/>"

/-- The class of a symbol, unless it stands for a file. -/
def visibleClass? (s : Symbol) : Option String :=
  s.owner.filter fun owner => owner != "" && !isModuleClass owner

/-- The class and a dot. -/
def classPart (s : Symbol) : String :=
  match visibleClass? s with
  | some owner => Text.escape owner ++ "."
  | none => ""

/-- The file name on a new line. -/
def filePart (s : Symbol) : String :=
  if s.fileName = "" then "" else lineBreak ++ Text.escape s.fileName

/-- The lines of a symbol, `L` and the first one. The last one follows a hyphen if it is shown
and comes later. -/
def lineRange (level : Level) (s : Symbol) : String :=
  let first := "L" ++ Nat.repr s.firstLine.toNat
  if level = .verbose ∧ s.firstLine < s.lastLine then
    first ++ "-" ++ Nat.repr s.lastLine.toNat
  else first

/-- The lines behind the file name, or on a new line if there is none. A symbol whose first
line is zero has no known lines. -/
def linePart (level : Level) (s : Symbol) : String :=
  if s.firstLine = 0 then ""
  else (if s.fileName = "" then lineBreak else ":") ++ lineRange level s

/-- The label of a function. Without a symbol it is the short name. -/
def format (name : String) (symbol : Option Symbol) (level : Level) : String :=
  match symbol with
  | none => Text.escape (shortName name)
  | some s =>
    (if level.showsClass then classPart s else "") ++ Text.escape s.shownName ++
      (if level.showsFile then filePart s else "") ++
      (if level.showsLine then linePart level s else "")

/-- Share of the nodes allowed that `count` nodes are, in binary floating point. -/
def density (count most : Nat) : Float :=
  count.toUInt64.toFloat / most.toUInt64.toFloat

/-- The level for `count` nodes where `most` are allowed. -/
def recommended (count most : Nat) : Level :=
  if most = 0 then .minimal
  else if density count most > 0.8 then .minimal
  else if density count most > 0.5 then .simple
  else if density count most > 0.3 then .medium
  else .detailed

end Label

end CallChart

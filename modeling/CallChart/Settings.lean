import CallChart.Check
import CallChart.Palette

/-!
# Settings

The settings of a chart and their layers. A layer says some of the settings and leaves the others
open. `Settings.overlay` puts a layer on top of settings, field by field. `Settings.fault?` is
the first reason for which settings cannot be used.
-/

namespace CallChart

/-- What a chart is made to. -/
structure Settings where
  entryPoints : Nat := 10
  nodes : Nat := 100
  depth : Nat := 5
  calls : Nat := 5
  perClass : Nat := 50
  /-- `auto` or the name of a level. -/
  labelFormat : String := "auto"
  theme : String := "default"
  direction : String := "TD"
  title : String := "Code Flow"
  /-- Where paths are seen from. -/
  root : Option Path := none
  limits : Limits := {}
  deriving DecidableEq, Inhabited

/-! ## Layers -/

/-- Some of the limits. -/
structure LimitsLayer where
  nodes : Option Nat := none
  edges : Option Nat := none
  blocks : Option Nat := none
  size : Option Nat := none
  deriving DecidableEq

/-- Some of the settings. -/
structure Layer where
  entryPoints : Option Nat := none
  nodes : Option Nat := none
  depth : Option Nat := none
  calls : Option Nat := none
  perClass : Option Nat := none
  labelFormat : Option String := none
  theme : Option String := none
  direction : Option String := none
  title : Option String := none
  root : Option Path := none
  limits : LimitsLayer := {}
  deriving DecidableEq

namespace Limits

/-- What the layer says, and these limits where it says nothing. -/
def overlay (l : Limits) (layer : LimitsLayer) : Limits where
  nodes := layer.nodes.getD l.nodes
  edges := layer.edges.getD l.edges
  blocks := layer.blocks.getD l.blocks
  size := layer.size.getD l.size

end Limits

namespace Settings

/-- What the layer says, and these settings where it says nothing. -/
def overlay (s : Settings) (layer : Layer) : Settings where
  entryPoints := layer.entryPoints.getD s.entryPoints
  nodes := layer.nodes.getD s.nodes
  depth := layer.depth.getD s.depth
  calls := layer.calls.getD s.calls
  perClass := layer.perClass.getD s.perClass
  labelFormat := layer.labelFormat.getD s.labelFormat
  theme := layer.theme.getD s.theme
  direction := layer.direction.getD s.direction
  title := layer.title.getD s.title
  root := layer.root.or s.root
  limits := s.limits.overlay layer.limits

/-! ## Use -/

/-- Directions a chart may run in. -/
def directions : List String :=
  ["TD", "TB", "BT", "LR", "RL"]

/-- The caps that have to be above zero. -/
def caps (s : Settings) : List (String × Nat) :=
  [("max_entry_points", s.entryPoints), ("max_nodes", s.nodes),
    ("max_collection_depth", s.depth), ("max_calls_per_function", s.calls),
    ("max_functions_per_class", s.perClass)]

/-- The first reason for which the settings cannot be used. -/
def fault? (s : Settings) : Option SettingsFault :=
  match s.caps.find? fun cap => cap.2 == 0 with
  | some cap => some (.zero cap.1)
  | none =>
    if (Scheme.ofText? s.theme).isNone then
      some (.unknownTheme s.theme (Scheme.all.map Scheme.name))
    else if !directions.contains s.direction then
      some (.unknownDirection s.direction directions)
    else none

def validate (s : Settings) : Except Failure Unit :=
  match s.fault? with
  | some fault => .error (.settings fault)
  | none => .ok ()

/-- The level that the settings fix, if they do. -/
def level? (s : Settings) : Option Level :=
  if (Text.trim s.labelFormat.toList).map Char.toLower == "auto".toList then none
  else some (Level.ofText s.labelFormat)

/-- The scheme of the theme, the light one if there is none of its name. -/
def scheme (s : Settings) : Scheme :=
  (Scheme.ofText? s.theme).getD .light

def walkLimits (s : Settings) : WalkLimits where
  depth := s.depth
  nodes := s.nodes
  calls := s.calls

end Settings

end CallChart

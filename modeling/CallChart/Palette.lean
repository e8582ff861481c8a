import CallChart.Block

/-!
# Palettes

A scheme is a named set of colours. A palette hands them out : entry points share one colour,
other nodes get the colour of their group, and groups take the colours of the scheme in turn, in
the order in which they are first seen. Directory blocks take theirs in turn by nesting level.
-/

namespace CallChart

/-- Colours of a shape and its outline. -/
structure Swatch where
  fill : String
  stroke : String
  deriving DecidableEq, Inhabited

/-- A named set of colours. -/
structure Scheme where
  name : String
  entry : Swatch
  /-- Taken in turn by groups of nodes. -/
  nodes : List Swatch
  /-- Taken in turn by nesting levels. -/
  directories : List Swatch
  file : Swatch
  ofClass : Swatch
  text : String
  deriving DecidableEq

namespace Scheme

def light : Scheme where
  name := "default"
  entry := ⟨"#a6e3a1", "#40a02b"⟩
  nodes := [⟨"#89b4fa", "#1e66f5"⟩, ⟨"#f9e2af", "#df8e1d"⟩, ⟨"#cba6f7", "#8839ef"⟩,
    ⟨"#f38ba8", "#d20f39"⟩, ⟨"#94e2d5", "#179299"⟩, ⟨"#fab387", "#fe640b"⟩]
  directories := [⟨"#eff1f5", "#9ca0b0"⟩, ⟨"#e6e9ef", "#8c8fa1"⟩, ⟨"#dce0e8", "#7c7f93"⟩]
  file := ⟨"#f5f5fa", "#6c7086"⟩
  ofClass := ⟨"#fdfdfd", "#acb0be"⟩
  text := "#4c4f69"

def dark : Scheme where
  name := "dark"
  entry := ⟨"#40a02b", "#a6e3a1"⟩
  nodes := [⟨"#1e66f5", "#89b4fa"⟩, ⟨"#8839ef", "#cba6f7"⟩, ⟨"#179299", "#94e2d5"⟩,
    ⟨"#d20f39", "#f38ba8"⟩]
  directories := [⟨"#1e1e2e", "#585b70"⟩, ⟨"#181825", "#45475a"⟩]
  file := ⟨"#313244", "#6c7086"⟩
  ofClass := ⟨"#45475a", "#7f849c"⟩
  text := "#cdd6f4"

def pastel : Scheme where
  name := "pastel"
  entry := ⟨"#c1f0c1", "#5cb85c"⟩
  nodes := [⟨"#cde7f7", "#6baed6"⟩, ⟨"#fde2e4", "#e07a8b"⟩, ⟨"#fff1c1", "#d9b44a"⟩,
    ⟨"#e2d9f3", "#9a82c9"⟩]
  directories := [⟨"#fafafa", "#bdbdbd"⟩]
  file := ⟨"#ffffff", "#cfcfcf"⟩
  ofClass := ⟨"#ffffff", "#e0e0e0"⟩
  text := "#333333"

def mono : Scheme where
  name := "mono"
  entry := ⟨"#d0d0d0", "#000000"⟩
  nodes := [⟨"#ffffff", "#333333"⟩]
  directories := [⟨"#f7f7f7", "#666666"⟩]
  file := ⟨"#ffffff", "#888888"⟩
  ofClass := ⟨"#ffffff", "#aaaaaa"⟩
  text := "#000000"

def all : List Scheme :=
  [light, dark, pastel, mono]

/-- The scheme of a name, whatever its case and the white space around it. -/
def ofText? (s : String) : Option Scheme :=
  all.find? fun scheme => Text.names scheme.name s

end Scheme

/-- The swatch at place `k` of swatches that come round again. -/
def rotate (swatches : List Swatch) (k : Nat) : Swatch :=
  (swatches[k % swatches.length]?).getD default

/-- A scheme and the groups of nodes that were seen, in order. -/
structure Palette where
  scheme : Scheme
  groups : List String := []

namespace Palette

/-- The place of a group, a new one behind the others, and the groups with it. -/
def slot (groups : List String) (group : String) : Nat × List String :=
  match groups.idxOf? group with
  | some k => (k, groups)
  | none => (groups.length, groups ++ [group])

def nodeLine (p : Palette) (id : String) (swatch : Swatch) (width : String) : String :=
  "style " ++ id ++ " fill:" ++ swatch.fill ++ ",stroke:" ++ swatch.stroke ++ ",stroke-width:" ++
    width ++ "px,color:" ++ p.scheme.text

/-- The style line of a node, and the palette after it. An entry point takes no part in the
turns of the groups. -/
def nodeStyle (p : Palette) (id group : String) (isEntry : Bool) : String × Palette :=
  if isEntry then (p.nodeLine id p.scheme.entry "3", p)
  else
    match slot p.groups group with
    | (k, groups) => (p.nodeLine id (rotate p.scheme.nodes k) "1", { p with groups := groups })

/-- The style lines of nodes one after another. -/
def nodeStyles : Palette → List (String × String × Bool) → List String
  | _, [] => []
  | p, (id, group, isEntry) :: nodes =>
    match p.nodeStyle id group isEntry with
    | (line, p) => line :: nodeStyles p nodes

def blockSwatch (p : Palette) (kind : BlockKind) (level : Nat) : Swatch :=
  match kind with
  | .ofDirectory => rotate p.scheme.directories level
  | .ofFile => p.scheme.file
  | .ofClass => p.scheme.ofClass

/-- The style line of a block. The outline of a class is dashed. -/
def blockStyle (p : Palette) (id : String) (kind : BlockKind) (level : Nat) : String :=
  let swatch := p.blockSwatch kind level
  "style " ++ id ++ " fill:" ++ swatch.fill ++ ",stroke:" ++ swatch.stroke ++
    (if kind = .ofClass then ",stroke-dasharray:4 2" else "")

end Palette

end CallChart

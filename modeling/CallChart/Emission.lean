import CallChart.Block

/-!
# Emission

The blocks of a grouping written one line after another. An `Emission` is what has been written :
the lines, a record of each block that was opened, and the ids of the nodes. The record of a block
is entered when the block is opened ; the nodes that stand in it are entered in the record after
they were written, when other blocks may have been opened, so a block is known by the place of its
record.

`Item.layout` makes a tree of the same blocks, and lists its lines, records and ids.
-/

namespace CallChart

/-- Enter nodes in a record, behind the others. -/
def BlockInfo.enter (ids : List String) (b : BlockInfo) : BlockInfo :=
  { b with nodeIds := b.nodeIds ++ ids }

/-- What has been written. -/
structure Emission where
  lines : List String := []
  blocks : List BlockInfo := []
  nodeIds : List String := []
  deriving DecidableEq

namespace Emission

/-- Open a block. The answer is the place of its record. -/
def openBlock (kind : BlockKind) (id name : String) (depth : Nat) (parent : Option String)
    (out : Emission) : Nat × Emission :=
  (out.blocks.length, { out with
    lines := out.lines ++ [Item.openingLine depth kind id name]
    blocks := out.blocks ++ [⟨id, kind, name, depth - 1, parent, []⟩] })

def closeBlock (depth : Nat) (out : Emission) : Emission :=
  { out with lines := out.lines ++ [Item.closingLine depth] }

/-- Enter nodes in the record at `place`. -/
def enter (place : Nat) (ids : List String) (out : Emission) : Emission :=
  { out with blocks := out.blocks.modify place (BlockInfo.enter ids) }

def writeNode (depth : Nat) (id label : String) (out : Emission) : Emission :=
  { out with
    lines := out.lines ++ [Item.nodeLine depth id label]
    nodeIds := out.nodeIds ++ [id] }

/-- Write the nodes of functions, less those that are not enrolled. The answer is their ids. -/
def functions (r : Roster) (depth : Nat) : List String → Emission → List String × Emission
  | [], out => ([], out)
  | name :: names, out =>
    match r.id? name with
    | none => functions r depth names out
    | some id =>
      match functions r depth names (out.writeNode depth id ((r.label? id).getD "")) with
      | (ids, out) => (id :: ids, out)

/-- Write the class at place `k` of a file, in a block of its own or among the nodes of the file,
whose record is at `place`. -/
def ofClass (r : Roster) (most depth : Nat) (wraps : Bool) (file : String) (place k : Nat)
    (name : String) (names : List String) (out : Emission) : Emission :=
  if wraps && !isModuleClass name then
    match out.openBlock .ofClass (classId file k) name (depth + 1) (some file) with
    | (own, out) =>
      match functions r (depth + 2) (names.take most) out with
      | (ids, out) => (out.enter own ids).closeBlock (depth + 1)
  else
    match functions r (depth + 1) (names.take most) out with
    | (ids, out) => out.enter place ids

/-- Write the classes of a file from place `k` on. -/
def classes (r : Roster) (most depth : Nat) (wraps : Bool) (file : String) (place : Nat) :
    (k : Nat) → Classes → Emission → Emission
  | _, [], out => out
  | k, (name, names) :: rest, out =>
    classes r most depth wraps file place (k + 1) rest
      (ofClass r most depth wraps file place k name names out)

/-- Write a file. -/
def file (r : Roster) (most depth : Nat) (parent : Option String) (id stem : String)
    (owners : Classes) (out : Emission) : Emission :=
  match out.openBlock .ofFile id stem depth parent with
  | (place, out) =>
    (classes r most depth (Item.wrapsClasses owners) id place 0 owners out).closeBlock depth

/-- Write the files that have functions. -/
def files (r : Roster) (most depth : Nat) (parent : Option String) :
    Numbering → Emission → Entries Classes → Emission × Numbering
  | c, out, [] => (out, c)
  | c, out, (stem, owners) :: rest =>
    if Grouping.fileHasFunctions owners then
      match c.nextFile with
      | (id, c) => files r most depth parent c (file r most depth parent id stem owners out) rest
    else files r most depth parent c out rest

mutual

/-- Write a level, files before directories. -/
def level (r : Roster) (most depth : Nat) (parent : Option String) (c : Numbering)
    (out : Emission) : Grouping → Emission × Numbering
  | .level stems subdirectories =>
    match files r most depth parent c out stems with
    | (out, c) => directories r most depth parent c out subdirectories

/-- Write the directories that have functions. -/
def directories (r : Roster) (most depth : Nat) (parent : Option String) (c : Numbering)
    (out : Emission) : List (String × Grouping) → Emission × Numbering
  | [] => (out, c)
  | (name, g) :: rest =>
    if g.hasFunctions then
      match c.nextDirectory with
      | (id, c) =>
        match out.openBlock .ofDirectory id name depth parent with
        | (_, out) =>
          match level r most (depth + 1) (some id) c out g with
          | (out, c) => directories r most depth parent c (out.closeBlock depth) rest
    else directories r most depth parent c out rest

end

/-- Write a grouping one level in, and nothing if it has no function. -/
def ofGrouping (r : Roster) (most : Nat) (c : Numbering) (g : Grouping) : Emission × Numbering :=
  if g.hasFunctions then level r most 1 none c {} g else ({}, c)

/-- Write groupings one after another, each with the nodes of its roster. The numbering goes on
from one to the next. -/
def ofGroupings (most : Nat) : Numbering → List (Roster × Grouping) → List Emission × Numbering
  | c, [] => ([], c)
  | c, (r, g) :: builds =>
    match ofGrouping r most c g with
    | (out, c) =>
      match ofGroupings most c builds with
      | (outs, c) => (out :: outs, c)

/-- The ids of the blocks that were opened. -/
def blockIds (out : Emission) : List String :=
  out.blocks.map BlockInfo.id

end Emission

end CallChart

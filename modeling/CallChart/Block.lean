import CallChart.Grouping
import CallChart.Roster
import CallChart.Text.Lines

/-!
# Blocks

A chart shows a grouping as nested blocks, for directories, files and classes, with the nodes of
the collected functions inside. `Item.layout` makes the blocks of a grouping ; a branch without
functions makes none. Classes get blocks of their own where a file has several proper classes.
Of each class the first few functions are shown, if they are enrolled.

`Item.allLines` are the lines of the blocks, `Item.allInfos` a record of each block and
`Item.allNodeIds` the ids of the nodes, all in the order of the lines.
-/

namespace CallChart

/-- What a block stands for. -/
inductive BlockKind where
  | ofDirectory | ofFile | ofClass
  deriving DecidableEq

namespace BlockKind

/-- How the title of a block begins. -/
def title : BlockKind → String
  | .ofDirectory => "DIR"
  | .ofFile => "FILE"
  | .ofClass => "CLASS"

def name : BlockKind → String
  | .ofDirectory => "directory"
  | .ofFile => "file"
  | .ofClass => "class"

end BlockKind

/-! ## Ids -/

/-- How many directory and file blocks have got an id. -/
structure Numbering where
  directories : Nat := 0
  files : Nat := 0
  deriving DecidableEq, Inhabited

def directoryId (k : Nat) : String :=
  "dir_" ++ Nat.repr k

def fileId (k : Nat) : String :=
  "file_" ++ Nat.repr k

/-- The id of the class at place `k` of a file. -/
def classId (file : String) (k : Nat) : String :=
  file ++ "_" ++ Nat.repr k

namespace Numbering

def nextDirectory (c : Numbering) : String × Numbering :=
  (directoryId (c.directories + 1), { c with directories := c.directories + 1 })

def nextFile (c : Numbering) : String × Numbering :=
  (fileId (c.files + 1), { c with files := c.files + 1 })

end Numbering

/-! ## Items -/

/-- What stands on one level of a chart. -/
inductive Item where
  | node (id label : String)
  | block (kind : BlockKind) (id name : String) (items : List Item)
  deriving Inhabited

/-- What is known of a block. -/
structure BlockInfo where
  id : String
  kind : BlockKind
  name : String
  /-- Blocks around it. -/
  level : Nat
  parent : Option String
  /-- Nodes that stand directly in it. -/
  nodeIds : List String
  deriving DecidableEq

namespace BlockInfo

/-- The fields of a block's record. -/
def fields (b : BlockInfo) : Json :=
  .object [("kind", .text b.kind.name), ("name", .text b.name), ("level", .ofNat b.level),
    ("parent", .ofText? b.parent), ("nodes", .array (b.nodeIds.map .text))]

end BlockInfo

namespace Item

/-! ## Layout -/

/-- The nodes of the first `most` functions, less those that are not enrolled. -/
def nodesOf (r : Roster) (most : Nat) (functions : List String) : List Item :=
  (functions.take most).filterMap fun name =>
    (r.id? name).map fun id => .node id ((r.label? id).getD "")

/-- Whether the classes of a file get blocks. -/
def wrapsClasses (classes : Classes) : Bool :=
  1 < (classes.filter fun c => !isModuleClass c.1).length

/-- The items of a file. -/
def ofClasses (r : Roster) (most : Nat) (file : String) (classes : Classes) : List Item :=
  classes.zipIdx.flatMap fun p =>
    let nodes := nodesOf r most p.1.2
    if wrapsClasses classes && !isModuleClass p.1.1 then
      [.block .ofClass (classId file p.2) p.1.1 nodes]
    else nodes

/-- The blocks of the files that have functions. -/
def ofFiles (r : Roster) (most : Nat) : Numbering → Entries Classes → List Item × Numbering
  | c, [] => ([], c)
  | c, (stem, classes) :: files =>
    if Grouping.fileHasFunctions classes then
      match c.nextFile with
      | (id, c) =>
        match ofFiles r most c files with
        | (items, c) => (.block .ofFile id stem (ofClasses r most id classes) :: items, c)
    else ofFiles r most c files

mutual

/-- The blocks of a level, files before directories. -/
def layout (r : Roster) (most : Nat) (c : Numbering) : Grouping → List Item × Numbering
  | .level files directories =>
    match ofFiles r most c files with
    | (fileItems, c) =>
      match ofDirectories r most c directories with
      | (directoryItems, c) => (fileItems ++ directoryItems, c)

/-- The blocks of the directories that have functions. -/
def ofDirectories (r : Roster) (most : Nat) (c : Numbering) :
    List (String × Grouping) → List Item × Numbering
  | [] => ([], c)
  | (name, g) :: rest =>
    if g.hasFunctions then
      match c.nextDirectory with
      | (id, c) =>
        match layout r most c g with
        | (items, c) =>
          match ofDirectories r most c rest with
          | (others, c) => (.block .ofDirectory id name items :: others, c)
    else ofDirectories r most c rest

end

/-! ## Lines, records and ids -/

/-- The line of a node. -/
def nodeLine (depth : Nat) (id label : String) : String :=
  Text.indent depth ++ id ++ "[\"" ++ label ++ "\"]"

/-- The line that opens a block. -/
def openingLine (depth : Nat) (kind : BlockKind) (id name : String) : String :=
  Text.indent depth ++ "subgraph " ++ id ++ "[\"" ++ kind.title ++ ": " ++ Text.escape name ++ "\"]"

/-- The line that closes a block. -/
def closingLine (depth : Nat) : String :=
  Text.indent depth ++ "end"

mutual

/-- The lines of an item, `depth` levels in. -/
def lines (depth : Nat) : Item → List String
  | .node id label => [nodeLine depth id label]
  | .block kind id name items =>
    openingLine depth kind id name :: (allLines (depth + 1) items ++ [closingLine depth])

def allLines (depth : Nat) : List Item → List String
  | [] => []
  | item :: items => lines depth item ++ allLines depth items

end

/-- The id of a node. -/
def nodeId? : Item → Option String
  | .node id _ => some id
  | .block .. => none

mutual

/-- The records of an item's blocks inside `level` blocks, the innermost being `parent`. -/
def infos (level : Nat) (parent : Option String) : Item → List BlockInfo
  | .node .. => []
  | .block kind id name items =>
    ⟨id, kind, name, level, parent, items.filterMap nodeId?⟩ ::
      allInfos (level + 1) (some id) items

def allInfos (level : Nat) (parent : Option String) : List Item → List BlockInfo
  | [] => []
  | item :: items => infos level parent item ++ allInfos level parent items

end

mutual

/-- The ids of an item's nodes. -/
def nodeIds : Item → List String
  | .node id _ => [id]
  | .block _ _ _ items => allNodeIds items

def allNodeIds : List Item → List String
  | [] => []
  | item :: items => nodeIds item ++ allNodeIds items

end

end Item

end CallChart

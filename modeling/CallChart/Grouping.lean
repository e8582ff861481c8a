import CallChart.Keyed
import CallChart.Symbol

/-!
# Grouping

The collected functions grouped by directory, file and class. A grouping is a tree : one level
has files, each with classes, each with functions, and subdirectories that are groupings again.
Everything stands in the order in which it first appeared. The directories of a function are
those of its path seen from the root of the project ; its file and class are told by the path as
it is.
-/

namespace CallChart

/-- Classes of a file, each with its functions. -/
abbrev Classes := Entries (List String)

/-- One directory level. -/
inductive Grouping where
  | level (files : Entries Classes) (directories : List (String × Grouping))
  deriving Inhabited

namespace Grouping

def files : Grouping → Entries Classes
  | .level files _ => files

def directories : Grouping → List (String × Grouping)
  | .level _ directories => directories

def empty : Grouping :=
  .level [] []

/-- Change the files of the level that the directories `path` lead to. Levels that are not
there are entered. -/
def updateFiles (f : Entries Classes → Entries Classes) : List String → Grouping → Grouping
  | [], .level files directories => .level (f files) directories
  | d :: path, .level files directories =>
    .level files (Entries.alter d (fun sub => updateFiles f path (sub.getD empty)) directories)

/-- Change the functions of a class of a file. A file and a class that are not there are
entered. -/
def updateClass (file owner : String) (f : List String → List String) :
    Entries Classes → Entries Classes :=
  Entries.alter file fun classes =>
    Entries.alter owner (fun functions => f (functions.getD [])) (classes.getD [])

/-- The steps of a symbol's path, seen from the root of the project if it lies below it. -/
def stepsFrom (root : Option Path) (p : Path) : List Component :=
  match root.bind p.stepsUnder? with
  | some steps => steps
  | none => p.components

/-- The directories of a symbol's file. -/
def directoriesOf (root : Option Path) (s : Symbol) : List String :=
  Path.directoryNames (stepsFrom root s.path)

/-- Enter a function behind the others of its class. -/
def insert (root : Option Path) (g : Grouping) (s : Symbol) : Grouping :=
  g.updateFiles (updateClass s.fileStem s.groupingClass fun functions => functions ++ [s.name])
    (directoriesOf root s)

/-- The grouping of functions entered one after another. -/
def ofSymbols (root : Option Path) (symbols : List Symbol) : Grouping :=
  symbols.foldl (insert root) empty

/-- Enter directories, and in the last one a file, and in that a class, without functions.
What is there already stays. -/
def reserve (g : Grouping) (path : List String) (file owner : Option String) : Grouping :=
  g.updateFiles
    (fun files =>
      match file, owner with
      | none, _ => files
      | some file, none => Entries.alter file (fun classes => classes.getD []) files
      | some file, some owner => updateClass file owner id files)
    path

/-! ## Functions in a grouping -/

/-- Whether a file has a function. -/
def fileHasFunctions (classes : Classes) : Bool :=
  classes.any fun c => !c.2.isEmpty

/-- How many functions a file has. -/
def fileFunctionCount : Classes → Nat
  | [] => 0
  | (_, functions) :: classes => functions.length + fileFunctionCount classes

/-- How many functions files have. -/
def filesFunctionCount : Entries Classes → Nat
  | [] => 0
  | (_, classes) :: files => fileFunctionCount classes + filesFunctionCount files

mutual

/-- Whether there is a function on this level or below. -/
def hasFunctions : Grouping → Bool
  | .level files directories => files.any (fun f => fileHasFunctions f.2) || anyHave directories

def anyHave : List (String × Grouping) → Bool
  | [] => false
  | (_, g) :: rest => g.hasFunctions || anyHave rest

end

mutual

/-- How many functions there are on this level and below. -/
def functionCount : Grouping → Nat
  | .level files directories => filesFunctionCount files + totalCount directories

def totalCount : List (String × Grouping) → Nat
  | [] => 0
  | (_, g) :: rest => g.functionCount + totalCount rest

end

mutual

/-- The grouping without the directories, files and classes that have no function below. -/
def pruned : Grouping → Grouping
  | .level files directories =>
    .level
      ((files.map fun f => (f.1, f.2.filter fun c => !c.2.isEmpty)).filter fun f => !f.2.isEmpty)
      (prunedDirectories directories)

def prunedDirectories : List (String × Grouping) → List (String × Grouping)
  | [] => []
  | (name, g) :: rest =>
    if g.hasFunctions then (name, g.pruned) :: prunedDirectories rest else prunedDirectories rest

end

end Grouping

end CallChart

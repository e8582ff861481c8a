import CallChart.Path

/-!
# File trees

A file tree says which files and directories there are, each under the names that lead to it
from the top. Paths are looked up step by step : a step leads out of a directory only, two dots
lead one level up, and a path that does not begin with a slash begins at `here`. A path has less
than 4096 bytes and a name in it at most 255. Reading and writing fail as they do on a disk, and
`makeDirectories` enters the directories that are missing on the way to one.

A file holds a Unicode text. Files of other bytes, links and permissions are left out.
-/

namespace CallChart

/-- Why a file cannot be read or written. -/
inductive FileFault where
  | notFound | exists | notDirectory | isDirectory | nameTooLong
  deriving DecidableEq

namespace FileFault

def message : FileFault → String
  | .notFound => "No such file or directory (os error 2)"
  | .exists => "File exists (os error 17)"
  | .notDirectory => "Not a directory (os error 20)"
  | .isDirectory => "Is a directory (os error 21)"
  | .nameTooLong => "File name too long (os error 36)"

end FileFault

/-- What there is under a name. -/
inductive FileEntry where
  | directory
  | file (text : String)
  deriving DecidableEq

/-- Names that lead to a place from the top. -/
abbrev Place := List String

/-- Files and directories by place. -/
structure FileTree where
  entries : List (Place × FileEntry) := []
  /-- Where paths without a leading slash begin. -/
  here : Place := []
  deriving DecidableEq

namespace FileTree

def entry? (t : FileTree) (p : Place) : Option FileEntry :=
  if p = [] then some .directory else t.entries.lookup p

def isDirectoryAt (t : FileTree) (p : Place) : Bool :=
  t.entry? p == some .directory

/-- Change what there is at a place. -/
def put (t : FileTree) (p : Place) (e : FileEntry) : FileTree :=
  { t with entries := (t.entries.filter fun old => old.1 != p) ++ [(p, e)] }

/-! ## Looking up -/

/-- The most bytes that a name may have. -/
def mostNameBytes : Nat :=
  255

/-- The most bytes that a path may have. -/
def mostPathBytes : Nat :=
  4095

/-- What there is under a name in a directory, if there is anything. -/
def look (t : FileTree) (directory : Place) (name : String) :
    Except FileFault (Option FileEntry) :=
  if mostNameBytes < name.utf8ByteSize then .error .nameTooLong
  else .ok (t.entry? (directory ++ [name]))

/-- The place that steps lead to, which has to be there. -/
def walk (t : FileTree) : Place → List String → Except FileFault Place
  | p, [] => .ok p
  | p, step :: steps =>
    if !t.isDirectoryAt p then .error .notDirectory
    else if step = "" ∨ step = "." then walk t p steps
    else if step = ".." then walk t p.dropLast steps
    else
      match t.look p step with
      | .error fault => .error fault
      | .ok none => .error .notFound
      | .ok (some _) => walk t (p ++ [step]) steps

/-- Where a path begins. -/
def start (t : FileTree) (p : Path) : Place :=
  if p.isAbsolute then [] else t.here

/-- What the last step of a path means. -/
inductive Target where
  /-- A directory : the path ends in dots or is a slash. -/
  | directory
  /-- A name in a directory. The path may end in slashes. -/
  | named (directory : Place) (name : String) (slashed : Bool)

/-- The target of a path, whose last step need not be there. -/
def target (t : FileTree) (p : Path) : Except FileFault Target :=
  if p.text = "" then .error .notFound
  else if mostPathBytes < p.text.utf8ByteSize then .error .nameTooLong
  else
    let steps := (p.segments.reverse.dropWhile (· = "")).reverse
    let slashed := steps.length < p.segments.length
    match steps.getLast? with
    | none => .ok .directory
    | some last => do
      if last = "." ∨ last = ".." then
        let place ← t.walk (t.start p) steps
        if t.isDirectoryAt place then return .directory else throw .notDirectory
      let place ← t.walk (t.start p) steps.dropLast
      if !t.isDirectoryAt place then throw .notDirectory
      return .named place last slashed

/-- The text of a file. -/
def read (t : FileTree) (p : Path) : Except FileFault String := do
  match ← t.target p with
  | .directory => throw .isDirectory
  | .named directory name slashed =>
    match ← t.look directory name with
    | none => throw .notFound
    | some .directory => throw .isDirectory
    | some (.file text) => if slashed then throw .notDirectory else return text

/-- A path leads to a directory. -/
def hasDirectory (t : FileTree) (p : Path) : Bool :=
  match t.target p with
  | .error _ => false
  | .ok .directory => true
  | .ok (.named directory name _) => t.isDirectoryAt (directory ++ [name])

/-! ## Changing -/

/-- Enter one directory, in a directory that is there. -/
def makeDirectory (t : FileTree) (p : Path) : Except FileFault FileTree := do
  match ← t.target p with
  | .directory => throw .exists
  | .named directory name _ =>
    match ← t.look directory name with
    | some _ => throw .exists
    | none => return t.put (directory ++ [name]) .directory

/-- Enter a directory and those on the way to it, nearest first. The tree that a failure leaves
has the directories that were entered before it. -/
def makeDirectories (t : FileTree) : List Path → FileTree × Option FileFault
  | [] => (t, none)
  | p :: above =>
    let settle (t : FileTree) (fault : FileFault) : FileTree × Option FileFault :=
      if t.hasDirectory p then (t, none) else (t, some fault)
    match t.makeDirectory p with
    | .ok t => (t, none)
    | .error .notFound =>
      match makeDirectories t above with
      | (t, some fault) => (t, some fault)
      | (t, none) =>
        match t.makeDirectory p with
        | .ok t => (t, none)
        | .error fault => settle t fault
    | .error fault => settle t fault

/-- Write a file in a directory that is there. -/
def writeFile (t : FileTree) (p : Path) (text : String) : Except FileFault FileTree := do
  match ← t.target p with
  | .directory => throw .isDirectory
  | .named directory name slashed =>
    if slashed then throw .isDirectory
    match ← t.look directory name with
    | some .directory => throw .isDirectory
    | _ => return t.put (directory ++ [name]) (.file text)

/-- Write a file. The directories on the way to it are entered first. -/
def write (t : FileTree) (p : Path) (text : String) : FileTree × Option FileFault :=
  match t.makeDirectories p.enclosing with
  | (t, some fault) => (t, some fault)
  | (t, none) =>
    match t.writeFile p text with
    | .ok t => (t, none)
    | .error fault => (t, some fault)

/-- A tree with a file at each place, and the directories that lead there. -/
def ofFiles (here : Place) (files : List (Path × String)) : FileTree :=
  let top := here.foldl (fun t name => { (t.put (t.here ++ [name]) .directory) with
    here := t.here ++ [name] }) {}
  files.foldl (fun t f => (t.write f.1 f.2).1) top

/-- The files below `here`, with the names that lead to them from there. -/
def filesHere (t : FileTree) : List (Place × String) :=
  t.entries.filterMap fun e =>
    match e.2 with
    | .file text =>
      if t.here.isPrefixOf e.1 then some (e.1.drop t.here.length, text) else none
    | .directory => none

end FileTree

end CallChart

import CallChart.Text.Lines

/-!
# Paths

A path is a text that slashes divide into segments. `components` reads it : repeated slashes
count once, a dot counts only in front, two dots are a component of their own. The file name
is the last component if that is a plain name, the stem is the file name up to its last dot.
`withExtension` and `enclosing` work on the text and keep the spelling of the directories.

Every path here is a Unicode text, which stands for itself. Names that are no Unicode text, as a
file system may hold them, are left out, and with them the lossy text that such a name is shown by.
-/

namespace CallChart

/-- A path as it was written. -/
structure Path where
  text : String
  deriving DecidableEq, Inhabited

/-- What one step of a path says. -/
inductive Component where
  /-- The leading slash. -/
  | root
  /-- A leading dot. -/
  | here
  /-- Two dots. -/
  | up
  /-- A plain name. -/
  | name (s : String)
  deriving DecidableEq

namespace Component

def name? : Component → Option String
  | .name s => some s
  | _ => none

end Component

/-- A file name cut at its last dot. No dot, or none but the first character, leaves the whole
name and no extension. -/
def splitExtension (name : String) : String × Option String :=
  let ext := (name.toList.reverse.takeWhile (· != '.')).reverse
  let stem := (name.toList.reverse.dropWhile (· != '.')).drop 1 |>.reverse
  if stem.isEmpty then (name, none) else (String.ofList stem, some (String.ofList ext))

namespace Path

def segments (p : Path) : List String :=
  (p.text.toList.splitOn '/').map String.ofList

def isAbsolute (p : Path) : Bool :=
  p.text.toList.head? == some '/'

/-- What a segment that is not the first one says. -/
def innerComponent? (segment : String) : Option Component :=
  if segment = "" ∨ segment = "." then none
  else if segment = ".." then some .up
  else some (.name segment)

/-- The steps of a path. -/
def components (p : Path) : List Component :=
  match p.segments with
  | [] => []
  | first :: rest =>
    let inner := rest.filterMap innerComponent?
    if first = "" then (if p.isAbsolute then .root :: inner else inner)
    else if first = "." then .here :: inner
    else (innerComponent? first).toList ++ inner

/-- The last step, if it is a plain name. -/
def fileName? (p : Path) : Option String :=
  p.components.getLast?.bind Component.name?

/-- The file name up to its last dot. -/
def stem? (p : Path) : Option String :=
  p.fileName?.map fun name => (splitExtension name).1

/-- The plain names of the directories that lead to the last step. -/
def directoryNames (steps : List Component) : List String :=
  steps.dropLast.filterMap Component.name?

/-- The steps that follow those of `root`, if the path begins with them all. -/
def stepsUnder? (p root : Path) : Option (List Component) :=
  if root.components.isPrefixOf p.components then
    some (p.components.drop root.components.length)
  else none

/-- `p` seen from the directory `base`. -/
def join (base p : Path) : Path :=
  if p.isAbsolute then p
  else if base.text.toList.getLast?.all (· == '/') then ⟨base.text ++ p.text⟩
  else ⟨base.text ++ "/" ++ p.text⟩

/-! ## Directories on the way -/

/-- The path of a directory, from its first segment and the others. -/
def ofSegments (first : String) (inner : List String) : Path :=
  if first = "" ∧ inner = [] then ⟨"/"⟩ else ⟨"/".intercalate (first :: inner)⟩

/-- The directories that lead to the last of some segments behind `first`, the nearest one
first. The segments come last first. -/
def enclosingOf (first : String) : List String → List Path
  | [] => []
  | segment :: before =>
    if (innerComponent? segment).isNone then enclosingOf first before
    else
      let kept := before.dropWhile fun s => (innerComponent? s).isNone
      ofSegments first kept.reverse :: enclosingOf first before

/-- The directories that lead to the last step of a path, the nearest one first, each spelled as
it is there. -/
def enclosing (p : Path) : List Path :=
  match p.segments with
  | [] => []
  | first :: inner => enclosingOf first inner.reverse

/-! ## Another extension -/

/-- The segments up to the one that the file name is in : slashes and dots behind it are
passed over. -/
def nameSegments (p : Path) : List String :=
  (p.segments.reverse.dropWhile fun s => s = "" ∨ s = ".").reverse

/-- The text up to the end of the stem, or nothing if there is no file name. -/
def textToStem? (p : Path) : Option String :=
  p.stem?.map fun stem => "/".intercalate (p.nameSegments.dropLast ++ [stem])

/-- The text less as many characters at its end as the extension has. -/
def dropExtension (p : Path) : Path :=
  match p.fileName?.bind fun name => (splitExtension name).2 with
  | none => p
  | some ext => ⟨String.ofList (p.text.toList.take (p.text.length - ext.length))⟩

/-- The path with `ext` in place of its extension : the old extension goes first, then the text
ends behind the stem of the file name that is left. A text that is left without a file name
stays as it is. -/
def withExtension (p : Path) (ext : String) : Path :=
  match p.dropExtension.textToStem? with
  | none => p.dropExtension
  | some front => ⟨front ++ "." ++ ext⟩

end Path

end CallChart

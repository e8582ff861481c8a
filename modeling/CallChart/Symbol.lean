import CallChart.Path

/-!
# Symbols

A symbol is what is known of one function. Its `name` is qualified, segments divided by dots or
colons ; `shortName` is the last segment. For drawing, a symbol belongs to the file its path
names and to a class there : its own class, or the class `module_` followed by the file stem if
it has none (`groupingClass`). A symbol table holds symbols of distinct names in the order in
which the names came.
-/

namespace CallChart

/-- A function of the program that is drawn. -/
structure Symbol where
  /-- Qualified name. -/
  name : String := ""
  displayName : Option String := none
  /-- The class it is a method of. -/
  owner : Option String := none
  path : Path := ⟨""⟩
  firstLine : UInt32 := 0
  lastLine : UInt32 := 0
  scope : Option String := none
  /-- Declared to be an entry point. -/
  isEntry : Bool := false
  deriving DecidableEq, Inhabited

/-- The last segment of a qualified name, the whole name if it has no segment. -/
def shortName (name : String) : String :=
  match (Text.pieces (fun c => c == '.' || c == ':') name.toList).getLast? with
  | some segment => String.ofList segment
  | none => name

/-- How the names of classes that stand for a file begin. -/
def moduleMark : String :=
  "module_"

/-- Whether a class stands for the free functions of a file. -/
def isModuleClass (name : String) : Bool :=
  Text.beginsWith moduleMark.toList name.toList

namespace Symbol

/-- The name to show. -/
def shownName (s : Symbol) : String :=
  s.displayName.getD (shortName s.name)

/-- The file name up to its last dot, `unknown` if the path has no file name. -/
def fileStem (s : Symbol) : String :=
  s.path.stem?.getD "unknown"

/-- The file name, empty if the path has none. -/
def fileName (s : Symbol) : String :=
  s.path.fileName?.getD ""

/-- The class under which the function is drawn. -/
def groupingClass (s : Symbol) : String :=
  match s.owner with
  | some owner => if owner = "" then moduleMark ++ s.fileStem else owner
  | none => moduleMark ++ s.fileStem

end Symbol

/-! ## Tables -/

/-- The names of symbols. -/
def symbolNames (symbols : List Symbol) : List String :=
  symbols.map Symbol.name

/-- Put `s` in the place of the symbol of its name, or at the end. -/
def putSymbol (s : Symbol) : List Symbol → List Symbol
  | [] => [s]
  | t :: ts => if t.name = s.name then s :: ts else t :: putSymbol s ts

/-- A name that is there keeps its place, a new one goes to the end. -/
theorem symbolNames_putSymbol (s : Symbol) (ts : List Symbol) :
    symbolNames (putSymbol s ts) =
      if s.name ∈ symbolNames ts then symbolNames ts else symbolNames ts ++ [s.name] := by
  unfold symbolNames
  induction ts with
  | nil => simp [putSymbol]
  | cons t ts ih =>
    by_cases h : t.name = s.name
    · simp [putSymbol, h]
    · rw [putSymbol, if_neg h, List.map_cons, ih, List.map_cons]
      by_cases hs : s.name ∈ ts.map Symbol.name
      · rw [if_pos hs, if_pos (List.mem_cons_of_mem _ hs)]
      · rw [if_neg hs, if_neg (by simp [Ne.symm h, hs]), List.cons_append]

theorem nodup_symbolNames_putSymbol {s : Symbol} {ts : List Symbol}
    (h : (symbolNames ts).Nodup) : (symbolNames (putSymbol s ts)).Nodup := by
  rw [symbolNames_putSymbol]
  split
  · exact h
  · next hs => exact List.nodup_append.2 ⟨h, by simp, by grind⟩

/-- Symbols of distinct names, in the order in which the names came. -/
structure SymbolTable where
  symbols : List Symbol := []
  nodup_names : (symbolNames symbols).Nodup := by exact List.nodup_nil

namespace SymbolTable

instance : Inhabited SymbolTable :=
  ⟨{}⟩

@[ext]
theorem ext {t u : SymbolTable} (h : t.symbols = u.symbols) : t = u := by
  cases t
  cases u
  simp_all

instance : DecidableEq SymbolTable := fun t u =>
  decidable_of_iff (t.symbols = u.symbols) ⟨ext, fun h => h ▸ rfl⟩

def insert (t : SymbolTable) (s : Symbol) : SymbolTable :=
  ⟨putSymbol s t.symbols, nodup_symbolNames_putSymbol t.nodup_names⟩

def ofList (symbols : List Symbol) : SymbolTable :=
  symbols.foldl insert {}

def get? (t : SymbolTable) (name : String) : Option Symbol :=
  t.symbols.find? fun s => s.name = name

def names (t : SymbolTable) : List String :=
  symbolNames t.symbols

def size (t : SymbolTable) : Nat :=
  t.symbols.length

def isEmpty (t : SymbolTable) : Bool :=
  t.symbols.isEmpty

end SymbolTable

end CallChart

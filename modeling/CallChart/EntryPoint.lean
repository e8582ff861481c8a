import CallChart.CallGraph
import CallChart.Symbol

/-!
# Entry points

A chart starts from the callers that no other function calls, the roots, in the order of the
graph, and then from the symbols declared to be entry points that are not among them, in the
order of the table. `detect` keeps the first few of these.

`scan` finds them in passes over the calls, the callers and the symbols, each of which remembers
the names it has seen.
-/

namespace CallChart

/-- Why a function is an entry point. -/
inductive EntryKind where
  /-- No other function calls it. -/
  | root
  /-- Its symbol says so. -/
  | declared
  deriving DecidableEq

/-- A function that a chart starts from. -/
structure EntryPoint where
  name : String
  kind : EntryKind
  deriving DecidableEq

namespace CallGraph

/-- Whether some caller other than `name` calls `name`. -/
def isCalled (g : CallGraph) (name : String) : Bool :=
  g.calls.entries.any fun e => e.1 != name && e.2.contains name

/-- The callers that no other caller calls. -/
def roots (g : CallGraph) : List String :=
  g.callers.filter fun name => !g.isCalled name

end CallGraph

namespace EntryPoint

/-- All entry points, the roots first. -/
def candidates (g : CallGraph) (t : SymbolTable) : List EntryPoint :=
  let roots := g.roots
  let declared := t.symbols.filter fun s => s.isEntry && !roots.contains s.name
  roots.map (⟨·, .root⟩) ++ declared.map (⟨·.name, .declared⟩)

/-- The first `most` entry points. -/
def detect (most : Nat) (g : CallGraph) (t : SymbolTable) : List EntryPoint :=
  (candidates g t).take most

end EntryPoint

/-! ## The scan -/

namespace CallGraph

/-- Note the callees of a caller, less the caller itself. -/
def noteCallees (caller : String) (noted : List String) : List String → List String
  | [] => noted
  | callee :: callees =>
    noteCallees caller (if callee = caller then noted else noted.insert callee) callees

/-- The functions that the callers call, noted caller by caller. -/
def notedCallees (g : CallGraph) : List String :=
  g.calls.entries.foldl (fun noted e => noteCallees e.1 noted e.2) []

/-- The callers that were not noted as callees. -/
def scanRoots (g : CallGraph) : List String :=
  g.callers.filter fun name => !g.notedCallees.contains name

end CallGraph

/-- The names that a scan has seen, and the entry points it has found. -/
structure EntryScan where
  seen : List String := []
  found : List EntryPoint := []

namespace EntryScan

def addRoot (scan : EntryScan) (name : String) : EntryScan :=
  ⟨scan.seen.insert name, scan.found ++ [⟨name, .root⟩]⟩

/-- A name that was seen is not found again. -/
def addDeclared (scan : EntryScan) (name : String) : EntryScan :=
  if scan.seen.contains name then scan
  else ⟨scan.seen.insert name, scan.found ++ [⟨name, .declared⟩]⟩

end EntryScan

/-- The first `most` entry points. -/
def EntryPoint.scan (most : Nat) (g : CallGraph) (t : SymbolTable) : List EntryPoint :=
  let roots : EntryScan := g.scanRoots.foldl EntryScan.addRoot {}
  let all := (t.symbols.filter Symbol.isEntry).foldl (fun scan s => scan.addDeclared s.name) roots
  all.found.take most

end CallChart

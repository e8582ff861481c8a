import CallChart.Event
import CallChart.CallGraph
import CallChart.Label
import CallChart.Metadata

/-!
# Nodes and the roster

The roster holds the functions that become nodes, in the order in which they were enrolled ; the
first is `N1`, the second `N2`, and so on. A name is enrolled once. Everything that is known of
a node is fixed when it is enrolled : its label, whether it is an entry point, and how deep the
walk was, if a walk enrolled it.

`collect` walks the call graph from an entry, depth first and in call order, and enrols each
function of the symbol table it meets. Three limits bound it : the depth of the walk, the number
of nodes, and the number of calls followed per function.
-/

namespace CallChart

/-- A function that becomes a node. -/
structure Node where
  name : String
  symbol : Option Symbol
  label : String
  isEntry : Bool
  depth : Option Nat
  deriving DecidableEq

namespace Node

/-- The fields of a node's record. -/
def fields (n : Node) : Json :=
  .object ([("qualified_name", .text n.name), ("label", .text n.label),
    ("is_entry_point", .bool n.isEntry), ("class", .ofText? (n.symbol.bind Symbol.owner)),
    ("file", .ofText? (n.symbol.map fun s => s.path.text)),
    ("line_start", n.symbol.elim .null fun s => .ofNat s.firstLine.toNat),
    ("line_end", n.symbol.elim .null fun s => .ofNat s.lastLine.toNat)] ++
    (n.depth.map fun d => ("depth", Json.ofNat d)).toList)

end Node

/-- The id of the `k`-th node, counted from one. -/
def nodeId (k : Nat) : String :=
  "N" ++ Nat.repr k

/-- Nodes in the order in which they were enrolled, and the level of their labels. -/
structure Roster where
  level : Level
  nodes : List Node := []
  deriving DecidableEq, Inhabited

namespace Roster

def size (r : Roster) : Nat :=
  r.nodes.length

def names (r : Roster) : List String :=
  r.nodes.map Node.name

/-- Whether a name is enrolled. -/
def has (r : Roster) (name : String) : Bool :=
  r.nodes.any fun n => n.name = name

/-- The nodes with their ids. -/
def identified (r : Roster) : List (String × Node) :=
  r.nodes.zipIdx.map fun p => (nodeId (p.2 + 1), p.1)

/-- The id of a name. -/
def id? (r : Roster) (name : String) : Option String :=
  (r.nodes.findIdx? fun n => n.name = name).map fun k => nodeId (k + 1)

/-- The node of a name. -/
def node? (r : Roster) (name : String) : Option Node :=
  r.nodes.find? fun n => n.name = name

/-- The label of an id. -/
def label? (r : Roster) (id : String) : Option String :=
  (r.identified.lookup id).map Node.label

/-- Whether a name is enrolled as an entry point. -/
def isEntry (r : Roster) (name : String) : Bool :=
  (r.node? name).any Node.isEntry

/-- Enrol a name behind the others. -/
def push (r : Roster) (name : String) (symbol : Option Symbol) (isEntry : Bool)
    (depth : Option Nat) : Roster :=
  { r with nodes := r.nodes ++ [⟨name, symbol, Label.format name symbol r.level, isEntry, depth⟩] }

/-- Enrol a name unless it is enrolled. -/
def create (r : Roster) (name : String) (symbol : Option Symbol) (isEntry : Bool) : Roster :=
  if r.has name then r else r.push name symbol isEntry none

/-- The records of the nodes. -/
def metadata (r : Roster) : MetadataStore :=
  r.identified.foldl (fun m p => m.addNode p.1 p.2.fields) {}

end Roster

/-! ## The walk -/

/-- What bounds a walk. -/
structure WalkLimits where
  /-- Functions on a path from the entry. -/
  depth : Nat := 5
  /-- Nodes of the roster. -/
  nodes : Nat := 100
  /-- Calls followed per function. -/
  calls : Nat := 5
  deriving DecidableEq

/-- How far a walk has come : the roster, the names it enrolled, and its reports. -/
structure Walk where
  roster : Roster
  found : List String := []
  log : Log := []

namespace Walk

def isFull (limits : WalkLimits) (w : Walk) : Bool :=
  limits.nodes ≤ w.roster.size

def report (w : Walk) (message : String) : Walk :=
  { w with log := w.log ++ [.debug message] }

/-- Enrol a function of the symbol table. One at depth zero is an entry point. -/
def enrol (w : Walk) (s : Symbol) (depth : Nat) : Walk :=
  { w with
    roster := w.roster.push s.name (some s) (depth == 0) (some depth)
    found := w.found ++ [s.name] }

/-- Visit callees one after another until the roster is full. -/
def follow (limits : WalkLimits) (caller : String) (visit : Walk → String → Walk) :
    Walk → List String → Walk
  | w, [] => w
  | w, callee :: callees =>
    if w.isFull limits then
      w.report ("Node cap " ++ Nat.repr limits.nodes ++ " reached while expanding " ++ caller)
    else follow limits caller visit (visit w callee) callees

/-- Visit a function `depth` steps from the entry where `left` more are allowed, itself
included, and all that is called from it. -/
def visit (g : CallGraph) (t : SymbolTable) (limits : WalkLimits) :
    (left depth : Nat) → Walk → String → Walk
  | 0, _, w, _ => w
  | left + 1, depth, w, name =>
    if w.isFull limits then
      w.report ("Node cap " ++ Nat.repr limits.nodes ++ " reached before " ++ name)
    else if w.roster.has name then w
    else
      match t.get? name with
      | none => w
      | some s =>
        follow limits name (visit g t limits left (depth + 1)) (w.enrol s depth)
          ((g.callees name).take limits.calls)

end Walk

namespace Roster

/-- Walk from `entry`, which is taken to be `depth` steps deep. -/
def collect (r : Roster) (g : CallGraph) (t : SymbolTable) (limits : WalkLimits)
    (entry : String) (depth : Nat) : Walk :=
  Walk.visit g t limits (limits.depth - depth) depth ⟨r, [], []⟩ entry

end Roster

end CallChart

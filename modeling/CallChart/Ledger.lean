import CallChart.Roster

/-!
# Ledgers

A ledger answers what is asked of nodes from tables : the id of each name, the label of each id,
the names that were visited, the entry points, and the records. It is brought up to date with
every node. `create` enters one node, `collect` walks the call graph and enters the nodes of the
functions it meets ; a name is marked as visited before its node is entered, and the depth of
the walk is put on record after it.

A roster lists the nodes and computes the same answers from the list. `Enrolment` is a call that
enters nodes, and `Ledger.ofCalls` and `Roster.ofCalls` carry out a history of such calls.
-/

namespace CallChart

/-- Tables of nodes, and the level of their labels. -/
structure Ledger where
  level : Level
  /-- How many ids were issued. -/
  issued : Nat := 0
  /-- The id of each name. -/
  ids : Keyed String := Keyed.empty
  /-- The label of each id. -/
  labels : Keyed String := Keyed.empty
  visited : List String := []
  entries : List String := []
  records : MetadataStore := {}

namespace Ledger

def id? (l : Ledger) (name : String) : Option String :=
  l.ids.get? name

def label? (l : Ledger) (id : String) : Option String :=
  l.labels.get? id

def isVisited (l : Ledger) (name : String) : Bool :=
  l.visited.contains name

def isEntry (l : Ledger) (name : String) : Bool :=
  l.entries.contains name

/-- Mark a name as visited. -/
def mark (l : Ledger) (name : String) : Ledger :=
  { l with visited := l.visited.insert name }

/-- Put fields into the record of an id. -/
def note (l : Ledger) (id : String) (fields : Json) : Ledger :=
  { l with records := l.records.addNode id fields }

/-- Enter a node. The answer is its id and its label, and no label if the name has an id
already ; then nothing changes. -/
def create (l : Ledger) (name : String) (symbol : Option Symbol) (isEntry : Bool) :
    (String × String) × Ledger :=
  match l.id? name with
  | some id => ((id, ""), l)
  | none =>
    let id := nodeId (l.issued + 1)
    let label := Label.format name symbol l.level
    let entered : Ledger := { l with
      issued := l.issued + 1
      ids := l.ids.insert name id
      labels := l.labels.insert id label
      entries := if isEntry then l.entries.insert name else l.entries }
    ((id, label), (entered.mark name).note id (Node.fields ⟨name, symbol, label, isEntry, none⟩))

/-! ## The walk -/

def isFull (limits : WalkLimits) (l : Ledger) : Bool :=
  limits.nodes ≤ l.visited.length

/-- Enter a function of the symbol table that is met `depth` steps deep. -/
def enrol (l : Ledger) (name : String) (s : Symbol) (depth : Nat) : Ledger :=
  match (l.mark name).create name (some s) (depth == 0) with
  | ((id, _), l) => l.note id (.object [("depth", .ofNat depth)])

/-- Names that were found, and then those of `more` that are new. -/
def extend (found more : List String) : List String :=
  found ++ more.filter fun name => !found.contains name

/-- Visit callees one after another until the ledger is full. -/
def follow (limits : WalkLimits) (visit : Ledger → String → List String × Ledger) :
    List String → Ledger → List String → List String × Ledger
  | found, l, [] => (found, l)
  | found, l, callee :: callees =>
    if l.isFull limits then (found, l)
    else
      match visit l callee with
      | (more, l) => follow limits visit (extend found more) l callees

/-- Visit a function `depth` steps from the entry where `left` more are allowed, itself
included, and all that is called from it. The answer is the names that were found. -/
def visit (g : CallGraph) (t : SymbolTable) (limits : WalkLimits) :
    (left depth : Nat) → Ledger → String → List String × Ledger
  | 0, _, l, _ => ([], l)
  | left + 1, depth, l, name =>
    if l.isFull limits then ([], l)
    else if l.isVisited name then ([], l)
    else
      match t.get? name with
      | none => ([], l)
      | some s =>
        follow limits (visit g t limits left (depth + 1)) [name] (l.enrol name s depth)
          ((g.callees name).take limits.calls)

/-- Walk from `entry`, which is taken to be `depth` steps deep. -/
def collect (l : Ledger) (g : CallGraph) (t : SymbolTable) (limits : WalkLimits)
    (entry : String) (depth : Nat) : List String × Ledger :=
  visit g t limits (limits.depth - depth) depth l entry

end Ledger

/-! ## Histories -/

/-- A call that enters nodes. -/
inductive Enrolment where
  | create (name : String) (symbol : Option Symbol) (isEntry : Bool)
  | collect (g : CallGraph) (t : SymbolTable) (limits : WalkLimits) (entry : String) (depth : Nat)

/-- Carry out a call. -/
def Ledger.perform (l : Ledger) : Enrolment → Ledger
  | .create name symbol isEntry => (l.create name symbol isEntry).2
  | .collect g t limits entry depth => (l.collect g t limits entry depth).2

/-- The ledger that a history of calls leaves. -/
def Ledger.ofCalls (level : Level) (calls : List Enrolment) : Ledger :=
  calls.foldl perform { level }

/-- Carry out a call. -/
def Roster.perform (r : Roster) : Enrolment → Roster
  | .create name symbol isEntry => r.create name symbol isEntry
  | .collect g t limits entry depth => (r.collect g t limits entry depth).roster

/-- The roster that a history of calls leaves. -/
def Roster.ofCalls (level : Level) (calls : List Enrolment) : Roster :=
  calls.foldl perform ⟨level, []⟩

end CallChart

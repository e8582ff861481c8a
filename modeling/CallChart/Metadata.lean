import CallChart.Json.Printer
import CallChart.Keyed

/-!
# Metadata

What is known of the nodes, edges and blocks of a chart and has no place in its text. Each has a
record under its key, and a record is a table of fields. Fields added under a key that has a
record are merged into it, a later value of a field replacing an earlier one. `exportText` writes
everything, sorted by name throughout, so equal contents have equal texts.
-/

namespace CallChart

/-- Fields and their values. -/
abbrev Record := Keyed Json

namespace Record

def ofFields (fields : List (String × Json)) : Record :=
  Keyed.ofEntries fields

/-- Put the fields of an object into a record. Any other value has no fields. -/
def merge (r : Record) (fields : Json) : Record :=
  match fields with
  | .object ms => ms.foldl (fun r m => r.insert m.1 m.2) r
  | _ => r

def json (r : Record) : Json :=
  .object r.entries

/-- The record of an entry point. -/
def isEntry (r : Record) : Bool :=
  match r.get? "is_entry_point" with
  | some (.bool b) => b
  | _ => false

end Record

/-- How many records there are. -/
structure Stats where
  nodes : Nat
  edges : Nat
  blocks : Nat
  /-- Nodes that are entry points. -/
  entries : Nat
  deriving DecidableEq, Repr

namespace Stats

def json (s : Stats) : Json :=
  .object [("total_nodes", .ofNat s.nodes), ("total_edges", .ofNat s.edges),
    ("total_subgraphs", .ofNat s.blocks), ("entry_points", .ofNat s.entries)]

end Stats

/-- Records of nodes, edges and blocks. -/
structure MetadataStore where
  nodes : Keyed Record := Keyed.empty
  edges : Keyed Record := Keyed.empty
  blocks : Keyed Record := Keyed.empty
  deriving Inhabited

namespace MetadataStore

/-- The key of the edge between two nodes. -/
def edgeKey (source target : String) : String :=
  source ++ "->" ++ target

/-- Merge fields into the record under a key, which is entered if it is new. -/
def mergeInto (table : Keyed Record) (key : String) (fields : Json) : Keyed Record :=
  table.alter key fun r => (r.getD Keyed.empty).merge fields

def addNode (m : MetadataStore) (id : String) (fields : Json) : MetadataStore :=
  { m with nodes := mergeInto m.nodes id fields }

def addEdge (m : MetadataStore) (source target : String) (fields : Json) : MetadataStore :=
  { m with edges := mergeInto m.edges (edgeKey source target) fields }

def addBlock (m : MetadataStore) (id : String) (fields : Json) : MetadataStore :=
  { m with blocks := mergeInto m.blocks id fields }

def node? (m : MetadataStore) (id : String) : Option Record :=
  m.nodes.get? id

def edge? (m : MetadataStore) (source target : String) : Option Record :=
  m.edges.get? (edgeKey source target)

def block? (m : MetadataStore) (id : String) : Option Record :=
  m.blocks.get? id

/-- Keep the nodes whose id passes `p`. -/
def keepNodes (m : MetadataStore) (p : String → Bool) : MetadataStore :=
  { m with nodes := m.nodes.keep p }

/-- How many nodes have an id that does not pass `p`. -/
def dropCount (m : MetadataStore) (p : String → Bool) : Nat :=
  m.nodes.size - (m.keepNodes p).nodes.size

/-- Forget all records. -/
def clear (m : MetadataStore) : MetadataStore :=
  { m with nodes := Keyed.empty, edges := Keyed.empty, blocks := Keyed.empty }

def nodeIds (m : MetadataStore) : List String :=
  m.nodes.keys

def isEmpty (m : MetadataStore) : Bool :=
  m.nodes.isEmpty && m.edges.isEmpty && m.blocks.isEmpty

def stats (m : MetadataStore) : Stats :=
  ⟨m.nodes.size, m.edges.size, m.blocks.size, (m.nodes.values.filter Record.isEntry).length⟩

def tableJson (table : Keyed Record) : Json :=
  .object (table.entries.map fun e => (e.1, e.2.json))

/-- Everything in one value. -/
def json (m : MetadataStore) : Json :=
  .object [("nodes", tableJson m.nodes), ("edges", tableJson m.edges),
    ("subgraphs", tableJson m.blocks), ("stats", m.stats.json)]

/-- The metadata document : everything, sorted by name, one member a line. -/
def exportText (m : MetadataStore) : String :=
  m.json.sorted.prettyText

end MetadataStore

end CallChart

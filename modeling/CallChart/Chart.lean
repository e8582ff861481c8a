import CallChart.Document
import CallChart.EntryPoint
import CallChart.Settings

/-!
# Charts

`Chart.draw` makes the body of a chart from a document. It collects functions from the entry
points, lays them out in blocks, draws the calls between the nodes that are shown as edges, and
styles nodes and blocks. The metadata say the same as the body : the nodes that are shown, the
edges and the blocks.

The edges come from one pass over the calls of the nodes, `EdgePass.run`, which remembers the ends
of the edges that it has drawn.
-/

namespace CallChart

/-- A call that is drawn. -/
structure Edge where
  source : String
  target : String
  caller : String
  callee : String
  /-- Place of the call among the calls of the caller. -/
  index : Nat
  deriving DecidableEq

namespace Edge

def ends (e : Edge) : String × String :=
  (e.source, e.target)

def line (e : Edge) : String :=
  Text.indent 1 ++ e.source ++ " --> " ++ e.target

/-- The fields of an edge's record. -/
def fields (e : Edge) : Json :=
  .object [("from_function", .text e.caller), ("to_function", .text e.callee),
    ("call_index", .ofNat e.index)]

end Edge

/-- How far a pass over the calls has come : the ends that it has seen, which are those of the
edges that it has drawn. -/
structure EdgePass where
  seen : List (String × String) := []
  edges : List Edge := []
  mem_seen : ∀ ends, ends ∈ seen ↔ ends ∈ edges.map Edge.ends := by simp

namespace EdgePass

/-- Draw an edge unless its ends have been seen. -/
def draw (pass : EdgePass) (e : Edge) : EdgePass :=
  if pass.seen.contains e.ends then pass
  else
    { seen := pass.seen.insert e.ends
      edges := pass.edges ++ [e]
      mem_seen := by simp [pass.mem_seen, or_comm] }

/-- Meet a call of a node, with its place. It is skipped unless the callee is shown. -/
def meetCall (r : Roster) (shown : List String) (source caller : String) (pass : EdgePass)
    (call : String × Nat) : EdgePass :=
  match r.id? call.1 with
  | none => pass
  | some target =>
    if shown.contains target then pass.draw ⟨source, target, caller, call.1, call.2⟩ else pass

/-- Meet the first calls of a node. It is skipped unless it is shown. -/
def meetNode (s : Settings) (d : Document) (r : Roster) (shown : List String) (pass : EdgePass)
    (node : String × Node) : EdgePass :=
  if shown.contains node.1 then
    ((d.calls.callees node.2.name).take s.calls).zipIdx.foldl
      (meetCall r shown node.1 node.2.name) pass
  else pass

/-- Meet the nodes one after another. -/
def run (s : Settings) (d : Document) (r : Roster) (shown : List String) : EdgePass :=
  r.identified.foldl (meetNode s d r shown) {}

end EdgePass

/-- A chart and what is known of it. -/
structure Drawing where
  roster : Roster
  body : List String
  metadata : MetadataStore
  log : Log

namespace Chart

def generatorName : String :=
  "CodeFlowGenerator"

/-- The level of the labels : the one that is set, or else one for as many nodes as there can
be. -/
def level (s : Settings) (d : Document) : Level :=
  s.level?.getD (Label.recommended (min d.symbols.size s.nodes) s.nodes)

/-- Walk from one entry point after another until the roster is full. -/
def collect (s : Settings) (d : Document) : Roster → Log → List EntryPoint → Roster × Log
  | r, log, [] => (r, log)
  | r, log, e :: es =>
    if s.nodes ≤ r.size then
      (r, log ++ [.debug ("Global node cap " ++ Nat.repr s.nodes ++
        " reached; skipping remaining entry points")])
    else
      let w := r.collect d.calls d.symbols s.walkLimits e.name 0
      collect s d w.roster
        (log ++ w.log ++ [.debug ("Entry point " ++ e.name ++ " collected " ++
          Nat.repr w.found.length ++ " functions")]) es

/-- Ids of the nodes that are shown, each with its group, the file of its symbol, and whether
it is an entry point. -/
def styledNodes (r : Roster) (shown : List String) : List (String × String × Bool) :=
  let identified := r.identified
  shown.filterMap fun id =>
    (identified.lookup id).map fun n =>
      (id, n.symbol.elim "" fun s => s.path.text, n.isEntry)

/-- The style lines. -/
def styleLines (s : Settings) (r : Roster) (shown : List String) (blocks : List BlockInfo) :
    List String :=
  let palette : Palette := ⟨s.scheme, []⟩
  let lines := palette.nodeStyles (styledNodes r shown) ++
    blocks.map fun b => palette.blockStyle b.id b.kind b.level
  lines.map (Text.indent 1 ++ ·)

/-- What is known of the nodes that are shown, the edges and the blocks. -/
def metadata (r : Roster) (shown : List String) (es : List Edge) (blocks : List BlockInfo) :
    MetadataStore :=
  let m := r.metadata.keepNodes shown.contains
  let m := blocks.foldl (fun m b => m.addBlock b.id b.fields) m
  es.foldl (fun m e => m.addEdge e.source e.target e.fields) m

/-- Draw the nodes of a roster. -/
def drawRoster (s : Settings) (d : Document) (r : Roster) (log : Log) : Drawing :=
  let grouping := Grouping.ofSymbols s.root (r.nodes.filterMap Node.symbol)
  let items := (Item.layout r s.perClass {} grouping).1
  let shown := Item.allNodeIds items
  let blocks := Item.allInfos 0 none items
  let es := (EdgePass.run s d r shown).edges
  let dropped := r.metadata.dropCount shown.contains
  { roster := r
    body := Item.allLines 1 items ++ es.map Edge.line ++ styleLines s r shown blocks
    metadata := metadata r shown es blocks
    log := log ++ [.debug ("Grouping " ++ Nat.repr grouping.functionCount ++ " functions")] ++
      if dropped = 0 then [] else
        [.debug (Nat.repr dropped ++ " collected functions exceed max_functions_per_class (" ++
          Nat.repr s.perClass ++ ") and were not drawn")] }

/-- Make the chart of a document. -/
def draw (s : Settings) (d : Document) : Drawing :=
  let entries := EntryPoint.detect s.entryPoints d.calls d.symbols
  let level := level s d
  let before := .debug ("Label level: " ++ level.name) ::
    if entries.isEmpty then
      [.warn (generatorName ++ ": no entry points found in call graph")]
    else []
  match collect s d ⟨level, []⟩ before entries with
  | (r, log) =>
    drawRoster s d r (log ++ [.info (generatorName ++ ": " ++ Nat.repr entries.length ++
      " entry points, " ++ Nat.repr r.size ++ " nodes collected")])

/-- A chart needs a symbol table and a call graph that hold something. -/
def ready (d : Document) : Except Failure Unit :=
  match d.missing? with
  | some f => .error (.missingInput generatorName f.key (d.present.map DocumentField.key))
  | none => .ok ()

/-- What there is of a chart once its rendering is over : nothing if it was never begun. -/
def drawn (s : Settings) (d : Document) : Drawing :=
  match ready d with
  | .ok _ => draw s d
  | .error _ => ⟨⟨.minimal, []⟩, [], {}, []⟩

end Chart

end CallChart

import CallChart.Chart

/-!
# Rendering

A generator makes the body of a diagram, a frame puts heading, fences and direction around it
and has the whole checked. Rendering goes through its stages in a fixed order and stops at the
first that fails. Publishing writes the text of a rendered diagram, and only that, to its file,
and then the metadata beside it ; metadata that cannot be written are no failure.
-/

namespace CallChart

/-- Stages of making a diagram, in order. -/
inductive Stage where
  | validating | header | body | footer | validated | written
  deriving DecidableEq

namespace Stage

def all : List Stage :=
  [.validating, .header, .body, .footer, .validated, .written]

def name : Stage → String
  | .validating => "validating"
  | .header => "header"
  | .body => "body"
  | .footer => "footer"
  | .validated => "diagram-validated"
  | .written => "written"

end Stage

/-- What makes the body of a diagram. -/
structure Generator where
  name : String := "DiagramGenerator"
  /-- Whether it has what it needs. -/
  ready : Except Failure Unit := .ok ()
  body : Except Failure (List String)
  /-- What is known of the body, if anything is recorded. -/
  metadata : Option MetadataStore := none
  /-- What is reported while the body is made. -/
  log : Log := []

namespace Generator

/-- Reports that the generator enters stages. -/
def entering (g : Generator) (stages : List Stage) : Log :=
  stages.map fun stage => .debug (g.name ++ ": " ++ stage.name)

end Generator

/-- The generator of a chart. -/
def Chart.generator (s : Settings) (d : Document) : Generator :=
  let drawing := draw s d
  { name := generatorName
    ready := ready d
    body := .ok drawing.body
    metadata := some drawing.metadata
    log := drawing.log }

/-- What stands around the body of a diagram. -/
structure Frame where
  limits : Limits
  title : String := "Code Flow"
  direction : String := "TD"
  deriving DecidableEq

/-- A diagram that has passed its check. -/
structure Rendering where
  text : String
  counts : Counts
  stages : List Stage

/-- A diagram that has been written. -/
structure Report where
  output : Path
  /-- Where the metadata were written, if they were. -/
  metadata : Option Path
  counts : Counts
  stats : Option Stats
  stages : List Stage

/-- A title on one line : its lines, trimmed, with blanks between. -/
def foldTitle (title : String) : String :=
  let lines := (title.toList.splitOnP fun c => c == '\r' || c == '\n').map Text.trim
  " ".intercalate ((lines.filter fun l => !l.isEmpty).map String.ofList)

namespace Frame

def withTitle (f : Frame) (title : String) : Frame :=
  { f with title := foldTitle title }

/-- The frame that settings ask for. -/
def ofSettings (s : Settings) : Frame :=
  { limits := s.limits, title := foldTitle s.title, direction := s.direction }

def header (f : Frame) : List String :=
  ["# " ++ f.title, "", "```mermaid", "flowchart " ++ f.direction]

def footer : List String :=
  ["```"]

/-- The text of a diagram with a given body. -/
def text (f : Frame) (body : List String) : String :=
  Text.unlines (f.header ++ body ++ footer)

/-- Make a diagram and check it. -/
def render (f : Frame) (g : Generator) : Except Failure Rendering × Log :=
  match g.ready with
  | .error failure => (.error failure, g.entering [.validating])
  | .ok _ =>
    let log := g.entering [.validating, .header, .body] ++ g.log
    match g.body with
    | .error failure => (.error failure, log)
    | .ok body =>
      let text := f.text body
      match f.limits.check text.toList with
      | .error failure => (.error failure, log ++ g.entering [.footer])
      | .ok counts =>
        (.ok ⟨text, counts, [.validating, .header, .body, .footer, .validated]⟩,
          log ++ g.entering [.footer, .validated])

/-! ## Publishing -/

/-- Where the metadata of a diagram are written. -/
def metadataPath (output : Path) : Path :=
  output.withExtension "metadata.json"

/-- Words for what a report counts. -/
def countsText (c : Counts) : String :=
  Nat.repr c.nodes ++ " nodes, " ++ Nat.repr c.edges ++ " edges, " ++ Nat.repr c.opened ++
    " subgraphs"

/-- Write something, or give the reason why it cannot be written. -/
abbrev Write (m : Type → Type) := Path → String → m (Except String Unit)

/-- Write the metadata that there are. -/
def publishMetadata {m : Type → Type} [Monad m] (write : Write m) (g : Generator)
    (output : Path) : m (Option Path × Option Stats × Log) :=
  match g.metadata.filter fun store => !store.isEmpty with
  | none => pure (none, none, [])
  | some store => do
    let path := metadataPath output
    match ← write path store.exportText with
    | .ok _ => return (some path, some store.stats, [])
    | .error cause =>
      return (none, some store.stats,
        [.warn ("Failed to write metadata " ++ path.text ++ ": " ++ cause)])

/-- Make a diagram, check it and write it, and its metadata with it. -/
def publish {m : Type → Type} [Monad m] (f : Frame) (write : Write m) (g : Generator)
    (output : Path) : m (Except Failure Report × Log) := do
  match f.render g with
  | (.error failure, log) => return (.error failure, log)
  | (.ok r, log) =>
    match ← write output r.text with
    | .error cause => return (.error (.write output cause), log)
    | .ok _ =>
      let (metadata, stats, warnings) ← publishMetadata write g output
      let done := g.entering [.written] ++ [.info (g.name ++ " wrote " ++ output.text ++ " (" ++
        countsText r.counts ++ ")")]
      return (.ok ⟨output, metadata, r.counts, stats, r.stages ++ [.written]⟩,
        log ++ warnings ++ done)

end Frame

end CallChart

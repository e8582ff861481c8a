import CallChart.FileTree
import CallChart.Rendering

/-!
# Batches

A job makes the chart of one input file. A batch has a job for each of its inputs ; one input
goes to the output itself, several go to files in the output directory that are named after
them. Two inputs that would go to one file are refused (`planJobs`). A job reads and writes on a
disk, which is any way of reading and writing files : a real one, or a `FileTree`.

The jobs of a batch run one after another, in the order of the inputs. Threads among which they
could be shared out are left out, with what is reported of them.
-/

namespace CallChart

/-- A way of reading and writing files. -/
structure Disk (m : Type → Type) where
  read : Path → m (Except String String)
  write : Frame.Write m

/-- The disk that a file tree is. -/
def FileTree.disk : Disk (StateM FileTree) where
  read p := do
    match (← get).read p with
    | .ok text => return .ok text
    | .error fault => return .error fault.message
  write p text := do
    match (← get).write p text with
    | (t, none) =>
      set t
      return .ok ()
    | (t, some fault) =>
      set t
      return .error fault.message

/-- One input and where its diagram goes. -/
structure Job where
  input : Path
  output : Path
  deriving DecidableEq

/-- Two inputs that would go to one file. -/
structure Clash where
  first : Path
  second : Path
  target : Path
  deriving DecidableEq

namespace Clash

def message (c : Clash) : String :=
  c.first.text ++ " and " ++ c.second.text ++ " would both write " ++ c.target.text

end Clash

/-- The name of a diagram in the output directory, before its extension. -/
def diagramStem (input : Path) : String :=
  input.stem?.getD "diagram"

/-- Where the diagram of one input of several goes. -/
def diagramPath (output input : Path) : Path :=
  output.join ⟨diagramStem input ++ ".md"⟩

/-- The jobs of inputs, behind those that are planned. -/
def planOnto (output : Path) : (planned : List Job) → List Path → Except Clash (List Job)
  | planned, [] => .ok planned
  | planned, input :: inputs =>
    let target := diagramPath output input
    match planned.find? fun job => job.output.components = target.components with
    | some job => .error ⟨job.input, input, target⟩
    | none => planOnto output (planned ++ [⟨input, target⟩]) inputs

/-- A job for each input, in order. -/
def planJobs (inputs : List Path) (output : Path) : Except Clash (List Job) :=
  match inputs with
  | [input] => .ok [⟨input, output⟩]
  | inputs => planOnto output [] inputs

/-- Read the input, make its chart and publish it. -/
def Job.run {m : Type → Type} [Monad m] (disk : Disk m) (s : Settings) (job : Job) :
    m (Except Failure Report × Log) := do
  match ← disk.read job.input with
  | .error cause => return (.error (.input job.input (.unreadable cause)), [])
  | .ok text =>
    match Document.parse text with
    | .error _ => return (.error (.input job.input .malformed), [])
    | .ok d => (Frame.ofSettings s).publish disk.write (Chart.generator s d) job.output

/-- What is reported of a failure while other jobs are still to be run. -/
def Job.warnings (job : Job) : Except Failure Report → Log
  | .ok _ => []
  | .error failure => [.warn (job.input.text ++ ": " ++ failure.message)]

/-- Run jobs one after another and report each failure at once. -/
def runEach {m : Type → Type} [Monad m] (disk : Disk m) (s : Settings) :
    List Job → m (List (Job × Except Failure Report) × Log)
  | [] => pure ([], [])
  | job :: jobs => do
    let (result, log) ← job.run disk s
    let (results, rest) ← runEach disk s jobs
    return ((job, result) :: results, log ++ job.warnings result ++ rest)

/-- Run jobs. A single one has nothing to report but its result. -/
def runJobs {m : Type → Type} [Monad m] (disk : Disk m) (s : Settings) (jobs : List Job) :
    m (List (Job × Except Failure Report) × Log) :=
  match jobs with
  | [job] => do
    let (result, log) ← job.run disk s
    return ([(job, result)], log)
  | jobs => runEach disk s jobs

end CallChart

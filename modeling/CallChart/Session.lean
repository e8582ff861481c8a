import CallChart.Batch
import CallChart.CommandLine

/-!
# Sessions

A session carries out one command line on a disk : it loads the settings, layer by layer, runs
the command and says what came of it on its two outputs and with its exit code. Settings are
checked twice, without and with the layer of the command line.
-/

namespace CallChart

/-- What a session leaves. -/
structure Outcome where
  exit : UInt32
  out : String := ""
  err : String := ""
  log : Log := []
  /-- Debug reports are wanted. -/
  verbose : Bool := false

/-- The reports that are wanted. -/
def Outcome.shownLog (o : Outcome) : Log :=
  o.log.filter fun e => o.verbose || e.weight != .debug

/-- What a session gives up with, and the cause of it. -/
structure Complaint where
  words : String
  cause : Option String := none

namespace Complaint

def text (c : Complaint) : String :=
  "Error: " ++ c.words ++ "\n" ++
    match c.cause with
    | some cause => "\nCaused by:\n" ++ Text.indented (Text.indent 1) cause ++ "\n"
    | none => ""

end Complaint

namespace Session

def versionText : String :=
  "codeflow 0.1.0\n"

def helpText : String :=
  "Usage: codeflow [-v] generate -i INPUT... -o OUTPUT [OPTIONS]\n" ++
    "       codeflow [-v] check DIAGRAM [-c CONFIG]\n"

variable {m : Type → Type} [Monad m]

/-- The layer of a settings file. -/
def loadLayer (disk : Disk m) (p : Path) : m (Except SettingsFault Layer) := do
  match ← disk.read p with
  | .error cause => return .error (.unreadable p cause)
  | .ok text =>
    match Layer.parse? text with
    | some layer => return .ok layer
    | none => return .error (.malformed p)

/-- The defaults under the layers of the file, if there is one, and of the environment. -/
def loadSettings (disk : Disk m) (environment : String → Option String) (file : Option Path) :
    m (Except SettingsFault Settings) := do
  let layer ← match file with
    | some p => loadLayer disk p
    | none => pure (.ok {})
  return do
    let settings := Settings.overlay {} (← layer)
    match Layer.ofEnvironment environment with
    | (_, some fault) => throw fault
    | (outer, none) =>
      let settings := settings.overlay outer
      match settings.fault? with
      | some fault => throw fault
      | none => return settings

/-- The complaint about settings that cannot be loaded. -/
def unloadable (fault : SettingsFault) : Complaint :=
  ⟨"Failed to load configuration", (Failure.settings fault).message⟩

/-- The settings of `generate` : what is loaded, under the layer of the command line. -/
def generateSettings (disk : Disk m) (environment : String → Option String)
    (r : GenerateRequest) : m (Except Complaint Settings) := do
  match ← loadSettings disk environment r.settings with
  | .error fault => return .error (unloadable fault)
  | .ok settings =>
    let settings := settings.overlay r.layer
    match settings.fault? with
    | some fault => return .error ⟨"Invalid option", (Failure.settings fault).message⟩
    | none => return .ok settings

/-- What is said of a job that came out well. -/
def reportText (showStats : Bool) (r : Report) : String :=
  "Diagram written to " ++ r.output.text ++ " (" ++ Frame.countsText r.counts ++ ")\n" ++
    (match r.metadata with
    | some p => "Metadata written to " ++ p.text ++ "\n"
    | none => "") ++
    match showStats, r.stats with
    | true, some stats => stats.json.prettyText ++ "\n"
    | _, _ => ""

/-- What is said of a job that failed. -/
def failureText (job : Job) (failure : Failure) : String :=
  "Error: " ++ job.input.text ++ ": " ++ failure.message ++ "\n"

/-- What is said of all jobs. -/
def summary (showStats : Bool) (results : List (Job × Except Failure Report)) (log : Log) :
    Outcome :=
  let out := String.join (results.map fun r =>
    match r.2 with
    | .ok report => reportText showStats report
    | .error _ => "")
  let failures := results.filterMap fun r =>
    match r.2 with
    | .ok _ => none
    | .error failure => some (failureText r.1 failure)
  if failures.isEmpty then { exit := 0, out := out, log := log }
  else
    let last : Complaint := ⟨Nat.repr failures.length ++ " of " ++ Nat.repr results.length ++
      " diagram(s) failed", none⟩
    { exit := 1, out := out, err := String.join failures ++ last.text, log := log }

def giveUp (c : Complaint) : Outcome :=
  { exit := 1, err := c.text }

/-- Carry out `generate`. -/
def generate (disk : Disk m) (environment : String → Option String) (r : GenerateRequest) :
    m Outcome := do
  match ← generateSettings disk environment r with
  | .error complaint => return giveUp complaint
  | .ok settings =>
    match planJobs r.inputs r.output with
    | .error clash => return giveUp ⟨clash.message, none⟩
    | .ok jobs =>
      let (results, log) ← runJobs disk settings jobs
      return summary r.showStats results log

/-- Carry out `check`. -/
def check (disk : Disk m) (environment : String → Option String) (diagram : Path)
    (file : Option Path) : m Outcome := do
  match ← loadSettings disk environment file with
  | .error fault => return giveUp (unloadable fault)
  | .ok settings =>
    match ← disk.read diagram with
    | .error cause => return giveUp ⟨"Cannot read diagram " ++ diagram.text, some cause⟩
    | .ok text =>
      match settings.limits.check text.toList with
      | .error failure =>
        return giveUp ⟨diagram.text ++ " failed validation", some failure.message⟩
      | .ok counts =>
        return {
          exit := 0
          out := diagram.text ++ " is valid (" ++ Frame.countsText counts ++ ", " ++
            Nat.repr counts.size ++ " chars)\n" }

/-- Carry out a command line. -/
def run (disk : Disk m) (environment : String → Option String) (words : List String) :
    m Outcome := do
  match Command.ofWords words with
  | .error .misuse => return { exit := 2, err := helpText }
  | .error .help => return { exit := 0, out := helpText }
  | .error .version => return { exit := 0, out := versionText }
  | .ok (.generate request, verbose) =>
    return { (← generate disk environment request) with verbose := verbose }
  | .ok (.check diagram file, verbose) =>
    return { (← check disk environment diagram file) with verbose := verbose }

end Session

end CallChart

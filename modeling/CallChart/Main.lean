import CallChart.Session

/-!
# The program

Carries out its command line on the disk of the machine it runs on.
-/

namespace CallChart

/-- The number of an error, which may come with its sign turned. -/
def errorNumber (code : UInt32) : UInt32 :=
  min code (0 - code)

/-- The words for an error of the machine. -/
def machineError (e : IO.Error) : String :=
  match e with
  | .noFileOrDirectory _ _ _ => FileFault.message .notFound
  | .alreadyExists _ _ _ => FileFault.message .exists
  | .inappropriateType _ code _ =>
    FileFault.message (if errorNumber code = 20 then .notDirectory else .isDirectory)
  | .invalidArgument _ code _ =>
    if errorNumber code = 36 then FileFault.message .nameTooLong else toString e
  | e => toString e

/-- Do something on the machine and put an error of it into words. -/
def attempt {α : Type} (act : IO α) : IO (Except String α) := do
  try
    return .ok (← act)
  catch e =>
    return .error (machineError e)

/-- A path leads to a directory of the machine. -/
def leadsToDirectory (p : Path) : IO Bool := do
  try
    (← IO.FS.realPath p.text).isDir
  catch _ =>
    return false

/-- Make a directory that is not there. -/
def makeMissing (p : Path) : IO Unit := do
  try
    IO.FS.createDir p.text
  catch e =>
    unless ← leadsToDirectory p do throw e

/-- Make a directory and those on the way to it, nearest first. -/
def makeMachineDirectories : List Path → IO Unit
  | [] => return
  | p :: above => do
    try
      makeMissing p
    catch e =>
      match e with
      | .noFileOrDirectory _ _ _ =>
        makeMachineDirectories above
        makeMissing p
      | e => throw e

/-- The disk of the machine. -/
def machineDisk : Disk IO where
  read p := attempt (IO.FS.readFile p.text)
  write p text := attempt do
    makeMachineDirectories p.enclosing
    IO.FS.writeFile p.text text

/-- The variables of the environment that settings may come from. -/
def settingVariables : List String :=
  ["CODEFLOW_LABEL_FORMAT", "CODEFLOW_THEME"] ++ Layer.numericVariables.map Prod.fst

end CallChart

open CallChart in
def main (args : List String) : IO UInt32 := do
  let values ← settingVariables.mapM fun key => return (key, ← IO.getEnv key)
  let environment (key : String) : Option String := (values.lookup key).join
  let outcome ← Session.run machineDisk environment args
  for e in outcome.shownLog do
    IO.eprintln e.text
  IO.print outcome.out
  IO.eprint outcome.err
  return outcome.exit

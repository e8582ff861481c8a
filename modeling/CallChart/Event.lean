/-!
# Events

What is reported while a chart is made, each report with its weight.
-/

namespace CallChart

/-- Weight of a report. -/
inductive Weight where
  | debug | info | warn
  deriving DecidableEq

namespace Weight

def name : Weight → String
  | .debug => "DEBUG"
  | .info => "INFO"
  | .warn => "WARN"

end Weight

/-- One report. -/
structure Event where
  weight : Weight
  message : String
  deriving DecidableEq

/-- Reports in the order in which they were made. -/
abbrev Log := List Event

namespace Event

/-- The words of a report, behind its weight. -/
def text (e : Event) : String :=
  e.weight.name ++ " " ++ e.message

def debug (message : String) : Event :=
  ⟨.debug, message⟩

def info (message : String) : Event :=
  ⟨.info, message⟩

def warn (message : String) : Event :=
  ⟨.warn, message⟩

end Event

end CallChart

import CallChart.Path

/-!
# Failures

Why a chart is not made, with the words in which it is said.
-/

namespace CallChart

/-- What there may be too much of. -/
inductive Quantity where
  | nodes | edges | blocks | size
  deriving DecidableEq

namespace Quantity

def name : Quantity → String
  | .nodes => "node"
  | .edges => "edge"
  | .blocks => "subgraph"
  | .size => "size"

end Quantity

/-- What is wrong with settings. -/
inductive SettingsFault where
  /-- A cap of zero. -/
  | zero (name : String)
  | unknownTheme (theme : String) (known : List String)
  | unknownDirection (direction : String) (known : List String)
  /-- A variable of the environment is to hold a number. -/
  | notNumber (key value : String)
  /-- The file cannot be read. -/
  | unreadable (path : Path) (cause : String)
  /-- The file is not in the format of settings. -/
  | malformed (path : Path)
  /-- Refused by a generator, in its own words. -/
  | refused (words : String)
  deriving DecidableEq

namespace SettingsFault

/-- Stands where the complaint of the settings reader would stand. -/
def readerComplaint : String :=
  "<toml>"

def oneOf (known : List String) : String :=
  "(expected one of " ++ ", ".intercalate known ++ ")"

def message : SettingsFault → String
  | .zero name => name ++ " must be greater than zero"
  | .unknownTheme theme known => "unknown theme '" ++ theme ++ "' " ++ oneOf known
  | .unknownDirection direction known => "unknown direction '" ++ direction ++ "' " ++ oneOf known
  | .notNumber key value => key ++ " must be a non-negative integer, got '" ++ value ++ "'"
  | .unreadable path cause => "cannot read " ++ path.text ++ ": " ++ cause
  | .malformed path => path.text ++ ": " ++ readerComplaint
  | .refused words => words

end SettingsFault

/-- What is wrong with an input file. -/
inductive InputFault where
  | unreadable (cause : String)
  /-- The file is no input document. -/
  | malformed
  deriving DecidableEq

namespace InputFault

/-- Stands where the complaint of the document reader would stand. -/
def readerComplaint : String :=
  "<json>"

def message : InputFault → String
  | .unreadable cause => cause
  | .malformed => readerComplaint

end InputFault

/-- Why a chart is not made. -/
inductive Failure where
  /-- A generator lacks an input. -/
  | missingInput (generator field : String) (present : List String)
  | missingOpeningFence
  | missingClosingFence
  | unbalanced (opened closed : Nat)
  | missingType
  | limitExceeded (quantity : Quantity) (count limit : Nat)
  | write (path : Path) (cause : String)
  | input (path : Path) (fault : InputFault)
  | settings (fault : SettingsFault)
  deriving DecidableEq

namespace Failure

def message : Failure → String
  | .missingInput generator field present =>
    generator ++ ": required input '" ++ field ++ "' is missing or empty (present: [" ++
      ", ".intercalate present ++ "])"
  | .missingOpeningFence => "diagram is missing its opening ```mermaid fence near the top"
  | .missingClosingFence => "diagram is missing its closing ``` fence"
  | .unbalanced opened closed =>
    "unbalanced subgraph blocks: " ++ Nat.repr opened ++ " subgraph line(s) but " ++
      Nat.repr closed ++ " end line(s)"
  | .missingType => "diagram has no recognized diagram type declaration near the top"
  | .limitExceeded quantity count limit =>
    "diagram " ++ quantity.name ++ " count " ++ Nat.repr count ++ " exceeds limit " ++
      Nat.repr limit
  | .write path cause => "failed to write " ++ path.text ++ ": " ++ cause
  | .input path fault => "failed to load input " ++ path.text ++ ": " ++ fault.message
  | .settings fault => "invalid configuration: " ++ fault.message

/-- Whether the failure was found by checking the finished diagram. -/
def isStructural : Failure → Bool
  | .missingOpeningFence | .missingClosingFence | .unbalanced .. | .missingType
  | .limitExceeded .. => true
  | _ => false

end Failure

end CallChart

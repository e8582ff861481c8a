import CallChart.Settings
import CallChart.Toml.Reader

/-!
# Layers of settings

Where layers come from : the text of a settings file, in the TOML format, and the variables of
the environment. Keys of a file that are not known are passed over. The numbers of the
environment are read in a fixed order up to the first that is none, and what was read before it
counts.
-/

namespace CallChart

namespace Layer

/-! ## Files -/

def naturalOf? : Toml → Option Nat
  | .int n => if 0 ≤ n then some n.toNat else none
  | _ => none

def textOf? : Toml → Option String
  | .text s => some s
  | _ => none

/-- What stands under a key, read by `read`. A key that is not there leaves the setting open. -/
def optional {α : Type} (read : Toml → Option α) (fields : List (String × Toml)) (key : String) :
    Option (Option α) :=
  match fields.lookup key with
  | none => some none
  | some v => (read v).map some

/-- The items of an array, read one after another for as many places as there are. -/
def inOrder : (places : Nat) → List Toml → Option (List (Option Nat))
  | 0, _ => some []
  | places + 1, [] => (inOrder places []).map (none :: ·)
  | places + 1, v :: vs =>
    match naturalOf? v, inOrder places vs with
    | some n, some ns => some (some n :: ns)
    | _, _ => none

/-- Limits are a table, or an array of the limits in order. A date counts as a table without any
of the keys. -/
def limitsOf? : Toml → Option LimitsLayer
  | .table fields => do
    return {
      nodes := ← optional naturalOf? fields "max_nodes"
      edges := ← optional naturalOf? fields "max_edges"
      blocks := ← optional naturalOf? fields "max_subgraphs"
      size := ← optional naturalOf? fields "max_size" }
  | .array items =>
    match inOrder 4 items with
    | some [nodes, edges, blocks, size] => some ⟨nodes, edges, blocks, size⟩
    | _ => none
  | .date _ => some {}
  | _ => none

/-- The layer that the root table of a file says. -/
def ofFields? (fields : List (String × Toml)) : Option Layer := do
  return {
    entryPoints := ← optional naturalOf? fields "max_entry_points"
    nodes := ← optional naturalOf? fields "max_nodes"
    depth := ← optional naturalOf? fields "max_collection_depth"
    calls := ← optional naturalOf? fields "max_calls_per_function"
    perClass := ← optional naturalOf? fields "max_functions_per_class"
    labelFormat := ← optional textOf? fields "label_format"
    theme := ← optional textOf? fields "theme"
    direction := ← optional textOf? fields "direction"
    title := ← optional textOf? fields "title"
    root := (← optional textOf? fields "source_root").map Path.mk
    limits := (← optional limitsOf? fields "limits").getD {} }

/-- The layer that the text of a file says. -/
def parse? (text : String) : Option Layer :=
  (Toml.parse? text).bind ofFields?

/-! ## The environment -/

/-- The first number that 64 bits do not hold. -/
def numberBound : Nat :=
  18446744073709551616

/-- The number a text writes : decimal digits, behind one plus sign at most, of a number that
64 bits hold. -/
def readNumber? (cs : List Char) : Option Nat :=
  let digits :=
    match cs with
    | '+' :: r => r
    | cs => cs
  if digits.isEmpty || !digits.all Char.isDigit then none
  else
    let n := Nat.ofDigitChars 10 digits 0
    if n < numberBound then some n else none

/-- The variables that hold numbers, and what they set. -/
def numericVariables : List (String × (Layer → Nat → Layer)) :=
  [("CODEFLOW_MAX_ENTRY_POINTS", fun l n => { l with entryPoints := some n }),
    ("CODEFLOW_MAX_NODES", fun l n => { l with nodes := some n }),
    ("CODEFLOW_MAX_DEPTH", fun l n => { l with depth := some n }),
    ("CODEFLOW_MAX_CALLS", fun l n => { l with calls := some n }),
    ("CODEFLOW_MAX_FUNCTIONS_PER_CLASS", fun l n => { l with perClass := some n })]

/-- Take the numbers of the environment into a layer, up to the first that is none. -/
def readNumbers (lookup : String → Option String) :
    Layer → List (String × (Layer → Nat → Layer)) → Layer × Option SettingsFault
  | l, [] => (l, none)
  | l, (key, set) :: rest =>
    match lookup key with
    | none => readNumbers lookup l rest
    | some value =>
      match readNumber? (Text.trim value.toList) with
      | some n => readNumbers lookup (set l n) rest
      | none => (l, some (.notNumber key value))

/-- The layer of the environment, and what is wrong with it. What comes before the first fault
counts, what comes after it does not. -/
def ofEnvironment (lookup : String → Option String) : Layer × Option SettingsFault :=
  match readNumbers lookup {} numericVariables with
  | (l, some fault) => (l, some fault)
  | (l, none) =>
    ({ l with labelFormat := lookup "CODEFLOW_LABEL_FORMAT", theme := lookup "CODEFLOW_THEME" },
      none)

end Layer

end CallChart

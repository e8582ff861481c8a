import CallChart.Layer

/-!
# Command lines

What the words of a command line ask for. A command has options, each known by a name behind two
hyphens and some by a letter behind one. An option may be a flag or take a value, which stands
behind an equals sign or is the next word ; letters may be run together. Words behind `--` are
no options. A command line that cannot be understood is refused as a whole, and asking for help
or for the version ends the reading where it stands.
-/

namespace CallChart

/-- What an option takes. -/
inductive OptionKind where
  | flag | text | path | number
  deriving DecidableEq

/-- An option of a command. -/
structure CommandOption where
  name : String
  letter : Option Char := none
  kind : OptionKind
  /-- May be given more than once. -/
  repeats : Bool := false

/-- Why reading a command line ends early. -/
inductive Stop where
  | misuse | help | version
  deriving DecidableEq

/-- Options that were given, with their values, and other words. -/
structure Given where
  options : List (String × String) := []
  words : List String := []

namespace Given

def has (g : Given) (name : String) : Bool :=
  (g.options.lookup name).isSome

def value? (g : Given) (name : String) : Option String :=
  g.options.lookup name

def values (g : Given) (name : String) : List String :=
  (g.options.filter fun o => o.1 = name).map Prod.snd

def number? (g : Given) (name : String) : Option Nat :=
  (g.value? name).bind fun s => Layer.readNumber? s.toList

def path? (g : Given) (name : String) : Option Path :=
  (g.value? name).map Path.mk

end Given

namespace CommandOption

def helpName : String :=
  "help"

def versionName : String :=
  "version"

/-- Whether a text can be the value of an option. -/
def accepts : OptionKind → String → Bool
  | .flag, _ => false
  | .text, _ => true
  | .path, s => s != ""
  | .number, s => (Layer.readNumber? s.toList).isSome

/-- An option is given, with a value unless it is a flag. -/
def give (o : CommandOption) (value : Option String) (g : Given) : Except Stop Given :=
  if o.name = helpName then .error (if value.isNone then .help else .misuse)
  else if o.name = versionName then .error (if value.isNone then .version else .misuse)
  else if g.has o.name && !o.repeats then .error .misuse
  else
    match o.kind, value with
    | .flag, none => .ok { g with options := g.options ++ [(o.name, "")] }
    | .flag, some _ => .error .misuse
    | _, none => .error .misuse
    | kind, some v =>
      if accepts kind v then .ok { g with options := g.options ++ [(o.name, v)] }
      else .error .misuse

/-- Letters run together. An option that takes a value takes the letters behind its own, less an
equals sign in front ; if there are none, its value is still to come. -/
def giveLetters (options : List CommandOption) :
    List Char → Given → Except Stop (Given × Option CommandOption)
  | [], g => .ok (g, none)
  | c :: cs, g =>
    match options.find? fun o => o.letter = some c with
    | none => .error .misuse
    | some o =>
      if o.kind = .flag then do giveLetters options cs (← o.give none g)
      else
        match cs with
        | [] => .ok (g, some o)
        | '=' :: value => do return (← o.give (some (String.ofList value)) g, none)
        | value => do return (← o.give (some (String.ofList value)) g, none)

/-- A word that begins an option. A hyphen alone does not. -/
def isOptionWord (word : String) : Bool :=
  match word.toList with
  | '-' :: _ :: _ => true
  | _ => false

/-- The part of a long option in front of an equals sign and the part behind it. -/
def splitValue (cs : List Char) : String × Option String :=
  match cs.span (· != '=') with
  | (name, _ :: value) => (String.ofList name, some (String.ofList value))
  | (name, []) => (String.ofList name, none)

/-- One word that begins an option. Gives the option whose value is still to come, if any. -/
def giveWord (options : List CommandOption) (word : String) (g : Given) :
    Except Stop (Given × Option CommandOption) :=
  match word.toList with
  | '-' :: '-' :: long =>
    let (name, value) := splitValue long
    match options.find? fun o => o.name = name with
    | none => .error .misuse
    | some o =>
      if o.kind ≠ .flag ∧ value.isNone then .ok (g, some o)
      else do return (← o.give value g, none)
  | _ :: letters => giveLetters options letters g
  | [] => .error .misuse

/-- Words that are no options are given, as far as the command has room for `places` of them. They
are paths. -/
def giveWords (places : Nat) (words : List String) (g : Given) : Except Stop Given :=
  if g.words.length + words.length ≤ places ∧ words.all (accepts .path) then
    .ok { g with words := g.words ++ words }
  else .error .misuse

/-- Read the words of a command that has room for `places` words that are no options. -/
def readWords (options : List CommandOption) (places : Nat) :
    List String → Given → Except Stop Given
  | [], g => .ok g
  | word :: rest, g =>
    if word = "--" then giveWords places rest g
    else if isOptionWord word then
      match giveWord options word g with
      | .error stop => .error stop
      | .ok (g, none) => readWords options places rest g
      | .ok (g, some o) =>
        match rest with
        | [] => .error .misuse
        | value :: rest =>
          if isOptionWord value then .error .misuse
          else do readWords options places rest (← o.give (some value) g)
    else
      match giveWords places [word] g with
      | .error stop => .error stop
      | .ok g => readWords options places rest g

end CommandOption

/-! ## Commands -/

/-- What making charts is asked with. -/
structure GenerateRequest where
  inputs : List Path
  output : Path
  settings : Option Path
  layer : Layer
  threads : Option Nat
  showStats : Bool

/-- What a command line asks for. -/
inductive Command where
  | generate (request : GenerateRequest)
  | check (diagram : Path) (settings : Option Path)

namespace Command

def verboseOption : CommandOption :=
  { name := "verbose", letter := some 'v', kind := .flag }

def helpOption : CommandOption :=
  { name := CommandOption.helpName, letter := some 'h', kind := .flag }

def versionOption : CommandOption :=
  { name := CommandOption.versionName, letter := some 'V', kind := .flag }

def settingsOption : CommandOption :=
  { name := "config", letter := some 'c', kind := .path }

/-- Options in front of the command. -/
def leadingOptions : List CommandOption :=
  [verboseOption, helpOption, versionOption]

def generateOptions : List CommandOption :=
  [{ name := "input", letter := some 'i', kind := .path, repeats := true },
    { name := "output", letter := some 'o', kind := .path },
    settingsOption,
    { name := "max-nodes", kind := .number },
    { name := "max-depth", kind := .number },
    { name := "max-entry-points", kind := .number },
    { name := "label-format", kind := .text },
    { name := "theme", kind := .text },
    { name := "direction", kind := .text },
    { name := "title", kind := .text },
    { name := "threads", kind := .number },
    { name := "stats", kind := .flag },
    verboseOption, helpOption]

def checkOptions : List CommandOption :=
  [settingsOption, verboseOption, helpOption]

/-- The layer of settings that options say. -/
def layerOf (g : Given) : Layer where
  nodes := g.number? "max-nodes"
  depth := g.number? "max-depth"
  entryPoints := g.number? "max-entry-points"
  labelFormat := g.value? "label-format"
  theme := g.value? "theme"
  direction := g.value? "direction"
  title := g.value? "title"

/-- What is asked of `generate`. Inputs and an output are needed. -/
def generateOf (g : Given) : Except Stop Command :=
  match g.values "input", g.path? "output" with
  | [], _ => .error .misuse
  | _, none => .error .misuse
  | inputs, some output =>
    .ok (.generate {
      inputs := inputs.map Path.mk
      output := output
      settings := g.path? "config"
      layer := layerOf g
      threads := g.number? "threads"
      showStats := g.has "stats" })

/-- What is asked of `check`. A diagram is needed. -/
def checkOf (g : Given) : Except Stop Command :=
  match g.words with
  | [diagram] => .ok (.check ⟨diagram⟩ (g.path? "config"))
  | _ => .error .misuse

/-- The options in front of the command, the command and the words behind it. -/
def splitCommand : List String → Given → Except Stop (Given × String × List String)
  | [], _ => .error .misuse
  | word :: rest, g =>
    if word = "--" then .error .misuse
    else if CommandOption.isOptionWord word then
      match CommandOption.giveWord leadingOptions word g with
      | .error stop => .error stop
      | .ok (g, none) => splitCommand rest g
      | .ok (_, some _) => .error .misuse
    else .ok (g, word, rest)

/-- What a command line asks for, and whether it wants debug reports. -/
def ofWords (words : List String) : Except Stop (Command × Bool) := do
  let (leading, name, rest) ← splitCommand words {}
  match name with
  | "generate" =>
    let g ← CommandOption.readWords generateOptions 0 rest {}
    return (← generateOf g, leading.has "verbose" || g.has "verbose")
  | "check" =>
    let g ← CommandOption.readWords checkOptions 1 rest {}
    return (← checkOf g, leading.has "verbose" || g.has "verbose")
  | "help" =>
    match rest with
    | [] | ["generate"] | ["check"] | ["help"] => throw .help
    | _ => throw .misuse
  | _ => throw .misuse

end Command

end CallChart

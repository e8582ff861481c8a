import CallChart.Document

/-!
# Registers

A register is a symbol table that keeps the key of an entry and the name in its record apart. A
symbol is entered under its own name. A document may hold a record under a key that is not its
name : it is read under that key, and when all are read every record takes the name of its key
(`Register.rename`). A filing is a document with a register for its table.
-/

namespace CallChart

/-- Records of symbols under distinct keys, in the order in which the keys came. -/
abbrev Register := Keyed Symbol

namespace Register

/-- Enter a symbol under its name. -/
def enter (r : Register) (s : Symbol) : Register :=
  r.insert s.name s

/-- The register of symbols that are entered one after another. -/
def ofList (symbols : List Symbol) : Register :=
  symbols.foldl enter Keyed.empty

/-- Entries whose records take the names of their keys. -/
def renamed (es : Entries Symbol) : Entries Symbol :=
  es.map fun e => (e.1, { e.2 with name := e.1 })

theorem renamed_cons (e : String × Symbol) (es : Entries Symbol) :
    renamed (e :: es) = (e.1, { e.2 with name := e.1 }) :: renamed es :=
  rfl

theorem keys_renamed (es : Entries Symbol) : (renamed es).keys = es.keys := by
  rw [renamed, Entries.keys, List.map_map]
  rfl

/-- Every record takes the name of its key. -/
def rename (r : Register) : Register :=
  ⟨renamed r.entries, by rw [keys_renamed]; exact r.nodup_keys⟩

def want (o : Outline) : Except Fault Register := do
  let r ← o.wantMembers (fun r key value => do
    return r.insert key (← Symbol.want value)) Keyed.empty
  return rename r

def parse (text : String) : Except Fault Register :=
  Outline.parse want text.toList

def json (r : Register) : Json :=
  .object (r.entries.map fun e => (e.1, e.2.json))

end Register

/-! ## Filings -/

/-- A document whose symbols stand in a register. -/
structure Filing where
  symbols : Register := Keyed.empty
  calls : CallGraph := {}
  deriving DecidableEq, Inhabited

namespace Filing

/-- The value of a field, read into a filing. -/
def read (f : DocumentField) (o : Outline) (d : Filing) : Except Fault Filing :=
  match f with
  | .symbols => do return { d with symbols := ← Register.want o }
  | .calls => do return { d with calls := ← CallGraph.want o }

/-- The value of a field, written. -/
def value (f : DocumentField) (d : Filing) : Json :=
  match f with
  | .symbols => d.symbols.json
  | .calls => d.calls.json

def want (o : Outline) : Except Fault Filing :=
  o.wantRecord DocumentField.all DocumentField.ofKey? read {}

/-- The filing that a text writes. -/
def parse (text : String) : Except Fault Filing :=
  Outline.parse want text.toList

def json (d : Filing) : Json :=
  .object (DocumentField.all.map fun f => (f.key, value f d))

/-- The text of a filing, without blanks. -/
def text (d : Filing) : String :=
  d.json.compactText

end Filing

/-- Registers that are made of symbols, entered symbol by symbol, or read from a text. -/
inductive Register.Built : Register → Prop
  | ofList (symbols : List Symbol) : Built (Register.ofList symbols)
  | enter {r : Register} (s : Symbol) : Built r → Built (r.enter s)
  | read {text : String} {r : Register} : Register.parse text = .ok r → Built r
  | filed {text : String} {d : Filing} : Filing.parse text = .ok d → Built d.symbols

end CallChart

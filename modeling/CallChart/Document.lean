import CallChart.CallGraph
import CallChart.Json.Outline
import CallChart.Json.Printer
import CallChart.Symbol

/-!
# Input documents

A document holds a symbol table and a call graph, as a JSON text. `Document.parse` reads one
and `Document.text` writes it. Records may be written as objects, whose fields may come in any
order, may be missing and may be unknown, or as arrays of their fields in order. A record's
field given twice is a fault ; of a table's or graph's key given twice the later value counts,
in the place of the earlier one. A symbol takes its name from its key in the table.
-/

namespace CallChart

/-- What a chart is drawn from. -/
structure Document where
  symbols : SymbolTable := {}
  calls : CallGraph := {}
  deriving DecidableEq, Inhabited

/-! ## Records -/

namespace Outline

/-- Read the members of an object into a record. `field?` tells the field a name stands for,
`read` reads the value of a field into the record, `seen` holds the fields that were there. -/
def readFields {φ ρ : Type} [DecidableEq φ] (field? : String → Option φ)
    (read : φ → Outline → ρ → Except Fault ρ) (seen : List φ) (record : ρ) :
    List (Quoted × Outline) → Except Fault ρ
  | [] => .ok record
  | (name, value) :: members => do
    match field? (← name.spelling) with
    | none =>
      value.skip
      readFields field? read seen record members
    | some f =>
      if f ∈ seen then throw .mistyped
      readFields field? read (f :: seen) (← read f value record) members

/-- Read the items of an array into the fields of a record, one after another. -/
def readInOrder {φ ρ : Type} (read : φ → Outline → ρ → Except Fault ρ) (record : ρ) :
    List φ → List Outline → Except Fault ρ
  | _, [] => .ok record
  | [], _ :: _ => .error .malformed
  | f :: fields, item :: items => do readInOrder read (← read f item record) fields items

/-- A record whose fields are `fields` in order, `record` being the one without any. -/
def wantRecord {φ ρ : Type} [DecidableEq φ] (fields : List φ) (field? : String → Option φ)
    (read : φ → Outline → ρ → Except Fault ρ) (record : ρ) : Outline → Except Fault ρ
  | .object members stop => do
    let r ← readFields field? read [] record members
    wantEnd stop
    return r
  | .array items stop => do
    let r ← readInOrder read record fields items
    wantEnd stop
    return r
  | o => .error o.otherKind

/-- Enter the members of an object one after another, starting from `a`. -/
def wantMembers {α : Type} (enter : α → String → Outline → Except Fault α) (a : α) :
    Outline → Except Fault α
  | .object members stop => do
    let a ← members.foldlM (fun a m => do enter a (← m.1.spelling) m.2) a
    wantEnd stop
    return a
  | o => .error o.otherKind

/-- The items of an array. -/
def wantItems {α : Type} (want : Outline → Except Fault α) : Outline → Except Fault (List α)
  | .array items stop => do
    let as ← items.mapM want
    wantEnd stop
    return as
  | o => .error o.otherKind

end Outline

/-! ## Symbols -/

/-- Fields of a symbol. -/
inductive SymbolField where
  | name | displayName | owner | path | firstLine | lastLine | scope | isEntry
  deriving DecidableEq

namespace SymbolField

/-- The fields in the order in which they are written. -/
def all : List SymbolField :=
  [.name, .displayName, .owner, .path, .firstLine, .lastLine, .scope, .isEntry]

/-- The name under which a field is written. -/
def key : SymbolField → String
  | .name => "qualified_name"
  | .displayName => "display_name"
  | .owner => "class"
  | .path => "path"
  | .firstLine => "line"
  | .lastLine => "end"
  | .scope => "scope"
  | .isEntry => "is_entry_point"

/-- A second name under which a field is read. -/
def otherKey? : SymbolField → Option String
  | .owner => some "owning_class"
  | .path => some "file_path"
  | .firstLine => some "line_start"
  | .lastLine => some "line_end"
  | _ => none

/-- The field that a name stands for. -/
def ofKey? (key : String) : Option SymbolField :=
  all.find? fun f => f.key = key ∨ f.otherKey? = some key

/-- The value of a field, read into a symbol. -/
def read (f : SymbolField) (o : Outline) (s : Symbol) : Except Fault Symbol :=
  match f with
  | .name => do return { s with name := ← o.wantText }
  | .displayName => do return { s with displayName := ← o.wantText? }
  | .owner => do return { s with owner := ← o.wantText? }
  | .path => do return { s with path := ⟨← o.wantText⟩ }
  | .firstLine => do return { s with firstLine := UInt32.ofNat (← o.wantNat32) }
  | .lastLine => do return { s with lastLine := UInt32.ofNat (← o.wantNat32) }
  | .scope => do return { s with scope := ← o.wantText? }
  | .isEntry => do return { s with isEntry := ← o.wantBool }

/-- The value of a field, written. -/
def value (f : SymbolField) (s : Symbol) : Json :=
  match f with
  | .name => .text s.name
  | .displayName => .ofText? s.displayName
  | .owner => .ofText? s.owner
  | .path => .text s.path.text
  | .firstLine => .ofNat s.firstLine.toNat
  | .lastLine => .ofNat s.lastLine.toNat
  | .scope => .ofText? s.scope
  | .isEntry => .bool s.isEntry

end SymbolField

namespace Symbol

def want (o : Outline) : Except Fault Symbol :=
  o.wantRecord SymbolField.all SymbolField.ofKey? SymbolField.read {}

def parse (text : String) : Except Fault Symbol :=
  Outline.parse want text.toList

def json (s : Symbol) : Json :=
  .object (SymbolField.all.map fun f => (f.key, f.value s))

end Symbol

/-! ## Tables and graphs -/

namespace SymbolTable

def want (o : Outline) : Except Fault SymbolTable :=
  o.wantMembers (fun t name value => do
    return t.insert { (← Symbol.want value) with name := name }) {}

def parse (text : String) : Except Fault SymbolTable :=
  Outline.parse want text.toList

def json (t : SymbolTable) : Json :=
  .object (t.symbols.map fun s => (s.name, s.json))

end SymbolTable

namespace CallGraph

def want (o : Outline) : Except Fault CallGraph :=
  o.wantMembers (fun g caller value => do
    return ⟨g.calls.insert caller (← value.wantItems Outline.wantText)⟩) {}

def parse (text : String) : Except Fault CallGraph :=
  Outline.parse want text.toList

def json (g : CallGraph) : Json :=
  .object (g.calls.entries.map fun e => (e.1, .array (e.2.map .text)))

end CallGraph

/-! ## Documents -/

/-- Fields of a document. -/
inductive DocumentField where
  | symbols | calls
  deriving DecidableEq

namespace DocumentField

/-- The fields in the order in which they are written. -/
def all : List DocumentField :=
  [.symbols, .calls]

/-- The name under which a field is written and read. -/
def key : DocumentField → String
  | .symbols => "symbol_table"
  | .calls => "call_graph"

/-- The field that a name stands for. -/
def ofKey? (key : String) : Option DocumentField :=
  all.find? fun f => f.key = key

/-- The value of a field, read into a document. -/
def read (f : DocumentField) (o : Outline) (d : Document) : Except Fault Document :=
  match f with
  | .symbols => do return { d with symbols := ← SymbolTable.want o }
  | .calls => do return { d with calls := ← CallGraph.want o }

/-- Whether there is anything in a field. -/
def isPresent (f : DocumentField) (d : Document) : Bool :=
  match f with
  | .symbols => !d.symbols.isEmpty
  | .calls => !d.calls.isEmpty

/-- The value of a field, written. -/
def value (f : DocumentField) (d : Document) : Json :=
  match f with
  | .symbols => d.symbols.json
  | .calls => d.calls.json

end DocumentField

namespace Document

def want (o : Outline) : Except Fault Document :=
  o.wantRecord DocumentField.all DocumentField.ofKey? DocumentField.read {}

/-- The document that a text writes. -/
def parse (text : String) : Except Fault Document :=
  Outline.parse want text.toList

def json (d : Document) : Json :=
  .object (DocumentField.all.map fun f => (f.key, f.value d))

/-- The text of a document, without blanks. -/
def text (d : Document) : String :=
  d.json.compactText

/-- The fields that hold anything. -/
def present (d : Document) : List DocumentField :=
  DocumentField.all.filter fun f => f.isPresent d

/-- The first field that holds nothing. -/
def missing? (d : Document) : Option DocumentField :=
  DocumentField.all.find? fun f => !f.isPresent d

end Document

end CallChart

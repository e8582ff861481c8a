import CallChart.Toml.Scalar

/-!
# Reading TOML

`Toml.parse?` gives the fields of the root table of a TOML document, or nothing if the text is
none. Arrays and inline tables nest fewer than eighty deep, and a dotted key has fewer than
eighty parts.
-/

namespace CallChart

namespace Toml

/-- Nesting and key length stay below this. -/
def nestingLimit : Nat :=
  80

/-! ## Blanks and comments -/

/-- What is behind a comment, if one begins here. -/
def skipComment (cs : List Char) : List Char :=
  match cs with
  | '#' :: r => r.dropWhile isPlain
  | cs => cs

/-- What is behind blanks, comments and line ends. Each step of `fuel` passes over a line. -/
def skipLines : (fuel : Nat) → List Char → List Char
  | 0, cs => cs
  | fuel + 1, cs =>
    let cs := skipSpace cs
    match lineEnd? (skipComment cs) with
    | some rest => skipLines fuel rest
    | none => cs

/-- The next line, if nothing but blanks and a comment is left of this one. -/
def endLine? (cs : List Char) : Option (List Char) :=
  match skipComment (skipSpace cs) with
  | [] => some []
  | cs => lineEnd? cs

/-! ## Keys -/

def isBare (c : Char) : Bool :=
  c.isAlphanum || c == '_' || c == '-'

/-- One part of a key. -/
def readKeyPart (cs : List Char) : Option (String × List Char) :=
  match cs with
  | '"' :: r => readBasic [] r
  | '\'' :: r => readLiteral [] r
  | cs =>
    match cs.span isBare with
    | ([], _) => none
    | (part, rest) => some (String.ofList part, rest)

/-- The parts of a dotted key, with the blanks around them. -/
def readKey : (fuel : Nat) → List Char → Option (List String × List Char)
  | 0, _ => none
  | fuel + 1, cs => do
    let (part, rest) ← readKeyPart (skipSpace cs)
    match skipSpace rest with
    | '.' :: rest => (readKey fuel rest).map fun p => (part :: p.1, p.2)
    | rest => some ([part], rest)

/-- A key and its last part apart. The fuel is the bound on the number of parts. -/
def readPath (cs : List Char) : Option ((List String × String) × List Char) := do
  let (parts, rest) ← readKey (nestingLimit - 1) cs
  let key ← parts.getLast?
  return ((parts.dropLast, key), rest)

/-! ## Values -/

mutual

/-- A value inside `depth` brackets. -/
def readValue (fuel depth : Nat) (cs : List Char) : Option (Toml × List Char) :=
  match fuel with
  | 0 => none
  | fuel + 1 =>
    match cs with
    | '"' :: '"' :: '"' :: r =>
      (readLongBasic false [] (dropLineEnd r)).map fun p => (.text p.1, p.2)
    | '"' :: r => (readBasic [] r).map fun p => (.text p.1, p.2)
    | '\'' :: '\'' :: '\'' :: r =>
      (readLongLiteral [] (dropLineEnd r)).map fun p => (.text p.1, p.2)
    | '\'' :: r => (readLiteral [] r).map fun p => (.text p.1, p.2)
    | '[' :: r =>
      if nestingLimit ≤ depth + 1 then none
      else (readItems fuel (depth + 1) r).map fun p => (.array p.1, p.2)
    | '\x7b' :: r =>
      if nestingLimit ≤ depth + 1 then none
      else
        match skipSpace r with
        | '\x7d' :: r => some (.table [], r)
        | r => (readFields fuel (depth + 1) [] r).map fun p => (.table (finishFields p.1), p.2)
    | cs => readWord cs

/-- The items of an array and the closing bracket. A comma may stand behind the last item. -/
def readItems (fuel depth : Nat) (cs : List Char) : Option (List Toml × List Char) :=
  match fuel with
  | 0 => none
  | fuel + 1 =>
    match skipLines fuel cs with
    | ']' :: rest => some ([], rest)
    | cs =>
      match readValue fuel depth cs with
      | none => none
      | some (item, rest) =>
        match skipLines fuel rest with
        | ',' :: rest => (readItems fuel depth rest).map fun p => (item :: p.1, p.2)
        | ']' :: rest => some ([item], rest)
        | _ => none

/-- The fields of an inline table, one or more, and the closing brace. -/
def readFields (fuel depth : Nat) (fields : Drafts) (cs : List Char) : Option (Drafts × List Char) :=
  match fuel with
  | 0 => none
  | fuel + 1 =>
    match readPath cs with
    | some ((path, key), '=' :: rest) =>
      match readValue fuel depth (skipSpace rest) with
      | none => none
      | some (v, rest) =>
        match Drafts.enter key v path fields with
        | none => none
        | some fields =>
          match skipSpace rest with
          | ',' :: rest => readFields fuel depth fields rest
          | '\x7d' :: rest => some (fields, rest)
          | _ => none
    | _ => none

end

/-! ## Documents -/

/-- A document as far as it was read : the root table, and the path of the table that keys go
into. -/
structure Progress where
  root : Drafts := []
  header : List String := []

/-- The header of a table or of an element of an array of tables, from its inside on. -/
def readHeader (isElement : Bool) (p : Progress) (cs : List Char) : Option (Progress × List Char) := do
  let ((path, key), rest) ← readPath cs
  let rest ← match isElement, rest with
    | true, ']' :: ']' :: rest => some rest
    | false, ']' :: rest => some rest
    | _, _ => none
  let state := if isElement then Drafts.stateElement key else Drafts.stateTable key
  let root ← Drafts.below state path p.root
  return (⟨root, path ++ [key]⟩, rest)

/-- A key, an equals sign and a value. -/
def readPair (p : Progress) (cs : List Char) : Option (Progress × List Char) := do
  let ((path, key), rest) ← readPath cs
  match rest with
  | '=' :: rest =>
    let (v, rest) ← readValue (2 * rest.length + 2) 0 (skipSpace rest)
    let root ← Drafts.below (Drafts.enter key v path) p.header p.root
    return ({ p with root := root }, rest)
  | _ => none

/-- What a line says, if it says anything. -/
def readStatement (p : Progress) (cs : List Char) : Option (Progress × List Char) :=
  match skipSpace cs with
  | [] => some (p, [])
  | '[' :: '[' :: r => readHeader true p r
  | '[' :: r => readHeader false p r
  | c :: r => if c == '#' || c == '\n' || c == '\r' then some (p, c :: r) else readPair p (c :: r)

/-- The lines of a document. Each step of `fuel` reads one. -/
def readLines : (fuel : Nat) → Progress → List Char → Option Progress
  | 0, _, _ => none
  | fuel + 1, p, cs => do
    let (p, rest) ← readStatement p cs
    let rest ← endLine? rest
    if rest.isEmpty then return p else readLines fuel p rest

/-- The root table of a document. A byte order mark may stand in front of it. -/
def parse? (text : String) : Option (List (String × Toml)) :=
  let cs :=
    match text.toList with
    | '\ufeff' :: r => r
    | cs => cs
  (readLines (cs.length + 1) {} cs).map fun p => finishFields p.root

end Toml

end CallChart

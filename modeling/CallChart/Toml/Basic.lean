import CallChart.Keyed

/-!
# TOML values and drafts

A TOML document is put together from statements that may lie apart : `a.b = 1` enters a key of
a table, `[a.b]` opens a table for the keys that follow, `[[a.b]]` opens one more element of an
array of tables. A draft is a document on its way. It remembers how each table came about, since
that decides what may still be entered : a table that was stated is not stated again, and dotted
keys only go on with tables that dotted keys began.
-/

namespace CallChart

/-- A TOML value. Floats and dates are kept as they are written. -/
inductive Toml where
  | text (s : String)
  | int (n : Int)
  | float (written : String)
  | bool (b : Bool)
  | date (written : String)
  | array (items : List Toml)
  | table (fields : List (String × Toml))
  deriving Inhabited, BEq, Repr

namespace Toml

/-- How a table came about. -/
inductive Origin where
  /-- By a header of its own. -/
  | stated
  /-- By the header of a table inside. -/
  | implied
  /-- By a dotted key. -/
  | dotted
  deriving DecidableEq

/-- A value on its way. -/
inductive Draft where
  | value (v : Toml)
  | table (origin : Origin) (fields : List (String × Draft))
  /-- An array of tables. The last one may still grow. -/
  | tables (before : List (List (String × Draft))) (last : List (String × Draft))
  deriving Inhabited

/-- Keys with what is under them. -/
abbrev Drafts := List (String × Draft)

namespace Drafts

def put (k : String) (d : Draft) (ds : Drafts) : Drafts :=
  Entries.alter k (fun _ => d) ds

/-- Enter a value under a key that the path leads to. The tables on the way must not have been
stated, and the last of them must be the work of dotted keys. -/
def enter (key : String) (v : Toml) : (path : List String) → Drafts → Option Drafts
  | [], ds => if (ds.lookup key).isSome then none else some (ds ++ [(key, .value v)])
  | k :: path, ds =>
    match ds.lookup k with
    | none => (enter key v path []).map fun sub => ds ++ [(k, .table .dotted sub)]
    | some (.value _) => none
    | some (.table origin sub) =>
      if origin = .stated ∨ (path.isEmpty ∧ origin ≠ .dotted) then none
      else (enter key v path sub).map fun sub => put k (.table origin sub) ds
    | some (.tables before last) =>
      if path.isEmpty then none
      else (enter key v path last).map fun last => put k (.tables before last) ds

/-- Change the table that the path of a header leads to. Tables that are missing on the way are
implied ; of an array of tables the last one is meant. -/
def below (f : Drafts → Option Drafts) : (path : List String) → Drafts → Option Drafts
  | [], ds => f ds
  | k :: path, ds =>
    match ds.lookup k with
    | none => (below f path []).map fun sub => ds ++ [(k, .table .implied sub)]
    | some (.value _) => none
    | some (.table origin sub) => (below f path sub).map fun sub => put k (.table origin sub) ds
    | some (.tables before last) =>
      (below f path last).map fun last => put k (.tables before last) ds

/-- State a table. One that was only implied becomes stated. -/
def stateTable (key : String) (ds : Drafts) : Option Drafts :=
  match ds.lookup key with
  | none => some (ds ++ [(key, .table .stated [])])
  | some (.table .implied sub) => some (put key (.table .stated sub) ds)
  | some _ => none

/-- Begin one more table of an array of tables. -/
def stateElement (key : String) (ds : Drafts) : Option Drafts :=
  match ds.lookup key with
  | none => some (ds ++ [(key, .tables [] [])])
  | some (.tables before last) => some (put key (.tables (before ++ [last]) []) ds)
  | some _ => none

end Drafts

mutual

/-- The value that a draft has become. -/
def Draft.finish : Draft → Toml
  | .value v => v
  | .table _ fields => .table (finishFields fields)
  | .tables before last => .array (finishTables before ++ [.table (finishFields last)])

def finishFields : List (String × Draft) → List (String × Toml)
  | [] => []
  | (k, d) :: ds => (k, d.finish) :: finishFields ds

def finishTables : List (List (String × Draft)) → List Toml
  | [] => []
  | fields :: rest => .table (finishFields fields) :: finishTables rest

end

end Toml

end CallChart

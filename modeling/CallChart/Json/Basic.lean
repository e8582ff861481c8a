/-!
# JSON values

Values of the JSON format whose numbers are integers : the program writes no others. An object
is a list of members, since the order of members can be told from a text. `Json.sorted` is the
same value with the members of every object in the order of their names and each name once ; of
two members of one name the later one counts.
-/

namespace CallChart

/-- A JSON value without fractions. -/
inductive Json where
  | null
  | bool (b : Bool)
  | int (n : Int)
  | text (s : String)
  | array (items : List Json)
  | object (members : List (String × Json))
  deriving Inhabited, Repr

namespace Json

def ofNat (n : Nat) : Json :=
  .int n

/-- The value itself, or null for none. -/
def ofText? : Option String → Json
  | none => .null
  | some s => .text s

/-- Put `v` under `k` into members sorted by name. -/
def insertMember (k : String) (v : Json) : List (String × Json) → List (String × Json)
  | [] => [(k, v)]
  | (k', v') :: ms =>
    if k < k' then (k, v) :: (k', v') :: ms
    else if k = k' then (k, v) :: ms
    else (k', v') :: insertMember k v ms

/-- Members in the order of their names, the last of each name. -/
def sortMembers (ms : List (String × Json)) : List (String × Json) :=
  ms.foldl (fun sorted m => insertMember m.1 m.2 sorted) []

mutual

/-- The value with the members of every object sorted by name. -/
def sorted : Json → Json
  | .array items => .array (sortedItems items)
  | .object ms => .object (sortMembers (sortedMembers ms))
  | v => v

def sortedItems : List Json → List Json
  | [] => []
  | v :: vs => sorted v :: sortedItems vs

def sortedMembers : List (String × Json) → List (String × Json)
  | [] => []
  | (k, v) :: ms => (k, sorted v) :: sortedMembers ms

end

end Json

end CallChart

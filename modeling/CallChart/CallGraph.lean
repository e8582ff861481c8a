import CallChart.Keyed

/-!
# Call graphs

A call graph says which functions each caller calls, in the order of the calls. Repeated calls
and calls of a function to itself stand as they are given, and a callee need not be a caller.
-/

namespace CallChart

/-- Callers with their callees in call order. -/
structure CallGraph where
  calls : Keyed (List String) := Keyed.empty
  deriving DecidableEq, Inhabited

namespace CallGraph

/-- Enter a caller, without callees if it is new. -/
def addCaller (g : CallGraph) (caller : String) : CallGraph :=
  ⟨g.calls.alter caller fun callees => callees.getD []⟩

/-- Enter a call behind the other calls of its caller. -/
def addCall (g : CallGraph) (caller callee : String) : CallGraph :=
  ⟨g.calls.alter caller fun callees => callees.getD [] ++ [callee]⟩

/-- The graph of callers with their callees, entered one after another. -/
def ofList (pairs : List (String × List String)) : CallGraph :=
  pairs.foldl (fun g p => p.2.foldl (fun g callee => g.addCall p.1 callee) (g.addCaller p.1)) {}

/-- The callees of a function, none if it is no caller. -/
def callees (g : CallGraph) (caller : String) : List String :=
  (g.calls.get? caller).getD []

def callers (g : CallGraph) : List String :=
  g.calls.keys

def size (g : CallGraph) : Nat :=
  g.calls.size

def isEmpty (g : CallGraph) : Bool :=
  g.calls.isEmpty

end CallGraph

end CallChart

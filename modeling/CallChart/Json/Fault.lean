/-!
# Faults of a JSON text

A text is refused for one of three reasons, and the first one in reading order counts.
-/

namespace CallChart

/-- Why a JSON text is refused. -/
inductive Fault where
  /-- It breaks the grammar. -/
  | malformed
  /-- It ends before the value does. -/
  | truncated
  /-- It holds a value of another kind than the place asks for, or a field twice. -/
  | mistyped
  deriving DecidableEq, Repr, Inhabited

end CallChart

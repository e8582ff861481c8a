/-!
# Binary floating point

The format binary64 keeps 53 binary digits of a number. `nearest` rounds a natural number to as
many, as if there were no largest number, and `tooLarge` is where rounding leaves the finite
numbers.
-/

namespace CallChart.Binary64

/-- How many binary digits at the end of a number are not kept. -/
def surplus (n : Nat) : Nat :=
  n.log2 - 52

/-- The multiple of `unit` that is nearest to a number. Of two that are equally near, the one
with the even quotient. -/
def roundTo (unit n : Nat) : Nat :=
  let down := n / unit
  let rest := n % unit
  if unit < 2 * rest ∨ (unit = 2 * rest ∧ down % 2 = 1) then (down + 1) * unit
  else down * unit

/-- The nearest number with 53 binary digits. -/
def nearest (n : Nat) : Nat :=
  roundTo (Nat.shiftLeft 1 (surplus n)) n

/-- Half the way from the largest finite number to the next power of two : what is not below it
rounds to infinity. -/
def tooLarge : Nat :=
  Nat.pow 2 1024 - Nat.pow 2 970

end CallChart.Binary64

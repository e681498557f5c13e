import Mathlib.Data.Rat.Floor

/-!
JavaScript numbers as the gateway's guards see them.

A finite number keeps its exact rational value. The guards refuse everything
outside the safe integers, so the sums that are guarded are exact in the source
too; rounding of unguarded sums is not modelled.
-/

namespace Gateway

inductive JsNumber where
  | finite (value : ℚ)
  | nan
  | infinity
  | negInfinity
deriving DecidableEq, Repr

namespace JsNumber

def ofInt (n : Int) : JsNumber := .finite n

/-- `value === 0` -/
def isZero : JsNumber → Bool
  | .finite q => decide (q = 0)
  | _ => false

def add : JsNumber → JsNumber → JsNumber
  | .finite p, .finite q => .finite (p + q)
  | .infinity, .finite _ | .finite _, .infinity | .infinity, .infinity => .infinity
  | .negInfinity, .finite _ | .finite _, .negInfinity | .negInfinity, .negInfinity => .negInfinity
  | _, _ => .nan

/-- The value of a finite number. -/
def toRat : JsNumber → ℚ
  | .finite q => q
  | _ => 0

end JsNumber

/-- `Number.MAX_SAFE_INTEGER` -/
def maxSafeInteger : Nat := 2 ^ 53 - 1

def isSafeInteger (n : Int) : Bool := decide (n.natAbs ≤ maxSafeInteger)

end Gateway

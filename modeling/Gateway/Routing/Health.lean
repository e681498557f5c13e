import Mathlib.Init

/-!
The record of a channel's outcome.

Health bookkeeping never fails the request it is about: when a store fails, the
outcome is answered as if nothing had been counted.
-/

namespace Gateway

structure ChannelOutcome where
  tripped : Bool
  fails : Nat
  autoDisabled : Bool
deriving DecidableEq, Repr

/-- What the health script answers, and what disabling the channel answers;
`none` when the store fails. -/
structure HealthStores where
  script : Option (Bool × Nat)
  disable : Option Bool

/-- The failures after which a channel is disabled for good, never below the
threshold of the breaker; 0 is never. -/
def autoDisableAfter (configured threshold : Nat) : Nat :=
  if configured = 0 then 0 else max configured threshold

def recordChannelOutcome (limit : Nat) (stores : HealthStores) (ok : Bool) : ChannelOutcome :=
  match stores.script with
  | none => ⟨false, 0, false⟩
  | some (tripped, fails) =>
      if !ok && decide (0 < limit ∧ limit ≤ fails) then
        ⟨tripped, fails, stores.disable.getD false⟩
      else ⟨tripped, fails, false⟩

end Gateway

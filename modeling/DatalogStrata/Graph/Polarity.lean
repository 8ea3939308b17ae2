/-!
# Polarity of dependencies

A dependency is negative when it passes through a negation. Several dependencies between the same
two ends are merged into one, which is negative when one of them is.

## Main definitions

* `Polarity`, `Polarity.merge`
-/

namespace DatalogStrata

/-- The sign of a dependency. -/
inductive Polarity where
  | positive
  | negative
deriving DecidableEq, Repr

namespace Polarity

/-- Whether the sign is negative. -/
def isNegative : Polarity → Bool
  | positive => false
  | negative => true

/-- Negative if one of the two is negative. -/
def merge (a b : Polarity) : Polarity :=
  if a.isNegative || b.isNegative then negative else positive

theorem isNegative_iff {sign : Polarity} : sign.isNegative = true ↔ sign = negative := by
  cases sign <;> simp [isNegative]

/-- The sign of a negated or plain occurrence. -/
def ofNegated (negated : Bool) : Polarity :=
  if negated then negative else positive

/-- The written sign. -/
def text : Polarity → String
  | positive => "+"
  | negative => "-"

end Polarity

end DatalogStrata

/-!
# Sets and maps of code points

Tables are given by ranges: a set by the ranges it covers, a case map by the runs it shifts.
-/

namespace PropertyTables.Text

/-- A set of code points, as inclusive ranges. -/
abbrev CodePoints := Array (Nat × Nat)

def CodePoints.contains (points : CodePoints) (c : Char) : Bool :=
  points.any fun (first, last) => first ≤ c.toNat && c.toNat ≤ last

/-- Every `step`-th code point from `first` to `last` maps to the one as far from `target`. -/
structure CaseRun where
  first : Nat
  last : Nat
  step : Nat
  target : Nat

def CaseRun.image? (run : CaseRun) (point : Nat) : Option Nat :=
  if run.first ≤ point ∧ point ≤ run.last ∧ (point - run.first) % run.step = 0 then
    some (run.target + (point - run.first))
  else none

end PropertyTables.Text

set_option autoImplicit false

namespace Docscript.Text

/-- Every `step`-th code point from `first` to `last`, both included. -/
structure CharRange where
  first : Nat
  last : Nat
  step : Nat := 1
  deriving DecidableEq

namespace CharRange

def contains (range : CharRange) (code : Nat) : Bool :=
  range.first ≤ code && code ≤ range.last && (code - range.first) % range.step == 0

theorem contains_iff (range : CharRange) (code : Nat) :
    range.contains code = true ↔
      range.first ≤ code ∧ code ≤ range.last ∧ (code - range.first) % range.step = 0 := by
  simp [contains, and_assoc]

end CharRange

/-- Whether a character lies in one of the ranges. -/
def inRanges (ranges : List CharRange) (c : Char) : Bool :=
  ranges.any (·.contains c.toNat)

end Docscript.Text

import Sema.Text.Numeral

/-! # Positions -/

namespace Sema

/-- Line and column. A reader may number them as it likes, so they are arbitrary integers. -/
structure Pos where
  line : Int
  col : Int
  deriving DecidableEq, Repr

/-- Where a thing without a position of its own is said to stand. -/
def Pos.origin : Pos := ⟨0, 0⟩

/-- The position as it is shown. One with a number of too many digits cannot be shown. -/
def Pos.text? (p : Pos) : Option String :=
  return (← Text.numeral? p.line) ++ ":" ++ (← Text.numeral? p.col)

end Sema

/-! # Numbers as text

Numbers are written in decimal digits, of which there may only be so many.
-/

namespace Sema.Text

/-- The greatest number of digits that a number can have and still be turned into text. -/
def digitLimit : Nat := 4300

def digitComplaint : String :=
  "Exceeds the limit (" ++ toString digitLimit ++ " digits) for integer string conversion; " ++
    "use sys.set_int_max_str_digits() to increase the limit"

/-- The number in digits, behind a sign if it is negative, unless it has too many of them. -/
def numeral? (n : Int) : Option String :=
  if (Nat.toDigits 10 n.natAbs).length ≤ digitLimit then some (toString n) else none

end Sema.Text

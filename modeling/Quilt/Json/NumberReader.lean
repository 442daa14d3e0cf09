import Quilt.Json.Numeral

namespace Quilt.Json

/-- How numerals are rounded to doubles. What is too great for a double becomes infinite. -/
class NumberReader where
  read : Numeral → Float

/-- The double that a numeral is read as. An infinite one is refused. -/
def Numeral.toFloat? [NumberReader] (n : Numeral) : Option Float :=
  let x := NumberReader.read n
  if Binary64.isFinite x then some x else none

end Quilt.Json

/-!
# TOML — magnitude

Whether a decimal number can be a float of 64 bits.  Such floats go up to `(2⁵³ - 1) · 2⁹⁷¹`.  A
number is rounded to the nearest of them, so it is too large from half a step past that on:
from `limit`, whose tie goes up.  A number too small to be told from zero is zero.
-/

namespace SqlCaret.Toml.Magnitude

/-- The smallest number that is too large: `(2⁵⁴ - 1) · 2⁹⁷⁰`, which has 309 digits. -/
def limit : Nat := ((1 <<< 54) - 1) <<< 970

/-- The number that decimal digits spell. -/
def ofDigits (digits : List Char) : Nat :=
  digits.foldl (fun n c => n * 10 + (c.toNat - '0'.toNat)) 0

/-- Whether the number that `digits` spell, times ten to the power of `exponent`, is a float.
Only for numbers with as many digits as `limit` are the digits themselves looked at. -/
def fits (digits : List Char) (exponent : Int) : Bool :=
  let digits := digits.dropWhile (· == '0')
  let places : Int := digits.length + exponent
  if digits.isEmpty || places < 309 then true
  else if 309 < places then false
  else
    ofDigits digits * Nat.pow 10 exponent.toNat < limit * Nat.pow 10 (-exponent).toNat

end SqlCaret.Toml.Magnitude

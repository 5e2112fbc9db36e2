import SqlCaret.Json.Read
import SqlCaret.Toml
import SqlCaret.Toml.Magnitude

/-!
# TOML — scalars

The values that are written without quotes: booleans, integers, floats, dates and times.  Each
is told from a run of characters as a whole.
-/

namespace SqlCaret.Toml

/-- Whether an unquoted value can have the character in it. -/
def isScalarChar (c : Char) : Bool :=
  c.isAlphanum || c == '_' || c == '+' || c == '-' || c == '.' || c == ':'

/-- Whether a text is digits, with single underscores between digits and nowhere else. -/
def isDigits (p : Char → Bool) : List Char → Bool
  | [] => false
  | [c] => p c
  | c :: '_' :: cs => p c && isDigits p cs
  | c :: cs => p c && isDigits p cs

/-- A text without its sign, and whether the sign is a minus. -/
def splitSign : List Char → Bool × List Char
  | '-' :: cs => (true, cs)
  | '+' :: cs => (false, cs)
  | cs => (false, cs)

/-- Whether a text is decimal digits with no leading zero. -/
def isDecimal (cs : List Char) : Bool :=
  isDigits Char.isDigit cs && (cs.head? != some '0' || cs.length == 1)

/-- The number that digits spell in a base. -/
def valueIn (base : Nat) (cs : List Char) : Nat :=
  (cs.filterMap Json.hexValue?).foldl (fun n d => n * base + d) 0

def isOctalDigit (c : Char) : Bool := '0' ≤ c && c ≤ '7'

def isBinaryDigit (c : Char) : Bool := c == '0' || c == '1'

def isHexDigit (c : Char) : Bool := (Json.hexValue? c).isSome

/-- An integer that fits in 128 bits, with or without a sign. -/
def bounded? (n : Int) : Option Toml :=
  if -(1 <<< 127) ≤ n ∧ n < 1 <<< 128 then some (.integer n) else none

def integer? (cs : List Char) : Option Toml :=
  match cs with
  | '0' :: 'x' :: ds => if isDigits isHexDigit ds then bounded? (valueIn 16 ds) else none
  | '0' :: 'o' :: ds => if isDigits isOctalDigit ds then bounded? (valueIn 8 ds) else none
  | '0' :: 'b' :: ds => if isDigits isBinaryDigit ds then bounded? (valueIn 2 ds) else none
  | _ =>
    let (negative, ds) := splitSign cs
    if isDecimal ds then
      let n : Int := valueIn 10 ds
      bounded? (if negative then -n else n)
    else none

/-- The exponent of a float, given the text after its `e`. -/
def exponent? (cs : List Char) : Option Int :=
  let (negative, ds) := splitSign cs
  if isDigits Char.isDigit ds then
    let n : Int := valueIn 10 ds
    some (if negative then -n else n)
  else none

/-- Whether `e` begins an exponent. -/
def isExponentMark (c : Char) : Bool := c == 'e' || c == 'E'

/-- Whether a text is a fraction or an exponent or both after the digits `whole`, and the number
is none that is too large. -/
def isFloatAfter (whole tail : List Char) : Bool :=
  let mantissa := tail.takeWhile (!isExponentMark ·)
  let fraction := mantissa.drop 1
  let digits := (whole ++ fraction).filter Char.isDigit
  let places := (fraction.filter Char.isDigit).length
  let exponent := tail.drop mantissa.length
  (mantissa.isEmpty || isDigits Char.isDigit fraction) &&
    match exponent with
    | [] => Magnitude.fits digits (-places)
    | _ :: ds =>
      match exponent? ds with
      | some e => Magnitude.fits digits (e - places)
      | none => false

def float? (cs : List Char) : Option Toml :=
  let ds := (splitSign cs).2
  let special := ds = "inf".toList ∨ ds = "nan".toList
  let whole := ds.takeWhile fun c => c != '.' && !isExponentMark c
  let tail := ds.drop whole.length
  if special ∨ (isDecimal whole && !tail.isEmpty && isFloatAfter whole tail) then
    some (.float cs)
  else none

/-- The number that exactly `n` digits in front of a text spell, and the text after them. -/
def fixed? (n : Nat) (cs : List Char) : Option (Nat × List Char) :=
  let ds := cs.take n
  if ds.length = n ∧ ds.all Char.isDigit then some (valueIn 10 ds, cs.drop n) else none

/-- The text after `c`. -/
def after? (c : Char) : List Char → Option (List Char)
  | d :: cs => if d = c then some cs else none
  | [] => none

def isLeapYear (y : Nat) : Bool := (y % 4 == 0 && y % 100 != 0) || y % 400 == 0

def daysIn (year month : Nat) : Nat :=
  if month = 2 then (if isLeapYear year then 29 else 28)
  else if [4, 6, 9, 11].contains month then 30
  else 31

/-- The text after a date. -/
def afterDate? (cs : List Char) : Option (List Char) := do
  let (y, cs) ← fixed? 4 cs
  let cs ← after? '-' cs
  let (m, cs) ← fixed? 2 cs
  let cs ← after? '-' cs
  let (d, cs) ← fixed? 2 cs
  if 1 ≤ m ∧ m ≤ 12 ∧ 1 ≤ d ∧ d ≤ daysIn y m then return cs else none

/-- The text after hours and minutes. -/
def afterMinutes? (cs : List Char) : Option (List Char) := do
  let (h, cs) ← fixed? 2 cs
  let cs ← after? ':' cs
  let (m, cs) ← fixed? 2 cs
  if h ≤ 23 ∧ m ≤ 59 then return cs else none

/-- The text after a time; seconds may be left out. -/
def afterTime? (cs : List Char) : Option (List Char) := do
  let cs ← afterMinutes? cs
  match cs with
  | ':' :: cs => do
    let (s, cs) ← fixed? 2 cs
    if s ≤ 60 then
      match cs with
      | '.' :: cs =>
        if (cs.head?.map Char.isDigit).getD false then return cs.dropWhile Char.isDigit
        else none
      | _ => return cs
    else none
  | _ => return cs

/-- Whether a text is nothing or a time zone. -/
def isZone : List Char → Bool
  | [] => true
  | ['Z'] | ['z'] => true
  | '+' :: cs | '-' :: cs => afterMinutes? cs == some []
  | _ => false

/-- A date, a time, or both with or without a time zone. -/
def dateTime? (cs : List Char) : Option Toml :=
  let ok :=
    match afterDate? cs with
    | some [] => true
    | some (c :: rest) =>
      (c == 'T' || c == 't' || c == ' ') && ((afterTime? rest).map isZone).getD false
    | none => afterTime? cs == some []
  if ok then some (.dateTime cs) else none

/-- The value that a text without quotes is. -/
def scalar? (cs : List Char) : Option Toml :=
  if cs = "true".toList then some (.boolean true)
  else if cs = "false".toList then some (.boolean false)
  else ((integer? cs).or (float? cs)).or (dateTime? cs)

/-- An unquoted value in front of a text, and the text after it.  A date and a time may have
one blank between them. -/
def takeScalar? (cs : List Char) : Option (Toml × List Char) :=
  let word := cs.takeWhile isScalarChar
  let rest := cs.drop word.length
  match afterDate? word, rest with
  | some [], ' ' :: more =>
    let time := more.takeWhile isScalarChar
    match time with
    | a :: b :: ':' :: _ =>
      if a.isDigit && b.isDigit then
        (scalar? (word ++ ' ' :: time)).map (·, more.drop time.length)
      else (scalar? word).map (·, rest)
    | _ => (scalar? word).map (·, rest)
  | _, _ => (scalar? word).map (·, rest)

end SqlCaret.Toml

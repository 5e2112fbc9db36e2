/-!
# JSON

The values of JSON.  An object keeps its members in order and keeps a name that comes twice.
A number that is a row of digits is a natural number; any other number is kept as it is
written, for nothing here computes with it.
-/

namespace SqlCaret

/-- What a string or a name spells.  None is a spelling of no text: one of its escapes is half
of a surrogate pair. -/
abbrev Spelled := Option (List Char)

inductive Json where
  | null
  | bool (b : Bool)
  | natural (n : Nat)
  /-- A number with a sign, a fraction or an exponent. -/
  | number (written : List Char)
  | string (s : Spelled)
  | array (elements : List Json)
  | object (members : List (Spelled × Json))
deriving Repr

namespace Json

/-- A string value. -/
def text (s : String) : Json := .string (some s.toList)

/-- An object whose names are given as strings. -/
def record (members : List (String × Json)) : Json :=
  .object (members.map fun m => (some m.1.toList, m.2))

/-- A value or `null`. -/
def option {α : Type} (f : α → Json) : Option α → Json
  | none => .null
  | some a => f a

end Json

end SqlCaret

import SqlCaret.Json.Read
import SqlCaret.Json.Write
import SqlCaret.Scope
import SqlCaret.Selection

/-!
# JSON — points, spans, selections and scopes

How the coordinates stand in JSON.  A record is written as an object with its fields in order.
It is read from an object with the fields in any order, each exactly once, where other names
are passed over as long as they spell a text, or from an array of exactly its fields in order.
Coordinates are natural numbers of at most 64 bits.

A span that reads well but runs backwards is refused with its points, whatever follows it in
the text; everything else that is refused is refused alike.
-/

namespace SqlCaret

/-- Why a value could not be read from a text. -/
inductive DecodeFault where
  /-- The text is no JSON, or the JSON is no such value. -/
  | malformed
  | inverted (points : Span.Inverted)
deriving Repr, DecidableEq

namespace Json

/-- The one value that a name has; none when it is missing or comes twice. -/
def field? (name : String) (members : List (Spelled × Json)) : Option Json :=
  match members.filter (·.1 == some name.toList) with
  | [m] => some m.2
  | _ => none

/-- The two fields of a record. -/
def pair? (first second : String) : Json → Option (Json × Json)
  | .object ms =>
    if ms.all (·.1.isSome) then do
      let a ← field? first ms
      let b ← field? second ms
      return (a, b)
    else none
  | .array [a, b] => some (a, b)
  | _ => none

/-- A coordinate. -/
def coordinate? : Json → Option Nat
  | .natural n => if n < UInt64.size then some n else none
  | _ => none

/-- What `f` makes of the value that a text is.  Blanks around the value do not count. -/
def decode {α : Type} (f : Json → Except DecodeFault α) (text : List Char) :
    Except DecodeFault α := do
  match read? text with
  | none => .error .malformed
  | some (v, rest) =>
    let a ← f v
    if (skipBlanks rest).isEmpty then .ok a else .error .malformed

end Json

namespace Point

def toJson (p : Point) : Json :=
  .record [("line", .natural p.line), ("offset", .natural p.offset)]

def ofJson? (j : Json) : Option Point := do
  let (line, offset) ← Json.pair? "line" "offset" j
  return ⟨← Json.coordinate? line, ← Json.coordinate? offset⟩

end Point

namespace Span

def toJson (s : Span) : Json := .record [("start", s.start.toJson), ("end", s.stop.toJson)]

def ofJson (j : Json) : Except DecodeFault Span :=
  match (do
    let (start, stop) ← Json.pair? "start" "end" j
    return (← Point.ofJson? start, ← Point.ofJson? stop)) with
  | none => .error .malformed
  | some (start, stop) => (between start stop).mapError .inverted

/-- The span that a text is. -/
def decode (text : List Char) : Except DecodeFault Span := Json.decode ofJson text

end Span

namespace Selection

def toJson (s : Selection) : Json :=
  .record [("anchor", s.anchor.toJson), ("active", s.active.toJson)]

def ofJson (j : Json) : Except DecodeFault Selection :=
  match (do
    let (anchor, active) ← Json.pair? "anchor" "active" j
    return (⟨← Point.ofJson? anchor, ← Point.ofJson? active⟩ : Selection)) with
  | none => .error .malformed
  | some s => .ok s

/-- The selection that a text is. -/
def decode (text : List Char) : Except DecodeFault Selection := Json.decode ofJson text

end Selection

namespace Scope

def toJson (s : Scope) : Json := .text s.name

/-- A scope is its name, or an object whose one member has that name and is `null`. -/
def ofJson : Json → Except DecodeFault Scope
  | .string (some s) | .object [(some s, .null)] =>
    match ofName? (String.ofList s) with
    | some scope => .ok scope
    | none => .error .malformed
  | _ => .error .malformed

/-- The scope that a text is. -/
def decode (text : List Char) : Except DecodeFault Scope := Json.decode ofJson text

end Scope

end SqlCaret

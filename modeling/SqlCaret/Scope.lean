import SqlCaret.Text.Blank

/-!
# Scope

Which of the statements around a caret is meant: the whole outermost one, or the innermost.
-/

namespace SqlCaret

inductive Scope where
  /-- The statement that no other holds. -/
  | block
  /-- The statement that holds no other one with the caret in it. -/
  | inner
deriving Repr, DecidableEq

namespace Scope

instance : Inhabited Scope := ⟨.block⟩

def name : Scope → String
  | .block => "block"
  | .inner => "inner"

/-- The scope of exactly this name. -/
def ofName? (s : String) : Option Scope := [Scope.block, .inner].find? (·.name == s)

/-- A name that no scope has. -/
structure Unknown where
  given : String
deriving Repr, DecidableEq

def Unknown.message (u : Unknown) : String :=
  "unknown scope mode '" ++ u.given ++ "', expected 'block' or 'inner'"

/-- The scope that a user names, in any letter case and with blanks around the name. -/
def ofText (s : String) : Except Unknown Scope :=
  match ofName? (String.ofList ((Blank.trim s.toList).map Char.toLower)) with
  | some scope => .ok scope
  | none => .error ⟨s⟩

end Scope

end SqlCaret

/-!
# TOML

The values of TOML.  A table remembers how it came about, since that decides who may add to it
later: a table written in braces is closed, one that a longer header or a dotted key passes
through is open, and a header may name a table only once.
-/

namespace SqlCaret

/-- How a table came about. -/
inductive Standing where
  /-- In braces. -/
  | closed
  /-- By a header that names a table inside it. -/
  | passed
  /-- By a dotted key. -/
  | dotted
  /-- By a header of its own. -/
  | named
deriving Repr, DecidableEq

inductive Toml where
  | string (s : List Char)
  | boolean (b : Bool)
  | integer (n : Int)
  /-- A number with a fraction or an exponent, as written. -/
  | float (written : List Char)
  | dateTime (written : List Char)
  | array (elements : List Toml)
  | table (standing : Standing) (entries : List (List Char × Toml))
  /-- The tables of a doubled header, the latest first. -/
  | tables (entries : List (List (List Char × Toml)))
deriving Repr

namespace Toml

/-- The entries of a table. -/
abbrev Entries := List (List Char × Toml)

def find? (key : List Char) (es : Entries) : Option Toml := es.lookup key

/-- With a new value for a key that is there. -/
def replace (key : List Char) (value : Toml) (es : Entries) : Entries :=
  es.map fun e => if e.1 = key then (key, value) else e

/-- With a value at a dotted key; none if the key is taken, or passes through what it may not.
A key may pass through tables that are open and through the last table of an array, but the
table that takes the value must be the one the key starts at (`start`) or be dotted itself. -/
def insert? (value : Toml) : (start : Bool) → (key : List (List Char)) → Entries → Option Entries
  | _, [], _ => none
  | start, [k], es => if start && (find? k es).isNone then some (es ++ [(k, value)]) else none
  | _, k :: ks, es =>
    match find? k es with
    | none => (insert? value true ks []).map fun inner => es ++ [(k, .table .dotted inner)]
    | some (.table .dotted inner) =>
      (insert? value true ks inner).map fun inner => replace k (.table .dotted inner) es
    | some (.table .passed inner) =>
      (insert? value false ks inner).map fun inner => replace k (.table .passed inner) es
    | some (.tables (last :: others)) =>
      (insert? value false ks last).map fun last => replace k (.tables (last :: others)) es
    | some _ => none

/-- With the table that a header names, ready for its entries. -/
def open? : (header : List (List Char)) → Entries → Option Entries
  | [], _ => none
  | [k], es =>
    match find? k es with
    | none => some (es ++ [(k, .table .named [])])
    | some (.table .passed inner) => some (replace k (.table .named inner) es)
    | some _ => none
  | k :: ks, es =>
    match find? k es with
    | none => (open? ks []).map fun inner => es ++ [(k, .table .passed inner)]
    | some (.table .closed _) => none
    | some (.table standing inner) =>
      (open? ks inner).map fun inner => replace k (.table standing inner) es
    | some (.tables (last :: others)) =>
      (open? ks last).map fun last => replace k (.tables (last :: others)) es
    | some _ => none

/-- With one more table for a doubled header. -/
def append? : (header : List (List Char)) → Entries → Option Entries
  | [], _ => none
  | [k], es =>
    match find? k es with
    | none => some (es ++ [(k, .tables [[]])])
    | some (.tables ts) => some (replace k (.tables ([] :: ts)) es)
    | some _ => none
  | k :: ks, es =>
    match find? k es with
    | none => (append? ks []).map fun inner => es ++ [(k, .table .passed inner)]
    | some (.table .closed _) => none
    | some (.table standing inner) =>
      (append? ks inner).map fun inner => replace k (.table standing inner) es
    | some (.tables (last :: others)) =>
      (append? ks last).map fun last => replace k (.tables (last :: others)) es
    | some _ => none

/-- With a value at a dotted key of the table that the last header named. -/
def insertUnder? (key : List (List Char)) (value : Toml) :
    (header : List (List Char)) → Entries → Option Entries
  | [], es => insert? value true key es
  | k :: ks, es =>
    match find? k es with
    | some (.table standing inner) =>
      (insertUnder? key value ks inner).map fun inner => replace k (.table standing inner) es
    | some (.tables (last :: others)) =>
      (insertUnder? key value ks last).map fun last =>
        replace k (.tables (last :: others)) es
    | _ => none

end Toml

end SqlCaret

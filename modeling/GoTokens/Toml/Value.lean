import GoTokens.Binary64.Basic

/-!
TOML values, and how statements build a document. A table remembers how it came
about, because that decides what may still be added to it: a table is defined by
at most one header, dotted keys extend only tables that dotted keys made, and an
inline table is complete where it stands.
-/

namespace GoTokens.Toml

/-- How a table came about. -/
inductive Origin where
  /-- By a header of its own; the document itself counts as such. -/
  | header
  /-- As a part of a longer header. -/
  | implied
  /-- By a dotted key. -/
  | dotted
  /-- Between braces. -/
  | inline
deriving DecidableEq, Repr

inductive Value where
  | string (text : String)
  | integer (value : Int)
  | float (value : Binary64)
  | boolean (value : Bool)
  /-- A date, a time or both; nothing that is read here depends on which. -/
  | dateTime
  | array (items : List Value)
  | table (origin : Origin) (entries : List (String × Value))
  /-- The tables under a header in double brackets. -/
  | tables (elements : List (List (String × Value)))
deriving Inhabited

/-- Keys with their values, in the order in which they were added. -/
abbrev Entries := List (String × Value)

namespace Entries

def replace (key : String) (value : Value) (entries : Entries) : Entries :=
  entries.map fun entry => if entry.1 = key then (key, value) else entry

def addNew? (key : String) (value : Value) (entries : Entries) : Option Entries :=
  match entries.lookup key with
  | none => some (entries ++ [(key, value)])
  | some _ => none

/-- Change the table that a path leads to. Tables missing on the way are made; of the
tables under a double header the path leads into the last. Dotted keys do not lead into
tables that have a header, and nothing leads into inline tables. -/
def changeAt? (dotted : Bool) (path : List String)
    (change : Origin → Entries → Option Entries) (origin : Origin) (entries : Entries) :
    Option Entries :=
  match path with
  | [] => change origin entries
  | key :: path =>
    match entries.lookup key with
    | none => do
      let made := if dotted then Origin.dotted else Origin.implied
      let inner ← changeAt? dotted path change made []
      some (entries ++ [(key, .table made inner)])
    | some (.table found inner) =>
      if found = .inline ∨ (dotted ∧ found = .header) then none
      else do
        let inner ← changeAt? dotted path change found inner
        some (replace key (.table found inner) entries)
    | some (.tables elements) => do
      let last ← changeAt? dotted path change .header (elements.getLast?.getD [])
      some (replace key (.tables (elements.dropLast ++ [last])) entries)
    | some _ => none

/-- Assign a value to a dotted key, given as its leading parts and its last part. A table
that the leading parts lead to has to be one that dotted keys made. -/
def assign? (leading : List String) (last : String) (value : Value) (origin : Origin)
    (entries : Entries) : Option Entries :=
  changeAt? true leading (fun reached entries =>
    if !leading.isEmpty && reached != .dotted then none else addNew? last value entries)
    origin entries

/-- Define a table by its header. Tables that longer headers have implied may be there. -/
def define? (leading : List String) (last : String) (entries : Entries) : Option Entries :=
  changeAt? false leading (fun _ entries =>
    match entries.lookup last with
    | none => some (entries ++ [(last, .table .header [])])
    | some (.table .implied inner) => some (replace last (.table .header inner) entries)
    | some _ => none) .header entries

/-- Add a table under a double header. -/
def defineElement? (leading : List String) (last : String) (entries : Entries) :
    Option Entries :=
  changeAt? false leading (fun _ entries =>
    match entries.lookup last with
    | none => some (entries ++ [(last, .tables [[]])])
    | some (.tables elements) => some (replace last (.tables (elements ++ [[]])) entries)
    | some _ => none) .header entries

end Entries

end GoTokens.Toml

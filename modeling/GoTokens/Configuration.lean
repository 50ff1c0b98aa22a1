import GoTokens.Settings
import GoTokens.Toml.Document

/-!
Settings as a TOML document. They stand in a table named `output`; what is missing
has its default, and keys that mean nothing here are passed over. The table may
also be an array with the settings in their order, of which the last may be
missing, and a choice may be a table with the choice as its only key and nothing
under it.
-/

namespace GoTokens.Configuration

open Toml (Value Entries)

def isEmptyValue : Value → Bool
  | .array [] => true
  | .table _ [] => true
  | _ => false

def choice? : Value → Option String
  | .string text => some text
  | .table _ [(key, value)] => if isEmptyValue value then some key else none
  | _ => none

def format? (v : Value) : Option OutputFormat := choice? v >>= OutputFormat.ofName?

def position? (v : Value) : Option PositionStyle := choice? v >>= PositionStyle.ofName?

def boolean? : Value → Option Bool
  | .boolean b => some b
  | _ => none

/-- A value that may be missing and then has a default. -/
def orDefault {α : Type} (read? : Value → Option α) (default : α) : Option Value → Option α
  | some v => read? v
  | none => some default

def settings? (format position comments : Option Value) : Option Settings := do
  let missing : Settings := {}
  let format ← orDefault format? missing.format format
  let position ← orDefault position? missing.position position
  let comments ← orDefault boolean? missing.comments comments
  return { format, position, comments }

/-- The settings in the place of `output`. A date has no keys at all, so it leaves every
setting at its default. -/
def ofOutput? : Value → Option Settings
  | .table _ entries =>
    settings? (entries.lookup "format") (entries.lookup "position") (entries.lookup "comments")
  | .array items => settings? items[0]? items[1]? items[2]?
  | .tables elements =>
    let item (n : Nat) := elements[n]?.map (Value.table .header)
    settings? (item 0) (item 1) (item 2)
  | .dateTime => settings? none none none
  | _ => none

def ofEntries? (entries : Entries) : Option Settings :=
  orDefault ofOutput? {} (entries.lookup "output")

/-- The settings of a document, if the text is one and nothing in it is of the wrong kind. -/
def read? (text : String) : Option Settings := Toml.parse? text >>= ofEntries?

def write (s : Settings) : String :=
  "[output]\nformat = \"" ++ s.format.name ++ "\"\nposition = \"" ++ s.position.name ++
    "\"\ncomments = " ++ (if s.comments then "true" else "false") ++ "\n"

end GoTokens.Configuration

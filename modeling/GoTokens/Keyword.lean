import GoTokens.CharClass
import GoTokens.Text.Uppercase

/-!
Reserved words, and what a name is: an identifier is a word that is not reserved.
-/

namespace GoTokens

inductive Keyword where
  | break | case | chan | const | continue | default | defer | else | fallthrough | for | func
  | go | goto | if | import | interface | map | package | range | return | select | struct
  | switch | type | var
deriving DecidableEq, Repr

namespace Keyword

def all : List Keyword :=
  [.break, .case, .chan, .const, .continue, .default, .defer, .else, .fallthrough, .for, .func,
    .go, .goto, .if, .import, .interface, .map, .package, .range, .return, .select, .struct,
    .switch, .type, .var]

def spelling : Keyword → String
  | .break => "break"
  | .case => "case"
  | .chan => "chan"
  | .const => "const"
  | .continue => "continue"
  | .default => "default"
  | .defer => "defer"
  | .else => "else"
  | .fallthrough => "fallthrough"
  | .for => "for"
  | .func => "func"
  | .go => "go"
  | .goto => "goto"
  | .if => "if"
  | .import => "import"
  | .interface => "interface"
  | .map => "map"
  | .package => "package"
  | .range => "range"
  | .return => "return"
  | .select => "select"
  | .struct => "struct"
  | .switch => "switch"
  | .type => "type"
  | .var => "var"

/-- The keyword that a word is, by a table of its own. -/
def ofSpelling? : String → Option Keyword
  | "break" => some .break
  | "case" => some .case
  | "chan" => some .chan
  | "const" => some .const
  | "continue" => some .continue
  | "default" => some .default
  | "defer" => some .defer
  | "else" => some .else
  | "fallthrough" => some .fallthrough
  | "for" => some .for
  | "func" => some .func
  | "go" => some .go
  | "goto" => some .goto
  | "if" => some .if
  | "import" => some .import
  | "interface" => some .interface
  | "map" => some .map
  | "package" => some .package
  | "range" => some .range
  | "return" => some .return
  | "select" => some .select
  | "struct" => some .struct
  | "switch" => some .switch
  | "type" => some .type
  | "var" => some .var
  | _ => none

theorem mem_all (k : Keyword) : k ∈ all := by cases k <;> decide

/-- The two tables agree. -/
theorem ofSpelling?_eq_some {word : String} {k : Keyword} :
    ofSpelling? word = some k ↔ k.spelling = word := by
  constructor
  · intro h
    unfold ofSpelling? at h
    split at h <;> cases h <;> rfl
  · rintro rfl
    cases k <;> rfl

end Keyword

def isKeyword (name : String) : Bool := (Keyword.ofSpelling? name).isSome

def isIdentifier (name : String) : Bool :=
  !isKeyword name &&
    match name.toList with
    | [] => false
    | c :: cs => isWordStart c && cs.all isWordPart

/-- Whether a name is visible outside its package: it begins with a capital letter. -/
def isExported (name : String) : Bool := name.toList.head?.any Text.isUppercase

end GoTokens

import GoTokens.Token

/-!
How tokens are listed: in which form, with which positions, and whether comments
are among them.
-/

namespace GoTokens

inductive OutputFormat where
  | table | json
deriving DecidableEq, Repr

inductive PositionStyle where
  | lineColumn | offsetLineColumn
deriving DecidableEq, Repr

structure Settings where
  format : OutputFormat := .table
  position : PositionStyle := .lineColumn
  comments : Bool := true
deriving DecidableEq, Repr

instance : Inhabited Settings := ⟨{}⟩

namespace OutputFormat

def name : OutputFormat → String
  | table => "table"
  | json => "json"

def ofName? : String → Option OutputFormat
  | "table" => some table
  | "json" => some json
  | _ => none

end OutputFormat

namespace PositionStyle

def name : PositionStyle → String
  | lineColumn => "line-col"
  | offsetLineColumn => "offset-line-col"

def ofName? : String → Option PositionStyle
  | "line-col" => some lineColumn
  | "offset-line-col" => some offsetLineColumn
  | _ => none

def text (style : PositionStyle) (p : Position) : String :=
  match style with
  | lineColumn => p.lineColumn
  | offsetLineColumn => p.text

end PositionStyle

namespace Settings

/-- The settings with what was asked for in particular. Comments can be left out but not
brought back. -/
def withRequests (s : Settings) (format : Option OutputFormat) (noComments : Bool) : Settings :=
  { s with format := format.getD s.format, comments := s.comments && !noComments }

def keeps (s : Settings) (t : Token) : Bool := s.comments || t.kind != .comment

end Settings

end GoTokens

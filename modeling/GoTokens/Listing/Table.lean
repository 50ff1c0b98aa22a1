import GoTokens.Settings

/-!
Tokens as a table: one row a token, under a header. The position and the kind are
filled up with spaces to the width of their columns, and never cut.
-/

namespace GoTokens.Table

def columnWidth : Nat := 15

def padded (width : Nat) (text : String) : String :=
  String.ofList (text.toList ++ List.replicate (width - text.length) ' ')

def line (position kind value : String) : String :=
  padded columnWidth position ++ " " ++ padded columnWidth kind ++ " " ++ value ++ "\n"

def header : String := line "Position" "Type" "Value"

def row (style : PositionStyle) (t : Token) : String :=
  line (style.text t.start) t.kind.name t.text

def render (style : PositionStyle) (tokens : List Token) : String :=
  (tokens.map (row style)).foldl (· ++ ·) header

end GoTokens.Table

import GoTokens.Binary64.Text
import GoTokens.Keyword
import GoTokens.Position
import GoTokens.Punct

/-!
Tokens: what a lexeme means, and the places where it begins and where it has
ended. Numbers are kept as values; imaginary numbers, strings, runes and comments
as text, strings and runes with their marks.
-/

namespace GoTokens

inductive TokenKind where
  | keyword | ident | int | float | imag | string | byte | opSep | comment
deriving DecidableEq, Repr

namespace TokenKind

def all : List TokenKind :=
  [.keyword, .ident, .int, .float, .imag, .string, .byte, .opSep, .comment]

def name : TokenKind → String
  | .keyword => "KEYWORD"
  | .ident => "IDENT"
  | .int => "INT"
  | .float => "FLOAT"
  | .imag => "IMAG"
  | .string => "STRING"
  | .byte => "BYTE"
  | .opSep => "OP_SEP"
  | .comment => "COMMENT"

/-- Identifiers and basic literals. -/
def isLiteral : TokenKind → Bool
  | .ident | .int | .float | .imag | .string | .byte => true
  | _ => false

def isOperator : TokenKind → Bool
  | .opSep => true
  | _ => false

def isKeyword : TokenKind → Bool
  | .keyword => true
  | _ => false

end TokenKind

inductive TokenValue where
  | keyword (word : Keyword)
  | ident (name : String)
  | int (value : Nat)
  | float (value : Binary64)
  | imag (text : String)
  | string (text : String)
  | byte (text : String)
  | opSep (punct : Punct)
  | comment (text : String)
deriving DecidableEq, Repr

namespace TokenValue

def kind : TokenValue → TokenKind
  | keyword _ => .keyword
  | ident _ => .ident
  | int _ => .int
  | float _ => .float
  | imag _ => .imag
  | string _ => .string
  | byte _ => .byte
  | opSep _ => .opSep
  | comment _ => .comment

/-- The value as listings show it. -/
def text : TokenValue → String
  | keyword word => word.spelling
  | ident name => name
  | int value => toString value
  | float value => value.text
  | imag text | string text | byte text | comment text => text
  | opSep punct => punct.text

/-- The word that a spelling is: a keyword if it is reserved, else an identifier. -/
def ofWord (word : String) : TokenValue :=
  match Keyword.ofSpelling? word with
  | some k => keyword k
  | none => ident word

/-- Equality of values, which for floating-point numbers is that of `Binary64.sameValue`. -/
def sameValue : TokenValue → TokenValue → Bool
  | float x, float y => x.sameValue y
  | v, w => v == w

end TokenValue

def wordKind (word : String) : TokenKind := (TokenValue.ofWord word).kind

structure Token where
  value : TokenValue
  /-- Where the lexeme begins. -/
  start : Position
  /-- The place just past the lexeme. -/
  stop : Position
deriving DecidableEq, Repr

namespace Token

def kind (t : Token) : TokenKind := t.value.kind

def text (t : Token) : String := t.value.text

/-- The characters of the lexeme, if it does not end before it begins. -/
def length? (t : Token) : Option Nat :=
  if t.start.offset ≤ t.stop.offset then some (t.stop.offset - t.start.offset) else none

def isEmpty? (t : Token) : Option Bool := t.length?.map (· == 0)

def same (t u : Token) : Bool :=
  t.value.sameValue u.value && t.start == u.start && t.stop == u.stop

end Token

end GoTokens

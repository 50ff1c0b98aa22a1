import GoTokens.Lexeme.Quoted

/-!
Comments. A line comment ends before the line end. A block comment ends with the
first star and slash; the star that opens it may be the star that closes it, and
block comments do not nest.
-/

namespace GoTokens.Comment

def line (cs : List Char) : List Char := cs.takeWhile (· ≠ '\n')

/-- The length of a text up to and with the first star and slash, if there is one.
`seen` counts the characters before it. -/
def blockLength? (seen : Nat) : List Char → Option Nat
  | [] => none
  | [_] => none
  | a :: b :: cs =>
    if a = '*' ∧ b = '/' then some (seen + 2) else blockLength? (seen + 1) (b :: cs)

/-- Line ends and carriage returns as the two characters that stand for them. -/
def onOneLine (cs : List Char) : List Char :=
  cs.flatMap fun c =>
    if c = '\n' then ['\\', 'n'] else if c = '\r' then ['\\', 'r'] else [c]

def lineValue (text : List Char) : TokenValue := .comment (String.ofList (Text.trimEnd text))

def blockValue (text : List Char) : TokenValue := .comment (String.ofList (onOneLine text))

end GoTokens.Comment

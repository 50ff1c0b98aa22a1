/-!
Operators and separators. Every operator of several characters begins with an
operator that is one character shorter, so reading one is a walk: start at the
operator of the first character, and go on while the next character extends it.
-/

namespace GoTokens

inductive Punct where
  | add | sub | mul | quo | rem | and | or | xor | shl | shr | andNot
  | addAssign | subAssign | mulAssign | quoAssign | remAssign | andAssign | orAssign | xorAssign
  | shlAssign | shrAssign
  | inc | dec | less | greater | assign | not | lessEq | greaterEq
  | leftParen | rightParen | leftBracket | rightBracket | leftBrace | rightBrace
  | comma | period | semicolon | colon | backslash
deriving DecidableEq, Repr

namespace Punct

def all : List Punct :=
  [.add, .sub, .mul, .quo, .rem, .and, .or, .xor, .shl, .shr, .andNot,
    .addAssign, .subAssign, .mulAssign, .quoAssign, .remAssign, .andAssign, .orAssign, .xorAssign,
    .shlAssign, .shrAssign,
    .inc, .dec, .less, .greater, .assign, .not, .lessEq, .greaterEq,
    .leftParen, .rightParen, .leftBracket, .rightBracket, .leftBrace, .rightBrace,
    .comma, .period, .semicolon, .colon, .backslash]

def spelling : Punct → List Char
  | .add => ['+']
  | .sub => ['-']
  | .mul => ['*']
  | .quo => ['/']
  | .rem => ['%']
  | .and => ['&']
  | .or => ['|']
  | .xor => ['^']
  | .shl => ['<', '<']
  | .shr => ['>', '>']
  | .andNot => ['&', '^']
  | .addAssign => ['+', '=']
  | .subAssign => ['-', '=']
  | .mulAssign => ['*', '=']
  | .quoAssign => ['/', '=']
  | .remAssign => ['%', '=']
  | .andAssign => ['&', '=']
  | .orAssign => ['|', '=']
  | .xorAssign => ['^', '=']
  | .shlAssign => ['<', '<', '=']
  | .shrAssign => ['>', '>', '=']
  | .inc => ['+', '+']
  | .dec => ['-', '-']
  | .less => ['<']
  | .greater => ['>']
  | .assign => ['=']
  | .not => ['!']
  | .lessEq => ['<', '=']
  | .greaterEq => ['>', '=']
  | .leftParen => ['(']
  | .rightParen => [')']
  | .leftBracket => ['[']
  | .rightBracket => [']']
  | .leftBrace => ['{']
  | .rightBrace => ['}']
  | .comma => [',']
  | .period => ['.']
  | .semicolon => [';']
  | .colon => [':']
  | .backslash => ['\\']

def text (p : Punct) : String := String.ofList p.spelling

def ofChar? : Char → Option Punct
  | '+' => some .add
  | '-' => some .sub
  | '*' => some .mul
  | '/' => some .quo
  | '%' => some .rem
  | '&' => some .and
  | '|' => some .or
  | '^' => some .xor
  | '<' => some .less
  | '>' => some .greater
  | '=' => some .assign
  | '!' => some .not
  | '(' => some .leftParen
  | ')' => some .rightParen
  | '[' => some .leftBracket
  | ']' => some .rightBracket
  | '{' => some .leftBrace
  | '}' => some .rightBrace
  | ',' => some .comma
  | '.' => some .period
  | ';' => some .semicolon
  | ':' => some .colon
  | '\\' => some .backslash
  | _ => none

/-- The operator spelled by an operator and one more character. -/
def extend? : Punct → Char → Option Punct
  | .add, '+' => some .inc
  | .add, '=' => some .addAssign
  | .sub, '-' => some .dec
  | .sub, '=' => some .subAssign
  | .mul, '=' => some .mulAssign
  | .quo, '=' => some .quoAssign
  | .rem, '=' => some .remAssign
  | .and, '^' => some .andNot
  | .and, '=' => some .andAssign
  | .or, '=' => some .orAssign
  | .xor, '=' => some .xorAssign
  | .less, '<' => some .shl
  | .less, '=' => some .lessEq
  | .shl, '=' => some .shlAssign
  | .greater, '>' => some .shr
  | .greater, '=' => some .greaterEq
  | .shr, '=' => some .shrAssign
  | _, _ => none

/-- The operator reached by walking on from one through the text that follows it. -/
def extendThrough (p : Punct) : List Char → Punct
  | [] => p
  | c :: cs =>
    match p.extend? c with
    | some q => q.extendThrough cs
    | none => p

def atFront? : List Char → Option Punct
  | [] => none
  | c :: cs => (ofChar? c).map (·.extendThrough cs)

theorem spelling_of_ofChar? {c : Char} {p : Punct} (h : ofChar? c = some p) :
    p.spelling = [c] := by
  unfold ofChar? at h
  split at h <;> cases h <;> rfl

theorem spelling_of_extend? {p q : Punct} {c : Char} (h : p.extend? c = some q) :
    q.spelling = p.spelling ++ [c] := by
  unfold extend? at h
  split at h <;> cases h <;> rfl

end Punct

end GoTokens

import GoTokens.Toml.Scalar

/-!
TOML documents. A document is read as a list of statements, which then build its
entries one after the other. Values nest to a bounded depth, which is also what
the reader of values recurses on.
-/

namespace GoTokens.Toml

open Reader

/-- How many arrays and inline tables may stand inside each other, and how many parts a
dotted key may have. -/
def depthLimit : Nat := 79

/-- A dotted key: its leading parts and its last part. -/
abbrev Key := List String × String

inductive Statement where
  | assign (key : Key) (value : Value)
  | define (key : Key)
  | defineElement (key : Key)
deriving Inhabited

def isBareKeyChar (c : Char) : Bool := c.isAlphanum || c == '_' || c == '-'

def keyPart : Reader String :=
  basicString <|> literalString <|>
    (do
      let c ← satisfy isBareKeyChar
      return String.ofList (c :: (← run isBareKeyChar)))

def key : Reader Key := do
  spaces
  let first ← keyPart
  let more ← many (do
    spaces
    char '.'
    spaces
    keyPart)
  spaces
  let parts := first :: more
  if depthLimit < parts.length then failure else return (parts.dropLast, parts.getLastD first)

/-- Items with a separator between each two. -/
def separated {α : Type} (item : Reader α) (separator : Reader Unit) : Reader (List α) :=
  (do
    let first ← item
    let more ← many (do
      separator
      item)
    return first :: more) <|> pure []

def inlineEntries? (pairs : List (Key × Value)) : Option Entries :=
  pairs.foldlM (fun entries pair => Entries.assign? pair.1.1 pair.1.2 pair.2 .inline entries) []

/-- A value in which others may nest to a depth. -/
def value : Nat → Reader Value
  | 0 => scalar
  | depth + 1 =>
    scalar <|>
      (do
        char '['
        let items ← separated (do
            blanks
            let item ← value depth
            blanks
            return item)
          (char ',')
        if !items.isEmpty then
          let _ ← optional (char ',')
        blanks
        char ']'
        return .array items) <|>
      (do
        char '{'
        let pairs ← separated (do
            let key ← key
            char '='
            spaces
            let item ← value depth
            spaces
            return (key, item))
          (char ',')
        spaces
        char '}'
        match inlineEntries? pairs with
        | some entries => return .table .inline entries
        | none => failure)

def statement : Reader Statement :=
  (do
    exactly ['[', '[']
    let key ← key
    exactly [']', ']']
    return .defineElement key) <|>
  (do
    char '['
    let key ← key
    char ']'
    return .define key) <|>
  (do
    let key ← key
    char '='
    spaces
    return .assign key (← value depthLimit))

def statementLine : Reader (Option Statement) := do
  spaces
  (do
    let s ← statement
    trailing
    return some s) <|>
  (do
    comment
    lineOrTextEnd
    return none) <|>
  (do
    lineEnd
    return none)

/-- All statements of a text, which may begin with a byte order mark. -/
def statements : Reader (List Statement) := do
  let _ ← optional (char '\ufeff')
  let lines ← many statementLine
  spaces
  finish
  return lines.filterMap id

/-- A document under construction, and the header that assignments belong to. -/
structure Draft where
  entries : Entries
  header : List String

def Draft.apply? (draft : Draft) : Statement → Option Draft
  | .assign (leading, last) value => do
    let entries ← Entries.changeAt? false draft.header
      (Entries.assign? leading last value) .header draft.entries
    some { draft with entries }
  | .define (leading, last) => do
    some ⟨← Entries.define? leading last draft.entries, leading ++ [last]⟩
  | .defineElement (leading, last) => do
    some ⟨← Entries.defineElement? leading last draft.entries, leading ++ [last]⟩

def parse? (text : String) : Option Entries := do
  let (found, _) ← statements text.toList
  let draft ← found.foldlM Draft.apply? ⟨[], []⟩
  some draft.entries

end GoTokens.Toml

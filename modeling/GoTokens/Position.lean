/-!
Places in a source text. Offsets, lines and columns count characters, not bytes;
lines and columns begin at one.
-/

namespace GoTokens

structure Position where
  /-- Characters before this place. -/
  offset : Nat
  line : Nat
  /-- One more than the characters since the last line end. -/
  column : Nat
deriving DecidableEq, Repr

namespace Position

def start : Position := ⟨0, 1, 1⟩

instance : Inhabited Position := ⟨start⟩

def after (p : Position) (c : Char) : Position :=
  if c = '\n' then ⟨p.offset + 1, p.line + 1, 1⟩ else ⟨p.offset + 1, p.line, p.column + 1⟩

def afterAll (p : Position) (cs : List Char) : Position := cs.foldl after p

@[simp] theorem after_offset (p : Position) (c : Char) : (p.after c).offset = p.offset + 1 := by
  simp only [after]; split <;> rfl

@[simp] theorem afterAll_nil (p : Position) : p.afterAll [] = p := rfl

@[simp] theorem afterAll_cons (p : Position) (c : Char) (cs : List Char) :
    p.afterAll (c :: cs) = (p.after c).afterAll cs := rfl

theorem afterAll_append (p : Position) (as bs : List Char) :
    p.afterAll (as ++ bs) = (p.afterAll as).afterAll bs := List.foldl_append

@[simp] theorem afterAll_offset (p : Position) (cs : List Char) :
    (p.afterAll cs).offset = p.offset + cs.length := by
  induction cs generalizing p with
  | nil => rfl
  | cons c cs ih => simp [ih]; omega

/-- Places are ordered by offset, then line, then column. -/
instance : Ord Position where
  compare p q :=
    (compare p.offset q.offset).then ((compare p.line q.line).then (compare p.column q.column))

/-- Line and column, as messages and tables show them. -/
def lineColumn (p : Position) : String := toString p.line ++ ":" ++ toString p.column

def text (p : Position) : String := toString p.offset ++ ":" ++ p.lineColumn

end Position

end GoTokens

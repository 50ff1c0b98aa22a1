/-!
Readers of text. A reader takes something off the front of a text and hands on the
rest, or fails. What is repeated takes at least one character each time, so the
characters of the text themselves bound how often it is repeated.
-/

namespace GoTokens.Toml

abbrev Reader := StateT (List Char) Option

namespace Reader

def satisfy (accept : Char → Bool) : Reader Char := fun cs =>
  match cs with
  | c :: cs => if accept c then some (c, cs) else none
  | [] => none

def char (c : Char) : Reader Unit := do let _ ← satisfy (· == c)

def exactly : List Char → Reader Unit
  | [] => pure ()
  | c :: cs => do char c; exactly cs

def run (accept : Char → Bool) : Reader (List Char) := fun cs =>
  some (cs.takeWhile accept, cs.dropWhile accept)

def finish : Reader Unit := fun cs => if cs.isEmpty then some ((), cs) else none

/-- As many as there are, after those found, but not more than `bound` is long. -/
def manyWithin {α : Type} (p : Reader α) : List Char → List α → Reader (List α)
  | [], found, cs => some (found.reverse, cs)
  | _ :: bound, found, cs =>
    match p cs with
    | some (a, cs) => manyWithin p bound (a :: found) cs
    | none => some (found.reverse, cs)

def many {α : Type} (p : Reader α) : Reader (List α) := fun cs => manyWithin p cs [] cs

def times {α : Type} (n : Nat) (p : Reader α) : Reader (List α) :=
  match n with
  | 0 => pure []
  | n + 1 => do
    let a ← p
    let as ← times n p
    return a :: as

end Reader

end GoTokens.Toml

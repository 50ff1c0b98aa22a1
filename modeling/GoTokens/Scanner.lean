import GoTokens.Cursor
import GoTokens.Event
import GoTokens.Lexeme

/-!
Scanning a source text. A scanner hands out one item at a time, or collects all
that remain; after an error it hands out nothing more. Each item makes what
remains smaller (`remaining_next`), which is why collecting comes to an end.
-/

namespace GoTokens

abbrev Item := Except ScanError Token

structure Scanner where
  cursor : Cursor
  /-- Whether an error has been handed out. -/
  failed : Bool
  /-- What has happened, the latest first. -/
  log : List Event
deriving DecidableEq, Repr

namespace Scanner

def ofCursor (cursor : Cursor) : Scanner := ⟨cursor, false, []⟩

def ofString (source : String) : Scanner := ofCursor (.ofString source)

def record (s : Scanner) (event : Event) : Scanner := { s with log := event :: s.log }

/-- The events so far that are at least as severe as a level, in order. -/
def events (s : Scanner) (least : Level) : List Event :=
  (s.log.filter fun e => e.level.isShownAt least).reverse

/-- Hand out the next item, if there is one: skip the blanks and read the lexeme after them. -/
def next (s : Scanner) : Option Item × Scanner :=
  if s.failed then (none, s)
  else
    let start := s.cursor.eatWhile Text.isBlank
    match start.rest with
    | [] => (none, { s with cursor := start })
    | c :: cs =>
      match Lexeme.atFront c cs with
      | .token value length =>
        let stop := start.skip length
        let token : Token := ⟨value, start.position, stop.position⟩
        (some (.ok token), { s with cursor := stop }.record (.token token))
      | .fault fault length =>
        let error : ScanError := ⟨fault, start.position⟩
        (some (.error error),
          { s with cursor := start.skip length, failed := true }.record (.scanFailed error))

/-- The same with the error on the outside: a next token, none at the end of the text, or an
error in the place of both. -/
def nextToken (s : Scanner) : Except ScanError (Option Token) × Scanner :=
  match s.next with
  | (none, s') => (.ok none, s')
  | (some (.ok token), s') => (.ok (some token), s')
  | (some (.error error), s') => (.error error, s')

/-- A bound on the items that a scanner can still hand out. -/
def remaining (s : Scanner) : Nat := if s.failed then 0 else s.cursor.rest.length + 1

theorem remaining_next {s s' : Scanner} {item : Item} (h : s.next = (some item, s')) :
    s'.remaining < s.remaining := by
  unfold next at h
  split at h
  · cases h
  · rename_i hf
    simp only at h
    split at h
    · cases h
    · rename_i c cs hrest
      have hle : (c :: cs).length ≤ s.cursor.rest.length := by
        rw [← hrest, Cursor.eatWhile_rest]
        exact (List.dropWhile_suffix _).length_le
      split at h
      · rename_i hlex
        have hpos := Lexeme.length_pos hlex
        cases h
        simp only [remaining, record, hf, Bool.false_eq_true, if_false, Cursor.skip_rest, hrest,
          List.length_drop, List.length_cons] at hle ⊢
        omega
      · cases h
        simp [remaining, record, hf]

/-- Hand out all items, after those in `before`, of which the latest is first. -/
def drainAfter (before : List Item) (s : Scanner) : List Item × Scanner :=
  match _h : s.next with
  | (none, s') => (before.reverse, s')
  | (some item, s') => s'.drainAfter (item :: before)
termination_by s.remaining
decreasing_by exact remaining_next _h

def drain (s : Scanner) : List Item × Scanner := s.drainAfter []

/-- Collect tokens, after those in `before`, until the text ends or an error comes. -/
def collectAfter (before : List Token) (s : Scanner) : Except ScanError (List Token) × Scanner :=
  match _h : s.next with
  | (none, s') => (.ok before.reverse, s')
  | (some (.ok token), s') => s'.collectAfter (token :: before)
  | (some (.error error), s') => (.error error, s')
termination_by s.remaining
decreasing_by exact remaining_next _h

/-- Collect all tokens that remain, or the error that comes instead. -/
def scan (s : Scanner) : Except ScanError (List Token) × Scanner :=
  match (s.record (.scanStarted s.cursor.sourceBytes)).collectAfter [] with
  | (.ok tokens, s') => (.ok tokens, s'.record (.scanFinished tokens.length))
  | (.error error, s') => (.error error, s')

end Scanner

/-- All tokens of a source text, or the error that comes instead. -/
def scan (source : String) : Except ScanError (List Token) := (Scanner.ofString source).scan.1

end GoTokens

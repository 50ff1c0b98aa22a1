import GoTokens.Listing.Json
import GoTokens.Listing.Table
import GoTokens.Scanner

/-!
Listings of tokens: of all of them at once, or row by row while scanning goes on.
The second keeps the rows that come before an error.
-/

namespace GoTokens.Listing

def render (settings : Settings) (tokens : List Token) : String :=
  match settings.format with
  | .table => Table.render settings.position tokens
  | .json => Json.render tokens

/-- Table rows of what a scanner hands out, after `rows` of them in `text`: the text, the
count of rows, the error if one comes, and the scanner at its end. -/
def streamAfter (settings : Settings) (text : String) (rows : Nat) (s : Scanner) :
    String × Nat × Option ScanError × Scanner :=
  match _h : s.next with
  | (none, s') => (text, rows, none, s')
  | (some (.error error), s') => (text, rows, some error, s')
  | (some (.ok token), s') =>
    if settings.keeps token then
      streamAfter settings (text ++ Table.row settings.position token) (rows + 1) s'
    else streamAfter settings text rows s'
termination_by s.remaining
decreasing_by all_goals exact Scanner.remaining_next _h

/-- The table of what a scanner hands out, row by row. -/
def stream (settings : Settings) (s : Scanner) : String × Nat × Option ScanError × Scanner :=
  streamAfter settings Table.header 0 s

end GoTokens.Listing

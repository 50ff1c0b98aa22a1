import GoTokens.Proofs.Checked.Lexeme
import GoTokens.Proofs.Scanner.Place
import GoTokens.Proofs.Scanner.Reading

/-!
A scanner whose head checks its conditions. On a source with few enough characters to be
counted, no condition ever fails, however the scanner is asked, and its answers are those of
the scanner without checks (`askAll?_proper`). Collecting also checks that every token gets on in
the source.
-/

namespace GoTokens

open Text

structure CheckedScanner where
  head : Head
  failed : Bool
deriving DecidableEq, Repr

namespace CheckedScanner

def ofString (source : String) : CheckedScanner := ⟨⟨source.toList, 0, .start⟩, false⟩

/-- Whether blanks go on, for each character before a lexeme. -/
def skipBlank (_ : Unit) (ch : Char) : Unit ⊕ Option Char :=
  if CharClass.of ch = .blank then .inl () else .inr (some ch)

def next? (s : CheckedScanner) : Option (Option Item × CheckedScanner) := do
  if s.failed then return (none, s)
  else
    let (first, h) ← s.head.loop? (fun _ => none) (fun u ch _ => some (skipBlank u ch)) ()
    match first with
    | none => return (none, ⟨h, false⟩)
    | some first =>
      let (item, h) ← h.lexeme? first
      return (some item, ⟨h, !item.isOk⟩)

/-- Both ways to ask take the same steps. -/
def ask? (s : CheckedScanner) : Request → Option (Option Item × CheckedScanner)
  | .next | .nextToken => s.next?

def askAll? (s : CheckedScanner) : List Request → Option (List (Option Item) × CheckedScanner)
  | [] => some ([], s)
  | request :: requests => do
    let (answer, s) ← s.ask? request
    let (answers, s) ← s.askAll? requests
    return (answer :: answers, s)

/-- Collect tokens after those in `before`; each of them has to leave fewer bytes ahead. -/
def collectAfter? (before : List Token) (s : CheckedScanner) :
    Option (Except ScanError (List Token) × CheckedScanner) :=
  match s.next? with
  | none => none
  | some (none, s') => some (.ok before.reverse, s')
  | some (some (.error error), s') => some (.error error, s')
  | some (some (.ok token), s') =>
    if s'.head.bytesLeft < s.head.bytesLeft then s'.collectAfter? (token :: before) else none
termination_by s.head.bytesLeft

def scan? (s : CheckedScanner) : Option (Except ScanError (List Token) × CheckedScanner) :=
  s.collectAfter? []

/-- A scanner without the text on the sides of its cursor. -/
def of (s : Scanner) : CheckedScanner := ⟨s.cursor.head, s.failed⟩

theorem through_skipBlank (cs : List Char) :
    Head.through (fun _ => none) (fun u ch _ => skipBlank u ch) () cs =
      ((cs.dropWhile isBlank).head?, (cs.takeWhile isBlank).length) := by
  induction cs with
  | nil => rfl
  | cons ch cs ih =>
    by_cases hch : isBlank ch = true
    · have hround : skipBlank () ch = .inl () := if_pos (CharClass.of_eq_blank.mpr hch)
      simp [Head.through, hround, hch, ih]
    · have hround : skipBlank () ch = .inr (some ch) :=
        if_neg fun hclass => hch (CharClass.of_eq_blank.mp hclass)
      simp [Head.through, hround, hch]

variable {s : Scanner}

theorem ahead_proper (h : s.cursor.Proper) : s.ahead.Proper := by
  obtain ⟨k, hk⟩ := h.stands
  exact (Scanner.ahead_standsAt hk).proper h.short

theorem next_proper (h : s.cursor.Proper) : s.next.2.cursor.Proper := by
  obtain ⟨k, hk⟩ := h.stands
  obtain ⟨j, hj⟩ := Scanner.next_standsAt hk
  exact hj.proper h.short

theorem next?_of (h : s.cursor.Proper) : (of s).next? = some (s.next.1, of s.next.2) := by
  have hblanks := Cursor.loop?_head (fun _ => none) (fun u ch _ => some (skipBlank u ch))
    (fun u ch _ => skipBlank u ch) h (fun _ _ _ _ _ _ => rfl) ()
  rw [through_skipBlank, ← Cursor.eatWhile_eq_skip, ← Cursor.eatWhile_rest] at hblanks
  change s.cursor.head.loop? _ _ () = some (s.ahead.rest.head?, s.ahead.head) at hblanks
  rcases s.next_cases with hf | ⟨hf, hr | ⟨c, cs, hr, ⟨value, n, hl⟩ | ⟨fault, n, hl⟩⟩⟩
  · rw [Scanner.next_of_failed hf]
    simp [next?, of, hf]
  · rw [Scanner.next_of_nil hf hr]
    rw [hr] at hblanks
    simp [next?, of, hf, hblanks]
  · rw [Scanner.next_of_token hf hr hl]
    have hlexeme := Cursor.lexeme?_head (ahead_proper h) hr
    rw [hr] at hblanks
    simp [next?, of, hf, hblanks, hlexeme, hl, Lexeme.handedOut, Scanner.record, Except.isOk,
      Except.toBool]
  · rw [Scanner.next_of_fault hf hr hl]
    have hlexeme := Cursor.lexeme?_head (ahead_proper h) hr
    rw [hr] at hblanks
    simp [next?, of, hf, hblanks, hlexeme, hl, Lexeme.handedOut, Scanner.record, Except.isOk,
      Except.toBool]

/-! ## All items -/

theorem askAll?_proper (h : s.cursor.Proper) (requests : List Request) :
    (of s).askAll? requests = some ((s.askAll requests).1, of (s.askAll requests).2) ∧
      (s.askAll requests).2.cursor.Proper := by
  induction requests generalizing s with
  | nil => exact ⟨rfl, h⟩
  | cons request requests ih =>
    obtain ⟨hrest, hproper⟩ := ih (next_proper h)
    have hask : (of s).ask? request = some (s.next.1, of s.next.2) := by
      cases request <;> exact next?_of h
    rw [Scanner.askAll_cons]
    refine ⟨?_, hproper⟩
    simp only [askAll?, hask, Option.bind_eq_bind, Option.bind_some, hrest]
    rfl

theorem bytesLeft_next (h : s.cursor.Proper) {t : Token} {s' : Scanner}
    (hnext : s.next = (some (.ok t), s')) : s'.cursor.head.bytesLeft < s.cursor.head.bytesLeft := by
  obtain ⟨c, cs, n, hr, hl, -, -, hcursor⟩ := Scanner.next_eq_token hnext
  have hpos := Lexeme.length_pos hl
  have hahead := Cursor.eatWhile_eq_skip isBlank s.cursor
  change s.ahead = _ at hahead
  have hrest : s.cursor.rest ≠ [] := by
    intro hnil
    rw [hahead, Cursor.skip_rest, hnil, List.drop_nil] at hr
    cases hr
  rw [hcursor, hahead, Cursor.skip_skip]
  exact Cursor.bytesLeft_skip h hrest (by omega)

theorem Run.collectAfter? {last : Scanner} {tokens : List Token} {error : Option ScanError}
    (hrun : Scanner.Run s tokens error last) (h : s.cursor.Proper) (before : List Token) :
    (of s).collectAfter? before = some (resultOf (before.reverse ++ tokens) error, of last) := by
  induction hrun generalizing before with
  | @ended s last hnext =>
    have hstep := next?_of h
    rw [hnext] at hstep
    rw [CheckedScanner.collectAfter?, hstep, List.append_nil]
    rfl
  | @token s s' last t tokens error hnext _ ih =>
    have hstep := next?_of h
    have hproper := next_proper h
    rw [hnext] at hstep hproper
    have hless : (of s').head.bytesLeft < (of s).head.bytesLeft := bytesLeft_next h hnext
    rw [CheckedScanner.collectAfter?, hstep]
    simp only [if_pos hless]
    rw [ih hproper, List.reverse_cons, List.append_assoc]
    rfl
  | @failed s last e hnext =>
    have hstep := next?_of h
    rw [hnext] at hstep
    rw [CheckedScanner.collectAfter?, hstep]
    rfl

theorem scan?_of (h : s.cursor.Proper) : ∃ last, (of s).scan? = some (s.scan.1, last) := by
  obtain ⟨tokens, error, last, hrun⟩ := s.exists_run
  refine ⟨of last, ?_⟩
  rw [scan?, Run.collectAfter? hrun h [], hrun.scan]
  rfl

theorem ofString_proper {source : String} (h : source.length ≤ Nat.pow 2 32 - 2) :
    (Scanner.ofString source).cursor.Proper :=
  (Scanner.ofString_standsAt source).proper (String.length_toList ▸ h)

/-- The length of a token can be counted from its places, and is not zero. -/
theorem length?_of_mem_drain (source : String) {t : Token}
    (h : .ok t ∈ (Scanner.ofString source).drain.1) : ∃ n, t.length? = some n ∧ 0 < n := by
  obtain ⟨tokens, error, hread⟩ := exists_reading .start source.toList
  rw [hread.drain] at h
  obtain ⟨-, hlt⟩ := hread.offset_le (mem_of_mem_itemsOf h)
  exact ⟨_, if_pos (Nat.le_of_lt hlt), Nat.sub_pos_of_lt hlt⟩

/-- **No condition fails.** On a source of up to `2 ^ 32 - 2` characters, whatever items are
asked for and when the rest is collected then, every step of the scanner that checks its
conditions can be taken, its answers are those of the scanner without checks, and all tokens
that are handed out have a length. -/
theorem askAll?_ofString (source : String) (hshort : source.length ≤ Nat.pow 2 32 - 2)
    (requests : List Request) :
    let answers := ((Scanner.ofString source).askAll requests).1
    let left := ((Scanner.ofString source).askAll requests).2
    (∃ left', (ofString source).askAll? requests = some (answers, left') ∧
      ∃ last, left'.scan? = some (left.scan.1, last)) ∧
    ∀ t, (some (.ok t) ∈ answers ∨ ∃ tokens, left.scan.1 = .ok tokens ∧ t ∈ tokens) →
      ∃ n, t.length? = some n ∧ 0 < n := by
  intro answers left
  obtain ⟨hanswers, hproper⟩ := askAll?_proper (ofString_proper hshort) requests
  refine ⟨⟨of left, hanswers, scan?_of hproper⟩, fun t ht => length?_of_mem_drain source ?_⟩
  rw [Scanner.drain_askAll _ requests, List.mem_append]
  rcases ht with ht | ⟨tokens, htokens, ht⟩
  · exact .inl (List.mem_filterMap.mpr ⟨_, ht, rfl⟩)
  · rw [((Scanner.scan_collects left).1 tokens).mp htokens]
    exact .inr (List.mem_map_of_mem ht)

/-- Characters of several bytes, a number with a base, and a comment that is not closed. -/
theorem askAll?_ofString_mixed :
    "π := 0x1F /* λ".length ≤ Nat.pow 2 32 - 2 ∧
    ∃ left', (ofString "π := 0x1F /* λ").askAll? [.next, .nextToken] =
        some (((Scanner.ofString "π := 0x1F /* λ").askAll [.next, .nextToken]).1, left') ∧
      ∃ last, left'.scan? =
        some (((Scanner.ofString "π := 0x1F /* λ").askAll [.next, .nextToken]).2.scan.1, last) :=
  have hshort : "π := 0x1F /* λ".length ≤ Nat.pow 2 32 - 2 := by decide
  ⟨hshort, (askAll?_ofString "π := 0x1F /* λ" hshort [.next, .nextToken]).1⟩

end CheckedScanner

end GoTokens

import GoTokens.Proofs.CharClass
import GoTokens.Proofs.Lexeme.Settled
import GoTokens.Proofs.Scanner.Place

/-!
How scanning fails. The first character of a lexeme alone decides which fault there can be;
`Lexeme.Fails` lists the four of them with the characters that each has passed, so an error
tells where the lexeme begins and where the cursor has been left (`nextToken_error`). All
after that is silence.
-/

namespace GoTokens

open Text

namespace Lexeme

/-- The faults of a text that begins with a character, and how many characters each has
passed. -/
inductive Fails (c : Char) (cs : List Char) : Fault → Nat → Prop where
  | unknown : CharClass.of c = .other → Fails c cs (.unknownCharacter c) 0
  | literal : CharClass.of c = .quote → Fails c cs (.unterminatedLiteral c) (cs.length + 1)
  | comment : c = '/' → cs.head? = some '*' → Fails c cs .unterminatedComment (cs.length + 1)
  | number {n : Nat} : CharClass.of c = .digit → 0 < n → n ≤ cs.length + 1 →
      Fails c cs (.malformedNumber (String.ofList ((c :: cs).take n))) n

variable {c : Char} {cs : List Char} {fault : Fault} {n : Nat}

theorem number_fails (hc : CharClass.of c = .digit) (h : number (c :: cs) = .fault fault n) :
    Fails c cs fault n := by
  obtain ⟨rest, hrest⟩ := NumberShape.text_atFront (c :: cs)
  have hne : (NumberShape.atFront (c :: cs)).text ≠ [] :=
    NumberShape.atFront_text_ne_nil (isDigit_of_class hc)
  rw [number_eq, ofShape] at h
  split at h
  · cases h
    have hlen := congrArg List.length hrest
    have htake : (c :: cs).take (NumberShape.atFront (c :: cs)).text.length =
        (NumberShape.atFront (c :: cs)).text :=
      (congrArg (List.take _) hrest).trans List.take_left
    rw [List.length_append, List.length_cons] at hlen
    have hfails : Fails c cs _ _ := .number hc (List.length_pos_iff.mpr hne) (by omega)
    rwa [htake] at hfails
  · split at h <;> cases h

theorem punctuation_fails (hc : CharClass.of c = .punctuation)
    (h : punctuation c cs = .fault fault n) : Fails c cs fault n := by
  rw [punctuation] at h
  split at h
  · cases h
  · split at h
    · rename_i hblock
      simp only [blockComment] at h
      split at h <;> cases h
      exact .comment hblock.1 hblock.2
    · -- Such a character is an operator, so the last case does not come up.
      obtain ⟨p, hp⟩ : ∃ p, Punct.ofChar? c = some p := by
        rw [← Option.isSome_iff_exists, ← isPunctuation_eq_isSome]
        exact CharClass.isPunctuation_of_class hc
      simp only [Punct.atFront?, hp, Option.map_some] at h
      cases h

theorem atFront_fails (hc : isBlank c = false) (h : atFront c cs = .fault fault n) :
    Fails c cs fault n := by
  unfold atFront at h
  split at h
  · cases h
  · rename_i hclass
    exact number_fails hclass h
  · rename_i hclass
    simp only [quoted] at h
    split at h <;> cases h
    exact .literal hclass
  · rename_i hclass
    exact punctuation_fails hclass h
  · rename_i hclass
    rw [CharClass.of_eq_blank.mp hclass] at hc
    cases hc
  · rename_i hclass
    cases h
    exact .unknown hclass

theorem Fails.length_le (h : Fails c cs fault n) : n ≤ cs.length + 1 := by
  cases h <;> omega

end Lexeme

/-! ## What an error says -/

def Fault.charClass : Fault → CharClass
  | .unknownCharacter _ => .other
  | .unterminatedLiteral _ => .quote
  | .unterminatedComment => .punctuation
  | .malformedNumber _ => .digit

/-- What a fault of the lexeme that begins with `c` at the index `j` of a text says, and where
it leaves the cursor. -/
structure Diagnosis (cs : List Char) (j : Nat) (c : Char) (fault : Fault) (last : Cursor) :
    Prop where
  unknown : (∃ d, fault = .unknownCharacter d) ↔ CharClass.of c = .other
  unknown_at : ∀ d, fault = .unknownCharacter d → d = c ∧ last.StandsAt cs j
  literal : (∃ d, fault = .unterminatedLiteral d) ↔ isQuote c = true
  literal_at : ∀ d, fault = .unterminatedLiteral d → d = c ∧ last.StandsAt cs cs.length
  comment : fault = .unterminatedComment ↔ c = '/'
  comment_at : fault = .unterminatedComment →
    cs[j + 1]? = some '*' ∧ last.StandsAt cs cs.length
  number : (∃ text, fault = .malformedNumber text) ↔ c.isDigit = true
  number_at : ∀ text, fault = .malformedNumber text →
    ∃ m, j < m ∧ last.StandsAt cs m ∧ text = String.ofList ((cs.take m).drop j)

namespace Lexeme

variable {c : Char} {rest cs : List Char} {fault : Fault} {n j : Nat} {last : Cursor}

theorem Fails.charClass (h : Fails c rest fault n) : CharClass.of c = fault.charClass := by
  cases h with
  | unknown hclass => exact hclass
  | literal hclass => exact hclass
  | comment hc _ => rw [hc]; decide +kernel
  | number hclass => exact hclass

theorem Fails.diagnosis (h : Fails c rest fault n) (hdrop : cs.drop j = c :: rest)
    (hlast : last.StandsAt cs (j + n)) : Diagnosis cs j c fault last := by
  have hlen : cs.length = j + (rest.length + 1) := by
    have hdrop := congrArg List.length hdrop
    rw [List.length_drop, List.length_cons] at hdrop
    omega
  have hclass := h.charClass
  have hslash : c = '/' → fault = .unterminatedComment := by
    rintro rfl
    have hslash : CharClass.of '/' = .punctuation := by decide +kernel
    cases fault <;> cases hslash.symm.trans hclass
    rfl
  constructor
  case unknown => rw [hclass]; cases fault <;> simp [Fault.charClass]
  case literal => rw [← CharClass.of_eq_quote, hclass]; cases fault <;> simp [Fault.charClass]
  case number => rw [← CharClass.of_eq_digit, hclass]; cases fault <;> simp [Fault.charClass]
  case comment => exact ⟨fun hfault => by subst hfault; cases h; assumption, hslash⟩
  case unknown_at =>
    rintro d rfl
    cases h
    exact ⟨rfl, hlast⟩
  case literal_at =>
    rintro d rfl
    cases h
    exact ⟨rfl, hlen ▸ hlast⟩
  case comment_at =>
    rintro rfl
    cases h with
    | comment _ hstar =>
      refine ⟨?_, hlen ▸ hlast⟩
      rw [← List.getElem?_drop, hdrop, List.getElem?_cons_succ, ← List.head?_eq_getElem?, hstar]
  case number_at =>
    rintro text rfl
    cases h with
    | number _ hpos _ =>
      refine ⟨j + n, by omega, hlast, ?_⟩
      rw [← hdrop, List.take_drop]

end Lexeme

namespace Scanner

variable {s : Scanner}

theorem nextToken_eq_next (s : Scanner) : (itemOf? s.nextToken.1, s.nextToken.2) = s.next :=
  s.ask_eq_next .nextToken

theorem askAll_of_failed (h : s.failed = true) (requests : List Request) :
    (∀ answer ∈ (s.askAll requests).1, answer = none) ∧ (s.askAll requests).2 = s := by
  refine ⟨askAll_of_ended (next_of_failed h) requests, ?_⟩
  induction requests with
  | nil => rfl
  | cons request requests ih => rw [askAll_cons, next_of_failed h, ih]

theorem scan_of_failed (h : s.failed = true) :
    s.scan.1 = .ok [] ∧ s.scan.2.cursor = s.cursor := by
  have hrun : Run (s.record (.scanStarted s.cursor.sourceBytes)) [] none _ :=
    .ended (next_of_failed (s := s.record (.scanStarted s.cursor.sourceBytes)) h)
  rw [scan, hrun.collectAfter []]
  exact ⟨rfl, rfl⟩

/-- **How scanning fails.** When a scanner that has been asked for any items answers with an
error, then that is at the first character ahead that is no blank, and which error it is, what
it carries and where it leaves the cursor follow from that character. From then on, all answers
are none, and the cursor stays. -/
theorem nextToken_error (source : String) (requests : List Request) {e : ScanError}
    (h : ((ofString source).askAll requests).2.nextToken.1 = .error e) :
    let cs := source.toList
    let s := ((ofString source).askAll requests).2
    let last := s.nextToken.2
    (∃ k j c, s.cursor.StandsAt cs k ∧ FirstFrom cs k j c ∧ e.position = .inText cs j ∧
      Diagnosis cs j c e.fault last.cursor) ∧
    ∀ later : List Request,
      let left := (last.askAll later).2
      (∀ answer ∈ (last.askAll later).1, answer = none) ∧ left.cursor = last.cursor ∧
      left.scan.1 = .ok [] ∧ left.scan.2.cursor = last.cursor := by
  intro cs s last
  obtain ⟨k, hk⟩ := askAll_standsAt (ofString_standsAt source) requests
  have hnext : s.next = (some (.error e), last) := by
    rw [← nextToken_eq_next, h]
    rfl
  refine ⟨?_, fun later => ?_⟩
  · obtain ⟨c, rest, n, hr, hl, hposition, hcursor, -⟩ := next_eq_error hnext
    have hahead := ahead_standsAt hk
    have hfirst := ahead_firstFrom hk hr
    have hfails := Lexeme.atFront_fails hfirst.notBlank hl
    have hdrop := hahead.remaining.symm.trans hr
    have hlast := hahead.skip n
    have hlen := congrArg List.length hdrop
    rw [List.length_drop, List.length_cons] at hlen
    have hn := hfails.length_le
    rw [Nat.min_eq_left (by omega), ← hcursor] at hlast
    exact ⟨k, _, c, hk, hfirst, hposition.trans (congrArg Cursor.position hahead.eq_atIndex),
      hfails.diagnosis hdrop hlast⟩
  · have hfailed := next_error_failed hnext
    obtain ⟨hnone, hstay⟩ := askAll_of_failed hfailed later
    rw [hstay]
    exact ⟨hnone, rfl, scan_of_failed hfailed⟩

/-- A comment that is not closed, behind a word. -/
theorem nextToken_error_comment :
    let s := ((ofString "a /* b").askAll [.next]).2
    s.nextToken.1 = .error ⟨.unterminatedComment, ⟨2, 1, 3⟩⟩ ∧
    ∃ k j c, s.cursor.StandsAt "a /* b".toList k ∧ FirstFrom "a /* b".toList k j c ∧
      (⟨2, 1, 3⟩ : Position) = .inText "a /* b".toList j ∧
      Diagnosis "a /* b".toList j c .unterminatedComment s.nextToken.2.cursor :=
  have herror : ((ofString "a /* b").askAll [.next]).2.nextToken.1 =
      .error ⟨.unterminatedComment, ⟨2, 1, 3⟩⟩ := by decide +kernel
  ⟨herror, (nextToken_error "a /* b" [.next] herror).1⟩

end Scanner

end GoTokens

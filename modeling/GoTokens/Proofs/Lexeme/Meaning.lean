import GoTokens.Proofs.CharClass
import GoTokens.Proofs.Lexeme.Comment
import GoTokens.Proofs.Lexeme.NumberParts
import GoTokens.Proofs.Lexeme.Settled
import GoTokens.Proofs.Punct

/-!
What the lexeme at the front of a text means. Each kind of lexeme is told by its characters and
by what stands behind them, and so is its meaning (`Means`). Reading finds a token exactly where
there is such a lexeme, and the same one (`atFront_eq_token_iff`).
-/

namespace GoTokens

open Text

namespace NumberAt

variable {c : Char} {cs rest : List Char} {shape : NumberShape}

/-- The number at the front decides with the character behind it what is read. -/
theorem number_eq (h : NumberAt (c :: cs) shape rest) :
    Lexeme.number (c :: cs) = Lexeme.ofShape shape rest.head? := by
  obtain ⟨hshape, htext⟩ := numberAt_iff.mp h
  rw [Lexeme.number_eq, ← hshape, htext, List.drop_left]

theorem ofShape_invalid (h : NumberAt (c :: cs) shape rest) (hc : c.isDigit = true)
    (hinvalid : ¬ shape.Valid) (next : Option Char) :
    Lexeme.ofShape shape next =
      .fault (.malformedNumber (String.ofList shape.text)) shape.text.length := by
  have hspec := h.value?_spec hc
  unfold Lexeme.ofShape
  cases hvalue : shape.value? with
  | none => rfl
  | some value =>
    rw [hvalue] at hspec
    exact absurd hspec.1 hinvalid

theorem exists_value (h : NumberAt (c :: cs) shape rest) (hc : c.isDigit = true)
    (hvalid : shape.Valid) : ∃ value, shape.value? = some value ∧ shape.Denotes value := by
  have hspec := h.value?_spec hc
  cases hvalue : shape.value? with
  | none =>
    rw [hvalue] at hspec
    exact absurd hvalid hspec
  | some value =>
    rw [hvalue] at hspec
    exact ⟨value, rfl, hspec.2⟩

theorem ofShape_imaginary (h : NumberAt (c :: cs) shape rest) (hc : c.isDigit = true)
    (hvalid : shape.Valid) :
    Lexeme.ofShape shape (some 'i') =
      .token (.imag (String.ofList (shape.text ++ ['i']))) (shape.text.length + 1) := by
  obtain ⟨value, hvalue, -⟩ := h.exists_value hc hvalid
  unfold Lexeme.ofShape
  rw [hvalue]
  exact if_pos rfl

theorem ofShape_valid (h : NumberAt (c :: cs) shape rest) (hc : c.isDigit = true)
    (hvalid : shape.Valid) {next : Option Char} (hnext : next ≠ some 'i') :
    ∃ value, shape.Denotes value ∧
      Lexeme.ofShape shape next = .token value shape.text.length := by
  obtain ⟨value, hvalue, hdenotes⟩ := h.exists_value hc hvalid
  refine ⟨value, hdenotes, ?_⟩
  unfold Lexeme.ofShape
  rw [hvalue]
  exact if_neg hnext

end NumberAt

namespace Lexeme

/-- What the lexeme that begins with `c` and goes on in `cs` means, and how many characters
it has. -/
inductive Means (c : Char) (cs : List Char) : TokenValue → Nat → Prop where
  | word {run rest : List Char} : isWordStart c = true →
      LongestRun isWordPart (c :: cs) run rest →
      Means c cs (.ofWord (String.ofList run)) run.length
  | number {shape : NumberShape} {rest : List Char} {value : TokenValue} : c.isDigit = true →
      NumberAt (c :: cs) shape rest → shape.Valid → shape.Denotes value →
      rest.head? ≠ some 'i' → Means c cs value shape.text.length
  | imaginary {shape : NumberShape} {rest : List Char} : c.isDigit = true →
      NumberAt (c :: cs) shape rest → shape.Valid → rest.head? = some 'i' →
      Means c cs (.imag (String.ofList (shape.text ++ ['i']))) (shape.text.length + 1)
  | quoted {body rest : List Char} : isQuote c = true → cs = body ++ c :: rest →
      Quoted.pending? c false body = some false →
      Means c cs (Quoted.value c body) (body.length + 2)
  | lineComment {span rest : List Char} : c = '/' → cs.head? = some '/' →
      LongestRun (· ≠ '\n') (c :: cs) span rest →
      Means c cs (.comment (String.ofList (trimEnd span))) span.length
  | blockComment {body rest : List Char} : c = '/' → cs.head? = some '*' →
      cs = body ++ '*' :: '/' :: rest → Comment.Unclosed body →
      Means c cs (.comment (String.ofList (Comment.onOneLine (Comment.block body))))
        (body.length + 3)
  | operator {p : Punct} : ¬ (c = '/' ∧ cs.head? = some '/') →
      ¬ (c = '/' ∧ cs.head? = some '*') → Punct.IsLongest (c :: cs) p →
      Means c cs (.opSep p) p.spelling.length

variable {c : Char} {cs : List Char} {value : TokenValue} {n : Nat}

theorem word_run (hc : isWordStart c = true) (cs : List Char) :
    (c :: cs).takeWhile isWordPart = c :: cs.takeWhile isWordPart :=
  List.takeWhile_cons_of_pos (isWordPart_of_isWordStart hc)

theorem number_means (hc : c.isDigit = true) (h : number (c :: cs) = token value n) :
    Means c cs value n := by
  obtain ⟨rest, -, hall⟩ := numberAt_atFront (c :: cs)
  have hnumber := (hall _ rest).mpr ⟨rfl, rfl⟩
  rw [hnumber.number_eq] at h
  by_cases hvalid : (NumberShape.atFront (c :: cs)).Valid
  · by_cases hi : rest.head? = some 'i'
    · rw [hi, hnumber.ofShape_imaginary hc hvalid] at h
      obtain ⟨rfl, rfl⟩ := token.inj h
      exact .imaginary hc hnumber hvalid hi
    · obtain ⟨value', hdenotes, hshown⟩ := hnumber.ofShape_valid hc hvalid hi
      rw [hshown] at h
      obtain ⟨rfl, rfl⟩ := token.inj h
      exact .number hc hnumber hvalid hdenotes hi
  · rw [hnumber.ofShape_invalid hc hvalid] at h
    cases h

theorem punctuation_means (h : punctuation c cs = token value n) : Means c cs value n := by
  rw [punctuation] at h
  split at h
  · rename_i hslash
    obtain ⟨rfl, rfl⟩ := token.inj h
    exact .lineComment hslash.1 hslash.2
      (longestRun_iff.mpr ⟨rfl, List.takeWhile_append_dropWhile.symm⟩)
  · rename_i hline
    split at h
    · rename_i hstar
      rw [blockComment] at h
      split at h
      · rename_i m hm
        obtain ⟨rfl, rfl⟩ := token.inj h
        obtain ⟨body, rest, rfl, hbody, rfl⟩ := Comment.blockLength?_eq_some_iff.mp hm
        have hlength : 1 + body.length + 2 = body.length + 3 := by omega
        rw [hlength, Comment.take_block, Comment.blockValue, hstar.1]
        exact .blockComment rfl (hstar.2) rfl hbody
      · cases h
    · rename_i hblock
      split at h
      · rename_i p hp
        obtain ⟨rfl, rfl⟩ := token.inj h
        exact .operator hline hblock (Punct.atFront?_eq_some_iff.mp hp)
      · cases h

theorem atFront_means (h : atFront c cs = token value n) : Means c cs value n := by
  unfold atFront at h
  split at h
  · rename_i hclass
    obtain ⟨rfl, rfl⟩ := token.inj h
    have hc := CharClass.isWordStart_of_class hclass
    rw [← word_run hc]
    exact .word hc (longestRun_iff.mpr ⟨rfl, List.takeWhile_append_dropWhile.symm⟩)
  · rename_i hclass
    exact number_means (isDigit_of_class hclass) h
  · rename_i hclass
    obtain ⟨body, rest, hsplit, hpending, rfl, rfl⟩ := quoted_eq_token h
    exact .quoted (CharClass.isQuote_of_class hclass) hsplit hpending
  · exact punctuation_means h
  · cases h
  · cases h

theorem class_of_isLongest {p : Punct} (h : Punct.IsLongest (c :: cs) p) :
    CharClass.of c = .punctuation := by
  obtain ⟨first, hfirst, -⟩ := Punct.exists_ofChar? h.atFront
  rw [CharClass.of_eq_punctuation, isPunctuation_eq_isSome, hfirst]
  rfl

theorem class_slash : CharClass.of '/' = .punctuation := by decide +kernel

theorem Means.atFront (h : Means c cs value n) : atFront c cs = token value n := by
  cases h with
  | word hc hrun =>
    rw [Lexeme.atFront, CharClass.of_eq_wordStart.mpr hc]
    simp only [Lexeme.word]
    rw [← word_run hc, ← (longestRun_iff.mp hrun).1]
  | number hc hnumber hvalid hdenotes hi =>
    rw [Lexeme.atFront, CharClass.of_eq_digit.mpr hc]
    obtain ⟨value', hdenotes', hshown⟩ := hnumber.ofShape_valid hc hvalid hi
    simp only
    rw [hnumber.number_eq, hshown, hdenotes.unique hdenotes']
  | imaginary hc hnumber hvalid hi =>
    rw [Lexeme.atFront, CharClass.of_eq_digit.mpr hc]
    simp only
    rw [hnumber.number_eq, hi, hnumber.ofShape_imaginary hc hvalid]
  | quoted hc hsplit hpending =>
    rw [Lexeme.atFront, CharClass.of_eq_quote.mpr hc, hsplit]
    exact quoted_of_pending hpending _
  | lineComment hc hcs hrun =>
    subst hc
    rw [Lexeme.atFront, class_slash]
    simp only
    rw [punctuation, if_pos ⟨rfl, hcs⟩, Lexeme.lineComment, Comment.line,
      ← (longestRun_iff.mp hrun).1]
    rfl
  | @blockComment body rest hc hcs hsplit hbody =>
    subst hc
    have hlength := Comment.blockLength?_append hbody 1 rest
    rw [← hsplit, show 1 + body.length + 2 = body.length + 3 by omega] at hlength
    rw [Lexeme.atFront, class_slash]
    simp only
    rw [punctuation, if_neg (by simp [hcs]), if_pos ⟨rfl, hcs⟩, Lexeme.blockComment, hlength]
    simp only
    rw [hsplit, Comment.take_block]
    rfl
  | operator hline hblock hlongest =>
    rw [Lexeme.atFront, class_of_isLongest hlongest]
    simp only
    rw [punctuation, if_neg hline, if_neg hblock, Punct.atFront?_eq_some_iff.mpr hlongest]

/-- **Lexemes.** A token is read at the front of a text exactly where there is a lexeme that
means it. -/
theorem atFront_eq_token_iff : atFront c cs = token value n ↔ Means c cs value n :=
  ⟨atFront_means, Means.atFront⟩

def firstClass : TokenKind → CharClass
  | .keyword | .ident => .wordStart
  | .int | .float | .imag => .digit
  | .string | .byte => .quote
  | .opSep | .comment => .punctuation

theorem firstClass_ofWord (word : String) :
    firstClass (TokenValue.ofWord word).kind = .wordStart := by
  unfold TokenValue.ofWord
  split <;> rfl

theorem firstClass_quoted (mark : Char) (body : List Char) :
    firstClass (Quoted.value mark body).kind = .quote := by
  unfold Quoted.value
  dsimp only
  split <;> rfl

/-- The kind of a token tells what it begins with. -/
theorem Means.class_eq (h : Means c cs value n) : CharClass.of c = firstClass value.kind := by
  cases h with
  | word hc hrun => rw [firstClass_ofWord, CharClass.of_eq_wordStart.mpr hc]
  | number hc hnumber hvalid hdenotes hi =>
    obtain ⟨n, rfl⟩ | ⟨x, rfl⟩ := hdenotes.int_or_float
    · exact CharClass.of_eq_digit.mpr hc
    · exact CharClass.of_eq_digit.mpr hc
  | imaginary hc hnumber hvalid hi => exact CharClass.of_eq_digit.mpr hc
  | quoted hc hsplit hpending => rw [firstClass_quoted, CharClass.of_eq_quote.mpr hc]
  | lineComment hc hcs hrun => rw [hc]; exact class_slash
  | blockComment hc hcs hsplit hbody => rw [hc]; exact class_slash
  | operator hline hblock hlongest => exact class_of_isLongest hlongest

end Lexeme

end GoTokens

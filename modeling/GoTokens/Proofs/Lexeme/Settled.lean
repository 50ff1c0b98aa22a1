import GoTokens.Lexeme
import GoTokens.Proofs.Lexeme.Comment
import GoTokens.Proofs.Lexeme.Number
import GoTokens.Proofs.Lexeme.Quoted

/-!
A token is settled by its own characters and at most one after them: the reader of each
kind of lexeme takes the same token when something else follows, as long as that may
follow (`Lexeme.atFront_settled`). Blanks may follow every token, except that only a line
end may be put behind a line comment in the place of something else. A fault that is not
in the end of the text is settled in the same way (`Lexeme.atFront_fault_append`).
-/

namespace GoTokens

open Lookahead Text

namespace Punct

theorem isBlank_of_extend? {p q : Punct} {c : Char} (h : p.extend? c = some q) :
    isBlank c = false := by
  unfold extend? at h
  split at h <;> cases h <;> decide

theorem extend?_of_isBlank (p : Punct) {c : Char} (h : isBlank c = true) : p.extend? c = none := by
  cases hq : p.extend? c with
  | none => rfl
  | some q =>
    rw [isBlank_of_extend? hq] at h
    cases h

/-- An operator is read through its spelling, and goes no further before a character that
does not extend it. -/
theorem extendThrough_split (p : Punct) (cs : List Char) :
    ∃ body rest, cs = body ++ rest ∧ (p.extendThrough cs).spelling = p.spelling ++ body ∧
      ∀ new, Follows Blank rest new → p.extendThrough (body ++ new) = p.extendThrough cs := by
  induction cs generalizing p with
  | nil =>
    refine ⟨[], [], rfl, (List.append_nil _).symm, fun new hf => ?_⟩
    cases new with
    | nil => rfl
    | cons d new =>
      rcases hf d rfl with hd | hd
      · cases hd
      · simp [extendThrough, p.extend?_of_isBlank hd]
  | cons c cs ih =>
    cases hq : p.extend? c with
    | some q =>
      obtain ⟨body, rest, rfl, hspell, hnew⟩ := ih q
      refine ⟨c :: body, rest, rfl, ?_, fun new hf => ?_⟩
      · simp only [extendThrough, hq]
        rw [hspell, spelling_of_extend? hq, List.append_assoc]
        rfl
      · simp only [List.cons_append, extendThrough, hq]
        exact hnew new hf
    | none =>
      refine ⟨[], c :: cs, rfl, by simp [extendThrough, hq], fun new hf => ?_⟩
      cases new with
      | nil => simp [extendThrough, hq]
      | cons d new =>
        have hd : p.extend? d = none := by
          rcases hf d rfl with hd | hd
          · cases hd; exact hq
          · exact p.extend?_of_isBlank hd
        simp [extendThrough, hq, hd]

end Punct

/-- Whether a fault is found in the characters that have been read, and not in the end of the
text after them. -/
def Fault.isInside : Fault → Bool
  | .unknownCharacter _ | .malformedNumber _ => true
  | .unterminatedLiteral _ | .unterminatedComment => false

namespace Lexeme

/-- A token read from `cs` takes `body` beyond its first character and leaves `rest`, and is
read all the same when something else follows. -/
structure Settled (read : List Char → Lexeme) (allowed : Char → Prop) (cs : List Char)
    (value : TokenValue) (n : Nat) (body rest : List Char) : Prop where
  split : cs = body ++ rest
  length : n = body.length + 1
  kept : ∀ new, Follows allowed rest new → read (body ++ new) = token value n

section

variable {c : Char} {cs : List Char} {value : TokenValue} {n : Nat}

/-- A literal is a body that leaves nothing escaped, between two marks. -/
theorem quoted_eq_token (h : quoted c cs = token value n) :
    ∃ body rest, cs = body ++ c :: rest ∧ Quoted.pending? c false body = some false ∧
      value = Quoted.value c body ∧ n = body.length + 2 := by
  simp only [quoted] at h
  split at h
  · rename_i m hm
    obtain ⟨body, rest, rfl, rfl, hpending⟩ := Quoted.bodyLength?_split hm
    rw [Nat.zero_add, List.take_left] at h
    obtain ⟨hvalue, hn⟩ := token.inj h
    exact ⟨body, rest, rfl, hpending, hvalue.symm, hn.symm⟩
  · cases h

theorem quoted_of_pending {body : List Char} (h : Quoted.pending? c false body = some false)
    (rest : List Char) :
    quoted c (body ++ c :: rest) = token (Quoted.value c body) (body.length + 2) := by
  have hlength : Quoted.bodyLength? c false 0 (body ++ c :: rest) = some body.length := by
    rw [Quoted.bodyLength?_append h, Quoted.bodyLength?, if_neg Bool.false_ne_true, if_pos rfl,
      Nat.zero_add]
  rw [quoted, hlength]
  simp only [List.take_left]

theorem word_settled (h : word c cs = token value n) :
    ∃ body rest, Settled (word c) Blank cs value n body rest := by
  simp only [word, token.injEq, List.length_cons] at h
  obtain ⟨rfl, rfl⟩ := h
  have hreads : Reads Blank (List.takeWhile isWordPart) id :=
    reads_takeWhile fun _ hd => isWordPart_of_isBlank hd
  obtain ⟨rest, hrest, hnew⟩ := hreads.settled cs
  simp only [id] at hrest hnew
  refine ⟨cs.takeWhile isWordPart, rest, hrest, rfl, fun new hf => ?_⟩
  simp only [word, hnew new hf, List.length_cons]

theorem lineComment_settled (h : lineComment (c :: cs) = token value n) (hc : c ≠ '\n') :
    ∃ body rest, Settled (fun cs => lineComment (c :: cs)) (· = '\n') cs value n body rest := by
  have hline (cs : List Char) : Comment.line (c :: cs) = c :: cs.takeWhile (· ≠ '\n') := by
    simp [Comment.line, hc]
  simp only [lineComment, hline, token.injEq, List.length_cons] at h
  obtain ⟨rfl, rfl⟩ := h
  have hreads : Reads (· = '\n') (List.takeWhile (· ≠ '\n')) id :=
    reads_takeWhile fun _ hd => by simp [hd]
  obtain ⟨rest, hrest, hnew⟩ := hreads.settled cs
  simp only [id] at hrest hnew
  refine ⟨cs.takeWhile (· ≠ '\n'), rest, hrest, rfl, fun new hf => ?_⟩
  simp only [lineComment, hline, hnew new hf, List.length_cons]

theorem quoted_settled {allowed : Char → Prop} (h : quoted c cs = token value n) :
    ∃ body rest, Settled (quoted c) allowed cs value n body rest := by
  obtain ⟨body, rest, rfl, hpending, rfl, rfl⟩ := quoted_eq_token h
  refine ⟨body ++ [c], rest, by simp, by simp, fun new _ => ?_⟩
  rw [List.append_assoc]
  exact quoted_of_pending hpending new

theorem blockComment_settled {allowed : Char → Prop} (h : blockComment c cs = token value n) :
    ∃ body rest, Settled (blockComment c) allowed cs value n body rest := by
  simp only [blockComment] at h
  split at h
  · rename_i m hm
    obtain ⟨body, rest, rfl, hbody, rfl⟩ := Comment.blockLength?_eq_some_iff.mp hm
    have hlength : 1 + body.length + 2 = body.length + 3 := by omega
    rw [hlength, Comment.take_block, token.injEq] at h
    obtain ⟨rfl, rfl⟩ := h
    refine ⟨body ++ ['*', '/'], rest, by simp, by simp, fun new _ => ?_⟩
    simp only [List.append_assoc, List.cons_append, List.nil_append, blockComment,
      Comment.blockLength?_append hbody, hlength, Comment.take_block]
  · cases h

/-- What the shape of a number and the character after it make. -/
def ofShape (shape : NumberShape) (next : Option Char) : Lexeme :=
  match shape.value? with
  | none => fault (.malformedNumber (String.ofList shape.text)) shape.text.length
  | some value =>
    if next = some 'i' then
      token (.imag (String.ofList (shape.text ++ ['i']))) (shape.text.length + 1)
    else token value shape.text.length

theorem number_eq (cs : List Char) : number cs =
    ofShape (NumberShape.atFront cs) (cs.drop (NumberShape.atFront cs).text.length).head? := rfl

/-- The number at the front is read through the text of its shape, and depends on no more
than the character after it. -/
theorem number_read (hc : c.isDigit = true) (cs : List Char) :
    ∃ shape body rest, NumberShape.text shape = c :: body ∧ cs = body ++ rest ∧
      ∀ new, Follows Blank rest new → number (c :: (body ++ new)) = ofShape shape new.head? := by
  obtain ⟨rest, hrest⟩ := NumberShape.text_atFront (c :: cs)
  have hne : (NumberShape.atFront (c :: cs)).text ≠ [] := NumberShape.atFront_text_ne_nil hc
  generalize hshape : NumberShape.atFront (c :: cs) = shape at hrest hne
  obtain ⟨body, hbody⟩ : ∃ body, shape.text = c :: body := by
    cases htext : shape.text with
    | nil => exact absurd htext hne
    | cons d body =>
      rw [htext] at hrest
      exact ⟨body, by rw [(List.cons.inj hrest).1]⟩
  refine ⟨shape, body, rest, hbody, ?_, fun new hf => ?_⟩
  · rw [hbody, List.cons_append] at hrest
    exact (List.cons.inj hrest).2
  · have hkept := NumberShape.atFront_kept hne (hrest ▸ hshape) hf
    rw [← List.cons_append, ← hbody, number_eq, hkept, List.drop_left]

theorem number_settled (hc : c.isDigit = true) (h : number (c :: cs) = token value n) :
    ∃ body rest, Settled (fun cs => number (c :: cs)) Blank cs value n body rest := by
  obtain ⟨shape, body, rest, hbody, rfl, hread⟩ := number_read hc cs
  rw [hread rest fun d hd => .inl hd] at h
  unfold ofShape at h
  split at h
  · cases h
  · rename_i number hvalue
    split at h
    · -- The letter behind the text belongs to the token.
      rename_i hi
      obtain ⟨rest, rfl⟩ : ∃ rest', rest = 'i' :: rest' := by
        cases rest with
        | nil => cases hi
        | cons d rest => cases hi; exact ⟨rest, rfl⟩
      refine ⟨body ++ ['i'], rest, by simp, ?_, fun new _ => ?_⟩
      · cases h; simp [hbody]
      · have hf : Follows Blank ('i' :: rest) ('i' :: new) := fun d hd => .inl hd
        rw [← h, List.append_assoc]
        simpa [ofShape, hvalue] using hread _ hf
    · rename_i hi
      refine ⟨body, rest, rfl, ?_, fun new hf => ?_⟩
      · cases h; simp [hbody]
      · have hnew : new.head? ≠ some 'i' := by
          intro hd
          rcases hf 'i' hd with hd | hd
          · exact hi hd
          · exact absurd hd (by decide)
        rw [← h, hread new hf]
        simp [ofShape, hvalue, hnew]

theorem Settled.mono {read : List Char → Lexeme} {p q : Char → Prop} {body rest : List Char}
    (h : Settled read p cs value n body rest) (hpq : ∀ d, q d → p d) :
    Settled read q cs value n body rest :=
  ⟨h.split, h.length, fun new hf => h.kept new (hf.mono hpq)⟩

/-- The characters that may be put behind a token that begins with `c` and `cs`: a line comment
is one that begins with two slashes. -/
def Ends (c : Char) (cs : List Char) (d : Char) : Prop :=
  Blank d ∧ (c = '/' → cs.head? = some '/' → d = '\n')

theorem operator_settled (h : punctuation c cs = token value n)
    (hline : ¬ (c = '/' ∧ cs.head? = some '/')) (hblock : ¬ (c = '/' ∧ cs.head? = some '*')) :
    ∃ body rest, Settled (punctuation c) Blank cs value n body rest := by
  rw [punctuation, if_neg hline, if_neg hblock] at h
  split at h
  · rename_i punct hp
    obtain ⟨p, hc, rfl⟩ := Option.map_eq_some_iff.mp hp
    obtain ⟨body, rest, rfl, hspell, hnew⟩ := p.extendThrough_split cs
    rw [Punct.spelling_of_ofChar? hc] at hspell
    cases h
    refine ⟨body, rest, rfl, by rw [hspell]; simp, fun new hf => ?_⟩
    have hother {d : Char} (hd : isBlank d = false)
        (hold : ¬ (c = '/' ∧ (body ++ rest).head? = some d)) :
        ¬ (c = '/' ∧ (body ++ new).head? = some d) := by
      rintro ⟨hc, hd'⟩
      rcases hf.append body d hd' with hd' | hd'
      · exact hold ⟨hc, hd'⟩
      · exact ne_of_isBlank hd' hd rfl
    rw [punctuation, if_neg (hother (by decide) hline), if_neg (hother (by decide) hblock)]
    simp [Punct.atFront?, hc, hnew new hf]
  · cases h

theorem Settled.second {read : List Char → Lexeme} {p : Char → Prop} {body rest : List Char}
    (h : Settled read p cs value n body rest) (hn : 2 ≤ n) (new : List Char) :
    (body ++ new).head? = cs.head? := by
  obtain ⟨rfl, rfl, -⟩ := h
  cases body with
  | nil => simp at hn
  | cons d body => rfl

theorem punctuation_settled (h : punctuation c cs = token value n) :
    ∃ body rest, Settled (punctuation c) (Ends c cs) cs value n body rest := by
  by_cases hline : c = '/' ∧ cs.head? = some '/'
  · have hread {cs : List Char} (hcs : cs.head? = some '/') :
        punctuation c cs = lineComment (c :: cs) := by rw [punctuation, if_pos ⟨hline.1, hcs⟩]
    have hc : c ≠ '\n' := by rw [hline.1]; decide
    rw [hread hline.2] at h
    obtain ⟨body, rest, hs⟩ := lineComment_settled h hc
    have hlong : 2 ≤ n := by
      cases cs with
      | nil => cases hline.2
      | cons d cs =>
        cases hline.2
        cases h
        simp [Comment.line, hc]
    have hs' := hs.mono (q := Ends c cs) fun d hd => hd.2 hline.1 hline.2
    refine ⟨body, rest, hs'.split, hs'.length, fun new hf => ?_⟩
    rw [hread ((hs'.second hlong new).trans hline.2)]
    exact hs'.kept new hf
  · by_cases hblock : c = '/' ∧ cs.head? = some '*'
    · have hread {cs : List Char} (hcs : cs.head? = some '*') :
          punctuation c cs = blockComment c cs := by
        rw [punctuation, if_neg (by simp [hcs]), if_pos ⟨hblock.1, hcs⟩]
      rw [hread hblock.2] at h
      obtain ⟨body, rest, hs⟩ :
          ∃ body rest, Settled (blockComment c) (Ends c cs) cs value n body rest :=
        blockComment_settled h
      have hlong : 2 ≤ n := by
        simp only [blockComment] at h
        split at h
        · rename_i hm
          cases h
          exact Nat.le_of_succ_le (blockLength?_pos hm)
        · cases h
      refine ⟨body, rest, hs.split, hs.length, fun new hf => ?_⟩
      rw [hread ((hs.second hlong new).trans hblock.2)]
      exact hs.kept new hf
    · obtain ⟨body, rest, hs⟩ := operator_settled h hline hblock
      exact ⟨body, rest, hs.mono fun d hd => hd.1⟩

/-- A token is settled by its characters and at most one after them. -/
theorem atFront_settled (h : atFront c cs = token value n) :
    ∃ body rest, Settled (atFront c) (Ends c cs) cs value n body rest := by
  unfold atFront at h ⊢
  split at h
  · obtain ⟨body, rest, hs⟩ := word_settled h
    exact ⟨body, rest, hs.mono fun d hd => hd.1⟩
  · rename_i hc
    obtain ⟨body, rest, hs⟩ := number_settled (isDigit_of_class hc) h
    exact ⟨body, rest, hs.mono fun d hd => hd.1⟩
  · exact quoted_settled h
  · exact punctuation_settled h
  · cases h
  · cases h

/-- What follows a token may be replaced. -/
theorem atFront_kept {body old new : List Char}
    (h : atFront c (body ++ old) = token value (body.length + 1))
    (hf : Follows (Ends c (body ++ old)) old new) :
    atFront c (body ++ new) = token value (body.length + 1) := by
  obtain ⟨body', rest, hsplit, hlen, hkept⟩ := atFront_settled h
  obtain ⟨rfl, rfl⟩ := List.append_inj hsplit (by omega)
  exact hkept new hf

theorem kind_of_slashes (h : atFront c cs = token value n) (hc : c = '/')
    (hcs : cs.head? = some '/') : value.kind = .comment := by
  subst hc
  have hclass : CharClass.of '/' = .punctuation := by decide +kernel
  simp only [atFront, hclass, punctuation, hcs, and_self, if_true, lineComment, Comment.lineValue,
    token.injEq] at h
  rw [← h.1]
  rfl

/-! ## Faults -/

theorem number_fault_append {fault : Fault} {extra : List Char} (hc : c.isDigit = true)
    (h : number (c :: cs) = .fault fault n) (hextra : ∀ d, extra.head? = some d → Blank d) :
    number (c :: (cs ++ extra)) = .fault fault n := by
  obtain ⟨shape, body, rest, -, rfl, hread⟩ := number_read hc cs
  rw [hread rest fun d hd => .inl hd] at h
  rw [List.append_assoc, hread _ (.append_right rest fun _ => hextra)]
  unfold ofShape at h ⊢
  split at h
  · exact h
  · split at h <;> cases h

/-- A fault that is not in the end of a text stays when the text goes on with a blank. -/
theorem atFront_fault_append {fault : Fault} {extra : List Char}
    (h : atFront c cs = .fault fault n) (hfault : fault.isInside = true)
    (hextra : ∀ d, extra.head? = some d → Blank d) :
    atFront c (cs ++ extra) = .fault fault n := by
  unfold atFront at h ⊢
  split at h
  · cases h
  · rename_i hc
    exact number_fault_append (isDigit_of_class hc) h hextra
  · simp only [quoted] at h
    split at h <;> cases h
    cases hfault
  · rw [punctuation] at h
    split at h
    · cases h
    · split at h
      · simp only [blockComment] at h
        split at h <;> cases h
        cases hfault
      · -- No operator begins with this character, so it is no slash.
        split at h
        · cases h
        · rename_i hnone
          have hchar : Punct.ofChar? c = none := by
            simpa [Punct.atFront?] using hnone
          have hslash : c ≠ '/' := by
            rintro rfl
            cases hchar
          rw [punctuation, if_neg (fun hs => hslash hs.1), if_neg (fun hs => hslash hs.1)]
          simpa [Punct.atFront?, hchar] using h
  · exact h
  · exact h

end

end Lexeme

end GoTokens

import GoTokens.Proofs.Scanner.Reading

/-!
Comments are blanks. Where each character of a comment but the line ends is a space, the text
has the same tokens at the same places, apart from the comments (`Reading.blankComments`):
a comment neither joins its neighbours nor divides them.
-/

namespace GoTokens

open Lookahead Text

/-- Whether an offset lies in one of the comments among some tokens. -/
def InComment (tokens : List Token) (i : Nat) : Prop :=
  ∃ t ∈ tokens, t.kind = .comment ∧ t.start.offset ≤ i ∧ i < t.stop.offset

instance (tokens : List Token) (i : Nat) : Decidable (InComment tokens i) :=
  inferInstanceAs (Decidable (∃ t ∈ tokens, _ ∧ _ ∧ _))

/-- A space in the place of a character, unless that is a line end. -/
def spaced (c : Char) : Char := if c = '\n' then c else ' '

/-- A text that begins at an offset, with its comments spaced. -/
def blankComments (tokens : List Token) (origin : Nat) (cs : List Char) : List Char :=
  (cs.zipIdx origin).map fun ci => if InComment tokens ci.2 then spaced ci.1 else ci.1

theorem isBlank_spaced (c : Char) : isBlank (spaced c) = true := by
  unfold spaced
  split
  · rename_i hc
    subst hc
    decide
  · decide

theorem gap_map_spaced (cs : List Char) : Gap (cs.map spaced) := by
  intro d hd
  obtain ⟨c, -, rfl⟩ := List.mem_map.mp hd
  exact isBlank_spaced c

/-- Line ends stay, and so do all places. -/
theorem Position.afterAll_map_spaced (p : Position) (cs : List Char) :
    p.afterAll (cs.map spaced) = p.afterAll cs := by
  have hafter (p : Position) (c : Char) : p.after (spaced c) = p.after c := by
    by_cases hc : c = '\n'
    · rw [spaced, if_pos hc]
    · rw [spaced, if_neg hc]
      simp [after, hc]
  induction cs generalizing p with
  | nil => rfl
  | cons c cs ih => rw [List.map_cons, afterAll_cons, afterAll_cons, ih, hafter]

section

variable {tokens : List Token} {origin : Nat} {cs : List Char}

theorem inComment_cons {t : Token} {i : Nat} : InComment (t :: tokens) i ↔
    (t.kind = .comment ∧ t.start.offset ≤ i ∧ i < t.stop.offset) ∨ InComment tokens i := by
  simp [InComment]

theorem not_inComment {n i : Nat} (h : ∀ t ∈ tokens, n ≤ t.start.offset) (hi : i < n) :
    ¬ InComment tokens i := by
  rintro ⟨t, ht, -, hstart, -⟩
  exact absurd (h t ht) (by omega)

theorem blankComments_append (as bs : List Char) :
    blankComments tokens origin (as ++ bs) =
      blankComments tokens origin as ++ blankComments tokens (origin + as.length) bs := by
  rw [blankComments, List.zipIdx_append, List.map_append]
  rfl

theorem blankComments_congr {tokens' : List Token}
    (h : ∀ i, origin ≤ i → i < origin + cs.length → (InComment tokens i ↔ InComment tokens' i)) :
    blankComments tokens origin cs = blankComments tokens' origin cs := by
  refine List.map_congr_left fun ⟨c, i⟩ hmem => ?_
  obtain ⟨hle, hlt, -⟩ := List.mem_zipIdx hmem
  simp only [h i hle hlt]

theorem blankComments_nil : blankComments [] origin cs = cs := by
  have hnone (i : Nat) : ¬ InComment [] i := fun ⟨t, ht, _⟩ => List.not_mem_nil ht
  simp only [blankComments, hnone, if_false]
  exact List.zipIdx_map_fst origin cs

theorem blankComments_of_outside
    (h : ∀ i, origin ≤ i → i < origin + cs.length → ¬ InComment tokens i) :
    blankComments tokens origin cs = cs := by
  have hcongr : blankComments tokens origin cs = blankComments [] origin cs :=
    blankComments_congr fun i hle hlt =>
      iff_of_false (h i hle hlt) fun ⟨t, ht, _⟩ => List.not_mem_nil ht
  exact hcongr.trans blankComments_nil

theorem blankComments_of_inside
    (h : ∀ i, origin ≤ i → i < origin + cs.length → InComment tokens i) :
    blankComments tokens origin cs = cs.map spaced := by
  have hmap : blankComments tokens origin cs = ((cs.zipIdx origin).map Prod.fst).map spaced := by
    rw [List.map_map]
    refine List.map_congr_left fun ⟨c, i⟩ hmem => ?_
    obtain ⟨hle, hlt, -⟩ := List.mem_zipIdx hmem
    exact if_pos (h i hle hlt)
  rw [hmap, List.zipIdx_map_fst]

/-- Only the lexeme of a token is in question before what comes after the token. -/
theorem blankComments_cons {t : Token} {gap lexeme rest : List Char}
    (hstart : t.start.offset = origin + gap.length)
    (hstop : t.stop.offset = t.start.offset + lexeme.length)
    (hlater : ∀ u ∈ tokens, t.stop.offset ≤ u.start.offset) :
    blankComments (t :: tokens) origin (gap ++ (lexeme ++ rest)) =
      gap ++ ((if t.kind = .comment then lexeme.map spaced else lexeme) ++
        blankComments tokens t.stop.offset rest) := by
  have hgap : blankComments (t :: tokens) origin gap = gap := by
    refine blankComments_of_outside fun i _ hi => ?_
    rw [inComment_cons, not_or]
    exact ⟨by omega, not_inComment hlater (by omega)⟩
  have hlexeme : blankComments (t :: tokens) t.start.offset lexeme =
      if t.kind = .comment then lexeme.map spaced else lexeme := by
    split
    · rename_i hcomment
      refine blankComments_of_inside fun i hle hlt => inComment_cons.mpr (.inl ?_)
      exact ⟨hcomment, hle, by omega⟩
    · rename_i hcomment
      refine blankComments_of_outside fun i _ hi => ?_
      rw [inComment_cons, not_or]
      exact ⟨fun hin => hcomment hin.1, not_inComment hlater (by omega)⟩
  have hrest : blankComments (t :: tokens) t.stop.offset rest =
      blankComments tokens t.stop.offset rest := by
    refine blankComments_congr fun i hi _ => ?_
    rw [inComment_cons, or_iff_right (by omega)]
  rw [blankComments_append, blankComments_append, hgap, ← hstart, hlexeme, ← hstop, hrest]

/-- The first character is the same or blank. -/
theorem follows_blankComments {p : Char → Prop} (hp : ∀ d, isBlank d = true → p d) :
    Follows p cs (blankComments tokens origin cs) := by
  intro d hd
  cases cs with
  | nil => cases hd
  | cons c cs =>
    rw [blankComments, List.zipIdx_cons, List.map_cons, List.head?_cons] at hd
    cases hd
    by_cases hin : InComment tokens origin
    · rw [if_pos hin]
      exact .inr (hp _ (isBlank_spaced c))
    · rw [if_neg hin]
      exact .inl rfl

end

/-- With its comments spaced, a text is read to its other tokens. -/
theorem Reading.blankComments {p : Position} {text : List Char} {tokens : List Token}
    {error : Option ScanError} (h : Reading p text tokens error) :
    Reading p (blankComments tokens p.offset text) (tokens.filter (·.kind != .comment)) error := by
  induction h with
  | blank hgap => rw [blankComments_nil]; exact .blank hgap
  | fault hgap hc hlex => rw [blankComments_nil]; exact .fault hgap hc hlex
  | @token p gap body rest c value tokens error hgap hc hlex hrest ih =>
    let t : Token := ⟨value, p.afterAll gap, p.afterAll (gap ++ c :: body)⟩
    have hstop : t.stop.offset = t.start.offset + (c :: body).length := by
      simp only [t, Position.afterAll_offset, List.length_append, Nat.add_assoc]
    have htext : GoTokens.blankComments (t :: tokens) p.offset (gap ++ (c :: body ++ rest)) = _ :=
      blankComments_cons (Position.afterAll_offset p gap) hstop fun u hu => (hrest.offset_le hu).1
    rw [← List.cons_append, htext]
    by_cases hcomment : t.kind = .comment
    · have hplace : p.afterAll (gap ++ (c :: body).map spaced) = p.afterAll (gap ++ c :: body) := by
        rw [Position.afterAll_append, Position.afterAll_map_spaced, ← Position.afterAll_append]
      rw [if_pos hcomment, List.filter_cons_of_neg (by simpa using hcomment), ← List.append_assoc]
      rw [← hplace] at ih
      have hread := ih.behind_gap (hgap.append (gap_map_spaced (c :: body)))
      rwa [hplace] at hread
    · -- A token that begins with two slashes would be a comment.
      have hfollows : Follows (Lexeme.Ends c (body ++ rest)) rest
          (GoTokens.blankComments tokens t.stop.offset rest) :=
        follows_blankComments fun d hd =>
          ⟨hd, fun hslash hhead => absurd (Lexeme.kind_of_slashes hlex hslash hhead) hcomment⟩
      rw [if_neg hcomment, List.filter_cons_of_pos (by simpa using hcomment)]
      exact .token hgap hc (Lexeme.atFront_kept hlex hfollows) ih

end GoTokens

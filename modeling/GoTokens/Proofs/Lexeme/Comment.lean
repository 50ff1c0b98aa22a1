import GoTokens.Lexeme.Comment
import Mathlib.Data.List.DropRight
import Mathlib.Data.List.Infix
import Mathlib.Order.Bounds.Basic

/-!
Comments. A block comment is a body and the star and slash that close it, with no such pair before
them; the star that opens the comment belongs to the body, or is the one that closes it. Reading
finds this body (`blockLength?_eq_some_iff`), which ends at the first closing pair
(`isLeast_closes`). To spell line ends out changes neither that (`onOneLine_unclosed`) nor the
ends of the text, so there is nothing to trim off it (`trim_onOneLine_block`).
-/

namespace GoTokens

open Text

namespace Text

def trim (cs : List Char) : List Char := trimEnd (cs.dropWhile isBlank)

theorem trim_cons {c : Char} (h : isBlank c = false) (cs : List Char) :
    trim (c :: cs) = trimEnd (c :: cs) := by
  rw [trim, List.dropWhile_cons_of_neg (by simp [h])]

theorem trimEnd_cons {c : Char} (h : isBlank c = false) (cs : List Char) :
    trimEnd (c :: cs) = c :: trimEnd cs := by
  rw [trimEnd, List.reverse_cons, List.dropWhile_append]
  cases hrest : cs.reverse.dropWhile isBlank <;> simp [trimEnd, hrest, h]

theorem trimEnd_trimEnd (cs : List Char) : trimEnd (trimEnd cs) = trimEnd cs :=
  List.rdropWhile_idempotent isBlank cs

/-- Each occurrence of a character in another spelling. -/
def respelled (c : Char) (spelling : List Char) (cs : List Char) : List Char :=
  cs.flatMap fun d => if d = c then spelling else [d]

end Text

namespace Comment

/-! ## What closes a block comment -/

/-- A star and a slash side by side. -/
def Closed (cs : List Char) : Prop := ['*', '/'] <:+: cs

theorem not_closed_nil : ¬ Closed [] := by simp [Closed]

theorem closed_cons {c : Char} {cs : List Char} :
    Closed (c :: cs) ↔ (c = '*' ∧ cs.head? = some '/') ∨ Closed cs := by
  have hfront : ['*', '/'] <+: c :: cs ↔ c = '*' ∧ cs.head? = some '/' := by
    cases cs <;> simp [eq_comm]
  rw [Closed, List.infix_cons_iff, hfront]
  rfl

/-- A body that a star and a slash close: there is no such pair in it, also not with the star
behind it. -/
def Unclosed (body : List Char) : Prop := ¬ Closed (body ++ ['*'])

theorem unclosed_nil : Unclosed [] := by simp [Unclosed, closed_cons, not_closed_nil]

theorem unclosed_cons {c : Char} {body : List Char} (rest : List Char) :
    Unclosed (c :: body) ↔
      ¬ (c = '*' ∧ (body ++ '*' :: '/' :: rest).head? = some '/') ∧ Unclosed body := by
  have hhead : (body ++ '*' :: '/' :: rest).head? = (body ++ ['*']).head? := by
    cases body <;> rfl
  rw [Unclosed, List.cons_append, closed_cons, not_or, hhead]
  rfl

theorem blockLength?_cons (seen : Nat) (c : Char) (cs : List Char) :
    blockLength? seen (c :: cs) =
      if c = '*' ∧ cs.head? = some '/' then some (seen + 2) else blockLength? (seen + 1) cs := by
  cases cs <;> simp [blockLength?]

theorem blockLength?_eq_none_iff {seen : Nat} {cs : List Char} :
    blockLength? seen cs = none ↔ ¬ Closed cs := by
  induction cs generalizing seen with
  | nil => simp [blockLength?, not_closed_nil]
  | cons c cs ih =>
    rw [blockLength?_cons, closed_cons]
    split
    · rename_i hclose
      simp [hclose]
    · rename_i hopen
      rw [ih, not_or, and_iff_right hopen]

theorem blockLength?_append {body : List Char} (h : Unclosed body) (seen : Nat)
    (rest : List Char) :
    blockLength? seen (body ++ '*' :: '/' :: rest) = some (seen + body.length + 2) := by
  induction body generalizing seen with
  | nil => simp [blockLength?_cons]
  | cons c body ih =>
    obtain ⟨hopen, hbody⟩ := (unclosed_cons rest).mp h
    rw [List.cons_append, blockLength?_cons, if_neg hopen, ih hbody, List.length_cons,
      Nat.add_right_comm seen 1, Nat.add_assoc seen]

/-- The length is found where the first body ends that a star and a slash close. -/
theorem blockLength?_eq_some_iff {seen n : Nat} {cs : List Char} :
    blockLength? seen cs = some n ↔ ∃ body rest, cs = body ++ '*' :: '/' :: rest ∧
      Unclosed body ∧ n = seen + body.length + 2 := by
  constructor
  · intro h
    induction cs generalizing seen with
    | nil => cases h
    | cons c cs ih =>
      rw [blockLength?_cons] at h
      split at h
      · rename_i hclose
        obtain ⟨rest, rfl⟩ := List.head?_eq_some_iff.mp hclose.2
        exact ⟨[], rest, by rw [hclose.1]; rfl, unclosed_nil, (Option.some.inj h).symm⟩
      · rename_i hopen
        obtain ⟨body, rest, rfl, hbody, rfl⟩ := ih h
        exact ⟨c :: body, rest, rfl, (unclosed_cons rest).mpr ⟨hopen, hbody⟩,
          by rw [List.length_cons]; omega⟩
  · rintro ⟨body, rest, rfl, hbody, rfl⟩
    exact blockLength?_append hbody seen rest

theorem take_block (c : Char) (body rest : List Char) :
    (c :: (body ++ '*' :: '/' :: rest)).take (body.length + 3) = c :: (body ++ ['*', '/']) := by
  have hsplit : c :: (body ++ '*' :: '/' :: rest) = c :: (body ++ ['*', '/']) ++ rest := by simp
  rw [hsplit, List.take_left' (by simp)]

/-- The star at the index `j` of a text and the slash behind it close the block comment at its
front. -/
def Closes (text : List Char) (j : Nat) : Prop :=
  1 ≤ j ∧ text[j]? = some '*' ∧ text[j + 1]? = some '/'

instance (text : List Char) (j : Nat) : Decidable (Closes text j) :=
  inferInstanceAs (Decidable (_ ∧ _ ∧ _))

theorem closes_iff {c : Char} {cs : List Char} {j : Nat} :
    Closes (c :: cs) j ↔
      ∃ body rest, cs = body ++ '*' :: '/' :: rest ∧ j = body.length + 1 := by
  constructor
  · rintro ⟨hpos, hstar, hslash⟩
    obtain ⟨i, rfl⟩ := Nat.exists_eq_add_of_le' hpos
    rw [List.getElem?_cons_succ, ← List.head?_drop] at hstar hslash
    obtain ⟨behind, hbehind⟩ := List.head?_eq_some_iff.mp hstar
    obtain ⟨rest, hrest⟩ := List.head?_eq_some_iff.mp hslash
    have htail : behind = cs.drop (i + 1) := by
      rw [← List.tail_drop, hbehind, List.tail_cons]
    have hle : i ≤ cs.length := by
      by_contra hgt
      rw [List.drop_of_length_le (by omega)] at hbehind
      cases hbehind
    refine ⟨cs.take i, rest, ?_, by rw [List.length_take, Nat.min_eq_left hle]⟩
    rw [← hrest, ← htail, ← hbehind, List.take_append_drop]
  · rintro ⟨body, rest, rfl, rfl⟩
    exact ⟨Nat.le_add_left 1 _, by simp, by simp⟩

/-- **The end of a block comment.** A body that a star and a slash close ends at the first pair
that closes the comment. -/
theorem isLeast_closes (c : Char) {body : List Char} (h : Unclosed body) (rest : List Char) :
    IsLeast {j | Closes (c :: (body ++ '*' :: '/' :: rest)) j} (body.length + 1) := by
  refine ⟨closes_iff.mpr ⟨body, rest, rfl, rfl⟩, fun j hj => ?_⟩
  obtain ⟨body', rest', hsplit, rfl⟩ := closes_iff.mp hj
  by_contra hlt
  -- An earlier pair would lie in the body and the star behind it.
  have hearlier : body' ++ ['*', '/'] <+: body ++ '*' :: '/' :: rest :=
    ⟨rest', by rw [hsplit, List.append_assoc]; rfl⟩
  have hstar : body ++ ['*'] <+: body ++ '*' :: '/' :: rest := ⟨'/' :: rest, by simp⟩
  have hwithin := List.prefix_of_prefix_length_le hearlier hstar
    (by simp only [List.length_append, List.length_cons, List.length_nil]; omega)
  exact h ((List.suffix_append body' ['*', '/']).isInfix.trans hwithin.isInfix)

theorem exists_body {cs : List Char} (h : Closed cs) :
    ∃ body rest, cs = body ++ '*' :: '/' :: rest ∧ Unclosed body := by
  cases hlength : blockLength? 0 cs with
  | none => exact absurd h (blockLength?_eq_none_iff.mp hlength)
  | some n =>
    obtain ⟨body, rest, hsplit, hbody, -⟩ := blockLength?_eq_some_iff.mp hlength
    exact ⟨body, rest, hsplit, hbody⟩

theorem closed_of_closes {c : Char} {cs : List Char} {j : Nat} (h : Closes (c :: cs) j) :
    Closed cs := by
  obtain ⟨body, rest, rfl, -⟩ := closes_iff.mp h
  exact ⟨body, rest, by simp⟩

theorem exists_body_of_isLeast {c : Char} {cs : List Char} {j : Nat}
    (h : IsLeast {j | Closes (c :: cs) j} j) :
    ∃ body rest, cs = body ++ '*' :: '/' :: rest ∧ Unclosed body ∧ j = body.length + 1 := by
  obtain ⟨body, rest, rfl, hbody⟩ := exists_body (closed_of_closes h.1)
  exact ⟨body, rest, rfl, hbody, h.unique (isLeast_closes c hbody rest)⟩

theorem not_closed_of_not_closes {c : Char} {cs : List Char} (h : ∀ j, ¬ Closes (c :: cs) j) :
    ¬ Closed cs := by
  intro hclosed
  obtain ⟨body, rest, rfl, hbody⟩ := exists_body hclosed
  exact h _ (isLeast_closes c hbody rest).1

/-! ## The text of a comment -/

/-- What a line end or a carriage return is spelled with, and any other character. -/
def spelled (c : Char) : List Char :=
  if c = '\n' then ['\\', 'n'] else if c = '\r' then ['\\', 'r'] else [c]

theorem onOneLine_cons (c : Char) (cs : List Char) :
    onOneLine (c :: cs) = spelled c ++ onOneLine cs := List.flatMap_cons

theorem onOneLine_append (as bs : List Char) :
    onOneLine (as ++ bs) = onOneLine as ++ onOneLine bs := List.flatMap_append

theorem spelled_cases (c : Char) :
    (c = '\n' ∧ spelled c = ['\\', 'n']) ∨ (c = '\r' ∧ spelled c = ['\\', 'r']) ∨
      spelled c = [c] := by
  unfold spelled
  split
  · exact .inl ⟨‹_›, rfl⟩
  · split
    · exact .inr (.inl ⟨‹_›, rfl⟩)
    · exact .inr (.inr rfl)

/-- A text that is on one line stays as it is. -/
theorem onOneLine_onOneLine (cs : List Char) : onOneLine (onOneLine cs) = onOneLine cs := by
  induction cs with
  | nil => rfl
  | cons c cs ih =>
    have hspelled : onOneLine (spelled c) = spelled c := by
      unfold spelled
      split
      · rfl
      · rename_i hline
        split
        · rfl
        · rename_i hreturn
          simp [onOneLine, hline, hreturn]
    rw [onOneLine_cons, onOneLine_append, hspelled, ih]

/-- Both characters are spelled out at once, which is the same as one after the other. -/
theorem onOneLine_eq_respelled (cs : List Char) :
    onOneLine cs = respelled '\r' ['\\', 'r'] (respelled '\n' ['\\', 'n'] cs) := by
  induction cs with
  | nil => rfl
  | cons c cs ih =>
    rw [onOneLine_cons, ih]
    by_cases hline : c = '\n'
    · simp [spelled, respelled, hline]
    · simp [spelled, respelled, hline]

/-- To spell line ends out puts no star and slash together. -/
theorem closed_of_onOneLine {cs : List Char} (h : Closed (onOneLine cs)) : Closed cs := by
  induction cs with
  | nil => exact absurd h not_closed_nil
  | cons c cs ih =>
    rw [onOneLine_cons] at h
    obtain ⟨-, hc⟩ | ⟨-, hc⟩ | hc := spelled_cases c <;> rw [hc] at h
    · exact closed_cons.mpr (.inr (ih (by simpa [closed_cons] using h)))
    · exact closed_cons.mpr (.inr (ih (by simpa [closed_cons] using h)))
    · refine closed_cons.mpr ((closed_cons.mp h).imp ?_ ih)
      rintro ⟨hstar, hslash⟩
      cases cs with
      | nil => cases hslash
      | cons d cs =>
        rw [onOneLine_cons] at hslash
        obtain ⟨-, hd⟩ | ⟨-, hd⟩ | hd := spelled_cases d <;> rw [hd] at hslash
        · simp at hslash
        · simp at hslash
        · exact ⟨hstar, hslash⟩

theorem onOneLine_unclosed {body : List Char} (h : Unclosed body) : Unclosed (onOneLine body) := by
  intro hclosed
  have hstar : onOneLine ['*'] = ['*'] := rfl
  rw [← hstar, ← onOneLine_append] at hclosed
  exact h (closed_of_onOneLine hclosed)

def block (body : List Char) : List Char := '/' :: (body ++ ['*', '/'])

theorem onOneLine_block (body : List Char) : onOneLine (block body) = block (onOneLine body) := by
  rw [block, onOneLine_cons, onOneLine_append]
  rfl

theorem trim_onOneLine_block (body : List Char) :
    trim (onOneLine (block body)) = onOneLine (block body) := by
  have hsplit : block (onOneLine body) = ('/' :: (onOneLine body ++ ['*'])) ++ ['/'] := by
    simp [block]
  rw [onOneLine_block]
  refine (trim_cons (by decide) _).trans ?_
  change trimEnd (block (onOneLine body)) = _
  rw [hsplit, trimEnd_append_singleton _ (by decide)]

end Comment

end GoTokens

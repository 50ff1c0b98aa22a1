import Mathlib.Data.List.TakeWhile

/-!
Readers that take a text off the front of another and look no further than one
character past it. What they read stays the same when something else follows, if
that begins as what followed before, or with a character that always ends such a
text, or if nothing follows at all.
-/

namespace GoTokens.Lookahead

/-- What may follow in the place of `old`: a text that begins with the same character or with
one that is allowed anywhere, or no text. -/
def Follows (allowed : Char → Prop) (old new : List Char) : Prop :=
  ∀ d, new.head? = some d → old.head? = some d ∨ allowed d

theorem Follows.mono {p q : Char → Prop} {old new : List Char} (h : Follows p old new)
    (hpq : ∀ d, p d → q d) : Follows q old new :=
  fun d hd => (h d hd).imp_right (hpq d)

theorem Follows.append {p : Char → Prop} {old new : List Char} (h : Follows p old new)
    (body : List Char) : Follows p (body ++ old) (body ++ new) := by
  cases body with
  | nil => exact h
  | cons c body => exact fun d hd => .inl hd

/-- The front of what followed before may follow. -/
theorem Follows.take {p : Char → Prop} (old : List Char) (n : Nat) :
    Follows p old (old.take n) := by
  intro d hd
  cases n with
  | zero => simp at hd
  | succ n => cases old <;> simp_all

/-- A text may go on, with what is allowed if there was nothing left of it. -/
theorem Follows.append_right {p : Char → Prop} (old : List Char) {extra : List Char}
    (h : old = [] → ∀ d, extra.head? = some d → p d) : Follows p old (old ++ extra) := by
  cases old with
  | nil => exact fun d hd => .inr (h rfl d hd)
  | cons c old => exact fun d hd => .inl hd

/-- Nothing changes for what looks at one character, if that stays the same. -/
theorem Follows.of_take {p : Char → Prop} {old new : List Char} {n : Nat}
    (h : new.take (n + 1) = old.take (n + 1)) : Follows p old new := by
  intro d hd
  have hhead := congrArg List.head? h
  rw [List.head?_take, List.head?_take, if_neg (Nat.succ_ne_zero n),
    if_neg (Nat.succ_ne_zero n)] at hhead
  exact .inl (hhead ▸ hd)

/-- What holds of the character that followed before, if there was one, and of all that are
allowed, holds of the character that follows. -/
theorem Follows.head {p q : Char → Prop} {old new : List Char} (h : Follows p old new)
    (hp : ∀ d, p d → q d) (hold : ∀ d, old.head? = some d → q d) :
    ∀ d, new.head? = some d → q d :=
  fun d hd => (h d hd).elim (hold d) (hp d)

/-- A reader takes the text of what it reads off the front, and reads the same whatever else
may follow. -/
structure Reads {α : Type} (allowed : Char → Prop) (read : List Char → α)
    (text : α → List Char) : Prop where
  taken : ∀ cs, ∃ rest, cs = text (read cs) ++ rest
  kept : ∀ {a old new}, read (text a ++ old) = a → Follows allowed old new →
    read (text a ++ new) = a

theorem Reads.settled {α : Type} {allowed : Char → Prop} {read : List Char → α}
    {text : α → List Char} (h : Reads allowed read text) (cs : List Char) :
    ∃ rest, cs = text (read cs) ++ rest ∧
      ∀ new, Follows allowed rest new → read (text (read cs) ++ new) = read cs := by
  obtain ⟨rest, hrest⟩ := h.taken cs
  exact ⟨rest, hrest, fun new hf => h.kept (congrArg read hrest).symm hf⟩

theorem takeWhile_append_eq {p : Char → Bool} {body rest : List Char} :
    (body ++ rest).takeWhile p = body ↔
      (∀ c ∈ body, p c = true) ∧ ∀ d, rest.head? = some d → p d = false := by
  constructor
  · intro h
    have hbody : ∀ c ∈ body, p c = true := fun c hc => List.mem_takeWhile_imp (h ▸ hc)
    have hstop : rest.takeWhile p = [] := by
      simpa [List.takeWhile_append_of_pos hbody] using h
    refine ⟨hbody, fun d hd => ?_⟩
    cases rest with
    | nil => cases hd
    | cons e rest =>
      cases hd
      cases hp : p d with
      | false => rfl
      | true => simp [hp] at hstop
  · rintro ⟨hbody, hrest⟩
    rw [List.takeWhile_append_of_pos hbody]
    cases rest with
    | nil => simp
    | cons e rest => simp [hrest e rfl]

theorem drop_length_takeWhile (p : Char → Bool) (cs : List Char) :
    cs.drop (cs.takeWhile p).length = cs.dropWhile p := by
  have h := congrArg (List.drop (cs.takeWhile p).length)
    (List.takeWhile_append_dropWhile (p := p) (l := cs)).symm
  rwa [List.drop_left] at h

theorem dropWhile_append_eq {p : Char → Bool} {body rest : List Char}
    (h : (body ++ rest).takeWhile p = body) : (body ++ rest).dropWhile p = rest := by
  rw [← drop_length_takeWhile, h, List.drop_left]

theorem reads_takeWhile {allowed : Char → Prop} {p : Char → Bool}
    (hp : ∀ d, allowed d → p d = false) : Reads allowed (List.takeWhile p) id where
  taken cs := ⟨cs.dropWhile p, List.takeWhile_append_dropWhile.symm⟩
  kept := by
    intro body old new h hf
    obtain ⟨hbody, hold⟩ := takeWhile_append_eq.mp h
    exact takeWhile_append_eq.mpr ⟨hbody, hf.head hp hold⟩

/-- One reader, and then another on what the first has left. -/
def andThen {α β : Type} (first : List Char → α) (text : α → List Char)
    (second : List Char → β) (cs : List Char) : α × β :=
  (first cs, second (cs.drop (text (first cs)).length))

theorem Reads.andThen {α β : Type} {allowed : Char → Prop} {first : List Char → α}
    {second : List Char → β} {text₁ : α → List Char} {text₂ : β → List Char}
    (h₁ : Reads allowed first text₁) (h₂ : Reads allowed second text₂) :
    Reads allowed (andThen first text₁ second) fun r => text₁ r.1 ++ text₂ r.2 where
  taken cs := by
    obtain ⟨rest, hrest⟩ := h₁.taken cs
    obtain ⟨last, hlast⟩ := h₂.taken rest
    refine ⟨last, ?_⟩
    have hdrop : cs.drop (text₁ (first cs)).length = rest :=
      (congrArg (List.drop _) hrest).trans List.drop_left
    simp only [Lookahead.andThen, hdrop, List.append_assoc]
    rw [← hlast]
    exact hrest
  kept := by
    rintro ⟨a, b⟩ old new h hf
    simp only [Lookahead.andThen, List.append_assoc, Prod.mk.injEq] at h ⊢
    obtain ⟨ha, hb⟩ := h
    rw [ha, List.drop_left] at hb
    have ha' := h₁.kept ha (hf.append (text₂ b))
    rw [ha', List.drop_left]
    exact ⟨rfl, h₂.kept hb hf⟩

end GoTokens.Lookahead

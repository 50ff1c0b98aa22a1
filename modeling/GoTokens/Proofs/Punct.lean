import GoTokens.Proofs.Lexeme.Settled
import Mathlib.Data.List.Infix

/-!
The operator at the front of a text is the one with the longest spelling among all that the text
begins with (`atFront?_eq_some_iff`). The walk that finds it never stops short of a longer one,
because an operator whose spelling goes on from that of another is always reached by extending
(`exists_extend?`). Tables that list what goes on from each first character find it as well
(`byTables?_eq`).
-/

namespace GoTokens.Punct

theorem mem_all (p : Punct) : p ∈ all := by cases p <;> decide

theorem atFront?_spelling (p : Punct) : atFront? p.spelling = some p := by cases p <;> rfl

theorem spelling_injective : Function.Injective spelling := by
  intro p q h
  have hread := congrArg atFront? h
  rw [atFront?_spelling, atFront?_spelling] at hread
  exact Option.some.inj hread

/-- Among the operators that a text begins with, this is the longest. -/
structure IsLongest (text : List Char) (p : Punct) : Prop where
  atFront : p.spelling <+: text
  longest : ∀ q : Punct, q.spelling <+: text → q.spelling.length ≤ p.spelling.length

theorem IsLongest.unique {text : List Char} {p q : Punct} (hp : IsLongest text p)
    (hq : IsLongest text q) : p = q := by
  have hlength : p.spelling.length = q.spelling.length :=
    Nat.le_antisymm (hq.longest p hp.atFront) (hp.longest q hq.atFront)
  have hbegins := List.prefix_of_prefix_length_le hp.atFront hq.atFront hlength.le
  exact spelling_injective (hbegins.eq_of_length hlength)

/-- Where a spelling goes on from that of another operator, that operator can be extended. -/
theorem exists_extend? {p q : Punct} {c : Char} (h : p.spelling ++ [c] <+: q.spelling) :
    ∃ p', p.extend? c = some p' := by
  have hall : (all.all fun p => all.all fun q => q.spelling.all fun c =>
      !(p.spelling ++ [c]).isPrefixOf q.spelling || (p.extend? c).isSome) = true := by
    decide +kernel
  have hc : c ∈ q.spelling := h.subset (List.mem_append_right _ (List.mem_singleton.mpr rfl))
  have hp := List.all_eq_true.mp hall p p.mem_all
  have hq := List.all_eq_true.mp hp q q.mem_all
  have hextend := List.all_eq_true.mp hq c hc
  rw [List.isPrefixOf_iff_prefix.mpr h, Bool.not_true, Bool.false_or] at hextend
  exact Option.isSome_iff_exists.mp hextend

/-- What the walk reaches is spelled by the text that it has gone through. -/
theorem extendThrough_isPrefix (p : Punct) (cs : List Char) :
    p.spelling <+: (p.extendThrough cs).spelling ∧
      (p.extendThrough cs).spelling <+: p.spelling ++ cs := by
  obtain ⟨body, rest, rfl, hspelling, -⟩ := p.extendThrough_split cs
  rw [hspelling]
  exact ⟨List.prefix_append _ _, List.prefix_append_right_inj _ |>.mpr (List.prefix_append _ _)⟩

/-- The walk goes as far as any operator that goes on from where it began. -/
theorem length_le_extendThrough {p q : Punct} {cs : List Char} (hp : p.spelling <+: q.spelling)
    (hq : q.spelling <+: p.spelling ++ cs) :
    q.spelling.length ≤ (p.extendThrough cs).spelling.length := by
  induction cs generalizing p with
  | nil => simpa [extendThrough] using hq.length_le
  | cons c cs ih =>
    obtain ⟨more, hmore⟩ := hp
    cases more with
    | nil =>
      rw [List.append_nil] at hmore
      rw [← hmore]
      exact (extendThrough_isPrefix p (c :: cs)).1.length_le
    | cons d more =>
      rw [← hmore, List.prefix_append_right_inj, List.cons_prefix_cons] at hq
      obtain ⟨rfl, hq⟩ := hq
      have hnext : p.spelling ++ [d] <+: q.spelling := ⟨more, by rw [← hmore]; simp⟩
      obtain ⟨p', hextend⟩ := exists_extend? hnext
      have hspelling := spelling_of_extend? hextend
      simp only [extendThrough, hextend]
      refine ih (hspelling ▸ hnext) ?_
      rw [hspelling, ← hmore, List.append_assoc, List.prefix_append_right_inj,
        List.singleton_append, List.cons_prefix_cons]
      exact ⟨rfl, hq⟩

theorem spelling_ne_nil (p : Punct) : p.spelling ≠ [] := by cases p <;> exact List.cons_ne_nil _ _

/-- An operator begins with a character that is an operator. -/
theorem exists_ofChar? {p : Punct} {c : Char} {cs : List Char} (h : p.spelling <+: c :: cs) :
    ∃ q, ofChar? c = some q ∧ q.spelling <+: p.spelling := by
  have hfirst : (p.spelling.head?.bind ofChar?).any (·.spelling.isPrefixOf p.spelling) = true := by
    cases p <;> rfl
  obtain ⟨d, body, hspelling⟩ := List.exists_cons_of_ne_nil p.spelling_ne_nil
  rw [hspelling, List.cons_prefix_cons] at h
  rw [hspelling, List.head?_cons, Option.bind_some, Option.any_eq_true, ← hspelling, h.1] at hfirst
  obtain ⟨q, hq, hbegins⟩ := hfirst
  exact ⟨q, hq, List.isPrefixOf_iff_prefix.mp hbegins⟩

theorem isLongest_of_atFront? {text : List Char} {p : Punct} (h : atFront? text = some p) :
    IsLongest text p := by
  cases text with
  | nil => cases h
  | cons c cs =>
    obtain ⟨first, hfirst, rfl⟩ := Option.map_eq_some_iff.mp h
    have hsplit : first.spelling ++ cs = c :: cs := by rw [spelling_of_ofChar? hfirst]; rfl
    refine ⟨hsplit ▸ (extendThrough_isPrefix first cs).2, fun q hq => ?_⟩
    obtain ⟨first', hfirst', hbegin⟩ := exists_ofChar? hq
    obtain rfl : first = first' := Option.some.inj (hfirst.symm.trans hfirst')
    exact length_le_extendThrough hbegin (hsplit.symm ▸ hq)

/-- **The longest operator.** Reading finds the longest of the operators that a text begins with,
if it begins with any. -/
theorem atFront?_eq_some_iff {text : List Char} {p : Punct} :
    atFront? text = some p ↔ IsLongest text p := by
  refine ⟨isLongest_of_atFront?, fun h => ?_⟩
  cases hread : atFront? text with
  | some q => rw [(isLongest_of_atFront? hread).unique h]
  | none =>
    cases text with
    | nil => exact absurd (List.prefix_nil.mp h.atFront) p.spelling_ne_nil
    | cons c cs =>
      obtain ⟨first, hfirst, -⟩ := exists_ofChar? h.atFront
      rw [atFront?, hfirst] at hread
      cases hread

theorem exists_isLongest {c : Char} (h : (ofChar? c).isSome = true) (cs : List Char) :
    ∃ p, IsLongest (c :: cs) p := by
  obtain ⟨first, hfirst⟩ := Option.isSome_iff_exists.mp h
  exact ⟨_, isLongest_of_atFront? (by rw [atFront?, hfirst, Option.map_some])⟩

/-! ## Tables -/

/-- The first operator in a table whose character comes next, and else the operator that the table
goes on from. -/
def tried (base : Punct) (table : List (Char × Punct)) : List Char → Punct
  | [] => base
  | c :: _ => ((table.find? (c == ·.1)).map (·.2)).getD base

/-- The operator that begins with a character, by a table for each character that there is more
than one operator for. Shifts have tables of their own. -/
def byTables? (first : Char) (cs : List Char) : Option Punct :=
  match first with
  | '+' => some (tried .add [('+', .inc), ('=', .addAssign)] cs)
  | '-' => some (tried .sub [('-', .dec), ('=', .subAssign)] cs)
  | '*' => some (tried .mul [('=', .mulAssign)] cs)
  | '/' => some (tried .quo [('=', .quoAssign)] cs)
  | '%' => some (tried .rem [('=', .remAssign)] cs)
  | '&' => some (tried .and [('^', .andNot), ('=', .andAssign)] cs)
  | '|' => some (tried .or [('=', .orAssign)] cs)
  | '^' => some (tried .xor [('=', .xorAssign)] cs)
  | '<' =>
    some (if cs.head? = some '<' then tried .shl [('=', .shlAssign)] cs.tail
      else tried .less [('=', .lessEq)] cs)
  | '>' =>
    some (if cs.head? = some '>' then tried .shr [('=', .shrAssign)] cs.tail
      else tried .greater [('=', .greaterEq)] cs)
  | c => ofChar? c

/-- A table has all operators that go on from one with the next character, if that is none that is
tried before. -/
def Covers (base : Punct) (table : List (Char × Punct)) (before : Option Char) : Prop :=
  (∀ c, before ≠ some c → base.extend? c = (table.find? (c == ·.1)).map (·.2)) ∧
    ∀ entry ∈ table, ∀ c, entry.2.extend? c = none

theorem extendThrough_of_final {p : Punct} (h : ∀ c, p.extend? c = none) (cs : List Char) :
    p.extendThrough cs = p := by
  cases cs with
  | nil => rfl
  | cons c cs => rw [extendThrough, h]

/-- A table that covers what goes on from an operator says what the walk reaches. -/
theorem Covers.tried_eq {base : Punct} {table : List (Char × Punct)} {before : Option Char}
    (h : Covers base table before) {cs : List Char} (hcs : ∀ c ∈ cs.head?, before ≠ some c) :
    tried base table cs = base.extendThrough cs := by
  cases cs with
  | nil => rfl
  | cons c cs =>
    rw [tried, extendThrough, h.1 c (hcs c rfl)]
    cases hfound : table.find? (c == ·.1) with
    | none => rfl
    | some entry =>
      simp only [Option.map_some, Option.getD_some]
      rw [extendThrough_of_final (h.2 entry (List.mem_of_find?_eq_some hfound))]

theorem Covers.tried_only {base : Punct} {table : List (Char × Punct)} (h : Covers base table none)
    (cs : List Char) : tried base table cs = base.extendThrough cs :=
  h.tried_eq fun c _ => (Option.some_ne_none c).symm

/-- A character that is tried first, and has a table of its own behind it. -/
theorem Covers.tried_shift {base shift : Punct} {table shifted : List (Char × Punct)} {c : Char}
    (hshift : base.extend? c = some shift) (h : Covers base table (some c))
    (hshifted : Covers shift shifted none) (cs : List Char) :
    (if cs.head? = some c then tried shift shifted cs.tail else tried base table cs) =
      base.extendThrough cs := by
  split
  · rename_i hhead
    obtain ⟨more, rfl⟩ := List.head?_eq_some_iff.mp hhead
    rw [List.tail_cons, extendThrough, hshift]
    exact hshifted.tried_only more
  · rename_i hhead
    refine h.tried_eq fun d hd => ?_
    rintro ⟨⟩
    exact hhead hd

/-- **The tables of operators** are complete: they give the operator at the front of a text. -/
theorem byTables?_eq (c : Char) (cs : List Char) : byTables? c cs = atFront? (c :: cs) := by
  unfold byTables?
  split
  case h_9 | h_10 =>
    refine congrArg some (Covers.tried_shift rfl ⟨fun d _ => ?_, by simp [extend?]⟩
      ⟨fun d _ => ?_, by simp [extend?]⟩ cs)
    all_goals
      unfold extend?
      split <;> simp_all
  case h_11 =>
    rw [atFront?]
    unfold ofChar?
    split <;> first | contradiction | rfl |
      exact congrArg some (extendThrough_of_final (by simp [extend?]) cs).symm
  all_goals
    refine congrArg some (Covers.tried_only ⟨fun d _ => ?_, by simp [extend?]⟩ cs)
    unfold extend?
    split <;> simp_all

end GoTokens.Punct

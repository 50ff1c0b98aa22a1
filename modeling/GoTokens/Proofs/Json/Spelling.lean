import GoTokens.Proofs.Json.Grammar

/-!
Reading the characters of a string, each in any of its spellings (`readChar_eq_some`), up to the
mark that closes the string. Two escaped units are one character if both are surrogates.
-/

namespace GoTokens.Json

def unit? (ds : List Char) : Option Nat :=
  if ds.length = 4 ∧ ds.all (Numeral.isDigitOf 16) = true then some (Numeral.valueOf 16 ds)
  else none

def readUnit (cs : List Char) : Option (Nat × List Char) :=
  (unit? (cs.take 4)).map fun n => (n, cs.drop 4)

def readEscapedUnit (cs : List Char) : Option (Nat × List Char) :=
  if cs.take 2 = ['\\', 'u'] then readUnit (cs.drop 2) else none

/-- The code of the character that two surrogates are together. -/
def pairCode (high low : Nat) : Nat := 0x10000 + ((high - 0xD800) * 0x400 + (low - 0xDC00))

/-- A unit that is a character, or two that are one together. -/
def readUnits (cs : List Char) : Option (Char × List Char) := do
  let (high, cs) ← readUnit cs
  if high.isValidChar then return (Char.ofNat high, cs)
  else
    let (low, cs) ← readEscapedUnit cs
    if 0xD800 ≤ high ∧ high < 0xDC00 ∧ 0xDC00 ≤ low ∧ low < 0xE000 then
      return (Char.ofNat (pairCode high low), cs)
    else none

def readEscape : List Char → Option (Char × List Char)
  | [] => none
  | e :: cs =>
    if e = 'u' then readUnits cs else (shortEscapes.lookup e).map fun c => (c, cs)

def readChar : List Char → Option (Char × List Char)
  | [] => none
  | c :: cs =>
    if c = '\\' then readEscape cs
    else if c = '"' ∨ c.toNat < 0x20 then none
    else some (c, cs)

def readBody : Nat → List Char → Option (List Char × List Char)
  | 0, _ => none
  | fuel + 1, cs =>
    if cs.head? = some '"' then some ([], cs.tail)
    else do
      let (c, cs) ← readChar cs
      let (text, cs) ← readBody fuel cs
      return (c :: text, cs)

theorem unit?_eq_some {ds : List Char} {n : Nat} : unit? ds = some n ↔ IsUnit n ds := by
  unfold unit?
  constructor
  · intro h
    split at h
    · rename_i hds
      exact ⟨hds.1, List.all_eq_true.mp hds.2, Option.some.inj h⟩
    · cases h
  · intro h
    rw [if_pos ⟨h.four, List.all_eq_true.mpr h.digits⟩, h.value]

theorem readUnit_eq_some {cs rest : List Char} {n : Nat} :
    readUnit cs = some (n, rest) ↔ ∃ ds, IsUnit n ds ∧ cs = ds ++ rest := by
  unfold readUnit
  constructor
  · intro h
    obtain ⟨m, hm, heq⟩ := Option.map_eq_some_iff.mp h
    cases heq
    exact ⟨_, unit?_eq_some.mp hm, (List.take_append_drop 4 cs).symm⟩
  · rintro ⟨ds, hds, rfl⟩
    rw [List.take_left' hds.four, List.drop_left' hds.four, unit?_eq_some.mpr hds]
    rfl

theorem readEscapedUnit_eq_some {cs rest : List Char} {n : Nat} :
    readEscapedUnit cs = some (n, rest) ↔
      ∃ ds, IsUnit n ds ∧ cs = '\\' :: 'u' :: (ds ++ rest) := by
  unfold readEscapedUnit
  constructor
  · intro h
    split at h
    · rename_i hmark
      obtain ⟨ds, hds, hrest⟩ := readUnit_eq_some.mp h
      refine ⟨ds, hds, ?_⟩
      rw [← hrest, ← List.take_append_drop 2 cs, hmark]
      rfl
    · cases h
  · rintro ⟨ds, hds, rfl⟩
    exact (if_pos rfl).trans (readUnit_eq_some.mpr ⟨ds, hds, rfl⟩)

theorem toNat_ofNat {n : Nat} (h : n.isValidChar) : (Char.ofNat n).toNat = n := by
  rw [Char.ofNat, dif_pos h]
  rfl

theorem pairCode_spec {high low : Nat} (hhigh : 0xD800 ≤ high ∧ high < 0xDC00)
    (hlow : 0xDC00 ≤ low ∧ low < 0xE000) :
    0x10000 ≤ pairCode high low ∧ pairCode high low < 0x110000 ∧
      0xD800 + (pairCode high low - 0x10000) / 0x400 = high ∧
      0xDC00 + (pairCode high low - 0x10000) % 0x400 = low := by
  unfold pairCode
  omega

theorem pairCode_of_code {n : Nat} (h : 0x10000 ≤ n) :
    pairCode (0xD800 + (n - 0x10000) / 0x400) (0xDC00 + (n - 0x10000) % 0x400) = n := by
  unfold pairCode
  omega

theorem readUnits_of_unit {n : Nat} {ds : List Char} (hds : IsUnit n ds) (hn : n.isValidChar)
    (rest : List Char) : readUnits (ds ++ rest) = some (Char.ofNat n, rest) := by
  rw [readUnits, readUnit_eq_some.mpr ⟨_, hds, rfl⟩]
  exact if_pos hn

theorem readUnits_of_pair {high low : Nat} {ds es : List Char} (hds : IsUnit high ds)
    (hes : IsUnit low es) (hhigh : 0xD800 ≤ high ∧ high < 0xDC00)
    (hlow : 0xDC00 ≤ low ∧ low < 0xE000) (rest : List Char) :
    readUnits (ds ++ '\\' :: 'u' :: (es ++ rest)) =
      some (Char.ofNat (pairCode high low), rest) := by
  have hsurrogate : ¬ high.isValidChar := by
    rintro (hbelow | ⟨habove, -⟩) <;> omega
  rw [readUnits, readUnit_eq_some.mpr ⟨_, hds, rfl⟩]
  refine (if_neg hsurrogate).trans ?_
  rw [readEscapedUnit_eq_some.mpr ⟨_, hes, rfl⟩]
  exact if_pos ⟨hhigh.1, hhigh.2, hlow.1, hlow.2⟩

theorem readUnits_eq_some {cs rest : List Char} {c : Char} :
    readUnits cs = some (c, rest) ↔
      ∃ spelling, IsSpelling c ('\\' :: 'u' :: spelling) ∧ cs = spelling ++ rest := by
  constructor
  · intro h
    unfold readUnits at h
    obtain ⟨⟨high, after⟩, hhigh, hnext⟩ := Option.bind_eq_some_iff.mp h
    obtain ⟨ds, hds, rfl⟩ := readUnit_eq_some.mp hhigh
    dsimp only at hnext
    split at hnext
    · rename_i hvalid
      cases hnext
      refine ⟨ds, .unit ?_, rfl⟩
      rwa [toNat_ofNat hvalid]
    · obtain ⟨⟨low, last⟩, hlow, hpair⟩ := Option.bind_eq_some_iff.mp hnext
      obtain ⟨es, hes, rfl⟩ := readEscapedUnit_eq_some.mp hlow
      dsimp only at hpair
      split at hpair
      · rename_i hbounds
        obtain ⟨hleast, hmost, hfirst, hsecond⟩ :=
          pairCode_spec ⟨hbounds.1, hbounds.2.1⟩ hbounds.2.2
        generalize pairCode high low = code at hpair hleast hmost hfirst hsecond
        have hcode : (Char.ofNat code).toNat = code := toNat_ofNat (.inr ⟨by omega, hmost⟩)
        cases hpair
        refine ⟨ds ++ '\\' :: 'u' :: es, .pair ?_ ?_ ?_, by simp⟩
        · rwa [hcode]
        · rwa [hcode, hfirst]
        · rwa [hcode, hsecond]
      · cases hpair
  · rintro ⟨spelling, hspelling, rfl⟩
    cases hspelling with
    | short he => simp [shortEscapes] at he
    | unit hds =>
      rw [readUnits_of_unit hds c.valid, Char.ofNat_toNat]
    | @pair ds es hc hds hes =>
      have hmax : c.toNat < 0x110000 := by
        obtain hlow | ⟨-, hhigh⟩ := c.valid
        · exact Nat.lt_trans hlow (by decide)
        · exact hhigh
      rw [List.append_assoc, List.cons_append, List.cons_append,
        readUnits_of_pair hds hes (by omega) (by omega), pairCode_of_code hc, Char.ofNat_toNat]

theorem lookup_shortEscapes {e c : Char} :
    shortEscapes.lookup e = some c ↔ (e, c) ∈ shortEscapes := by
  constructor
  · intro h
    obtain ⟨before, after, hsplit, -⟩ := List.lookup_eq_some_iff.mp h
    rw [hsplit]
    exact List.mem_append_right _ (List.mem_cons_self ..)
  · intro h
    simp only [shortEscapes, List.mem_cons, Prod.mk.injEq, List.not_mem_nil, or_false] at h
    obtain ⟨rfl, rfl⟩ | ⟨rfl, rfl⟩ | ⟨rfl, rfl⟩ | ⟨rfl, rfl⟩ | ⟨rfl, rfl⟩ | ⟨rfl, rfl⟩ | ⟨rfl, rfl⟩ |
      ⟨rfl, rfl⟩ := h <;> rfl

theorem readEscape_eq_some {cs rest : List Char} {c : Char} :
    readEscape cs = some (c, rest) ↔
      ∃ spelling, IsSpelling c ('\\' :: spelling) ∧ cs = spelling ++ rest := by
  constructor
  · intro h
    cases cs with
    | nil => cases h
    | cons e cs =>
      rw [readEscape] at h
      split at h
      · rename_i he
        obtain ⟨spelling, hspelling, rfl⟩ := readUnits_eq_some.mp h
        exact ⟨'u' :: spelling, hspelling, by rw [he, List.cons_append]⟩
      · obtain ⟨d, hd, heq⟩ := Option.map_eq_some_iff.mp h
        cases heq
        exact ⟨[e], .short (lookup_shortEscapes.mp hd), rfl⟩
  · rintro ⟨spelling, hspelling, rfl⟩
    cases hspelling with
    | plain hleast hmark hslash => exact absurd rfl hslash
    | @short e he =>
      have hne : e ≠ 'u' := by
        rintro rfl
        simp [shortEscapes] at he
      rw [List.singleton_append, readEscape, if_neg hne, lookup_shortEscapes.mpr he]
      rfl
    | unit hds => exact readUnits_eq_some.mpr ⟨_, .unit hds, rfl⟩
    | pair hc hds hes => exact readUnits_eq_some.mpr ⟨_, .pair hc hds hes, rfl⟩

theorem readChar_eq_some {cs rest : List Char} {c : Char} :
    readChar cs = some (c, rest) ↔ ∃ spelling, IsSpelling c spelling ∧ cs = spelling ++ rest := by
  constructor
  · intro h
    cases cs with
    | nil => cases h
    | cons d cs =>
      rw [readChar] at h
      split at h
      · rename_i hslash
        obtain ⟨spelling, hspelling, rfl⟩ := readEscape_eq_some.mp h
        exact ⟨'\\' :: spelling, hspelling, by rw [hslash, List.cons_append]⟩
      · rename_i hslash
        split at h
        · cases h
        · rename_i hplain
          cases h
          obtain ⟨hmark, hleast⟩ := not_or.mp hplain
          exact ⟨[c], .plain (Nat.le_of_not_lt hleast) hmark hslash, rfl⟩
  · rintro ⟨spelling, hspelling, rfl⟩
    cases hspelling with
    | plain hleast hmark hslash =>
      rw [List.singleton_append, readChar, if_neg hslash,
        if_neg (not_or.mpr ⟨hmark, Nat.not_lt.mpr hleast⟩)]
    | short he => exact readEscape_eq_some.mpr ⟨_, .short he, rfl⟩
    | unit hds => exact readEscape_eq_some.mpr ⟨_, .unit hds, rfl⟩
    | pair hc hds hes => exact readEscape_eq_some.mpr ⟨_, .pair hc hds hes, rfl⟩

theorem IsSpelling.head {c : Char} {spelling : List Char} (h : IsSpelling c spelling) :
    ∃ d ds, spelling = d :: ds ∧ d ≠ '"' := by
  cases h with
  | plain _ hmark => exact ⟨c, [], rfl, hmark⟩
  | short => exact ⟨_, _, rfl, by decide⟩
  | unit => exact ⟨_, _, rfl, by decide⟩
  | pair => exact ⟨_, _, rfl, by decide⟩

theorem IsBody.length_le {text body : List Char} (h : IsBody text body) :
    text.length ≤ body.length := by
  induction h with
  | nil => exact Nat.le_refl 0
  | cons hspelling _ ih =>
    obtain ⟨d, ds, rfl, -⟩ := hspelling.head
    rw [List.length_append, List.length_cons, List.length_cons]
    omega

theorem readBody_of {text body : List Char} (h : IsBody text body) (rest : List Char) {fuel : Nat}
    (hfuel : text.length ≤ fuel) :
    readBody (fuel + 1) (body ++ '"' :: rest) = some (text, rest) := by
  induction h generalizing fuel with
  | nil => rfl
  | @cons c text spelling body hspelling _ ih =>
    obtain ⟨fuel, rfl⟩ := Nat.exists_eq_add_of_le' (Nat.le_of_add_left_le hfuel)
    have hchar := readChar_eq_some.mpr ⟨_, hspelling, (rfl : _ = spelling ++ (body ++ '"' :: rest))⟩
    obtain ⟨d, ds, hd, hmark⟩ := hspelling.head
    have hhead : (spelling ++ (body ++ '"' :: rest)).head? ≠ some '"' := by
      rw [hd]
      exact fun heq => hmark (Option.some.inj heq)
    rw [List.append_assoc, readBody, if_neg hhead, hchar]
    show (readBody (fuel + 1) (body ++ '"' :: rest)).bind _ = _
    rw [ih (Nat.le_of_add_le_add_right hfuel)]
    rfl

theorem readBody_sound {fuel : Nat} {cs text rest : List Char}
    (h : readBody fuel cs = some (text, rest)) :
    ∃ body, IsBody text body ∧ cs = body ++ '"' :: rest := by
  induction fuel generalizing cs text with
  | zero => cases h
  | succ fuel ih =>
    rw [readBody] at h
    split at h
    · rename_i hmark
      obtain ⟨cs, rfl⟩ := List.head?_eq_some_iff.mp hmark
      cases h
      exact ⟨[], .nil, rfl⟩
    · obtain ⟨⟨c, after⟩, hc, hnext⟩ := Option.bind_eq_some_iff.mp h
      obtain ⟨⟨text', last⟩, htext, hsome⟩ := Option.bind_eq_some_iff.mp hnext
      cases hsome
      obtain ⟨spelling, hspelling, rfl⟩ := readChar_eq_some.mp hc
      obtain ⟨body, hbody, rfl⟩ := ih htext
      exact ⟨spelling ++ body, .cons hspelling hbody, by rw [List.append_assoc]⟩

end GoTokens.Json

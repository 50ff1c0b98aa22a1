import GoTokens.Proofs.Json.Number
import GoTokens.Proofs.Json.Spelling

/-!
Reading a JSON text. What is read is what the grammar says (`decode?_eq_some`), so the grammar
gives a text one value at most. A value without brackets or marks is read as the longest run of
the characters that such values have, and no character that may follow a value is one of these.
The characters ahead are fuel enough, since every value and every block begins with one.
-/

namespace GoTokens.Json

open Lookahead

def isSpace (c : Char) : Bool := c == ' ' || c == '\t' || c == '\n' || c == '\r'

def skipSpace (cs : List Char) : List Char := cs.dropWhile isSpace

theorem isSpace_iff {c : Char} : isSpace c = true ↔ c = ' ' ∨ c = '\t' ∨ c = '\n' ∨ c = '\r' := by
  simp [isSpace, or_assoc]

theorem skipSpace_append {space cs : List Char} (h : IsSpace space)
    (hcs : ∀ c, cs.head? = some c → isSpace c = false) : skipSpace (space ++ cs) = cs := by
  have hspace : ∀ c ∈ space, isSpace c = true := fun c hc => isSpace_iff.mpr (h c hc)
  exact dropWhile_append_eq (takeWhile_append_eq.mpr ⟨hspace, hcs⟩)

theorem skipSpace_split (cs : List Char) : ∃ space, IsSpace space ∧ cs = space ++ skipSpace cs :=
  ⟨cs.takeWhile isSpace, fun _ hc => isSpace_iff.mp (List.mem_takeWhile_imp hc),
    List.takeWhile_append_dropWhile.symm⟩

def isBareChar (c : Char) : Bool := c.isAlphanum || c == '+' || c == '-' || c == '.'

def bare? (cs : List Char) : Option Value :=
  if cs = "null".toList then some .null
  else if cs = "true".toList then some (.boolean true)
  else if cs = "false".toList then some (.boolean false)
  else if isNumber cs = true then some (.number cs)
  else none

/-- What a reader reads behind a mark. -/
def behind {α : Type} (mark : Char) (read : List Char → Option α) (cs : List Char) : Option α :=
  if cs.head? = some mark then read cs.tail else none

theorem behind_cons {α : Type} (mark : Char) (read : List Char → Option α) (cs : List Char) :
    behind mark read (mark :: cs) = read cs := if_pos rfl

/-- A value that is read, and the name and the colon before it. -/
def readEntry (readName : List Char → Option (List Char × List Char))
    (readValue : List Char → Option (Value × List Char)) (named : Bool) (cs : List Char) :
    Option (Entry × List Char) :=
  if named then do
    let (name, cs) ← behind '"' readName cs
    let (v, cs) ← behind ':' (fun cs => readValue (skipSpace cs)) (skipSpace cs)
    return ((some name, v), cs)
  else do
    let (v, cs) ← readValue cs
    return ((none, v), cs)

/-- Entries up to the closing bracket, if there are any before it. -/
def readBlock (readEntries : List Char → Option (List Entry × List Char)) (named : Bool)
    (cs : List Char) : Option (List Entry × List Char) :=
  if cs.head? = some (closing named) then some ([], cs.tail) else readEntries cs

mutual

def readValue : Nat → List Char → Option (Value × List Char)
  | 0, _ => none
  | fuel + 1, cs =>
    if cs.head? = some '"' then
      (readBody fuel cs.tail).map fun (text, cs) => (.string text, cs)
    else if cs.head? = some '[' then
      (readBlock (readEntries fuel false) false (skipSpace cs.tail)).map fun (entries, cs) =>
        (.array (entries.map fun entry => entry.2), cs)
    else if cs.head? = some '\x7b' then
      (readBlock (readEntries fuel true) true (skipSpace cs.tail)).map fun (entries, cs) =>
        (.object (entries.map fun entry => (entry.1.getD [], entry.2)), cs)
    else
      (bare? (cs.takeWhile isBareChar)).map fun v => (v, cs.dropWhile isBareChar)

def readEntries : Nat → Bool → List Char → Option (List Entry × List Char)
  | 0, _, _ => none
  | fuel + 1, named, cs => do
    let (entry, cs) ← readEntry (readBody fuel) (readValue fuel) named cs
    if (skipSpace cs).head? = some ',' then
      let (entries, cs) ← readEntries fuel named (skipSpace (skipSpace cs).tail)
      return (entry :: entries, cs)
    else
      behind (closing named) (fun cs => some ([entry], cs)) (skipSpace cs)

end

def decode? (cs : List Char) : Option Value := do
  let (v, cs) ← readValue cs.length (skipSpace cs)
  if skipSpace cs = [] then some v else none

/-! ## What is read is what the grammar says -/

theorem isBareChar_of_isDigit {c : Char} (h : c.isDigit = true) : isBareChar c = true := by
  simp [isBareChar, Char.isAlphanum, h]

theorem IsDigits.bare {cs : List Char} (h : IsDigits cs) : ∀ c ∈ cs, isBareChar c = true :=
  fun c hc => isBareChar_of_isDigit (h.digits c hc)

theorem IsNumber.bare {cs : List Char} (h : IsNumber cs) : ∀ c ∈ cs, isBareChar c = true := by
  cases h with
  | @parts sign whole fraction exponent hsign hwhole hfraction hexponent =>
    have hsigns : ∀ c ∈ sign, isBareChar c = true := by
      obtain rfl | rfl := hsign <;> exact List.all_eq_true.mp rfl
    have hfractions : ∀ c ∈ fraction, isBareChar c = true := by
      cases hfraction with
      | missing => simp
      | point hdigits => exact List.forall_mem_cons.mpr ⟨rfl, hdigits.bare⟩
    have hexponents : ∀ c ∈ exponent, isBareChar c = true := by
      cases hexponent with
      | missing => simp
      | marked hmark hsign hdigits =>
        refine List.forall_mem_cons.mpr ⟨by obtain rfl | rfl := hmark <;> rfl, ?_⟩
        refine List.forall_mem_append.mpr ⟨?_, hdigits.bare⟩
        obtain rfl | rfl | rfl := hsign <;> exact List.all_eq_true.mp rfl
    simp only [List.forall_mem_append]
    exact ⟨hsigns, hwhole.toIsDigits.bare, hfractions, hexponents⟩

theorem IsNumber.ne_nil {cs : List Char} (h : IsNumber cs) : cs ≠ [] := by
  cases h with
  | parts _ hwhole => simp [hwhole.someDigit]

theorem bare?_eq_some {cs : List Char} {v : Value} : bare? cs = some v ↔ IsBare v cs := by
  constructor
  · intro h
    unfold bare? at h
    split at h
    · rename_i hcs
      cases h
      rw [hcs]
      exact .nullWord
    · split at h
      · rename_i hcs
        cases h
        rw [hcs]
        exact .trueWord
      · split at h
        · rename_i hcs
          cases h
          rw [hcs]
          exact .falseWord
        · split at h
          · rename_i hnumber
            cases h
            exact .number (isNumber_iff.mp hnumber)
          · cases h
  · intro h
    cases h with
    | nullWord => rfl
    | trueWord => rfl
    | falseWord => rfl
    | number hnumber =>
      have hne (word : List Char) (hword : isNumber word = false) : cs ≠ word := by
        rintro rfl
        rw [isNumber_iff.mpr hnumber] at hword
        cases hword
      rw [bare?, if_neg (hne _ (by decide)), if_neg (hne _ (by decide)), if_neg (hne _ (by decide)),
        if_pos (isNumber_iff.mpr hnumber)]

theorem IsBare.bare {v : Value} {cs : List Char} (h : IsBare v cs) :
    cs ≠ [] ∧ ∀ c ∈ cs, isBareChar c = true := by
  cases h with
  | nullWord => exact ⟨by decide, List.all_eq_true.mp rfl⟩
  | trueWord => exact ⟨by decide, List.all_eq_true.mp rfl⟩
  | falseWord => exact ⟨by decide, List.all_eq_true.mp rfl⟩
  | number hnumber => exact ⟨hnumber.ne_nil, hnumber.bare⟩

def opens (c : Char) : Bool := c == '"' || c == '[' || c == '\x7b' || isBareChar c

theorem IsValue.opens {v : Value} {cs : List Char} (h : IsValue v cs) :
    ∃ c cs', cs = c :: cs' ∧ opens c = true := by
  cases h with
  | bare hbare =>
    obtain ⟨hne, hchars⟩ := hbare.bare
    obtain ⟨c, cs', rfl⟩ := List.exists_cons_of_ne_nil hne
    exact ⟨c, cs', rfl, by simp [Json.opens, hchars c (List.mem_cons_self ..)]⟩
  | string hstring => cases hstring; exact ⟨_, _, rfl, rfl⟩
  | emptyArray => exact ⟨_, _, rfl, rfl⟩
  | array => exact ⟨_, _, rfl, rfl⟩
  | emptyObject => exact ⟨_, _, rfl, rfl⟩
  | object => exact ⟨_, _, rfl, rfl⟩

theorem IsEntries.opens {named : Bool} {entries : List Entry} {cs : List Char}
    (h : IsEntries named entries cs) : ∃ c cs', cs = c :: cs' ∧ Json.opens c = true := by
  have hentry {entry : Entry} {text : List Char} (h : IsEntry named entry text) :
      ∃ c cs', text = c :: cs' ∧ Json.opens c = true := by
    cases h with
    | item hv => exact hv.opens
    | member hname => cases hname; exact ⟨_, _, rfl, rfl⟩
  cases h with
  | last h => obtain ⟨c, cs', rfl, hc⟩ := hentry h; exact ⟨c, _, rfl, hc⟩
  | comma h => obtain ⟨c, cs', rfl, hc⟩ := hentry h; exact ⟨c, _, rfl, hc⟩

theorem ne_of_opens {c d : Char} (h : opens c = true) (hd : opens d = false) : c ≠ d := by
  rintro rfl
  rw [h] at hd
  cases hd

theorem isSpace_of_opens {c : Char} (h : opens c = true) : isSpace c = false := by
  by_contra hspace
  obtain hc | hc | hc | hc := isSpace_iff.mp (by simpa using hspace) <;>
    exact ne_of_opens h (by decide) hc

theorem ne_closing_of_opens {c : Char} (h : opens c = true) (named : Bool) :
    c ≠ closing named := by
  cases named <;> exact ne_of_opens h (by decide)

/-- What may follow a value: nothing that would belong to it. -/
def Ends (rest : List Char) : Prop := ∀ c, rest.head? = some c → isBareChar c = false

theorem ends_of_space {space : List Char} (h : IsSpace space) {c : Char}
    (hc : isBareChar c = false) (rest : List Char) : Ends (space ++ c :: rest) := by
  intro d hd
  cases space with
  | nil =>
    cases hd
    exact hc
  | cons e space =>
    cases hd
    obtain rfl | rfl | rfl | rfl := h d (List.mem_cons_self ..) <;> rfl

theorem skipSpace_opens {space cs : List Char} (h : IsSpace space)
    (hcs : ∃ c cs', cs = c :: cs' ∧ opens c = true) (rest : List Char) :
    skipSpace (space ++ (cs ++ rest)) = cs ++ rest := by
  obtain ⟨c, cs', rfl, hc⟩ := hcs
  refine skipSpace_append h fun d hd => ?_
  cases hd
  exact isSpace_of_opens hc

theorem skipSpace_mark {space : List Char} (h : IsSpace space) {mark : Char}
    (hmark : isSpace mark = false) (rest : List Char) :
    skipSpace (space ++ mark :: rest) = mark :: rest := by
  refine skipSpace_append h fun d hd => ?_
  cases hd
  exact hmark

theorem readEntry_of {readName : List Char → Option (List Char × List Char)}
    {readValue : List Char → Option (Value × List Char)} {named : Bool} {entry : Entry}
    {cs : List Char} (h : IsEntry named entry cs)
    (hname : ∀ text body, IsBody text body → body.length < cs.length → ∀ rest,
      readName (body ++ '"' :: rest) = some (text, rest))
    (hvalue : ∀ v text, IsValue v text → text.length ≤ cs.length → ∀ rest, Ends rest →
      readValue (text ++ rest) = some (v, rest))
    {rest : List Char} (hrest : Ends rest) :
    readEntry readName readValue named (cs ++ rest) = some (entry, rest) := by
  cases h with
  | @item v cs hv =>
    rw [readEntry, if_neg Bool.false_ne_true, hvalue v cs hv le_rfl rest hrest]
    rfl
  | @member name mark space space' cs v hmark hspace hspace' hv =>
    cases hmark with
    | @marked body hbody =>
      have htext : ('"' :: (body ++ ['"']) ++ (space ++ ':' :: (space' ++ cs))) ++ rest =
          '"' :: (body ++ '"' :: (space ++ ':' :: (space' ++ (cs ++ rest)))) := by simp
      have hbodyLength : body.length <
          ('"' :: (body ++ ['"']) ++ (space ++ ':' :: (space' ++ cs))).length := by
        simp only [List.length_append, List.length_cons]
        omega
      have hread := hname name body hbody hbodyLength (space ++ ':' :: (space' ++ (cs ++ rest)))
      have hcolon := skipSpace_mark hspace (show isSpace ':' = false from rfl)
        (space' ++ (cs ++ rest))
      have hlength : cs.length ≤
          ('"' :: (body ++ ['"']) ++ (space ++ ':' :: (space' ++ cs))).length := by
        simp only [List.length_append, List.length_cons]
        omega
      rw [htext, readEntry, if_pos rfl, behind_cons, hread]
      show (behind ':' _ (skipSpace _)).bind _ = _
      rw [hcolon, behind_cons, skipSpace_opens hspace' hv.opens, hvalue v cs hv hlength rest hrest]
      rfl

/-- With fuel for its characters, every value and every block is read. -/
structure ReadsUpTo (n : Nat) : Prop where
  value : ∀ v cs, IsValue v cs → cs.length ≤ n → ∀ rest, Ends rest →
    readValue n (cs ++ rest) = some (v, rest)
  entries : ∀ named entries cs, IsEntries named entries cs → cs.length ≤ n → ∀ rest,
    readEntries n named (cs ++ rest) = some (entries, rest)

theorem readBlock_of {n : Nat} (h : ReadsUpTo n) {named : Bool} {entries : List Entry}
    {space cs : List Char} (hspace : IsSpace space) (hcs : IsEntries named entries cs)
    (hlength : cs.length ≤ n) (rest : List Char) :
    readBlock (readEntries n named) named (skipSpace (space ++ (cs ++ rest))) =
      some (entries, rest) := by
  rw [skipSpace_opens hspace hcs.opens, readBlock, if_neg]
  · exact h.entries named entries cs hcs hlength rest
  · obtain ⟨c, cs', rfl, hc⟩ := hcs.opens
    exact fun heq => ne_closing_of_opens hc named (Option.some.inj heq)

theorem readBlock_empty (read : List Char → Option (List Entry × List Char)) (named : Bool)
    {space : List Char} (hspace : IsSpace space) (rest : List Char) :
    readBlock read named (skipSpace (space ++ closing named :: rest)) = some ([], rest) := by
  rw [skipSpace_mark hspace (by cases named <;> rfl)]
  exact if_pos rfl

theorem readValue_string (fuel : Nat) (cs : List Char) :
    readValue (fuel + 1) ('"' :: cs) =
      (readBody fuel cs).map fun (text, cs) => (.string text, cs) := by
  rw [readValue, if_pos (List.head?_cons), List.tail_cons]

theorem readValue_array (fuel : Nat) (cs : List Char) :
    readValue (fuel + 1) ('[' :: cs) =
      (readBlock (readEntries fuel false) false (skipSpace cs)).map fun (entries, cs) =>
        (.array (entries.map fun entry => entry.2), cs) := by
  rw [readValue, if_neg (by simp), if_pos (List.head?_cons), List.tail_cons]

theorem readValue_object (fuel : Nat) (cs : List Char) :
    readValue (fuel + 1) ('\x7b' :: cs) =
      (readBlock (readEntries fuel true) true (skipSpace cs)).map fun (entries, cs) =>
        (.object (entries.map fun entry => (entry.1.getD [], entry.2)), cs) := by
  rw [readValue, if_neg (by simp), if_neg (by simp), if_pos (List.head?_cons), List.tail_cons]

theorem ReadsUpTo.succ_value {n : Nat} (ih : ReadsUpTo n) {v : Value} {cs : List Char}
    (h : IsValue v cs) (hlength : cs.length ≤ n + 1) {rest : List Char} (hrest : Ends rest) :
    readValue (n + 1) (cs ++ rest) = some (v, rest) := by
  cases h with
  | bare hbare =>
    obtain ⟨hne, hchars⟩ := hbare.bare
    have htake := takeWhile_append_eq.mpr ⟨hchars, hrest⟩
    have hdrop := dropWhile_append_eq htake
    have hhead (d : Char) (hd : isBareChar d = false) : (cs ++ rest).head? ≠ some d := by
      obtain ⟨c, cs', rfl⟩ := List.exists_cons_of_ne_nil hne
      intro heq
      have hc := hchars c (List.mem_cons_self ..)
      rw [Option.some.inj heq, hd] at hc
      cases hc
    rw [readValue, if_neg (hhead _ (by decide)), if_neg (hhead _ (by decide)),
      if_neg (hhead _ (by decide)), htake, hdrop, bare?_eq_some.mpr hbare]
    rfl
  | string hstring =>
    cases hstring with
    | @marked body hbody =>
      rw [List.length_cons, List.length_append, List.length_singleton] at hlength
      obtain ⟨fuel, rfl⟩ := Nat.exists_eq_add_of_le' (show 1 ≤ n by omega)
      have hread := readBody_of hbody rest (hbody.length_le.trans (show body.length ≤ fuel by omega))
      rw [List.cons_append, List.append_assoc, List.singleton_append, readValue_string, hread]
      rfl
  | @emptyArray space hspace =>
    have hblock := readBlock_empty (readEntries n false) false hspace rest
    rw [List.cons_append, List.append_assoc, List.singleton_append, readValue_array, hblock]
    rfl
  | @array items space entries hspace hentries =>
    rw [List.length_cons, List.length_append] at hlength
    have hblock := readBlock_of ih hspace hentries (by omega) rest
    rw [List.cons_append, List.append_assoc, readValue_array, hblock]
    simp [Function.comp_def]
  | @emptyObject space hspace =>
    have hblock := readBlock_empty (readEntries n true) true hspace rest
    rw [List.cons_append, List.append_assoc, List.singleton_append, readValue_object, hblock]
    rfl
  | @object members space entries hspace hentries =>
    rw [List.length_cons, List.length_append] at hlength
    have hblock := readBlock_of ih hspace hentries (by omega) rest
    rw [List.cons_append, List.append_assoc, readValue_object, hblock]
    simp [Function.comp_def]

theorem ReadsUpTo.readEntry {n : Nat} (ih : ReadsUpTo n) {named : Bool} {entry : Entry}
    {cs : List Char} (h : IsEntry named entry cs) (hlength : cs.length ≤ n) {rest : List Char}
    (hrest : Ends rest) :
    readEntry (readBody n) (readValue n) named (cs ++ rest) = some (entry, rest) := by
  refine readEntry_of h (fun text body hbody hlt rest => ?_) (fun v text hv hle rest hrest => ?_) hrest
  · obtain ⟨fuel, rfl⟩ := Nat.exists_eq_add_of_le' (show 1 ≤ n by omega)
    exact readBody_of hbody rest (hbody.length_le.trans (show body.length ≤ fuel by omega))
  · exact ih.value v text hv (hle.trans hlength) rest hrest

theorem ReadsUpTo.succ_entries {n : Nat} (ih : ReadsUpTo n) {named : Bool} {entries : List Entry}
    {cs : List Char} (h : IsEntries named entries cs) (hlength : cs.length ≤ n + 1)
    (rest : List Char) :
    readEntries (n + 1) named (cs ++ rest) = some (entries, rest) := by
  cases h with
  | @last named entry text space hentry hspace =>
    rw [List.length_append, List.length_append, List.length_singleton] at hlength
    have hbare : isBareChar (closing named) = false := by cases named <;> rfl
    have hread := ih.readEntry hentry (by omega) (ends_of_space hspace hbare rest)
    have hskip := skipSpace_mark hspace
      (show isSpace (closing named) = false by cases named <;> rfl) rest
    have hcomma : (closing named :: rest).head? ≠ some ',' := by cases named <;> simp [closing]
    rw [List.append_assoc, List.append_assoc, List.singleton_append, readEntries, hread]
    show (if (skipSpace (space ++ closing named :: rest)).head? = some ',' then _ else _) = _
    rw [hskip, if_neg hcomma, behind_cons]
  | @comma named entry entries text space space' more hentry hspace hspace' hmore =>
    rw [List.length_append, List.length_append, List.length_cons, List.length_append] at hlength
    have htext : text ++ (space ++ ',' :: (space' ++ more)) ++ rest =
        text ++ (space ++ ',' :: (space' ++ (more ++ rest))) := by simp
    have hread := ih.readEntry hentry (by omega)
      (ends_of_space hspace (show isBareChar ',' = false from rfl) (space' ++ (more ++ rest)))
    have hskip := skipSpace_mark hspace (show isSpace ',' = false from rfl)
      (space' ++ (more ++ rest))
    rw [htext, readEntries, hread]
    show (if (skipSpace (space ++ ',' :: (space' ++ (more ++ rest)))).head? = some ',' then _
      else _) = _
    rw [hskip, if_pos (List.head?_cons), List.tail_cons, skipSpace_opens hspace' hmore.opens,
      ih.entries named entries more hmore (by omega) rest]
    rfl

theorem readsUpTo (n : Nat) : ReadsUpTo n := by
  induction n with
  | zero =>
    constructor
    · intro v cs h hlength
      obtain ⟨c, cs', rfl, -⟩ := h.opens
      exact absurd hlength (Nat.not_succ_le_zero _)
    · intro named entries cs h hlength
      obtain ⟨c, cs', rfl, -⟩ := h.opens
      exact absurd hlength (Nat.not_succ_le_zero _)
  | succ n ih =>
    exact ⟨fun v cs h hlength rest hrest => ih.succ_value h hlength hrest,
      fun named entries cs h hlength rest => ih.succ_entries h hlength rest⟩

theorem ends_space {space : List Char} (h : IsSpace space) : Ends space := by
  intro c hc
  obtain rfl | rfl | rfl | rfl := h c (List.mem_of_head? hc) <;> rfl

theorem decode?_of {v : Value} {cs : List Char} (h : IsText v cs) : decode? cs = some v := by
  cases h with
  | @value text space space' hspace hv hspace' =>
    have hfuel : text.length ≤ (space ++ (text ++ space')).length := by
      rw [List.length_append, List.length_append]
      omega
    have hread := (readsUpTo _).value v text hv hfuel space' (ends_space hspace')
    have hlast : skipSpace space' = [] := by
      have hskip := skipSpace_append hspace' (show ∀ c, [].head? = some c → _ from fun c hc => by cases hc)
      rwa [List.append_nil] at hskip
    rw [decode?, skipSpace_opens hspace hv.opens, hread]
    exact if_pos hlast

/-! ## Nothing else is read -/

theorem behind_eq_some {α : Type} {mark : Char} {read : List Char → Option α} {cs : List Char}
    {a : α} : behind mark read cs = some a ↔ ∃ cs', cs = mark :: cs' ∧ read cs' = some a := by
  constructor
  · intro h
    unfold behind at h
    split at h
    · rename_i hmark
      obtain ⟨cs', rfl⟩ := List.head?_eq_some_iff.mp hmark
      exact ⟨cs', rfl, h⟩
    · cases h
  · rintro ⟨cs', rfl, h⟩
    rwa [behind_cons]

theorem IsEntries.isSome_name {named : Bool} {entries : List Entry} {cs : List Char}
    (h : IsEntries named entries cs) : ∀ entry ∈ entries, entry.1.isSome = named := by
  have hentry {entry : Entry} {text : List Char} (h : IsEntry named entry text) :
      entry.1.isSome = named := by
    cases h <;> rfl
  induction entries generalizing cs with
  | nil => simp
  | cons entry entries ih =>
    cases h with
    | last h => simpa using hentry h
    | comma h _ _ hmore => exact List.forall_mem_cons.mpr ⟨hentry h, ih hmore⟩

theorem IsEntries.items {entries : List Entry} {cs : List Char} (h : IsEntries false entries cs) :
    (entries.map fun entry => entry.2).map (fun v => (none, v)) = entries := by
  rw [List.map_map]
  refine (List.map_congr_left fun entry hentry => ?_).trans (List.map_id _)
  obtain ⟨name, v⟩ := entry
  cases name with
  | none => rfl
  | some name => exact absurd (h.isSome_name _ hentry) (by simp)

theorem IsEntries.members {entries : List Entry} {cs : List Char} (h : IsEntries true entries cs) :
    (entries.map fun entry => (entry.1.getD [], entry.2)).map (fun m => (some m.1, m.2)) =
      entries := by
  rw [List.map_map]
  refine (List.map_congr_left fun entry hentry => ?_).trans (List.map_id _)
  obtain ⟨name, v⟩ := entry
  cases name with
  | none => exact absurd (h.isSome_name _ hentry) (by simp)
  | some name => rfl

/-- All that is read is derived. -/
structure DerivesUpTo (n : Nat) : Prop where
  value : ∀ cs v rest, readValue n cs = some (v, rest) →
    ∃ text, IsValue v text ∧ cs = text ++ rest
  entries : ∀ named cs entries rest, readEntries n named cs = some (entries, rest) →
    ∃ text, IsEntries named entries text ∧ cs = text ++ rest

theorem DerivesUpTo.readEntry {n : Nat} (ih : DerivesUpTo n) {named : Bool} {cs rest : List Char}
    {entry : Entry} (h : readEntry (readBody n) (readValue n) named cs = some (entry, rest)) :
    ∃ text, IsEntry named entry text ∧ cs = text ++ rest := by
  unfold Json.readEntry at h
  split at h
  · rename_i hnamed
    subst hnamed
    obtain ⟨⟨name, after⟩, hname, hnext⟩ := Option.bind_eq_some_iff.mp h
    obtain ⟨⟨v, last⟩, hv, hsome⟩ := Option.bind_eq_some_iff.mp hnext
    cases hsome
    obtain ⟨cs', rfl, hread⟩ := behind_eq_some.mp hname
    obtain ⟨body, hbody, rfl⟩ := readBody_sound hread
    obtain ⟨colon, hcolon, hvalue⟩ := behind_eq_some.mp hv
    obtain ⟨text, htext, hrest⟩ := ih.value _ _ _ hvalue
    obtain ⟨space, hspace, hsplit⟩ := skipSpace_split after
    obtain ⟨space', hspace', hsplit'⟩ := skipSpace_split colon
    refine ⟨_, .member (.marked hbody) hspace hspace' htext, ?_⟩
    rw [hsplit, hcolon, hsplit', hrest]
    simp
  · rename_i hnamed
    obtain rfl : named = false := by simpa using hnamed
    obtain ⟨⟨v, last⟩, hv, hsome⟩ := Option.bind_eq_some_iff.mp h
    cases hsome
    obtain ⟨text, htext, rfl⟩ := ih.value _ _ _ hv
    exact ⟨text, .item htext, rfl⟩

theorem DerivesUpTo.readBlock {n : Nat} (ih : DerivesUpTo n) {named : Bool} {cs rest : List Char}
    {entries : List Entry}
    (h : readBlock (readEntries n named) named (skipSpace cs) = some (entries, rest)) :
    ∃ space, IsSpace space ∧ (entries = [] ∧ cs = space ++ closing named :: rest ∨
      ∃ text, IsEntries named entries text ∧ cs = space ++ (text ++ rest)) := by
  obtain ⟨space, hspace, hsplit⟩ := skipSpace_split cs
  refine ⟨space, hspace, ?_⟩
  unfold Json.readBlock at h
  split at h
  · rename_i hclosing
    obtain ⟨cs', hcs'⟩ := List.head?_eq_some_iff.mp hclosing
    left
    rw [hcs'] at h hsplit
    cases h
    exact ⟨rfl, hsplit⟩
  · obtain ⟨text, htext, hrest⟩ := ih.entries _ _ _ _ h
    right
    exact ⟨text, htext, by rwa [hrest] at hsplit⟩

theorem DerivesUpTo.succ_value {n : Nat} (ih : DerivesUpTo n) {cs rest : List Char} {v : Value}
    (h : readValue (n + 1) cs = some (v, rest)) : ∃ text, IsValue v text ∧ cs = text ++ rest := by
  rw [readValue] at h
  split at h
  · rename_i hmark
    obtain ⟨cs, rfl⟩ := List.head?_eq_some_iff.mp hmark
    obtain ⟨⟨text, after⟩, htext, heq⟩ := Option.map_eq_some_iff.mp h
    cases heq
    rw [List.tail_cons] at htext
    obtain ⟨body, hbody, rfl⟩ := readBody_sound htext
    exact ⟨_, .string (.marked hbody), by simp⟩
  · split at h
    · rename_i hbracket
      obtain ⟨cs, rfl⟩ := List.head?_eq_some_iff.mp hbracket
      obtain ⟨⟨entries, after⟩, hentries, heq⟩ := Option.map_eq_some_iff.mp h
      cases heq
      rw [List.tail_cons] at hentries
      obtain ⟨space, hspace, ⟨rfl, rfl⟩ | ⟨text, htext, rfl⟩⟩ := ih.readBlock hentries
      · exact ⟨_, .emptyArray hspace, by simp⟩
      · exact ⟨_, .array hspace (htext.items.symm ▸ htext), by simp⟩
    · split at h
      · rename_i hbrace
        obtain ⟨cs, rfl⟩ := List.head?_eq_some_iff.mp hbrace
        obtain ⟨⟨entries, after⟩, hentries, heq⟩ := Option.map_eq_some_iff.mp h
        cases heq
        rw [List.tail_cons] at hentries
        obtain ⟨space, hspace, ⟨rfl, rfl⟩ | ⟨text, htext, rfl⟩⟩ := ih.readBlock hentries
        · exact ⟨_, .emptyObject hspace, by simp⟩
        · exact ⟨_, .object hspace (htext.members.symm ▸ htext), by simp⟩
      · obtain ⟨v', hv', heq⟩ := Option.map_eq_some_iff.mp h
        cases heq
        exact ⟨_, .bare (bare?_eq_some.mp hv'), List.takeWhile_append_dropWhile.symm⟩

theorem DerivesUpTo.succ_entries {n : Nat} (ih : DerivesUpTo n) {named : Bool}
    {cs rest : List Char} {entries : List Entry}
    (h : readEntries (n + 1) named cs = some (entries, rest)) :
    ∃ text, IsEntries named entries text ∧ cs = text ++ rest := by
  rw [readEntries] at h
  obtain ⟨⟨entry, after⟩, hentry, hnext⟩ := Option.bind_eq_some_iff.mp h
  obtain ⟨text, htext, rfl⟩ := ih.readEntry hentry
  obtain ⟨space, hspace, hsplit⟩ := skipSpace_split after
  dsimp only at hnext
  split at hnext
  · rename_i hcomma
    obtain ⟨more, hmore⟩ := List.head?_eq_some_iff.mp hcomma
    obtain ⟨⟨entries', last⟩, hentries, hsome⟩ := Option.bind_eq_some_iff.mp hnext
    cases hsome
    rw [hmore, List.tail_cons] at hentries
    obtain ⟨text', htext', hrest⟩ := ih.entries _ _ _ _ hentries
    obtain ⟨space', hspace', hsplit'⟩ := skipSpace_split more
    refine ⟨_, .comma htext hspace hspace' htext', ?_⟩
    rw [hsplit, hmore, hsplit', hrest]
    simp
  · obtain ⟨last, hlast, hsome⟩ := behind_eq_some.mp hnext
    cases hsome
    refine ⟨_, .last htext hspace, ?_⟩
    rw [hsplit, hlast]
    simp

theorem derivesUpTo (n : Nat) : DerivesUpTo n := by
  induction n with
  | zero => exact ⟨fun _ _ _ h => (by cases h), fun _ _ _ _ h => (by cases h)⟩
  | succ n ih =>
    exact ⟨fun _ _ _ h => ih.succ_value h, fun _ _ _ _ h => ih.succ_entries h⟩

/-- Reading a text gives the value that the grammar gives it. -/
theorem decode?_eq_some {v : Value} {cs : List Char} : decode? cs = some v ↔ IsText v cs := by
  refine ⟨fun h => ?_, decode?_of⟩
  obtain ⟨⟨v', after⟩, hv, hnext⟩ := Option.bind_eq_some_iff.mp h
  dsimp only at hnext
  split at hnext
  · rename_i hlast
    cases hnext
    obtain ⟨text, htext, hrest⟩ := (derivesUpTo _).value _ _ _ hv
    obtain ⟨space, hspace, hsplit⟩ := skipSpace_split cs
    obtain ⟨space', hspace', hsplit'⟩ := skipSpace_split after
    rw [hlast, List.append_nil] at hsplit'
    rw [hsplit, hrest, hsplit']
    exact .value hspace htext hspace'
  · cases hnext

/-- A text has one value at most. -/
theorem IsText.unique {v w : Value} {cs : List Char} (hv : IsText v cs) (hw : IsText w cs) :
    v = w :=
  Option.some.inj ((decode?_of hv).symm.trans (decode?_of hw))

end GoTokens.Json

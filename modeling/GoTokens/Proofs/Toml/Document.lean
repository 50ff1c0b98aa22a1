import GoTokens.Proofs.Lookahead
import GoTokens.Toml.Document

/-!
Documents of one table, read back. Each lemma reads one piece as it is written, with anything
behind it that may stand there: a key, a string, a line. A table under its header, with each
assignment on a line of its own, is then read as that table (`parse?_document`).
-/

namespace GoTokens.Toml

open Lookahead

namespace Reader

variable {α β : Type} {p q : Reader α} {f : α → Reader β} {a : α} {c : Char}
  {cs rest text : List Char} {accept : Char → Bool}

theorem bind_some (h : p cs = some (a, rest)) : (p >>= f) cs = f a rest := by
  change (p cs).bind (fun found => f found.1 found.2) = _
  rw [h]
  rfl

theorem bind_none (h : p cs = none) : (p >>= f) cs = none := by
  change (p cs).bind (fun found => f found.1 found.2) = _
  rw [h]
  rfl

theorem map_some {g : α → β} (h : p cs = some (a, rest)) : (g <$> p) cs = some (g a, rest) := by
  change (p cs).bind (fun found => some (g found.1, found.2)) = _
  rw [h]
  rfl

theorem or_some {found : α × List Char} (h : p cs = some found) : (p <|> q) cs = some found := by
  change (p cs <|> q cs) = _
  rw [h]
  rfl

theorem or_none (h : p cs = none) : (p <|> q) cs = q cs := by
  change (p cs <|> q cs) = _
  rw [h]
  rfl

theorem satisfy_cons (h : accept c = true) : satisfy accept (c :: cs) = some (c, cs) := if_pos h

theorem satisfy_none (h : ∀ d, cs.head? = some d → accept d = false) : satisfy accept cs = none := by
  cases cs with
  | nil => rfl
  | cons d cs =>
    rw [satisfy, h d rfl]
    rfl

theorem char_cons : char c (c :: cs) = some ((), cs) := bind_some (satisfy_cons (beq_self_eq_true c))

theorem char_none (h : cs.head? ≠ some c) : char c cs = none := by
  refine bind_none (satisfy_none fun d hd => beq_eq_false_iff_ne.mpr ?_)
  rintro rfl
  exact h hd

theorem run_append (htext : ∀ c ∈ text, accept c = true)
    (hrest : ∀ c, rest.head? = some c → accept c = false) :
    run accept (text ++ rest) = some (text, rest) := by
  have htaken := takeWhile_append_eq.mpr ⟨htext, hrest⟩
  rw [run, htaken, dropWhile_append_eq htaken]

/-- Pieces are read one after the other, up to what is none. -/
theorem manyWithin_append {pieces : List (List Char × α)}
    (hpieces : ∀ piece ∈ pieces, piece.1 ≠ [] ∧
      ∀ rest, p (piece.1 ++ rest) = some (piece.2, rest))
    (hrest : p rest = none) {bound : List Char} (found : List α)
    (hbound : (pieces.flatMap (·.1)).length ≤ bound.length) :
    manyWithin p bound found (pieces.flatMap (·.1) ++ rest) =
      some (found.reverse ++ pieces.map (·.2), rest) := by
  induction pieces generalizing bound found with
  | nil =>
    cases bound with
    | nil => simp [manyWithin]
    | cons c bound => simp [manyWithin, hrest]
  | cons piece pieces ih =>
    obtain ⟨⟨hne, hread⟩, hpieces⟩ := List.forall_mem_cons.mp hpieces
    rw [List.flatMap_cons, List.length_append] at hbound
    have hpos := List.length_pos_iff.mpr hne
    cases bound with
    | nil => exact absurd hbound (by simp [hne])
    | cons c bound =>
      rw [List.length_cons] at hbound
      rw [List.flatMap_cons, List.append_assoc, manyWithin, hread]
      dsimp only
      rw [ih hpieces _ (by omega)]
      simp

theorem many_append {pieces : List (List Char × α)}
    (hpieces : ∀ piece ∈ pieces, piece.1 ≠ [] ∧
      ∀ rest, p (piece.1 ++ rest) = some (piece.2, rest))
    (hrest : p rest = none) :
    many p (pieces.flatMap (·.1) ++ rest) = some (pieces.map (·.2), rest) :=
  manyWithin_append hpieces hrest [] (by rw [List.length_append]; exact Nat.le_add_right _ _)

theorem many_none (h : p cs = none) : many p cs = some ([], cs) :=
  manyWithin_append (List.forall_mem_nil _) h [] (Nat.zero_le _)

end Reader

open Reader

variable {c : Char} {cs rest text name : List Char}

theorem spaces_append (htext : ∀ c ∈ text, isSpace c = true)
    (hrest : ∀ c, rest.head? = some c → isSpace c = false) :
    spaces (text ++ rest) = some ((), rest) :=
  bind_some (run_append htext hrest)

theorem spaces_none (h : ∀ c, cs.head? = some c → isSpace c = false) :
    spaces cs = some ((), cs) := spaces_append (List.forall_mem_nil _) h

theorem isBareKeyChar_of_isSpace (h : isSpace c = true) : isBareKeyChar c = false := by
  simp only [isSpace, Bool.or_eq_true, beq_iff_eq] at h
  obtain rfl | rfl := h <;> decide

/-- A key that is written without quotes. -/
structure IsBareKey (name : List Char) : Prop where
  ne_nil : name ≠ []
  bare : ∀ c ∈ name, isBareKeyChar c = true

theorem IsBareKey.of_all (h : (!name.isEmpty && name.all isBareKeyChar) = true) :
    IsBareKey name := by
  obtain ⟨hne, hbare⟩ := (Bool.and_eq_true _ _).mp h
  exact ⟨by simpa using hne, List.all_eq_true.mp hbare⟩

theorem IsBareKey.head_ne (h : IsBareKey name) (hc : isBareKeyChar c = false) (rest : List Char) :
    (name ++ rest).head? ≠ some c := by
  obtain ⟨d, ds, rfl⟩ := List.exists_cons_of_ne_nil h.ne_nil
  intro heq
  obtain rfl := Option.some.inj heq
  have hbare := h.bare d (List.mem_cons_self ..)
  rw [hc] at hbare
  cases hbare

theorem IsBareKey.isSpace_head (h : IsBareKey name) (rest : List Char) :
    ∀ c, (name ++ rest).head? = some c → isSpace c = false := by
  intro c hc
  rw [← Bool.not_eq_true]
  exact fun hspace => h.head_ne (isBareKeyChar_of_isSpace hspace) rest hc

theorem keyPart_append (h : IsBareKey name)
    (hrest : ∀ c, rest.head? = some c → isBareKeyChar c = false) :
    keyPart (name ++ rest) = some (String.ofList name, rest) := by
  have hbasic : basicString (name ++ rest) = none :=
    Reader.bind_none (char_none (h.head_ne (by decide) rest))
  have hliteral : literalString (name ++ rest) = none :=
    Reader.bind_none (char_none (h.head_ne (by decide) rest))
  rw [keyPart, or_none hbasic, or_none hliteral]
  obtain ⟨c, name, rfl⟩ := List.exists_cons_of_ne_nil h.ne_nil
  obtain ⟨hc, hname⟩ := List.forall_mem_cons.mp h.bare
  exact (bind_some (satisfy_cons hc)).trans (bind_some (run_append hname hrest))

/-- A key of one part, up to the mark behind it, before which there may be spaces. -/
theorem key_append (h : IsBareKey name) {space : List Char}
    (hspace : ∀ c ∈ space, isSpace c = true) (hmark : isSpace c = false)
    (hbare : isBareKeyChar c = false) (hdot : c ≠ '.') :
    key (name ++ (space ++ c :: rest)) = some (([], String.ofList name), c :: rest) := by
  have hbehind : spaces (space ++ c :: rest) = some ((), c :: rest) := by
    refine spaces_append hspace ?_
    rintro d ⟨⟩
    exact hmark
  have hend : ∀ d, (space ++ c :: rest).head? = some d → isBareKeyChar d = false := by
    intro d hd
    cases space with
    | nil => exact Option.some.inj hd ▸ hbare
    | cons e space =>
      obtain rfl := Option.some.inj hd
      exact isBareKeyChar_of_isSpace (hspace e (List.mem_cons_self ..))
  have hlast : many (do
      spaces
      char '.'
      spaces
      keyPart) (space ++ c :: rest) = some ([], space ++ c :: rest) := by
    refine many_none ((bind_some hbehind).trans (Reader.bind_none (char_none ?_)))
    rintro ⟨⟩
    exact hdot rfl
  rw [key, bind_some (spaces_none (h.isSpace_head _)), bind_some (keyPart_append h hend),
    bind_some hlast, bind_some hbehind]
  rfl

theorem basicString_append (htext : ∀ c ∈ text, isPlain c = true) (rest : List Char) :
    basicString ('"' :: (text ++ '"' :: rest)) = some (String.ofList text, rest) := by
  have hend : (satisfy isPlain <|> escape) ('"' :: rest) = none := by rfl
  have hpieces : ∀ piece ∈ text.map fun c => ([c], c), piece.1 ≠ [] ∧
      ∀ rest, (satisfy isPlain <|> escape) (piece.1 ++ rest) = some (piece.2, rest) := by
    intro piece hpiece
    obtain ⟨c, hc, rfl⟩ := List.mem_map.mp hpiece
    exact ⟨List.cons_ne_nil _ _, fun rest => or_some (satisfy_cons (htext c hc))⟩
  have hmany := many_append hpieces hend
  rw [List.flatMap_map, List.map_map] at hmany
  have hmany' : many (satisfy isPlain <|> escape) (text ++ '"' :: rest) =
      some (text, '"' :: rest) := by simpa [Function.comp_def] using hmany
  rw [basicString, bind_some char_cons, bind_some hmany', bind_some char_cons]
  rfl

theorem value_of_scalar {v : Value} (h : scalar cs = some (v, rest)) (depth : Nat) :
    value depth cs = some (v, rest) := by
  cases depth with
  | zero => exact h
  | succ depth => exact or_some h

/-- A string with something in it is no string of several lines. -/
theorem value_string (hne : text ≠ []) (htext : ∀ c ∈ text, isPlain c = true) (rest : List Char)
    (depth : Nat) : value depth ('"' :: (text ++ '"' :: rest)) =
      some (.string (String.ofList text), rest) := by
  have hlong : longBasicString ('"' :: (text ++ '"' :: rest)) = none := by
    obtain ⟨c, text, rfl⟩ := List.exists_cons_of_ne_nil hne
    have hc : c ≠ '"' := by
      rintro rfl
      exact absurd (htext '"' (List.mem_cons_self ..)) (by decide)
    refine Reader.bind_none ((bind_some char_cons).trans (Reader.bind_none (char_none ?_)))
    exact fun heq => hc (Option.some.inj heq)
  have hliteral : longLiteralString ('"' :: (text ++ '"' :: rest)) = none := by rfl
  have hstring : string ('"' :: (text ++ '"' :: rest)) = some (String.ofList text, rest) := by
    rw [string, or_none hlong, or_none hliteral]
    exact or_some (basicString_append htext rest)
  exact value_of_scalar (or_some (map_some hstring)) depth

theorem value_boolean (b : Bool) (rest : List Char) (depth : Nat) :
    value depth ((if b then "true" else "false").toList ++ rest) = some (.boolean b, rest) := by
  refine value_of_scalar ?_ depth
  cases b <;> rfl

/-! ## Lines and documents -/

theorem statementLine_of_statement {s : Statement}
    (hspace : ∀ c, cs.head? = some c → isSpace c = false)
    (h : statement cs = some (s, '\n' :: rest)) : statementLine cs = some (some s, rest) := by
  have hend : trailing ('\n' :: rest) = some ((), rest) := by rfl
  rw [statementLine, bind_some (spaces_none hspace)]
  exact or_some ((bind_some h).trans (bind_some hend))

theorem statementLine_define (h : IsBareKey name) (rest : List Char) :
    statementLine ('[' :: (name ++ ']' :: '\n' :: rest)) =
      some (some (.define ([], String.ofList name)), rest) := by
  have helement : exactly ['[', '['] ('[' :: (name ++ ']' :: '\n' :: rest)) = none :=
    (bind_some char_cons).trans (Reader.bind_none (char_none (h.head_ne (by decide) _)))
  have hkey : key (name ++ ([] ++ ']' :: '\n' :: rest)) = _ :=
    key_append h (List.forall_mem_nil _) (by decide) (by decide) (by decide)
  refine statementLine_of_statement (by rintro c ⟨⟩; decide) ?_
  rw [statement, or_none (Reader.bind_none helement)]
  exact or_some ((bind_some char_cons).trans ((bind_some hkey).trans (bind_some char_cons)))

/-- An assignment as it is written on a line, with what its text is read as. -/
structure Assignment where
  key : List Char
  text : List Char
  value : Value
  bare : IsBareKey key
  opens : ∀ rest c, (text ++ rest).head? = some c → isSpace c = false
  reads : ∀ rest, Toml.value depthLimit (text ++ rest) = some (value, rest)

namespace Assignment

def line (a : Assignment) : List Char := a.key ++ ' ' :: '=' :: ' ' :: (a.text ++ ['\n'])

def statement (a : Assignment) : Statement := .assign ([], String.ofList a.key) a.value

def entry (a : Assignment) : String × Value := (String.ofList a.key, a.value)

theorem statementLine_line (a : Assignment) (rest : List Char) :
    statementLine (a.line ++ rest) = some (some a.statement, rest) := by
  have hline : a.line ++ rest = a.key ++ ([' '] ++ '=' :: ' ' :: (a.text ++ '\n' :: rest)) := by
    simp [line]
  have helement : exactly ['[', '['] (a.line ++ rest) = none :=
    hline ▸ Reader.bind_none (char_none (a.bare.head_ne (by decide) _))
  have hheader : char '[' (a.line ++ rest) = none :=
    hline ▸ char_none (a.bare.head_ne (by decide) _)
  have hblank : ∀ c ∈ [' '], isSpace c = true := List.forall_mem_singleton.mpr rfl
  have hkey : Toml.key (a.key ++ ([' '] ++ '=' :: ' ' :: (a.text ++ '\n' :: rest))) = _ :=
    key_append a.bare hblank (by decide) (by decide) (by decide)
  have hspace : spaces (' ' :: (a.text ++ '\n' :: rest)) = some ((), a.text ++ '\n' :: rest) :=
    spaces_append hblank (a.opens _)
  refine statementLine_of_statement (hline ▸ a.bare.isSpace_head _) ?_
  rw [Toml.statement, or_none (Reader.bind_none helement), or_none (Reader.bind_none hheader),
    hline, bind_some hkey, bind_some char_cons, bind_some hspace, bind_some (a.reads _)]
  rfl

/-- A string with something in it, whose characters all stand for themselves. -/
def ofString (key text : String) (hkey : IsBareKey key.toList) (hne : text.toList ≠ [])
    (htext : ∀ c ∈ text.toList, isPlain c = true) : Assignment where
  key := key.toList
  text := '"' :: (text.toList ++ ['"'])
  value := .string text
  bare := hkey
  opens := by
    rintro rest c ⟨⟩
    decide
  reads rest := by
    have hread := value_string hne htext rest depthLimit
    rw [String.ofList_toList] at hread
    rwa [List.cons_append, List.append_assoc]

@[simp] theorem entry_ofString (key text : String) (hkey : IsBareKey key.toList)
    (hne : text.toList ≠ []) (htext : ∀ c ∈ text.toList, isPlain c = true) :
    (ofString key text hkey hne htext).entry = (key, .string text) :=
  Prod.ext String.ofList_toList rfl

def ofBoolean (key : String) (b : Bool) (hkey : IsBareKey key.toList) : Assignment where
  key := key.toList
  text := (if b then "true" else "false").toList
  value := .boolean b
  bare := hkey
  opens := by
    cases b <;>
    · rintro rest c ⟨⟩
      decide
  reads rest := value_boolean b rest depthLimit

@[simp] theorem entry_ofBoolean (key : String) (b : Bool) (hkey : IsBareKey key.toList) :
    (ofBoolean key b hkey).entry = (key, .boolean b) :=
  Prod.ext String.ofList_toList rfl

end Assignment

/-- A table under its header, with assignments on the lines below. -/
def tableText (name : List Char) (assignments : List Assignment) : List Char :=
  '[' :: (name ++ ']' :: '\n' :: assignments.flatMap Assignment.line)

theorem statements_tableText (h : IsBareKey name) (assignments : List Assignment) :
    statements (tableText name assignments) =
      some (.define ([], String.ofList name) :: assignments.map Assignment.statement, []) := by
  let header := '[' :: (name ++ [']', '\n'])
  let pieces := (header, some (Statement.define ([], String.ofList name))) ::
    assignments.map fun a => (a.line, some a.statement)
  have hpieces : ∀ piece ∈ pieces, piece.1 ≠ [] ∧
      ∀ rest, statementLine (piece.1 ++ rest) = some (piece.2, rest) := by
    refine List.forall_mem_cons.mpr ⟨⟨List.cons_ne_nil _ _, fun rest => ?_⟩, ?_⟩
    · simpa [header] using statementLine_define h rest
    · intro piece hpiece
      obtain ⟨a, -, rfl⟩ := List.mem_map.mp hpiece
      exact ⟨by simp [Assignment.line], a.statementLine_line⟩
  have htext : tableText name assignments = pieces.flatMap (·.1) ++ [] := by
    simp [tableText, pieces, header, List.flatMap_map]
  have hmark : optional (char '\ufeff') (tableText name assignments) =
      some (none, tableText name assignments) := by rfl
  have hend : statementLine [] = none := by rfl
  have hlines := many_append hpieces hend
  rw [← htext] at hlines
  have hassigned : ((assignments.map fun a => (a.line, some a.statement)).map (·.2)).filterMap id =
      assignments.map Assignment.statement := by
    rw [List.map_map, List.filterMap_map]
    exact congrFun List.filterMap_eq_map _
  rw [statements, bind_some hmark, bind_some hlines, ← hassigned]
  rfl

/-- Assignments under a header add entries to its table, each of a key that is new there. -/
theorem foldlM_assignments (table : String) (assignments : List Assignment) (entries : Entries)
    (h : ((entries ++ assignments.map Assignment.entry).map Prod.fst).Nodup) :
    (assignments.map Assignment.statement).foldlM Draft.apply?
        ⟨[(table, .table .header entries)], [table]⟩ =
      some ⟨[(table, .table .header (entries ++ assignments.map Assignment.entry))], [table]⟩ := by
  induction assignments generalizing entries with
  | nil => simp
  | cons a assignments ih =>
    rw [List.map_cons, List.append_cons] at h
    have hkey : a.entry.1 ∉ entries.map Prod.fst := by
      rw [List.map_append, List.map_append, List.append_assoc] at h
      exact fun hmem => (List.nodup_append.mp h).2.2 _ hmem _ (List.mem_cons_self ..) rfl
    have hnew : entries.lookup a.entry.1 = none := by
      refine List.lookup_eq_none_iff.mpr fun entry hentry => bne_iff_ne.mpr ?_
      rintro heq
      exact hkey (List.mem_map.mpr ⟨entry, hentry, heq.symm⟩)
    have happly : Draft.apply? ⟨[(table, .table .header entries)], [table]⟩ a.statement =
        some ⟨[(table, .table .header (entries ++ [a.entry]))], [table]⟩ := by
      rw [Assignment.entry] at hnew
      simp [ Draft.apply?, Assignment.statement, Assignment.entry, Entries.changeAt?,
        Entries.assign?, Entries.addNew?, Entries.replace, hnew]
    have hsplit := List.append_cons entries a.entry (assignments.map Assignment.entry)
    rw [List.map_cons, List.foldlM_cons, happly, List.map_cons, hsplit]
    exact ih _ h

/-- A table that is written is read back as its entries. -/
theorem parse?_tableText (h : IsBareKey name) (assignments : List Assignment)
    (hkeys : ((assignments.map Assignment.entry).map Prod.fst).Nodup) :
    parse? (String.ofList (tableText name assignments)) =
      some [(String.ofList name, .table .header (assignments.map Assignment.entry))] := by
  have hheader : Draft.apply? ⟨[], []⟩ (.define ([], String.ofList name)) =
      some ⟨[(String.ofList name, .table .header [])], [String.ofList name]⟩ := by rfl
  rw [parse?, String.toList_ofList, statements_tableText h]
  change ((Statement.define ([], String.ofList name) ::
    assignments.map Assignment.statement).foldlM Draft.apply? ⟨[], []⟩).bind _ = _
  have hentries := foldlM_assignments (String.ofList name) assignments [] hkeys
  rw [List.foldlM_cons, hheader]
  change (List.foldlM Draft.apply? _ _).bind _ = _
  rw [hentries]
  rfl

end GoTokens.Toml

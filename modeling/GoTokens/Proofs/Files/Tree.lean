import GoTokens.Files.Tree

/-!
What happens to a tree. Where parts lead is told by their names alone (`named`); what is in the
tree only decides whether they can be followed there (`resolve_eq_ok`). Making directories puts
directories where nothing was and changes nothing else (`makeDirectories_grows`). It succeeds
as soon as no file and no long name is in the way (`makeDirectories_ok`), and afterwards the
parts can be followed, whichever of them were missing.
-/

namespace GoTokens.FileTree

variable {t t' : FileTree} {here : Location} {parts : List String}

@[simp] theorem entry?_nil (t : FileTree) : t.entry? [] = some .directory := rfl

theorem entry?_of_ne_nil {l : Location} (hl : l ≠ []) : t.entry? l = t.entries.lookup l := by
  unfold entry?
  rw [if_neg (by simpa using hl)]

theorem lookup_replace (entries : List (Location × FileEntry)) (l k : Location)
    (entry : FileEntry) :
    (entries.map fun e => if e.1 = l then (l, entry) else e).lookup k =
      if k = l ∧ (entries.lookup l).isSome then some entry else entries.lookup k := by
  induction entries with
  | nil => simp
  | cons e entries ih =>
    obtain ⟨name, old⟩ := e
    rw [List.map_cons]
    by_cases hname : name = l
    · subst hname
      by_cases hk : k = name
      · simp [hk]
      · simp [List.lookup_cons, beq_false_of_ne hk, ih, hk]
    · have hname' : (l == name) = false := beq_false_of_ne (Ne.symm hname)
      simp only [if_neg hname, List.lookup_cons, ih, hname']
      by_cases hk : k = name
      · subst hk
        simp [hname]
      · simp [beq_false_of_ne hk]

/-- Putting something at a location changes what is there and nothing else. -/
theorem entry?_put {l : Location} (hl : l ≠ []) (entry : FileEntry) (k : Location) :
    FileTree.entry? (t.put l entry) k = if k = l then some entry else t.entry? k := by
  by_cases hk : k = []
  · subst hk
    rw [entry?_nil, entry?_nil, if_neg (Ne.symm hl)]
  rw [entry?_of_ne_nil hk, entry?_of_ne_nil hk, put]
  split
  · rename_i hsome
    rw [lookup_replace]
    simp [hsome]
  · rename_i hnone
    rw [List.lookup_append]
    by_cases hkl : k = l
    · subst hkl
      have hlookup : t.entries.lookup k = none := Option.not_isSome_iff_eq_none.mp hnone
      simp [hlookup]
    · simp [List.lookup_cons, beq_false_of_ne hkl, hkl]

/-! ## Following parts -/

/-- Where parts lead by their names alone. -/
def named (here : Location) (parts : List String) : Location := parts.foldl step here

/-- Something holds of each part and of the location that it is taken from. -/
def Along (P : Location → String → Prop) : Location → List String → Prop
  | _, [] => True
  | here, part :: parts => P here part ∧ Along P (step here part) parts

theorem named_append (here : Location) (as bs : List String) :
    named here (as ++ bs) = named (named here as) bs := List.foldl_append

theorem Along.append {P : Location → String → Prop} {as bs : List String} :
    Along P here (as ++ bs) ↔ Along P here as ∧ Along P (named here as) bs := by
  induction as generalizing here with
  | nil => simp [Along, named]
  | cons part as ih => simp only [List.cons_append, Along, ih, and_assoc]; rfl

theorem Along.mono {P Q : Location → String → Prop} (hPQ : ∀ l part, P l part → Q l part)
    (h : Along P here parts) : Along Q here parts := by
  induction parts generalizing here with
  | nil => trivial
  | cons part parts ih => exact ⟨hPQ _ _ h.1, ih h.2⟩

/-- A directory is there to take a part that is short enough. -/
def Passes (t : FileTree) (l : Location) (part : String) : Prop :=
  t.entry? l = some .directory ∧ part.utf8ByteSize ≤ Path.partLimit

def Free (t : FileTree) (l : Location) : Prop := ∀ content, t.entry? l ≠ some (.file content)

/-- A directory could be there to take a part. -/
def Clear (t : FileTree) (l : Location) (part : String) : Prop :=
  t.Free l ∧ part.utf8ByteSize ≤ Path.partLimit

theorem free_iff {l : Location} :
    t.Free l ↔ t.entry? l = some .directory ∨ t.entry? l = none := by
  unfold Free
  match t.entry? l with
  | none => simp
  | some .directory => simp
  | some (.file content) => simp

theorem Passes.clear {l : Location} {part : String} (h : t.Passes l part) : t.Clear l part :=
  ⟨free_iff.mpr (.inl h.1), h.2⟩

/-- Parts can be followed if there is a directory for each of them, and lead where their names
say. -/
theorem resolve_eq_ok {l : Location} :
    t.resolve here parts = .ok l ↔ Along t.Passes here parts ∧ l = named here parts := by
  induction parts generalizing here with
  | nil => simp [resolve, Along, named, eq_comm]
  | cons part parts ih =>
    simp only [resolve, Along, Passes]
    match hentry : t.entry? here with
    | none => simp
    | some (.file content) => simp
    | some .directory =>
      by_cases hsize : part.utf8ByteSize ≤ Path.partLimit
      · simp only [hsize, if_true, ih, true_and]
        rfl
      · simp [hsize]

/-- Parts that nothing but missing directories are in the way of lead through one of those. -/
theorem exists_missing (hclear : Along t.Clear here parts)
    (hmissing : ¬ Along t.Passes here parts) :
    ∃ before after, parts = before ++ after ∧ t.entry? (named here before) = none := by
  induction parts generalizing here with
  | nil => exact absurd trivial hmissing
  | cons part parts ih =>
    obtain ⟨⟨hfree, hsize⟩, hclear⟩ := hclear
    rcases free_iff.mp hfree with hentry | hentry
    · have hrest : ¬ Along t.Passes (step here part) parts := fun h => hmissing ⟨⟨hentry, hsize⟩, h⟩
      obtain ⟨before, after, rfl, hnone⟩ := ih hclear hrest
      exact ⟨part :: before, after, rfl, hnone⟩
    · exact ⟨[], part :: parts, rfl, hentry⟩

/-- What is missing is noticed before anything else is wrong. -/
theorem resolve_of_missing (hclear : Along t.Clear here parts)
    (hmissing : ¬ Along t.Passes here parts) : t.resolve here parts = .error .notFound := by
  induction parts generalizing here with
  | nil => exact absurd trivial hmissing
  | cons part parts ih =>
    obtain ⟨⟨hfree, hsize⟩, hclear⟩ := hclear
    rcases free_iff.mp hfree with hentry | hentry
    · have hrest : ¬ Along t.Passes (step here part) parts := fun h => hmissing ⟨⟨hentry, hsize⟩, h⟩
      simp only [resolve, hentry, if_pos hsize]
      exact ih hclear hrest
    · simp only [resolve, hentry]

theorem resolve_of_not_passes (h : ¬ Along t.Passes here parts) :
    ∃ fault, t.resolve here parts = .error fault := by
  cases hresolve : t.resolve here parts with
  | ok l => exact absurd (resolve_eq_ok.mp hresolve).1 h
  | error fault => exact ⟨fault, rfl⟩

theorem find_eq_ok {entry : FileEntry} : t.find here parts = .ok entry ↔
    Along t.Passes here parts ∧ t.entry? (named here parts) = some entry := by
  by_cases hpasses : Along t.Passes here parts
  · simp only [find, resolve_eq_ok.mpr ⟨hpasses, rfl⟩, hpasses, true_and]
    cases t.entry? (named here parts) <;> simp
  · obtain ⟨fault, hresolve⟩ := resolve_of_not_passes hpasses
    simp [find, hresolve, hpasses]

theorem isDirectory_iff : t.isDirectory here parts = true ↔
    Along t.Passes here parts ∧ t.entry? (named here parts) = some .directory := by
  rw [← find_eq_ok, isDirectory]
  split
  · rename_i hfind
    simp [hfind]
  · rename_i hother
    simpa using hother

theorem isThere_iff : t.isThere here parts = true ↔
    Along t.Passes here parts ∧ ∃ entry, t.entry? (named here parts) = some entry := by
  simp only [← exists_and_left, ← find_eq_ok, isThere]
  cases t.find here parts <;> simp [Except.isOk, Except.toBool]

theorem start_of_passes (h : Along t.Passes here parts)
    (hlast : t.entry? (named here parts) = some .directory) :
    t.entry? here = some .directory := by
  cases parts with
  | nil => exact hlast
  | cons part parts => exact h.1.1

theorem named_filter (here : Location) (parts : List String) :
    named here (parts.filter (· ≠ ".")) = named here parts := by
  induction parts generalizing here with
  | nil => rfl
  | cons part parts ih =>
    by_cases hdot : part = "."
    · subst hdot
      exact ih here
    · rw [List.filter_cons_of_pos (by simpa using hdot)]
      exact ih (step here part)

theorem Along.filter {P : Location → String → Prop} (h : Along P here parts) :
    Along P here (parts.filter (· ≠ ".")) := by
  induction parts generalizing here with
  | nil => trivial
  | cons part parts ih =>
    by_cases hdot : part = "."
    · subst hdot
      exact ih h.2
    · rw [List.filter_cons_of_pos (by simpa using hdot)]
      exact ⟨h.1, ih h.2⟩

/-- The part `.` can be taken wherever the other parts can, if they lead to a directory. -/
theorem passes_of_filter (h : Along t.Passes here (parts.filter (· ≠ ".")))
    (hlast : t.entry? (named here parts) = some .directory) : Along t.Passes here parts := by
  induction parts generalizing here with
  | nil => trivial
  | cons part parts ih =>
    by_cases hdot : part = "."
    · subst hdot
      have hrest : Along t.Passes here (parts.filter (· ≠ ".")) := h
      have hstart : t.entry? here = some .directory :=
        start_of_passes hrest ((congrArg t.entry? (named_filter here parts)).trans hlast)
      exact ⟨⟨hstart, by decide⟩, ih hrest hlast⟩
    · rw [List.filter_cons_of_pos (by simpa using hdot)] at h
      exact ⟨h.1, ih h.2 hlast⟩

/-! ## Making directories -/

/-- Directories have been put where nothing was, and nothing else has changed. -/
def Grows (t t' : FileTree) : Prop :=
  ∀ l, t'.entry? l = t.entry? l ∨ t.entry? l = none ∧ t'.entry? l = some .directory

theorem Grows.refl (t : FileTree) : t.Grows t := fun _ => .inl rfl

theorem Grows.trans {t'' : FileTree} (h : t.Grows t') (h' : t'.Grows t'') : t.Grows t'' := by
  intro l
  rcases h l with heq | ⟨hnone, hdir⟩
  · rw [← heq]
    exact h' l
  · rcases h' l with heq' | ⟨hnone', -⟩
    · exact .inr ⟨hnone, heq'.trans hdir⟩
    · rw [hdir] at hnone'
      cases hnone'

theorem Grows.put {l : Location} (h : t.entry? l = none) : t.Grows (t.put l .directory) := by
  have hl : l ≠ [] := by
    rintro rfl
    cases h
  intro k
  rw [entry?_put hl]
  by_cases hk : k = l
  · subst hk
    exact .inr ⟨h, if_pos rfl⟩
  · exact .inl (if_neg hk)

theorem Grows.directory (h : t.Grows t') {l : Location} (hl : t.entry? l = some .directory) :
    t'.entry? l = some .directory := by
  rcases h l with heq | ⟨hnone, -⟩
  · rw [heq, hl]
  · rw [hl] at hnone
    cases hnone

theorem Grows.file_iff (h : t.Grows t') {l : Location} {content : ByteArray} :
    t'.entry? l = some (.file content) ↔ t.entry? l = some (.file content) := by
  rcases h l with heq | ⟨hnone, hdir⟩
  · rw [heq]
  · rw [hnone, hdir]
    simp

theorem Grows.free_iff (h : t.Grows t') {l : Location} : t'.Free l ↔ t.Free l :=
  forall_congr' fun _ => not_congr h.file_iff

theorem Grows.passes (h : t.Grows t') (hpasses : Along t.Passes here parts) :
    Along t'.Passes here parts :=
  hpasses.mono fun _ _ hp => ⟨h.directory hp.1, hp.2⟩

theorem Grows.clear_iff (h : t.Grows t') : Along t'.Clear here parts ↔ Along t.Clear here parts :=
  ⟨fun hc => hc.mono fun _ _ hp => ⟨h.free_iff.mp hp.1, hp.2⟩,
    fun hc => hc.mono fun _ _ hp => ⟨h.free_iff.mpr hp.1, hp.2⟩⟩

theorem makeDirectory_eq_ok (h : t.makeDirectory here parts = .ok t') :
    Along t.Passes here parts ∧ t.entry? (named here parts) = none ∧
      t' = t.put (named here parts) .directory := by
  unfold makeDirectory at h
  split at h
  · cases h
  · rename_i l hresolve
    obtain ⟨hpasses, rfl⟩ := resolve_eq_ok.mp hresolve
    split at h
    · cases h
    · rename_i hnone
      cases h
      exact ⟨hpasses, hnone, rfl⟩

theorem haveDirectory_grows (t : FileTree) (here : Location) (parts : List String) :
    t.Grows (t.haveDirectory here parts).2 := by
  unfold haveDirectory
  split
  · rename_i hmade
    obtain ⟨-, hnone, rfl⟩ := makeDirectory_eq_ok hmade
    exact .put hnone
  · exact .refl t

theorem haveDirectory_isDirectory (h : (t.haveDirectory here parts).1 = .ok ()) :
    (t.haveDirectory here parts).2.isDirectory here parts = true := by
  unfold haveDirectory at h ⊢
  split
  · rename_i hmade
    obtain ⟨hpasses, hnone, rfl⟩ := makeDirectory_eq_ok hmade
    have hne : named here parts ≠ [] := by
      intro hnil
      rw [hnil] at hnone
      cases hnone
    exact isDirectory_iff.mpr
      ⟨(Grows.put hnone).passes hpasses, by rw [entry?_put hne, if_pos rfl]⟩
  · rename_i hfault
    rw [hfault] at h
    simp only at h ⊢
    split at h
    · assumption
    · cases h

theorem haveDirectory_ok (hpasses : Along t.Passes here parts)
    (hfree : t.Free (named here parts)) : (t.haveDirectory here parts).1 = .ok () := by
  have hresolve := resolve_eq_ok.mpr ⟨hpasses, rfl⟩
  rcases free_iff.mp hfree with hdir | hnone
  · have hthere := isDirectory_iff.mpr ⟨hpasses, hdir⟩
    have hmade : t.makeDirectory here parts = .error .alreadyExists := by
      simp only [makeDirectory, hresolve, hdir]
    simp only [haveDirectory, hmade, if_pos hthere]
  · have hmade : t.makeDirectory here parts = .ok (t.put (named here parts) .directory) := by
      simp only [makeDirectory, hresolve, hnone]
    simp only [haveDirectory, hmade]

theorem haveDirectory_of_fault {fault : FileFault} (h : t.resolve here parts = .error fault) :
    t.haveDirectory here parts = (.error fault, t) := by
  have hmade : t.makeDirectory here parts = .error fault := by
    simp only [makeDirectory, h]
  have hnot : t.isDirectory here parts = false := by
    simp only [isDirectory, find, h]
  simp only [haveDirectory, hmade, hnot, Bool.false_eq_true, if_false]

theorem haveDirectory_error {fault : FileFault}
    (h : (t.haveDirectory here parts).1 = .error fault) : (t.haveDirectory here parts).2 = t := by
  unfold haveDirectory at h ⊢
  split
  · rename_i hmade
    rw [hmade] at h
    cases h
  · rfl

section

variable {last : String} {before : List String}

theorem makeDirectories_of_first
    (h : (t.haveDirectory here (last :: before).reverse).1 ≠ .error .notFound) :
    makeDirectories here (last :: before) t = t.haveDirectory here (last :: before).reverse := by
  rw [makeDirectories]
  split
  · rename_i t₁ hfirst
    exact absurd (congrArg Prod.fst hfirst) h
  · rfl

theorem makeDirectories_of_missing
    (h : (t.haveDirectory here (last :: before).reverse).1 = .error .notFound) :
    makeDirectories here (last :: before) t =
      match makeDirectories here before t with
      | (.ok (), t₁) => t₁.haveDirectory here (last :: before).reverse
      | failed => failed := by
  have hfirst : t.haveDirectory here (last :: before).reverse = (.error .notFound, t) :=
    Prod.ext h (haveDirectory_error h)
  rw [makeDirectories]
  split
  · rename_i t₁ hmissing
    obtain rfl : t = t₁ := congrArg Prod.snd (hfirst.symm.trans hmissing)
    rfl
  · rename_i hother
    exact absurd hfirst (hother t)

/-- The directories before the last part have been made, and the last one is tried again. -/
theorem makeDirectories_of_made
    (h : (t.haveDirectory here (last :: before).reverse).1 = .error .notFound)
    (hmade : (makeDirectories here before t).1 = .ok ()) :
    makeDirectories here (last :: before) t =
      (makeDirectories here before t).2.haveDirectory here (last :: before).reverse := by
  have hbefore : makeDirectories here before t = (.ok (), (makeDirectories here before t).2) :=
    Prod.ext hmade rfl
  rw [makeDirectories_of_missing h, hbefore]

/-- What the tree comes to, and what the result, if the directories before the last part have
been made first. -/
theorem makeDirectories_cases (here : Location) (last : String) (before : List String)
    (t : FileTree) :
    makeDirectories here (last :: before) t = t.haveDirectory here (last :: before).reverse ∨
      (makeDirectories here before t).1 = .ok () ∧ makeDirectories here (last :: before) t =
        (makeDirectories here before t).2.haveDirectory here (last :: before).reverse ∨
      (makeDirectories here before t).1 ≠ .ok () ∧
        makeDirectories here (last :: before) t = makeDirectories here before t := by
  by_cases h : (t.haveDirectory here (last :: before).reverse).1 = .error .notFound
  · by_cases hmade : (makeDirectories here before t).1 = .ok ()
    · exact .inr (.inl ⟨hmade, makeDirectories_of_made h hmade⟩)
    · refine .inr (.inr ⟨hmade, ?_⟩)
      rw [makeDirectories_of_missing h]
      split
      · rename_i hbefore
        exact absurd (congrArg Prod.fst hbefore) hmade
      · rfl
  · exact .inl (makeDirectories_of_first h)

end

theorem makeDirectories_grows (here : Location) (rev : List String) (t : FileTree) :
    t.Grows (makeDirectories here rev t).2 := by
  induction rev with
  | nil => exact .refl t
  | cons last before ih =>
    rcases makeDirectories_cases here last before t with heq | ⟨-, heq⟩ | ⟨-, heq⟩ <;> rw [heq]
    · exact t.haveDirectory_grows here _
    · exact ih.trans (haveDirectory_grows _ here _)
    · exact ih

theorem makeDirectories_isDirectory {rev : List String} (hne : rev ≠ [])
    (h : (makeDirectories here rev t).1 = .ok ()) :
    (makeDirectories here rev t).2.isDirectory here rev.reverse = true := by
  cases rev with
  | nil => exact absurd rfl hne
  | cons last before =>
    rcases makeDirectories_cases here last before t with heq | ⟨-, heq⟩ | ⟨hfailed, heq⟩ <;>
      rw [heq] at h ⊢
    · exact haveDirectory_isDirectory h
    · exact haveDirectory_isDirectory h
    · exact absurd h hfailed

theorem makeDirectories_of_no_start (h : t.entry? here ≠ some .directory) (rev : List String) :
    (makeDirectories here rev t).2 = t := by
  induction rev with
  | nil => rfl
  | cons last before ih =>
    have hnot : ¬ Along t.Passes here (last :: before).reverse := by
      intro hpasses
      cases hparts : (last :: before).reverse with
      | nil => simp at hparts
      | cons part parts =>
        rw [hparts] at hpasses
        exact h hpasses.1.1
    obtain ⟨fault, hresolve⟩ := resolve_of_not_passes hnot
    have hhave : (t.haveDirectory here (last :: before).reverse).2 = t :=
      congrArg Prod.snd (haveDirectory_of_fault hresolve)
    rcases makeDirectories_cases here last before t with heq | ⟨-, heq⟩ | ⟨-, heq⟩ <;> rw [heq]
    · exact hhave
    · rw [ih]
      exact hhave
    · exact ih

/-- Directories can be made from a directory on, if neither files nor long names are in the
way. -/
theorem makeDirectories_ok {rev : List String} (hstart : t.entry? here = some .directory)
    (hclear : Along t.Clear here rev.reverse) (hfree : t.Free (named here rev.reverse)) :
    (makeDirectories here rev t).1 = .ok () := by
  induction rev with
  | nil => rfl
  | cons last before ih =>
    have hparts : (last :: before).reverse = before.reverse ++ [last] := List.reverse_cons
    rw [hparts] at hclear hfree
    obtain ⟨hbefore, ⟨hfreeBefore, hsize⟩, -⟩ := Along.append.mp hclear
    by_cases hpasses : Along t.Passes here (before.reverse ++ [last])
    · have hok := haveDirectory_ok hpasses hfree
      rw [← hparts] at hok
      rw [makeDirectories_of_first (by rw [hok]; exact nofun)]
      exact hok
    · -- Something before the last part is missing, and is made first.
      have hmissing := haveDirectory_of_fault (resolve_of_missing hclear hpasses)
      have hmade := ih hbefore hfreeBefore
      have hgrows := makeDirectories_grows here before t
      rw [← hparts] at hmissing
      rw [makeDirectories_of_made (congrArg Prod.fst hmissing) hmade, hparts]
      refine haveDirectory_ok (Along.append.mpr ?_) (hgrows.free_iff.mpr hfree)
      by_cases hnil : before = []
      · subst hnil
        exact ⟨trivial, ⟨hstart, hsize⟩, trivial⟩
      · obtain ⟨hfollowed, hend⟩ := isDirectory_iff.mp (makeDirectories_isDirectory hnil hmade)
        exact ⟨hfollowed, ⟨hend, hsize⟩, trivial⟩

/-! ## Writing -/

theorem write_eq_ok {content : ByteArray} : t.write here parts content = .ok t' ↔
    Along t.Passes here parts ∧ t.entry? (named here parts) ≠ some .directory ∧
      t' = t.put (named here parts) (.file content) := by
  by_cases hpasses : Along t.Passes here parts
  · simp only [write, resolve_eq_ok.mpr ⟨hpasses, rfl⟩, hpasses, true_and]
    split
    · rename_i hentry
      simp [hentry]
    · rename_i hother
      have hne : t.entry? (named here parts) ≠ some .directory := hother
      simp [hne, eq_comm]
  · obtain ⟨fault, hresolve⟩ := resolve_of_not_passes hpasses
    simp [write, hresolve, hpasses]

def KeepsFiles (t t' : FileTree) : Prop :=
  ∀ l content, t.entry? l = some (.file content) → t'.entry? l = some (.file content)

/-- What is there stands in a directory. -/
def Rooted (t : FileTree) : Prop :=
  ∀ l name, t.entry? (l ++ [name]) ≠ none → t.entry? l = some .directory

/-- Without a part `..`, parts lead from a missing location to a missing one. -/
theorem Rooted.missing (h : t.Rooted) (hparts : ".." ∉ parts) (hnone : t.entry? here = none) :
    t.entry? (named here parts) = none := by
  induction parts generalizing here with
  | nil => exact hnone
  | cons part parts ih =>
    obtain ⟨hpart, hparts⟩ := not_or.mp (mt List.mem_cons.mpr hparts)
    refine ih hparts ?_
    rw [step]
    split
    · exact hnone
    · rw [if_neg (Ne.symm hpart)]
      cases hentry : t.entry? (here ++ [part]) with
      | none => rfl
      | some entry =>
        rw [h here part (hentry ▸ Option.some_ne_none entry)] at hnone
        cases hnone

end GoTokens.FileTree

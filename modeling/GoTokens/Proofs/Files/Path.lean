import GoTokens.Files.Path

/-!
The path of a name in a directory, taken apart. Its last part is the name, and the parts before
it are those of its parent (`parts_join`), up to the parts `.` and the slashes that mean
nothing.
-/

namespace GoTokens.Path

variable {as bs cs name : List Char}

theorem pieces_ne_nil (cs : List Char) : pieces cs ≠ [] := by
  cases cs with
  | nil => exact List.cons_ne_nil _ _
  | cons c cs =>
    simp only [pieces, List.foldr_cons]
    split
    · exact List.cons_ne_nil _ _
    · split <;> exact List.cons_ne_nil _ _

theorem pieces_cons_slash (cs : List Char) : pieces ('/' :: cs) = [] :: pieces cs := rfl

theorem pieces_cons {c : Char} (hc : c ≠ '/') {piece : List Char} {found : List (List Char)}
    (h : pieces cs = piece :: found) : pieces (c :: cs) = (c :: piece) :: found := by
  rw [pieces] at h
  simp only [pieces, List.foldr_cons, if_neg hc, h]

theorem pieces_of_notMem (h : '/' ∉ cs) : pieces cs = [cs] := by
  induction cs with
  | nil => rfl
  | cons c cs ih =>
    obtain ⟨hc, hcs⟩ := not_or.mp (mt List.mem_cons.mpr h)
    exact pieces_cons (Ne.symm hc) (ih hcs)

theorem pieces_append_slash (as bs : List Char) :
    pieces (as ++ '/' :: bs) = pieces as ++ pieces bs := by
  induction as with
  | nil => rfl
  | cons c as ih =>
    rw [List.cons_append]
    by_cases hc : c = '/'
    · subst hc
      rw [pieces_cons_slash, pieces_cons_slash, ih, List.cons_append]
    · obtain ⟨piece, found, hpieces⟩ := List.exists_cons_of_ne_nil (pieces_ne_nil as)
      rw [hpieces, List.cons_append] at ih
      rw [pieces_cons hc ih, pieces_cons hc hpieces, List.cons_append]

def named (cs : List Char) : List String :=
  ((pieces cs).filter (!·.isEmpty)).map String.ofList

theorem parts_eq (path : String) : parts path =
    if path.toList.getLast? = some '/' then named path.toList ++ ["."] else named path.toList :=
  rfl

theorem parts_filter (path : String) :
    (parts path).filter (· ≠ ".") = (named path.toList).filter (· ≠ ".") := by
  rw [parts_eq]
  split
  · rw [List.filter_append]
    exact List.append_nil _
  · rfl

theorem named_append_slash (as bs : List Char) :
    named (as ++ '/' :: bs) = named as ++ named bs := by
  simp only [named, pieces_append_slash, List.filter_append, List.map_append]

theorem named_snoc_slash (cs : List Char) : named (cs ++ ['/']) = named cs := by
  rw [named_append_slash]
  exact List.append_nil _

theorem named_of_notMem (h : '/' ∉ name) (hne : name ≠ []) :
    named name = [String.ofList name] := by
  simp [named, pieces_of_notMem h, hne]

/-- What `trimEnd` takes off the end of a path leads nowhere. -/
theorem named_trimEnd (cs : List Char) :
    (named (trimEnd cs).reverse).filter (· ≠ ".") = (named cs.reverse).filter (· ≠ ".") := by
  induction cs using trimEnd.induct with
  | case1 cs ih =>
    rw [trimEnd, ih, List.reverse_cons, named_snoc_slash]
  | case2 cs ih =>
    have hdot : ('.' :: '/' :: cs).reverse = cs.reverse ++ '/' :: ['.'] := by simp
    rw [trimEnd, ih, hdot, named_append_slash, List.filter_append]
    exact (List.append_nil _).symm
  | case3 cs hslash hdot =>
    rw [trimEnd.eq_3 cs hslash hdot]

theorem trimEnd_suffix (cs : List Char) : trimEnd cs <:+ cs := by
  induction cs using trimEnd.induct with
  | case1 cs ih => exact ih.trans (List.suffix_cons _ _)
  | case2 cs ih => exact ih.trans ((List.suffix_cons _ _).trans (List.suffix_cons _ _))
  | case3 cs hslash hdot =>
    exact (trimEnd.eq_3 cs hslash hdot).symm ▸ List.suffix_rfl

theorem parent_prefix (path : String) : (parent path).toList <+: path.toList := by
  unfold parent
  simp only
  split
  · rename_i hroot
    have hslash := (Bool.and_eq_true_iff.mp hroot).2
    rw [isAbsolute, beq_iff_eq, List.head?_eq_some_iff] at hslash
    obtain ⟨cs, hcs⟩ := hslash
    rw [hcs]
    exact ⟨cs, rfl⟩
  · rw [String.toList_ofList, ← List.reverse_suffix, List.reverse_reverse]
    exact (trimEnd_suffix _).trans (List.dropWhile_suffix _)

theorem fits_parent {path : String} (h : fits path = true) : fits (parent path) = true := by
  obtain ⟨cs, hcs⟩ := parent_prefix path
  have hpath : path = parent path ++ String.ofList cs := by
    rw [← String.toList_inj, String.toList_append, String.toList_ofList, hcs]
  have hsize : path.utf8ByteSize =
      (parent path).utf8ByteSize + (String.ofList cs).utf8ByteSize := by
    rw [← String.utf8ByteSize_append, ← hpath]
  simp only [fits, decide_eq_true_eq] at h ⊢
  omega

theorem isAbsolute_parent (path : String) : isAbsolute (parent path) = isAbsolute path := by
  obtain ⟨cs, hcs⟩ := parent_prefix path
  cases hchars : (parent path).toList with
  | cons c front => rw [isAbsolute, isAbsolute, ← hcs, hchars, List.cons_append]; rfl
  | nil =>
    -- An absolute path has a parent that is not empty.
    have habsolute : isAbsolute path = false := by
      cases hpath : isAbsolute path with
      | false => rfl
      | true =>
        simp only [parent, hpath, Bool.and_true] at hchars
        split at hchars
        · cases hchars
        · rename_i hshort
          rw [String.toList_ofList, List.reverse_eq_nil_iff] at hchars
          exact absurd (List.isEmpty_iff.mpr hchars) hshort
    rw [isAbsolute, hchars, habsolute]
    rfl

/-! ## Joined paths -/

/-- What comes before the name is empty or ends with a slash. -/
theorem toList_join (directory name : String) :
    ∃ before, (join directory name).toList = before ++ name.toList ∧
      (before = [] ∨ ∃ cs, before = cs ++ ['/']) := by
  unfold join
  split
  · rename_i hshort
    refine ⟨directory.toList, String.toList_append, ?_⟩
    rcases (by simpa using hshort : directory = "" ∨ _) with rfl | hlast
    · exact .inl rfl
    · exact .inr (List.getLast?_eq_some_iff.mp hlast)
  · exact ⟨directory.toList ++ ['/'], by simp [String.toList_append], .inr ⟨_, rfl⟩⟩

/-- The parent of a path that ends with a name has the parts before the name. -/
theorem parts_parent {path : String} {before : List Char} (hname : '/' ∉ name)
    (hpath : path.toList = before ++ name) (hbefore : before = [] ∨ ∃ cs, before = cs ++ ['/']) :
    (parts (parent path)).filter (· ≠ ".") = (named before).filter (· ≠ ".") := by
  have hdrop : path.toList.reverse.dropWhile (· ≠ '/') = before.reverse := by
    have hall : ∀ c ∈ name.reverse, decide (c ≠ '/') = true := by
      intro c hc
      have hne : c ≠ '/' := by
        rintro rfl
        exact hname (List.mem_reverse.mp hc)
      simpa using hne
    rw [hpath, List.reverse_append, List.dropWhile_append_of_pos hall]
    rcases hbefore with rfl | ⟨cs, rfl⟩ <;> simp
  have hnamed := named_trimEnd before.reverse
  rw [List.reverse_reverse] at hnamed
  rw [parts_filter, parent, hdrop, ← hnamed]
  split
  · rename_i hroot
    rw [List.isEmpty_iff.mp (Bool.and_eq_true_iff.mp hroot).1]
    rfl
  · rw [String.toList_ofList]

/-- A path that names something in a directory has that name as its last part; the parts before
it are those of its parent. -/
theorem parts_join (directory : String) {name : String} (hname : '/' ∉ name.toList)
    (hne : name ≠ "") :
    ∃ dirs, parts (join directory name) = dirs ++ [name] ∧
      (parts (parent (join directory name))).filter (· ≠ ".") = dirs.filter (· ≠ ".") := by
  obtain ⟨before, hpath, hbefore⟩ := toList_join directory name
  have hnil : name.toList ≠ [] := fun h => hne (String.toList_eq_nil_iff.mp h)
  refine ⟨named before, ?_, parts_parent hname hpath hbefore⟩
  have hlast : (join directory name).toList.getLast? ≠ some '/' := by
    rw [hpath, List.getLast?_append, List.getLast?_eq_some_getLast hnil]
    intro h
    exact hname (Option.some.inj h ▸ List.getLast_mem hnil)
  have hlastName : named name.toList = [name] := by
    rw [named_of_notMem hname hnil, String.ofList_toList]
  rw [parts_eq, if_neg hlast, hpath]
  rcases hbefore with rfl | ⟨cs, rfl⟩
  · rw [List.nil_append, hlastName]
    rfl
  · rw [List.append_assoc, List.singleton_append, named_append_slash, named_snoc_slash, hlastName]

end GoTokens.Path

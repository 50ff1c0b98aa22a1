import GoTokens.Command.Configure
import GoTokens.Proofs.Command.Tokens
import GoTokens.Proofs.Files.Path
import GoTokens.Proofs.Files.Tree

/-!
Writing the default configuration, and what becomes of the files that are there. Whether the
file is there is asked before the directories on the way to it are made, and a path such as
`new/..` can only be followed after they have been made. So without force a file is replaced
after all if it is hidden behind missing directories (`Workspace.Hides`), and in no other case
(`create_keeps_files`).
-/

namespace GoTokens

open FileTree (Along named)

namespace Workspace

variable {w : Workspace} {path : String}

/-- The location that a path names, whether or not it can be followed there. -/
def destination (w : Workspace) (path : String) : Location := named (w.base path) (Path.parts path)

theorem isThere_iff : w.isThere path = true ↔
    Path.fits path = true ∧ Along w.tree.Passes (w.base path) (Path.parts path) ∧
      ∃ entry, w.tree.entry? (w.destination path) = some entry := by
  unfold isThere partsOf
  split
  · rename_i parts hparts
    split at hparts
    · rename_i hfits
      cases hparts
      simp only [hfits, true_and]
      exact FileTree.isThere_iff
    · cases hparts
  · rename_i hparts
    split at hparts
    · cases hparts
    · rename_i hlong
      simp [hlong]

theorem base_parent (w : Workspace) (path : String) : w.base (Path.parent path) = w.base path := by
  rw [base, base, Path.isAbsolute_parent]

theorem makeDirectories_of_fits (h : Path.fits path = true) : w.makeDirectories path =
    ((FileTree.makeDirectories (w.base path) ((Path.parts path).filter (· ≠ ".")).reverse w.tree).1,
      ⟨(FileTree.makeDirectories (w.base path) ((Path.parts path).filter (· ≠ ".")).reverse
        w.tree).2, w.current⟩) := by
  simp only [makeDirectories, partsOf, h, if_true]

theorem makeDirectories_grows (w : Workspace) (path : String) :
    w.tree.Grows (w.makeDirectories path).2.tree ∧
      (w.makeDirectories path).2.current = w.current := by
  by_cases h : Path.fits path = true
  · rw [makeDirectories_of_fits h]
    exact ⟨FileTree.makeDirectories_grows _ _ _, rfl⟩
  · simp only [makeDirectories, partsOf, h]
    exact ⟨.refl _, rfl⟩

/-- What is written stands at the destination, which a path that fits can be followed to. -/
theorem writeText_cases (w : Workspace) (path text : String) :
    (w.writeText path text).2 = w ∨
      Path.fits path = true ∧ Along w.tree.Passes (w.base path) (Path.parts path) ∧
        w.tree.entry? (w.destination path) ≠ some .directory ∧
        (w.writeText path text).2.tree =
          w.tree.put (w.destination path) (.file text.toUTF8) := by
  by_cases hfits : Path.fits path = true
  · simp only [writeText, partsOf, hfits, if_true]
    split
    · rename_i tree hwrite
      obtain ⟨hpasses, hentry, rfl⟩ := FileTree.write_eq_ok.mp hwrite
      exact .inr ⟨trivial, hpasses, hentry, rfl⟩
    · exact .inl rfl
  · simp only [writeText, partsOf, hfits]
    exact .inl rfl

theorem writeText_of_passes (text : String) (hfits : Path.fits path = true)
    (hpasses : Along w.tree.Passes (w.base path) (Path.parts path))
    (hentry : w.tree.entry? (w.destination path) ≠ some .directory) :
    (w.writeText path text).2.tree = w.tree.put (w.destination path) (.file text.toUTF8) := by
  have hwrite : w.tree.write (w.base path) (Path.parts path) text.toUTF8 = .ok _ :=
    FileTree.write_eq_ok.mpr ⟨hpasses, hentry, rfl⟩
  simp only [writeText, partsOf, hfits, if_true, hwrite]
  rfl

/-- A path names a file that it cannot be followed to, and nothing but missing directories is
in the way. -/
structure Hides (w : Workspace) (path : String) : Prop where
  unseen : w.isThere path = false
  fits : Path.fits path = true
  start : w.tree.entry? (w.base path) = some .directory
  clear : Along w.tree.Clear (w.base path) (Path.parts path)
  file : ∃ content, w.tree.entry? (w.destination path) = some (.file content)

/-- In a tree where everything stands in a directory, a file can only be hidden behind a part
`..`. -/
theorem Hides.mem_parts (h : w.Hides path) (hrooted : w.tree.Rooted) : ".." ∈ Path.parts path := by
  by_contra hparts
  obtain ⟨content, hfile⟩ := h.file
  have hmissing : ¬ Along w.tree.Passes (w.base path) (Path.parts path) := by
    intro hpasses
    have hthere := isThere_iff.mpr ⟨h.fits, hpasses, _, hfile⟩
    rw [h.unseen] at hthere
    cases hthere
  obtain ⟨before, after, hsplit, hnone⟩ := FileTree.exists_missing h.clear hmissing
  have hafter : ".." ∉ after := fun hmem => hparts (hsplit ▸ List.mem_append_right _ hmem)
  have hend := hrooted.missing hafter hnone
  rw [← FileTree.named_append, ← hsplit] at hend
  rw [destination, hend] at hfile
  cases hfile

end Workspace

namespace Command

variable {w w₁ : Workspace} {t : Transcript} {path : String} {settings : Settings}

theorem on_makeDirectories (path : String) :
    Session.on (Session.onFiles (FileStore.makeDirectories path)) t w =
      ((.ok (w.makeDirectories path).1, t), (w.makeDirectories path).2) := Session.on_onFiles _

theorem on_writeText (path text : String) :
    Session.on (Session.onFiles (FileStore.writeText path text)) t w =
      ((.ok (w.writeText path text).1, t), (w.writeText path text).2) := Session.on_onFiles _

theorem on_isThere (path : String) :
    Session.on (Session.onFiles (FileStore.isThere path)) t w = ((.ok (w.isThere path), t), w) :=
  Session.on_onFiles _

theorem on_saveTo_fault {fault : FileFault}
    (h : w.makeDirectories (Path.parent path) = (.error fault, w₁)) :
    Session.on (saveTo path settings) t w = ((.error (.file none fault), t), w₁) := by
  have hmake := on_makeDirectories (t := t) (w := w) (Path.parent path)
  rw [h] at hmake
  rw [saveTo, Session.on_bind_ok _ hmake, Session.on_bind_error _ (Session.on_orFail_error _ _)]

theorem on_saveTo_made (h : w.makeDirectories (Path.parent path) = (.ok (), w₁)) :
    Session.on (saveTo path settings) t w =
      Session.on (Session.orFail none (w₁.writeText path (Configuration.write settings)).1) t
        (w₁.writeText path (Configuration.write settings)).2 := by
  have hmake := on_makeDirectories (t := t) (w := w) (Path.parent path)
  rw [h] at hmake
  rw [saveTo, Session.on_bind_ok _ hmake, Session.on_bind_ok _ (Session.on_orFail_ok _ _),
    Session.on_bind_ok _ (on_writeText path _)]

theorem on_orFail_files {α : Type} (source : Option String) (result : Except FileFault α) :
    (Session.on (Session.orFail source result) t w).2 = w := by
  cases result <;> rfl

abbrev createdPath (directory : Option String) : String :=
  Path.join (directory.getD ".") configurationName

theorem leaves_create_there {directory : Option String}
    (h : w.isThere (createdPath directory) = true) :
    leaves w (create directory false) =
      ((.error (.configurationExists (createdPath directory)), .empty), w) := by
  have hthere := on_isThere (t := .empty) (w := w) (createdPath directory)
  rw [h] at hthere
  rw [leaves, Session.outcome_run, create, Session.on_bind_ok _ hthere]
  simp only [Bool.not_false, Bool.and_self, if_true]
  exact Session.on_bind_error _ (Session.on_throw (.configurationExists (createdPath directory)))

/-- Of what is done after a file has been found missing, only the saving concerns files. -/
theorem leaves_create_missing {directory : Option String}
    (h : w.isThere (createdPath directory) = false) :
    (leaves w (create directory false)).2 =
      (Session.on (saveTo (createdPath directory) {}) .empty w).2 := by
  have hthere := on_isThere (t := .empty) (w := w) (createdPath directory)
  rw [h] at hthere
  rw [leaves, Session.outcome_run, create, Session.on_bind_ok _ hthere]
  simp only [Bool.false_and, Bool.false_eq_true, if_false]
  exact Session.on_bind_files fun _ _ _ => by
    rw [Session.on_bind_ok _ (Session.on_report _), Session.on_print]

theorem parts_createdPath (directory : Option String) :
    ∃ dirs, Path.parts (createdPath directory) = dirs ++ [configurationName] ∧
      (Path.parts (Path.parent (createdPath directory))).filter (· ≠ ".") =
        dirs.filter (· ≠ ".") :=
  Path.parts_join _ (by decide) (by decide)

/-- A file keeps its content, unless it is the one that the path names and is hidden. -/
theorem create_keeps_or_hides {directory : Option String} {l : Location} {content : ByteArray}
    (hfile : w.tree.entry? l = some (.file content)) :
    FileTree.entry? (leaves w (create directory false)).2.tree l = some (.file content) ∨
      w.Hides (createdPath directory) ∧ l = w.destination (createdPath directory) := by
  cases hthere : w.isThere (createdPath directory) with
  | true =>
    rw [leaves_create_there hthere]
    exact .inl hfile
  | false =>
    rw [leaves_create_missing hthere]
    obtain ⟨hgrows, hcurrent⟩ := w.makeDirectories_grows (Path.parent (createdPath directory))
    match hmade : w.makeDirectories (Path.parent (createdPath directory)) with
    | (.error fault, w₁) =>
      rw [hmade] at hgrows
      rw [on_saveTo_fault hmade]
      exact .inl (hgrows.file_iff.mpr hfile)
    | (.ok (), w₁) =>
      rw [hmade] at hgrows hcurrent
      have hkept := hgrows.file_iff.mpr hfile
      rw [on_saveTo_made hmade, on_orFail_files]
      have hbase : w₁.base (createdPath directory) = w.base (createdPath directory) := by
        rw [Workspace.base, hcurrent, Workspace.base]
      rcases w₁.writeText_cases (createdPath directory) (Configuration.write {}) with
        hsame | ⟨hfits, hpasses, hentry, htree⟩
      · rw [hsame]
        exact .inl hkept
      · have hne : w₁.destination (createdPath directory) ≠ [] := by
          intro hnil
          rw [hnil] at hentry
          exact hentry rfl
        rw [htree, FileTree.entry?_put hne]
        by_cases hl : l = w₁.destination (createdPath directory)
        · rw [Workspace.destination, hbase] at hl
          rw [hbase] at hpasses
          refine .inr ⟨⟨hthere, hfits, ?start, ?clear, content, ?file⟩, hl⟩
          case start =>
            by_contra hstart
            have hsame : w₁.tree = w.tree := by
              rw [Workspace.makeDirectories_of_fits (Path.fits_parent hfits), Workspace.base_parent,
                FileTree.makeDirectories_of_no_start hstart] at hmade
              exact (congrArg (Workspace.tree ∘ Prod.snd) hmade).symm
            obtain ⟨dirs, hparts, -⟩ := parts_createdPath directory
            obtain ⟨part, parts, hcons⟩ : ∃ part parts,
                Path.parts (createdPath directory) = part :: parts :=
              List.exists_cons_of_ne_nil (by rw [hparts]; simp)
            rw [hcons] at hpasses
            exact hstart (hsame ▸ hpasses.1.1)
          case clear => exact hgrows.clear_iff.mp (hpasses.mono fun _ _ hp => hp.clear)
          case file =>
            rw [Workspace.destination, ← hl]
            exact hfile
        · rw [if_neg hl]
          exact .inl hkept

/-- After the directories on the way have been made, the path of a hidden file can be followed
to it. -/
theorem passes_of_hides {directory : Option String} (h : w.Hides (createdPath directory)) :
    ∃ tree, w.makeDirectories (Path.parent (createdPath directory)) =
        (.ok (), ⟨tree, w.current⟩) ∧
      Along tree.Passes (w.base (createdPath directory)) (Path.parts (createdPath directory)) := by
  obtain ⟨dirs, hparts, hparent⟩ := parts_createdPath directory
  have hclear := h.clear
  rw [hparts] at hclear ⊢
  obtain ⟨hdirs, ⟨hfree, hsize⟩, -⟩ := FileTree.Along.append.mp hclear
  have hok : (FileTree.makeDirectories (w.base (createdPath directory))
      (dirs.filter (· ≠ ".")).reverse w.tree).1 = .ok () := by
    refine FileTree.makeDirectories_ok h.start ?_ ?_
    · rw [List.reverse_reverse]
      exact hdirs.filter
    · rw [List.reverse_reverse, FileTree.named_filter]
      exact hfree
  refine ⟨(FileTree.makeDirectories (w.base (createdPath directory))
    (dirs.filter (· ≠ ".")).reverse w.tree).2, ?made, ?passes⟩
  case made =>
    rw [Workspace.makeDirectories_of_fits (Path.fits_parent h.fits), Workspace.base_parent, hparent,
      hok]
  case passes =>
    by_cases hnil : dirs.filter (· ≠ ".") = []
    · have hend :
          w.tree.entry? (named (w.base (createdPath directory)) dirs) = some .directory := by
        rw [← FileTree.named_filter, hnil]
        exact h.start
      rw [hnil]
      exact FileTree.Along.append.mpr
        ⟨FileTree.passes_of_filter (by rw [hnil]; trivial) hend, ⟨hend, hsize⟩, trivial⟩
    · have hdir := FileTree.makeDirectories_isDirectory (by simpa using hnil) hok
      rw [FileTree.isDirectory_iff, List.reverse_reverse, FileTree.named_filter] at hdir
      exact FileTree.Along.append.mpr
        ⟨FileTree.passes_of_filter hdir.1 hdir.2, ⟨hdir.2, hsize⟩, trivial⟩

/-- A hidden file is replaced: the directories are made, and then the path leads to it. -/
theorem create_replaces_hidden {directory : Option String}
    (h : w.Hides (createdPath directory)) :
    FileTree.entry? (leaves w (create directory false)).2.tree
        (w.destination (createdPath directory)) =
      some (.file (Configuration.write {}).toUTF8) := by
  obtain ⟨content, hfile⟩ := h.file
  obtain ⟨tree, hmade, hpasses⟩ := passes_of_hides h
  have hgrows := (w.makeDirectories_grows (Path.parent (createdPath directory))).1
  rw [hmade] at hgrows
  have hthere : tree.entry? (w.destination (createdPath directory)) = some (.file content) :=
    hgrows.file_iff.mpr hfile
  have hne : w.destination (createdPath directory) ≠ [] := by
    intro hnil
    rw [hnil] at hfile
    cases hfile
  have hwrite := Workspace.writeText_of_passes (w := ⟨tree, w.current⟩) (Configuration.write {})
    h.fits hpasses fun hdir => by cases hthere.symm.trans hdir
  rw [leaves_create_missing h.unseen, on_saveTo_made hmade, on_orFail_files, hwrite]
  exact (FileTree.entry?_put hne _ _).trans (if_pos rfl)

/-- **Without force no file is lost, unless it is hidden.** Whether writing the default settings
succeeds or fails, every file keeps its content if the path does not hide one behind missing
directories; in a tree where everything stands in a directory, only a path with a part `..` can
do that. The file that a path does hide is replaced by the default settings, and no other. -/
theorem create_keeps_files (w : Workspace) (directory : Option String) :
    let path := Path.join (directory.getD ".") configurationName
    let after := (leaves w (create directory false)).2.tree
    (¬ w.Hides path → w.tree.KeepsFiles after) ∧
    (w.tree.Rooted → ".." ∉ Path.parts path → w.tree.KeepsFiles after) ∧
    (w.Hides path → after.entry? (w.destination path) =
        some (.file (Configuration.write {}).toUTF8) ∧
      ∀ l content, l ≠ w.destination path →
        w.tree.entry? l = some (.file content) → after.entry? l = some (.file content)) := by
  intro path after
  have hkept {l : Location} {content : ByteArray} (hout : ¬ (w.Hides path ∧ l = w.destination path))
      (hfile : w.tree.entry? l = some (.file content)) : after.entry? l = some (.file content) :=
    (create_keeps_or_hides hfile).resolve_right hout
  refine ⟨fun hseen l content => hkept fun h => hseen h.1, fun hrooted hparts l content => ?_,
    fun hhides => ⟨create_replaces_hidden hhides, fun l content hl => hkept fun h => hl h.2⟩⟩
  exact hkept fun h => hparts (h.1.mem_parts hrooted)

/-- A directory with a configuration in it and a directory beside that. -/
def configured : Workspace :=
  ⟨⟨[(["golt.toml"], .file "[output]\nformat = \"json\"\n".toUTF8), (["sub"], .directory)]⟩, []⟩

theorem configured_rooted : configured.tree.Rooted := by
  intro l name hthere
  rw [FileTree.entry?_of_ne_nil (by simp), Option.ne_none_iff_isSome,
    List.lookup_isSome_iff] at hthere
  obtain ⟨entry, hmem, heq⟩ := hthere
  have hname : l ++ [name] = [] ++ ["golt.toml"] ∨ l ++ [name] = [] ++ ["sub"] := by
    simp only [configured, List.mem_cons, List.not_mem_nil, or_false] at hmem
    rcases hmem with rfl | rfl
    · exact .inl (eq_of_beq heq)
    · exact .inr (eq_of_beq heq)
  have hl : l = [] := by
    rcases hname with h | h
    · exact (List.append_inj' h rfl).1
    · exact (List.append_inj' h rfl).1
  rw [hl]
  rfl

theorem configured_hides : configured.Hides "new/../golt.toml" where
  unseen := by decide +kernel
  fits := by decide +kernel
  start := rfl
  clear := by
    have hparts : Path.parts "new/../golt.toml" = ["new", "..", "golt.toml"] := by decide +kernel
    rw [hparts]
    exact ⟨⟨nofun, by decide +kernel⟩, ⟨nofun, by decide +kernel⟩, ⟨nofun, by decide +kernel⟩,
      trivial⟩
  file := ⟨"[output]\nformat = \"json\"\n".toUTF8, by decide +kernel⟩

/-- From a directory that is there the configuration is seen, and without `..` nothing is
hidden; from a directory that is missing the configuration is hidden, and replaced. -/
theorem create_keeps_files_configured :
    configured.tree.KeepsFiles (leaves configured (create (some "sub/..") false)).2.tree ∧
      configured.tree.KeepsFiles (leaves configured (create (some "new/sub") false)).2.tree ∧
      FileTree.entry? (leaves configured (create (some "new/..") false)).2.tree
          (configured.destination "new/../golt.toml") =
        some (.file (Configuration.write {}).toUTF8) := by
  have hseen : configured.isThere "sub/../golt.toml" = true := by decide +kernel
  refine ⟨(create_keeps_files configured (some "sub/..")).1 fun h => ?_,
    (create_keeps_files configured (some "new/sub")).2.1 configured_rooted (by decide +kernel),
    ((create_keeps_files configured (some "new/..")).2.2 configured_hides).1⟩
  exact absurd (hseen.symm.trans h.unseen) (by decide)

/-- Behind a directory that is missing, the configuration is not seen, and is lost. -/
theorem create_loses_configuration : configured.tree.Rooted ∧
    ¬ configured.tree.KeepsFiles (leaves configured (create (some "new/..") false)).2.tree := by
  refine ⟨configured_rooted, fun h => ?_⟩
  have hkept := h ["golt.toml"] _ rfl
  have hlost : FileTree.entry? (leaves configured (create (some "new/..") false)).2.tree
      ["golt.toml"] =
      some (.file (Configuration.write {}).toUTF8) := by decide +kernel
  rw [hlost] at hkept
  exact absurd hkept (by decide +kernel)

end Command

end GoTokens

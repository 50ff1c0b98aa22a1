import GoTokens.Command.Run
import GoTokens.Proofs.Command.Configure
import GoTokens.Proofs.Configuration

/-!
What writing the default configuration leaves behind. If it fails, at whatever step, directories
may have been made, but every file is as it was. If it succeeds, one file holds the default settings
and every other is as it was (`Workspace.Saved`); its path reads them back, and so does every run
that lists tokens from the directory that holds it, unless it is told of another file
(`create_changes_one_file`).
-/

namespace GoTokens

open FileTree (Along named)

namespace FileTree

variable {t t' : FileTree} {here : Location} {parts : List String}

/-- The files of two trees are the same, with the same contents, but for a location. -/
def SameFilesBut (l : Location) (t t' : FileTree) : Prop :=
  ∀ k, k ≠ l → ∀ content, t'.entry? k = some (.file content) ↔ t.entry? k = some (.file content)

/-- A file that is written where no directory is stands in the way of nothing. -/
theorem passes_put {l : Location} {content : ByteArray} (hl : t.entry? l ≠ some .directory)
    (h : Along t.Passes here parts) : Along (t.put l (.file content)).Passes here parts := by
  have hne : l ≠ [] := by
    rintro rfl
    exact hl rfl
  refine h.mono fun k part hp => ⟨?_, hp.2⟩
  -- What is passed is a directory, so the file was not put there.
  have hk : k ≠ l := by
    rintro rfl
    exact hl hp.1
  rw [entry?_put hne, if_neg hk]
  exact hp.1

end FileTree

namespace Workspace

variable {w w' : Workspace} {path text : String}

theorem destination_congr (h : w'.current = w.current) (path : String) :
    w'.destination path = w.destination path := by
  rw [destination, base, h, destination, base]

/-- A path can be followed to a file with a text. -/
structure Holds (w : Workspace) (path text : String) : Prop where
  fits : Path.fits path = true
  passes : Along w.tree.Passes (w.base path) (Path.parts path)
  file : w.tree.entry? (w.destination path) = some (.file text.toUTF8)

theorem Holds.isThere (h : w.Holds path text) : w.isThere path = true :=
  isThere_iff.mpr ⟨h.fits, h.passes, _, h.file⟩

theorem Holds.readText (h : w.Holds path text) : w.readText path = .ok text := by
  have hfind := FileTree.find_eq_ok.mpr ⟨h.passes, h.file⟩
  have hvalid : String.fromUTF8? text.toUTF8 = some text := dif_pos text.isValidUTF8
  simp only [Workspace.readText, partsOf, h.fits, if_true, FileTree.readText, hfind, hvalid]

/-- A text is at the end of a path, which is followed from the same directory as before, and all
other files are as they were. -/
structure Saved (w w' : Workspace) (path text : String) : Prop where
  current : w'.current = w.current
  holds : w'.Holds path text
  others : w.tree.SameFilesBut (w.destination path) w'.tree

theorem Saved.after {w₁ : Workspace} (h : w₁.Saved w' path text) (hgrows : w.tree.Grows w₁.tree)
    (hcurrent : w₁.current = w.current) : w.Saved w' path text where
  current := h.current.trans hcurrent
  holds := h.holds
  others k hk content :=
    (h.others k (destination_congr hcurrent path ▸ hk) content).trans hgrows.file_iff

theorem partsOf_eq_ok {parts : List String} (h : partsOf path = .ok parts) :
    Path.fits path = true ∧ parts = Path.parts path := by
  unfold partsOf at h
  split at h
  · rename_i hfits
    exact ⟨hfits, (Except.ok.inj h).symm⟩
  · cases h

theorem writeText_error {fault : FileFault} (h : (w.writeText path text).1 = .error fault) :
    (w.writeText path text).2 = w := by
  unfold writeText at h ⊢
  split
  · rfl
  · rename_i parts hparts
    split
    · rename_i tree hwrite
      simp only [hparts, hwrite] at h
      cases h
    · rfl

theorem writeText_ok (h : (w.writeText path text).1 = .ok ()) :
    w.Saved (w.writeText path text).2 path text := by
  unfold writeText at h ⊢
  split at h
  · cases h
  · rename_i parts hparts
    obtain ⟨hfits, rfl⟩ := partsOf_eq_ok hparts
    split at h
    · rename_i tree hwrite
      obtain ⟨hpasses, hentry, rfl⟩ := FileTree.write_eq_ok.mp hwrite
      have hne : named (w.base path) (Path.parts path) ≠ [] := by
        intro hnil
        exact hentry (hnil ▸ rfl)
      refine ⟨rfl, ⟨hfits, FileTree.passes_put hentry hpasses, ?_⟩, fun k hk content => ?_⟩
      · exact (FileTree.entry?_put hne _ _).trans (if_pos rfl)
      · have hkept := (FileTree.entry?_put (t := w.tree) hne (.file text.toUTF8) k).trans
          (if_neg hk)
        rw [hkept]
    · cases h

end Workspace

namespace Command

variable {w w' w₁ : Workspace} {t : Transcript} {path text : String} {settings : Settings}

/-- Saving fails and leaves the files alone, or ends with the settings in their place. -/
theorem on_saveTo_cases (w : Workspace) (path : String) (settings : Settings) (t : Transcript) :
    (∃ failure w', Session.on (saveTo path settings) t w = ((.error failure, t), w') ∧
      w.tree.Grows w'.tree ∧ w'.current = w.current) ∨
    ∃ w', Session.on (saveTo path settings) t w = ((.ok (), t), w') ∧
      w.Saved w' path (Configuration.write settings) := by
  obtain ⟨hgrows, hcurrent⟩ := w.makeDirectories_grows (Path.parent path)
  match hmade : w.makeDirectories (Path.parent path) with
  | (.error fault, w₁) =>
    -- Directories that were made before the fault stay.
    rw [hmade] at hgrows hcurrent
    exact .inl ⟨_, w₁, on_saveTo_fault hmade, hgrows, hcurrent⟩
  | (.ok (), w₁) =>
    rw [hmade] at hgrows hcurrent
    have hsave : Session.on (saveTo path settings) t w = _ := on_saveTo_made hmade
    match hwrite : w₁.writeText path (Configuration.write settings) with
    | (.error fault, w₂) =>
      have hsame : w₂ = w₁ := by
        have h := Workspace.writeText_error (congrArg Prod.fst hwrite)
        rwa [hwrite] at h
      rw [hwrite] at hsave
      exact .inl ⟨_, w₂, hsave, hsame ▸ hgrows, hsame ▸ hcurrent⟩
    | (.ok (), w₂) =>
      have hsaved := Workspace.writeText_ok (congrArg Prod.fst hwrite)
      rw [hwrite] at hsave hsaved
      exact .inr ⟨w₂, hsave, hsaved.after hgrows hcurrent⟩

theorem leaves_create_saving {directory : Option String} {force : Bool}
    (h : (w.isThere (createdPath directory) && !force) = false) :
    leaves w (create directory force) = Session.on (do
      saveTo (createdPath directory) {}
      Session.report [.configurationWritten (createdPath directory)]
      Session.print ("Created " ++ createdPath directory ++ "\n")) .empty w := by
  rw [leaves, Session.outcome_run, create,
    Session.on_bind_ok _ (on_isThere (t := .empty) (w := w) (createdPath directory))]
  simp only [h, Bool.false_eq_true, if_false]

/-- A run that fails, at whatever step, has written nothing and at most made directories. -/
theorem create_cases (w : Workspace) (directory : Option String) (force : Bool) :
    (∃ failure w', leaves w (create directory force) = ((.error failure, .empty), w') ∧
      w.tree.Grows w'.tree ∧ w'.current = w.current) ∨
    ∃ w', leaves w (create directory force) =
        ((.ok (), ⟨"Created " ++ createdPath directory ++ "\n",
          [.configurationWritten (createdPath directory)]⟩), w') ∧
      w.Saved w' (createdPath directory) (Configuration.write {}) := by
  cases hrefused : w.isThere (createdPath directory) && !force with
  | true =>
    obtain ⟨hthere, hforce⟩ := (Bool.and_eq_true _ _).mp hrefused
    obtain rfl : force = false := by simpa using hforce
    exact .inl ⟨_, w, leaves_create_there hthere, .refl _, rfl⟩
  | false =>
    rw [leaves_create_saving hrefused]
    rcases on_saveTo_cases w (createdPath directory) {} .empty with
      ⟨failure, w', hsave, hkept⟩ | ⟨w', hsave, hsaved⟩
    · exact .inl ⟨failure, w', Session.on_bind_error _ hsave, hkept⟩
    · refine .inr ⟨w', ?_, hsaved⟩
      rw [Session.on_bind_ok _ hsave, Session.on_bind_ok _ (Session.on_report _), Session.on_print]
      simp only [Transcript.empty, String.empty_append, List.nil_append]

/-! ## Later runs -/

theorem on_loadFrom (h : w.Holds path (Configuration.write settings)) :
    Session.on (loadFrom path) t w =
      ((.ok settings, ⟨t.output, t.events ++ [.configurationLoaded path]⟩), w) := by
  have hthere := on_isThere (t := t) (w := w) path
  have htext := on_readText (t := t) (w := w) path
  rw [h.isThere] at hthere
  rw [h.readText] at htext
  rw [loadFrom, Session.on_bind_ok _ hthere]
  simp only [Bool.not_true, Bool.false_eq_true, if_false]
  rw [Session.on_bind_ok _ htext, Session.on_bind_ok _ (Session.on_orFail_ok _ _),
    Configuration.read?_write]
  exact Session.on_bind_ok _ (Session.on_report _)

theorem run_firstThere? (paths : List String) (h : w.isThere path = true) :
    (firstThere? (m := StateM Workspace) (path :: paths)).run w = (some path, w) := by
  rw [firstThere?, StateT.run_bind]
  change StateT.run (if w.isThere path then _ else _) w = _
  rw [if_pos h]
  rfl

/-- The current directory is the first place where a configuration is looked for. -/
theorem on_load (h : w.Holds configurationName (Configuration.write settings))
    (around : Surroundings) : Session.on (load around none) t w =
      ((.ok settings, ⟨t.output, t.events ++ [.configurationLoaded configurationName]⟩), w) := by
  have hfirst : Session.on (Session.onFiles (firstThere? around.candidates)) t w =
      ((.ok (some configurationName), t), w) := by
    have hrun := run_firstThere? around.candidates.tail h.isThere
    rw [Session.on_onFiles]
    exact congrArg (fun found => ((Except.ok found.1, t), found.2)) hrun
  rw [load, Session.on_bind_ok _ hfirst]
  exact on_loadFrom h

/-- What a command that lists tokens does once it has its settings. -/
def listing? (settings : Settings) :
    CommandLine.Command → Option (Session (StateM Workspace) Unit)
  | .scan file format noComments =>
    some (scanFile (settings.withRequests format noComments) file)
  | .stream file noComments => some (streamFile (settings.withRequests none noComments) file)
  | .init .. => none

theorem on_carryOut {invocation : CommandLine.Invocation} {around : Surroundings}
    {listing : Session (StateM Workspace) Unit} {t' : Transcript}
    (hlists : listing? settings invocation.command = some listing)
    (hload : Session.on (load around invocation.configuration) t w = ((.ok settings, t'), w')) :
    Session.on (carryOut around invocation) t w = Session.on listing t' w' := by
  unfold carryOut
  match hcommand : invocation.command with
  | .scan file format noComments =>
    rw [hcommand] at hlists
    cases hlists
    exact Session.on_bind_ok _ hload
  | .stream file noComments =>
    rw [hcommand] at hlists
    cases hlists
    exact Session.on_bind_ok _ hload
  | .init directory force =>
    rw [hcommand] at hlists
    cases hlists

theorem run_run {environment : String → Option String} {args : List String}
    {invocation : CommandLine.Invocation}
    (h : CommandLine.parse environment args = .ok invocation) :
    (run environment args : StateM Workspace Reply).run w =
      let left := Session.on (carryOut (surroundings environment) invocation) .empty w
      (Reply.ofOutcome invocation left.1, left.2) := by
  rw [run, h]
  rfl

/-- The directory that a file stands in holds it under its name alone. -/
theorem holds_fromDirectory {text : String} {dirs : List String} (h : w.Holds path text)
    (hparts : Path.parts path = dirs ++ [configurationName]) :
    Workspace.Holds ⟨w.tree, named (w.base path) dirs⟩ configurationName text ∧
      w.destination path = named (w.base path) dirs ++ [configurationName] := by
  have hname : Path.parts configurationName = [configurationName] := by decide +kernel
  have hend (l : Location) : named l [configurationName] = l ++ [configurationName] := by rfl
  have hdestination : w.destination path = named (w.base path) dirs ++ [configurationName] := by
    rw [Workspace.destination, hparts, FileTree.named_append, hend]
  have hpasses := h.passes
  rw [hparts] at hpasses
  refine ⟨⟨by decide +kernel, ?passes, ?file⟩, hdestination⟩
  case passes =>
    rw [hname]
    exact (FileTree.Along.append.mp hpasses).2
  case file =>
    have hfile := h.file
    rw [hdestination] at hfile
    rw [Workspace.destination, hname]
    exact hfile

/-- **Writing the default settings changes one file.** If the run fails, every file is as it
was. If it succeeds, the path leads to a file that stands in some directory, and no other file is
new or has another content. Whatever the file held, its path then gives the default settings, and
so does the search of every later run from that directory that is not told of another file, in
whatever surroundings: it lists tokens with the default settings, under the requests of its
arguments. -/
theorem create_changes_one_file (w : Workspace) (directory : Option String) (force : Bool) :
    let path := Path.join (directory.getD ".") configurationName
    let left := leaves w (create directory force)
    let after := left.2
    (∀ failure, left.1.1 = .error failure → ∀ l content,
      after.tree.entry? l = some (.file content) ↔ w.tree.entry? l = some (.file content)) ∧
    (left.1.1 = .ok () → ∃ folder,
      after.current = w.current ∧
      after.tree.resolve (after.base path) (Path.parts path) =
        .ok (folder ++ [configurationName]) ∧
      w.tree.SameFilesBut (folder ++ [configurationName]) after.tree ∧
      (∀ t, Session.on (loadFrom path) t after =
        ((.ok {}, ⟨t.output, t.events ++ [.configurationLoaded path]⟩), after)) ∧
      ∀ environment args invocation listing,
        CommandLine.parse environment args = .ok invocation →
        invocation.configuration = none → listing? {} invocation.command = some listing →
        let listed := Session.on listing ⟨"", [.configurationLoaded configurationName]⟩
          ⟨after.tree, folder⟩
        (run environment args : StateM Workspace Reply).run ⟨after.tree, folder⟩ =
          (Reply.ofOutcome invocation listed.1, listed.2)) := by
  intro path left after
  rcases create_cases w directory force with ⟨failure, w', hleft, hgrows, -⟩ | ⟨w', hleft, hsaved⟩
  · have hend : left = _ := hleft
    simp only [after, hend]
    exact ⟨fun _ _ _ _ => hgrows.file_iff, nofun⟩
  · have hend : left = _ := hleft
    simp only [after, hend]
    refine ⟨nofun, fun _ => ?_⟩
    obtain ⟨dirs, hparts, -⟩ := parts_createdPath directory
    obtain ⟨hholds, hdestination⟩ := holds_fromDirectory hsaved.holds hparts
    have hplace := hdestination.symm.trans (Workspace.destination_congr hsaved.current path)
    refine ⟨_, hsaved.current, FileTree.resolve_eq_ok.mpr ⟨hsaved.holds.passes, hdestination.symm⟩,
      hplace ▸ hsaved.others, fun t => on_loadFrom hsaved.holds, ?_⟩
    intro environment args invocation listing hparse hnone hlists
    rw [run_run hparse, on_carryOut hlists (hnone ▸ on_load hholds _)]
    rfl

/-- A source file beside a configuration that asks for records. -/
def configuredSource : Workspace :=
  ⟨⟨[(["golt.toml"], .file "[output]\nformat = \"json\"\n".toUTF8),
    (["main"], .file "a".toUTF8)]⟩, []⟩

/-- Once the configuration has been replaced, what was listed as records is listed as a table. -/
theorem create_changes_one_file_configured :
    let after := (leaves configuredSource (create none true)).2
    let lists (w : Workspace) :=
      ((run (fun _ => none) ["scan", "main"] : StateM Workspace Reply).run w).1.output
    (lists configuredSource).toList.head? = some '[' ∧
      (leaves configuredSource (create none true)).1.1 = .ok () ∧
      configuredSource.tree.SameFilesBut [configurationName] after.tree ∧
      lists ⟨after.tree, []⟩ = Table.header ++ "1:1             IDENT           a\n" := by
  intro after lists
  have hok : (leaves configuredSource (create none true)).1.1 = .ok () := by decide +kernel
  obtain ⟨folder, -, hplace, hothers, -, hruns⟩ :=
    (create_changes_one_file configuredSource none true).2 hok
  have hroot : folder = [] := by
    have h : (Except.ok [configurationName] : Except FileFault Location) =
        .ok (folder ++ [configurationName]) := Eq.trans (by decide +kernel) hplace
    simpa using h
  subst hroot
  have hrun := hruns (fun _ => none) ["scan", "main"] ⟨false, false, none, .scan "main" none false⟩
    _ (by decide +kernel) rfl rfl
  refine ⟨by decide +kernel, hok, hothers, ?_⟩
  have houtput := congrArg (fun left => left.1.output) hrun
  simp only [lists, after]
  rw [houtput]
  decide +kernel

end Command

end GoTokens

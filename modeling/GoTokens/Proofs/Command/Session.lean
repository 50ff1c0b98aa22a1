import GoTokens.Command.Session
import GoTokens.Files.Tree

/-!
Runs of commands over a workspace, step by step. A run goes from what has been written and
reported so far, and the files, to a result with both; its steps are taken one after the
other until one fails.
-/

namespace GoTokens.Session

variable {α β : Type} {t t' : Transcript} {w w' : Workspace}

/-- A run over the files of a workspace, after what has been written and reported. -/
def on (s : Session (StateM Workspace) α) (t : Transcript) (w : Workspace) :
    (Except Failure α × Transcript) × Workspace := (s.run.run t).run w

theorem outcome_run (s : Session (StateM Workspace) α) (w : Workspace) :
    (outcome s).run w = s.on .empty w := rfl

@[simp] theorem on_pure (a : α) : on (pure a) t w = ((.ok a, t), w) := rfl

@[simp] theorem on_throw (failure : Failure) :
    on (throw failure : Session (StateM Workspace) α) t w = ((.error failure, t), w) := rfl

theorem on_bind_ok {s : Session (StateM Workspace) α} {a : α}
    (f : α → Session (StateM Workspace) β) (h : s.on t w = ((.ok a, t'), w')) :
    on (s >>= f) t w = (f a).on t' w' := by
  have hs : (s.run.run t).run w = ((.ok a, t'), w') := h
  simp only [on, ExceptT.run_bind, StateT.run_bind, hs]
  rfl

theorem on_bind_error {s : Session (StateM Workspace) α} {failure : Failure}
    (f : α → Session (StateM Workspace) β) (h : s.on t w = ((.error failure, t'), w')) :
    on (s >>= f) t w = ((.error failure, t'), w') := by
  have hs : (s.run.run t).run w = ((.error failure, t'), w') := h
  simp only [on, ExceptT.run_bind, StateT.run_bind, hs]
  rfl

theorem on_bind_files {s : Session (StateM Workspace) α} {f : α → Session (StateM Workspace) β}
    (hf : ∀ a t w, ((f a).on t w).2 = w) : ((s >>= f).on t w).2 = (s.on t w).2 := by
  rcases hs : s.on t w with ⟨⟨_ | a, t'⟩, w'⟩
  · rw [on_bind_error f hs]
  · rw [on_bind_ok f hs]
    exact hf a t' w'

@[simp] theorem on_print (text : String) :
    on (print text) t w = ((.ok (), { t with output := t.output ++ text }), w) := rfl

@[simp] theorem on_report (events : List Event) :
    on (report events) t w = ((.ok (), { t with events := t.events ++ events }), w) := rfl

@[simp] theorem on_orFail_ok (source : Option String) (a : α) :
    on (orFail source (.ok a)) t w = ((.ok a, t), w) := rfl

@[simp] theorem on_orFail_error (source : Option String) (fault : FileFault) :
    on (orFail (α := α) source (.error fault)) t w = ((.error (.file source fault), t), w) := rfl

@[simp] theorem on_onFiles (action : StateM Workspace α) :
    on (onFiles action) t w = ((.ok (action.run w).1, t), (action.run w).2) := rfl

end GoTokens.Session

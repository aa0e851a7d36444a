import NativeHeader.CommandLine.Program
import NativeHeader.Proofs.Files.Outputs

/-! What a run leaves behind.

The header is known before anything is written: `FileTree.header` reads and loads the schema
and gives the text. If that fails, the run fails in the same way and the files are as before;
otherwise the only steps left that can fail are those that write. A run that succeeds has
written one file, and has made no directories but those above it (`run_effect`). -/
namespace NativeHeader

/-! ### The header before anything is written -/

/-- The schema at a path. -/
def FileTree.schema (t : FileTree) (path : String) : Except Failure Schema := do
  let bytes ← (t.readFile path).mapError Failure.file
  Schema.ofBytes path bytes

/-- The header of the schema at a path. -/
def FileTree.header (t : FileTree) (path : String) : Except Failure String := do
  let schema ← t.schema path
  schema.header.mapError Failure.fault

theorem FileTree.header_eq_ok {t : FileTree} {path header : String} (h : t.header path = .ok header) :
    ∃ loaded, t.schema path = .ok loaded ∧ loaded.header = .ok header := by
  unfold FileTree.header at h
  cases hloaded : t.schema path with
  | error cause =>
    rw [hloaded] at h
    cases h
  | ok loaded =>
    simp only [hloaded, bind, Except.bind] at h
    cases hheader : loaded.header with
    | error fault =>
      rw [hheader] at h
      cases h
    | ok text =>
      rw [hheader] at h
      cases h
      exact ⟨loaded, rfl, hheader⟩

/-- If the modules cannot be put into one list there is no header, for the same reason. -/
theorem header_of_nativeModules {s : Schema} {fault : Fault} (h : s.nativeModules = .error fault) :
    s.header = .error fault := by
  rw [Schema.header, Schema.sortedModules, h]
  rfl

/-! ### Steps of a run -/

/-- A workspace with one line more in its log. -/
def Workspace.noted (w : Workspace) (notice : Notice) : Workspace :=
  { w with log := w.log ++ [notice.line] }

theorem run_note (notice : Notice) (w : Workspace) :
    (note notice : Workspace.Step Failure Unit).run.run w = (.ok (), w.noted notice) := rfl

theorem run_onFiles {α : Type} (step : Workspace.Step FileError α) (w : Workspace) :
    (onFiles step : Workspace.Step Failure α).run.run w =
      ((step.run.run w).1.mapError Failure.file, (step.run.run w).2) := by
  show (match step w with | (r, after) => (r.mapError Failure.file, after)) =
    ((step w).1.mapError Failure.file, (step w).2)
  rcases step w with ⟨_ | _, after⟩ <;> rfl

theorem run_pureExcept {α : Type} (x : Except Failure α) (w : Workspace) :
    (ExceptT.mk (pure x) : Workspace.Step Failure α).run.run w = (x, w) := rfl

/-- What is left of a run when the header is known. -/
def finish (directory spec header : String) : Workspace.Step Failure (List String) := do
  let written ← onFiles (Files.writeOutputs directory [(headerFile spec, header)])
  written.forM fun path => note (.wrote path)
  return written

/-- A run gets the header and, if there is one, goes on to write it. Until then only its log
has changed. -/
theorem run_eq (options : Options) (root : String) (w : Workspace) :
    ∃ w' : Workspace, w'.tree = w.tree ∧
      (run options root : Workspace.Step Failure _).run.run w =
        match w.tree.header (options.paths root).schema with
        | .error cause => (.error cause, w')
        | .ok header =>
          (finish (options.paths root).directory (options.paths root).spec header).run.run w' := by
  have hrun : (run options root : Workspace.Step Failure _) = (do
      let bytes ← onFiles (Files.readFile (options.paths root).schema)
      let schema ← ExceptT.mk (pure (Schema.ofBytes (options.paths root).schema bytes))
      let modules ← onSchema schema.nativeModules
      note (.loaded (options.paths root).schema modules.length)
      let header ← onSchema schema.header
      finish (options.paths root).directory (options.paths root).spec header) := rfl
  have hread (path : String) : (Files.readFile path : Workspace.Step FileError _).run.run w =
      (w.tree.readFile path, w) := rfl
  have hstep {α : Type} (x : Except Fault α) (w : Workspace) :
      (onSchema x : Workspace.Step Failure α).run.run w =
        (x.mapError Failure.fault, w) := rfl
  rw [hrun]
  unfold FileTree.header FileTree.schema
  simp only [run_bind, run_onFiles, run_pureExcept, run_note, hread, hstep]
  cases hbytes : w.tree.readFile (options.paths root).schema with
  | error cause => exact ⟨w, rfl, rfl⟩
  | ok bytes =>
    cases hschema : Schema.ofBytes (options.paths root).schema bytes with
    | error cause => exact ⟨w, rfl, by simp [bind, Except.bind, Except.mapError, hschema]⟩
    | ok schema =>
      cases hmodules : schema.nativeModules with
      | error fault =>
        refine ⟨w, rfl, ?_⟩
        simp [bind, Except.bind, Except.mapError, hschema, hmodules, header_of_nativeModules hmodules]
      | ok modules =>
        refine ⟨w.noted (.loaded (options.paths root).schema modules.length), rfl, ?_⟩
        cases hheader : schema.header <;>
          simp [bind, Except.bind, Except.mapError, hschema, hmodules, hheader]

theorem run_notes (paths : List String) (w : Workspace) :
    ∃ w' : Workspace, w'.tree = w.tree ∧
      (paths.forM fun path => note (.wrote path) : Workspace.Step Failure PUnit).run.run w =
        (.ok ⟨⟩, w') := by
  induction paths generalizing w with
  | nil => exact ⟨w, rfl, rfl⟩
  | cons path rest ih =>
    obtain ⟨w', htree, hrest⟩ := ih (w.noted (.wrote path))
    refine ⟨w', htree, ?_⟩
    show (note (.wrote path) >>= fun _ => rest.forM fun path => note (.wrote path) :
      Workspace.Step Failure PUnit).run.run w = _
    rw [run_bind, run_note]
    exact hrest

/-- Once the header is known, only writing it can fail. -/
theorem finish_eq (directory spec header : String) (w : Workspace) :
    ∃ w' : Workspace,
      w'.tree = ((Files.writeOutputs directory [(headerFile spec, header)] :
        Workspace.Step FileError _).run.run w).2.tree ∧
      (finish directory spec header).run.run w =
        ((((Files.writeOutputs directory [(headerFile spec, header)] :
          Workspace.Step FileError _).run.run w).1.mapError Failure.file), w') := by
  rw [finish, run_bind, run_onFiles]
  rcases (Files.writeOutputs directory [(headerFile spec, header)] :
    Workspace.Step FileError _).run.run w with ⟨cause | written, after⟩
  · exact ⟨after, rfl, rfl⟩
  · obtain ⟨w', htree, hnotes⟩ := run_notes written after
    refine ⟨w', htree, ?_⟩
    simp only [Except.mapError, run_bind, hnotes]
    rfl

/-! ### The effect of a run -/

section
variable {options : Options} {root : String} {w w' : Workspace}

/-- A run without a header fails for the reason why there is none, and changes no file. -/
theorem run_of_no_header {cause : Failure}
    (h : w.tree.header (options.paths root).schema = .error cause) :
    ∃ w' : Workspace, (run options root : Workspace.Step Failure _).run.run w =
      (.error cause, w') ∧ w'.tree = w.tree := by
  obtain ⟨w', htree, hrun⟩ := run_eq options root w
  rw [h] at hrun
  exact ⟨w', hrun, htree⟩

/-- A run with a header writes it, and ends as the writing does. -/
theorem run_of_header {header : String}
    (h : w.tree.header (options.paths root).schema = .ok header) :
    ∃ before outcome after, before.tree = w.tree ∧
      (Files.writeOutputs (options.paths root).directory
        [(headerFile (options.paths root).spec, header)] : Workspace.Step FileError _).run.run before =
          (outcome, after) ∧
      ∃ w' : Workspace, (run options root : Workspace.Step Failure _).run.run w =
        (outcome.mapError Failure.file, w') ∧ w'.tree = after.tree := by
  obtain ⟨before, hbefore, hrun⟩ := run_eq options root w
  obtain ⟨w', hafter, hfinish⟩ := finish_eq (options.paths root).directory (options.paths root).spec
    header before
  rw [h] at hrun
  exact ⟨before, _, _, hbefore, rfl, w', hrun.trans hfinish, hafter⟩

/-- A run that fails has no header, or files could not be written. -/
theorem run_error {cause : Failure}
    (h : (run options root : Workspace.Step Failure _).run.run w = (.error cause, w')) :
    w'.tree = w.tree ∨ ∃ reason, cause = .file reason := by
  cases hheader : w.tree.header (options.paths root).schema with
  | error found =>
    obtain ⟨_, hrun, htree⟩ := run_of_no_header hheader
    cases hrun.symm.trans h
    exact Or.inl htree
  | ok header =>
    obtain ⟨_, outcome, _, _, _, _, hrun, _⟩ := run_of_header hheader
    have hcause := congrArg Prod.fst (hrun.symm.trans h)
    cases outcome with
    | ok written => cases hcause
    | error reason =>
      cases hcause
      exact Or.inr ⟨reason, rfl⟩

/-- A run that succeeds has written the header of its schema. -/
theorem run_ok {written : List String}
    (h : (run options root : Workspace.Step Failure _).run.run w = (.ok written, w')) :
    ∃ header, w.tree.header (options.paths root).schema = .ok header ∧
      ∃ before after : Workspace, before.tree = w.tree ∧ after.tree = w'.tree ∧
        (Files.writeOutputs (options.paths root).directory
          [(headerFile (options.paths root).spec, header)] :
            Workspace.Step FileError _).run.run before = (.ok written, after) := by
  cases hheader : w.tree.header (options.paths root).schema with
  | error found =>
    obtain ⟨_, hrun, _⟩ := run_of_no_header hheader
    cases hrun.symm.trans h
  | ok header =>
    obtain ⟨before, outcome, after, hbefore, hwrite, _, hrun, hafter⟩ := run_of_header hheader
    obtain ⟨hwritten, rfl⟩ := Prod.mk.inj (hrun.symm.trans h)
    cases outcome with
    | error reason => cases hwritten
    | ok paths =>
      cases hwritten
      exact ⟨header, rfl, before, after, hbefore, hafter.symm, hwrite⟩

/-- What the program ends with: no run, or what became of one. -/
theorem run_program (words : List String) :
    (CommandLine.program words root : StateM Workspace _).run w =
      match CommandLine.parse words with
      | .error stop => (stop.ending, w.noted (.workingFrom root))
      | .ok options =>
        match (run options root : Workspace.Step Failure _).run.run
            (w.noted (.workingFrom root)) with
        | (.ok _, after) => (.finished 0, after)
        | (.error cause, after) =>
          if cause.isReported then (.finished 1, after.noted (.failed cause.message))
          else (.failed cause, after) := by
  have hnote (notice : Notice) (w : Workspace) :
      (Files.note notice.line : StateM Workspace Unit).run w = ((), w.noted notice) := rfl
  have hbind {α β : Type} (x : StateM Workspace α) (f : α → StateM Workspace β) (w : Workspace) :
      (x >>= f).run w = (f (x.run w).1).run (x.run w).2 := rfl
  unfold CommandLine.program
  rw [hbind, hnote]
  cases CommandLine.parse words with
  | error stop => rfl
  | ok options =>
    dsimp only
    rw [hbind]
    rcases (run options root : Workspace.Step Failure _).run.run
      (w.noted (.workingFrom root)) with ⟨cause | written, after⟩
    · cases hreported : cause.isReported <;> simp only [hreported] <;> rfl
    · rfl

/-- A program that reports a failure has changed no file. -/
theorem program_finished {words : List String} {status : Nat}
    (h : (CommandLine.program words root : StateM Workspace _).run w = (.finished status, w'))
    (hstatus : status ≠ 0) : status = 1 ∧ w'.tree = w.tree := by
  rw [run_program] at h
  cases hparse : CommandLine.parse words with
  | error stop =>
    rw [hparse] at h
    cases stop <;> cases h
  | ok options =>
    rw [hparse] at h
    dsimp only at h
    rcases hrun : (run options root : Workspace.Step Failure _).run.run
      (w.noted (.workingFrom root)) with ⟨cause | written, after⟩
    · rw [hrun] at h
      dsimp only at h
      split_ifs at h with hreported
      · cases h
        -- a failure to write is not reported
        rcases run_error hrun with htree | ⟨reason, rfl⟩
        · exact ⟨rfl, htree⟩
        · cases hreported
      · cases h
    · rw [hrun] at h
      cases h
      exact absurd rfl hstatus

end

/-- A directory with one schema in it. -/
def FileTree.shop : FileTree :=
  ⟨[(["app"], .directory), (["app", "shop.json"], .file
    "\x7b\"modules\":\x7b\"S\":\x7b\"nativeModules\":\x7b\"M\":\x7b\"properties\":[]\x7d\x7d\x7d\x7d\x7d".toUTF8)]⟩

end NativeHeader

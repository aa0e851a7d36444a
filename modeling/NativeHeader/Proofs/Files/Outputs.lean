import NativeHeader.Proofs.Files.Access

/-! What writing several texts leaves behind.

Texts are written in the order in which they are given, and nothing keeps two names from
leading to one file: it then holds the later text. Which file a name leads to is seen in the
tree afterwards. It is the same that the text was written to, since no step takes a
directory away (`Written.leadsTo`).

`Written` says what is where after some texts. It holds of all of them if they could be
written, and otherwise of those before the first that could not (`writeOutputs_effect`). -/
namespace NativeHeader

/-! ### Where a path leads -/

namespace FileTree
variable {t t' : FileTree} {path : String} {location other : Location}

/-- The path leads to something at the location. -/
def LeadsTo (t : FileTree) (path : String) (location : Location) : Prop :=
  ∃ entry, t.find path = .ok (location, entry)

/-- A path leads to one location only. -/
theorem LeadsTo.eq (h : t.LeadsTo path location) (h' : t.LeadsTo path other) : location = other := by
  obtain ⟨entry, hfind⟩ := h
  obtain ⟨entry', hfind'⟩ := h'
  cases hfind.symm.trans hfind'
  rfl

/-- A path leads to the same location where all directories are kept and something is still there. -/
theorem LeadsTo.mono (h : t.LeadsTo path location) (hkeeps : Keeps t t')
    (hthere : t'.get? location ≠ none) : t'.LeadsTo path location := by
  obtain ⟨entry, hfind⟩ := h
  obtain ⟨hcheck, hfollow, _⟩ := find_eq_ok.mp hfind
  obtain ⟨entry', hentry⟩ := Option.ne_none_iff_exists'.mp hthere
  exact ⟨entry', find_eq_ok.mpr ⟨hcheck, hkeeps.follow hfollow, hentry⟩⟩

/-- What is at the end of a path is found there. -/
theorem LeadsTo.find {entry : Entry} (h : t.LeadsTo path location) (hget : t.get? location = some entry) :
    t.find path = .ok (location, entry) := by
  obtain ⟨found, hfind⟩ := h
  obtain ⟨hcheck, hfollow, _⟩ := find_eq_ok.mp hfind
  exact find_eq_ok.mpr ⟨hcheck, hfollow, hget⟩

theorem keeps_of_writeFile {content : ByteArray} (h : t.writeFile path content = .ok t') : Keeps t t' := by
  obtain ⟨location, _, hfree, hother⟩ := writeFile_ok h
  intro there hthere
  have hne : there ≠ location := fun heq => hfree (heq ▸ hthere)
  rw [hother there hne, hthere]

end FileTree

namespace Files
open FileTree

/-! ### Texts that were written -/

/-- The tree after texts were written into a directory, seen from the one before. -/
structure Written (directory : String) (texts : List (String × String)) (t t' : FileTree) : Prop where
  /-- Every name leads somewhere. -/
  found : ∀ e ∈ texts, ∃ location, t'.LeadsTo (Path.join directory e.1) location
  /-- Where names lead is a file with the last of their texts. -/
  last : ∀ before name text after location, texts = before ++ (name, text) :: after →
    t'.LeadsTo (Path.join directory name) location →
    (∀ e ∈ after, ¬ t'.LeadsTo (Path.join directory e.1) location) →
    t'.get? location = some (.file text.toUTF8)
  /-- There was no directory in its place. -/
  free : ∀ e ∈ texts, ∀ location, t'.LeadsTo (Path.join directory e.1) location →
    t.get? location ≠ some .directory
  /-- Where no name leads is what was there before, or a new directory where nothing was, at a
  beginning of the path of the directory. -/
  kept : ∀ location, (∀ e ∈ texts, ¬ t'.LeadsTo (Path.join directory e.1) location) →
    t'.get? location = t.get? location ∨ t.get? location = none ∧
      ∃ above : String, above.toList <+: directory.toList ∧ t'.find above = .ok (location, .directory)

namespace Written
variable {directory : String} {texts : List (String × String)} {t middle t' : FileTree}

theorem nil (directory : String) (t : FileTree) : Written directory [] t t where
  found := List.forall_mem_nil _
  last before name text after location hsplit := by
    cases before <;> cases hsplit
  free := List.forall_mem_nil _
  kept _ _ := Or.inl rfl

/-- Where something was, something is. -/
theorem there (h : Written directory texts t t') {location : Location} (hget : t.get? location ≠ none) :
    t'.get? location ≠ none := by
  by_cases hnamed : ∃ e ∈ texts, t'.LeadsTo (Path.join directory e.1) location
  · obtain ⟨_, _, entry, hfind⟩ := hnamed
    rw [(find_eq_ok.mp hfind).2.2]
    exact Option.some_ne_none entry
  · rcases h.kept location (by simpa using hnamed) with hsame | ⟨hnone, _⟩
    · rwa [hsame]
    · exact absurd hnone hget

theorem keeps (h : Written directory texts t t') : Keeps t t' := by
  intro location hdirectory
  have hunnamed : ∀ e ∈ texts, ¬ t'.LeadsTo (Path.join directory e.1) location :=
    fun e he hleads => h.free e he location hleads hdirectory
  rcases h.kept location hunnamed with hsame | ⟨hnone, _⟩
  · rw [hsame, hdirectory]
  · rw [hnone] at hdirectory
    cases hdirectory

/-- A path that led somewhere leads there still. -/
theorem leadsTo (h : Written directory texts t t') {path : String} {location : Location}
    (hleads : t.LeadsTo path location) : t'.LeadsTo path location := by
  obtain ⟨entry, hfind⟩ := hleads
  have hget : t.get? location ≠ none := by
    rw [(find_eq_ok.mp hfind).2.2]
    exact Option.some_ne_none entry
  exact LeadsTo.mono ⟨entry, hfind⟩ h.keeps (h.there hget)

/-- **One text, and then the others.** The file of the first is overwritten only by one of them. -/
theorem cons {name text : String}
    (hwrite : t.writeFile (Path.join directory name) text.toUTF8 = .ok middle)
    (h : Written directory texts middle t') : Written directory ((name, text) :: texts) t t' := by
  obtain ⟨here, hfind, hfree, hother⟩ := writeFile_ok hwrite
  have hkeeps := keeps_of_writeFile hwrite
  have hhere : t'.LeadsTo (Path.join directory name) here := h.leadsTo ⟨_, hfind⟩
  have hmiddle : middle.get? here = some (.file text.toUTF8) := (find_eq_ok.mp hfind).2.2
  constructor
  case found => exact List.forall_mem_cons.mpr ⟨⟨here, hhere⟩, h.found⟩
  case last =>
    intro before name' text' after location hsplit hleads hafter
    cases before with
    | cons first before =>
      cases hsplit
      exact h.last before name' text' after location rfl hleads hafter
    | nil =>
      cases hsplit
      obtain rfl := hhere.eq hleads
      rcases h.kept here hafter with hsame | ⟨hnone, _⟩
      · rw [hsame, hmiddle]
      · rw [hnone] at hmiddle
        cases hmiddle
  case free =>
    refine List.forall_mem_cons.mpr ⟨fun location hleads => ?_, fun e he location hleads hdirectory => ?_⟩
    · rwa [← hhere.eq hleads]
    · exact h.free e he location hleads (hkeeps location hdirectory)
  case kept =>
    intro location hunnamed
    obtain ⟨hfirst, hrest⟩ := List.forall_mem_cons.mp hunnamed
    have hne : location ≠ here := fun heq => hfirst (heq ▸ hhere)
    rw [← hother location hne]
    exact h.kept location hrest

/-- Directories that were added before the texts were written belong to it. -/
theorem of_grown (hgrown : Grown directory t middle) (h : Written directory texts middle t') :
    Written directory texts t t' where
  found := h.found
  last := h.last
  free e he location hleads hdirectory :=
    h.free e he location hleads (hgrown.keeps location hdirectory)
  kept location hunnamed := by
    rcases hgrown location with hbefore | ⟨hnone, above, habove, hfind⟩
    · rw [← hbefore]
      exact h.kept location hunnamed
    · exact Or.inr ⟨hnone, above, habove, h.keeps.find hfind⟩

end Written

/-! ### Writing -/

section
variable {directory : String} {texts : List (String × String)} {w w' : Workspace}

theorem run_writeTexts_cons (directory name text : String) (rest : List (String × String))
    (w : Workspace) :
    (writeTexts directory ((name, text) :: rest) : Workspace.Step FileError _).run.run w =
      match w.tree.writeFile (Path.join directory name) text.toUTF8 with
      | .error cause => (.error cause, w)
      | .ok tree =>
        match (writeTexts directory rest : Workspace.Step FileError _).run.run { w with tree } with
        | (.ok paths, after) => (.ok (Path.join directory name :: paths), after)
        | (.error cause, after) => (.error cause, after) := by
  have hwrite : (Files.writeFile (Path.join directory name) text.toUTF8 :
      Workspace.Step FileError Unit).run.run w =
        w.update (w.tree.writeFile (Path.join directory name) text.toUTF8) := rfl
  rw [writeTexts, List.mapM_cons, run_bind, run_bind, hwrite]
  cases w.tree.writeFile (Path.join directory name) text.toUTF8 with
  | error cause => rfl
  | ok tree =>
    show (writeTexts directory rest >>= fun paths => pure (Path.join directory name :: paths) :
      Workspace.Step FileError _).run.run { w with tree } = _
    rw [run_bind]
    dsimp only
    rcases (writeTexts directory rest : Workspace.Step FileError _).run.run { w with tree }
      with ⟨_ | _, after⟩ <;> rfl

/-- All texts are written, in order. -/
theorem writeTexts_ok {paths : List String}
    (h : (writeTexts directory texts : Workspace.Step FileError _).run.run w = (.ok paths, w')) :
    paths = texts.map (fun e => Path.join directory e.1) ∧ Written directory texts w.tree w'.tree := by
  induction texts generalizing w paths with
  | nil =>
    cases h
    exact ⟨rfl, .nil directory _⟩
  | cons first rest ih =>
    obtain ⟨name, text⟩ := first
    rw [run_writeTexts_cons] at h
    cases hwrite : w.tree.writeFile (Path.join directory name) text.toUTF8 with
    | error cause =>
      rw [hwrite] at h
      cases h
    | ok tree =>
      rcases hrest : (writeTexts directory rest : Workspace.Step FileError _).run.run { w with tree }
        with ⟨cause | more, after⟩
      · rw [hwrite] at h
        simp only [hrest] at h
        cases h
      · rw [hwrite] at h
        simp only [hrest] at h
        cases h
        obtain ⟨rfl, hwritten⟩ := ih hrest
        exact ⟨rfl, hwritten.cons hwrite⟩

/-- The first text that cannot be written ends it, whatever comes after it. -/
theorem writeTexts_error {cause : FileError}
    (h : (writeTexts directory texts : Workspace.Step FileError _).run.run w = (.error cause, w')) :
    ∃ before name text after, texts = before ++ (name, text) :: after ∧
      Written directory before w.tree w'.tree ∧
      w'.tree.writeFile (Path.join directory name) text.toUTF8 = .error cause ∧
      ∀ other, (writeTexts directory (before ++ (name, text) :: other) :
        Workspace.Step FileError _).run.run w = (.error cause, w') := by
  induction texts generalizing w with
  | nil => cases h
  | cons first rest ih =>
    obtain ⟨name, text⟩ := first
    rw [run_writeTexts_cons] at h
    cases hwrite : w.tree.writeFile (Path.join directory name) text.toUTF8 with
    | error found =>
      rw [hwrite] at h
      cases h
      refine ⟨[], name, text, rest, rfl, .nil directory _, hwrite, fun other => ?_⟩
      rw [List.nil_append, run_writeTexts_cons, hwrite]
    | ok tree =>
      rcases hrest : (writeTexts directory rest : Workspace.Step FileError _).run.run { w with tree }
        with ⟨found | more, after⟩
      · rw [hwrite] at h
        simp only [hrest] at h
        cases h
        obtain ⟨before, name', text', later, rfl, hwritten, hfails, hother⟩ := ih hrest
        refine ⟨(name, text) :: before, name', text', later, rfl, hwritten.cons hwrite, hfails,
          fun other => ?_⟩
        rw [List.cons_append, run_writeTexts_cons, hwrite]
        simp only [hother other]
      · rw [hwrite] at h
        simp only [hrest] at h
        cases h

/-! ### Writing into a directory that is made -/

theorem writeOutputs_ok {paths : List String}
    (h : (writeOutputs directory texts : Workspace.Step FileError _).run.run w = (.ok paths, w')) :
    paths = texts.map (fun e => Path.join directory e.1) ∧ Written directory texts w.tree w'.tree := by
  have hgrows : Grows directory w _ := makeDirectories_grows directory w
  rw [writeOutputs, run_bind] at h
  rcases hmake : (makeDirectories directory : Workspace.Step FileError Unit).run.run w
    with ⟨cause | _, middle⟩
  · rw [hmake] at h
    cases h
  · rw [hmake] at h hgrows
    obtain ⟨hpaths, hwritten⟩ := writeTexts_ok h
    exact ⟨hpaths, hwritten.of_grown hgrows⟩

/-- Either the directory could not be made, and nothing was written, or one of the texts. -/
theorem writeOutputs_error {cause : FileError}
    (h : (writeOutputs directory texts : Workspace.Step FileError _).run.run w = (.error cause, w')) :
    (makeDirectories directory : Workspace.Step FileError Unit).run.run w = (.error cause, w') ∧
        Written directory [] w.tree w'.tree ∨
      ∃ before name text after, texts = before ++ (name, text) :: after ∧
        Written directory before w.tree w'.tree ∧
        w'.tree.writeFile (Path.join directory name) text.toUTF8 = .error cause ∧
        ∀ other, (writeOutputs directory (before ++ (name, text) :: other) :
          Workspace.Step FileError _).run.run w = (.error cause, w') := by
  have hgrows : Grows directory w _ := makeDirectories_grows directory w
  rw [writeOutputs, run_bind] at h
  rcases hmake : (makeDirectories directory : Workspace.Step FileError Unit).run.run w
    with ⟨found | _, middle⟩
  · rw [hmake] at h hgrows
    cases h
    exact Or.inl ⟨rfl, .of_grown hgrows (.nil directory _)⟩
  · rw [hmake] at h hgrows
    obtain ⟨before, name, text, after, hsplit, hwritten, hfails, hother⟩ := writeTexts_error h
    refine Or.inr ⟨before, name, text, after, hsplit, hwritten.of_grown hgrows, hfails, fun other => ?_⟩
    rw [writeOutputs, run_bind, hmake]
    exact hother other

/-- One text written into a directory: its file is found and holds the text, and nothing else is
different but that directories were added, at beginnings of the directory's path. -/
theorem writeOutputs_one {name text : String} {written : List String}
    (h : (writeOutputs directory [(name, text)] : Workspace.Step FileError _).run.run w =
      (.ok written, w')) :
    written = [Path.join directory name] ∧
      ∃ location, w'.tree.find (Path.join directory name) = .ok (location, .file text.toUTF8) ∧
        w.tree.get? location ≠ some .directory ∧
        ∀ other, other ≠ location → w'.tree.get? other = w.tree.get? other ∨
          w.tree.get? other = none ∧ ∃ above : String, above.toList <+: directory.toList ∧
            w'.tree.find above = .ok (other, .directory) := by
  obtain ⟨hpaths, hwritten⟩ := writeOutputs_ok h
  have hmem := List.mem_singleton_self (name, text)
  obtain ⟨location, hleads⟩ := hwritten.found _ hmem
  have hget := hwritten.last [] name text [] location rfl hleads (List.forall_mem_nil _)
  refine ⟨hpaths, location, hleads.find hget, hwritten.free _ hmem location hleads,
    fun other hne => hwritten.kept other ?_⟩
  rw [List.forall_mem_singleton]
  exact fun hother => hne (hother.eq hleads)

end

/-- A directory with one file in it. -/
def desk : Workspace := { tree := ⟨[(["app"], .directory), (["app", "old.h"], .file "0".toUTF8)]⟩ }

end Files

end NativeHeader

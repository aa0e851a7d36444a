import NativeHeader.Files.Access
import NativeHeader.Proofs.Files.Tree
import NativeHeader.Proofs.Steps

/-! What working on files leaves behind.

Making a directory and what is missing above it only adds directories, each where nothing was
and each at a beginning of the path (`Grown`), and this is so whether it succeeds or fails
somewhere on the way (`makeDirectories_grows`). -/
namespace NativeHeader

/-- A step in a workspace. -/
abbrev Workspace.Step (ε : Type) := ExceptT ε (StateM Workspace)

/-! ### Added directories -/

/-- Nothing was changed but that directories were added, each where nothing was and at a
beginning of the path. -/
def FileTree.Grown (path : String) (t t' : FileTree) : Prop :=
  ∀ location, t'.get? location = t.get? location ∨ t.get? location = none ∧
    ∃ above : String, above.toList <+: path.toList ∧ t'.find above = .ok (location, .directory)

namespace FileTree
variable {t t' t'' : FileTree} {path above : String}

theorem Grown.refl (path : String) (t : FileTree) : Grown path t t := fun _ => Or.inl rfl

theorem Grown.keeps (h : Grown path t t') : Keeps t t' := by
  intro location hlocation
  rcases h location with hsame | ⟨hnone, _⟩
  · rw [hsame, hlocation]
  · rw [hnone] at hlocation
    cases hlocation

/-- A directory that was added is found later on. -/
theorem Grown.trans (h : Grown path t t') (h' : Grown path t' t'') : Grown path t t'' := by
  intro location
  rcases h location with hsame | ⟨hnone, above, habove, hfind⟩
  · rcases h' location with hsame' | ⟨hnone', hadded⟩
    · exact Or.inl (hsame'.trans hsame)
    · exact Or.inr ⟨hsame ▸ hnone', hadded⟩
  · exact Or.inr ⟨hnone, above, habove, h'.keeps.find hfind⟩

theorem Grown.of_isPrefix (h : Grown above t t') (habove : above.toList <+: path.toList) :
    Grown path t t' := by
  intro location
  rcases h location with hsame | ⟨hnone, higher, hhigher, hfind⟩
  · exact Or.inl hsame
  · exact Or.inr ⟨hnone, higher, hhigher.trans habove, hfind⟩

theorem grown_of_makeDirectory (h : t.makeDirectory path = .ok t') : Grown path t t' := by
  obtain ⟨location, hfind, hnone, hother⟩ := makeDirectory_ok h
  intro other
  by_cases heq : other = location
  · exact Or.inr ⟨heq ▸ hnone, path, List.prefix_refl _, heq ▸ hfind⟩
  · exact Or.inl (hother other heq)

end FileTree

/-! ### Paths -/

theorem Path.withoutSlashes_isPrefix (s : List Char) : Path.withoutSlashes s <+: s := by
  rw [Path.withoutSlashes, ← List.reverse_suffix, List.reverse_reverse]
  exact List.dropWhile_suffix _

/-- What stands before the last slash of a path is a beginning of it. -/
theorem Path.split_isPrefix (path : String) : (Path.split path).1.toList <+: path.toList := by
  have hbefore : (path.toList.reverse.dropWhile (· ≠ '/')).reverse <+: path.toList := by
    rw [← List.reverse_suffix, List.reverse_reverse]
    exact List.dropWhile_suffix _
  unfold Path.split
  simp only [String.toList_ofList]
  split
  · exact hbefore
  · exact (Path.withoutSlashes_isPrefix _).trans hbefore

/-! ### Making directories -/

namespace Files

/-- Directories were added to the tree of a workspace, at beginnings of the path. -/
def Grows (path : String) (w w' : Workspace) : Prop := FileTree.Grown path w.tree w'.tree

theorem Grows.refl (path : String) (w : Workspace) : Grows path w w := FileTree.Grown.refl path w.tree

theorem Grows.trans (path : String) (a b c : Workspace) : Grows path a b → Grows path b c → Grows path a c :=
  FileTree.Grown.trans

theorem ensureDirectory_grows (path : String) :
    Leaves (Grows path) (ensureDirectory path : Workspace.Step FileError Unit) := by
  refine Leaves.tryCatch (Grows.trans path) (fun w => ?_) fun cause =>
    Leaves.bind (Grows.trans path) (fun w => Grows.refl path w) fun there w => ?_
  · show Grows path w (w.update (w.tree.makeDirectory path)).2
    cases hmade : w.tree.makeDirectory path with
    | error cause => exact Grows.refl path w
    | ok tree => exact FileTree.grown_of_makeDirectory hmade
  · cases there <;> exact Grows.refl path w

/-- **Making a directory and what is missing above it only adds directories**, even where it
fails on the way. -/
theorem makeDirectoriesTo_grows (depth : Nat) (path : String) :
    Leaves (Grows path) (makeDirectoriesTo depth path : Workspace.Step FileError Unit) := by
  induction depth generalizing path with
  | zero => exact ensureDirectory_grows path
  | succ depth ih =>
    rw [makeDirectoriesTo]
    have habove : (if (Path.split path).2.isEmpty then Path.split (Path.split path).1
        else Path.split path).1.toList <+: path.toList := by
      split
      · exact (Path.split_isPrefix _).trans (Path.split_isPrefix path)
      · exact Path.split_isPrefix path
    generalize (if (Path.split path).2.isEmpty then Path.split (Path.split path).1
      else Path.split path) = parts at habove
    obtain ⟨above, name⟩ := parts
    dsimp only at habove ⊢
    split
    · exact ensureDirectory_grows path
    · refine Leaves.bind (Grows.trans path) (fun w => Grows.refl path w) fun there => ?_
      split
      · exact ensureDirectory_grows path
      · refine Leaves.bind (Grows.trans path)
          (Leaves.tryCatch (Grows.trans path) (fun w => (ih above w).of_isPrefix habove) fun cause w => ?_)
          fun _ => ?_
        · cases cause <;> exact Grows.refl path w
        · split
          · exact fun w => Grows.refl path w
          · exact ensureDirectory_grows path

theorem makeDirectories_grows (path : String) :
    Leaves (Grows path) (makeDirectories path : Workspace.Step FileError Unit) :=
  makeDirectoriesTo_grows path.length path

end Files

end NativeHeader

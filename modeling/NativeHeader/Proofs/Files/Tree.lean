import Mathlib.Data.List.Basic
import NativeHeader.Files.Tree

/-! What a path leads to in a tree, and what the operations change.

A path that leads somewhere leads there in every tree that keeps the directories. A new
entry is put below a directory that was found and never in the place of a directory, so
afterwards its path leads to it and everything else is as before (`writeFile_ok`,
`makeDirectory_ok`). -/
namespace NativeHeader.FileTree

variable {t t' : FileTree}

/-! ### Putting -/

theorem get?_put_self {location : Location} (h : location ≠ []) (entry : Entry) :
    (t.put location entry).get? location = some entry := by
  cases location with
  | nil => exact absurd rfl h
  | cons name rest => simp [get?, put]

theorem get?_put_of_ne {location other : Location} (h : other ≠ location) (entry : Entry) :
    (t.put location entry).get? other = t.get? other := by
  have hlookup : (t.entries.filter (·.1 ≠ location)).lookup other = t.entries.lookup other := by
    induction t.entries with
    | nil => rfl
    | cons first rest ih =>
      obtain ⟨there, found⟩ := first
      by_cases hthere : there = location
      · have hmiss : (other == there) = false := by simpa [hthere] using h
        rw [List.filter_cons_of_neg (by simpa using hthere), ih, List.lookup_cons, hmiss]
      · rw [List.filter_cons_of_pos (by simpa using hthere), List.lookup_cons, List.lookup_cons, ih]
  have hhead : (other == location) = false := by simpa using h
  unfold get? put
  simp only [List.lookup_cons, hhead, hlookup]

/-! ### Following -/

/-- What is a directory in one tree is one in the other. -/
def Keeps (t t' : FileTree) : Prop :=
  ∀ location, t.get? location = some .directory → t'.get? location = some .directory

/-- Where a component leads from a directory. -/
def enter (here : Location) (name : String) : Except FileError Location :=
  if name = "" ∨ name = "." then .ok here
  else if name = ".." then .ok here.dropLast
  else if name.utf8ByteSize > nameLimit then .error .nameTooLong
  else .ok (here ++ [name])

@[simp] theorem follow_nil (here : Location) : t.follow here [] = .ok here := rfl

/-- One component: there has to be a directory for it. -/
theorem follow_name (here : Location) (name : String) (rest : List String) :
    t.follow here (name :: rest) =
      match t.get? here with
      | none => .error .notFound
      | some (.file _) => .error .notADirectory
      | some .directory =>
        if name = "" ∨ name = "." then t.follow here rest
        else if name = ".." then t.follow here.dropLast rest
        else if name.utf8ByteSize > nameLimit then .error .nameTooLong
        else t.follow (here ++ [name]) rest := rfl

theorem follow_cons {here there : Location} {name : String} {rest : List String} :
    t.follow here (name :: rest) = .ok there ↔ t.get? here = some .directory ∧
      ∃ next, enter here name = .ok next ∧ t.follow next rest = .ok there := by
  rw [follow_name, enter]
  cases t.get? here with
  | none => simp
  | some entry =>
    cases entry with
    | file content => simp
    | directory =>
      dsimp only
      split
      · simp
      · split
        · simp
        · split <;> simp

theorem follow_append {here there : Location} {parts rest : List String} :
    t.follow here (parts ++ rest) = .ok there ↔
      ∃ middle, t.follow here parts = .ok middle ∧ t.follow middle rest = .ok there := by
  induction parts generalizing here with
  | nil => simp
  | cons name parts ih =>
    simp only [List.cons_append, follow_cons, ih]
    constructor
    · rintro ⟨hhere, next, hnext, middle, hmiddle, hthere⟩
      exact ⟨middle, ⟨hhere, next, hnext, hmiddle⟩, hthere⟩
    · rintro ⟨middle, ⟨hhere, next, hnext, hmiddle⟩, hthere⟩
      exact ⟨hhere, next, hnext, middle, hmiddle, hthere⟩

/-- A path is followed alike where all directories are kept. -/
theorem Keeps.follow (h : Keeps t t') {here there : Location} {parts : List String}
    (hfollow : t.follow here parts = .ok there) : t'.follow here parts = .ok there := by
  induction parts generalizing here with
  | nil => exact hfollow
  | cons name parts ih =>
    obtain ⟨hhere, next, hnext, hrest⟩ := follow_cons.1 hfollow
    exact follow_cons.2 ⟨h here hhere, next, hnext, ih hrest⟩

/-- Slashes at the end of a path lead nowhere else from a directory. -/
theorem follow_blanks {here : Location} (hhere : t.get? here = some .directory) {parts : List String}
    (hparts : ∀ part ∈ parts, part = "") : t.follow here parts = .ok here := by
  induction parts with
  | nil => rfl
  | cons part rest ih =>
    obtain ⟨rfl, hrest⟩ := List.forall_mem_cons.mp hparts
    exact follow_cons.2 ⟨hhere, here, rfl, ih hrest⟩

theorem find_eq_ok {path : String} {location : Location} {entry : Entry} :
    t.find path = .ok (location, entry) ↔ checkPath path = .ok () ∧
      t.follow [] (Path.components path) = .ok location ∧ t.get? location = some entry := by
  unfold find
  cases checkPath path with
  | error cause => simp [bind, Except.bind]
  | ok _ =>
    cases t.follow [] (Path.components path) with
    | error cause => simp [bind, Except.bind]
    | ok there =>
      simp only [bind, Except.bind, Except.ok.injEq, true_and]
      constructor
      · intro h
        cases hthere : t.get? there with
        | none =>
          rw [hthere] at h
          cases h
        | some found =>
          rw [hthere] at h
          cases h
          exact ⟨rfl, hthere⟩
      · rintro ⟨rfl, hthere⟩
        rw [hthere]
        rfl

/-- A directory that is found is found where all directories are kept. -/
theorem Keeps.find (h : Keeps t t') {path : String} {location : Location}
    (hfind : t.find path = .ok (location, .directory)) : t'.find path = .ok (location, .directory) := by
  obtain ⟨hcheck, hfollow, hget⟩ := find_eq_ok.1 hfind
  exact find_eq_ok.2 ⟨hcheck, h.follow hfollow, h location hget⟩

/-! ### The last component -/

/-- The components of a path up to the last one that is not empty. -/
def named (path : String) : List String := ((Path.components path).reverse.dropWhile (· = "")).reverse

theorem components_eq (path : String) : ∃ blanks, Path.components path = named path ++ blanks ∧
    ∀ part ∈ blanks, part = "" := by
  refine ⟨((Path.components path).reverse.takeWhile (· = "")).reverse, ?_, fun part hpart => ?_⟩
  · rw [named, ← List.reverse_append, List.takeWhile_append_dropWhile, List.reverse_reverse]
  · have hall := List.all_takeWhile (p := (· = "")) (l := (Path.components path).reverse)
    simpa using List.all_eq_true.mp hall part (List.mem_reverse.mp hpart)

/-- The last of these components is not empty. -/
theorem ne_empty_of_named {path name : String} {above : List String}
    (h : named path = above ++ [name]) : name ≠ "" := by
  have hdrop : (Path.components path).reverse.dropWhile (· = "") = name :: above.reverse := by
    rw [← List.reverse_inj, List.reverse_cons, List.reverse_reverse]
    exact h
  have hne : (Path.components path).reverse.dropWhile (· = "") ≠ [] := by simp [hdrop]
  have hhead := List.head_dropWhile_not (fun part => decide (part = "")) hne
  simpa [hdrop] using hhead

/-- Where a path leads without its last component. -/
theorem findParent_ok {path name : String} {parent : Location} {slashes : Bool}
    (h : t.findParent path = .ok (parent, name, slashes)) : checkPath path = .ok () ∧
      t.follow [] (named path).dropLast = .ok parent ∧ t.get? parent = some .directory ∧
      name = (named path).getLastD "." ∧
      slashes = decide ((named path).length < (Path.components path).length) := by
  unfold findParent at h
  cases hcheck : checkPath path with
  | error cause =>
    rw [hcheck] at h
    cases h
  | ok _ =>
    have hnamed : ((Path.components path).reverse.dropWhile (· = "")).reverse = named path := rfl
    simp only [hcheck, hnamed, bind, Except.bind] at h
    cases hfollow : t.follow [] (named path).dropLast with
    | error cause =>
      rw [hfollow] at h
      cases h
    | ok there =>
      simp only [hfollow] at h
      rcases hthere : t.get? there with _ | _ | _
      · rw [hthere] at h
        cases h
      · rw [hthere] at h
        cases h
        exact ⟨rfl, rfl, hthere, rfl, rfl⟩
      · rw [hthere] at h
        cases h

section
variable {path name : String} {parent : Location} {slashes : Bool}
  (h : t.findParent path = .ok (parent, name, slashes)) (hname : ¬ (name = "." ∨ name = ".."))
  (hlimit : ¬ name.utf8ByteSize > nameLimit)
include h hname hlimit

theorem enter_last : enter parent name = .ok (parent ++ [name]) ∧
    named path = (named path).dropLast ++ [name] := by
  obtain ⟨_, _, _, hlast, _⟩ := findParent_ok h
  have hnamed : named path = (named path).dropLast ++ [name] := by
    rcases List.eq_nil_or_concat' (named path) with hnil | ⟨above, last, hconcat⟩
    · rw [hnil] at hlast
      exact absurd (Or.inl hlast) hname
    · rw [hconcat, List.getLastD_concat] at hlast
      rw [hconcat, List.dropLast_concat, hlast]
  have hempty : ¬ (name = "" ∨ name = ".") := by
    rintro (hempty | hdot)
    · exact ne_empty_of_named hnamed hempty
    · exact hname (Or.inl hdot)
  refine ⟨?_, hnamed⟩
  rw [enter, if_neg hempty, if_neg (fun hup => hname (Or.inr hup)), if_neg hlimit]

/-- Where a path leads after something was put in the place of its last component. Only a
directory can have slashes behind it. -/
theorem find_put {entry : Entry} (hentry : slashes = true → entry = .directory)
    (hkeeps : Keeps t (t.put (parent ++ [name]) entry)) :
    (t.put (parent ++ [name]) entry).find path = .ok (parent ++ [name], entry) := by
  obtain ⟨hcheck, hfollow, hparent, _, hslashes⟩ := findParent_ok h
  obtain ⟨henter, hnamed⟩ := enter_last h hname hlimit
  obtain ⟨blanks, hcomponents, hblanks⟩ := components_eq path
  have hput : (t.put (parent ++ [name]) entry).get? (parent ++ [name]) = some entry :=
    get?_put_self (by simp) entry
  refine find_eq_ok.2 ⟨hcheck, ?_, hput⟩
  rw [hcomponents, hnamed]
  refine follow_append.2 ⟨parent ++ [name], follow_append.2 ⟨parent, hkeeps.follow hfollow, ?_⟩, ?_⟩
  · exact follow_cons.2 ⟨hkeeps parent hparent, _, henter, rfl⟩
  · cases blanks with
    | nil => rfl
    | cons blank rest =>
      have hdirectory : entry = .directory := by
        refine hentry (hslashes.trans (decide_eq_true ?_))
        rw [hcomponents, List.length_append, List.length_cons]
        omega
      exact follow_blanks (hdirectory ▸ hput) hblanks

end

/-- Putting keeps all directories if there was none in the place. -/
theorem keeps_put {location : Location} (h : t.get? location ≠ some .directory) (entry : Entry) :
    Keeps t (t.put location entry) := by
  intro other hother
  by_cases heq : other = location
  · exact absurd (heq ▸ hother) h
  · rw [get?_put_of_ne heq, hother]

/-! ### Operations -/

/-- A file that is written is found, and everything else is as before. There was no directory
in its place. -/
theorem writeFile_ok {path : String} {content : ByteArray} (h : t.writeFile path content = .ok t') :
    ∃ location, t'.find path = .ok (location, .file content) ∧ t.get? location ≠ some .directory ∧
      ∀ other, other ≠ location → t'.get? other = t.get? other := by
  unfold writeFile at h
  cases hparent : t.findParent path with
  | error cause =>
    rw [hparent] at h
    cases h
  | ok found =>
    obtain ⟨parent, name, slashes⟩ := found
    simp only [hparent, bind, Except.bind] at h
    split_ifs at h with hname hlimit
    split at h
    · cases h
    · rename_i hfree
      cases h
      have hplain : ¬ (name = "." ∨ name = "..") := fun hdots => hname (hdots.imp_right Or.inl)
      have hslashes : slashes = true → Entry.file content = .directory := fun hslashes =>
        absurd (Or.inr (Or.inr hslashes)) hname
      exact ⟨parent ++ [name], find_put hparent hplain hlimit hslashes (keeps_put hfree _), hfree,
        fun other hother => get?_put_of_ne hother _⟩

/-- A directory that is made is found, and everything else is as before. There was nothing in
its place. -/
theorem makeDirectory_ok {path : String} (h : t.makeDirectory path = .ok t') :
    ∃ location, t'.find path = .ok (location, .directory) ∧ t.get? location = none ∧
      ∀ other, other ≠ location → t'.get? other = t.get? other := by
  unfold makeDirectory at h
  cases hparent : t.findParent path with
  | error cause =>
    rw [hparent] at h
    cases h
  | ok found =>
    obtain ⟨parent, name, slashes⟩ := found
    simp only [hparent, bind, Except.bind] at h
    split_ifs at h with hname hlimit hfree
    cases h
    have hnone : t.get? (parent ++ [name]) = none := by simpa using hfree
    have hkeeps : Keeps t (t.put (parent ++ [name]) .directory) :=
      keeps_put (by rw [hnone]; exact nofun) _
    exact ⟨parent ++ [name], find_put hparent hname hlimit (fun _ => rfl) hkeeps, hnone,
      fun other hother => get?_put_of_ne hother _⟩

/-- What is found at a path can be read there. -/
theorem readFile_of_find {path : String} {location : Location} {content : ByteArray}
    (h : t.find path = .ok (location, .file content)) : t.readFile path = .ok content := by
  rw [readFile, h]
  rfl

end NativeHeader.FileTree

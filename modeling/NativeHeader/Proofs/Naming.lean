import NativeHeader.Proofs.Text.Upper
import NativeHeader.Struct.Collect

/-! Names made part by part.

A name is made longer on every step down into a record, and each time its first
character is put in upper case again. That changes nothing: a name in upper case
stays what it is (`capitalize_capitalize`), and so does what such names are joined
to (`Capitalized.append`). So the name made step by step is the name of the whole
way (`Way.name`), each part capitalized once. -/
namespace NativeHeader.Naming

/-! ### Upper case -/

@[simp] theorem capitalize_empty : capitalize "" = "" := by decide

/-- The characters of a name in upper case: those of its first one, and the rest. -/
theorem toList_capitalize {s : String} {c : Char} {rest : List Char} (h : s.toList = c :: rest) :
    (capitalize s).toList = Text.upper c ++ rest := by
  unfold capitalize
  rw [h]
  simp

/-- A name that starts in upper case. -/
def Capitalized (s : String) : Prop := capitalize s = s

theorem capitalized_empty : Capitalized "" := capitalize_empty

/-- A name that is not empty starts in upper case if its first character does. -/
theorem capitalized_iff {s : String} {c : Char} {rest : List Char} (h : s.toList = c :: rest) :
    Capitalized s ↔ Text.upper c = [c] := by
  unfold Capitalized
  rw [← String.toList_inj, toList_capitalize h, h]
  constructor
  · intro he
    exact List.append_cancel_right (by simpa using he)
  · intro he
    rw [he]
    rfl

/-- Upper case twice is upper case once. -/
theorem capitalize_capitalize (s : String) : Capitalized (capitalize s) := by
  cases h : s.toList with
  | nil =>
    have : s = "" := String.toList_eq_nil_iff.mp h
    rw [this, capitalize_empty]
    exact capitalized_empty
  | cons c rest =>
    obtain ⟨d, more, hupper, hd⟩ := Text.upper_settled c
    have hs : (capitalize s).toList = d :: (more ++ rest) := by
      rw [toList_capitalize h, hupper, List.cons_append]
    exact (capitalized_iff hs).mpr hd

theorem Capitalized.append {a b : String} (ha : Capitalized a) (hb : Capitalized b) :
    Capitalized (a ++ b) := by
  cases h : a.toList with
  | nil =>
    have : a = "" := String.toList_eq_nil_iff.mp h
    rw [this, String.empty_append]
    exact hb
  | cons c rest =>
    have hab : (a ++ b).toList = c :: (rest ++ b.toList) := by
      rw [String.toList_append, h, List.cons_append]
    exact (capitalized_iff hab).mpr ((capitalized_iff h).mp ha)

theorem Capitalized.join {parts : List String} (h : ∀ p ∈ parts, Capitalized p) :
    Capitalized (String.join parts) := by
  induction parts with
  | nil => exact capitalized_empty
  | cons p rest ih =>
    rw [String.join_cons]
    exact (h p (List.mem_cons_self ..)).append (ih fun q hq => h q (List.mem_cons_of_mem p hq))

/-! ### Names made from parts -/

theorem struct_append (ps qs : List String) : struct (ps ++ qs) = struct ps ++ struct qs := by
  unfold struct
  rw [List.map_append, String.join_append]

/-- A name that is made longer keeps what it was. -/
theorem struct_cons {name : String} (h : Capitalized name) (parts : List String) :
    struct (name :: parts) = name ++ struct parts := by
  unfold struct
  rw [List.map_cons, String.join_cons, h]

/-- What is made from parts starts in upper case, whichever of them are empty. -/
theorem capitalized_struct (parts : List String) : Capitalized (struct parts) :=
  .join (List.forall_mem_map.mpr fun part _ => capitalize_capitalize part)

theorem capitalized_returned (method : String) : Capitalized (returned method) :=
  (capitalize_capitalize method).append (by decide : capitalize "ReturnType" = "ReturnType")

/-- Parts may be put together at once or one after the other. -/
theorem struct_struct (ps qs : List String) : struct (struct ps :: qs) = struct (ps ++ qs) := by
  rw [struct_cons (capitalized_struct ps), struct_append]

theorem struct_returned (method : String) (qs : List String) :
    struct (returned method :: qs) = returned method ++ struct qs :=
  struct_cons (capitalized_returned method) qs

end NativeHeader.Naming

namespace NativeHeader

open Naming

/-! ### The way to a record -/

/-- A step down: into a field of a record, or from an array to its elements. -/
inductive Descent where
  | field (name : Name)
  | element

/-- What a step adds to the name. -/
def Descent.word : Descent → String
  | .field name => capitalize name.display
  | .element => "Element"

/-- What the name of a record starts with, by where it is found. -/
def Site.words : Site → List String
  | .parameter param method => [capitalize method.display, capitalize param.display]
  | .returned method => [capitalize method.display, "ReturnType"]

/-- The way to a record: a part of a signature, and the steps down from there. -/
structure Way where
  site : Site
  steps : List Descent

/-- The name of a way: its words, one after the other. -/
def Way.name (w : Way) : String := String.join (w.site.words ++ w.steps.map Descent.word)

/-- The name of a site, as the signature gives it. -/
def Site.name (site : Site) : String := String.join site.words

theorem capitalized_word (step : Descent) : Capitalized step.word := by
  cases step with
  | field name => exact capitalize_capitalize _
  | element => exact (by decide : capitalize "Element" = "Element")

/-- Both ways of naming the records of a parameter. -/
theorem Site.name_parameter (param method : Name) :
    (Site.parameter param method).name = Naming.struct [method.display, param.display] := rfl

theorem Site.name_returned (method : Name) :
    (Site.returned method).name = Naming.returned method.display := by
  simp [name, words, Naming.returned]

theorem Site.capitalized (site : Site) : Capitalized site.name := by
  cases site with
  | parameter param method =>
    rw [name_parameter]
    exact capitalized_struct _
  | returned method =>
    rw [name_returned]
    exact capitalized_returned _

theorem Way.name_eq (w : Way) :
    w.name = w.site.name ++ String.join (w.steps.map Descent.word) := by
  simp [name, Site.name]

/-! ### Level by level -/

/-- The name one level further down, made from the name of the level above. -/
def Descent.lower (above : String) : Descent → String
  | .field name => Naming.struct [above, name.display]
  | .element => Naming.element above

/-- The name at the end of some steps, made level by level. -/
def descend (name : String) (steps : List Descent) : String := steps.foldl Descent.lower name

/-- A level adds its word to a name that starts in upper case. -/
theorem lower_eq {above : String} (h : Naming.Capitalized above) (step : Descent) :
    step.lower above = above ++ step.word := by
  cases step with
  | field name =>
    rw [Descent.lower, Naming.struct_cons h]
    simp [Naming.struct, Descent.word]
  | element => rfl

theorem descend_eq {name : String} (h : Naming.Capitalized name) (steps : List Descent) :
    descend name steps = name ++ String.join (steps.map Descent.word) := by
  induction steps generalizing name with
  | nil => simp [descend]
  | cons step rest ih =>
    have hlower : Naming.Capitalized (step.lower name) := by
      rw [lower_eq h]
      exact h.append (capitalized_word step)
    show descend (step.lower name) rest = _
    rw [ih hlower, lower_eq h, List.map_cons, String.join_cons, String.append_assoc]

/-- **The name that is made level by level is the name of the way.** -/
theorem descend_site (site : Site) (steps : List Descent) :
    descend site.name steps = Way.name ⟨site, steps⟩ := by
  rw [descend_eq site.capitalized, Way.name_eq]

theorem descend_append (name : String) (above below : List Descent) :
    descend name (above ++ below) = descend (descend name above) below := List.foldl_append

end NativeHeader

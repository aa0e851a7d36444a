import NativeHeader.Proofs.Header.Ordered
import NativeHeader.Proofs.Schema.Mapping

/-! The header does not depend on the order of its schema.

Modules are written in the order of their names, and names are distinct where a header is
written at all, so the header is told by which modules there are (`header_of_perm`). Neither
the order of components and modules nor the component that declares a module can be told
from it. -/
namespace NativeHeader.Schema

/-- The files that are generated for a schema, with their texts. -/
def files (spec : String) (s : Schema) : Except Fault (List (String × String)) :=
  s.header.map fun text => [(headerFile spec, text)]

variable {s t : Schema}

theorem Distinct.perm (h : s.Distinct) (hperm : s.modules.Perm t.modules) : t.Distinct :=
  (hperm.map _).nodup_iff.mp h

/-- There is one way to order modules with distinct names. -/
theorem ordered_eq_of_perm (hs : s.Distinct) (hperm : s.modules.Perm t.modules) :
    s.ordered = t.ordered := by
  have hordered := (ordered_perm s).trans (hperm.trans (ordered_perm t).symm)
  refine List.Perm.eq_of_pairwise ?_ (pairwise_ordered s) (pairwise_ordered t) hordered
  intro a b ha hb hab hba
  have hmem {m : Module} : m ∈ s.ordered → m ∈ s.modules := (ordered_perm s).mem_iff.mp
  exact List.inj_on_of_nodup_map hs (hmem ha) (hmem (hordered.mem_iff.mpr hb))
    (String.le_antisymm hab hba)

/-- Schemas with the same modules have the same header, if no name is given twice. -/
theorem header_of_perm (hs : s.Distinct) (hperm : s.modules.Perm t.modules) :
    s.header = t.header := by
  rw [header, header, sortedModules_of_distinct hs, sortedModules_of_distinct (hs.perm hperm),
    ordered_eq_of_perm hs hperm]

theorem files_of_perm (hs : s.Distinct) (hperm : s.modules.Perm t.modules) (spec : String) :
    s.files spec = t.files spec := by
  rw [files, files, header_of_perm hs hperm]

theorem files_of_not_distinct (h : ¬ s.Distinct) (spec : String) :
    ∃ e, s.files spec = .error (.shape e) := by
  obtain ⟨e, he⟩ := nativeModules_of_not_distinct h
  refine ⟨e, ?_⟩
  rw [files, header, sortedModules, he]
  rfl

/-- Schemas that declare the same modules, none of them twice, have them equally often. -/
theorem modules_perm (hs : s.Distinct) (ht : t.Distinct) (h : ∀ m, m ∈ s.modules ↔ m ∈ t.modules) :
    s.modules.Perm t.modules :=
  (List.perm_ext_iff_of_nodup (List.Nodup.of_map _ hs) (List.Nodup.of_map _ ht)).mpr h

/-- **What is generated does not depend on the order of the schema.** Of two schemas that are
the same mapping, either both are refused, because two components declare a module of the
same name, or both give the same files or the same fault. And the grouping does not matter:
schemas with the same modules, in whatever components, give the same. -/
theorem files_independent_of_order {data data' : Json} {s t : Schema} (hdata : data.keyed = true)
    (hdata' : data'.keyed = true) (hs : ofJson data = .ok s) (ht : ofJson data' = .ok t) :
    (s.mapping = t.mapping →
      (s.Repeats → ∀ spec, (∃ e, s.files spec = .error (.shape e)) ∧
        ∃ e, t.files spec = .error (.shape e)) ∧
      (¬ s.Repeats → ∀ spec, s.files spec = t.files spec)) ∧
    ((∀ m, m ∈ s.modules ↔ m ∈ t.modules) → ¬ s.Repeats → ¬ t.Repeats →
      ∀ spec, s.files spec = t.files spec) := by
  have hkeyed := keyed_of_ofJson hdata hs
  have hkeyed' := keyed_of_ofJson hdata' ht
  have hsame (h : ∀ m, m ∈ s.modules ↔ m ∈ t.modules) (hr : ¬ s.Repeats) (hr' : ¬ t.Repeats) :
      ∀ spec, s.files spec = t.files spec := by
    have hd := hkeyed.distinct_iff.mpr hr
    exact files_of_perm hd (modules_perm hd (hkeyed'.distinct_iff.mpr hr') h)
  refine ⟨fun hmapping => ⟨fun hr spec => ?_, fun hr => hsame (fun m => ?_) hr ?_⟩, hsame⟩
  · have hr' := (repeats_congr hkeyed hkeyed' hmapping).mp hr
    exact ⟨files_of_not_distinct (fun hd => hkeyed.distinct_iff.mp hd hr) spec,
      files_of_not_distinct (fun hd => hkeyed'.distinct_iff.mp hd hr') spec⟩
  · simp only [mem_modules_iff, declares_congr hkeyed hkeyed' hmapping]
  · rwa [← repeats_congr hkeyed hkeyed' hmapping]

/-- A document with these components, whose modules have no methods. -/
def emptyModules (groups : List (String × List String)) : Json :=
  .obj [("modules", .obj (groups.map fun (component, names) =>
    (component, .obj [("nativeModules", .obj (names.map (·, .obj [("properties", .arr [])])))])))]

/-- Three modules in two components, the same in another order, and in other components. -/
theorem files_of_three_orders : ∃ s t u,
    ofJson (emptyModules [("X", ["First", "Second"]), ("Y", ["Third"])]) = .ok s ∧
    ofJson (emptyModules [("Y", ["Third"]), ("X", ["Second", "First"])]) = .ok t ∧
    ofJson (emptyModules [("Z", ["Second"]), ("X", ["Third", "First"])]) = .ok u ∧
    ∀ spec, s.files spec = t.files spec ∧ s.files spec = u.files spec := by
  let schema (groups : List (String × List String)) : Schema :=
    ⟨groups.map fun (component, names) => ⟨component, some (names.map (⟨·, []⟩))⟩⟩
  let s := schema [("X", ["First", "Second"]), ("Y", ["Third"])]
  let t := schema [("Y", ["Third"]), ("X", ["Second", "First"])]
  let u := schema [("Z", ["Second"]), ("X", ["Third", "First"])]
  have hs : ofJson (emptyModules [("X", ["First", "Second"]), ("Y", ["Third"])]) = .ok s := rfl
  have ht : ofJson (emptyModules [("Y", ["Third"]), ("X", ["Second", "First"])]) = .ok t := rfl
  have hu : ofJson (emptyModules [("Z", ["Second"]), ("X", ["Third", "First"])]) = .ok u := rfl
  have hmapping : s.mapping = t.mapping := by
    have hgroup (name : String) : [Module.mk "First" [], ⟨"Second", []⟩].find? (·.name = name) =
        [Module.mk "Second" [], ⟨"First", []⟩].find? (·.name = name) := by
      by_cases h : "First" = name
      · subst h
        rfl
      · simp [List.find?_cons, h]
    funext component
    by_cases h : "X" = component
    · subst h
      simp [mapping, s, t, schema, List.find?_cons, hgroup]
    · simp [mapping, s, t, schema, List.find?_cons, h]
  have hmodules (m : Module) : m ∈ s.modules ↔ m ∈ u.modules := by
    simp only [s, u, schema, modules, Component.modules, List.map_cons, List.map_nil,
      List.flatMap_cons, List.flatMap_nil, List.mem_append, Option.getD_some, List.mem_cons]
    tauto
  have hrepeats : ¬ s.Repeats := by
    refine (keyed_of_ofJson (by decide) hs).distinct_iff.mp ?_
    show ["First", "Second", "Third"].Nodup
    decide
  have hrepeats' : ¬ u.Repeats := by
    refine (keyed_of_ofJson (by decide) hu).distinct_iff.mp ?_
    show ["Second", "Third", "First"].Nodup
    decide
  have horder := (files_independent_of_order (by decide) (by decide) hs ht).1 hmapping
  have hgrouping := (files_independent_of_order (by decide) (by decide) hs hu).2 hmodules
  exact ⟨s, t, u, hs, ht, hu, fun spec =>
    ⟨horder.2 hrepeats spec, hgrouping hrepeats hrepeats' spec⟩⟩

end NativeHeader.Schema

import Mathlib.Data.List.Nodup
import NativeHeader.Proofs.Header.Lines
import NativeHeader.Proofs.Schema.Loader

/-! The converters of a header.

Every struct has a category that converts to it. All categories extend one class, so their
names share one space, while the structs of a module are only told apart from each other.
The name puts a fixed word between the name of the module and the name of the struct, and
that word may also be part of either name. So the names of two structs can meet, but only
where one module is named like the other with the word and something more behind it
(`mangled_eq_iff`). In a header whose modules are not named so all names differ
(`header_converters`). -/
namespace NativeHeader

open Text Heading

/-! ### Mangled names -/

/-- What stands between the names of a module and of a struct. -/
def specMark : String := "_Spec"

/-- The struct `a` of one module and the struct `b` of another have the same mangled name
because the second module is named like the first with the mark and more behind it. -/
def Absorbs (a b : String × String) : Prop :=
  ∃ more, b.1 = a.1 ++ specMark ++ more ∧ a.2 = more ++ specMark ++ b.2

/-- The mark does not overlap with itself: two texts that each begin with what is left before
a mark have the same left, or one has the whole mark in what is left. -/
theorem mark_split {left a b : List Char}
    (h : specMark.toList ++ a = left ++ (specMark.toList ++ b)) :
    left = [] ∧ a = b ∨ ∃ more, left = specMark.toList ++ more ∧ a = more ++ (specMark.toList ++ b) := by
  have hmark : specMark.toList = ['_', 'S', 'p', 'e', 'c'] := rfl
  rw [hmark] at h ⊢
  rcases left with _ | ⟨c₁, _ | ⟨c₂, _ | ⟨c₃, _ | ⟨c₄, _ | ⟨c₅, more⟩⟩⟩⟩⟩
  · exact Or.inl ⟨rfl, by simpa using h⟩
  · simp at h
  · simp at h
  · simp at h
  · simp at h
  · refine Or.inr ⟨more, ?_⟩
    simp only [List.cons_append, List.nil_append, List.cons.injEq] at h
    obtain ⟨rfl, rfl, rfl, rfl, rfl, rfl⟩ := h
    exact ⟨rfl, rfl⟩

theorem mangled_eq (module name : String) :
    mangled module name = "Native" ++ (module ++ (specMark ++ name)) := by
  have hmark : specMark ++ name = "_" ++ ("Spec" ++ name) := by
    rw [← String.append_assoc]
    rfl
  rw [hmark, mangled, Naming.nativeModule, Naming.spec]
  simp only [String.append_assoc]

theorem absorbs_of_left {a b : String × String} {left : List Char}
    (hmodule : b.1.toList = a.1.toList ++ left)
    (hname : specMark.toList ++ a.2.toList = left ++ (specMark.toList ++ b.2.toList)) :
    a = b ∨ Absorbs a b := by
  rcases mark_split hname with ⟨rfl, hsame⟩ | ⟨more, rfl, hmore⟩
  · rw [List.append_nil] at hmodule
    exact Or.inl (Prod.ext (String.toList_inj.mp hmodule.symm) (String.toList_inj.mp hsame))
  · refine Or.inr ⟨String.ofList more, ?_, ?_⟩
    · simp [← String.toList_inj, hmodule]
    · simp [← String.toList_inj, hmore]

theorem Absorbs.mangled_eq {a b : String × String} (h : Absorbs a b) :
    mangled a.1 a.2 = mangled b.1 b.2 := by
  obtain ⟨more, hmodule, hname⟩ := h
  rw [NativeHeader.mangled_eq, NativeHeader.mangled_eq, hmodule, hname]
  simp only [String.append_assoc]

/-- **Two structs have the same mangled name exactly if they are the same or one module
absorbs the mark.** -/
theorem mangled_eq_iff {a b : String × String} :
    mangled a.1 a.2 = mangled b.1 b.2 ↔ a = b ∨ Absorbs a b ∨ Absorbs b a := by
  constructor
  · intro h
    rw [mangled_eq, mangled_eq, ← String.toList_inj] at h
    simp only [String.toList_append, List.append_cancel_left_eq] at h
    rcases List.append_eq_append_iff.mp h with ⟨left, hmodule, hname⟩ | ⟨left, hmodule, hname⟩
    · rcases absorbs_of_left hmodule hname with heq | habsorbs
      · exact Or.inl heq
      · exact Or.inr (Or.inl habsorbs)
    · rcases absorbs_of_left hmodule hname with heq | habsorbs
      · exact Or.inl heq.symm
      · exact Or.inr (Or.inr habsorbs)
  · rintro (rfl | habsorbs | habsorbs)
    · rfl
    · exact habsorbs.mangled_eq
    · exact habsorbs.mangled_eq.symm

/-! ### The categories of a header -/

/-- The structs of modules, each with the name of its module. -/
def declaredStructs (modules : List Module) : List (String × String) :=
  modules.flatMap fun m => m.structs.map fun t => (m.name, t.name.display)

theorem mem_declaredStructs {modules : List Module} {a : String × String} :
    a ∈ declaredStructs modules ↔
      ∃ m ∈ modules, ∃ t ∈ m.structs, (m.name, t.name.display) = a := by
  simp [declaredStructs]

theorem declaredStructs_perm {l r : List Module} (h : l.Perm r) :
    (declaredStructs l).Perm (declaredStructs r) := h.flatMap_right _

/-- The structs of a module have distinct texts as names if they have distinct names. -/
theorem nodup_displays {m : Module} (h : (m.structs.map (·.name)).Nodup) :
    (m.structs.map (·.name.display)).Nodup := by
  have hnames : m.structs.map (·.name) = (m.structs.map (·.name.display)).map Json.str := by
    rw [List.map_map]
    exact List.map_congr_left fun t ht => struct_named ht
  rw [hnames] at h
  exact List.Nodup.of_map _ h

/-- No struct is declared twice if the modules have distinct names and so have the structs
of each. -/
theorem nodup_declaredStructs {modules : List Module} (hmodules : (modules.map (·.name)).Nodup)
    (hstructs : ∀ m ∈ modules, (m.structs.map (·.name)).Nodup) : (declaredStructs modules).Nodup := by
  refine List.nodup_flatMap.mpr ⟨fun m hm => ?_, (List.pairwise_map.mp hmodules).imp ?_⟩
  · have hpairs := (nodup_displays (hstructs m hm)).map (f := Prod.mk m.name)
      fun _ _ h => (Prod.mk.inj h).2
    rwa [List.map_map] at hpairs
  · intro m m' hne a ha ha'
    obtain ⟨t, _, rfl⟩ := List.mem_map.mp ha
    obtain ⟨t', _, h⟩ := List.mem_map.mp ha'
    exact hne (Prod.mk.inj h).1.symm

/-- The modules of a header, and its structs, have distinct names. -/
theorem nodup_of_header {s : Schema} {text : String} (h : s.header = .ok text) :
    (declaredStructs s.ordered).Nodup := by
  obtain ⟨hdistinct, hcollect, _⟩ := Schema.header_eq_ok_iff.mp h
  refine nodup_declaredStructs ((s.ordered_perm.map _).nodup_iff.mpr hdistinct) fun m hm => ?_
  obtain ⟨members, context, hm⟩ := hcollect m hm
  exact (collect_eq_ok_iff.mp hm).2.1

/-- Lines that tell the mangled names of structs differ unless a module absorbs the mark. -/
theorem nodup_lines {modules : List Module} (hnodup : (declaredStructs modules).Nodup)
    (hmodules : ∀ m ∈ modules, ∀ m' ∈ modules, begins (m.name ++ specMark) m'.name = false)
    {line : String × String → String}
    (hline : ∀ a b, line a = line b → mangled a.1 a.2 = mangled b.1 b.2) :
    ((declaredStructs modules).map line).Nodup := by
  have happart : ∀ a ∈ declaredStructs modules, ∀ b ∈ declaredStructs modules, ¬ Absorbs a b := by
    intro a ha b hb ⟨more, hmodule, _⟩
    obtain ⟨m, hm, _, _, rfl⟩ := mem_declaredStructs.1 ha
    obtain ⟨m', hm', _, _, rfl⟩ := mem_declaredStructs.1 hb
    have hbegins := hmodules m hm m' hm'
    rw [show m'.name = m.name ++ specMark ++ more from hmodule, begins_append] at hbegins
    cases hbegins
  refine hnodup.map_on fun a ha b hb h => ?_
  rcases mangled_eq_iff.1 (hline a b h) with heq | habsorbs | habsorbs
  · exact heq
  · exact absurd habsorbs (happart a ha b hb)
  · exact absurd habsorbs (happart b hb a ha)

/-- The structs of one module have distinct mangled names. -/
theorem nodup_mangled {m : Module} (h : (m.structs.map (·.name)).Nodup) :
    (m.structs.map fun t => mangled m.name t.name.display).Nodup := by
  have hself : begins (m.name ++ specMark) m.name = false := by
    rw [Bool.eq_false_iff]
    intro hbegins
    have hlength := (begins_iff.mp hbegins).length_le
    simp only [String.toList_append, List.length_append] at hlength
    have hmark : 0 < specMark.toList.length := by decide
    omega
  have hnodup : (declaredStructs [m]).Nodup :=
    nodup_declaredStructs (List.nodup_singleton _) (List.forall_mem_singleton.mpr h)
  have hmangled := nodup_lines hnodup
    (List.forall_mem_singleton.mpr (List.forall_mem_singleton.mpr hself)) fun _ _ h => h
  simpa [declaredStructs, Function.comp_def] using hmangled

theorem category_line_inj {a b : String × String}
    (h : (Heading.category a.1 a.2).line = (Heading.category b.1 b.2).line) :
    mangled a.1 a.2 = mangled b.1 b.2 := by
  simpa [Heading.line, Heading.lead, Heading.rest, ← String.toList_inj] using h

theorem converter_line_inj {a b : String × String}
    (h : (Heading.converter a.1 a.2).line = (Heading.converter b.1 b.2).line) :
    mangled a.1 a.2 = mangled b.1 b.2 := by
  simpa [Heading.line, Heading.lead, Heading.rest, ← String.toList_inj] using h

theorem categories_of_header {s : Schema} (hs : s.Identified) {text : String} (h : s.header = .ok text) :
    linesFrom [categoryLead] text =
        (declaredStructs s.ordered).map (fun a => (Heading.category a.1 a.2).line) ∧
      linesFrom [converterLead] text =
        (declaredStructs s.ordered).map (fun a => (Heading.converter a.1 a.2).line) := by
  constructor
  · rw [linesFrom_header hs h (by decide) (fun module t => some (.category module t.name.display))
      (fun _ => none) (fun _ => none) (fun _ _ => rfl) (fun _ => rfl) (fun _ => rfl)]
    simp [declaredStructs, List.map_flatMap, Function.comp_def]
  · rw [linesFrom_header hs h (by decide) (fun module t => some (.converter module t.name.display))
      (fun _ => none) (fun _ => none) (fun _ _ => rfl) (fun _ => rfl) (fun _ => rfl)]
    simp [declaredStructs, List.map_flatMap, Function.comp_def]

/-- **The converters of a header.** There are two lines for every struct that was collected,
module by module and in the order in which the structs were found. Within a module all mangled
names differ, and two structs of the header have the same one only if the module of one
absorbs the mark. So all of them differ as long as no module is named like another with
the mark and more behind it. -/
theorem header_converters {s : Schema} (hs : s.Identified) {text : String} (h : s.header = .ok text) :
    ∃ modules : List Module, modules.Perm s.modules ∧ (modules.map (·.name)).Pairwise (· < ·) ∧
      (∀ m ∈ modules, ∃ members context, m.collect = .ok (members, context) ∧
        context.structs.toList = m.structs) ∧
      linesFrom [categoryLead] text =
        (declaredStructs modules).map (fun a => (Heading.category a.1 a.2).line) ∧
      linesFrom [converterLead] text =
        (declaredStructs modules).map (fun a => (Heading.converter a.1 a.2).line) ∧
      (declaredStructs modules).Nodup ∧
      (∀ m ∈ modules, (m.structs.map fun t => mangled m.name t.name.display).Nodup) ∧
      (∀ a b, mangled a.1 a.2 = mangled b.1 b.2 ↔ a = b ∨ Absorbs a b ∨ Absorbs b a) ∧
      ((∀ m ∈ modules, ∀ m' ∈ modules, begins (m.name ++ specMark) m'.name = false) →
        ((declaredStructs modules).map fun a => mangled a.1 a.2).Nodup ∧
          (linesFrom [categoryLead] text).Nodup ∧ (linesFrom [converterLead] text).Nodup) := by
  obtain ⟨hdistinct, hcollect, _⟩ := Schema.header_eq_ok_iff.mp h
  obtain ⟨hcategories, hconverters⟩ := categories_of_header hs h
  have hnodup := nodup_of_header h
  refine ⟨s.ordered, s.ordered_perm, hdistinct.ascending, fun m hm => ?_, hcategories, hconverters,
    hnodup, fun m hm => ?_, fun a b => mangled_eq_iff, fun hmodules => ⟨?_, ?_, ?_⟩⟩
  · obtain ⟨members, context, hm⟩ := hcollect m hm
    exact ⟨members, context, hm, (structs_of_collect hm).1⟩
  · obtain ⟨members, context, hm⟩ := hcollect m hm
    exact nodup_mangled (collect_eq_ok_iff.mp hm).2.1
  · exact nodup_lines hnodup hmodules fun _ _ h => h
  · rw [hcategories]
    exact nodup_lines hnodup hmodules fun _ _ => category_line_inj
  · rw [hconverters]
    exact nodup_lines hnodup hmodules fun _ _ => converter_line_inj

theorem header_converters_shops : ∃ text, Schema.shops.header = .ok text ∧
    (linesFrom [categoryLead] text).length = 6 ∧
    (linesFrom [categoryLead] text).Nodup ∧ (linesFrom [converterLead] text).Nodup := by
  obtain ⟨hs, text, h⟩ := shops_header
  obtain ⟨modules, hperm, _, _, hcategories, _, _, _, _, hdistinct⟩ := header_converters hs h
  have hshops : ∀ m ∈ Schema.shops.modules, ∀ m' ∈ Schema.shops.modules,
      begins (m.name ++ specMark) m'.name = false := by decide
  obtain ⟨_, hnodup⟩ := hdistinct fun m hm m' hm' =>
    hshops m (hperm.mem_iff.mp hm) m' (hperm.mem_iff.mp hm')
  refine ⟨text, h, ?_, hnodup⟩
  rw [hcategories, List.length_map, (declaredStructs_perm hperm).length_eq]
  decide

/-- A module with one method, whose one parameter is a record without fields. -/
def Module.takesRecord (module method param : String) : Module :=
  ⟨module, [⟨.str method, [⟨.str param, .record [], false⟩], ⟨.void, false⟩⟩]⟩

/-- The document of such a module. -/
def recordDocument (method param : String) : Json :=
  .obj [("properties", .arr [.obj [("name", .str method), ("typeAnnotation", .obj [
    ("params", .arr [.obj [("name", .str param), ("typeAnnotation",
      .obj [("type", .str "ObjectTypeAnnotation"), ("properties", .arr [])])]]),
    ("returnTypeAnnotation", .obj [("type", .str "VoidTypeAnnotation")])])]])]

theorem recordDocument_describes (module method param : String) :
    Json.DescribesModule (module, recordDocument method param) (.takesRecord module method param) := by
  have hparam : Json.DescribesParameter (.obj [("name", .str param), ("typeAnnotation",
      .obj [("type", .str "ObjectTypeAnnotation"), ("properties", .arr [])])])
      ⟨.str param, .record [], false⟩ :=
    ⟨rfl, ⟨_, rfl, .record rfl rfl .nil⟩, iff_of_false nofun nofun⟩
  have hreturned : Json.DescribesReturned (.obj [("type", .str "VoidTypeAnnotation")]) ⟨.void, false⟩ :=
    ⟨.plain (by simp [ValueType.plainTypes]) rfl, iff_of_false nofun nofun⟩
  exact ⟨rfl, _, rfl, .cons ⟨rfl, _, rfl, ⟨_, rfl, .cons hparam .nil⟩, _, rfl, hreturned⟩ .nil⟩

/-- Two modules, of which the second is named like the first with the mark and more behind it. -/
def Schema.meeting : Schema where
  components := [⟨"Shelf", some [.takesRecord "A" "b_SpecC" "d", .takesRecord "A_SpecB" "c" "d"]⟩]

/-- The document of that schema. -/
def meetingDocument : Json :=
  .obj [("modules", .obj [("Shelf", .obj [("nativeModules", .obj [
    ("A", recordDocument "b_SpecC" "d"), ("A_SpecB", recordDocument "c" "d")])])])]

theorem meetingDocument_describes : Schema.ofJson meetingDocument = .ok Schema.meeting :=
  ((Schema.ofJson_reads _).ok_iff _).mpr ⟨_, rfl, .cons ⟨rfl, _, rfl,
    .cons (recordDocument_describes ..) (.cons (recordDocument_describes ..) .nil)⟩ .nil⟩

/-- Its names are identifiers and it has a header, in which two categories have one name. -/
theorem converters_meet : Schema.ofJson meetingDocument = .ok Schema.meeting ∧
    Schema.meeting.Identified ∧ ∃ text, Schema.meeting.header = .ok text ∧
      ¬ (linesFrom [categoryLead] text).Nodup ∧ ¬ (linesFrom [converterLead] text).Nodup := by
  have hs : Schema.meeting.Identified := by decide
  have hheader : ∃ text, Schema.meeting.header = .ok text := by
    refine Schema.header_of_modules ?_ ?_
    · show (["A", "A_SpecB"] : List String).Nodup
      decide
    · rw [show Schema.meeting.modules = [_, _] from rfl]
      simp only [List.forall_mem_cons]
      exact ⟨⟨_, _, rfl⟩, ⟨_, _, rfl⟩, nofun⟩
  obtain ⟨text, h⟩ := hheader
  obtain ⟨hcategories, hconverters⟩ := categories_of_header hs h
  have hperm : (declaredStructs Schema.meeting.ordered).Perm [("A", "B_SpecCD"), ("A_SpecB", "CD")] := by
    have hdeclared : declaredStructs Schema.meeting.modules =
        [("A", "B_SpecCD"), ("A_SpecB", "CD")] := by decide
    exact hdeclared ▸ declaredStructs_perm Schema.meeting.ordered_perm
  refine ⟨meetingDocument_describes, hs, text, h, ?_, ?_⟩
  · rw [hcategories, (hperm.map _).nodup_iff]
    decide
  · rw [hconverters, (hperm.map _).nodup_iff]
    decide

end NativeHeader

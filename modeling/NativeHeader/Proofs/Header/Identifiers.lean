import NativeHeader.Proofs.Header.Constants
import NativeHeader.Proofs.Schema.Flatten
import NativeHeader.Proofs.Text.Lines

/-! Schemas whose names are identifiers.

An identifier has letters, digits and underscores only. So a name that is one stays on its
line, and so does every name and every type made from such names. -/
namespace NativeHeader

open Text

/-! ### Identifiers -/

/-- A letter or an underscore, and after it letters, digits and underscores. -/
def Text.isIdentifier (s : String) : Bool :=
  match s.toList with
  | [] => false
  | c :: rest => Template.isIdentifierStart c && rest.all Template.isIdentifierPart

/-- A name that is a text and an identifier. -/
def Name.isIdentifier : Name → Bool
  | .str text => Text.isIdentifier text
  | _ => false

/-- The names of all fields below a value are identifiers. -/
def ValueType.Identified (type : ValueType) : Prop :=
  ∀ b ∈ type.records, ∀ f ∈ b.fields, Name.isIdentifier f.name = true

structure Method.Identified (m : Method) : Prop where
  name : Name.isIdentifier m.name = true
  parameters : ∀ p ∈ m.parameters, Name.isIdentifier p.name = true
  fields : ∀ p ∈ m.parameters, p.type.Identified
  returned : m.returned.type.Identified

structure Module.Identified (m : Module) : Prop where
  name : Text.isIdentifier m.name = true
  methods : ∀ method ∈ m.methods, method.Identified

/-- All names of the schema but those of its components are identifiers. -/
def Schema.Identified (s : Schema) : Prop := ∀ m ∈ s.modules, m.Identified

instance (type : ValueType) : Decidable type.Identified := inferInstanceAs (Decidable (∀ _ ∈ _, _))

instance (m : Method) : Decidable m.Identified :=
  decidable_of_iff (Name.isIdentifier m.name = true ∧
      (∀ p ∈ m.parameters, Name.isIdentifier p.name = true) ∧
      (∀ p ∈ m.parameters, p.type.Identified) ∧ m.returned.type.Identified)
    ⟨fun ⟨name, parameters, fields, returned⟩ => ⟨name, parameters, fields, returned⟩,
      fun h => ⟨h.name, h.parameters, h.fields, h.returned⟩⟩

instance (m : Module) : Decidable m.Identified :=
  decidable_of_iff (Text.isIdentifier m.name = true ∧ ∀ method ∈ m.methods, method.Identified)
    ⟨fun ⟨name, methods⟩ => ⟨name, methods⟩, fun h => ⟨h.name, h.methods⟩⟩

instance (s : Schema) : Decidable s.Identified := inferInstanceAs (Decidable (∀ _ ∈ _, _))

/-- An identifier begins with a letter or an underscore. -/
theorem identifier_cons {s : String} (h : Text.isIdentifier s = true) :
    ∃ c rest, s.toList = c :: rest ∧ Template.isIdentifierStart c = true ∧
      ∀ d ∈ rest, Template.isIdentifierPart d = true := by
  unfold Text.isIdentifier at h
  cases hs : s.toList with
  | nil =>
    rw [hs] at h
    cases h
  | cons c rest =>
    rw [hs, Bool.and_eq_true, List.all_eq_true] at h
    exact ⟨c, rest, rfl, h⟩

theorem not_mem_identifier {s : String} (h : Text.isIdentifier s = true) {c : Char}
    (hstart : Template.isIdentifierStart c = false) (hpart : Template.isIdentifierPart c = false) :
    c ∉ s.toList := by
  obtain ⟨first, rest, hs, hfirst, hrest⟩ := identifier_cons h
  rw [hs, List.mem_cons, not_or]
  refine ⟨?_, fun hmem => ?_⟩
  · rintro rfl
    rw [hstart] at hfirst
    cases hfirst
  · have hc := hrest c hmem
    rw [hpart] at hc
    cases hc

theorem oneLine_identifier {s : String} (h : Text.isIdentifier s = true) : OneLine s :=
  not_mem_identifier h (by decide) (by decide)

theorem identifier_display {name : Name} (h : Name.isIdentifier name = true) :
    Text.isIdentifier name.display = true := by
  cases name with
  | str text => exact h
  | _ => cases h

theorem oneLine_display {name : Name} (h : Name.isIdentifier name = true) : OneLine name.display :=
  oneLine_identifier (identifier_display h)

/-! ### Names that are made -/

theorem oneLine_join {parts : List String} (h : ∀ p ∈ parts, OneLine p) : OneLine (String.join parts) := by
  rw [OneLine, String.toList_join, List.mem_flatMap]
  rintro ⟨p, hp, hmem⟩
  exact h p hp hmem

theorem oneLine_capitalize {s : String} (h : OneLine s) : OneLine (Naming.capitalize s) := by
  unfold OneLine at h ⊢
  cases hs : s.toList with
  | nil =>
    rw [String.toList_eq_nil_iff.mp hs]
    decide
  | cons c rest =>
    rw [hs, List.mem_cons, not_or] at h
    rw [Naming.toList_capitalize hs, List.mem_append, not_or]
    exact ⟨fun hmem => h.1 (newline_of_upper hmem).symm, h.2⟩

theorem oneLine_struct {parts : List String} (h : ∀ p ∈ parts, OneLine p) :
    OneLine (Naming.struct parts) :=
  oneLine_join (List.forall_mem_map.mpr fun p hp => oneLine_capitalize (h p hp))

theorem oneLine_element {array : String} (h : OneLine array) : OneLine (Naming.element array) :=
  oneLine_append.mpr ⟨h, oneLine_ofList (by decide)⟩

theorem oneLine_nativeModule {module : String} (h : OneLine module) :
    OneLine (Naming.nativeModule module) := oneLine_append.mpr ⟨oneLine_ofList (by decide), h⟩

theorem oneLine_reference {module name : String} (hm : OneLine module) (hn : OneLine name) :
    OneLine (Naming.reference module name) := by
  simp +decide [Naming.reference, Naming.nativeModule, Naming.spec, hm, hn]

section
variable {m : Method} (hm : m.Identified)
include hm

theorem oneLine_parameterSite {p : Parameter} (hp : p ∈ m.parameters) :
    OneLine (Site.parameter p.name m.name).name := by
  refine oneLine_join ?_
  simp [Site.words, oneLine_capitalize (oneLine_display hm.name),
    oneLine_capitalize (oneLine_display (hm.parameters p hp))]

theorem oneLine_returnedSite : OneLine (Site.returned m.name).name := by
  refine oneLine_join ?_
  simp +decide [Site.words, oneLine_capitalize (oneLine_display hm.name)]

/-- The name of a site that is found by identifiers. -/
theorem oneLine_site {site : Site} {type : ValueType} (h : (site, type) ∈ m.sites) :
    OneLine site.name := by
  obtain ⟨_, ⟨p, hp, rfl, rfl⟩ | ⟨fields, _, rfl, rfl⟩⟩ := mem_sites.mp h
  · exact oneLine_parameterSite hm hp
  · exact oneLine_returnedSite hm

end

/-- The steps from a value to a record below it are named by fields above the record. -/
theorem oneLine_steps {type : ValueType} {steps : List Descent} {inner : List Field}
    (h : type.Leads steps inner) (htype : type.Identified) : ∀ step ∈ steps, OneLine step.word := by
  induction h with
  | here => exact nofun
  | @field fields f steps inner hf hleads ih =>
    have hhere : (⟨[], fields⟩ : Below) ∈ (ValueType.record fields).records := mem_records.mpr (.here _)
    rw [List.forall_mem_cons]
    refine ⟨oneLine_capitalize (oneLine_display (htype _ hhere f hf)), ih fun b hb => ?_⟩
    exact htype (b.under (.field f.name)) (mem_records.mpr (.field hf (mem_records.mp hb)))
  | element hleads ih =>
    rw [List.forall_mem_cons]
    refine ⟨by decide, ih fun b hb => ?_⟩
    exact htype (b.under .element) (mem_records.mpr (.element (mem_records.mp hb)))

section
variable {m : Module} (hm : m.Identified)
include hm

/-- The structs of the module are named on one line, and their fields by identifiers. -/
theorem struct_identified {s : Struct} (hs : s ∈ m.structs) :
    OneLine s.name.display ∧ ∀ f ∈ s.fields, Name.isIdentifier f.name = true := by
  obtain ⟨method, hmethod, site, type, hsite, b, hb, rfl⟩ := mem_structs.mp hs
  have hidentified := hm.methods method hmethod
  have htype : type.Identified := by
    obtain ⟨_, ⟨p, hp, _, rfl⟩ | ⟨fields, hrecord, _, rfl⟩⟩ := mem_sites.mp hsite
    · exact hidentified.fields p hp
    · rw [← hrecord]
      exact hidentified.returned
  refine ⟨?_, htype b hb⟩
  show OneLine (Way.name ⟨site, b.steps⟩)
  rw [Way.name_eq, oneLine_append]
  refine ⟨oneLine_site hidentified hsite, oneLine_join (List.forall_mem_map.mpr ?_)⟩
  exact oneLine_steps (mem_records.mp hb) htype

/-- The constants of the module are named by identifiers. -/
theorem constants_identified {fields : List Field} (h : m.constants? = some fields) :
    ∀ f ∈ fields, Name.isIdentifier f.name = true := by
  rw [constants?_eq] at h
  obtain ⟨method, hmethod, hfields⟩ := List.mem_filterMap.mp (List.mem_of_getLast? h)
  have hreturned := (hm.methods method hmethod).returned
  have hrecord : method.returned.type = .record fields := by
    unfold Method.constants? at hfields
    split at hfields
    · split at hfields <;> cases hfields
      assumption
    · cases hfields
  rw [hrecord] at hreturned
  exact hreturned ⟨[], fields⟩ (mem_records.mpr (.here fields))

end

/-! ### Types -/

/-- The tables of the three positions. -/
def TypeTable.all : List TypeTable := [parameters, returned, fields]

/-- Every row of a table is written on one line. -/
theorem oneLine_row {table : TypeTable} (htable : table ∈ TypeTable.all) {type : ValueType}
    {choice : Choice} (h : table type = some choice) :
    OneLine choice.present ∧ OneLine choice.nullable := by
  simp only [TypeTable.all, List.mem_cons, List.not_mem_nil, or_false] at htable
  rcases htable with rfl | rfl | rfl
  all_goals
    cases type with
    | reserved name =>
      obtain ⟨_, hrow⟩ := Option.ite_none_right_eq_some.mp h
      cases hrow
      exact ⟨oneLine_ofList (by decide), oneLine_ofList (by decide)⟩
    | _ => cases h <;> exact ⟨oneLine_ofList (by decide), oneLine_ofList (by decide)⟩

theorem oneLine_typeOf {table : TypeTable} (htable : table ∈ TypeTable.all) (type : ValueType)
    (nullable : Bool) : OneLine (table.typeOf type nullable).text := by
  unfold TypeTable.typeOf
  cases hrow : table type with
  | none => exact oneLine_ofList (by decide)
  | some choice =>
    obtain ⟨hpresent, hnullable⟩ := oneLine_row htable hrow
    cases nullable
    · exact hpresent
    · exact hnullable

theorem oneLine_vector {t : CType} (h : OneLine t.text) : OneLine (CType.vector t).text :=
  oneLine_append.mpr ⟨oneLine_append.mpr ⟨oneLine_ofList (by decide), h⟩, oneLine_ofList (by decide)⟩

theorem oneLine_orAbsent {t : CType} (h : OneLine t.text) (nullable : Bool) :
    OneLine (t.orAbsent nullable).text := by
  cases nullable
  · exact h
  · exact oneLine_append.mpr
      ⟨oneLine_append.mpr ⟨oneLine_ofList (by decide), h⟩, oneLine_ofList (by decide)⟩

section
variable {module name : String} (hm : OneLine module) (hname : OneLine name)
include hm hname

theorem oneLine_nestedCType (type : ValueType) : OneLine (type.nestedCType module name).text := by
  induction type using ValueType.nestingInduction generalizing name with
  | record fields => exact oneLine_reference hm hname
  | arrayOf element ih => exact oneLine_vector (ih (oneLine_element hname))
  | other type hrecord harray =>
    cases type with
    | record fields => exact (hrecord fields rfl).elim
    | arrayOf element => exact (harray element rfl).elim
    | array => exact oneLine_vector (t := genericElement) (oneLine_ofList (by decide))
    | _ => exact oneLine_typeOf (by simp [TypeTable.all]) _ false

/-- The getter of a field that is named by an identifier stays on its line. -/
theorem oneLine_getterType {f : Field} (hf : Name.isIdentifier f.name = true) :
    OneLine (f.getterType module name).text := by
  unfold Field.getterType
  split
  · refine oneLine_orAbsent (oneLine_nestedCType hm (oneLine_struct ?_) f.type) f.nullable
    simp [hname, oneLine_display hf]
  · exact oneLine_typeOf (by simp [TypeTable.all]) f.type f.nullable

end

theorem oneLine_constantCType (f : Field) : OneLine f.constantCType.text := by
  unfold Field.constantCType
  split
  · exact oneLine_ofList (by decide)
  · exact oneLine_ofList (by decide)
  · exact oneLine_ofList (by decide)
  · exact oneLine_typeOf (by simp [TypeTable.all]) _ false

section
variable {module : String} {m : Method} (hmodule : OneLine module) (hm : m.Identified)
include hmodule hm

theorem oneLine_argumentType {p : Parameter} (hp : p ∈ m.parameters) :
    OneLine (m.argumentType module p).text := by
  unfold Method.argumentType
  split
  · exact oneLine_append.mpr ⟨oneLine_reference hmodule (oneLine_parameterSite hm hp),
      oneLine_ofList (by decide)⟩
  · exact oneLine_typeOf (by simp [TypeTable.all]) _ p.nullable

theorem oneLine_returnedCType : OneLine (m.returnedCType module).text := by
  unfold Method.returnedCType
  split
  · exact oneLine_reference hmodule (oneLine_returnedSite hm)
  · exact oneLine_typeOf (by simp [TypeTable.all]) _ m.returned.nullable

end

end NativeHeader

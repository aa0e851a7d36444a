import Mathlib.Data.List.Forall2
import NativeHeader.Schema.Basic

/-! The format of schemas.

Which documents are schemas is said on the documents alone (`Json.IsSchema`), and so is
what each part has to be, down to the annotations. What a document describes is a
relation between it and a schema (`Json.DescribesSchema`): lists correspond item by item,
names are kept, and a value may be absent if its key is set. A document is a schema
exactly if it describes one (`isSchema_iff`).

An object is asked for its fields by `Json.field?`; a value that is no object has none. -/
namespace NativeHeader

namespace Json

/-- The value is an object with this tag. -/
def Tagged (data : Json) (tag : String) : Prop := data.field? "type" = some (.str tag)

/-- The key is absent or null. -/
def Lacks (data : Json) (key : String) : Prop :=
  data.field? key = none ∨ data.field? key = some .null

/-- There is a value under the key, and it counts as set. -/
def Sets (data : Json) (key : String) : Prop :=
  ∃ value, data.field? key = some value ∧ value.truthy = true

instance (data : Json) (key : String) : Decidable (data.Sets key) :=
  decidable_of_iff ((data.field? key).any truthy = true) (by simp [Sets, Option.any_eq_true])

/-- The field may be absent: `optional` says so, or `nullable` where it is not there. -/
def SetsOptional (data : Json) : Prop :=
  data.Sets "optional" ∨ data.field? "optional" = none ∧ data.Sets "nullable"

instance (data : Json) : Decidable data.SetsOptional :=
  inferInstanceAs (Decidable (_ ∨ _ ∧ _))

end Json

namespace ValueType

/-- The types whose annotations are told by their tags. -/
def plainTypes : List ValueType :=
  [.string, .number, .float, .int32, .boolean, .genericObject, .function, .void, .promise]

/-- The tags of all types that a header can have somewhere. -/
def knownTags : List String :=
  (plainTypes ++ [reserved "", ValueType.alias .null, array, record []]).map tag

end ValueType

open ValueType (plainTypes knownTags)

/-! ### Documents that are schemas -/

namespace Json

mutual

inductive IsAnnotation : Json → Prop
  | reserved {data : Json} {name : String} : data.Tagged "ReservedFunctionValueTypeAnnotation" →
      data.field? "name" = some (.str name) → IsAnnotation data
  | array {data : Json} : data.Tagged "ArrayTypeAnnotation" → data.Lacks "elementType" →
      IsAnnotation data
  | arrayOf {data element : Json} : data.Tagged "ArrayTypeAnnotation" →
      data.field? "elementType" = some element → IsAnnotation element → IsAnnotation data
  /-- Fields that are absent or not set. -/
  | bare {data : Json} : data.Tagged "ObjectTypeAnnotation" → ¬ data.Sets "properties" →
      IsAnnotation data
  | record {data : Json} {items : List Json} : data.Tagged "ObjectTypeAnnotation" →
      data.field? "properties" = some (.arr items) → (∀ item ∈ items, IsProperty item) →
      IsAnnotation data
  /-- Any other tag asks for nothing more. -/
  | other {data : Json} {tag : String} : data.Tagged tag →
      tag ∉ ["ReservedFunctionValueTypeAnnotation", "ArrayTypeAnnotation", "ObjectTypeAnnotation"] →
      IsAnnotation data

/-- A field of a record, or a parameter of a method. -/
inductive IsProperty : Json → Prop
  | of {data name given : Json} : data.field? "name" = some name →
      data.field? "typeAnnotation" = some given → IsAnnotation given → IsProperty data

end

structure IsFunction (data : Json) : Prop where
  parameters : ∃ items, data.field? "params" = some (.arr items) ∧ ∀ item ∈ items, item.IsProperty
  returned : ∃ given, data.field? "returnTypeAnnotation" = some given ∧ given.IsAnnotation

structure IsMethod (data : Json) : Prop where
  named : ∃ name, data.field? "name" = some name
  function : ∃ given, data.field? "typeAnnotation" = some given ∧ given.IsFunction

def IsModule (data : Json) : Prop :=
  ∃ items, data.field? "properties" = some (.arr items) ∧ ∀ item ∈ items, item.IsMethod

/-- A component may be anything; only what it has under `nativeModules` counts, unless it
is null. -/
def IsComponent (data : Json) : Prop :=
  data.Lacks "nativeModules" ∨
    ∃ entries, data.field? "nativeModules" = some (.obj entries) ∧
      ∀ entry ∈ entries, entry.2.IsModule

def IsSchema (data : Json) : Prop :=
  ∃ entries, data.field? "modules" = some (.obj entries) ∧ ∀ entry ∈ entries, entry.2.IsComponent

/-! ### What documents describe -/

mutual

inductive DescribesType : Json → ValueType → Prop
  | plain {data : Json} {type : ValueType} : type ∈ plainTypes → data.Tagged type.tag →
      DescribesType data type
  | reserved {data : Json} {name : String} : data.Tagged "ReservedFunctionValueTypeAnnotation" →
      data.field? "name" = some (.str name) → DescribesType data (.reserved name)
  | aliased {data : Json} : data.Tagged "TypeAliasTypeAnnotation" →
      DescribesType data (.alias ((data.field? "name").getD (.str "")))
  | array {data : Json} : data.Tagged "ArrayTypeAnnotation" → data.Lacks "elementType" →
      DescribesType data .array
  | arrayOf {data element : Json} {type : ValueType} : data.Tagged "ArrayTypeAnnotation" →
      data.field? "elementType" = some element → DescribesType element type →
      DescribesType data (.arrayOf type)
  | bare {data : Json} : data.Tagged "ObjectTypeAnnotation" → ¬ data.Sets "properties" →
      DescribesType data (.record [])
  | record {data : Json} {items : List Json} {fields : List Field} :
      data.Tagged "ObjectTypeAnnotation" → data.field? "properties" = some (.arr items) →
      List.Forall₂ DescribesField items fields → DescribesType data (.record fields)
  | unsupported {data : Json} {tag : String} : data.Tagged tag → tag ∉ knownTags →
      DescribesType data (.unsupported tag)

inductive DescribesField : Json → Field → Prop
  | of {data given : Json} {f : Field} : data.field? "name" = some f.name →
      data.field? "typeAnnotation" = some given → DescribesType given f.type →
      (f.nullable = true ↔ data.SetsOptional) → DescribesField data f

end

structure DescribesParameter (data : Json) (p : Parameter) : Prop where
  name : data.field? "name" = some p.name
  type : ∃ given, data.field? "typeAnnotation" = some given ∧ given.DescribesType p.type
  nullable : p.nullable = true ↔ data.Sets "nullable"

structure DescribesReturned (data : Json) (r : Returned) : Prop where
  type : data.DescribesType r.type
  nullable : r.nullable = true ↔ data.Sets "nullable"

structure DescribesFunction (data : Json) (m : Method) : Prop where
  parameters : ∃ items, data.field? "params" = some (.arr items) ∧
    List.Forall₂ DescribesParameter items m.parameters
  returned : ∃ given, data.field? "returnTypeAnnotation" = some given ∧
    given.DescribesReturned m.returned

structure DescribesMethod (data : Json) (m : Method) : Prop where
  name : data.field? "name" = some m.name
  function : ∃ given, data.field? "typeAnnotation" = some given ∧ given.DescribesFunction m

/-- A module with its key. -/
structure DescribesModule (entry : String × Json) (m : Module) : Prop where
  name : m.name = entry.1
  methods : ∃ items, entry.2.field? "properties" = some (.arr items) ∧
    List.Forall₂ DescribesMethod items m.methods

/-- The modules of a component, if it has any. -/
def DescribesModules (data : Json) : Option (List Module) → Prop
  | none => data.Lacks "nativeModules"
  | some modules => ∃ entries, data.field? "nativeModules" = some (.obj entries) ∧
      List.Forall₂ DescribesModule entries modules

/-- A component with its key. -/
structure DescribesComponent (entry : String × Json) (c : Component) : Prop where
  name : c.name = entry.1
  modules : entry.2.DescribesModules c.modules?

def DescribesSchema (data : Json) (s : Schema) : Prop :=
  ∃ entries, data.field? "modules" = some (.obj entries) ∧
    List.Forall₂ DescribesComponent entries s.components

/-! ### Schemas are what describes something -/

/-- What holds of a value if it holds of all smaller ones holds of every value. -/
@[elab_as_elim]
theorem sizeInduction {motive : Json → Prop}
    (step : ∀ data, (∀ inner, sizeOf inner < sizeOf data → motive inner) → motive data)
    (data : Json) : motive data :=
  (measure sizeOf).wf.induction data step

theorem sizeOf_item_lt {data : Json} {key : String} {items : List Json} {item : Json}
    (h : data.field? key = some (.arr items)) (hitem : item ∈ items) : sizeOf item < sizeOf data := by
  have hlist := sizeOf_field?_lt h
  have := List.sizeOf_lt_of_mem hitem
  rw [arr.sizeOf_spec] at hlist
  omega

theorem exists_forall₂_iff {α β : Type} {R : α → β → Prop} {l : List α} :
    (∃ r, List.Forall₂ R l r) ↔ ∀ a ∈ l, ∃ b, R a b := by
  induction l with
  | nil => simp
  | cons a rest ih =>
    rw [List.forall_mem_cons, ← ih]
    constructor
    · rintro ⟨_, _ | ⟨hb, hr⟩⟩
      exact ⟨⟨_, hb⟩, _, hr⟩
    · rintro ⟨⟨b, hb⟩, r, hr⟩
      exact ⟨b :: r, .cons hb hr⟩

theorem isProperty_iff {data : Json}
    (h : ∀ inner : Json, sizeOf inner < sizeOf data →
      (inner.IsAnnotation ↔ ∃ type, inner.DescribesType type)) :
    data.IsProperty ↔ ∃ f, data.DescribesField f := by
  constructor
  · rintro ⟨hname, hgiven, hannotation⟩
    obtain ⟨type, htype⟩ := (h _ (sizeOf_field?_lt hgiven)).mp hannotation
    exact ⟨⟨_, type, decide data.SetsOptional⟩, .of hname hgiven htype decide_eq_true_iff⟩
  · rintro ⟨f, hname, hgiven, htype, _⟩
    exact .of hname hgiven ((h _ (sizeOf_field?_lt hgiven)).mpr ⟨f.type, htype⟩)

/-- A tag that asks for nothing more is that of a plain type or an alias, or unknown. -/
theorem describesType_of_other {data : Json} {tag : String} (htag : data.Tagged tag)
    (hother : tag ∉
      ["ReservedFunctionValueTypeAnnotation", "ArrayTypeAnnotation", "ObjectTypeAnnotation"]) :
    ∃ type, data.DescribesType type := by
  by_cases hknown : tag ∈ knownTags
  · obtain ⟨type, htype, rfl⟩ := List.mem_map.mp hknown
    rcases List.mem_append.mp htype with hplain | hmore
    · exact ⟨type, .plain hplain htag⟩
    · simp only [List.mem_cons, List.not_mem_nil, or_false] at hmore
      obtain rfl | rfl | rfl | rfl := hmore
      · exact absurd (List.mem_cons_self ..) hother
      · exact ⟨_, .aliased htag⟩
      · exact absurd (List.mem_cons_of_mem _ (List.mem_cons_self ..)) hother
      · exact absurd (List.mem_cons_of_mem _ (List.mem_cons_of_mem _ (List.mem_cons_self ..))) hother
  · exact ⟨_, .unsupported htag hknown⟩

/-- The tags of plain types ask for nothing more. -/
theorem plain_tag_other : ∀ type ∈ plainTypes, type.tag ∉
    ["ReservedFunctionValueTypeAnnotation", "ArrayTypeAnnotation", "ObjectTypeAnnotation"] := by
  simp only [plainTypes, List.forall_mem_cons]
  decide

/-- **A value is an annotation exactly if it describes a type.** -/
theorem isAnnotation_iff (data : Json) : data.IsAnnotation ↔ ∃ type, data.DescribesType type := by
  induction data using sizeInduction with
  | step data ih =>
    have hitems : ∀ {items : List Json}, data.field? "properties" = some (.arr items) →
        ((∀ item ∈ items, item.IsProperty) ↔ ∃ fields, List.Forall₂ DescribesField items fields) := by
      intro items hitems
      rw [exists_forall₂_iff]
      refine forall₂_congr fun item hitem => isProperty_iff fun inner hinner => ih inner ?_
      exact Nat.lt_trans hinner (sizeOf_item_lt hitems hitem)
    constructor
    · intro h
      cases h with
      | reserved htag hname => exact ⟨_, .reserved htag hname⟩
      | array htag hlacks => exact ⟨_, .array htag hlacks⟩
      | arrayOf htag helement hannotation =>
        obtain ⟨type, htype⟩ := (ih _ (sizeOf_field?_lt helement)).mp hannotation
        exact ⟨_, .arrayOf htag helement htype⟩
      | bare htag hunset => exact ⟨_, .bare htag hunset⟩
      | record htag hlist hproperties =>
        obtain ⟨fields, hfields⟩ := (hitems hlist).mp hproperties
        exact ⟨_, .record htag hlist hfields⟩
      | other htag hother => exact describesType_of_other htag hother
    · rintro ⟨type, h⟩
      cases h with
      | plain hplain htag => exact .other htag (plain_tag_other type hplain)
      | reserved htag hname => exact .reserved htag hname
      | aliased htag => exact .other htag (by decide)
      | array htag hlacks => exact .array htag hlacks
      | arrayOf htag helement htype =>
        exact .arrayOf htag helement ((ih _ (sizeOf_field?_lt helement)).mpr ⟨_, htype⟩)
      | bare htag hunset => exact .bare htag hunset
      | record htag hlist hfields => exact .record htag hlist ((hitems hlist).mpr ⟨_, hfields⟩)
      | unsupported htag hunknown =>
        refine .other htag fun hmem => hunknown ?_
        revert hmem
        simp only [List.mem_cons, List.not_mem_nil, or_false]
        rintro (rfl | rfl | rfl) <;> decide

theorem isParameter_iff (data : Json) : data.IsProperty ↔ ∃ p, data.DescribesParameter p := by
  constructor
  · rintro ⟨hname, hgiven, hannotation⟩
    obtain ⟨type, htype⟩ := (isAnnotation_iff _).mp hannotation
    exact ⟨⟨_, type, decide (data.Sets "nullable")⟩, hname, ⟨_, hgiven, htype⟩, decide_eq_true_iff⟩
  · rintro ⟨p, hname, ⟨given, hgiven, htype⟩, _⟩
    exact .of hname hgiven ((isAnnotation_iff _).mpr ⟨_, htype⟩)

theorem isMethod_iff (data : Json) : data.IsMethod ↔ ∃ m, data.DescribesMethod m := by
  constructor
  · rintro ⟨⟨name, hname⟩, function, hfunction, ⟨items, hitems, hproperties⟩, given, hgiven,
      hannotation⟩
    obtain ⟨parameters, hparameters⟩ :=
      exists_forall₂_iff.2 fun item hitem => (isParameter_iff item).mp (hproperties item hitem)
    obtain ⟨type, htype⟩ := (isAnnotation_iff _).mp hannotation
    refine ⟨⟨name, parameters, type, decide (given.Sets "nullable")⟩, hname, function, hfunction,
      ⟨items, hitems, hparameters⟩, given, hgiven, htype, decide_eq_true_iff⟩
  · rintro ⟨m, hname, function, hfunction, ⟨items, hitems, hparameters⟩, given, hgiven, htype, _⟩
    refine ⟨⟨_, hname⟩, function, hfunction, ⟨items, hitems, fun item hitem => ?_⟩, given, hgiven,
      (isAnnotation_iff _).mpr ⟨_, htype⟩⟩
    exact (isParameter_iff item).mpr (exists_forall₂_iff.1 ⟨_, hparameters⟩ item hitem)

theorem isModule_iff (entry : String × Json) :
    entry.2.IsModule ↔ ∃ m, DescribesModule entry m := by
  constructor
  · rintro ⟨items, hitems, hall⟩
    obtain ⟨methods, hmethods⟩ :=
      exists_forall₂_iff.2 fun item hitem => (isMethod_iff item).mp (hall item hitem)
    exact ⟨⟨entry.1, methods⟩, rfl, items, hitems, hmethods⟩
  · rintro ⟨m, _, items, hitems, hmethods⟩
    exact ⟨items, hitems, fun item hitem =>
      (isMethod_iff item).mpr (exists_forall₂_iff.1 ⟨_, hmethods⟩ item hitem)⟩

theorem isComponent_iff (entry : String × Json) :
    entry.2.IsComponent ↔ ∃ c, DescribesComponent entry c := by
  constructor
  · rintro (hlacks | ⟨entries, hentries, hall⟩)
    · exact ⟨⟨entry.1, none⟩, rfl, hlacks⟩
    · obtain ⟨modules, hmodules⟩ :=
        exists_forall₂_iff.2 fun inner hinner => (isModule_iff inner).mp (hall inner hinner)
      exact ⟨⟨entry.1, some modules⟩, rfl, entries, hentries, hmodules⟩
  · rintro ⟨⟨_, _ | modules⟩, _, hmodules⟩
    · exact Or.inl hmodules
    · obtain ⟨entries, hentries, hall⟩ := hmodules
      exact Or.inr ⟨entries, hentries, fun inner hinner =>
        (isModule_iff inner).mpr (exists_forall₂_iff.1 ⟨_, hall⟩ inner hinner)⟩

/-- **A document is a schema exactly if it describes one.** -/
theorem isSchema_iff (data : Json) : data.IsSchema ↔ ∃ s, data.DescribesSchema s := by
  constructor
  · rintro ⟨entries, hentries, hall⟩
    obtain ⟨components, hcomponents⟩ :=
      exists_forall₂_iff.2 fun entry hentry => (isComponent_iff entry).mp (hall entry hentry)
    exact ⟨⟨components⟩, entries, hentries, hcomponents⟩
  · rintro ⟨s, entries, hentries, hcomponents⟩
    exact ⟨entries, hentries, fun entry hentry =>
      (isComponent_iff entry).mpr (exists_forall₂_iff.1 ⟨_, hcomponents⟩ entry hentry)⟩

end Json

end NativeHeader

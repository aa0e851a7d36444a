import NativeHeader.Proofs.Naming

/-! The records of a module, listed.

A value is a tree of records and arrays. `ValueType.records` lists its records, each
before those below it and fields in order, with the steps that lead to each; a
record is on the list exactly if steps lead to it (`mem_records`). A module is
searched at its `sites`: the parameters and the returned records of the methods it
declares. `Module.structs` names every record found there by its way. -/
namespace NativeHeader

/-! ### Records below a value -/

/-- What holds of a record if it holds of the types of its fields, of an array if
it holds of its elements, and of all other types, holds of every type. -/
@[elab_as_elim]
theorem ValueType.nestingInduction {motive : ValueType → Prop}
    (record : ∀ fields : List Field, (∀ f ∈ fields, motive f.type) → motive (.record fields))
    (arrayOf : ∀ element, motive element → motive (.arrayOf element))
    (other : ∀ type : ValueType, (∀ fields, type = .record fields → False) →
      (∀ element, type = .arrayOf element → False) → motive type)
    (type : ValueType) : motive type := by
  refine @ValueType.rec motive (fun fields => ∀ f ∈ fields, motive f.type) (fun f => motive f.type)
    ?reserved ?string ?number ?float ?int32 ?boolean ?object ?named ?array arrayOf record ?function
    ?void ?promise ?unsupported ?nil ?cons ?field type
  case nil =>
    intro f hf
    cases hf
  case cons =>
    intro f rest hf hrest g hg
    rcases List.mem_cons.mp hg with rfl | hg
    · exact hf
    · exact hrest g hg
  case field =>
    intro _ type _ h
    exact h
  all_goals
    intros
    exact other _ (fun _ h => by cases h) (fun _ h => by cases h)

/-- A record below a value: the steps that lead to it, and its fields. -/
structure Below where
  steps : List Descent
  fields : List Field

/-- The same record, seen from one step further up. -/
def Below.under (step : Descent) (b : Below) : Below := ⟨step :: b.steps, b.fields⟩

mutual

/-- The records of a value, each before those below it. -/
def ValueType.records : ValueType → List Below
  | .record fields => ⟨[], fields⟩ :: recordsOfFields fields
  | .arrayOf element => element.records.map (·.under .element)
  | _ => []

def recordsOfFields : List Field → List Below
  | [] => []
  | field :: rest => recordsOfField field ++ recordsOfFields rest

def recordsOfField : Field → List Below
  | ⟨name, type, _⟩ => type.records.map (·.under (.field name))

end

theorem recordsOfField_eq (f : Field) :
    recordsOfField f = f.type.records.map (·.under (.field f.name)) := by
  cases f
  rfl

theorem recordsOfFields_eq (fields : List Field) :
    recordsOfFields fields = fields.flatMap recordsOfField := by
  induction fields with
  | nil => rfl
  | cons f rest ih => rw [recordsOfFields, ih, List.flatMap_cons]

theorem records_record (fields : List Field) :
    (ValueType.record fields).records = ⟨[], fields⟩ :: fields.flatMap recordsOfField := by
  rw [ValueType.records, recordsOfFields_eq]

/-- Values that need no name of their own have no records. -/
theorem records_of_not_nested {type : ValueType} (h : type.isNested = false) : type.records = [] := by
  cases type <;> first | rfl | cases h

/-- The steps lead from a value to a record with these fields. -/
inductive ValueType.Leads : ValueType → List Descent → List Field → Prop
  | here (fields : List Field) : Leads (.record fields) [] fields
  | field {fields : List Field} {f : Field} {steps : List Descent} {inner : List Field} :
      f ∈ fields → Leads f.type steps inner → Leads (.record fields) (.field f.name :: steps) inner
  | element {element : ValueType} {steps : List Descent} {inner : List Field} :
      Leads element steps inner → Leads (.arrayOf element) (.element :: steps) inner

/-- The list has exactly the records that steps lead to. -/
theorem mem_records {type : ValueType} {b : Below} : b ∈ type.records ↔ type.Leads b.steps b.fields := by
  induction type using ValueType.nestingInduction generalizing b with
  | record fields ih =>
    rw [records_record, List.mem_cons, List.mem_flatMap]
    constructor
    · rintro (rfl | ⟨f, hf, hb⟩)
      · exact .here fields
      · rw [recordsOfField_eq] at hb
        obtain ⟨inner, hinner, rfl⟩ := List.mem_map.mp hb
        exact .field hf ((ih f hf).mp hinner)
    · obtain ⟨steps, inner⟩ := b
      intro h
      cases h with
      | here => exact Or.inl rfl
      | @field _ f steps _ hf h =>
        refine Or.inr ⟨f, hf, ?_⟩
        rw [recordsOfField_eq]
        exact List.mem_map.mpr ⟨⟨steps, inner⟩, (ih f hf).mpr h, rfl⟩
  | arrayOf element ih =>
    rw [ValueType.records]
    constructor
    · intro hb
      obtain ⟨inner, hinner, rfl⟩ := List.mem_map.mp hb
      exact .element (ih.mp hinner)
    · obtain ⟨steps, inner⟩ := b
      intro h
      cases h with
      | @element _ steps _ h => exact List.mem_map.mpr ⟨⟨steps, inner⟩, ih.mpr h, rfl⟩
  | other type hrecord harray =>
    rw [ValueType.records.eq_3 type hrecord harray]
    constructor
    · intro hb
      cases hb
    · obtain ⟨steps, inner⟩ := b
      intro h
      cases h with
      | here => exact absurd rfl (hrecord _)
      | field => exact absurd rfl (hrecord _)
      | element => exact absurd rfl (harray _)

/-! ### Records of a module -/

/-- The struct of a record below a site. -/
def Below.struct (site : Site) (b : Below) : Struct := ⟨.str (Way.name ⟨site, b.steps⟩), b.fields⟩

/-- The structs of the records that a value at a site is made of. -/
def Site.structs (site : Site) (type : ValueType) : List Struct := type.records.map (·.struct site)

/-- Where a method is searched. The method that describes the constants is not, and a
returned value only if it is a record itself. -/
def Method.sites (m : Method) : List (Site × ValueType) :=
  if m.describesConstants then []
  else
    m.parameters.map (fun p => (.parameter p.name m.name, p.type)) ++
      match m.returned.type with
      | .record fields => [(.returned m.name, .record fields)]
      | _ => []

/-- The structs of the records of a method. -/
def Method.structs (m : Method) : List Struct := m.sites.flatMap fun (site, type) => site.structs type

/-- The structs of the records of a module, in the order in which they are found. -/
def Module.structs (m : Module) : List Struct := m.methods.flatMap Method.structs

/-- The sites of a method that is searched: its parameters, and a record that it returns. -/
theorem mem_sites {m : Method} {site : Site} {type : ValueType} :
    (site, type) ∈ m.sites ↔ m.describesConstants = false ∧
      ((∃ p ∈ m.parameters, site = .parameter p.name m.name ∧ type = p.type) ∨
        ∃ fields, m.returned.type = .record fields ∧ site = .returned m.name ∧
          type = .record fields) := by
  unfold Method.sites
  cases hm : m.describesConstants
  · rw [if_neg Bool.false_ne_true, List.mem_append]
    cases m.returned.type <;> simp [eq_comm]
  · simp

/-- The structs of a module, site by site. -/
theorem mem_structs {m : Module} {s : Struct} :
    s ∈ m.structs ↔ ∃ method ∈ m.methods, ∃ site type, (site, type) ∈ method.sites ∧
      ∃ b ∈ type.records, b.struct site = s := by
  simp [Module.structs, Method.structs, Site.structs]

/-- A module with records in every position. -/
def Module.store : Module where
  name := "Store"
  methods := [
    { name := .str "save"
      parameters := [
        ⟨.str "options", .record [
          ⟨.str "item", .record [⟨.str "id", .string, false⟩], true⟩,
          ⟨.str "tags", .arrayOf (.arrayOf (.record [⟨.str "label", .string, false⟩])), false⟩], false⟩,
        ⟨.str "drafts", .arrayOf (.record [⟨.str "title", .string, false⟩]), false⟩]
      returned := ⟨.record [⟨.str "saved", .boolean, false⟩], false⟩ },
    { name := .str "getConstants"
      parameters := []
      returned := ⟨.record [⟨.str "limit", .number, false⟩], false⟩ }]

example : Module.store.structs.map (·.name.display) =
    ["SaveOptions", "SaveOptionsItem", "SaveOptionsTagsElementElement", "SaveDraftsElement",
      "SaveReturnType"] := by decide

end NativeHeader

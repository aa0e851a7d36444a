import Mathlib.Data.List.Forall2
import NativeHeader.Proofs.Header.Obstacles
import NativeHeader.Proofs.Struct.Getters

/-! References to structs.

Declarations and getters refer to structs by names that they make themselves, and no
one looks these names up. They are the names that the structs were registered by: the
record in a field of a struct is registered after the struct, under the name that the
getter makes for it (`Forward`), and names differ, so that a name stands for one struct
only (`Collection.Resolves`). Hence every reference finds the struct of the very
record at its place, and none dangles (`protocol_references`). -/
namespace NativeHeader

/-! ### Getters refer to what comes later -/

/-- The record in a field of a struct has a struct that comes later, under the name that
the getter makes for it. -/
def Forward : List Struct → Prop
  | [] => True
  | s :: rest =>
    (∀ f ∈ s.fields, ∀ inner, f.type.recordBelow? = some inner →
      (⟨.str (f.structName s.name.display), inner⟩ : Struct) ∈ rest) ∧ Forward rest

theorem Forward.append {a b : List Struct} (ha : Forward a) (hb : Forward b) : Forward (a ++ b) := by
  induction a with
  | nil => exact hb
  | cons s rest ih =>
    obtain ⟨hs, hrest⟩ := ha
    refine ⟨fun f hf inner hinner => ?_, ih hrest⟩
    exact List.mem_append_left b (hs f hf inner hinner)

theorem Forward.flatMap {ι : Type} {structs : ι → List Struct} (l : List ι)
    (h : ∀ i ∈ l, Forward (structs i)) : Forward (l.flatMap structs) := by
  induction l with
  | nil => trivial
  | cons i rest ih =>
    rw [List.flatMap_cons]
    exact (h i (List.mem_cons_self ..)).append (ih fun j hj => h j (List.mem_cons_of_mem i hj))

/-- What a struct refers to is among the structs. -/
theorem Forward.mem {structs : List Struct} (h : Forward structs) {s : Struct} (hs : s ∈ structs)
    {f : Field} (hf : f ∈ s.fields) {inner : List Field} (hinner : f.type.recordBelow? = some inner) :
    (⟨.str (f.structName s.name.display), inner⟩ : Struct) ∈ structs := by
  induction structs with
  | nil => cases hs
  | cons first rest ih =>
    rcases List.mem_cons.mp hs with rfl | hs
    · exact List.mem_cons_of_mem _ (h.1 f hf inner hinner)
    · exact List.mem_cons_of_mem _ (ih h.2 hs)

theorem isNested_of_recordBelow {type : ValueType} {inner : List Field}
    (h : type.recordBelow? = some inner) : type.isNested = true := by
  cases type <;> first | rfl | cases h

/-- The record in a value is registered under the name that the value gives it. -/
theorem registered_core (site : Site) (name path : String) {type : ValueType} {inner : List Field}
    (h : type.recordBelow? = some inner) :
    (⟨.str (type.coreName name), inner⟩ : Struct) ∈ registered (visits site name path type) := by
  induction type using ValueType.nestingInduction generalizing name path with
  | record fields =>
    cases h
    rw [visits, registered_register]
    exact List.mem_cons_self ..
  | arrayOf element ih =>
    rw [visits]
    exact ih (Naming.element name) path h
  | other type hrecord harray =>
    cases type with
    | record fields => exact (hrecord fields rfl).elim
    | arrayOf element => exact (harray element rfl).elim
    | _ => cases h

/-- A record is registered before those below it. -/
theorem forward_visits (site : Site) (name path : String) (type : ValueType) :
    Forward (registered (visits site name path type)) := by
  induction type using ValueType.nestingInduction generalizing name path with
  | record fields ih =>
    rw [visits, visitsOfFields_eq, registered_register, registered_flatMap]
    refine ⟨fun f hf inner hinner => List.mem_flatMap.mpr ⟨f, hf, ?_⟩, Forward.flatMap fields ?_⟩
    · obtain ⟨fieldName, type, nullable⟩ := f
      rw [visitsOfField, registered_check, if_pos (isNested_of_recordBelow hinner), registered_spell]
      exact registered_core site _ _ hinner
    · rintro ⟨fieldName, type, nullable⟩ hf
      rw [visitsOfField, registered_check]
      split
      · rw [registered_spell]
        exact ih _ hf _ _
      · trivial
  | arrayOf element ih =>
    rw [visits]
    exact ih (Naming.element name) path
  | other type hrecord harray =>
    rw [visits.eq_3 _ _ _ _ hrecord harray]
    trivial

theorem forward_structs (m : Module) : Forward m.structs := by
  refine Forward.flatMap m.methods fun method _ => Forward.flatMap method.sites ?_
  rintro ⟨site, type⟩ _
  show Forward (site.structs type)
  rw [← registered_site site ""]
  exact forward_visits site site.name "" type

/-! ### One struct for a name -/

/-- The name stands for one struct, which has these fields. -/
def Collection.Resolves (c : Collection) (name : String) (fields : List Field) : Prop :=
  c.toList.filter (fun s => s.name.key? = some (.text name)) = [⟨.str name, fields⟩]

/-- A type refers to the struct of a record, if there is one, and to nothing else. -/
def Collection.Refers (c : Collection) (module : String) (t : CType) : Option (List Field) → Prop
  | some fields => ∃ name, t.references = [(module, name)] ∧ c.Resolves name fields
  | none => t.references = []

theorem filter_name {structs : List Struct} (hnames : (structs.map (·.name)).Nodup) {name : String}
    {fields : List Field} (h : ⟨.str name, fields⟩ ∈ structs) :
    structs.filter (fun s => s.name.key? = some (.text name)) = [⟨.str name, fields⟩] := by
  have hkey : ∀ t : Struct, decide (t.name.key? = some (.text name)) = true ↔ t.name = .str name :=
    fun t => by rw [decide_eq_true_iff, key?_eq_text]
  induction structs with
  | nil => cases h
  | cons s rest ih =>
    obtain ⟨hs, hrest⟩ := List.nodup_cons.mp hnames
    rcases List.mem_cons.mp h with rfl | h
    · have hnone : rest.filter (fun s => s.name.key? = some (.text name)) = [] := by
        refine List.filter_eq_nil_iff.mpr fun t ht hname => hs ?_
        rw [hkey] at hname
        exact List.mem_map.mpr ⟨t, ht, hname⟩
      rw [List.filter_cons, if_pos ((hkey _).mpr rfl), hnone]
    · have hother : ¬ decide (s.name.key? = some (.text name)) = true := by
        rw [hkey]
        intro hname
        exact hs (List.mem_map.mpr ⟨_, h, hname.symm⟩)
      rw [List.filter_cons, if_neg hother]
      exact ih hrest h

/-- Among structs whose names differ a name stands for the struct that has it. -/
theorem resolves_of_mem {c : Collection} (hnames : c.names.Nodup) {name : String}
    {fields : List Field} (h : ⟨.str name, fields⟩ ∈ c.toList) : c.Resolves name fields :=
  filter_name hnames h

/-- A type that refers to a name for a record, and to nothing otherwise, refers to the
struct of the record if the name stands for it. -/
theorem refers_of_references {c : Collection} {module name : String} {t : CType}
    {record? : Option (List Field)}
    (href : t.references = (record?.map fun _ => (module, name)).toList)
    (hresolves : ∀ fields, record? = some fields → c.Resolves name fields) :
    c.Refers module t record? := by
  cases record? with
  | none => exact href
  | some fields => exact ⟨name, href, hresolves fields rfl⟩

/-! ### Declarations -/

/-- The fields of a record. -/
def ValueType.record? : ValueType → Option (List Field)
  | .record fields => some fields
  | _ => none

theorem record?_eq_some {type : ValueType} {fields : List Field} :
    type.record? = some fields ↔ type = .record fields := by
  cases type <;> simp [ValueType.record?]

theorem record?_eq_none {type : ValueType} :
    type.record? = none ↔ ∀ fields, type = .record fields → False := by
  cases type <;> simp [ValueType.record?]

theorem references_argumentType (module : String) (m : Method) (p : Parameter) :
    (m.argumentType module p).references =
      (p.type.record?.map fun _ => (module, (Site.parameter p.name m.name).name)).toList := by
  unfold Method.argumentType
  split
  case h_1 fields hrecord =>
    rw [hrecord]
    rfl
  case h_2 hrecord =>
    rw [record?_eq_none.2 hrecord]
    exact references_typeOf _ _ _

theorem references_returnedCType (module : String) (m : Method) :
    (m.returnedCType module).references =
      (m.returned.type.record?.map fun _ => (module, (Site.returned m.name).name)).toList := by
  unfold Method.returnedCType
  split
  case h_1 fields hrecord =>
    rw [hrecord]
    rfl
  case h_2 hrecord =>
    rw [record?_eq_none.2 hrecord]
    exact references_typeOf _ _ _

/-- A record at a site has a struct by the name of the site. -/
theorem site_struct_mem {m : Module} {method : Method} (hmethod : method ∈ m.methods) {site : Site}
    {fields : List Field} (hsite : (site, .record fields) ∈ method.sites) :
    ⟨.str site.name, fields⟩ ∈ m.structs := by
  refine mem_structs.mpr ⟨method, hmethod, site, .record fields, hsite, ⟨[], fields⟩, ?_, ?_⟩
  · rw [records_record]
    exact List.mem_cons_self ..
  · rw [Below.struct, Way.name_eq]
    simp

theorem ownArguments_types (module : String) (m : Method) (first : Bool) (params : List Parameter) :
    (m.ownArguments module first params).map (·.type) = params.map (m.argumentType module) := by
  induction params generalizing first with
  | nil => rfl
  | cons p rest ih => rw [Method.ownArguments, List.map_cons, List.map_cons, ih]

theorem promiseArguments_references {first : Bool} {a : Argument} (h : a ∈ promiseArguments first) :
    a.type.references = [] := by
  rcases List.mem_cons.mp h with rfl | h
  · rfl
  · rw [List.mem_singleton.mp h]
    rfl

/-- The arguments of a method are those of its parameters, and after them only such as
refer to nothing. -/
theorem argument_type (module : String) (m : Method) {j : Nat} {a : Argument}
    (h : (m.allArguments module)[j]? = some a) :
    (∃ p, m.parameters[j]? = some p ∧ a.type = m.argumentType module p) ∨
      m.parameters[j]? = none ∧ a.type.references = [] := by
  have htypes := ownArguments_types module m true m.parameters
  have hlength : (m.ownArguments module true m.parameters).length = m.parameters.length := by
    simpa using congrArg List.length htypes
  unfold Method.allArguments at h
  rcases Nat.lt_or_ge j m.parameters.length with hj | hj
  · rw [List.getElem?_append_left (by rwa [hlength])] at h
    have htype : (m.parameters.map (m.argumentType module))[j]? = some a.type := by
      rw [← htypes, List.getElem?_map, h]
      rfl
    rw [List.getElem?_map, Option.map_eq_some_iff] at htype
    obtain ⟨p, hp, ha⟩ := htype
    exact Or.inl ⟨p, hp, ha.symm⟩
  · rw [List.getElem?_append_right (by rwa [hlength])] at h
    refine Or.inr ⟨List.getElem?_eq_none hj, ?_⟩
    have hmem := List.mem_of_getElem? h
    split at hmem
    · exact promiseArguments_references hmem
    · cases hmem

/-! ### All references of a module -/

/-- The types in a declaration refer to the structs of the records at their places. -/
structure Declaration.Sound (c : Collection) (module : String) (m : Method) (d : Declaration) :
    Prop where
  returned : c.Refers module d.returned m.returned.type.record?
  arguments : ∀ (j : Nat) (a : Argument), d.arguments[j]? = some a →
    c.Refers module a.type (m.parameters[j]?.bind fun p => p.type.record?)

theorem declaration_sound {m : Module} {context : Context}
    (hstructs : context.structs.toList = m.structs) (hnames : context.structs.names.Nodup)
    {method : Method} (hmethod : method ∈ m.methods) {d : Declaration}
    (hd : method.member? m.name = some (.declaration d)) :
    d.Sound context.structs m.name method := by
  unfold Method.member? at hd
  cases hc : method.describesConstants
  case true =>
    rw [hc, if_pos rfl, Method.constantsMember?] at hd
    split at hd <;> cases hd
  rw [hc, if_neg Bool.false_ne_true] at hd
  cases hd
  have hresolves : ∀ {site : Site} {fields : List Field}, (site, .record fields) ∈ method.sites →
      context.structs.Resolves site.name fields := fun hsite =>
    resolves_of_mem hnames (hstructs ▸ site_struct_mem hmethod hsite)
  refine ⟨?_, fun j a ha => ?_⟩
  · refine refers_of_references (references_returnedCType m.name method) fun fields hrecord => ?_
    have htype := record?_eq_some.1 hrecord
    exact hresolves (mem_sites.mpr ⟨hc, Or.inr ⟨fields, htype, rfl, rfl⟩⟩)
  · rcases argument_type m.name method ha with ⟨p, hp, htype⟩ | ⟨hnone, href⟩
    · rw [hp, Option.bind_some, htype]
      refine refers_of_references (references_argumentType m.name method p) fun fields hrecord => ?_
      have htype := record?_eq_some.1 hrecord
      have hmem : p ∈ method.parameters := List.mem_of_getElem? hp
      exact hresolves (mem_sites.mpr ⟨hc, Or.inl ⟨p, hmem, rfl, htype.symm⟩⟩)
    · rw [hnone]
      exact href

theorem getter_sound {m : Module} {context : Context} (hclear : ∀ v ∈ m.visits, v.obstacle? = none)
    (hstructs : context.structs.toList = m.structs) (hnames : context.structs.names.Nodup)
    {s : Struct} (hs : s ∈ context.structs.toList) {f : Field} (hf : f ∈ s.fields) :
    ∃ t, fieldType m.name s.name f = .ok t ∧ context.structs.Refers m.name t f.type.recordBelow? := by
  rw [hstructs] at hs
  have hheld := held_of_clear hclear s hs f hf
  have hforward : ∀ inner, f.type.recordBelow? = some inner →
      ⟨.str (f.structName s.name.display), inner⟩ ∈ m.structs :=
    fun _ => (forward_structs m).mem hs hf
  obtain ⟨_, _, site, _, _, b, _, rfl⟩ := mem_structs.mp hs
  refine ⟨_, fieldType_of_held hheld m.name (Way.name ⟨site, b.steps⟩), ?_⟩
  refine refers_of_references (references_getterType m.name _ f) fun inner hinner => ?_
  apply resolves_of_mem hnames
  rw [hstructs]
  exact hforward inner hinner

/-- **In a module with a protocol every reference names the one struct of the record at
its place.** The declarations are those that the methods give, and the getters those of
the structs that the context has then. -/
theorem protocol_references {m : Module} {text : String} (h : m.protocol = .ok text) :
    ∃ outcomes context, (m.methods.mapM member).run.run m.start = (.ok outcomes, context) ∧
      m.collect = .ok (outcomes.filterMap id, context) ∧
      List.Forall₂ (fun method outcome => ∀ d, outcome = some (.declaration d) →
        d.Sound context.structs m.name method) m.methods outcomes ∧
      ∀ s ∈ context.structs.toList, ∀ f ∈ s.fields, ∃ t, fieldType m.name s.name f = .ok t ∧
        context.structs.Refers m.name t f.type.recordBelow? := by
  obtain ⟨members, context, hcollect⟩ := collect_of_protocol h
  obtain ⟨hclear, _, rfl, _⟩ := collect_eq_ok_iff.mp hcollect
  obtain ⟨hstructs, hnames⟩ := structs_of_collect hcollect
  refine ⟨m.methods.map (·.member? m.name), context, outcomes_of_collect hcollect, ?_, ?_, ?_⟩
  · rw [hcollect, List.filterMap_map]
    rfl
  · rw [List.forall₂_map_right_iff, List.forall₂_same]
    intro method hmethod d hd
    exact declaration_sound hstructs hnames hmethod hd
  · intro s hs f hf
    exact getter_sound hclear hstructs hnames hs hf

theorem protocol_references_store : ∃ text, Module.store.protocol = .ok text ∧
    ∃ outcomes context,
      (Module.store.methods.mapM member).run.run Module.store.start = (.ok outcomes, context) ∧
      Module.store.collect = .ok (outcomes.filterMap id, context) ∧
      List.Forall₂ (fun method outcome => ∀ d, outcome = some (.declaration d) →
        d.Sound context.structs "Store" method) Module.store.methods outcomes ∧
      ∀ s ∈ context.structs.toList, ∀ f ∈ s.fields, ∃ t, fieldType "Store" s.name f = .ok t ∧
        context.structs.Refers "Store" t f.type.recordBelow? := by
  have hprotocol : ∃ text, Module.store.protocol = .ok text := ⟨_, rfl⟩
  obtain ⟨text, h⟩ := hprotocol
  exact ⟨text, h, protocol_references h⟩

end NativeHeader

import NativeHeader.Proofs.Header.Layout

/-! Which modules have a protocol.

A module whose names are texts (`Module.Spelled`) has a protocol exactly if it is
`Acceptable`: its parameters and returned values have types in their tables or are
records, structs can hold all fields that are reached and all constants, and the names
made for the records that are reached differ. All of this is found out while the
methods are worked on. A module that is not acceptable is refused for a type or for a
name made twice, and what is written afterwards cannot fail (`protocol_ok_iff`). -/
namespace NativeHeader

/-! ### Acceptable modules -/

/-- The method has a record with these fields in one of the places where it is searched. -/
def Method.Reaches (m : Method) (fields : List Field) : Prop :=
  ∃ site type, (site, type) ∈ m.sites ∧ ∃ steps, type.Leads steps fields

theorem Method.reaches_iff {m : Method} {fields : List Field} :
    m.Reaches fields ↔ ∃ s ∈ m.structs, s.fields = fields := by
  unfold Method.Reaches Method.structs
  constructor
  · rintro ⟨site, type, hsite, steps, hsteps⟩
    refine ⟨Below.struct site ⟨steps, fields⟩, List.mem_flatMap.mpr ⟨_, hsite, ?_⟩, rfl⟩
    exact List.mem_map_of_mem (mem_records.mpr hsteps)
  · rintro ⟨s, hs, rfl⟩
    obtain ⟨⟨site, type⟩, hsite, hs⟩ := List.mem_flatMap.mp hs
    obtain ⟨b, hb, rfl⟩ := List.mem_map.mp hs
    exact ⟨site, type, hsite, b.steps, mem_records.mp hb⟩

/-- The names of methods, of parameters and of the fields that are reached are texts. -/
structure Module.Spelled (m : Module) : Prop where
  methods : ∀ method ∈ m.methods, ∃ text, method.name = .str text
  parameters : ∀ method ∈ m.methods, ∀ p ∈ method.parameters, ∃ text, p.name = .str text
  fields : ∀ method ∈ m.methods, ∀ fields, method.Reaches fields →
    ∀ f ∈ fields, ∃ text, f.name = .str text

instance (name : Name) : Decidable (∃ text, name = .str text) :=
  match name with
  | .str text => .isTrue ⟨text, rfl⟩
  | .null | .bool _ | .int _ | .float _ | .arr _ | .obj _ => .isFalse fun ⟨_, h⟩ => by cases h

theorem store_spelled : Module.store.Spelled := by
  have hfields : ∀ method ∈ Module.store.methods, ∀ s ∈ method.structs, ∀ f ∈ s.fields,
      ∃ text, f.name = .str text := by decide
  refine ⟨by decide, by decide, fun method hmethod fields hreaches => ?_⟩
  obtain ⟨s, hs, rfl⟩ := Method.reaches_iff.1 hreaches
  exact hfields method hmethod s hs

/-- A module that a header can have. -/
structure Module.Acceptable (m : Module) : Prop where
  parameters : ∀ method ∈ m.methods, method.describesConstants = false →
    ∀ p ∈ method.parameters, TypeTable.parameters.Knows p.type
  returned : ∀ method ∈ m.methods, method.describesConstants = false →
    TypeTable.returned.Knows method.returned.type
  fields : ∀ method ∈ m.methods, ∀ fields, method.Reaches fields →
    ∀ f ∈ fields, f.type.unsupportedInField? = none
  constants : ∀ method ∈ m.methods, method.describesConstants = true →
    ∀ fields, method.returned.type = .record fields → ∀ f ∈ fields, f.type.unsupportedInField? = none
  names : (m.structs.map (·.name)).Nodup

/-- A module whose names are texts is acceptable exactly if it meets no obstacle and the
names of its structs differ. -/
theorem acceptable_iff {m : Module} (hm : m.Spelled) :
    m.Acceptable ↔ (∀ v ∈ m.visits, v.obstacle? = none) ∧ (m.structs.map (·.name)).Nodup := by
  rw [module_clear_iff]
  constructor
  · intro h
    refine ⟨fun method hmethod => ?_, h.names⟩
    have hheld : ∀ {site : Site} {type : ValueType}, (site, type) ∈ method.sites →
        ∀ b ∈ type.records, ∀ f ∈ b.fields, f.Held := by
      intro site type hsite b hb f hf
      have hreaches : method.Reaches b.fields := ⟨site, type, hsite, b.steps, mem_records.mp hb⟩
      exact ⟨h.fields method hmethod b.fields hreaches f hf,
        fun _ => hm.fields method hmethod b.fields hreaches f hf⟩
    refine ⟨fun hc p hp => ?_, fun hc => ?_, h.constants method hmethod⟩
    · refine ⟨h.parameters method hmethod hc p hp, fun _ => ?_, ?_⟩
      · exact ⟨hm.methods method hmethod, hm.parameters method hmethod p hp⟩
      · exact hheld (mem_sites.mpr ⟨hc, Or.inl ⟨p, hp, rfl, rfl⟩⟩)
    · refine ⟨h.returned method hmethod hc, fun _ => hm.methods method hmethod, ?_⟩
      intro fields hrecord
      exact hheld (mem_sites.mpr ⟨hc, Or.inr ⟨fields, hrecord, rfl, hrecord⟩⟩)
  · rintro ⟨hclear, hnames⟩
    refine ⟨fun method hmethod hc p hp => ?_, fun method hmethod hc => ?_,
      fun method hmethod fields hreaches f hf => ?_, fun method hmethod => ?_, hnames⟩
    · exact ((hclear method hmethod).takes hc p hp).known
    · exact ((hclear method hmethod).returns hc).known
    · obtain ⟨site, type, hsite, steps, hsteps⟩ := hreaches
      have hb : (⟨steps, fields⟩ : Below) ∈ type.records := mem_records.mpr hsteps
      exact ((hclear method hmethod).held hsite _ hb f hf).supported
    · exact (hclear method hmethod).provides

/-! ### Refusals -/

/-- What a header cannot have: a type in its place, or a name made twice. -/
def Fault.IsRefusal (fault : Fault) : Prop :=
  (∃ place found, fault = .unsupported place found) ∨ ∃ name, fault = .shape (.repeatedStruct name)

/-- In a module whose names are texts all names can be taken apart. -/
theorem spelled_of_mem {m : Module} (hm : m.Spelled) {name : Name} (h : .spell name ∈ m.visits) :
    ∃ text, name = .str text := by
  obtain ⟨method, hmethod, h⟩ := List.mem_flatMap.mp h
  cases Method.visited_of_mem h with
  | name => exact hm.methods method hmethod
  | parameter hp => exact hm.parameters method hmethod _ hp
  | below hsite hbelow =>
    cases hbelow with
    | name hb hf => exact hm.fields method hmethod _ ⟨_, _, hsite, _, mem_records.mp hb⟩ _ hf

/-- A module without a protocol is refused while its methods are worked on. -/
theorem follow_of_protocol_error {m : Module} {fault : Fault} (h : m.protocol = .error fault) :
    ∃ context, follow m.start m.visits = (.error fault, context) := by
  rcases hfollow : follow m.start m.visits with ⟨first | _, context⟩
  · have hcollect : m.collect = .error first := by
      rw [collect_eq, hfollow]
    unfold Module.protocol at h
    rw [hcollect] at h
    cases h
    exact ⟨context, rfl⟩
  · have hcollect : m.collect = .ok (m.members, context) := by
      rw [collect_eq, hfollow]
    rw [protocol_eq hcollect] at h
    cases h

/-- A module whose names are texts is refused for a type or for a name made twice. -/
theorem refusal_of_follow {m : Module} (hm : m.Spelled) {fault : Fault} {context : Context}
    (h : follow m.start m.visits = (.error fault, context)) : fault.IsRefusal := by
  rcases follow_eq_error h with ⟨v, hv, hfault⟩ | hname
  · cases v with
    | check place found? =>
      obtain ⟨found, _, rfl⟩ := Option.map_eq_some_iff.mp hfault
      exact Or.inl ⟨place, found, rfl⟩
    | spell name =>
      rw [obstacle?_spell.mpr (spelled_of_mem hm hv)] at hfault
      cases hfault
    | _ => cases hfault
  · exact Or.inr hname

/-! ### What is written cannot fail -/

/-- The template of a protocol has all its slots filled. -/
theorem renderWith_protocol (module structs methods : String) :
    Templates.protocol.renderWith [("structs", structs),
      ("native_module_name", Naming.nativeModule module), ("methods", methods)] =
      .ok (protocolText module structs methods) := rfl

/-- So has the template of the accessors. -/
theorem renderWith_constants (module : String) :
    Templates.constants.renderWith [("native_module_name", Naming.nativeModule module)] =
      .ok (accessorsText module) := rfl

/-- **A module whose names are texts has a protocol exactly if it is acceptable.** If not, it
is refused for a type or for a name made twice; and once it is collected, its structs and
constants are written and all slots of its templates are filled. -/
theorem protocol_ok_iff {m : Module} (hm : m.Spelled) :
    ((∃ text, m.protocol = .ok text) ↔ m.Acceptable) ∧
      (∀ fault, m.protocol = .error fault → fault.IsRefusal) ∧
      ∀ members context, m.collect = .ok (members, context) →
        ∃ structs, renderStructs m.name context.structs.toList context.constants? = .ok structs ∧
          Templates.constants.renderWith [("native_module_name", Naming.nativeModule m.name)] =
            .ok (accessorsText m.name) ∧
          ∃ text, Templates.protocol.renderWith [("structs", structs),
            ("native_module_name", Naming.nativeModule m.name),
            ("methods", Text.unlines (members.map Member.text))] = .ok text ∧
            m.protocol = .ok text := by
  refine ⟨⟨fun ⟨text, h⟩ => ?_, fun h => ?_⟩, fun fault h => ?_, fun members context h => ?_⟩
  · obtain ⟨members, context, hcollect⟩ := collect_of_protocol h
    obtain ⟨hclear, hnames, _⟩ := collect_eq_ok_iff.mp hcollect
    exact (acceptable_iff hm).mpr ⟨hclear, hnames⟩
  · obtain ⟨hclear, hnames⟩ := (acceptable_iff hm).mp h
    exact ⟨_, protocol_eq (collect_eq_ok_iff.mpr ⟨hclear, hnames, rfl, rfl⟩)⟩
  · obtain ⟨context, hfollow⟩ := follow_of_protocol_error h
    exact refusal_of_follow hm hfollow
  · refine ⟨_, renderStructs_of_collect h, renderWith_constants m.name, _,
      renderWith_protocol m.name _ _, ?_⟩
    obtain ⟨_, _, rfl, _⟩ := collect_eq_ok_iff.mp h
    rw [protocol_eq h, Module.layout, Layout.written_append, written_membersLayout]

theorem protocol_ok_iff_store :
    Module.store.Spelled ∧ ((∃ text, Module.store.protocol = .ok text) ↔ Module.store.Acceptable) :=
  ⟨store_spelled, (protocol_ok_iff store_spelled).1⟩

end NativeHeader

import NativeHeader.Proofs.Header.Layout

/-! The constants of a module, declared and used.

A method that describes the constants uses them in its accessors, unless it describes a
record without fields (`Method.UsesConstants`), and it has them declared if it describes a
record with fields (`Method.DeclaresConstants`). So constants that are declared are used,
and constants that are used are declared as long as they are described by a record
(`protocol_constants`). Accessors of anything else are written all the same, and then
the type that they use is nowhere declared (`untyped_constants_undeclared`). -/
namespace NativeHeader

/-! ### Methods -/

/-- The method describes the constants by a record with fields. -/
def Method.DeclaresConstants (m : Method) : Prop :=
  m.describesConstants = true ∧ ∃ f rest, m.returned.type = .record (f :: rest)

/-- The method describes the constants by anything but a record without fields. -/
def Method.UsesConstants (m : Method) : Prop :=
  m.describesConstants = true ∧ m.returned.type ≠ .record []

/-- The record that a method keeps for the constants. -/
def Method.constants? (m : Method) : Option (List Field) :=
  if m.describesConstants then
    match m.returned.type with
    | .record [] => none
    | .record fields => some fields
    | _ => none
  else none

theorem constants?_isSome_iff {m : Method} : m.constants?.isSome = true ↔ m.DeclaresConstants := by
  unfold Method.constants? Method.DeclaresConstants
  cases m.describesConstants
  · simp
  · cases m.returned.type with
    | record fields => cases fields <;> simp
    | _ => simp

theorem member?_eq_accessors_iff {module : String} {m : Method} {owner : String} :
    m.member? module = some (.constantsAccessors owner) ↔ owner = module ∧ m.UsesConstants := by
  unfold Method.member? Method.constantsMember? Method.UsesConstants
  cases m.describesConstants
  · simp
  · cases m.returned.type with
    | record fields => cases fields <;> simp [eq_comm]
    | _ => simp [eq_comm]

/-- Nothing but the record of its constants is kept by a method. -/
theorem kept_visits (module : String) (m : Method) :
    (m.visits module).filterMap Visit.kept? = m.constants?.toList := by
  cases hm : m.describesConstants
  · have hnone : m.constants? = none := by
      unfold Method.constants?
      rw [hm]
      rfl
    rw [hnone, Option.toList_none, List.filterMap_eq_nil_iff]
    intro v hv
    cases Method.visited_of_mem hv with
    | constants hc =>
      rw [hm] at hc
      cases hc
    | below _ hbelow => cases hbelow <;> rfl
    | _ => rfl
  · have hchecks (fields : List Field) : (fields.flatMap fun f =>
        [Visit.check (.constant f.name module) f.type.unsupportedInField?]).filterMap
          Visit.kept? = [] := by
      rw [List.filterMap_flatMap, List.flatMap_eq_nil_iff]
      intro f _
      rfl
    unfold Method.visits Method.constantsVisits Method.constants?
    rw [hm, if_pos rfl, if_pos rfl]
    cases m.returned.type with
    | record fields =>
      cases fields with
      | nil => rfl
      | cons f rest =>
        show List.filterMap Visit.kept? (_ ++ [Visit.keep (f :: rest)]) = _
        rw [List.filterMap_append, hchecks]
        rfl
    | _ => rfl

/-! ### Modules -/

/-- The constants of a module are those that were described last. -/
theorem constants?_eq (m : Module) :
    m.constants? = (m.methods.filterMap Method.constants?).getLast? := by
  have hkept : m.visits.filterMap Visit.kept? = m.methods.filterMap Method.constants? := by
    unfold Module.visits
    rw [List.filterMap_flatMap]
    simp only [kept_visits]
    rw [List.filterMap_eq_flatMap_toList]
  unfold Module.constants? kept?
  rw [hkept]

theorem constants?_declared_iff {m : Module} :
    m.constants?.isSome = true ↔ ∃ method ∈ m.methods, method.DeclaresConstants := by
  rw [constants?_eq, List.getLast?_isSome]
  constructor
  · intro h
    obtain ⟨fields, hfields⟩ := List.exists_mem_of_ne_nil _ h
    obtain ⟨method, hmethod, hkept⟩ := List.mem_filterMap.mp hfields
    exact ⟨method, hmethod, constants?_isSome_iff.1 (Option.isSome_of_eq_some hkept)⟩
  · rintro ⟨method, hmethod, h⟩
    obtain ⟨fields, hkept⟩ := Option.isSome_iff_exists.mp (constants?_isSome_iff.2 h)
    exact List.ne_nil_of_mem (List.mem_filterMap.mpr ⟨method, hmethod, hkept⟩)

theorem accessors_mem_iff {m : Module} :
    .constantsAccessors m.name ∈ m.members ↔ ∃ method ∈ m.methods, method.UsesConstants := by
  unfold Module.members
  rw [List.mem_filterMap]
  refine exists_congr fun method => and_congr_right fun _ => ?_
  rw [member?_eq_accessors_iff]
  exact and_iff_right rfl

theorem Method.DeclaresConstants.uses {m : Method} (h : m.DeclaresConstants) : m.UsesConstants := by
  obtain ⟨hc, f, rest, hrecord⟩ := h
  refine ⟨hc, fun hempty => ?_⟩
  rw [hrecord] at hempty
  cases hempty

/-- Constants that are used are described by a record with fields or by no record. -/
theorem Method.UsesConstants.declares {m : Method} (h : m.UsesConstants)
    (hrecord : ∃ fields, m.returned.type = .record fields) : m.DeclaresConstants := by
  obtain ⟨fields, hrecord⟩ := hrecord
  cases fields with
  | nil => exact absurd hrecord h.2
  | cons f rest => exact ⟨h.1, f, rest, hrecord⟩

/-- **Constants are declared exactly if some method describes them by a record with fields,
and used exactly if some method describes them by anything but a record without fields.**
So they are used whenever they are declared, and declared whenever they are used unless a
method describes them by something that is no record. The text is what is declared and
the members of the module, one after the other. -/
theorem protocol_constants {m : Module} {text : String} (h : m.protocol = .ok text) :
    ∃ (declaration? : Option String) (structs : List String),
      text = protocolText m.name ("\n\n".intercalate (declaration?.toList ++ structs))
        (Text.unlines (m.members.map Member.text)) ∧
      List.Forall₂ (fun s struct => renderStruct m.name s = .ok struct) m.structs structs ∧
      (∀ declaration, declaration? = some declaration →
        ∃ fields, m.constants? = some fields ∧ renderConstants m.name fields = .ok declaration) ∧
      (declaration?.isSome = true ↔ ∃ method ∈ m.methods, method.DeclaresConstants) ∧
      (.constantsAccessors m.name ∈ m.members ↔ ∃ method ∈ m.methods, method.UsesConstants) ∧
      (declaration?.isSome = true → .constantsAccessors m.name ∈ m.members) ∧
      (.constantsAccessors m.name ∈ m.members → declaration?.isSome = true ∨
        ∃ method ∈ m.methods, method.describesConstants = true ∧
          ∀ fields, method.returned.type ≠ .record fields) := by
  obtain ⟨members, context, hcollect⟩ := collect_of_protocol h
  obtain ⟨hclear, _⟩ := collect_eq_ok_iff.mp hcollect
  have htext : text = m.layout.written := by
    rw [protocol_eq hcollect] at h
    cases h
    rfl
  let declaration? := m.constants?.map fun fields => (constantsLayout m.name fields).written
  have hdeclared : declaration?.isSome = true ↔ ∃ method ∈ m.methods, method.DeclaresConstants := by
    rw [Option.isSome_map, constants?_declared_iff]
  refine ⟨declaration?, m.structs.map fun s => (s.layout m.name).written, ?_, ?_, ?_, hdeclared,
    accessors_mem_iff, ?_, ?_⟩
  · rw [htext, Module.layout, Layout.written_append, written_membersLayout, Module.structsLayout,
      Layout.written_joined, List.map_append, List.map_map]
    cases hconstants : m.constants? <;> simp [declaration?, hconstants, Function.comp_def]
  · rw [List.forall₂_map_right_iff, List.forall₂_same]
    exact fun s hs => renderStruct_eq ⟨_, struct_named hs⟩ (held_of_clear hclear s hs) m.name
  · intro declaration hdeclaration
    obtain ⟨fields, hfields, rfl⟩ := Option.map_eq_some_iff.mp hdeclaration
    exact ⟨fields, hfields, renderConstants_eq (supported_of_kept hclear hfields) m.name⟩
  · rw [hdeclared, accessors_mem_iff]
    rintro ⟨method, hmethod, hdeclares⟩
    exact ⟨method, hmethod, hdeclares.uses⟩
  · rw [hdeclared, accessors_mem_iff]
    rintro ⟨method, hmethod, huses⟩
    by_cases hrecord : ∃ fields, method.returned.type = .record fields
    · exact Or.inl ⟨method, hmethod, huses.declares hrecord⟩
    · exact Or.inr ⟨method, hmethod, huses.1, fun fields hfields => hrecord ⟨fields, hfields⟩⟩

/-- A module that describes its constants twice, the first time without fields, among other
methods. -/
def Module.settings : Module where
  name := "Store"
  methods := [
    { name := .str "getConstants", parameters := [], returned := ⟨.record [], false⟩ },
    { name := .str "save"
      parameters := [⟨.str "options", .record [⟨.str "id", .string, false⟩], false⟩]
      returned := ⟨.void, false⟩ },
    { name := .str "getConstants"
      parameters := [⟨.str "unread", .unsupported "Mixed", false⟩]
      returned := ⟨.record [⟨.str "limit", .number, true⟩], true⟩ }]

theorem protocol_constants_settings : ∃ text, Module.settings.protocol = .ok text ∧
    ∃ (declaration? : Option String) (structs : List String),
      text = protocolText "Store" ("\n\n".intercalate (declaration?.toList ++ structs))
        (Text.unlines (Module.settings.members.map Member.text)) ∧
      declaration?.isSome = true ∧ .constantsAccessors "Store" ∈ Module.settings.members := by
  have hcollect : Module.settings.collect = .ok (_, _) := rfl
  have hprotocol : ∃ text, Module.settings.protocol = .ok text := ⟨_, protocol_eq hcollect⟩
  have hdeclares : ∃ method ∈ Module.settings.methods, method.DeclaresConstants :=
    ⟨_, List.mem_of_getLast? rfl, rfl, _, _, rfl⟩
  obtain ⟨text, h⟩ := hprotocol
  obtain ⟨declaration?, structs, htext, _, _, hdeclared, _, huses, _⟩ := protocol_constants h
  exact ⟨text, h, declaration?, structs, htext, hdeclared.mpr hdeclares,
    huses (hdeclared.mpr hdeclares)⟩

/-- A module that describes its constants by an object whose fields are not described. -/
def Module.untyped : Module where
  name := "Store"
  methods := [{ name := .str "getConstants", parameters := [], returned := ⟨.genericObject, false⟩ }]

/-- The methods of a protocol stand in its text. -/
theorem methods_infix (module structs methods : String) :
    methods.toList <:+: (protocolText module structs methods).toList := by
  simp only [protocolText, Template.fill, Templates.protocol, List.map_cons, List.map_nil,
    String.toList_join, List.flatMap_cons, List.flatMap_nil]
  iterate 4 refine List.infix_append_of_infix_right ?_
  exact List.infix_append_left

/-- Its accessors use a type that its text does not declare. -/
theorem untyped_constants_undeclared : ∃ text, Module.untyped.protocol = .ok text ∧
    .constantsAccessors "Store" ∈ Module.untyped.members ∧
    (accessorsText "Store").toList <:+: text.toList ∧
    ¬ "struct Constants".toList <:+: text.toList := by
  have hprotocol : Module.untyped.protocol =
      .ok (protocolText "Store" "" (Text.unlines [accessorsText "Store"])) := rfl
  refine ⟨_, hprotocol, List.mem_singleton.mpr rfl, methods_infix .., ?_⟩
  -- The literals are read one by one: the text as a whole is slow to read.
  simp only [protocolText, accessorsText, Template.fill, Templates.protocol, Templates.constants,
    Naming.nativeModule, Text.unlines, String.intercalate_cons_cons, String.intercalate_singleton,
    List.map_cons, List.map_nil, String.toList_join, List.flatMap_cons, List.flatMap_nil,
    String.toList_append, String.reduceToList]
  decide +kernel

end NativeHeader

import NativeHeader.Proofs.Header.Order
import NativeHeader.Proofs.Schema.Erasure

/-! The header shows what is left of a schema after erasure.

A schema and what is left of it (`Schema.erased`) are worked on side by side. Their methods
make the same visits, up to the fields that these carry along (`Method.visits_erased`), so
the contexts stay side by side too and the first visit that fails is the same
(`follow_erased`). The members of the protocols are equal. Rendering begins with different
fields, and comes to the same text or the same fault. -/
namespace NativeHeader

/-! ### Collecting -/

def Struct.erased (s : Struct) : Struct := ⟨s.name, s.fields.map erasedField⟩

def Context.erased (c : Context) : Context where
  moduleName := c.moduleName
  structs := ⟨c.structs.toList.map Struct.erased⟩
  constants? := c.constants?.map (·.map erasedField)

/-- A visit with what is left of the fields that it carries along. -/
def Visit.erased : Visit → Visit
  | .register name fields => .register name (fields.map erasedField)
  | .keep fields => .keep (fields.map erasedField)
  | visit => visit

/-- Names are taken on both sides alike. -/
theorem contains_erased (c : Context) (key : Json.Key) :
    c.erased.structs.contains key = c.structs.contains key := by
  unfold Collection.contains Context.erased
  rw [List.any_map]
  rfl

theorem step_erased (c : Context) (v : Visit) :
    v.erased.step c.erased = (v.step c).map Context.erased := by
  cases v with
  | register name fields =>
    simp only [Visit.erased, Visit.step, contains_erased]
    split
    · rfl
    · simp [Except.map, Context.erased, Collection.add, Struct.erased]
  | check place found? => cases found? <;> rfl
  | spell name =>
    simp only [Visit.erased, Visit.step]
    cases Name.text name <;> rfl
  | keep fields => rfl

/-- **Visits that are made side by side end alike**, and the first that fails is the same. -/
theorem follow_erased (c : Context) (visits : List Visit) :
    follow c.erased (visits.map Visit.erased) = ((follow c visits).1, (follow c visits).2.erased) := by
  induction visits generalizing c with
  | nil => rfl
  | cons v rest ih =>
    simp only [List.map_cons, follow, step_erased]
    cases v.step c with
    | ok after => exact ih after
    | error fault => rfl

/-! ### Visits -/

theorem visits_erased (site : Site) (name path : String) (type : ValueType) :
    visits site name path type.erased = (visits site name path type).map Visit.erased := by
  induction type using ValueType.nestingInduction generalizing name path with
  | record fields ih =>
    rw [erased_record, visits, visits, visitsOfFields_eq, visitsOfFields_eq, List.map_cons,
      List.flatMap_map, List.map_flatMap]
    congr 1
    apply List.flatMap_congr
    intro f hf
    obtain ⟨fieldName, type, nullable⟩ := f
    rw [erasedField, visitsOfField, visitsOfField, unsupportedInField?_erased, isNested_erased]
    cases type.isNested
    · rfl
    · rw [if_pos rfl, if_pos rfl, ih _ hf]
      rfl
  | arrayOf element ih =>
    rw [ValueType.erased, visits, visits]
    exact ih _ _
  | other type hrecord harray =>
    cases type with
    | record fields => exact (hrecord fields rfl).elim
    | arrayOf element => exact (harray element rfl).elim
    | _ => rfl

/-! ### Methods -/

section
variable (module : String) (m : Method) (p : Parameter)

theorem parameterVisits_erased :
    m.erased.parameterVisits (erasedField p) = (m.parameterVisits p).map Visit.erased := by
  unfold Method.parameterVisits Method.nestedVisits
  rw [erasedField_type, erasedField_name, TypeTable.blind_parameters.refused?, isNested_erased]
  cases p.type.isNested
  · rfl
  · have hbelow := visits_erased (.parameter p.name m.name) (Site.parameter p.name m.name).name "" p.type
    rw [if_pos rfl, if_pos rfl, List.map_cons, List.map_cons, List.map_cons, ← hbelow]
    rfl

theorem returnedVisits_erased : m.erased.returnedVisits = m.returnedVisits.map Visit.erased := by
  obtain ⟨name, parameters, type, nullable⟩ := m
  by_cases hrecord : ∃ fields, type = .record fields
  · obtain ⟨fields, rfl⟩ := hrecord
    have hbelow := visits_erased (.returned name) (Site.returned name).name "" (.record fields)
    exact congrArg (fun below => .check (.returned name) none :: .spell name :: below) hbelow
  · have hnot := not_exists.mp hrecord
    have hcheck := TypeTable.blind_returned.refused? type
    rw [refused?_of_not_record hnot, refused?_of_not_record (erased_not_record hnot)] at hcheck
    rw [returnedVisits_of_not_record (erased_not_record hnot), returnedVisits_of_not_record hnot]
    exact congrArg (fun found? => [Visit.check (.returned name) found?]) hcheck

theorem constantsVisits_erased :
    m.erased.constantsVisits module = (m.constantsVisits module).map Visit.erased := by
  obtain ⟨name, parameters, type, nullable⟩ := m
  unfold Method.constantsVisits Method.erased
  cases type with
  | record fields =>
    rw [erased_record]
    cases fields with
    | nil => rfl
    | cons f rest => simp [List.flatMap_map, List.map_flatMap, Visit.erased]
  | _ => rfl

/-- Only the method that describes the constants loses its parameters, and no one looks at them. -/
theorem methodVisits_erased : m.erased.visits module = (m.visits module).map Visit.erased := by
  have hconstants : m.erased.describesConstants = m.describesConstants := rfl
  unfold Method.visits
  rw [hconstants]
  cases hm : m.describesConstants
  · have hparams : m.erased.parameters = m.parameters.map erasedField := by
      rw [Method.erased, hm]
      rfl
    rw [if_neg Bool.false_ne_true, if_neg Bool.false_ne_true, List.map_append, returnedVisits_erased,
      hparams, List.flatMap_map, List.map_flatMap]
    congr 1
    exact List.flatMap_congr fun p _ => parameterVisits_erased m p
  · exact constantsVisits_erased module m

end

/-! ### Members -/

section
variable (module : String) (m : Method)

theorem argumentType_erased (p : Parameter) :
    m.erased.argumentType module (erasedField p) = m.argumentType module p := by
  obtain ⟨name, type, nullable⟩ := p
  by_cases hrecord : ∃ fields, type = .record fields
  · obtain ⟨fields, rfl⟩ := hrecord
    rfl
  · have hnot := not_exists.mp hrecord
    rw [argumentType_of_not_record module m hnot,
      argumentType_of_not_record module m.erased (erased_not_record hnot)]
    exact TypeTable.blind_parameters.typeOf type nullable

theorem ownArguments_erased (first : Bool) (params : List Parameter) :
    m.erased.ownArguments module first (params.map erasedField) =
      m.ownArguments module first params := by
  induction params generalizing first with
  | nil => rfl
  | cons p rest ih =>
    rw [List.map_cons, Method.ownArguments, Method.ownArguments, ih, argumentType_erased,
      erasedField_name]

theorem returnedCType_erased : m.erased.returnedCType module = m.returnedCType module := by
  obtain ⟨name, parameters, type, nullable⟩ := m
  by_cases hrecord : ∃ fields, type = .record fields
  · obtain ⟨fields, rfl⟩ := hrecord
    rfl
  · have hnot := not_exists.mp hrecord
    rw [returnedCType_of_not_record (erased_not_record hnot), returnedCType_of_not_record hnot]
    exact TypeTable.blind_returned.typeOf type nullable

theorem returnsPromise_erased : m.erased.returnsPromise = m.returnsPromise := by
  obtain ⟨name, parameters, type, nullable⟩ := m
  cases type <;> rfl

theorem constantsMember?_erased : m.erased.constantsMember? module = m.constantsMember? module := by
  obtain ⟨name, parameters, type, nullable⟩ := m
  cases type with
  | record fields => cases fields <;> rfl
  | _ => rfl

/-- **A method gives the same member.** -/
theorem member?_erased : m.erased.member? module = m.member? module := by
  have hconstants : m.erased.describesConstants = m.describesConstants := rfl
  unfold Method.member?
  rw [hconstants]
  cases hm : m.describesConstants
  · have hparams : m.erased.parameters = m.parameters.map erasedField := by
      rw [Method.erased, hm]
      rfl
    have harguments : m.erased.allArguments module = m.allArguments module := by
      rw [Method.allArguments, Method.allArguments, hparams, ownArguments_erased,
        returnsPromise_erased, List.isEmpty_map]
    rw [harguments, returnedCType_erased]
    rfl
  · exact constantsMember?_erased module m

end

theorem members_erased (m : Module) : m.erased.members = m.members := by
  unfold Module.members Module.erased
  rw [List.filterMap_map]
  exact List.filterMap_congr fun method _ => member?_erased m.name method

theorem moduleVisits_erased (m : Module) : m.erased.visits = m.visits.map Visit.erased := by
  unfold Module.visits Module.erased
  rw [List.flatMap_map, List.map_flatMap]
  exact List.flatMap_congr fun method _ => methodVisits_erased m.name method

/-- **A module is collected into the same members, and into structs side by side**, or it is
refused for the same fault. -/
theorem collect_erased (m : Module) :
    m.erased.collect = m.collect.map fun (members, context) => (members, context.erased) := by
  have hfollow := follow_erased m.start m.visits
  rw [← moduleVisits_erased] at hfollow
  rw [collect_eq, collect_eq, members_erased, show m.erased.start = m.start.erased from rfl, hfollow]
  rcases follow m.start m.visits with ⟨_ | _, context⟩ <;> rfl

/-! ### Rendering -/

theorem tableType_erased (struct : String) (field : Name) (type : ValueType) (nullable : Bool) :
    tableType struct field type.erased nullable = tableType struct field type nullable := by
  unfold tableType
  rw [TypeTable.blind_fields.find]

theorem nestedType_erased (module struct : String) (field : Name) (name : String) (type : ValueType) :
    nestedType module struct field name type.erased = nestedType module struct field name type := by
  induction type using ValueType.nestingInduction generalizing name with
  | record fields => rfl
  | arrayOf element ih =>
    rw [ValueType.erased, nestedType, nestedType, ih]
  | other type hrecord harray =>
    cases type with
    | record fields => exact (hrecord fields rfl).elim
    | arrayOf element => exact (harray element rfl).elim
    | _ => rfl

theorem fieldType_erased (module : String) (struct : Name) (f : Field) :
    fieldType module struct (erasedField f) = fieldType module struct f := by
  obtain ⟨name, type, nullable⟩ := f
  cases type with
  | arrayOf element =>
    have hnested (owner path : String) : nestedType module owner name path (.arrayOf element.erased) =
        nestedType module owner name path (.arrayOf element) :=
      nestedType_erased module owner name path (.arrayOf element)
    show fieldType module struct ⟨name, .arrayOf element.erased, nullable⟩ = _
    simp only [fieldType, hnested]
  | _ => rfl

theorem renderStruct_erased (module : String) (s : Struct) :
    renderStruct module s.erased = renderStruct module s := by
  have hgetter (f : Field) : getter module s.name (erasedField f) = getter module s.name f := by
    rw [getter, getter, fieldType_erased, erasedField_name]
  simp only [renderStruct, structLines, structRest, Struct.erased, List.mapM_map, Function.comp_def,
    hgetter, List.isEmpty_map]

theorem constantInput_erased (f : Field) : constantInput (erasedField f) = constantInput f := by
  have htype : constantType (erasedField f) = constantType f := by
    obtain ⟨name, type, nullable⟩ := f
    cases type <;> rfl
  rw [constantInput, constantInput, htype, erasedField_name, erasedField_nullable]

theorem renderConstants_erased (module : String) (fields : List Field) :
    renderConstants module (fields.map erasedField) = renderConstants module fields := by
  simp only [renderConstants, constantsLines, List.mapM_map, Function.comp_def, constantInput_erased]

theorem renderStructs_erased (module : String) (structs : List Struct)
    (constants? : Option (List Field)) :
    renderStructs module (structs.map Struct.erased) (constants?.map (·.map erasedField)) =
      renderStructs module structs constants? := by
  cases constants? <;>
    simp only [renderStructs, Option.map_none, Option.map_some, List.mapM_map, Function.comp_def,
      renderStruct_erased, renderConstants_erased]

/-- **A module has the same text, or is refused for the same fault.** -/
theorem protocol_erased (m : Module) : m.erased.protocol = m.protocol := by
  unfold Module.protocol
  rw [collect_erased]
  cases m.collect with
  | error fault => rfl
  | ok collected =>
    obtain ⟨members, context⟩ := collected
    have hstructs : renderStructs m.name context.erased.structs.toList context.erased.constants? =
        renderStructs m.name context.structs.toList context.constants? :=
      renderStructs_erased m.name context.structs.toList context.constants?
    show (do
      let structs ← renderStructs m.name context.erased.structs.toList context.erased.constants?
      return protocolText m.name structs (Text.unlines (members.map Member.text))) = _
    rw [hstructs]
    rfl

/-! ### The header -/

namespace Schema

theorem sortedModules_erased (s : Schema) :
    s.erased.sortedModules = s.sortedModules.map (·.map Module.erased) := by
  unfold sortedModules
  rw [nativeModules_erased]
  cases s.nativeModules with
  | error fault => rfl
  | ok modules =>
    have hsorted : (modules.mergeSort fun a b => decide (a.name ≤ b.name)).map Module.erased =
        (modules.map Module.erased).mergeSort fun a b => decide (a.name ≤ b.name) :=
      List.map_mergeSort fun _ _ _ _ => rfl
    exact congrArg Except.ok hsorted.symm

theorem header_erased (s : Schema) : s.erased.header = s.header := by
  unfold header
  rw [sortedModules_erased]
  cases s.sortedModules with
  | error fault => rfl
  | ok modules =>
    have hprotocols : (modules.map Module.erased).mapM Module.protocol =
        modules.mapM Module.protocol := by
      rw [List.mapM_map, show Module.protocol ∘ Module.erased = Module.protocol from
        funext protocol_erased]
    have hclasses : (modules.map Module.erased).map (fun m => classText m.name) =
        modules.map fun m => classText m.name := by
      rw [List.map_map]
      rfl
    show (do
      let protocols ← (modules.map Module.erased).mapM Module.protocol
      return documentText (Text.unlines protocols)
        (Text.unlines ((modules.map Module.erased).map fun m => classText m.name)) :
          Except Fault String) = _
    rw [hprotocols, hclasses]
    rfl

/-- Schemas that differ in nothing but what erasure takes away have the same header. -/
theorem header_congr {s t : Schema} (h : s.erased = t.erased) : s.header = t.header := by
  rw [← header_erased s, h, header_erased t]

/-- **No header shows what erasure takes away.** The files have the same names and texts, or both
schemas are refused for the same fault. -/
theorem files_erased (s : Schema) (spec : String) : s.erased.files spec = s.files spec := by
  rw [files, files, header_erased]

end Schema

end NativeHeader

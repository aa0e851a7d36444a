import Mathlib.Data.List.Infix
import Mathlib.Data.List.Nodup
import NativeHeader.Proofs.Header.References
import NativeHeader.Proofs.Struct.Layout

/-! The protocol of a module, laid out.

The text of a module has two parts: its constants and structs (`Module.structsLayout`),
and after them its members (`Module.membersLayout`). Every struct is declared once, in
the order in which it was found. A member is written after all structs, so what it uses
is declared before it; but a struct is found before the records below it, so what a
getter uses is declared after it (`protocol_layout`). -/
namespace NativeHeader

/-! ### Members -/

def Argument.layout (a : Argument) : Layout :=
  .text a.label :: .text ":(" :: (a.type.layout ++ [.text ")", .text a.name])

def Declaration.layout (d : Declaration) : Layout :=
  .text "- (" :: (d.returned.layout ++ (.text ") " :: .text d.name ::
    (Layout.joined "\n   " (d.arguments.map Argument.layout) ++ [.text ";"])))

def Member.layout : Member → Layout
  | .declaration d => d.layout
  | .constantsAccessors module => [.text (accessorsText module)]

theorem written_argument (a : Argument) : a.layout.written = a.text := by
  simp only [Argument.layout, Argument.text, Layout.written_cons, Layout.written_append,
    Layout.written_nil, written_layout, Stretch.written, String.append_assoc, String.append_empty]

theorem written_declaration (d : Declaration) : d.layout.written = d.text := by
  have harguments : (d.arguments.map Argument.layout).map Layout.written =
      d.arguments.map Argument.text := by
    rw [List.map_map]
    exact List.map_congr_left fun a _ => written_argument a
  simp only [Declaration.layout, Declaration.text, declare, joinArguments, Layout.written_cons,
    Layout.written_append, Layout.written_nil, Layout.written_joined, harguments, written_layout,
    Stretch.written, String.append_assoc, String.append_empty]

theorem written_member (m : Member) : m.layout.written = m.text := by
  cases m with
  | declaration d => exact written_declaration d
  | constantsAccessors module => exact Layout.written_one _

@[simp] theorem declared_member (m : Member) : m.layout.declared = [] := by
  cases m with
  | declaration d =>
    simp [Member.layout, Declaration.layout, Layout.declared_joined, List.flatMap_map, Argument.layout]
  | constantsAccessors module => rfl

/-- A declaration uses what its types refer to. -/
theorem referred_declaration (d : Declaration) :
    d.layout.referred = d.returned.references ++ d.arguments.flatMap (·.type.references) := by
  simp [Declaration.layout, Layout.referred_joined, List.flatMap_map, Argument.layout]

/-! ### Modules -/

/-- A template filled with layouts. -/
def Template.layout (t : Template) (value : String → Layout) : Layout :=
  t.segments.flatMap fun
    | .text s => [.text s]
    | .slot name => value name
    | .stray _ => []

theorem Template.written_layout (t : Template) (value : String → Layout) :
    (t.layout value).written = t.fill fun name => (value name).written := by
  obtain ⟨segments⟩ := t
  unfold Template.layout Template.fill
  induction segments with
  | nil => rfl
  | cons segment rest ih =>
    rw [List.flatMap_cons, Layout.written_append, ih, List.map_cons, String.join_cons]
    cases segment with
    | text s => rw [Layout.written_one]; rfl
    | slot name => rfl
    | stray position => rfl

/-- The fields of the constants of a module. -/
def Module.constants? (m : Module) : Option (List Field) := kept? m.visits

/-- The constants. Their types refer to no struct (`references_constantCType`). -/
def constantsLayout (module : String) (fields : List Field) : Layout :=
  match renderConstants module fields with
  | .ok text => [.text text]
  | .error _ => []

/-- The constants and the structs of a module. -/
def Module.structsLayout (m : Module) : Layout :=
  .joined "\n\n" ((m.constants?.map (constantsLayout m.name)).toList ++
    m.structs.map (·.layout m.name))

/-- What follows the structs of a module. -/
def Module.membersLayout (m : Module) : Layout :=
  (⟨Templates.protocol.segments.tail⟩ : Template).layout fun
    | "native_module_name" => [.text (Naming.nativeModule m.name)]
    | "methods" => .joined "\n" (m.members.map Member.layout)
    | _ => []

/-- The text of a module, laid out. -/
def Module.layout (m : Module) : Layout := m.structsLayout ++ m.membersLayout

theorem fill_protocol (value : String → String) :
    Templates.protocol.fill value =
      value "structs" ++ (⟨Templates.protocol.segments.tail⟩ : Template).fill value := by
  unfold Template.fill
  rw [show Templates.protocol.segments = .slot "structs" :: Templates.protocol.segments.tail from rfl,
    List.map_cons, String.join_cons]
  rfl

/-- What follows the structs is written as in the text of the module. -/
theorem written_membersLayout (m : Module) (structs : String) :
    structs ++ m.membersLayout.written =
      protocolText m.name structs (Text.unlines (m.members.map Member.text)) := by
  have hmembers : (Layout.joined "\n" (m.members.map Member.layout)).written =
      Text.unlines (m.members.map Member.text) := by
    rw [Layout.written_joined, List.map_map, Text.unlines]
    exact congrArg _ (List.map_congr_left fun member _ => written_member member)
  rw [protocolText, fill_protocol, Module.membersLayout, Template.written_layout]
  show structs ++ String.join [_, Layout.written [.text (Naming.nativeModule m.name)], _,
    Layout.written (.joined "\n" (m.members.map Member.layout)), _] = _
  rw [Layout.written_one, hmembers]
  rfl

/-! ### The text of a module -/

/-- The line of the builder's input for a constant. -/
def Field.inputLine (f : Field) : String :=
  "          " ++ (if f.nullable then "folly::Optional" else "RCTRequired") ++ "<" ++
    f.constantCType.text ++ "> " ++ f.name.display ++ ";"

theorem constantInputs_eq {fields : List Field}
    (h : ∀ f ∈ fields, f.type.unsupportedInField? = none) :
    fields.mapM constantInput = .ok (fields.map Field.inputLine) := by
  refine mapM_eq_ok fun f hf => ?_
  unfold constantInput
  rw [constantType_of_supported (h f hf)]
  rfl

theorem renderConstants_eq {fields : List Field}
    (h : ∀ f ∈ fields, f.type.unsupportedInField? = none) (module : String) :
    renderConstants module fields = .ok (constantsLayout module fields).written := by
  have htext : ∃ text, renderConstants module fields = .ok text := by
    unfold renderConstants constantsLines
    rw [constantInputs_eq h]
    exact ⟨_, rfl⟩
  obtain ⟨text, htext⟩ := htext
  unfold constantsLayout
  rw [htext, Layout.written_one]
  rfl

theorem struct_named {m : Module} {s : Struct} (hs : s ∈ m.structs) : s.name = .str s.name.display := by
  obtain ⟨_, _, _, _, _, _, _, rfl⟩ := mem_structs.mp hs
  rfl

/-- In a module without obstacles all structs and the constants are written. -/
theorem renderStructs_eq {m : Module} (hclear : ∀ v ∈ m.visits, v.obstacle? = none) :
    renderStructs m.name m.structs m.constants? = .ok m.structsLayout.written := by
  have hblocks : m.structs.mapM (renderStruct m.name) =
      .ok (m.structs.map fun s => (s.layout m.name).written) :=
    mapM_eq_ok fun s hs =>
      renderStruct_eq ⟨_, struct_named hs⟩ (held_of_clear hclear s hs) m.name
  unfold renderStructs Module.structsLayout
  rw [hblocks, Layout.written_joined]
  cases hconstants : m.constants? with
  | none =>
    simp only [Option.map_none, Option.toList_none, List.nil_append, List.map_map]
    rfl
  | some fields =>
    dsimp only
    rw [renderConstants_eq (supported_of_kept hclear hconstants)]
    simp only [Option.map_some, Option.toList_some, List.map_append, List.map_map]
    rfl

/-- What a module is collected into can be written. -/
theorem renderStructs_of_collect {m : Module} {members : List Member} {context : Context}
    (h : m.collect = .ok (members, context)) :
    renderStructs m.name context.structs.toList context.constants? = .ok m.structsLayout.written := by
  obtain ⟨hclear, _, _, hcontext⟩ := collect_eq_ok_iff.mp h
  have hconstants : context.constants? = m.constants? := by
    rw [hcontext]
    exact Option.or_none
  rw [(structs_of_collect h).1, hconstants]
  exact renderStructs_eq hclear

/-- **A module that is collected has a text: that of its layout.** -/
theorem protocol_eq {m : Module} {members : List Member} {context : Context}
    (h : m.collect = .ok (members, context)) : m.protocol = .ok m.layout.written := by
  obtain ⟨_, _, rfl, _⟩ := collect_eq_ok_iff.mp h
  unfold Module.protocol
  rw [h]
  show (renderStructs m.name context.structs.toList context.constants? >>= fun structs =>
    pure (protocolText m.name structs (Text.unlines (m.members.map Member.text)))) = _
  rw [renderStructs_of_collect h, Module.layout, Layout.written_append, written_membersLayout]
  rfl

/-! ### Where structs are declared and used -/

theorem declared_constants (module : String) (fields : List Field) :
    (constantsLayout module fields).declared = [] := by
  unfold constantsLayout
  split <;> rfl

theorem referred_constants (module : String) (fields : List Field) :
    (constantsLayout module fields).referred = [] := by
  unfold constantsLayout
  split <;> rfl

/-- The structs of a module are declared in the order in which they are found. -/
theorem declared_structsLayout (m : Module) :
    m.structsLayout.declared = m.structs.map (·.name.display) := by
  have hstructs : (m.structs.map (·.layout m.name)).flatMap Layout.declared =
      m.structs.map (·.name.display) := by
    rw [List.flatMap_map]
    simp only [declared_struct]
    exact List.map_eq_flatMap.symm
  unfold Module.structsLayout
  rw [Layout.declared_joined, List.flatMap_append, hstructs]
  cases m.constants? with
  | none => rfl
  | some fields => simp [declared_constants]

theorem declared_membersLayout (m : Module) : m.membersLayout.declared = [] := by
  have hmembers : (Layout.joined "\n" (m.members.map Member.layout)).declared = [] := by
    rw [Layout.declared_joined]
    simp [List.flatMap_map]
  show Layout.declared (.text _ :: ([Stretch.text _] ++ (Stretch.text _ :: (_ ++ [Stretch.text _])))) = []
  simp [hmembers]

/-- What is used in the members of a module is used in its declarations. -/
theorem referred_membersLayout (m : Module) :
    m.membersLayout.referred = m.members.flatMap fun member => member.layout.referred := by
  have hmembers : (Layout.joined "\n" (m.members.map Member.layout)).referred =
      m.members.flatMap fun member => member.layout.referred := by
    rw [Layout.referred_joined, List.flatMap_map]
  show Layout.referred (.text _ :: ([Stretch.text _] ++ (Stretch.text _ :: (_ ++ [Stretch.text _])))) = _
  simp [hmembers]

/-- The structs of a module are used before they are declared. -/
theorem structsLayout_ahead (m : Module) : Layout.Ahead m.name [] m.structsLayout := by
  have hstructs : ∀ structs : List Struct, Forward structs →
      Layout.Ahead m.name [] (.joined "\n\n" (structs.map (·.layout m.name))) := by
    intro structs hforward
    induction structs with
    | nil =>
      refine .of_referred fun use huse => ?_
      cases huse
    | cons s rest ih =>
      refine .joined_cons (fun use huse => ?_) (ih hforward.2)
      rw [referred_struct, List.mem_flatMap] at huse
      obtain ⟨f, hf, huse⟩ := huse
      obtain ⟨inner, hinner, rfl⟩ := Option.map_eq_some_iff.mp (Option.mem_toList.mp huse)
      refine ⟨rfl, List.mem_flatMap.mpr ⟨_, List.mem_map_of_mem (hforward.1 f hf inner hinner), ?_⟩⟩
      rw [declared_struct]
      exact List.mem_singleton.mpr rfl
  unfold Module.structsLayout
  cases m.constants? with
  | none => exact hstructs m.structs (forward_structs m)
  | some fields =>
    refine .joined_cons (fun use huse => ?_) (hstructs m.structs (forward_structs m))
    rw [referred_constants] at huse
    cases huse

/-- What a type refers to is a struct of the collection. -/
theorem Collection.Refers.mem {c : Collection} {module : String} {t : CType}
    {record? : Option (List Field)} (h : c.Refers module t record?) :
    ∀ use ∈ t.references, use.1 = module ∧ .str use.2 ∈ c.names := by
  intro use huse
  cases record? with
  | none =>
    rw [show t.references = [] from h] at huse
    cases huse
  | some fields =>
    obtain ⟨name, href, hresolves⟩ := h
    rw [href] at huse
    rw [List.mem_singleton.mp huse]
    have hmem : (⟨.str name, fields⟩ : Struct) ∈ c.toList := by
      refine List.mem_of_mem_filter (p := fun s => s.name.key? = some (.text name)) ?_
      rw [show c.toList.filter _ = _ from hresolves]
      exact List.mem_singleton.mpr rfl
    exact ⟨rfl, List.mem_map_of_mem hmem⟩

/-- The members of a module use its structs. -/
theorem membersLayout_referred {m : Module} {context : Context}
    (hstructs : context.structs.toList = m.structs) (hnames : context.structs.names.Nodup) :
    ∀ use ∈ m.membersLayout.referred, use.1 = m.name ∧ use.2 ∈ m.structsLayout.declared := by
  intro use huse
  rw [referred_membersLayout, List.mem_flatMap] at huse
  obtain ⟨member, hmember, huse⟩ := huse
  obtain ⟨method, hmethod, hmember⟩ := List.mem_filterMap.mp hmember
  cases member with
  | constantsAccessors module => cases huse
  | declaration d =>
    have hsound := declaration_sound hstructs hnames hmethod hmember
    have hmem : use.1 = m.name ∧ .str use.2 ∈ context.structs.names := by
      rw [show (Member.declaration d).layout = d.layout from rfl, referred_declaration] at huse
      rcases List.mem_append.mp huse with huse | huse
      · exact hsound.returned.mem use huse
      · obtain ⟨a, ha, huse⟩ := List.mem_flatMap.mp huse
        obtain ⟨j, hj⟩ := List.mem_iff_getElem?.mp ha
        exact (hsound.arguments j a hj).mem use huse
    refine ⟨hmem.1, ?_⟩
    obtain ⟨s, hs, hname⟩ := List.mem_map.mp hmem.2
    rw [hstructs] at hs
    rw [declared_structsLayout]
    refine List.mem_map.mpr ⟨s, hs, ?_⟩
    rw [hname]
    rfl

/-- **Structs are declared once, in the order in which they are found: before all members
that use them, and after the getters that use them.** -/
theorem protocol_layout {m : Module} {text : String} (h : m.protocol = .ok text) :
    text = m.layout.written ∧ m.layout = m.structsLayout ++ m.membersLayout ∧
      m.layout.declared = m.structs.map (·.name.display) ∧
      (m.structs.map (·.name.display)).Nodup ∧
      (∀ before owner name after, m.structsLayout = before ++ .refers owner name :: after →
        owner = m.name ∧ .declares name ∈ after) ∧
      ∀ owner name, .refers owner name ∈ m.membersLayout →
        owner = m.name ∧ .declares name ∈ m.structsLayout := by
  obtain ⟨members, context, hcollect⟩ := collect_of_protocol h
  obtain ⟨hstructs, hnames⟩ := structs_of_collect hcollect
  refine ⟨?_, rfl, ?_, ?_, fun before owner name after hsplit => ?_, fun owner name huse => ?_⟩
  · rw [protocol_eq hcollect] at h
    cases h
    rfl
  · rw [Module.layout, Layout.declared_append, declared_structsLayout, declared_membersLayout,
      List.append_nil]
  · have hdisplay : (m.structs.map (·.name.display)).map Json.str = m.structs.map (·.name) := by
      rw [List.map_map]
      exact List.map_congr_left fun s hs => (struct_named hs).symm
    rw [Collection.names, hstructs, ← hdisplay] at hnames
    exact List.Nodup.of_map _ hnames
  · have hahead := structsLayout_ahead m before owner name after hsplit
    rw [List.append_nil, Layout.mem_declared] at hahead
    exact hahead
  · have hmem := membersLayout_referred hstructs hnames _ (Layout.mem_referred.mpr huse)
    rw [Layout.mem_declared] at hmem
    exact hmem

/-- A module with a record in a record. -/
def Module.drawer : Module where
  name := "Store"
  methods := [
    { name := .str "save"
      parameters := [
        ⟨.str "options", .record [⟨.str "item", .record [⟨.str "id", .string, false⟩], false⟩], false⟩]
      returned := ⟨.void, false⟩ }]

theorem protocol_layout_drawer : ∃ text, Module.drawer.protocol = .ok text ∧
    text = Module.drawer.layout.written ∧
      (∀ before owner name after,
        Module.drawer.structsLayout = before ++ .refers owner name :: after →
          owner = "Store" ∧ .declares name ∈ after) ∧
      ∀ owner name, .refers owner name ∈ Module.drawer.membersLayout →
        owner = "Store" ∧ .declares name ∈ Module.drawer.structsLayout := by
  have hprotocol : ∃ text, Module.drawer.protocol = .ok text := ⟨_, rfl⟩
  obtain ⟨text, h⟩ := hprotocol
  obtain ⟨hwritten, _, _, _, hgetters, hmembers⟩ := protocol_layout h
  exact ⟨text, h, hwritten, hgetters, hmembers⟩

/-- A getter uses a struct that nothing before it declares. -/
theorem drawer_used_before_declared : ∃ before after,
    Module.drawer.protocol = .ok (before ++ "JS::NativeStore::SpecSaveOptionsItem" ++ after) ∧
      ¬ "struct SpecSaveOptionsItem \x7b".toList <:+: before.toList := by
  have hcollect : ∃ members context, Module.drawer.collect = .ok (members, context) := ⟨_, _, rfl⟩
  have hsplit : Module.drawer.layout = Module.drawer.layout.take 8 ++
      .refers "Store" "SaveOptionsItem" :: Module.drawer.layout.drop 9 := rfl
  have hwritten : Module.drawer.layout.written = Layout.written (Module.drawer.layout.take 8) ++
      "JS::NativeStore::SpecSaveOptionsItem" ++ Layout.written (Module.drawer.layout.drop 9) := by
    rw [congrArg Layout.written hsplit, Layout.written_append, Layout.written_cons,
      String.append_assoc]
    rfl
  have hbefore : Layout.written (Module.drawer.layout.take 8) =
      "namespace JS \x7b\n  namespace NativeStore \x7b\n    struct SpecSaveOptions \x7b\n      " := by
    decide
  obtain ⟨members, context, hcollect⟩ := hcollect
  refine ⟨Layout.written (Module.drawer.layout.take 8),
    Layout.written (Module.drawer.layout.drop 9), ?_, ?_⟩
  · rw [protocol_eq hcollect]
    exact congrArg Except.ok hwritten
  · rw [hbefore]
    decide +kernel

end NativeHeader

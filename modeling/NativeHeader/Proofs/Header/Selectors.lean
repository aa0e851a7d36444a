import Mathlib.Data.List.Pairwise
import Mathlib.Data.List.TakeWhile
import NativeHeader.Proofs.Header.Lines

/-! The selectors of a protocol and the variables of its declarations.

A selector starts with the name of its method, up to the first colon. So the methods of a
module, whose names differ, have selectors that differ, and the accessors of the constants
can only be met by a method that bears the name of one of them. `getConstants` is not
declared as a method, so this leaves `constantsToExport`, and it must take no arguments
(`Module.ShadowsAccessor`). In a declaration the callbacks of a promise come after the
parameters under names of their own; they are met by a parameter that is named like one of
them (`Method.ShadowsCallback`). Nothing else is declared twice (`protocol_selectors`). -/
namespace NativeHeader

/-! ### What is declared -/

/-- The selector of a declaration: its name, and the label of each argument with a colon. -/
def Declaration.selector (d : Declaration) : String :=
  d.name ++ String.join (d.arguments.map (·.label ++ ":"))

/-- The variables of a declaration. -/
def Declaration.variables (d : Declaration) : List String := d.arguments.map (·.name)

/-- The accessors of the constants take no arguments, so these are their selectors. -/
def accessorSelectors : List String := ["constantsToExport", "getConstants"]

def Member.selectors : Member → List String
  | .declaration d => [d.selector]
  | .constantsAccessors _ => accessorSelectors

theorem accessorsText_selectors (module : String) :
    accessorsText module = Text.unlines (accessorSelectors.map fun selector =>
      "- (facebook::react::ModuleConstants<JS::" ++
        (Naming.nativeModule module ++ ("::Constants::Builder>)" ++ selector ++ ";"))) := by
  rw [accessorsText_eq]
  rfl

/-- The name that a selector starts with. -/
def stem (selector : String) : List Char := selector.toList.takeWhile (· ≠ ':')

theorem stem_of_plain {name : String} (h : ':' ∉ name.toList) (rest : List Char) :
    (name.toList ++ ':' :: rest).takeWhile (· ≠ ':') = name.toList ∧ stem name = name.toList := by
  have hplain : ∀ c ∈ name.toList, decide (c ≠ ':') = true := fun c hc =>
    decide_eq_true fun hcolon => h (hcolon ▸ hc)
  refine ⟨?_, List.takeWhile_eq_self_iff.mpr hplain⟩
  rw [List.takeWhile_append_of_pos hplain]
  exact List.append_nil _

/-! ### Methods -/

/-- The declaration of a method. -/
def Method.declaration (module : String) (m : Method) : Declaration :=
  ⟨m.returnedCType module, m.name.display, m.allArguments module⟩

/-- The method is declared without arguments. -/
def Method.TakesNothing (m : Method) : Prop := m.parameters = [] ∧ m.returnsPromise = false

theorem allArguments_eq_nil_iff (module : String) {m : Method} :
    m.allArguments module = [] ↔ m.TakesNothing := by
  unfold Method.allArguments Method.TakesNothing
  cases m.parameters <;> cases m.returnsPromise <;> simp [Method.ownArguments, promiseArguments]

/-- A selector is the name of its method, or goes on with a colon. -/
theorem selector_declaration (module : String) (m : Method) :
    m.TakesNothing ∧ (m.declaration module).selector = m.name.display ∨
      ¬ m.TakesNothing ∧ ∃ rest,
        (m.declaration module).selector.toList = m.name.display.toList ++ ':' :: rest := by
  have hhead := label_head module m
  rw [← allArguments_eq_nil_iff module]
  unfold Declaration.selector Method.declaration
  cases hall : m.allArguments module with
  | nil => exact Or.inl ⟨rfl, String.append_empty⟩
  | cons a rest =>
    have hlabel : a.label = "" := hhead a (by rw [hall]; rfl)
    refine Or.inr ⟨List.cons_ne_nil _ _, (String.join (rest.map (·.label ++ ":"))).toList, ?_⟩
    rw [List.map_cons, String.join_cons, hlabel, String.empty_append, String.toList_append,
      String.toList_append]
    rfl

/-- A name that is an identifier is what it is displayed as. -/
theorem str_display {name : Name} (h : Name.isIdentifier name = true) : name = .str name.display := by
  cases name with
  | str text => rfl
  | _ => cases h

section
variable (module : String) {m : Method} (hm : m.Identified)
include hm

/-- The name of a method can be read off its selector. -/
theorem stem_declaration : stem (m.declaration module).selector = m.name.display.toList := by
  have hplain : ':' ∉ m.name.display.toList :=
    not_mem_identifier (identifier_display hm.name) (by decide) (by decide)
  rcases selector_declaration module m with ⟨_, hselector⟩ | ⟨_, rest, hselector⟩
  · rw [hselector]
    exact (stem_of_plain hplain []).2
  · rw [stem, hselector]
    exact (stem_of_plain hplain rest).1

theorem selector_eq_iff {name : String} (hname : ':' ∉ name.toList) :
    (m.declaration module).selector = name ↔ m.name = .str name ∧ m.TakesNothing := by
  rw [str_display hm.name, Json.str.injEq]
  rcases selector_declaration module m with ⟨hnothing, hselector⟩ | ⟨hsome, rest, hselector⟩
  · rw [hselector, and_iff_left hnothing]
  · refine ⟨fun h => absurd ?_ hname, fun h => absurd h.2 hsome⟩
    rw [← h, hselector]
    simp

end

/-- The selectors that a method contributes to the protocol. -/
def Method.selectors (module : String) (m : Method) : List String :=
  (m.member? module).toList.flatMap Member.selectors

/-- A method that describes the constants contributes their accessors, or nothing. -/
theorem member?_of_constants {module : String} {m : Method} (h : m.describesConstants = true) :
    m.member? module = if m.returned.type matches .record [] then none
      else some (.constantsAccessors module) := by
  rw [Method.member?, if_pos h, Method.constantsMember?]
  cases m.returned.type with
  | record fields => cases fields <;> rfl
  | _ => rfl

/-- A selector is that of a declared method, or of an accessor of constants that are used. -/
theorem mem_selectors {module : String} {m : Method} {selector : String} :
    selector ∈ m.selectors module ↔
      m.describesConstants = false ∧ selector = (m.declaration module).selector ∨
        m.UsesConstants ∧ selector ∈ accessorSelectors := by
  unfold Method.selectors Method.UsesConstants
  cases hconstants : m.describesConstants with
  | false =>
    have hmember : m.member? module = some (.declaration (m.declaration module)) := by
      rw [Method.member?, hconstants]
      rfl
    simp [hmember, Member.selectors]
  | true =>
    rw [member?_of_constants hconstants]
    cases m.returned.type with
    | record fields => cases fields <;> simp [Member.selectors]
    | _ => simp [Member.selectors]

theorem nodup_selectors (module : String) (m : Method) : (m.selectors module).Nodup := by
  unfold Method.selectors
  cases m.member? module with
  | none => exact List.nodup_nil
  | some member =>
    rw [Option.toList_some, List.flatMap_singleton]
    cases member with
    | declaration d => exact List.nodup_singleton _
    | constantsAccessors => exact (by decide : accessorSelectors.Nodup)

theorem describesConstants_iff {m : Method} :
    m.describesConstants = true ↔ m.name = .str "getConstants" := by
  unfold Method.describesConstants
  cases m.name with
  | str name =>
    rw [Json.str.injEq]
    exact decide_eq_true_iff
  | _ => simp

/-! ### Variables -/

/-- The variables of the callbacks of a promise. -/
def callbackVariables : List String := (promiseArguments true).map (·.name)

/-- A parameter of the method is named like a callback that the method takes. -/
def Method.ShadowsCallback (m : Method) : Prop :=
  m.returnsPromise = true ∧ ∃ p ∈ m.parameters, p.name.display ∈ callbackVariables

/-- The variables are the names of the parameters, and after them those of the callbacks. -/
theorem variables_declaration (module : String) (m : Method) :
    (m.declaration module).variables = m.parameters.map (·.name.display) ++
      if m.returnsPromise then callbackVariables else [] := by
  unfold Declaration.variables Method.declaration Method.allArguments
  rw [List.map_append, names_ownArguments]
  split <;> rfl

/-- Variables repeat only where a parameter is named like a callback. -/
theorem nodup_variables_iff {module : String} {m : Method} (hm : m.Identified)
    (hparams : (m.parameters.map (·.name)).Nodup) :
    (m.declaration module).variables.Nodup ↔ ¬ m.ShadowsCallback := by
  have hdisplays : (m.parameters.map (·.name.display)).Nodup := by
    rw [List.Nodup, List.pairwise_map] at hparams ⊢
    refine hparams.imp_of_mem fun {p q} hp hq hnames hdisplays => hnames ?_
    rw [str_display (hm.parameters p hp), str_display (hm.parameters q hq), hdisplays]
  rw [variables_declaration, Method.ShadowsCallback]
  cases m.returnsPromise with
  | false => simp [hdisplays]
  | true =>
    have hcallbacks : callbackVariables.Nodup := by decide
    rw [if_pos rfl, List.nodup_append, and_iff_right hdisplays, and_iff_right hcallbacks]
    constructor
    · rintro hdistinct ⟨_, p, hp, hmem⟩
      exact hdistinct _ (List.mem_map_of_mem hp) _ hmem rfl
    · rintro hnone _ hmem _ hcallback rfl
      obtain ⟨p, hp, rfl⟩ := List.mem_map.mp hmem
      exact hnone ⟨rfl, p, hp, hcallback⟩

/-! ### Modules -/

/-- The method would be declared by the selector of an accessor. -/
def Method.ShadowsAccessor (m : Method) : Prop :=
  m.name = .str "constantsToExport" ∧ m.TakesNothing

/-- The module has accessors, and a method that would be declared by the selector of one. -/
def Module.ShadowsAccessor (m : Module) : Prop :=
  (∃ method ∈ m.methods, method.UsesConstants) ∧ ∃ method ∈ m.methods, method.ShadowsAccessor

/-- **Methods whose names differ share at most one selector**: that of the accessor which a
method can be named like. -/
theorem shared_selector {module selector : String} {a b : Method} (ha : a.Identified)
    (hb : b.Identified) (hnames : a.name ≠ b.name) (hina : selector ∈ a.selectors module)
    (hinb : selector ∈ b.selectors module) :
    selector = "constantsToExport" ∧
      (a.UsesConstants ∧ b.ShadowsAccessor ∨ b.UsesConstants ∧ a.ShadowsAccessor) := by
  have hshadow {d : Method} (hd : d.Identified) (hdeclared : d.describesConstants = false)
      (haccessor : (d.declaration module).selector ∈ accessorSelectors) :
      (d.declaration module).selector = "constantsToExport" ∧ d.ShadowsAccessor := by
    simp only [accessorSelectors, List.mem_cons, List.not_mem_nil, or_false] at haccessor
    rcases haccessor with hselector | hselector
    · exact ⟨hselector, (selector_eq_iff module hd (by decide)).mp hselector⟩
    · have hname := ((selector_eq_iff module hd (by decide)).mp hselector).1
      rw [describesConstants_iff.2 hname] at hdeclared
      cases hdeclared
  rcases mem_selectors.1 hina with ⟨hda, rfl⟩ | ⟨hua, haccessor⟩
  · rcases mem_selectors.1 hinb with ⟨_, hselector⟩ | ⟨hub, haccessor⟩
    · refine absurd ?_ hnames
      have hstems := congrArg stem hselector
      rw [stem_declaration module ha, stem_declaration module hb, String.toList_inj] at hstems
      rw [str_display ha.name, str_display hb.name, hstems]
    · obtain ⟨hselector, hshadows⟩ := hshadow ha hda haccessor
      exact ⟨hselector, Or.inr ⟨hub, hshadows⟩⟩
  · rcases mem_selectors.1 hinb with ⟨hdb, rfl⟩ | ⟨hub, _⟩
    · obtain ⟨hselector, hshadows⟩ := hshadow hb hdb haccessor
      exact ⟨hselector, Or.inl ⟨hua, hshadows⟩⟩
    · refine absurd ?_ hnames
      rw [describesConstants_iff.1 hua.1, describesConstants_iff.1 hub.1]

section
variable {m : Module} (hm : m.Identified) (hmethods : (m.methods.map (·.name)).Nodup)
include hm hmethods

theorem shared_selectors : m.methods.Pairwise fun a b => ∀ selector,
    selector ∈ a.selectors m.name → selector ∈ b.selectors m.name →
      selector = "constantsToExport" ∧ m.ShadowsAccessor := by
  rw [List.Nodup, List.pairwise_map] at hmethods
  refine hmethods.imp_of_mem fun {a b} hina hinb hnames selector hselector hselector' => ?_
  obtain ⟨hexport, ⟨huses, hshadows⟩ | ⟨huses, hshadows⟩⟩ := shared_selector
    (hm.methods a hina) (hm.methods b hinb) hnames hselector hselector'
  · exact ⟨hexport, ⟨a, hina, huses⟩, b, hinb, hshadows⟩
  · exact ⟨hexport, ⟨b, hinb, huses⟩, a, hina, hshadows⟩

/-- **The selectors of a module repeat exactly if an accessor is shadowed**, and then no
other than the one that a method can be named like. -/
theorem nodup_members_iff :
    ((m.members.flatMap Member.selectors).Nodup ↔ ¬ m.ShadowsAccessor) ∧
      ((m.members.flatMap Member.selectors).filter (· ≠ "constantsToExport")).Nodup := by
  have hselectors : m.members.flatMap Member.selectors =
      m.methods.flatMap (·.selectors m.name) := by
    rw [Module.members, List.filterMap_eq_flatMap_toList, List.flatMap_assoc]
    rfl
  have hshared := shared_selectors hm hmethods
  rw [hselectors, List.filter_flatMap, List.nodup_flatMap, List.nodup_flatMap,
    and_iff_right fun method _ => nodup_selectors m.name method]
  refine ⟨⟨?_, fun hnone => ?_⟩, fun method _ => (nodup_selectors m.name method).filter _, ?_⟩
  · rintro hdisjoint ⟨⟨a, ha, huses⟩, b, hb, hshadows⟩
    have hdeclared : b.describesConstants = false := by
      rw [Bool.eq_false_iff, Ne, describesConstants_iff, hshadows.1, Json.str.injEq]
      decide
    have hne : a ≠ b := by
      rintro rfl
      rw [huses.1] at hdeclared
      cases hdeclared
    have hselector := (selector_eq_iff m.name (hm.methods b hb) (by decide)).mpr hshadows
    have : Std.Symm (Function.onFun List.Disjoint fun method : Method => method.selectors m.name) :=
      ⟨fun _ _ hdisjoint selector hb ha => hdisjoint ha hb⟩
    exact hdisjoint.forall ha hb hne
      (mem_selectors.2 (Or.inr ⟨huses, List.mem_cons_self⟩))
      (mem_selectors.2 (Or.inl ⟨hdeclared, hselector.symm⟩))
  · exact hshared.imp fun h selector ha hb => hnone (h selector ha hb).2
  · refine hshared.imp fun h selector ha hb => ?_
    obtain ⟨ha, hother⟩ := List.mem_filter.mp ha
    exact of_decide_eq_true hother (h selector ha (List.mem_of_mem_filter hb)).1

end

/-- **What a protocol declares.** The selectors of its members differ, unless the module has
accessors for its constants and also a method `constantsToExport` without arguments; then
this is the only selector that repeats. The variables of a declaration differ, unless its
method takes the callbacks of a promise and a parameter bears the name of one. -/
theorem protocol_selectors {m : Module} (hm : m.Identified)
    (hmethods : (m.methods.map (·.name)).Nodup)
    (hparams : ∀ method ∈ m.methods, (method.parameters.map (·.name)).Nodup)
    {text : String} (h : m.protocol = .ok text) :
    ∃ members context structs, m.collect = .ok (members, context) ∧
      text = protocolText m.name structs (Text.unlines (members.map Member.text)) ∧
      ((members.flatMap Member.selectors).Nodup ↔ ¬ m.ShadowsAccessor) ∧
      ((members.flatMap Member.selectors).filter (· ≠ "constantsToExport")).Nodup ∧
      ∀ d, .declaration d ∈ members → ∃ method ∈ m.methods, d = method.declaration m.name ∧
        (d.variables.Nodup ↔ ¬ method.ShadowsCallback) := by
  obtain ⟨members, context, hcollect⟩ := collect_of_protocol h
  obtain ⟨_, _, rfl, _⟩ := collect_eq_ok_iff.mp hcollect
  rw [protocol_eq hcollect, Module.layout, Layout.written_append, written_membersLayout] at h
  cases h
  obtain ⟨hselectors, hothers⟩ := nodup_members_iff hm hmethods
  refine ⟨_, _, _, hcollect, rfl, hselectors, hothers, fun d hd => ?_⟩
  obtain ⟨method, hmethod, hmember⟩ := List.mem_filterMap.mp hd
  have hdeclaration : d = method.declaration m.name := by
    cases hconstants : method.describesConstants with
    | true =>
      rw [member?_of_constants hconstants] at hmember
      split at hmember <;> cases hmember
    | false =>
      rw [Method.member?, hconstants] at hmember
      cases hmember
      rfl
  subst hdeclaration
  exact ⟨method, hmethod, rfl, nodup_variables_iff (hm.methods method hmethod) (hparams method hmethod)⟩

theorem protocol_selectors_store : ∃ members context structs,
    Module.store.collect = .ok (members, context) ∧
      (members.flatMap Member.selectors).Nodup ∧
        ∃ text, Module.store.protocol = .ok text ∧
          text = protocolText "Store" structs (Text.unlines (members.map Member.text)) := by
  have hmethods : (Module.store.methods.map (·.name)).Nodup := by simp [Module.store]
  have hparams : ∀ method ∈ Module.store.methods, (method.parameters.map (·.name)).Nodup := by
    simp [Module.store]
  have hnone : ¬ Module.store.ShadowsAccessor := by
    simp [Module.ShadowsAccessor, Method.ShadowsAccessor, Module.store]
  obtain ⟨members, context, structs, hcollect, htext, hnodup, _⟩ :=
    protocol_selectors (m := .store) (by decide) hmethods hparams rfl
  exact ⟨members, context, structs, hcollect, hnodup.mpr hnone, _, rfl, htext⟩

/-- A module with constants, a method named like an accessor of them, and a parameter
named like a callback. -/
def Module.clashing : Module where
  name := "Store"
  methods := [
    { name := .str "getConstants"
      parameters := []
      returned := ⟨.record [⟨.str "limit", .number, false⟩], false⟩ },
    { name := .str "constantsToExport"
      parameters := []
      returned := ⟨.string, false⟩ },
    { name := .str "load"
      parameters := [⟨.str "resolve", .string, false⟩]
      returned := ⟨.promise, false⟩ }]

/-- The names differ, but `constantsToExport` is declared twice, and so is `resolve` in the
declaration of `load`. -/
theorem selectors_clash : Module.clashing.Identified ∧
    (Module.clashing.methods.map (·.name)).Nodup ∧
    (∀ method ∈ Module.clashing.methods, (method.parameters.map (·.name)).Nodup) ∧
    (∃ text, Module.clashing.protocol = .ok text) ∧
    ∃ members context, Module.clashing.collect = .ok (members, context) ∧
      ¬ (members.flatMap Member.selectors).Nodup ∧
        ∃ d, .declaration d ∈ members ∧ ¬ d.variables.Nodup := by
  refine ⟨by decide, by simp [Module.clashing], by simp [Module.clashing], ⟨_, rfl⟩,
    _, _, rfl, by decide, ?_⟩
  exact ⟨_, .tail _ (.tail _ (.head _)), by decide⟩

end NativeHeader

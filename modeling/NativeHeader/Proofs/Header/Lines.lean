import NativeHeader.Proofs.Header.Headings
import NativeHeader.Proofs.Header.Identifiers
import NativeHeader.Proofs.Header.Ordered

/-! The header, line by line.

No line of a header begins like a heading without being one, as long as the names of the
schema are identifiers. So the headings can be read off the text, and they are those of the
modules in the order of their names: for each the headings of its structs and the one of its
protocol, and after all of them the classes (`header_headings`). Nothing is lost and nothing
is written twice (`header_lines`). -/
namespace NativeHeader

open Text Heading

/-! ### Structs -/

/-- The line of the getter of a field. -/
def Field.getterLine (module struct : String) (f : Field) : String :=
  "      " ++ ((f.getterType module struct).text ++ (" " ++ (f.name.display ++ "() const;")))

theorem written_getterLayout (module struct : String) (f : Field) :
    (f.getterLayout module struct).written = f.getterLine module struct := by
  simp [Field.getterLayout, Field.getterLine, Stretch.written]

theorem struct_line (name : String) :
    Layout.written [.text "    ", .declares name] = (Heading.struct name).line := by
  rw [Layout.written_cons, Layout.written_one]
  show "    " ++ ("struct " ++ ("Spec" ++ name) ++ " \x7b") =
    "    " ++ "struct " ++ "Spec" ++ (name ++ " \x7b")
  simp only [String.append_assoc, -String.reduceAppend]

theorem converter_lines (module name : String) :
    converter (Naming.nativeModule module) (Naming.spec name) =
      [""] ++ [Heading.category module name, .converter module name].map Heading.line ++ ["@end"] := by
  simp [converter, Heading.line, Heading.lead, Heading.rest, mangled, categoryLead, converterLead,
    String.append_assoc]

/-- A struct is written line by line. -/
theorem written_struct (module : String) (s : Struct) :
    (s.layout module).written = unlines (namespaceStart module ++
      ([Heading.struct s.name.display].map Heading.line ++
        s.fields.map (·.getterLine module s.name.display)) ++
      (structRest (Naming.spec s.name.display) s.fields ++ namespaceEnd ++
        converter (Naming.nativeModule module) (Naming.spec s.name.display))) := by
  unfold Struct.layout
  rw [Layout.written_joined, List.map_append, List.map_append, Layout.written_plain,
    Layout.written_plain, List.map_cons, List.map_map, struct_line]
  simp only [Function.comp_def, written_getterLayout]
  rfl

theorem unheaded_empty : Unheaded "" := unheaded_ofList (by decide)

theorem unheaded_end : Unheaded "@end" := unheaded_ofList (by decide)

theorem unheaded_namespaceStart {module : String} (hmodule : OneLine module) :
    ∀ l ∈ namespaceStart module, Unheaded l := by
  have hline : Unheaded ("  namespace " ++ (Naming.nativeModule module ++ " \x7b")) :=
    unheaded_start (by decide)
      (oneLine_append.mpr ⟨oneLine_nativeModule hmodule, oneLine_ofList (by decide)⟩)
  rw [namespaceStart, String.append_assoc, List.forall_mem_cons, List.forall_mem_singleton]
  exact ⟨unheaded_ofList (by decide), hline⟩

theorem unheaded_namespaceEnd : ∀ l ∈ namespaceEnd, Unheaded l := by
  rw [namespaceEnd, List.forall_mem_cons, List.forall_mem_singleton]
  exact ⟨unheaded_ofList (by decide), unheaded_ofList (by decide)⟩

theorem unheaded_structRest {spec : String} (hspec : OneLine spec) (fields : List Field) :
    ∀ l ∈ structRest spec fields, Unheaded l := by
  have hconstructor : Unheaded ("      " ++ (spec ++ "(NSDictionary *const v) : _v(v) \x7b\x7d")) :=
    unheaded_start (by decide) (oneLine_append.mpr ⟨hspec, oneLine_ofList (by decide)⟩)
  rw [structRest, String.append_assoc, List.forall_mem_append, List.forall_mem_cons]
  refine ⟨?_, hconstructor, ?_⟩
  · split
    · exact List.forall_mem_nil _
    · exact List.forall_mem_singleton.mpr unheaded_empty
  · simp only [List.forall_mem_cons]
    exact ⟨unheaded_ofList (by decide), unheaded_ofList (by decide), unheaded_ofList (by decide),
      List.forall_mem_nil _⟩

section
variable {module : String} {s : Struct} (hmodule : OneLine module) (hname : OneLine s.name.display)
include hmodule hname

theorem oneLine_headings : ∀ h ∈ s.headings module, OneLine h.line := by
  have hmangled : OneLine (mangled module s.name.display) :=
    oneLine_append.mpr ⟨oneLine_append.mpr ⟨oneLine_nativeModule hmodule, oneLine_ofList (by decide)⟩,
      oneLine_append.mpr ⟨oneLine_ofList (by decide), hname⟩⟩
  simp +decide [Struct.headings, Heading.line, Heading.rest, Heading.lead, hname, hmangled]

/-- **The headings of a struct**, if its fields are named by identifiers. -/
theorem headings_struct (hfields : ∀ f ∈ s.fields, Name.isIdentifier f.name = true) :
    linesFrom leads (s.layout module).written = (s.headings module).map Heading.line := by
  have hgetters : ∀ l ∈ s.fields.map (·.getterLine module s.name.display), Unheaded l := by
    refine List.forall_mem_map.mpr fun f hf => unheaded_start (by decide) ?_
    have htype := oneLine_getterType hmodule hname (hfields f hf)
    have hdisplay := oneLine_display (hfields f hf)
    simp +decide only [oneLine_append, htype, hdisplay, and_self]
  have hspec : OneLine (Naming.spec s.name.display) :=
    oneLine_append.mpr ⟨oneLine_ofList (by decide), hname⟩
  obtain ⟨hstruct, hcategory⟩ := List.forall_mem_cons.mp (oneLine_headings hmodule hname)
  rw [written_struct, converter_lines]
  simp only [linesFrom_append, linesFrom_unheaded (unheaded_namespaceStart hmodule),
    linesFrom_unheaded hgetters, linesFrom_unheaded (unheaded_structRest hspec s.fields),
    linesFrom_unheaded unheaded_namespaceEnd,
    linesFrom_unheaded (List.forall_mem_singleton.mpr unheaded_empty),
    linesFrom_unheaded (List.forall_mem_singleton.mpr unheaded_end),
    linesFrom_lines hcategory, linesFrom_lines (List.forall_mem_singleton.mpr hstruct),
    List.nil_append, List.append_nil]
  rfl

end

/-! ### Constants -/

theorem unheaded_inputLine {f : Field} (hf : Name.isIdentifier f.name = true) :
    Unheaded f.inputLine := by
  have hwrapper : OneLine (if f.nullable then "folly::Optional" else "RCTRequired") := by
    split <;> decide
  unfold Field.inputLine
  simp only [String.append_assoc]
  refine unheaded_start (by decide) ?_
  simp +decide only [oneLine_append, hwrapper, oneLine_constantCType f, oneLine_display hf, and_self]

/-- There is no heading among the constants of a module. -/
theorem headings_constants {module : String} (hmodule : OneLine module) {fields : List Field}
    (hfields : ∀ f ∈ fields, Name.isIdentifier f.name = true)
    (hsupported : ∀ f ∈ fields, f.type.unsupportedInField? = none) :
    linesFrom leads (constantsLayout module fields).written = [] := by
  have hinputs : ∀ l ∈ fields.map Field.inputLine, Unheaded l :=
    List.forall_mem_map.mpr fun f hf => unheaded_inputLine (hfields f hf)
  unfold constantsLayout renderConstants constantsLines
  rw [constantInputs_eq hsupported]
  show linesFrom leads (Layout.written [.text (unlines (inNamespace module (_ ++ _ ++ _)))]) = []
  rw [Layout.written_one]
  show linesFrom leads (unlines _) = []
  refine linesFrom_unheaded ?_
  simp only [inNamespace, List.forall_mem_append]
  refine ⟨⟨unheaded_namespaceStart hmodule, ⟨?_, hinputs⟩, ?_⟩, unheaded_namespaceEnd⟩
  all_goals
    repeat refine List.forall_mem_cons.mpr ⟨unheaded_ofList (by decide), ?_⟩
    exact List.forall_mem_nil _

/-! ### Members -/

/-- Arguments, one a line, with a text before the first and one after the last. -/
def argumentLines (before after : String) : List String → List String
  | [] => [before ++ after]
  | [a] => [before ++ a ++ after]
  | a :: next :: rest => (before ++ a) :: argumentLines "   " after (next :: rest)

theorem argumentLines_ne_nil (before after : String) (args : List String) :
    argumentLines before after args ≠ [] := by
  rcases args with _ | ⟨a, _ | ⟨next, rest⟩⟩ <;> simp [argumentLines]

theorem unlines_argumentLines (before after : String) (args : List String) :
    unlines (argumentLines before after args) = before ++ joinArguments args ++ after := by
  induction args generalizing before with
  | nil => simp [argumentLines, joinArguments, unlines]
  | cons a rest ih =>
    cases rest with
    | nil => simp [argumentLines, joinArguments, unlines]
    | cons next rest =>
      have hjoin : joinArguments (a :: next :: rest) =
          a ++ ("\n" ++ "   ") ++ joinArguments (next :: rest) := String.intercalate_cons_cons
      rw [argumentLines, unlines_cons (argumentLines_ne_nil "   " after _), ih, hjoin]
      simp only [String.append_assoc]

theorem unheaded_argumentLines {before after : String} (hafter : OneLine after) {args : List String}
    (hbefore : Plain (before ++ args.headD "")) (hone : OneLine before) (hargs : ∀ a ∈ args, OneLine a)
    (htail : ∀ a ∈ args.tail, Plain ("   " ++ a)) :
    ∀ l ∈ argumentLines before after args, Unheaded l := by
  induction args generalizing before with
  | nil =>
    rw [argumentLines, List.forall_mem_singleton]
    rw [List.headD_nil, String.append_empty] at hbefore
    exact hbefore.unheaded hone hafter
  | cons a rest ih =>
    obtain ⟨ha, hrest⟩ := List.forall_mem_cons.mp hargs
    have hstart : OneLine (before ++ a) := oneLine_append.mpr ⟨hone, ha⟩
    cases rest with
    | nil =>
      rw [argumentLines, List.forall_mem_singleton]
      exact hbefore.unheaded hstart hafter
    | cons next rest =>
      obtain ⟨hnext, htail⟩ := List.forall_mem_cons.mp htail
      rw [argumentLines, List.forall_mem_cons]
      refine ⟨?_, ih hnext (oneLine_ofList (by decide)) hrest htail⟩
      have hunheaded := hbefore.unheaded hstart unheaded_empty.1
      rwa [String.append_empty] at hunheaded

/-- A label keeps a line from being a heading. -/
theorem plain_label {label : String} (h : Text.isIdentifier label = true) : Plain ("   " ++ label) := by
  obtain ⟨c, rest, hlabel, hc, _⟩ := identifier_cons h
  have hspace : c ≠ ' ' := by
    rintro rfl
    exact absurd hc (by decide)
  have happart : ∀ lead ∈ leads, Apart lead ("   " ++ String.singleton c) := by
    simp [leads, Apart, begins, List.isPrefixOf, protocolLead, classLead, structLead,
      categoryLead, converterLead, hspace]
  have hsplit : label = String.singleton c ++ String.ofList rest := by
    rw [← String.toList_inj, hlabel]
    simp
  rw [hsplit, ← String.append_assoc]
  exact (plain_of_apart happart).append _

/-- What is needed of an argument for its line: that it stays on it. -/
theorem oneLine_argument {a : Argument} (hlabel : OneLine a.label) (htype : OneLine a.type.text)
    (hname : OneLine a.name) : OneLine a.text := by
  simp +decide only [Argument.text, oneLine_append, hlabel, htype, hname, and_self]

section
variable {module : String} {m : Method} (hmodule : OneLine module) (hm : m.Identified)
include hmodule hm

theorem oneLine_ownArguments (first : Bool) {params : List Parameter} (hparams : params ⊆ m.parameters) :
    ∀ a ∈ m.ownArguments module first params, OneLine a.text := by
  induction params generalizing first with
  | nil => exact nofun
  | cons p rest ih =>
    obtain ⟨hp, hrest⟩ := List.cons_subset.mp hparams
    have hname := oneLine_display (hm.parameters p hp)
    rw [Method.ownArguments, List.forall_mem_cons]
    refine ⟨oneLine_argument ?_ (oneLine_argumentType hmodule hm hp) hname, ih false hrest⟩
    cases first
    · exact hname
    · exact unheaded_empty.1

theorem oneLine_allArguments : ∀ a ∈ m.allArguments module, OneLine a.text := by
  unfold Method.allArguments
  rw [List.forall_mem_append]
  refine ⟨oneLine_ownArguments hmodule hm true (List.Subset.refl _), ?_⟩
  split
  · cases m.parameters.isEmpty <;> decide
  · exact nofun

omit hmodule in
/-- Arguments that are not the first are labelled by identifiers. -/
theorem label_allArguments :
    ∀ a ∈ (m.allArguments module).tail, Text.isIdentifier a.label = true := by
  intro a ha
  have hname : a.name ∈ (m.allArguments module).map (·.name) :=
    List.mem_map_of_mem (List.mem_of_mem_tail ha)
  rw [Method.allArguments, List.map_append, names_ownArguments] at hname
  rw [label_tail module m a ha]
  rcases List.mem_append.mp hname with hown | hcallback
  · obtain ⟨p, hp, hdisplay⟩ := List.mem_map.mp hown
    exact hdisplay ▸ identifier_display (hm.parameters p hp)
  · have hcallbacks : ∀ first, ∀ name ∈ (promiseArguments first).map (·.name),
        Text.isIdentifier name = true := by decide
    split at hcallback
    · exact hcallbacks _ _ hcallback
    · cases hcallback

theorem headings_declaration :
    linesFrom leads (Declaration.text
      ⟨m.returnedCType module, m.name.display, m.allArguments module⟩) = [] := by
  have htext : Declaration.text ⟨m.returnedCType module, m.name.display, m.allArguments module⟩ =
      unlines (argumentLines ("- (" ++ ((m.returnedCType module).text ++ (") " ++ m.name.display))) ";"
        ((m.allArguments module).map Argument.text)) := by
    rw [unlines_argumentLines]
    simp only [Declaration.text, declare, String.append_assoc]
  have hstart : Plain ("- (" ++ ((m.returnedCType module).text ++ (") " ++ m.name.display))) :=
    Plain.append (plain_ofList (by decide)) _
  rw [htext]
  refine linesFrom_unheaded (unheaded_argumentLines (by decide) (hstart.append _) ?_ ?_ ?_)
  · simp +decide only [oneLine_append, oneLine_returnedCType hmodule hm, oneLine_display hm.name,
      and_self]
  · exact List.forall_mem_map.mpr (oneLine_allArguments hmodule hm)
  · rw [← List.map_tail, List.forall_mem_map]
    intro a ha
    simp only [Argument.text, String.append_assoc]
    rw [← String.append_assoc]
    exact (plain_label (label_allArguments hm a ha)).append _

end

theorem accessorsText_eq (module : String) : accessorsText module = unlines [
    "- (facebook::react::ModuleConstants<JS::" ++
      (Naming.nativeModule module ++ "::Constants::Builder>)constantsToExport;"),
    "- (facebook::react::ModuleConstants<JS::" ++
      (Naming.nativeModule module ++ "::Constants::Builder>)getConstants;")] := by
  simp only [accessorsText, Template.fill, Templates.constants, List.map_cons, List.map_nil,
    unlines_cons_cons, unlines_singleton, String.join_cons, String.join_nil, String.append_assoc,
    String.append_empty, -String.reduceAppend]

theorem headings_accessors {module : String} (hmodule : OneLine module) :
    linesFrom leads (accessorsText module) = [] := by
  have hline (rest : String) (hrest : OneLine rest) :
      Unheaded ("- (facebook::react::ModuleConstants<JS::" ++ (Naming.nativeModule module ++ rest)) :=
    unheaded_start (by decide) (oneLine_append.mpr ⟨oneLine_nativeModule hmodule, hrest⟩)
  rw [accessorsText_eq]
  refine linesFrom_unheaded (List.forall_mem_cons.mpr ⟨hline _ (oneLine_ofList (by decide)), ?_⟩)
  exact List.forall_mem_singleton.mpr (hline _ (oneLine_ofList (by decide)))

/-- There is no heading in a member of a module. -/
theorem headings_member {module : String} {m : Method} (hmodule : OneLine module)
    (hm : m.Identified) {member : Member} (h : m.member? module = some member) :
    linesFrom leads member.text = [] := by
  unfold Method.member? at h
  split at h
  · unfold Method.constantsMember? at h
    split at h <;> cases h
    exact headings_accessors hmodule
  · cases h
    exact headings_declaration hmodule hm

/-! ### Modules -/

/-- The headings of a module. -/
def Module.headings (m : Module) : List Heading :=
  m.structs.flatMap (·.headings m.name) ++ [.protocol m.name]

theorem protocolText_eq (module structs methods : String) : protocolText module structs methods =
    unlines [structs, "", (Heading.protocol module).line, methods, "@end", ""] := by
  simp only [protocolText, Template.fill, Templates.protocol, List.map_cons, List.map_nil,
    unlines_cons_cons, unlines_singleton, String.join_cons, String.join_nil, String.append_assoc,
    String.append_empty, String.empty_append, Heading.line, Heading.lead, Heading.rest, protocolLead,
    -String.reduceAppend]

theorem classText_eq (module : String) : classText module = unlines [
    "    /**",
    "    * ObjC++ class for module '" ++ (module ++ "'"),
    "    */",
    (Heading.moduleClass module).line,
    "    public:",
    "      " ++ (Naming.nativeModule module ++ "SpecJSI(const ObjCTurboModule::InitParams &params);"),
    "    \x7d;"] := by
  simp only [classText, Template.fill, Templates.moduleClass, List.map_cons, List.map_nil,
    unlines_cons_cons, unlines_singleton, String.join_cons, String.join_nil, String.append_assoc,
    String.append_empty, Heading.line, Heading.lead, Heading.rest, classLead, -String.reduceAppend]

theorem headings_class {module : String} (hmodule : OneLine module) :
    linesFrom leads (classText module) = [(Heading.moduleClass module).line] := by
  have hnative := oneLine_nativeModule hmodule
  have hcomment : Unheaded ("    * ObjC++ class for module '" ++ (module ++ "'")) :=
    unheaded_start (by decide) (oneLine_append.mpr ⟨hmodule, oneLine_ofList (by decide)⟩)
  have hconstructor : Unheaded ("      " ++ (Naming.nativeModule module ++
      "SpecJSI(const ObjCTurboModule::InitParams &params);")) :=
    unheaded_start (by decide) (oneLine_append.mpr ⟨hnative, oneLine_ofList (by decide)⟩)
  have hline : OneLine (Heading.moduleClass module).line :=
    Heading.oneLine (oneLine_append.mpr ⟨hnative, oneLine_ofList (by decide)⟩)
  rw [classText_eq, linesFrom_unlines]
  simp only [List.flatMap_cons, List.flatMap_nil, hcomment.none, hconstructor.none,
    linesFrom_line hline, (unheaded_ofList (by decide) : Unheaded "    /**").none,
    (unheaded_ofList (by decide) : Unheaded "    */").none,
    (unheaded_ofList (by decide) : Unheaded "    public:").none,
    (unheaded_ofList (by decide) : Unheaded "    \x7d;").none,
    List.nil_append, List.append_nil]

/-- The headings of a module. -/
theorem headings_module {m : Module} (hm : m.Identified) {members : List Member} {context : Context}
    (h : m.collect = .ok (members, context)) :
    linesFrom leads m.layout.written = m.headings.map Heading.line := by
  have hmodule := oneLine_identifier hm.name
  obtain ⟨hclear, _⟩ := collect_eq_ok_iff.mp h
  have hconstants : (m.constants?.map (constantsLayout m.name)).toList.flatMap
      (fun l => linesFrom leads l.written) = [] := by
    cases hfields : m.constants? with
    | none => rfl
    | some fields =>
      have hnone := headings_constants hmodule (constants_identified hm hfields)
        (supported_of_kept hclear hfields)
      simp [hnone]
  have hstructs : linesFrom leads m.structsLayout.written =
      (m.structs.flatMap (·.headings m.name)).map Heading.line := by
    unfold Module.structsLayout
    rw [Layout.written_joined, linesFrom_blocks, List.flatMap_map, List.flatMap_append, hconstants,
      List.nil_append, List.flatMap_map, List.map_flatMap]
    refine List.flatMap_congr fun s hs => ?_
    obtain ⟨hname, hfields⟩ := struct_identified hm hs
    exact headings_struct hmodule hname hfields
  have hmembers : linesFrom leads (unlines (m.members.map Member.text)) = [] := by
    rw [linesFrom_unlines, List.flatMap_map, List.flatMap_eq_nil_iff]
    intro member hmember
    obtain ⟨method, hmethod, hmember⟩ := List.mem_filterMap.mp hmember
    exact headings_member hmodule (hm.methods method hmethod) hmember
  have hline : OneLine (Heading.protocol m.name).line :=
    Heading.oneLine (oneLine_append.mpr ⟨oneLine_nativeModule hmodule, oneLine_ofList (by decide)⟩)
  rw [Module.layout, Layout.written_append, written_membersLayout, protocolText_eq,
    linesFrom_unlines, Module.headings, List.map_append]
  simp only [List.flatMap_cons, List.flatMap_nil, hstructs, hmembers, linesFrom_line hline,
    unheaded_empty.none, unheaded_end.none, List.nil_append, List.append_nil]
  rfl

/-! ### The header -/

/-- The header around the protocols and the classes of the modules, line by line. -/
theorem documentText_eq : ∃ top : List String, (∀ l ∈ top, Unheaded l) ∧
    ∀ protocols classes, documentText protocols classes = unlines (top ++ [protocols,
      "", "namespace facebook \x7b", "  namespace react \x7b", classes,
      "  \x7d // namespace react", "\x7d // namespace facebook", ""]) := by
  have hmarker : Unheaded (" * " ++ generatedMarker ++ " by codegen project: native_module_codegen") := by
    rw [String.append_assoc]
    exact unheaded_start (by decide)
      (oneLine_append.mpr ⟨oneLine_ofList (by decide), oneLine_ofList (by decide)⟩)
  obtain ⟨first, second, hsegments, hfirst, hsecond, htop⟩ : ∃ first second : List String,
      Templates.document.segments = [.text (unlines first), .slot "generated_marker",
        .text (unlines second), .slot "protocols",
        .text (unlines ["", "", "namespace facebook \x7b", "  namespace react \x7b", ""]),
        .slot "modules",
        .text (unlines ["", "  \x7d // namespace react", "\x7d // namespace facebook", ""])] ∧
      first = first.dropLast ++ [" * "] ∧
      second = " by codegen project: native_module_codegen" :: (second.tail.dropLast ++ [""]) ∧
      ∀ l ∈ first.dropLast ++ (" * " ++ generatedMarker ++
        " by codegen project: native_module_codegen") :: second.tail.dropLast, Unheaded l := by
    refine ⟨_, _, rfl, rfl, rfl,
      List.forall_mem_append.mpr ⟨?_, List.forall_mem_cons.mpr ⟨hmarker, ?_⟩⟩⟩
    all_goals
      simp only [List.dropLast, List.tail_cons, -String.reduceAppend]
      repeat with_reducible first
        | refine List.forall_mem_cons.mpr ⟨unheaded_ofList (by decide), ?_⟩
        | refine List.forall_mem_cons.mpr ⟨unheaded_start (by decide) (oneLine_ofList (by decide)), ?_⟩
      exact List.forall_mem_nil _
  generalize first.dropLast = above at hfirst htop
  generalize second.tail.dropLast = below at hsecond htop
  subst hfirst hsecond
  refine ⟨_, htop, fun protocols classes => ?_⟩
  have htext : documentText protocols classes =
      unlines (above ++ [" * "]) ++ unlines [generatedMarker] ++
        unlines (" by codegen project: native_module_codegen" :: (below ++ [""])) ++ unlines [protocols] ++
        unlines ["", "", "namespace facebook \x7b", "  namespace react \x7b", ""] ++ unlines [classes] ++
        unlines ["", "  \x7d // namespace react", "\x7d // namespace facebook", ""] := by
    simp only [documentText, Template.fill, hsegments, List.map_cons, List.map_nil,
      unlines_singleton, String.join_cons, String.join_nil, String.append_empty,
      String.append_assoc, -String.reduceAppend]
  rw [htext, unlines_append_unlines, unlines_append_unlines, ← List.cons_append, ← List.append_assoc,
    unlines_append_unlines, unlines_append_unlines]
  generalize above ++ _ :: below = top
  have hclasses (protocols : String) :
      top ++ protocols :: ["", "namespace facebook \x7b", "  namespace react \x7b", ""] =
        (top ++ [protocols, "", "namespace facebook \x7b", "  namespace react \x7b"]) ++ [""] := by
    rw [List.append_assoc]
    rfl
  rw [hclasses, unlines_append_unlines, unlines_append_unlines, List.append_assoc,
    String.empty_append, String.empty_append, String.append_empty, String.append_empty]
  rfl

/-- The headings of a header. -/
def headings (modules : List Module) : List Heading :=
  modules.flatMap Module.headings ++ modules.map fun m => .moduleClass m.name

/-- **The headings of a header are those of its modules.** -/
theorem header_headings {s : Schema} (hs : s.Identified) {text : String} (h : s.header = .ok text) :
    linesFrom leads text = (headings s.ordered).map Heading.line := by
  obtain ⟨_, hcollect, rfl⟩ := Schema.header_eq_ok_iff.mp h
  obtain ⟨top, htop, hdocument⟩ := documentText_eq
  have hidentified : ∀ m ∈ s.ordered, m.Identified := fun m hm =>
    hs m (s.ordered_perm.mem_iff.mp hm)
  have hprotocols : linesFrom leads (unlines (s.ordered.map (·.layout.written))) =
      (s.ordered.flatMap Module.headings).map Heading.line := by
    rw [linesFrom_unlines, List.flatMap_map, List.map_flatMap]
    refine List.flatMap_congr fun m hm => ?_
    obtain ⟨members, context, hm'⟩ := hcollect m hm
    exact headings_module (hidentified m hm) hm'
  have hclasses : linesFrom leads (unlines (s.ordered.map (classText ·.name))) =
      (s.ordered.map fun m => Heading.moduleClass m.name).map Heading.line := by
    rw [linesFrom_unlines, List.flatMap_map, List.map_map, List.map_eq_flatMap]
    exact List.flatMap_congr fun m hm => headings_class (oneLine_identifier (hidentified m hm).name)
  rw [hdocument, linesFrom_append, linesFrom_unheaded htop, linesFrom_unlines, headings,
    List.map_append]
  simp only [List.flatMap_cons, List.flatMap_nil, hprotocols, hclasses, unheaded_empty.none,
    (unheaded_ofList (by decide) : Unheaded "namespace facebook \x7b").none,
    (unheaded_ofList (by decide) : Unheaded "  namespace react \x7b").none,
    (unheaded_ofList (by decide) : Unheaded "  \x7d // namespace react").none,
    (unheaded_ofList (by decide) : Unheaded "\x7d // namespace facebook").none,
    List.nil_append, List.append_nil]

/-- The headings of some kinds, of each struct, protocol and class at most one. -/
theorem linesFrom_header {s : Schema} (hs : s.Identified) {text : String} (h : s.header = .ok text)
    {starts : List String} (hstarts : ∀ start ∈ starts, start ∈ leads)
    (ofStruct : String → Struct → Option Heading) (ofModule ofClass : String → Option Heading)
    (hstruct : ∀ module t, (Struct.headings module t).filter (·.lead ∈ starts) =
      (ofStruct module t).toList)
    (hmodule : ∀ module, [Heading.protocol module].filter (·.lead ∈ starts) =
      (ofModule module).toList)
    (hclass : ∀ module, [Heading.moduleClass module].filter (·.lead ∈ starts) =
      (ofClass module).toList) :
    linesFrom starts text =
      (s.ordered.flatMap (fun m => m.structs.filterMap (ofStruct m.name) ++ (ofModule m.name).toList) ++
        s.ordered.filterMap fun m => ofClass m.name).map Heading.line := by
  rw [linesFrom_of_headings hstarts (header_headings hs h)]
  simp only [headings, Module.headings, List.map_eq_flatMap (l := s.ordered), List.filter_append,
    List.filter_flatMap, hstruct, hmodule, hclass, List.filterMap_eq_flatMap_toList]

/-- **Nothing is lost and nothing is written twice.** The lines of a header that begin a
protocol are those of its modules, once each, in strictly ascending order of their names, and
so are the lines that begin a class. The lines that begin a struct are those of the structs
that were collected, module by module and in the order in which they were found, and the
structs of a module stand between the protocol before it and its own. -/
theorem header_lines {s : Schema} (hs : s.Identified) {text : String} (h : s.header = .ok text) :
    ∃ modules : List Module, modules.Perm s.modules ∧ (modules.map (·.name)).Pairwise (· < ·) ∧
      (∀ m ∈ modules, ∃ members context, m.collect = .ok (members, context) ∧
        context.structs.toList = m.structs) ∧
      linesFrom [protocolLead] text = modules.map (fun m => (Heading.protocol m.name).line) ∧
      linesFrom [classLead] text = modules.map (fun m => (Heading.moduleClass m.name).line) ∧
      linesFrom [structLead] text = modules.flatMap (fun m =>
        m.structs.map fun t => (Heading.struct t.name.display).line) ∧
      linesFrom [structLead, protocolLead] text = modules.flatMap fun m =>
        m.structs.map (fun t => (Heading.struct t.name.display).line) ++
          [(Heading.protocol m.name).line] := by
  obtain ⟨hdistinct, hcollect, _⟩ := Schema.header_eq_ok_iff.mp h
  refine ⟨s.ordered, s.ordered_perm, hdistinct.ascending, fun m hm => ?_, ?_, ?_, ?_, ?_⟩
  · obtain ⟨members, context, hm⟩ := hcollect m hm
    exact ⟨members, context, hm, (structs_of_collect hm).1⟩
  · rw [linesFrom_header hs h (by decide) (fun _ _ => none) (fun module => some (.protocol module))
      (fun _ => none) (fun _ _ => rfl) (fun _ => rfl) (fun _ => rfl)]
    simp [← List.map_eq_flatMap]
  · have hnone : (s.ordered.flatMap fun m =>
        m.structs.filterMap (fun _ => none) ++ none.toList) = ([] : List Heading) := by simp
    rw [linesFrom_header hs h (by decide) (fun _ _ => none) (fun _ => none)
      (fun module => some (.moduleClass module)) (fun _ _ => rfl) (fun _ => rfl) (fun _ => rfl), hnone]
    simp
  · rw [linesFrom_header hs h (by decide) (fun _ t => some (.struct t.name.display)) (fun _ => none)
      (fun _ => none) (fun _ _ => rfl) (fun _ => rfl) (fun _ => rfl)]
    simp [List.map_flatMap, Function.comp_def]
  · rw [linesFrom_header hs h (by decide) (fun _ t => some (.struct t.name.display))
      (fun module => some (.protocol module)) (fun _ => none) (fun _ _ => rfl) (fun _ => rfl)
      (fun _ => rfl)]
    simp [List.map_flatMap, Function.comp_def]

/-- Modules in two components, not in the order of their names. -/
def Schema.shops : Schema where
  components := [
    ⟨"Till", some [Module.store, ⟨"Cart", []⟩]⟩,
    ⟨"Banner", none⟩,
    ⟨"Shelf", some [⟨"Basket", [{
      name := .str "fill"
      parameters := [⟨.str "items", .arrayOf (.record [⟨.str "id", .string, false⟩]), false⟩]
      returned := ⟨.promise, false⟩ }]⟩]⟩]

theorem shops_header : Schema.shops.Identified ∧ ∃ text, Schema.shops.header = .ok text := by
  refine ⟨by decide, Schema.header_of_modules ?_ ?_⟩
  · show (["Store", "Cart", "Basket"] : List String).Nodup
    decide
  · rw [show Schema.shops.modules = [_, _, _] from rfl]
    simp only [List.forall_mem_cons]
    exact ⟨⟨_, _, rfl⟩, ⟨_, _, rfl⟩, ⟨_, _, rfl⟩, nofun⟩

theorem header_lines_shops : ∃ text, Schema.shops.header = .ok text ∧
    linesFrom [structLead, protocolLead] text = [
      "    struct SpecFillItemsElement \x7b",
      "@protocol NativeBasketSpec <RCTBridgeModule, RCTTurboModule>",
      "@protocol NativeCartSpec <RCTBridgeModule, RCTTurboModule>",
      "    struct SpecSaveOptions \x7b",
      "    struct SpecSaveOptionsItem \x7b",
      "    struct SpecSaveOptionsTagsElementElement \x7b",
      "    struct SpecSaveDraftsElement \x7b",
      "    struct SpecSaveReturnType \x7b",
      "@protocol NativeStoreSpec <RCTBridgeModule, RCTTurboModule>"] := by
  obtain ⟨hs, text, h⟩ := shops_header
  obtain ⟨modules, hperm, hascending, _, _, _, _, hlines⟩ := header_lines hs h
  have hmodules : modules = Schema.shops.modules.reverse := by
    refine List.Perm.eq_of_pairwise (fun a b _ _ hab hba => ?_) (List.pairwise_map.mp hascending)
      (by decide) (hperm.trans (List.reverse_perm _).symm)
    exact absurd hba (String.lt_asymm hab)
  refine ⟨text, h, ?_⟩
  rw [hlines, hmodules]
  decide

end NativeHeader

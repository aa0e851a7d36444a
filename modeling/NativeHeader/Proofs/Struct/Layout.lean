import NativeHeader.Proofs.Layout
import NativeHeader.Proofs.Struct.Getters

/-! The structs of a module, laid out.

What `renderStruct` writes is the layout of the struct (`renderStruct_eq`): it declares
the struct, once, and it refers to the structs of the records in its fields. -/
namespace NativeHeader

/-! ### Types and getters -/

/-- A type, with the struct that it refers to. -/
def CType.layout : CType → Layout
  | .plain text => [.text text]
  | .struct module name => [.refers module name]
  | .structRef module name => [.refers module name, .text "&"]
  | .vector t => .text "facebook::react::LazyVector<" :: (t.layout ++ [.text ">"])
  | .optional t => .text "folly::Optional<" :: (t.layout ++ [.text ">"])

/-- A type between two texts is written between them. -/
theorem written_around (before after : String) (l : Layout) :
    Layout.written (.text before :: (l ++ [.text after])) = before ++ l.written ++ after := by
  simp only [Layout.written_cons, Layout.written_append, Layout.written_nil, Stretch.written,
    String.append_empty, String.append_assoc]

@[simp] theorem written_layout (t : CType) : t.layout.written = t.text := by
  induction t with
  | plain text => exact Layout.written_one (.text text)
  | struct module name => exact Layout.written_one (.refers module name)
  | structRef module name =>
    rw [CType.layout, Layout.written_cons, Layout.written_one]
    rfl
  | vector t ih =>
    rw [CType.layout, written_around, ih]
    rfl
  | optional t ih =>
    rw [CType.layout, written_around, ih]
    rfl

@[simp] theorem declared_layout (t : CType) : t.layout.declared = [] := by
  induction t with
  | vector t ih | optional t ih => simp [CType.layout, ih]
  | _ => rfl

@[simp] theorem referred_layout (t : CType) : t.layout.referred = t.references := by
  induction t with
  | vector t ih | optional t ih => simp [CType.layout, CType.references, ih]
  | _ => rfl

/-- The getter of a field. -/
def Field.getterLayout (module struct : String) (f : Field) : Layout :=
  .text "      " :: ((f.getterType module struct).layout ++
    [.text " ", .text f.name.display, .text "() const;"])

theorem getter_eq {f : Field} (h : f.Held) (module struct : String) :
    getter module (.str struct) f = .ok (f.getterLayout module struct).written := by
  unfold getter
  rw [fieldType_of_held h]
  simp [Field.getterLayout, Stretch.written, String.append_assoc, bind, Except.bind, pure, Except.pure]

/-! ### Structs -/

/-- A struct and its category. -/
def Struct.layout (module : String) (s : Struct) : Layout :=
  let name := s.name.display
  let spec := Naming.spec name
  .joined "\n" <|
    Layout.plain (namespaceStart module) ++
      ([.text "    ", .declares name] :: s.fields.map (·.getterLayout module name)) ++
      Layout.plain (structRest spec s.fields ++ namespaceEnd ++
        converter (Naming.nativeModule module) spec)

/-- If every step gives a value, so do all steps. -/
theorem mapM_eq_ok {α β ε : Type} {f : α → Except ε β} {g : α → β} {l : List α}
    (h : ∀ a ∈ l, f a = .ok (g a)) : l.mapM f = .ok (l.map g) := by
  induction l with
  | nil => rfl
  | cons a rest ih =>
    rw [List.mapM_cons, h a (List.mem_cons_self ..), ih fun b hb => h b (List.mem_cons_of_mem a hb)]
    rfl

/-- **A struct that can hold its fields is written as its layout.** -/
theorem renderStruct_eq {s : Struct} (hname : ∃ name, s.name = .str name)
    (hfields : ∀ f ∈ s.fields, f.Held) (module : String) :
    renderStruct module s = .ok (s.layout module).written := by
  obtain ⟨name, fields⟩ := s
  obtain ⟨name, rfl⟩ := hname
  have hgetters : fields.mapM (getter module (.str name)) =
      .ok (fields.map fun f => (f.getterLayout module name).written) :=
    mapM_eq_ok fun f hf => getter_eq (hfields f hf) module name
  have hlines : structLines module ⟨.str name, fields⟩ = .ok (inNamespace module
      (["    struct " ++ Naming.spec name ++ " \x7b"] ++
        fields.map (fun f => (f.getterLayout module name).written) ++
        structRest (Naming.spec name) fields) ++
      converter (Naming.nativeModule module) (Naming.spec name)) := by
    unfold structLines
    dsimp only
    rw [hgetters]
    rfl
  have hdeclares : Layout.written [.text "    ", .declares name] =
      "    struct " ++ Naming.spec name ++ " \x7b" := by
    rw [Layout.written_cons, Layout.written_one]
    show "    " ++ ("struct " ++ Naming.spec name ++ " \x7b") = _
    rw [← String.append_assoc, ← String.append_assoc]
    rfl
  have hdisplay : (Json.str name).display = name := rfl
  unfold renderStruct
  rw [hlines]
  show Except.ok ("\n".intercalate _) = _
  unfold Struct.layout
  rw [Layout.written_joined, List.map_append, List.map_append, Layout.written_plain,
    Layout.written_plain, List.map_cons, List.map_map]
  show _ = Except.ok ("\n".intercalate (_ ++ (Layout.written [.text "    ", .declares name] :: _) ++ _))
  rw [hdeclares]
  simp [inNamespace, Function.comp_def, hdisplay]

theorem declared_struct (module : String) (s : Struct) :
    (s.layout module).declared = [s.name.display] := by
  unfold Struct.layout
  rw [Layout.declared_joined]
  simp [Layout.declared_plain, Field.getterLayout, List.flatMap_map]

/-- A struct refers to the structs of the records in its fields. -/
theorem referred_struct (module : String) (s : Struct) :
    (s.layout module).referred = s.fields.flatMap fun f =>
      (f.type.recordBelow?.map fun _ => (module, f.structName s.name.display)).toList := by
  unfold Struct.layout
  rw [Layout.referred_joined]
  simp [Layout.referred_plain, Field.getterLayout, List.flatMap_map, references_getterType]

end NativeHeader

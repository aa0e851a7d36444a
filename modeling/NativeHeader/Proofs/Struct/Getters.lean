import NativeHeader.Proofs.Struct.Registered
import NativeHeader.Proofs.TypeTable
import NativeHeader.Struct.Render

/-! The types of getters.

A field that a struct can hold has a getter, and its type is `Field.getterType`
(`fieldType_of_held`). Such a type refers to a struct exactly if there is a record in
the field, itself or below arrays, and then to the one struct that the name of the
way to that record gives (`references_getterType`). The types of constants refer to
no struct. -/
namespace NativeHeader

/-- The record that a value is, or that the elements of an array are at any depth. -/
def ValueType.recordBelow? : ValueType → Option (List Field)
  | .record fields => some fields
  | .arrayOf element => element.recordBelow?
  | _ => none

/-- The name of that record, if the value has the given name. -/
def ValueType.coreName (name : String) : ValueType → String
  | .arrayOf element => element.coreName (Naming.element name)
  | _ => name

/-- The name of the record in a field of a struct. -/
def Field.structName (struct : String) (f : Field) : String :=
  f.type.coreName (Naming.struct [struct, f.name.display])

/-! ### Types -/

/-- The type of a value that has the given name. -/
def ValueType.nestedCType (module name : String) : ValueType → CType
  | .record _ => .struct module name
  | .array => .vector genericElement
  | .arrayOf element => .vector (element.nestedCType module (Naming.element name))
  | type => TypeTable.fields.typeOf type false

/-- The type of the getter of a field. -/
def Field.getterType (module struct : String) (f : Field) : CType :=
  if f.type.isNested then
    (f.type.nestedCType module (Naming.struct [struct, f.name.display])).orAbsent f.nullable
  else TypeTable.fields.typeOf f.type f.nullable

/-- The type that a constant is given to the builder in. -/
def Field.constantCType (f : Field) : CType :=
  match f.type with
  | .record _ => .plain "NSDictionary *"
  | .array | .arrayOf _ => .plain "NSArray *"
  | type => TypeTable.fields.typeOf type false

/-- A type that is neither a record nor an array is supported exactly if it has a row. -/
theorem unsupportedInField?_of_not_nested {type : ValueType} (hn : type.isNested = false) :
    type.unsupportedInField? = if (TypeTable.fields type).isSome then none else some type.label := by
  cases type with
  | record | array | arrayOf => cases hn
  | _ => rfl

theorem row_of_supported {type : ValueType} (hn : type.isNested = false)
    (h : type.unsupportedInField? = none) : ∃ choice, TypeTable.fields type = some choice := by
  rw [unsupportedInField?_of_not_nested hn] at h
  split at h
  · exact Option.isSome_iff_exists.mp ‹_›
  · cases h

theorem tableType_of_supported {type : ValueType} (hn : type.isNested = false)
    (h : type.unsupportedInField? = none) (struct : String) (field : Name) (nullable : Bool) :
    tableType struct field type nullable = .ok (TypeTable.fields.typeOf type nullable) := by
  obtain ⟨choice, hchoice⟩ := row_of_supported hn h
  rw [tableType, find_of_row hchoice]

theorem nestedType_of_supported {module struct : String} {field : Name} {type : ValueType}
    (h : type.unsupportedInField? = none) (name : String) :
    nestedType module struct field name type = .ok (type.nestedCType module name) := by
  induction type using ValueType.nestingInduction generalizing name with
  | record fields => rfl
  | arrayOf element ih =>
    rw [nestedType, ih h]
    rfl
  | other type hrecord harray =>
    cases type with
    | record fields => exact (hrecord fields rfl).elim
    | arrayOf element => exact (harray element rfl).elim
    | array => rfl
    | _ => exact tableType_of_supported rfl h struct field false

/-- **A field that a struct can hold has a getter.** -/
theorem fieldType_of_held {f : Field} (h : f.Held) (module struct : String) :
    fieldType module (.str struct) f = .ok (f.getterType module struct) := by
  obtain ⟨name, type, nullable⟩ := f
  have hnested : type.isNested = true →
      fieldType module (.str struct) ⟨name, type, nullable⟩ =
        .ok ((type.nestedCType module (Naming.struct [struct, name.display])).orAbsent nullable) := by
    intro hn
    obtain ⟨last, rfl⟩ := h.named hn
    have htype : nestedType module (Naming.spec struct) (.str last) (Naming.struct [struct, last])
        type = .ok (type.nestedCType module (Naming.struct [struct, last])) :=
      nestedType_of_supported h.supported _
    have hrun : fieldType module (.str struct) ⟨.str last, type, nullable⟩ = (do
        let inner ←
          nestedType module (Naming.spec struct) (.str last) (Naming.struct [struct, last]) type
        return inner.orAbsent nullable) := by
      cases type with
      | record | array | arrayOf => rfl
      | _ => cases hn
    rw [hrun, htype]
    rfl
  unfold Field.getterType
  cases hn : type.isNested
  · cases type with
    | record | array | arrayOf => cases hn
    | _ => exact tableType_of_supported rfl h.supported (Naming.spec struct) name nullable
  · exact hnested hn

/-- A constant that a struct can hold has a type for the builder. -/
theorem constantType_of_supported {f : Field} (h : f.type.unsupportedInField? = none) :
    constantType f = .ok f.constantCType := by
  obtain ⟨name, type, nullable⟩ := f
  cases type with
  | record | array | arrayOf => rfl
  | _ => exact tableType_of_supported rfl h "Constants" name false

/-! ### References -/

@[simp] theorem references_orAbsent (t : CType) (nullable : Bool) :
    (t.orAbsent nullable).references = t.references := by
  cases nullable <;> rfl

/-- Types from a table refer to nothing. -/
@[simp] theorem references_typeOf (table : TypeTable) (type : ValueType) (nullable : Bool) :
    (table.typeOf type nullable).references = [] := by
  unfold TypeTable.typeOf
  cases table type <;> rfl

theorem references_nestedCType (module name : String) (type : ValueType) :
    (type.nestedCType module name).references =
      (type.recordBelow?.map fun _ => (module, type.coreName name)).toList := by
  induction type using ValueType.nestingInduction generalizing name with
  | record fields => rfl
  | arrayOf element ih => exact ih (Naming.element name)
  | other type hrecord harray =>
    cases type with
    | record fields => exact (hrecord fields rfl).elim
    | arrayOf element => exact (harray element rfl).elim
    | array => rfl
    | _ => exact references_typeOf TypeTable.fields _ false

/-- **A getter refers to the struct of the record in its field, and to nothing else.** -/
theorem references_getterType (module struct : String) (f : Field) :
    (f.getterType module struct).references =
      (f.type.recordBelow?.map fun _ => (module, f.structName struct)).toList := by
  unfold Field.getterType
  cases hn : f.type.isNested
  · have hnone : f.type.recordBelow? = none := by
      cases htype : f.type with
      | record | arrayOf =>
        rw [htype] at hn
        cases hn
      | _ => rfl
    rw [hnone]
    exact references_typeOf TypeTable.fields f.type f.nullable
  · rw [if_pos rfl, references_orAbsent, references_nestedCType]
    rfl

theorem references_constantCType (f : Field) : f.constantCType.references = [] := by
  unfold Field.constantCType
  split
  · rfl
  · rfl
  · rfl
  · exact references_typeOf TypeTable.fields _ false

end NativeHeader

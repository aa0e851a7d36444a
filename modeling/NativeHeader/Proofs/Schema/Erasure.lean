import Mathlib.Data.List.Basic
import NativeHeader.Proofs.TypeTable
import NativeHeader.Proofs.Struct.Records
import NativeHeader.Schema.Flatten

/-! What a schema says and no header shows.

A schema tells three kinds of numbers apart and gives aliases a name, and it lists the
parameters of the method that describes the constants. `Schema.erased` is the schema
without this: every kind of number is a number, every alias is an object without described
fields, wherever it stands, and the constants have no parameters.

The tables have one row for what is written alike (`TypeTable.Blind`), so no lookup and no
check of a field can tell the two schemas apart. Nor can flattening: it looks at names
only (`nativeModules_erased`). -/
namespace NativeHeader

/-! ### Types -/

mutual

/-- The type with one kind of number, and without aliases, at every depth. -/
def ValueType.erased : ValueType → ValueType
  | .float | .int32 => .number
  | .alias _ => .genericObject
  | .arrayOf element => .arrayOf element.erased
  | .record fields => .record (erasedFields fields)
  | type => type

def erasedFields : List Field → List Field
  | [] => []
  | field :: rest => erasedField field :: erasedFields rest

/-- The same for something named: a field or a parameter. -/
def erasedField : Field → Field
  | ⟨name, type, nullable⟩ => ⟨name, type.erased, nullable⟩

end

theorem erasedFields_eq (fields : List Field) : erasedFields fields = fields.map erasedField := by
  induction fields with
  | nil => rfl
  | cons f rest ih => rw [erasedFields, ih, List.map_cons]

theorem erased_record (fields : List Field) :
    (ValueType.record fields).erased = .record (fields.map erasedField) := by
  rw [ValueType.erased, erasedFields_eq]

section
variable (f : Field)

@[simp] theorem erasedField_name : (erasedField f).name = f.name := by
  cases f
  rfl

@[simp] theorem erasedField_type : (erasedField f).type = f.type.erased := by
  cases f
  rfl

@[simp] theorem erasedField_nullable : (erasedField f).nullable = f.nullable := by
  cases f
  rfl

end

/-- What is left of a type once is left of it for good. -/
theorem erased_erased (type : ValueType) : type.erased.erased = type.erased := by
  induction type using ValueType.nestingInduction with
  | record fields ih =>
    rw [erased_record, erased_record, List.map_map]
    congr 1
    apply List.map_congr_left
    intro f hf
    obtain ⟨name, type, nullable⟩ := f
    show (⟨name, type.erased.erased, nullable⟩ : Field) = ⟨name, type.erased, nullable⟩
    rw [ih _ hf]
  | arrayOf element ih => rw [ValueType.erased, ValueType.erased, ih]
  | other type hrecord harray =>
    cases type with
    | record fields => exact (hrecord fields rfl).elim
    | arrayOf element => exact (harray element rfl).elim
    | _ => rfl

example : (ValueType.record [⟨.str "ids", .arrayOf .int32, false⟩,
      ⟨.str "owner", .alias (.str "User"), true⟩]).erased =
    .record [⟨.str "ids", .arrayOf .number, false⟩, ⟨.str "owner", .genericObject, true⟩] := rfl

@[simp] theorem isNested_erased (type : ValueType) : type.erased.isNested = type.isNested := by
  cases type <;> rfl

theorem erased_not_record {type : ValueType} (h : ∀ fields, type = .record fields → False) :
    ∀ fields, type.erased = .record fields → False := by
  cases type with
  | record fields => exact (h fields rfl).elim
  | _ => exact fun _ h => by cases h

/-! ### Tables -/

namespace TypeTable

/-- A table that has one row for a type and for what is left of it. A type that it does not
know is called the same. -/
structure Blind (table : TypeTable) : Prop where
  row : ∀ type : ValueType, table type.erased = table type
  label : ∀ type : ValueType, table type = none → type.erased.label = type.label

theorem blind_parameters : Blind parameters := by
  constructor
  · intro type
    cases type <;> rfl
  · intro type h
    cases type <;> first | rfl | cases h

theorem blind_returned : Blind returned := by
  constructor
  · intro type
    cases type <;> rfl
  · intro type h
    cases type <;> first | rfl | cases h

theorem blind_fields : Blind fields := by
  constructor
  · intro type
    cases type <;> rfl
  · intro type h
    cases type <;> first | rfl | cases h

variable {table : TypeTable} (h : table.Blind) (type : ValueType)
include h

theorem Blind.find (nullable : Bool) : table.find type.erased nullable = table.find type nullable := by
  unfold TypeTable.find
  rw [h.row type]
  cases hrow : table type with
  | some choice => rfl
  | none => rw [h.label type hrow]

theorem Blind.typeOf (nullable : Bool) :
    table.typeOf type.erased nullable = table.typeOf type nullable := by
  unfold TypeTable.typeOf
  rw [h.row type]

theorem Blind.refused? : table.refused? type.erased = table.refused? type := by
  by_cases hrecord : ∃ fields, type = .record fields
  · obtain ⟨fields, rfl⟩ := hrecord
    rw [erased_record]
    rfl
  · rw [refused?_of_not_record (not_exists.mp hrecord),
      refused?_of_not_record (erased_not_record (not_exists.mp hrecord)), h.row type]
    cases hrow : table type with
    | some choice => rfl
    | none => rw [h.label type hrow]

end TypeTable

/-- The check of a field finds the same. -/
@[simp] theorem unsupportedInField?_erased (type : ValueType) :
    type.erased.unsupportedInField? = type.unsupportedInField? := by
  induction type using ValueType.nestingInduction with
  | record fields => rw [erased_record]; rfl
  | arrayOf element ih => exact ih
  | other type hrecord harray =>
    cases type with
    | record fields => exact (hrecord fields rfl).elim
    | arrayOf element => exact (harray element rfl).elim
    | _ => rfl

/-! ### Schemas -/

def Method.erased (m : Method) : Method where
  name := m.name
  parameters := if m.describesConstants then [] else m.parameters.map erasedField
  returned := ⟨m.returned.type.erased, m.returned.nullable⟩

def Module.erased (m : Module) : Module := ⟨m.name, m.methods.map Method.erased⟩

def Component.erased (c : Component) : Component := ⟨c.name, c.modules?.map (·.map Module.erased)⟩

def Schema.erased (s : Schema) : Schema := ⟨s.components.map Component.erased⟩

def Owned.erased (o : Owned) : Owned := ⟨o.owner, o.module.erased⟩

namespace Schema

theorem ownedBy_erased (c : Component) : ownedBy c.erased = (ownedBy c).map Owned.erased := by
  unfold ownedBy Component.erased
  cases c.modules? with
  | none => rfl
  | some modules =>
    simp only [Option.map_some, Option.getD_some, List.map_map]
    rfl

theorem owned_erased (s : Schema) : s.erased.owned = s.owned.map Owned.erased := by
  have hsorted : s.erased.sortedComponents = s.sortedComponents.map Component.erased :=
    (List.map_mergeSort (f := Component.erased) fun _ _ _ _ => rfl).symm
  rw [owned, owned, hsorted, List.flatMap_map, List.map_flatMap]
  exact List.flatMap_congr fun c _ => ownedBy_erased c

/-- The same names are met twice, and by the same owners. -/
theorem repetition?_erased (met os : List Owned) :
    repetition? (met.map Owned.erased) (os.map Owned.erased) =
      (repetition? met os).map (Prod.map Owned.erased Owned.erased) := by
  induction os generalizing met with
  | nil => rfl
  | cons o rest ih =>
    have hfind : (met.map Owned.erased).find? (fun m => m.module.name = o.erased.module.name) =
        (met.find? fun m => m.module.name = o.module.name).map Owned.erased := List.find?_map ..
    rw [List.map_cons, repetition?, repetition?, hfind]
    cases met.find? fun m => m.module.name = o.module.name with
    | some first => rfl
    | none => exact ih (o :: met)

/-- **Flattening looks at names only.** -/
theorem nativeModules_erased (s : Schema) :
    s.erased.nativeModules = s.nativeModules.map (·.map Module.erased) := by
  unfold nativeModules
  have hrepetition := repetition?_erased [] s.owned
  rw [List.map_nil] at hrepetition
  rw [owned_erased, hrepetition]
  cases repetition? [] s.owned with
  | some pair => rfl
  | none =>
    simp only [Option.map_none, Except.map, List.map_map]
    rfl

end Schema

end NativeHeader

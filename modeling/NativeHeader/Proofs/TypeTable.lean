import NativeHeader.TypeTable

/-! Looking a type up.

A lookup succeeds exactly if the table has a row for the type. What it gives then is
`typeOf`, and what it is refused by otherwise is the label of the type. Records are in
no table and are never looked up, so they are never refused. -/
namespace NativeHeader

/-- The label of a type that a table does not know. Records are in no table. -/
def TypeTable.refused? (table : TypeTable) : ValueType → Option String
  | .record _ => none
  | type => if (table type).isSome then none else some type.label

/-- The type that a table gives; without a row there is none to write. -/
def TypeTable.typeOf (table : TypeTable) (type : ValueType) (nullable : Bool) : CType :=
  (table type).elim (.plain "") (·.pick nullable)

section
variable {table : TypeTable} {type : ValueType}

theorem refused?_of_not_record (hrecord : ∀ fields, type = .record fields → False) :
    table.refused? type = if (table type).isSome then none else some type.label := by
  unfold TypeTable.refused?
  split
  · exact (hrecord _ rfl).elim
  · rfl

/-- What is not refused is a record or has a row. -/
theorem refused?_eq_none_iff :
    table.refused? type = none ↔ (∃ fields, type = .record fields) ∨ (table type).isSome = true := by
  cases type with
  | record fields => simp [TypeTable.refused?]
  | _ => simp [TypeTable.refused?, Option.isSome_iff_ne_none]

theorem find_of_row {choice : Choice} (h : table type = some choice) (nullable : Bool) :
    table.find type nullable = .ok (table.typeOf type nullable) := by
  simp only [TypeTable.find, TypeTable.typeOf, h, Option.elim]

theorem find_of_no_row (h : table type = none) (nullable : Bool) :
    table.find type nullable = .error type.label := by
  simp only [TypeTable.find, h]

end

end NativeHeader

import NativeHeader.CType
import NativeHeader.Schema.Basic

/-! The types of values that need no struct, for each of the three positions.

A table gives every annotation that it knows two types, one for values that are
always there and one for values that may be absent. Numbers of all kinds share one
row, and so do objects without described fields and aliases. Records are in no
table: they have structs. -/
namespace NativeHeader

/-- The types of a value that is always there and of one that may be absent. -/
structure Choice where
  present : String
  nullable : String
  deriving DecidableEq, Repr

def Choice.pick (c : Choice) (nullable : Bool) : CType :=
  .plain (if nullable then c.nullable else c.present)

/-- The reserved type that has rows of its own. -/
def rootTag : String := "RootTag"

/-- A table: the row of an annotation, if there is one. -/
abbrev TypeTable := ValueType → Option Choice

namespace TypeTable

def parameters : TypeTable
  | .reserved name => if name = rootTag then some ⟨"double", "NSNumber *"⟩ else none
  | .string => some ⟨"NSString *", "NSString * _Nullable"⟩
  | .number | .float | .int32 => some ⟨"double", "NSNumber *"⟩
  | .boolean => some ⟨"BOOL", "NSNumber * _Nullable"⟩
  | .genericObject | .alias _ => some ⟨"NSDictionary *", "NSDictionary * _Nullable"⟩
  | .array | .arrayOf _ => some ⟨"NSArray *", "NSArray * _Nullable"⟩
  | .function => some ⟨"RCTResponseSenderBlock", "RCTResponseSenderBlock"⟩
  | .record _ | .void | .promise | .unsupported _ => none

def returned : TypeTable
  | .reserved name => if name = rootTag then some ⟨"double", "NSNumber * _Nullable"⟩ else none
  | .void | .promise => some ⟨"void", "void"⟩
  | .string => some ⟨"NSString *", "NSString * _Nullable"⟩
  | .number | .float | .int32 => some ⟨"double", "NSNumber * _Nullable"⟩
  | .boolean => some ⟨"BOOL", "NSNumber * _Nullable"⟩
  | .genericObject | .alias _ => some ⟨"NSDictionary *", "NSDictionary * _Nullable"⟩
  | .array | .arrayOf _ => some ⟨"NSArray<id<NSObject>> *", "NSArray<id<NSObject>> * _Nullable"⟩
  | .record _ | .function | .unsupported _ => none

/-- The fields of structs. Arrays are not here: their types depend on their elements. -/
def fields : TypeTable
  | .reserved name => if name = rootTag then some ⟨"double", "folly::Optional<double>"⟩ else none
  | .string => some ⟨"NSString *", "NSString * _Nullable"⟩
  | .number | .float | .int32 => some ⟨"double", "folly::Optional<double>"⟩
  | .boolean => some ⟨"bool", "folly::Optional<bool>"⟩
  | .genericObject | .alias _ => some ⟨"id<NSObject>", "id<NSObject> _Nullable"⟩
  | .array | .arrayOf _ | .record _ | .function | .void | .promise | .unsupported _ => none

/-- The type of a value; an annotation without a row is given back by its label. -/
def find (table : TypeTable) (type : ValueType) (nullable : Bool) : Except String CType :=
  match table type with
  | some choice => .ok (choice.pick nullable)
  | none => .error type.label

end TypeTable

/-- The label of what keeps an annotation from being a field of a struct. Arrays are
looked through, and a record is always accepted: its own fields are looked at when
it is collected. -/
def ValueType.unsupportedInField? : ValueType → Option String
  | .record _ | .array => none
  | .arrayOf element => element.unsupportedInField?
  | type => if (TypeTable.fields type).isSome then none else some type.label

end NativeHeader

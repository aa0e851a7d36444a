/-! JSON values, with objects in document order.

Numbers without a fraction or an exponent are integers of any size, the others
are floating-point. An object is the list of its fields; `Json.object` builds one
from fields as they are met, where a key that comes again keeps its first place
and takes its last value. -/
namespace NativeHeader

inductive Json where
  | null
  | bool (value : Bool)
  | int (value : Int)
  | float (value : Float)
  | str (value : String)
  | arr (items : List Json)
  | obj (fields : List (String × Json))
  deriving Inhabited, Repr

namespace Json

/-- What a value is, without its content. -/
inductive Kind where
  | null | bool | int | float | str | arr | obj
  deriving DecidableEq, Repr

def kind : Json → Kind
  | .null => .null
  | .bool _ => .bool
  | .int _ => .int
  | .float _ => .float
  | .str _ => .str
  | .arr _ => .arr
  | .obj _ => .obj

/-- The word for a kind of value in messages. -/
def Kind.word : Kind → String
  | .null => "NoneType"
  | .bool => "bool"
  | .int => "int"
  | .float => "float"
  | .str => "str"
  | .arr => "list"
  | .obj => "dict"

/-- Whether a value counts as set: everything does but null, false, zero and what is empty. -/
def truthy : Json → Bool
  | .null => false
  | .bool value => value
  | .int value => value != 0
  | .float value => value != 0.0
  | .str value => !value.isEmpty
  | .arr items => !items.isEmpty
  | .obj fields => !fields.isEmpty

/-- The value of a field; values that are no object have none. -/
def field? : Json → String → Option Json
  | .obj fields, key => fields.lookup key
  | _, _ => none

/-- Sets a field: in its place if the key is there, at the end otherwise. -/
def put (key : String) (value : Json) : List (String × Json) → List (String × Json)
  | [] => [(key, value)]
  | (k, v) :: rest => if k = key then (k, value) :: rest else (k, v) :: put key value rest

/-- The object with the given fields, met one after the other. -/
def object (fields : List (String × Json)) : Json :=
  .obj (fields.foldl (fun met (key, value) => put key value met) [])

/-! ### Fields are smaller than their object -/

theorem sizeOf_lookup_lt {fields : List (String × Json)} {key : String} {value : Json}
    (h : fields.lookup key = some value) : sizeOf value < sizeOf fields := by
  induction fields with
  | nil => simp at h
  | cons head rest ih =>
    obtain ⟨k, v⟩ := head
    rw [List.lookup_cons] at h
    split at h
    · cases h
      simp only [List.cons.sizeOf_spec, Prod.mk.sizeOf_spec]
      omega
    · have := ih h
      simp only [List.cons.sizeOf_spec]
      omega

theorem sizeOf_field?_lt {data : Json} {key : String} {value : Json}
    (h : data.field? key = some value) : sizeOf value < sizeOf data := by
  cases data with
  | obj fields =>
    have := sizeOf_lookup_lt h
    simp only [obj.sizeOf_spec]
    omega
  | _ => simp [field?] at h

end Json

end NativeHeader

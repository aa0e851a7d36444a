import NativeHeader.Proofs.Schema.Format
import NativeHeader.Proofs.Schema.Reading

/-! What the loader makes of an annotation.

An annotation is read as the type that it describes (`valueType_reads`), by one equation
for each of its forms. Reading it stalls if somewhere in it the fields of a record are given
by a value that is set and has no members, which is `true` or a number other than zero, and
what is read before that is in order. -/
namespace NativeHeader

open ValueType (plainTypes knownTags)

namespace Json

/-- A value without members that counts as set: `true`, or a number other than zero. -/
def HasNoMembers (value : Json) : Prop :=
  value.truthy = true ∧ (value.kind = .bool ∨ value.kind = .int ∨ value.kind = .float)

/-- Reading the value as an annotation stalls. -/
inductive StallsType : Json → Prop
  | fields {data value : Json} : data.Tagged "ObjectTypeAnnotation" →
      data.field? "properties" = some value → value.HasNoMembers → StallsType data
  | element {data element : Json} : data.Tagged "ArrayTypeAnnotation" →
      data.field? "elementType" = some element → StallsType element → StallsType data
  | field {data item name given : Json} {before after : List Json} :
      data.Tagged "ObjectTypeAnnotation" →
      data.field? "properties" = some (.arr (before ++ item :: after)) →
      (∀ b ∈ before, b.IsProperty) → item.field? "name" = some name →
      item.field? "typeAnnotation" = some given → StallsType given → StallsType data

/-- A field of a record, or a parameter of a method. -/
def StallsProperty (data : Json) : Prop :=
  (∃ name, data.field? "name" = some name) ∧
    ∃ given, data.field? "typeAnnotation" = some given ∧ given.StallsType

theorem not_tagged_null {tag : String} : ¬ Json.null.Tagged tag := by
  intro h
  cases h

theorem ne_null_of_describesType {data : Json} {type : ValueType} (h : data.DescribesType type) :
    data ≠ .null := by
  rintro rfl
  cases h <;> exact not_tagged_null ‹_›

theorem ne_null_of_stallsType {data : Json} (h : data.StallsType) : data ≠ .null := by
  rintro rfl
  cases h <;> exact not_tagged_null ‹_›

end Json

namespace Loader

/-! ### Fields and parameters -/

theorem isSet_iff {data : Json} {key : String} : isSet data key = true ↔ data.Sets key := by
  unfold isSet Json.Sets
  cases data.field? key <;> simp

theorem isOptional_iff {data : Json} : isOptional data = true ↔ data.SetsOptional := by
  unfold isOptional Json.SetsOptional
  cases h : data.field? "optional" <;> simp [Json.Sets, h, isSet_iff]

/-- A name with its type. What says that the value may be absent differs. -/
def named (absent : Json → Bool) (location : String) (data : Json) :
    Except Fault (Named ValueType) := do
  let name ← require data "name" location
  let ⟨given, _⟩ ← require data "typeAnnotation" location
  return { name, type := ← valueType location given, nullable := absent data }

theorem field_eq (location : String) (data : Json) :
    field location data = named isOptional location data := by
  rw [field]
  rfl

theorem parameter_eq (location : String) (data : Json) :
    parameter location data = named (isSet · "nullable") location data := rfl

theorem named_reads {data : Json} (absent : Json → Bool) (location : String)
    (h : ∀ given, data.field? "typeAnnotation" = some given →
      Reads (valueType location given) given.DescribesType given.StallsType) :
    Reads (named absent location data)
      (fun f => data.field? "name" = some f.name ∧
        (∃ given, data.field? "typeAnnotation" = some given ∧ given.DescribesType f.type) ∧
        f.nullable = absent data)
      data.StallsProperty := by
  have hresult (name : Name) (type : ValueType) :
      Reads (.ok ⟨name, type, absent data⟩ : Except Fault (Named ValueType))
        (fun f => name = f.name ∧ type = f.type ∧ f.nullable = absent data) False := by
    refine (Reads.pure _).congr (fun f => ?_) Iff.rfl
    obtain ⟨_, _, _⟩ := f
    simp [eq_comm]
  refine (require_bind_reads "name" location fun name _ =>
    require_bind_reads "typeAnnotation" location fun given hgiven =>
      (h given hgiven).bind fun type _ => hresult name type).congr (fun f => ?_) ?_
  · constructor
    · rintro ⟨_, hname, given, hgiven, _, htype, rfl, rfl, hnullable⟩
      exact ⟨hname, ⟨given, hgiven, htype⟩, hnullable⟩
    · rintro ⟨hname, ⟨given, hgiven, htype⟩, hnullable⟩
      exact ⟨_, hname, given, hgiven, _, htype, rfl, rfl, hnullable⟩
  · simp [Json.StallsProperty]

/-! ### Annotations -/

section
variable {data : Json} (location : String)

theorem valueType_notText {value : Json} (h : data.field? "type" = some value)
    (htext : ∀ tag, value ≠ .str tag) :
    valueType location data = .error (.shape (.tagNotText location)) := by
  rw [valueType, require_eq h]
  cases value with
  | str tag => exact (htext tag rfl).elim
  | _ => rfl

theorem valueType_untagged (h : ∀ tag, ¬ data.Tagged tag) :
    ∃ e, valueType location data = .error (.shape e) := by
  cases htype : data.field? "type" with
  | none =>
    obtain ⟨e, he⟩ := require_missing location htype
    rw [valueType, he]
    exact ⟨e, rfl⟩
  | some value =>
    refine ⟨_, valueType_notText location htype ?_⟩
    rintro tag rfl
    exact h tag htype

theorem plain?_tag : ∀ type ∈ plainTypes, plain? type.tag = some type := by
  simp only [plainTypes, List.forall_mem_cons]
  exact ⟨rfl, rfl, rfl, rfl, rfl, rfl, rfl, rfl, rfl, List.forall_mem_nil _⟩

theorem valueType_plain {type : ValueType} (hplain : type ∈ plainTypes)
    (htag : data.Tagged type.tag) : valueType location data = .ok type := by
  rw [valueType, require_eq htag]
  simp only [bind, Except.bind, plain?_tag type hplain]
  rfl

theorem valueType_aliased (htag : data.Tagged "TypeAliasTypeAnnotation") :
    valueType location data = .ok (ValueType.alias ((data.field? "name").getD (.str ""))) := by
  rw [valueType, require_eq htag]
  rfl

theorem plain?_unknown {tag : String} (h : tag ∉ knownTags) : plain? tag = none := by
  unfold plain?
  split
  case h_10 => rfl
  all_goals exact absurd (by decide) h

theorem valueType_unsupported {tag : String} (htag : data.Tagged tag) (hunknown : tag ∉ knownTags) :
    valueType location data = .ok (.unsupported tag) := by
  rw [valueType, require_eq htag]
  simp only [bind, Except.bind, plain?_unknown hunknown]
  split
  case h_5 => rfl
  all_goals exact absurd (by decide) hunknown

theorem valueType_ofName (htag : data.Tagged "ReservedFunctionValueTypeAnnotation") :
    valueType location data = (require data "name" location >>= fun name =>
      match name with
      | ⟨.str name, _⟩ => .ok (.reserved name)
      | _ => .error (.shape (.reservedNameNotText location))) := by
  rw [valueType, require_eq htag]
  rfl

theorem valueType_reserved (htag : data.Tagged "ReservedFunctionValueTypeAnnotation") {name : String}
    (hname : data.field? "name" = some (.str name)) :
    valueType location data = .ok (.reserved name) := by
  rw [valueType_ofName location htag, require_eq hname]
  rfl

theorem valueType_nameless (htag : data.Tagged "ReservedFunctionValueTypeAnnotation")
    (h : ∀ name, data.field? "name" ≠ some (.str name)) :
    ∃ e, valueType location data = .error (.shape e) := by
  rw [valueType_ofName location htag]
  cases hname : data.field? "name" with
  | none =>
    obtain ⟨e, he⟩ := require_missing location hname
    rw [he]
    exact ⟨e, rfl⟩
  | some name =>
    rw [require_eq hname]
    cases name with
    | str name => exact (h name hname).elim
    | _ => exact ⟨_, rfl⟩

theorem valueType_array (htag : data.Tagged "ArrayTypeAnnotation") :
    valueType location data =
      match data.field? "elementType" with
      | none | some .null => .ok .array
      | some element =>
        valueType (location ++ ".elementType") element >>= fun type => .ok (.arrayOf type) := by
  rw [valueType, require_eq htag]
  simp only [bind, Except.bind, show plain? "ArrayTypeAnnotation" = none from rfl]
  split
  case h_1 h => rw [h]; rfl
  case h_2 h => rw [h]; rfl
  case h_3 element hnull h =>
    rw [h]
    cases element with
    | null => exact (hnull rfl).elim
    | _ => rfl

/-- An element that is read is not null. -/
theorem valueType_element (htag : data.Tagged "ArrayTypeAnnotation") {element : Json}
    (h : data.field? "elementType" = some element) (hnull : element ≠ .null) :
    valueType location data =
      valueType (location ++ ".elementType") element >>= fun type => .ok (.arrayOf type) := by
  rw [valueType_array location htag, h]
  cases element with
  | null => exact (hnull rfl).elim
  | _ => rfl

theorem valueType_object (htag : data.Tagged "ObjectTypeAnnotation") :
    valueType location data =
      match data.field? "properties" with
      | none => .ok (.record [])
      | some (.arr items) => fields location 0 items >>= fun fields => .ok (.record fields)
      | some given => noFields location given := by
  rw [valueType, require_eq htag]
  simp only [bind, Except.bind, show plain? "ObjectTypeAnnotation" = none from rfl]
  split
  case h_1 h => rw [h]; rfl
  case h_2 h => rw [h]; rfl
  case h_3 given hlist h =>
    rw [h]
    cases given with
    | arr items => exact (hlist items rfl).elim
    | _ => rfl

/-- Fields that are not given as a list: none if they are not set, and otherwise a defect,
unless there are no members to look at. -/
theorem noFields_reads {given : Json} (hlist : ∀ items, given ≠ .arr items) :
    Reads (noFields location given) (fun type => given.truthy = false ∧ type = .record [])
      given.HasNoMembers := by
  unfold noFields Json.HasNoMembers
  cases htruthy : given.truthy
  · exact (Reads.pure _).congr (fun type => by simp [eq_comm]) (by simp)
  · rw [if_pos rfl]
    cases given with
    | null => cases htruthy
    | arr items => exact (hlist items rfl).elim
    | str text => exact .shape _ (fun type h => by cases h.1) (by simp [Json.kind])
    | obj entries => exact .shape _ (fun type h => by cases h.1) (by simp [Json.kind])
    | _ => exact .stalled _ (fun type h => by cases h.1) (by simp [Json.kind])

end

theorem field_reads {data : Json} (location : String)
    (h : ∀ given, data.field? "typeAnnotation" = some given → ∀ location,
      Reads (valueType location given) given.DescribesType given.StallsType) :
    Reads (field location data) data.DescribesField data.StallsProperty := by
  rw [field_eq]
  refine (named_reads isOptional location fun given hgiven => h given hgiven location).congr
    (fun f => ?_) Iff.rfl
  constructor
  · rintro ⟨hname, ⟨given, hgiven, htype⟩, hnullable⟩
    exact .of hname hgiven htype (by rw [hnullable, isOptional_iff])
  · rintro ⟨hname, hgiven, htype, hnullable⟩
    exact ⟨hname, ⟨_, hgiven, htype⟩, Bool.eq_iff_iff.mpr (hnullable.trans isOptional_iff.symm)⟩

section
variable {data : Json} {location : String}
  (helement : ∀ element, data.field? "elementType" = some element → ∀ location,
    Reads (valueType location element) element.DescribesType element.StallsType)
  (hfields : ∀ items, data.field? "properties" = some (.arr items) →
    Reads (fields location 0 items) (List.Forall₂ Json.DescribesField items)
      (Stops Json.IsProperty Json.StallsProperty items))
include helement hfields

theorem valueType_outcome :
    Outcome data.DescribesType data.StallsType (valueType location data) := by
  by_cases htagged : ∃ tag, data.Tagged tag
  case neg =>
    obtain ⟨e, he⟩ := valueType_untagged location fun tag htag => htagged ⟨tag, htag⟩
    rw [he]
    exact .shape e
  obtain ⟨tag, htag⟩ := htagged
  by_cases hknown : tag ∈ knownTags
  case neg =>
    rw [valueType_unsupported location htag hknown]
    exact .ok (.unsupported htag hknown)
  obtain ⟨type, htype, rfl⟩ := List.mem_map.mp hknown
  rcases List.mem_append.mp htype with hplain | hmore
  · rw [valueType_plain location hplain htag]
    exact .ok (.plain hplain htag)
  simp only [List.mem_cons, List.not_mem_nil, or_false] at hmore
  obtain rfl | rfl | rfl | rfl := hmore
  · by_cases hname : ∃ name, data.field? "name" = some (.str name)
    · obtain ⟨name, hname⟩ := hname
      rw [valueType_reserved location htag hname]
      exact .ok (.reserved htag hname)
    · obtain ⟨e, he⟩ := valueType_nameless location htag fun name h => hname ⟨name, h⟩
      rw [he]
      exact .shape e
  · rw [valueType_aliased location htag]
    exact .ok (.aliased htag)
  · rw [valueType_array location htag]
    split
    case h_1 h => exact .ok (.array htag (Or.inl h))
    case h_2 h => exact .ok (.array htag (Or.inr h))
    case h_3 element _ h =>
      have hreads := (helement element h (location ++ ".elementType")).map
        (g := ValueType.arrayOf) fun _ => Iff.rfl
      refine hreads.outcome.mono ?_ (.element htag h)
      rintro _ ⟨type, htype, rfl⟩
      exact .arrayOf htag h htype
  · rw [valueType_object location htag]
    split
    case h_1 h => exact .ok (.bare htag (by simp [Json.Sets, h]))
    case h_2 items h =>
      have hreads := (hfields items h).map (g := ValueType.record) fun _ => Iff.rfl
      refine hreads.outcome.mono ?_ ?_
      · rintro _ ⟨fields, hfields, rfl⟩
        exact .record htag h hfields
      · rintro ⟨before, item, after, rfl, hgood, ⟨name, hname⟩, given, hgiven, hs⟩
        exact .field htag h hgood hname hgiven hs
    case h_3 given hlist h =>
      refine (noFields_reads location hlist).outcome.mono ?_ (.fields htag h)
      rintro _ ⟨htruthy, rfl⟩
      exact .bare htag (by simp [Json.Sets, h, htruthy])

theorem valueType_gives {type : ValueType} (h : data.DescribesType type) :
    valueType location data = .ok type := by
  cases h with
  | plain hplain htag => exact valueType_plain location hplain htag
  | reserved htag hname => exact valueType_reserved location htag hname
  | aliased htag => exact valueType_aliased location htag
  | array htag hlacks =>
    rw [valueType_array location htag]
    rcases hlacks with h | h <;> rw [h]
  | arrayOf htag h htype =>
    rw [valueType_element location htag h (Json.ne_null_of_describesType htype),
      (helement _ h _).gives _ htype]
    rfl
  | bare htag hunset =>
    rw [valueType_object location htag]
    split
    case h_1 => rfl
    case h_2 items h =>
      have hnil : items = [] := by simpa [Json.Sets, h, Json.truthy] using hunset
      rw [hnil, fields]
      rfl
    case h_3 given hlist h =>
      have hfalse : given.truthy = false := by simpa [Json.Sets, h] using hunset
      exact (noFields_reads location hlist).gives _ ⟨hfalse, rfl⟩
  | record htag hitems hall =>
    rw [valueType_object location htag, hitems]
    show fields location 0 _ >>= _ = _
    rw [(hfields _ hitems).gives _ hall]
    rfl
  | unsupported htag hunknown => exact valueType_unsupported location htag hunknown

theorem valueType_stalls (h : data.StallsType) :
    ∃ kind, valueType location data = .error (.notIterable kind) := by
  cases h with
  | fields htag h hmembers =>
    rw [valueType_object location htag]
    split
    case h_1 hnone =>
      rw [h] at hnone
      cases hnone
    case h_2 items hitems =>
      rw [h] at hitems
      cases hitems
      obtain ⟨_, h | h | h⟩ := hmembers <;> cases h
    case h_3 given hlist hgiven =>
      rw [h] at hgiven
      cases hgiven
      exact (noFields_reads location hlist).stalls hmembers
  | element htag h hstalls =>
    obtain ⟨kind, he⟩ := (helement _ h _).stalls hstalls
    rw [valueType_element location htag h (Json.ne_null_of_stallsType hstalls), he]
    exact ⟨kind, rfl⟩
  | field htag hitems hbefore hname hgiven hstalls =>
    rw [valueType_object location htag, hitems]
    show ∃ kind, fields location 0 _ >>= _ = _
    obtain ⟨kind, he⟩ := (hfields _ hitems).stalls
      ⟨_, _, _, rfl, hbefore, ⟨_, hname⟩, _, hgiven, hstalls⟩
    rw [he]
    exact ⟨kind, rfl⟩

end

/-- **Reading an annotation gives the type that it describes, and stalls where it has to.** -/
theorem valueType_reads (data : Json) (location : String) :
    Reads (valueType location data) data.DescribesType data.StallsType := by
  -- What is read below, the element of an array or the type of a field, is a smaller value.
  induction data using Json.sizeInduction generalizing location with
  | step data ih =>
    have helement : ∀ element, data.field? "elementType" = some element → ∀ location,
        Reads (valueType location element) element.DescribesType element.StallsType :=
      fun element h => ih element (Json.sizeOf_field?_lt h)
    have hfields : ∀ items, data.field? "properties" = some (.arr items) →
        Reads (fields location 0 items) (List.Forall₂ Json.DescribesField items)
          (Stops Json.IsProperty Json.StallsProperty items) := by
      intro items hitems
      rw [fields_eq]
      refine eachOf_reads (d := Json.DescribesField) (s := Json.StallsProperty)
        (fun item hitem location => field_reads location fun given hgiven => ih given ?_)
        (fun item _ => Json.isProperty_iff fun inner _ => Json.isAnnotation_iff inner) ..
      exact Nat.lt_trans (Json.sizeOf_field?_lt hgiven) (Json.sizeOf_item_lt hitems hitem)
    exact ⟨valueType_outcome helement hfields,
      fun type h => valueType_gives helement hfields h,
      valueType_stalls helement hfields⟩

end Loader

end NativeHeader

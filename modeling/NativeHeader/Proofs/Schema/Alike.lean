import NativeHeader.Proofs.Json.Document
import NativeHeader.Proofs.Schema.Loader

/-! Documents that are read alike.

Each part of a document is an object that the loader asks for certain keys (`Part.keys?`), and
for no others. What it makes of the part is put together from what it makes of the values
under these keys (`meaning_object`). So the keys of an object can come in any order, and those
that are not asked for can have any value or be missing (`ReadAlike`): the document stands
for the same schema or is refused for the same fault, in the same words (`ofJson_alike`).
Only the objects whose keys are the names of components and modules are read in order. -/
namespace NativeHeader.Loader

/-! ### Parts and their keys -/

/-- The parts of a document, by what is read of them. -/
inductive Part where
  | document
  | component
  | module
  | method
  | function
  | parameter
  | field
  /-- An annotation. -/
  | type
  /-- The annotation of what a method returns. -/
  | returned
  /-- A value that is taken as it is. -/
  | whole
  | listOf (item : Part)
  /-- An object whose keys are names, in an order that counts. -/
  | objectOf (entry : Part)

/-- What an annotation is asked for besides its tag. -/
def detail (data : Json) : List (String × Part) :=
  match data.field? "type" with
  | some (.str "ReservedFunctionValueTypeAnnotation") => [("name", .whole)]
  | some (.str "TypeAliasTypeAnnotation") => [("name", .whole)]
  | some (.str "ArrayTypeAnnotation") => [("elementType", .type)]
  | some (.str "ObjectTypeAnnotation") => [("properties", .listOf .field)]
  | _ => []

/-- The keys that an object is asked for, with the parts under them. -/
def Part.keys? (data : Json) : Part → Option (List (String × Part))
  | .document => some [("modules", .objectOf .component)]
  | .component => some [("nativeModules", .objectOf .module)]
  | .module => some [("properties", .listOf .method)]
  | .method => some [("name", .whole), ("typeAnnotation", .function)]
  | .function => some [("params", .listOf .parameter), ("returnTypeAnnotation", .returned)]
  | .parameter => some [("name", .whole), ("typeAnnotation", .type), ("nullable", .whole)]
  | .field => some [("name", .whole), ("typeAnnotation", .type), ("optional", .whole),
      ("nullable", .whole)]
  | .type => some (("type", .whole) :: detail data)
  | .returned => some (("nullable", .whole) :: ("type", .whole) :: detail data)
  | .whole | .listOf _ | .objectOf _ => none

/-- Values that differ, as the given part of a document, by the order of keys and by what is
under keys that are not asked for, at any depth. -/
inductive ReadAlike : Part → Json → Json → Prop
  | refl (part : Part) (data : Json) : ReadAlike part data data
  | symm {part : Part} {data data' : Json} : ReadAlike part data data' → ReadAlike part data' data
  | trans {part : Part} {data data' data'' : Json} :
      ReadAlike part data data' → ReadAlike part data' data'' → ReadAlike part data data''
  /-- The keys of an object come in another order. -/
  | reordered {part : Part} {keys : List (String × Part)} {fields fields' : List (String × Json)} :
      part.keys? (.obj fields) = some keys → (fields.map (·.1)).Nodup → fields.Perm fields' →
      ReadAlike part (.obj fields) (.obj fields')
  /-- A key is there that is not asked for. -/
  | unread {part : Part} {keys : List (String × Part)} (before after : List (String × Json))
      {key : String} (value : Json) :
      part.keys? (.obj (before ++ after)) = some keys → keys.lookup key = none →
      ReadAlike part (.obj (before ++ after)) (.obj (before ++ (key, value) :: after))
  /-- What is under a key that is asked for is read alike. -/
  | inside {part inner : Part} {keys : List (String × Part)} (before after : List (String × Json))
      {key : String} {value value' : Json} :
      part.keys? (.obj (before ++ (key, value) :: after)) = some keys →
      keys.lookup key = some inner → ReadAlike inner value value' →
      ReadAlike part (.obj (before ++ (key, value) :: after)) (.obj (before ++ (key, value') :: after))
  | item {item : Part} (before after : List Json) {value value' : Json} :
      ReadAlike item value value' →
      ReadAlike (.listOf item) (.arr (before ++ value :: after)) (.arr (before ++ value' :: after))
  | entry {entry : Part} (before after : List (String × Json)) {name : String}
      {value value' : Json} :
      ReadAlike entry value value' →
      ReadAlike (.objectOf entry) (.obj (before ++ (name, value) :: after))
        (.obj (before ++ (name, value') :: after))

/-! ### What is made of a part -/

/-- What is made of the items of a list; another value stays as it is. -/
def itemsOf {α : Type} (read : Json → α) : Json → Json ⊕ List α
  | .arr items => .inr (items.map read)
  | data => .inl data

/-- What is made of the entries of an object, under their names. -/
def entriesOf {α : Type} (read : Json → α) : Json → Json ⊕ List (String × α)
  | .obj entries => .inr (entries.map fun entry => (entry.1, read entry.2))
  | data => .inl data

def Part.Meaning : Part → Type
  | .document => Except Fault Schema
  | .component => String → Except Fault Component
  | .module => String → String → Except Fault Module
  | .method => String → Except Fault Method
  | .function => String → Name → Except Fault Method
  | .parameter => String → Except Fault Parameter
  | .field => String → Except Fault Field
  | .type => (String → Except Fault ValueType) × Json.Kind
  | .returned => (String → Except Fault ValueType) × Bool
  | .whole => Json
  | .listOf item => Json ⊕ List item.Meaning
  | .objectOf entry => Json ⊕ List (String × entry.Meaning)

/-- What the loader makes of a part, wherever it stands. -/
def Part.meaning : (part : Part) → Json → part.Meaning
  | .document => Schema.ofJson
  | .component => fun data name => Loader.component name data
  | .module => fun data location name => Loader.module location name data
  | .method => fun data location => Loader.method location data
  | .function => fun data location name => Loader.function location name data
  | .parameter => fun data location => Loader.parameter location data
  | .field => fun data location => Loader.field location data
  | .type => fun data => (fun location => valueType location data, data.kind)
  | .returned => fun data => (fun location => valueType location data, isSet data "nullable")
  | .whole => fun data => data
  | .listOf item => itemsOf item.meaning
  | .objectOf entry => entriesOf entry.meaning

section
variable {α : Type} {read : Json → α} {data data' : Json}

/-- Lists of which the same is made, or one value that is no list. -/
theorem itemsOf_cases (h : itemsOf read data = itemsOf read data') :
    (∃ items items', data = .arr items ∧ data' = .arr items' ∧
      items.map read = items'.map read) ∨ data = data' ∧ ∀ items, data ≠ .arr items := by
  cases data <;> cases data' <;> simp_all [itemsOf]

theorem entriesOf_cases (h : entriesOf read data = entriesOf read data') :
    (∃ entries entries', data = .obj entries ∧ data' = .obj entries' ∧
      entries.map (fun entry => (entry.1, read entry.2)) =
        entries'.map fun entry => (entry.1, read entry.2)) ∨
    data = data' ∧ ∀ entries, data ≠ .obj entries := by
  cases data <;> cases data' <;> simp_all [entriesOf]

theorem eachOf_congr {read : String → Json → Except Fault α} {items items' : List Json}
    (h : items.map (fun data location => read location data) =
      items'.map fun data location => read location data) (list location : String) (index : Nat) :
    eachOf read list location index items = eachOf read list location index items' := by
  induction items generalizing items' index with
  | nil =>
    obtain rfl := List.map_eq_nil_iff.mp h.symm
    rfl
  | cons data rest ih =>
    rcases items' with _ | ⟨data', rest'⟩
    · cases h
    · rw [List.map_cons, List.map_cons, List.cons.injEq] at h
      rw [eachOf, eachOf, ih h.2, congrFun h.1]

end

/-! ### Objects -/

/-- The same is made of what the objects have under each of the keys. -/
def Agree (keys : List (String × Part)) (fields fields' : List (String × Json)) : Prop :=
  ∀ key inner, keys.lookup key = some inner →
    ((Json.obj fields).field? key).map inner.meaning =
      ((Json.obj fields').field? key).map inner.meaning

theorem require_absent {fields : List (String × Json)} {key : String} (location : String)
    (h : (Json.obj fields).field? key = none) :
    require (.obj fields) key location = .error (.shape (.missingKey key location)) := by
  unfold require
  split
  case h_1 value hvalue =>
    rw [h] at hvalue
    cases hvalue
  case h_2 => rfl

namespace Agree
variable {keys : List (String × Part)} {fields fields' : List (String × Json)} {key : String}
  {part : Part} (h : Agree keys fields fields')
include h

/-- Both objects have the key, or neither of them. -/
theorem field?_cases (hkey : keys.lookup key = some part) :
    ((Json.obj fields).field? key = none ∧ (Json.obj fields').field? key = none) ∨
      ∃ value value', (Json.obj fields).field? key = some value ∧
        (Json.obj fields').field? key = some value' ∧ part.meaning value = part.meaning value' := by
  have hsame := h key part hkey
  cases hvalue : (Json.obj fields).field? key with
  | none =>
    rw [hvalue] at hsame
    exact Or.inl ⟨rfl, Option.map_eq_none_iff.mp hsame.symm⟩
  | some value =>
    rw [hvalue] at hsame
    obtain ⟨value', hvalue', hmeaning⟩ := Option.map_eq_some_iff.mp hsame.symm
    exact Or.inr ⟨value, value', rfl, hvalue', hmeaning.symm⟩

theorem field?_congr (hkey : keys.lookup key = some .whole) :
    (Json.obj fields).field? key = (Json.obj fields').field? key := by
  rcases h.field?_cases hkey with ⟨hnone, hnone'⟩ | ⟨value, value', hvalue, hvalue', hsame⟩
  · rw [hnone, hnone']
  · rw [hvalue, hvalue', show value = value' from hsame]

theorem isSet_congr (hkey : keys.lookup key = some .whole) :
    isSet (.obj fields) key = isSet (.obj fields') key := by
  unfold isSet
  rw [h.field?_congr hkey]

section
variable {β : Type} (location : String)

theorem require_congr (hkey : keys.lookup key = some part)
    {f : {value : Json // sizeOf value < sizeOf (Json.obj fields)} → Except Fault β}
    {g : {value : Json // sizeOf value < sizeOf (Json.obj fields')} → Except Fault β}
    (hfg : ∀ value value', part.meaning value.1 = part.meaning value'.1 → f value = g value') :
    (require (.obj fields) key location >>= f) = (require (.obj fields') key location >>= g) := by
  rcases h.field?_cases hkey with ⟨hnone, hnone'⟩ | ⟨value, value', hvalue, hvalue', hsame⟩
  · rw [require_absent location hnone, require_absent location hnone']
    rfl
  · rw [require_eq hvalue, require_eq hvalue']
    exact hfg _ _ hsame

theorem requireList_congr {item : Part} (hkey : keys.lookup key = some (.listOf item))
    {f g : List Json → Except Fault β}
    (hfg : ∀ items items', items.map item.meaning = items'.map item.meaning → f items = g items') :
    (requireList (.obj fields) key location >>= f) =
      (requireList (.obj fields') key location >>= g) := by
  unfold requireList
  rw [bind_assoc, bind_assoc]
  refine h.require_congr location hkey ?_
  rintro ⟨value, _⟩ ⟨value', _⟩ hsame
  rcases itemsOf_cases hsame with ⟨items, items', rfl, rfl, hitems⟩ | ⟨rfl, hlist⟩
  · exact hfg items items' hitems
  · cases value with
    | arr items => exact (hlist items rfl).elim
    | _ => rfl

end

end Agree

/-! ### Annotations -/

theorem valueType_missing (location : String) {fields : List (String × Json)}
    (h : (Json.obj fields).field? "type" = none) :
    valueType location (.obj fields) = .error (.shape (.missingKey "type" location)) := by
  rw [valueType, require_absent location h]
  rfl

namespace Agree
variable {keys : List (String × Part)} {fields fields' : List (String × Json)}

section
variable (h : Agree keys fields fields') (location : String)
include h

theorem array_congr (htag : (Json.obj fields).Tagged "ArrayTypeAnnotation")
    (htag' : (Json.obj fields').Tagged "ArrayTypeAnnotation")
    (hkey : keys.lookup "elementType" = some .type) :
    valueType location (.obj fields) = valueType location (.obj fields') := by
  rcases h.field?_cases hkey with ⟨hnone, hnone'⟩ | ⟨value, value', hvalue, hvalue', hsame⟩
  · rw [valueType_array location htag, valueType_array location htag', hnone, hnone']
  · obtain ⟨hread, hkind⟩ := Prod.mk.inj hsame
    have hnull : value = .null ↔ value' = .null := by
      cases value <;> cases value' <;> simp_all [Json.kind]
    by_cases hvaluenull : value = .null
    · rw [valueType_array location htag, valueType_array location htag', hvalue, hvalue',
        hvaluenull, hnull.mp hvaluenull]
    · rw [valueType_element location htag hvalue hvaluenull,
        valueType_element location htag' hvalue' (hvaluenull ∘ hnull.mpr), congrFun hread]

theorem object_congr (htag : (Json.obj fields).Tagged "ObjectTypeAnnotation")
    (htag' : (Json.obj fields').Tagged "ObjectTypeAnnotation")
    (hkey : keys.lookup "properties" = some (.listOf .field)) :
    valueType location (.obj fields) = valueType location (.obj fields') := by
  rw [valueType_object location htag, valueType_object location htag']
  rcases h.field?_cases hkey with ⟨hnone, hnone'⟩ | ⟨value, value', hvalue, hvalue', hsame⟩
  · rw [hnone, hnone']
  · rw [hvalue, hvalue']
    rcases itemsOf_cases hsame with ⟨items, items', rfl, rfl, hitems⟩ | ⟨rfl, _⟩
    · have hfields : eachOf field "properties" location 0 items =
          eachOf field "properties" location 0 items' := eachOf_congr hitems ..
      show (Loader.fields location 0 items >>= _) = (Loader.fields location 0 items' >>= _)
      rw [fields_eq, fields_eq, hfields]
    · rfl

/-- An annotation is read by its tag and by what this asks for. -/
theorem valueType_congr (htype : keys.lookup "type" = some .whole)
    (hdetail : ∀ key inner, (detail (.obj fields)).lookup key = some inner →
      keys.lookup key = some inner) :
    valueType location (.obj fields) = valueType location (.obj fields') := by
  have htypes := h.field?_congr htype
  cases hvalue : (Json.obj fields).field? "type" with
  | none =>
    rw [valueType_missing location hvalue, valueType_missing location (htypes.symm.trans hvalue)]
  | some value =>
    by_cases htext : ∀ tag, value ≠ .str tag
    · rw [valueType_notText location hvalue htext,
        valueType_notText location (htypes.symm.trans hvalue) htext]
    obtain ⟨tag, rfl⟩ : ∃ tag, value = .str tag := by simpa using htext
    have htag : (Json.obj fields).Tagged tag := hvalue
    have htag' : (Json.obj fields').Tagged tag := htypes.symm.trans hvalue
    by_cases hknown : tag ∈ ValueType.knownTags
    case neg =>
      rw [valueType_unsupported location htag hknown, valueType_unsupported location htag' hknown]
    obtain ⟨type, hmem, rfl⟩ := List.mem_map.mp hknown
    rcases List.mem_append.mp hmem with hplain | hmore
    · rw [valueType_plain location hplain htag, valueType_plain location hplain htag']
    have hasked {key : String} {inner : Part} (hkey : (detail (.obj fields)).lookup key = some inner) :
        keys.lookup key = some inner := hdetail key inner hkey
    unfold detail at hasked
    rw [htag] at hasked
    simp only [List.mem_cons, List.not_mem_nil, or_false] at hmore
    obtain rfl | rfl | rfl | rfl := hmore
    · have hname : keys.lookup "name" = some .whole := hasked rfl
      rw [valueType_ofName location htag, valueType_ofName location htag']
      refine h.require_congr location hname ?_
      rintro ⟨name, _⟩ ⟨name', _⟩ hsame
      obtain rfl : name = name' := hsame
      cases name <;> rfl
    · have hname : keys.lookup "name" = some .whole := hasked rfl
      rw [valueType_aliased location htag, valueType_aliased location htag', h.field?_congr hname]
    · exact h.array_congr location htag htag' (hasked rfl)
    · exact h.object_congr location htag htag' (hasked rfl)

/-! ### The other parts -/

theorem named_congr {absent : Json → Bool} (habsent : absent (.obj fields) = absent (.obj fields'))
    (hname : keys.lookup "name" = some .whole)
    (htype : keys.lookup "typeAnnotation" = some .type) :
    named absent location (.obj fields) = named absent location (.obj fields') := by
  refine h.require_congr location hname ?_
  rintro ⟨name, _⟩ ⟨name', _⟩ hsame
  obtain rfl : name = name' := hsame
  refine h.require_congr location htype ?_
  rintro ⟨given, _⟩ ⟨given', _⟩ hsame
  show (valueType location given >>= _) = (valueType location given' >>= _)
  rw [congrFun (Prod.mk.inj hsame).1 location, habsent]

theorem isOptional_congr (hoptional : keys.lookup "optional" = some .whole)
    (hnullable : keys.lookup "nullable" = some .whole) :
    isOptional (.obj fields) = isOptional (.obj fields') := by
  unfold isOptional
  rw [h.field?_congr hoptional, h.isSet_congr hnullable]

theorem function_congr (hparams : keys.lookup "params" = some (.listOf .parameter))
    (hreturned : keys.lookup "returnTypeAnnotation" = some .returned) (name : Name) :
    function location name (.obj fields) = function location name (.obj fields') := by
  refine h.requireList_congr location hparams fun items items' hitems => ?_
  have hparameters : eachOf parameter "params" location 0 items =
      eachOf parameter "params" location 0 items' := eachOf_congr hitems ..
  rw [parameters_eq, parameters_eq, hparameters]
  refine bind_congr fun ps => h.require_congr location hreturned ?_
  rintro ⟨given, _⟩ ⟨given', _⟩ hsame
  obtain ⟨hread, hnullable⟩ := Prod.mk.inj hsame
  show (valueType _ given >>= _) = (valueType _ given' >>= _)
  rw [congrFun hread, hnullable]

theorem method_congr (hname : keys.lookup "name" = some .whole)
    (htype : keys.lookup "typeAnnotation" = some .function) :
    method location (.obj fields) = method location (.obj fields') := by
  refine h.require_congr location hname ?_
  rintro ⟨name, _⟩ ⟨name', _⟩ hsame
  obtain rfl : name = name' := hsame
  refine h.require_congr _ htype ?_
  rintro ⟨given, _⟩ ⟨given', _⟩ hsame
  exact congrFun (congrFun hsame _) name

theorem module_congr (hmethods : keys.lookup "properties" = some (.listOf .method)) (name : String) :
    module location name (.obj fields) = module location name (.obj fields') := by
  refine h.requireList_congr location hmethods fun items items' hitems => ?_
  have hmethods : eachOf method "properties" location 0 items =
      eachOf method "properties" location 0 items' := eachOf_congr hitems ..
  rw [methods_eq, methods_eq, hmethods]

omit location in
theorem component_congr (hmodules : keys.lookup "nativeModules" = some (.objectOf .module))
    (name : String) :
    component name (.obj fields) = component name (.obj fields') := by
  have hread (entries : List (String × Json)) (location : String) :
      modules location entries =
        (entries.map fun entry => (entry.1, Part.module.meaning entry.2)).mapM fun entry =>
          entry.2 (s!"{location}.nativeModules.{entry.1}") entry.1 := by
    rw [List.mapM_map]
    rfl
  unfold component
  rcases h.field?_cases hmodules with ⟨hnone, hnone'⟩ | ⟨value, value', hvalue, hvalue', hsame⟩
  · rw [hnone, hnone']
  · rw [hvalue, hvalue']
    rcases entriesOf_cases hsame with ⟨entries, entries', rfl, rfl, hentries⟩ | ⟨rfl, _⟩
    · show (modules _ entries >>= _) = (modules _ entries' >>= _)
      rw [hread, hread, hentries]
    · rfl

omit location in
theorem document_congr (hcomponents : keys.lookup "modules" = some (.objectOf .component)) :
    Schema.ofJson (.obj fields) = Schema.ofJson (.obj fields') := by
  have hread (entries : List (String × Json)) :
      components entries =
        (entries.map fun entry => (entry.1, Part.component.meaning entry.2)).mapM fun entry =>
          entry.2 entry.1 := by
    rw [List.mapM_map]
    rfl
  refine h.require_congr "schema" hcomponents ?_
  rintro ⟨value, _⟩ ⟨value', _⟩ hsame
  rcases entriesOf_cases hsame with ⟨entries, entries', rfl, rfl, hentries⟩ | ⟨rfl, hobject⟩
  · show (components entries >>= _) = (components entries' >>= _)
    rw [hread, hread, hentries]
  · cases value with
    | obj entries => exact (hobject entries rfl).elim
    | _ => rfl

end

end Agree

theorem detail_cases {data : Json} {key : String} {inner : Part}
    (h : (detail data).lookup key = some inner) :
    key = "name" ∨ key = "elementType" ∨ key = "properties" := by
  have hmem : key ∈ (detail data).map (·.1) := by
    obtain ⟨before, after, happend, _⟩ := List.lookup_eq_some_iff.mp h
    rw [happend]
    simp
  unfold detail at hmem
  split at hmem <;> simp_all

/-- **What is made of an object is put together from what is made of the values under the keys
that it is asked for.** -/
theorem meaning_object {part : Part} {keys : List (String × Part)}
    {fields fields' : List (String × Json)} (hkeys : part.keys? (.obj fields) = some keys)
    (h : Agree keys fields fields') : part.meaning (.obj fields) = part.meaning (.obj fields') := by
  cases part with
  | document =>
    cases hkeys
    exact h.document_congr rfl
  | component =>
    cases hkeys
    exact funext fun name => h.component_congr rfl name
  | module =>
    cases hkeys
    exact funext fun location => funext fun name => h.module_congr location rfl name
  | method =>
    cases hkeys
    exact funext fun location => h.method_congr location rfl rfl
  | function =>
    cases hkeys
    exact funext fun location => funext fun name => h.function_congr location rfl rfl name
  | parameter =>
    cases hkeys
    refine funext fun location => ?_
    show Loader.parameter location _ = Loader.parameter location _
    rw [parameter_eq, parameter_eq]
    exact h.named_congr location (h.isSet_congr rfl) rfl rfl
  | field =>
    cases hkeys
    refine funext fun location => ?_
    show Loader.field location _ = Loader.field location _
    rw [field_eq, field_eq]
    exact h.named_congr location (h.isOptional_congr rfl rfl) rfl rfl
  | type =>
    cases hkeys
    refine Prod.ext (funext fun location => h.valueType_congr location rfl fun key inner hkey => ?_) rfl
    rcases detail_cases hkey with rfl | rfl | rfl <;> exact hkey
  | returned =>
    cases hkeys
    refine Prod.ext (funext fun location => h.valueType_congr location rfl fun key inner hkey => ?_)
      (h.isSet_congr rfl)
    rcases detail_cases hkey with rfl | rfl | rfl <;> exact hkey
  | _ => cases hkeys

/-! ### Documents -/

theorem lookup_unread {before after : List (String × Json)} {key asked : String} (value : Json)
    (h : asked ≠ key) :
    (before ++ after).lookup asked = (before ++ (key, value) :: after).lookup asked := by
  rw [List.lookup_append, List.lookup_append, Json.lookup_cons_ite, if_neg h]

theorem lookup_inside {α : Type} {read : Json → α} {before after : List (String × Json)}
    {key asked : String} {value value' : Json} (h : asked = key → read value = read value') :
    ((before ++ (key, value) :: after).lookup asked).map read =
      ((before ++ (key, value') :: after).lookup asked).map read := by
  rw [List.lookup_append, List.lookup_append, Json.lookup_cons_ite, Json.lookup_cons_ite]
  split
  · cases before.lookup asked with
    | none => exact congrArg some (h ‹_›)
    | some => rfl
  · rfl

/-- The same is made of values that are read alike. -/
theorem ReadAlike.meaning_eq {part : Part} {data data' : Json} (h : ReadAlike part data data') :
    part.meaning data = part.meaning data' := by
  induction h with
  | refl => rfl
  | symm _ ih => exact ih.symm
  | trans _ _ ih ih' => exact ih.trans ih'
  | reordered hkeys hnodup hperm =>
    refine meaning_object hkeys fun key inner _ => ?_
    exact congrArg _ (Json.lookup_of_perm hnodup hperm key)
  | unread before after value hkeys hunread =>
    refine meaning_object hkeys fun asked inner hasked => congrArg _ (lookup_unread value ?_)
    rintro rfl
    rw [hunread] at hasked
    cases hasked
  | inside before after hkeys hkey _ ih =>
    refine meaning_object hkeys fun asked inner hasked => lookup_inside fun hsame => ?_
    rw [hsame, hkey] at hasked
    cases hasked
    exact ih
  | item before after _ ih =>
    show Sum.inr _ = Sum.inr _
    rw [List.map_append, List.map_append, List.map_cons, List.map_cons, ih]
  | entry before after _ ih =>
    show Sum.inr _ = Sum.inr _
    rw [List.map_append, List.map_append, List.map_cons, List.map_cons, ih]

/-- **The outcome depends on what is read.** Documents that differ by the order of keys, and
by what is under keys that are not asked for, stand for the same schema, or are refused for
the same fault. -/
theorem ofJson_alike {data data' : Json} (h : ReadAlike .document data data') :
    Schema.ofJson data = Schema.ofJson data' := h.meaning_eq

/-- A document with one method. -/
def methodDocument (method : Json) : Json :=
  .obj [("modules", .obj [("Shelf", .obj [("nativeModules",
    .obj [("Store", .obj [("properties", .arr [method])])])])])]

/-- The type of a method with one parameter. -/
def parameterFunction (type : Json) : Json :=
  .obj [("params", .arr [.obj [("name", .str "path"), ("typeAnnotation", type)]]),
    ("returnTypeAnnotation", .obj [("type", .str "VoidTypeAnnotation")])]

/-- A text needs no name, and the type of a method may come before the name of the method. -/
theorem ofJson_alike_text :
    let text := parameterFunction (.obj [("type", .str "StringTypeAnnotation")])
    let path := parameterFunction (.obj [("type", .str "StringTypeAnnotation"), ("name", .str "Path")])
    let document := methodDocument (.obj [("name", .str "save"), ("typeAnnotation", text)])
    let other := methodDocument (.obj [("typeAnnotation", path), ("name", .str "save")])
    ReadAlike .document document other ∧ Schema.ofJson document = Schema.ofJson other := by
  intro text path document other
  have htext : ReadAlike .function text path :=
    .inside [] _ rfl rfl (.item [] [] (.inside [_] [] rfl rfl (.unread [_] [] _ rfl rfl)))
  have hmethod : ReadAlike .method (.obj [("name", .str "save"), ("typeAnnotation", text)])
      (.obj [("typeAnnotation", path), ("name", .str "save")]) :=
    .trans (.inside [_] [] rfl rfl htext) (.reordered rfl (by decide) (.swap ..))
  have halike : ReadAlike .document document other :=
    .inside [] [] rfl rfl (.entry [] [] (.inside [] [] rfl rfl
      (.entry [] [] (.inside [] [] rfl rfl (.item [] [] hmethod)))))
  exact ⟨halike, ofJson_alike halike⟩

end NativeHeader.Loader

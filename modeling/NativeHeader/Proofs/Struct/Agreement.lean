import Mathlib.Logic.Function.Iterate
import NativeHeader.Proofs.Struct.Getters

/-! The check of a field and the type of its getter.

Before a record is collected its fields are checked (`ValueType.unsupportedInField?`), and
later each of them gets a getter with a type (`fieldType`). Both go through arrays down to
what the innermost one holds, each in its own way. They agree (`fieldType_agrees`): a getter
is refused exactly if the check has found something, and by the label that it has found.
Otherwise the type of an array is a vector for each of its levels around the type of its
core, and what may be absent is optional as a whole. -/
namespace NativeHeader

/-! ### Arrays and their cores -/

/-- How many arrays a value is, one in the other. -/
def ValueType.levels : ValueType → Nat
  | .array => 1
  | .arrayOf element => element.levels + 1
  | _ => 0

/-- What the innermost array holds, if that is described. A value that is no array is its own
core. -/
def ValueType.core? : ValueType → Option ValueType
  | .array => none
  | .arrayOf element => element.core?
  | type => some type

/-- The text is the type of a core, which has the given name if it is a record. -/
def CoreText (module name text : String) : Option ValueType → Prop
  | none => text = "id<NSObject>"
  | some (.record _) => text = "JS::Native" ++ module ++ "::Spec" ++ name
  | some core => ∃ choice, TypeTable.fields core = some choice ∧ text = choice.present

/-- A vector of what is written. -/
def vectorText (element : String) : String := "facebook::react::LazyVector<" ++ element ++ ">"

/-- The word that every level adds to a name. -/
def elementWords (levels : Nat) : String := String.join (List.replicate levels "Element")

theorem elementWords_succ (name : String) (levels : Nat) :
    name ++ elementWords (levels + 1) = Naming.element name ++ elementWords levels := by
  rw [elementWords, List.replicate_succ, String.join_cons, Naming.element, String.append_assoc]
  rfl

theorem reference_eq (module name : String) :
    Naming.reference module name = "JS::Native" ++ module ++ "::Spec" ++ name := by
  have hfirst : "JS::Native" = "JS::" ++ "Native" := by decide
  have hlast : "::Spec" = "::" ++ "Spec" := by decide
  rw [hfirst, hlast]
  simp only [Naming.reference, Naming.nativeModule, Naming.spec, String.append_assoc]

/-- **The type of a value is a vector for each of its levels around the type of its core.** -/
theorem text_nestedCType (module name : String) {type : ValueType}
    (h : type.unsupportedInField? = none) :
    ∃ core, CoreText module (name ++ elementWords type.levels) core type.core? ∧
      (type.nestedCType module name).text = vectorText^[type.levels] core := by
  induction type using ValueType.nestingInduction generalizing name with
  | record fields =>
    refine ⟨_, rfl, ?_⟩
    have hname : name ++ elementWords 0 = name := String.append_empty
    show Naming.reference module name = "JS::Native" ++ module ++ "::Spec" ++ (name ++ elementWords 0)
    rw [reference_eq, hname]
  | arrayOf element ih =>
    obtain ⟨core, hcore, htext⟩ := ih (Naming.element name) h
    refine ⟨core, ?_, ?_⟩
    · rw [ValueType.levels, elementWords_succ]
      exact hcore
    · rw [ValueType.levels, Function.iterate_succ_apply', ← htext]
      rfl
  | other type hrecord harray =>
    have hrow (hn : type.isNested = false) : ∃ choice, TypeTable.fields type = some choice ∧
        (TypeTable.fields.typeOf type false).text = choice.present := by
      obtain ⟨choice, hchoice⟩ := row_of_supported hn h
      refine ⟨choice, hchoice, ?_⟩
      rw [TypeTable.typeOf, hchoice]
      rfl
    cases type with
    | record fields => exact (hrecord fields rfl).elim
    | arrayOf element => exact (harray element rfl).elim
    | array => exact ⟨_, rfl, rfl⟩
    | _ =>
      obtain ⟨choice, hchoice, htext⟩ := hrow rfl
      exact ⟨choice.present, ⟨choice, hchoice, rfl⟩, htext⟩

/-! ### Fields that no struct can hold -/

section
variable {type : ValueType} {found : String}

/-- What the check finds has no row. -/
theorem tableType_of_unsupported (hn : type.isNested = false)
    (h : type.unsupportedInField? = some found) (struct : String) (field : Name) (nullable : Bool) :
    tableType struct field type nullable =
      .error (.unsupported (.fieldOfStruct field struct) found) := by
  rw [unsupportedInField?_of_not_nested hn] at h
  obtain ⟨hrow, hlabel⟩ := Option.ite_none_left_eq_some.mp h
  cases hlabel
  rw [tableType, find_of_no_row (Option.not_isSome_iff_eq_none.mp hrow)]

/-- What the check finds in an array is found again on the way to its type. -/
theorem nestedType_of_unsupported (h : type.unsupportedInField? = some found)
    (module struct : String) (field : Name) (name : String) :
    nestedType module struct field name type =
      .error (.unsupported (.fieldOfStruct field struct) found) := by
  induction type using ValueType.nestingInduction generalizing name with
  | record fields => cases h
  | arrayOf element ih =>
    rw [nestedType, ih h]
    rfl
  | other type hrecord harray =>
    cases type with
    | record fields => exact (hrecord fields rfl).elim
    | arrayOf element => exact (harray element rfl).elim
    | array => cases h
    | _ => exact tableType_of_unsupported rfl h struct field false

/-- **What the check finds refuses the getter.** -/
theorem fieldType_of_unsupported (h : type.unsupportedInField? = some found)
    (module struct name : String) (nullable : Bool) :
    fieldType module (.str struct) ⟨.str name, type, nullable⟩ =
      .error (.unsupported (.fieldOfStruct (.str name) (Naming.spec struct)) found) := by
  cases type with
  | record fields => cases h
  | array => cases h
  | arrayOf element =>
    have hrun : fieldType module (.str struct) ⟨.str name, .arrayOf element, nullable⟩ = (do
        let inner ← nestedType module (Naming.spec struct) (.str name)
          (Naming.struct [struct, name]) (.arrayOf element)
        return inner.orAbsent nullable) := rfl
    rw [hrun, nestedType_of_unsupported h]
    rfl
  | _ => exact tableType_of_unsupported rfl h (Naming.spec struct) (.str name) nullable

end

/-! ### Both together -/

/-- A field with a text for its name can be held if the check has found nothing. -/
theorem held_of_supported {type : ValueType} (h : type.unsupportedInField? = none) (name : String)
    (nullable : Bool) : Field.Held ⟨.str name, type, nullable⟩ :=
  ⟨h, fun _ => ⟨name, rfl⟩⟩

/-- The type of the getter of an array. -/
theorem text_getterType {type : ValueType} (h : type.unsupportedInField? = none)
    (hlevels : 0 < type.levels) (module struct name : String) (nullable : Bool) :
    ∃ core, CoreText module
        (Naming.capitalize struct ++ Naming.capitalize name ++ elementWords type.levels) core
        type.core? ∧
      (Field.getterType module struct ⟨.str name, type, nullable⟩).text =
        let array := vectorText^[type.levels] core
        if nullable then "folly::Optional<" ++ array ++ ">" else array := by
  have hn : type.isNested = true := by
    cases type with
    | record | array | arrayOf => rfl
    | _ => cases hlevels
  have hname : Naming.struct [struct, name] = Naming.capitalize struct ++ Naming.capitalize name := by
    simp [Naming.struct]
  obtain ⟨core, hcore, htext⟩ := text_nestedCType module (Naming.struct [struct, name]) h
  rw [hname] at hcore
  refine ⟨core, hcore, ?_⟩
  rw [← htext]
  unfold Field.getterType
  rw [if_pos hn]
  cases nullable <;> rfl

/-- **The check of a field and the type of its getter agree.** The getter is refused exactly
if the check has found something, and the message ends with what it has found. Otherwise
there is a type, and if the field is an array it is a vector for each level around the type of
its core, optional as a whole if the field may be absent. The name of a core that is a
record has a word for each level. -/
theorem fieldType_agrees (module struct name : String) (type : ValueType) (nullable : Bool) :
    (∀ fault, fieldType module (.str struct) ⟨.str name, type, nullable⟩ = .error fault ↔
      ∃ found, type.unsupportedInField? = some found ∧
        fault = .unsupported (.fieldOfStruct (.str name) ("Spec" ++ struct)) found) ∧
    (∀ found, (Fault.unsupported (.fieldOfStruct (.str name) ("Spec" ++ struct)) found).message =
      "Unsupported type for field \"" ++ name ++ "\" of struct " ++ ("Spec" ++ struct) ++
        ". Found: " ++ found) ∧
    (type.unsupportedInField? = none →
      ∃ t, fieldType module (.str struct) ⟨.str name, type, nullable⟩ = .ok t ∧
        (0 < type.levels → ∃ core, CoreText module
            (Naming.capitalize struct ++ Naming.capitalize name ++ elementWords type.levels) core
            type.core? ∧
          t.text =
            let array := vectorText^[type.levels] core
            if nullable then "folly::Optional<" ++ array ++ ">" else array)) := by
  have hok (h : type.unsupportedInField? = none) :=
    fieldType_of_held (held_of_supported h name nullable) module struct
  refine ⟨fun fault => ?_, fun found => ?_, fun h => ?_⟩
  · cases hcheck : type.unsupportedInField? with
    | none =>
      rw [hok hcheck]
      simp
    | some found =>
      rw [fieldType_of_unsupported hcheck]
      simp [Naming.spec, eq_comm]
  · rfl
  · exact ⟨_, hok h, fun hlevels => text_getterType h hlevels module struct name nullable⟩

/-- Two arrays around a record, and two around a promise. -/
theorem fieldType_agrees_drawers :
    (∃ t, fieldType "Store" (.str "SaveOptions")
        ⟨.str "drawers", .arrayOf (.arrayOf (.record [])), true⟩ = .ok t ∧
      t.text = "folly::Optional<facebook::react::LazyVector<facebook::react::LazyVector<" ++
        "JS::NativeStore::SpecSaveOptionsDrawersElementElement>>>") ∧
    fieldType "Store" (.str "SaveOptions") ⟨.str "drawers", .arrayOf (.arrayOf .promise), true⟩ =
      .error (.unsupported (.fieldOfStruct (.str "drawers") "SpecSaveOptions")
        "GenericPromiseTypeAnnotation") := by
  constructor
  · obtain ⟨t, ht, htext⟩ := (fieldType_agrees "Store" "SaveOptions" "drawers"
      (.arrayOf (.arrayOf (.record []))) true).2.2 rfl
    obtain ⟨core, hcore, htext⟩ := htext (by decide)
    refine ⟨t, ht, htext.trans ?_⟩
    rw [show core = _ from hcore]
    rfl
  · exact ((fieldType_agrees "Store" "SaveOptions" "drawers" (.arrayOf (.arrayOf .promise)) true).1
      _).mpr ⟨_, rfl, rfl⟩

end NativeHeader

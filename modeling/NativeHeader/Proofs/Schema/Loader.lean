import NativeHeader.Proofs.Schema.Annotation
import NativeHeader.Run.Failure

/-! What the loader makes of a document.

Every function of the loader reads what its part of a document describes; the last of them
reads the document. From this follow which documents are accepted and as what
(`ofJson_ok_iff`), and how a document is refused (`ofJson_outcomes`). -/
namespace NativeHeader

/-! ### Documents on which the loader stalls -/

namespace Json

def StallsFunction (data : Json) : Prop :=
  ∃ items, data.field? "params" = some (.arr items) ∧
    (Stops IsProperty StallsProperty items ∨ (∀ item ∈ items, item.IsProperty) ∧
      ∃ given, data.field? "returnTypeAnnotation" = some given ∧ given.StallsType)

def StallsMethod (data : Json) : Prop :=
  (∃ name, data.field? "name" = some name) ∧
    ∃ given, data.field? "typeAnnotation" = some given ∧ given.StallsFunction

def StallsModule (data : Json) : Prop :=
  ∃ items, data.field? "properties" = some (.arr items) ∧ Stops IsMethod StallsMethod items

def StallsComponent (data : Json) : Prop :=
  ∃ entries, data.field? "nativeModules" = some (.obj entries) ∧
    Stops (fun entry : String × Json => entry.2.IsModule) (fun entry => entry.2.StallsModule) entries

def StallsSchema (data : Json) : Prop :=
  ∃ entries, data.field? "modules" = some (.obj entries) ∧
    Stops (fun entry : String × Json => entry.2.IsComponent) (fun entry => entry.2.StallsComponent)
      entries

theorem Lacks.ne_obj {data : Json} {key : String} (h : data.Lacks key)
    {entries : List (String × Json)} : data.field? key ≠ some (.obj entries) := by
  rcases h with h | h <;> simp [h]

end Json

namespace Loader

/-! ### Methods -/

theorem parameter_reads (data : Json) (location : String) :
    Reads (parameter location data) data.DescribesParameter data.StallsProperty := by
  rw [parameter_eq]
  refine (named_reads (isSet · "nullable") location fun given _ => valueType_reads given location).congr
    (fun p => ?_) Iff.rfl
  constructor
  · rintro ⟨hname, htype, hnullable⟩
    exact ⟨hname, htype, by rw [hnullable, isSet_iff]⟩
  · rintro ⟨hname, htype, hnullable⟩
    exact ⟨hname, htype, Bool.eq_iff_iff.mpr (hnullable.trans isSet_iff.symm)⟩

theorem parameters_reads (items : List Json) (location : String) :
    Reads (parameters location 0 items) (List.Forall₂ Json.DescribesParameter items)
      (Stops Json.IsProperty Json.StallsProperty items) := by
  rw [parameters_eq]
  exact eachOf_reads (d := Json.DescribesParameter) (fun item _ => parameter_reads item)
    (fun item _ => Json.isParameter_iff item) ..

/-- What is read of a method after its name. -/
def function (location : String) (name : Name) (data : Json) : Except Fault Method := do
  let parameters ← parameters location 0 (← requireList data "params" location)
  let returned ← require data "returnTypeAnnotation" location
  let type ← valueType (location ++ ".returnTypeAnnotation") returned
  return { name, parameters, returned := { type, nullable := isSet returned "nullable" } }

theorem method_eq (location : String) (data : Json) :
    method location data = (do
      let name ← require data "name" location
      let location := s!"{location}({name.1.display})"
      let given ← require data "typeAnnotation" location
      function location name given) := rfl

theorem function_reads (name : Name) (data : Json) (location : String) :
    Reads (function location name data) (fun m => name = m.name ∧ data.DescribesFunction m)
      data.StallsFunction := by
  unfold function
  have hreturned (ps : List Parameter) (given : Json) :
      Reads (valueType (location ++ ".returnTypeAnnotation") given >>= fun type =>
          .ok (Method.mk name ps ⟨type, isSet given "nullable"⟩))
        (fun m => name = m.name ∧ ps = m.parameters ∧ given.DescribesReturned m.returned)
        given.StallsType := by
    refine (valueType_reads given _).map fun m => ?_
    constructor
    · rintro ⟨type, htype, rfl⟩
      exact ⟨rfl, rfl, htype, isSet_iff⟩
    · rintro ⟨rfl, rfl, htype, hnullable⟩
      refine ⟨_, htype, ?_⟩
      rw [← Bool.eq_iff_iff.mpr (hnullable.trans isSet_iff.symm)]
  refine (requireList_bind_reads "params" location fun items =>
    (parameters_reads items location).bind fun ps _ =>
      require_bind_reads "returnTypeAnnotation" location fun given _ =>
        hreturned ps given).congr (fun m => ?_) ?_
  · constructor
    · rintro ⟨items, hitems, _, hps, given, hgiven, hname, rfl, hr⟩
      exact ⟨hname, ⟨items, hitems, hps⟩, given, hgiven, hr⟩
    · rintro ⟨hname, ⟨items, hitems, hps⟩, given, hgiven, hr⟩
      exact ⟨items, hitems, _, hps, given, hgiven, hname, rfl, hr⟩
  · have hall (items : List Json) : (∃ ps, List.Forall₂ Json.DescribesParameter items ps) ↔
        ∀ item ∈ items, item.IsProperty := by
      simp only [Json.exists_forall₂_iff, Json.isParameter_iff]
    simp only [Json.StallsFunction, ← hall, exists_and_right]

theorem method_reads (data : Json) (location : String) :
    Reads (method location data) data.DescribesMethod data.StallsMethod := by
  rw [method_eq]
  refine (require_bind_reads "name" location fun name _ =>
    require_bind_reads "typeAnnotation" _ fun given _ => function_reads name given _).congr
      (fun m => ?_) (by simp only [Json.StallsMethod, exists_and_right])
  constructor
  · rintro ⟨_, hname, given, hgiven, rfl, hfunction⟩
    exact ⟨hname, given, hgiven, hfunction⟩
  · rintro ⟨hname, given, hgiven, hfunction⟩
    exact ⟨_, hname, given, hgiven, rfl, hfunction⟩

/-! ### Modules and components -/

theorem module_reads (name : String) (data : Json) (location : String) :
    Reads (module location name data) (Json.DescribesModule (name, data)) data.StallsModule := by
  unfold module
  have hmethods (items : List Json) :
      Reads (methods location 0 items >>= fun methods => .ok (Module.mk name methods))
        (fun m => m.name = name ∧ List.Forall₂ Json.DescribesMethod items m.methods)
        (Stops Json.IsMethod Json.StallsMethod items) := by
    rw [methods_eq]
    refine (eachOf_reads (d := Json.DescribesMethod) (fun item _ => method_reads item)
      (fun item _ => Json.isMethod_iff item) ..).map fun m => ?_
    constructor
    · rintro ⟨_, hall, rfl⟩
      exact ⟨rfl, hall⟩
    · rintro ⟨rfl, hall⟩
      exact ⟨_, hall, rfl⟩
  refine (requireList_bind_reads "properties" location hmethods).congr (fun m => ?_) Iff.rfl
  constructor
  · rintro ⟨items, hitems, hname, hall⟩
    exact ⟨hname, items, hitems, hall⟩
  · rintro ⟨hname, items, hitems, hall⟩
    exact ⟨items, hitems, hname, hall⟩

theorem modules_reads (location : String) (entries : List (String × Json)) :
    Reads (modules location entries) (List.Forall₂ Json.DescribesModule entries)
      (Stops (fun entry => entry.2.IsModule) (fun entry => entry.2.StallsModule) entries) :=
  mapM_reads (fun entry => module_reads entry.1 entry.2 _) Json.isModule_iff entries

theorem component_reads (name : String) (data : Json) :
    Reads (component name data) (Json.DescribesComponent (name, data)) data.StallsComponent := by
  have hnone (h : data.Lacks "nativeModules") :
      Reads (.ok ⟨name, none⟩) (Json.DescribesComponent (name, data)) data.StallsComponent := by
    refine (Reads.pure _).congr (fun c => ?_) (iff_of_false id fun ⟨_, hobj, _⟩ => h.ne_obj hobj)
    constructor
    · rintro rfl
      exact ⟨rfl, h⟩
    · obtain ⟨_, _ | ms⟩ := c
      · rintro ⟨rfl, _⟩
        rfl
      · rintro ⟨_, _, hobj, _⟩
        exact (h.ne_obj hobj).elim
  unfold component
  split
  case h_1 h => exact hnone (Or.inl h)
  case h_2 h => exact hnone (Or.inr h)
  case h_3 entries h =>
    have hstalls : Stops (fun entry => entry.2.IsModule) (fun entry => entry.2.StallsModule) entries ↔
        data.StallsComponent := by
      simp [Json.StallsComponent, h]
    rw [← hstalls]
    refine (modules_reads _ entries).map fun c => ?_
    constructor
    · rintro ⟨ms, hall, rfl⟩
      exact ⟨rfl, entries, h, hall⟩
    · obtain ⟨_, _ | ms⟩ := c
      · rintro ⟨_, hlacks⟩
        exact (Json.Lacks.ne_obj hlacks h).elim
      · rintro ⟨rfl, found, hfound, hall⟩
        rw [h] at hfound
        cases hfound
        exact ⟨ms, hall, rfl⟩
  case h_4 given hnull hobj h =>
    have hlacks : ¬ data.Lacks "nativeModules" := by simpa [Json.Lacks, h] using hnull
    have hmodules (entries : List (String × Json)) :
        data.field? "nativeModules" ≠ some (.obj entries) := by simpa [h] using hobj entries
    refine .shape _ (fun c hc => ?_) fun ⟨entries, hentries, _⟩ => hmodules entries hentries
    obtain ⟨_, _ | ms⟩ := c
    · exact hlacks hc.modules
    · obtain ⟨_, entries, hentries, _⟩ := hc
      exact hmodules entries hentries

theorem components_reads (entries : List (String × Json)) :
    Reads (components entries) (List.Forall₂ Json.DescribesComponent entries)
      (Stops (fun entry => entry.2.IsComponent) (fun entry => entry.2.StallsComponent) entries) :=
  mapM_reads (fun entry => component_reads entry.1 entry.2) Json.isComponent_iff entries

end Loader

/-! ### Documents -/

namespace Schema
open Loader

theorem ofJson_reads (data : Json) : Reads (ofJson data) data.DescribesSchema data.StallsSchema := by
  have hrefused (h : ∀ entries, data.field? "modules" ≠ some (.obj entries)) (e : ShapeError) :
      Reads (.error (.shape e)) data.DescribesSchema data.StallsSchema :=
    .shape e (fun _ ⟨entries, hentries, _⟩ => h entries hentries)
      fun ⟨entries, hentries, _⟩ => h entries hentries
  cases h : data.field? "modules" with
  | none =>
    obtain ⟨e, he⟩ := require_missing "schema" h
    rw [ofJson, he]
    exact hrefused (by simp [h]) e
  | some value =>
    rw [ofJson, require_eq h]
    cases value with
    | obj entries =>
      have hstalls : Stops (fun entry => entry.2.IsComponent) (fun entry => entry.2.StallsComponent)
          entries ↔ data.StallsSchema := by
        simp [Json.StallsSchema, h]
      rw [← hstalls]
      refine (components_reads entries).map fun s => ?_
      constructor
      · rintro ⟨cs, hall, rfl⟩
        exact ⟨entries, h, hall⟩
      · rintro ⟨found, hfound, hall⟩
        rw [h] at hfound
        cases hfound
        exact ⟨_, hall, rfl⟩
    | _ => exact hrefused (by simp [h]) _

/-- **The loader accepts exactly the documents that are schemas, and gives of each the
schema that it describes.** -/
theorem ofJson_ok_iff (data : Json) :
    ((∃ s, ofJson data = .ok s) ↔ data.IsSchema) ∧
      ∀ s, ofJson data = .ok s ↔ data.DescribesSchema s := by
  have hok := (ofJson_reads data).ok_iff
  exact ⟨by simp only [hok, Json.isSchema_iff], hok⟩

/-- **A document is accepted, or refused for a defect of its shape, or the loader stalls on
it, which ends a run without a report.** It stalls exactly where the fields of a record are
given by a value without members, and nothing read before it is wrong. -/
theorem ofJson_outcomes (data : Json) :
    ((∃ s, ofJson data = .ok s) ∨ (∃ e, ofJson data = .error (.shape e)) ∨
      ∃ kind, ofJson data = .error (.notIterable kind)) ∧
    ((∃ kind, ofJson data = .error (.notIterable kind)) ↔ data.StallsSchema) ∧
    ∀ fault, ofJson data = .error fault →
      ((Failure.fault fault).isReported = true ↔ ¬ data.StallsSchema) := by
  have hreads := ofJson_reads data
  rw [← hreads.stalls_iff]
  have houtcome := hreads.outcome
  generalize ofJson data = x at houtcome
  cases houtcome with
  | ok _ => simp
  | shape e => simp [Failure.isReported]
  | stalled kind _ => simp [Failure.isReported]

/-- A schema with one method, whose one parameter has the number 5 for its fields. -/
def numberForFields : Json :=
  let options : Json := .obj [("name", .str "options"),
    ("typeAnnotation", .obj [("type", .str "ObjectTypeAnnotation"), ("properties", .int 5)])]
  let method : Json := .obj [("name", .str "run"), ("typeAnnotation", .obj [
    ("params", .arr [options]),
    ("returnTypeAnnotation", .obj [("type", .str "VoidTypeAnnotation")])])]
  .obj [("modules", .obj [("C", .obj [("nativeModules",
    .obj [("M", .obj [("properties", .arr [method])])])])])]

/-- Not every document that is refused is refused for a defect of its shape. -/
theorem ofJson_stalls_on_number : ¬ ∀ data : Json,
    (∃ s, ofJson data = .ok s) ∨ ∃ e, ofJson data = .error (.shape e) := by
  intro hall
  -- There is one component with one module, of one method with one parameter.
  have first {α : Type} {good bad : α → Prop} {item : α} (h : bad item) : Stops good bad [item] :=
    stops_cons.mpr (Or.inl h)
  have hstalls : numberForFields.StallsSchema := by
    refine ⟨_, rfl, first ⟨_, rfl, first ⟨_, rfl, first ⟨⟨_, rfl⟩, _, rfl, _, rfl, ?_⟩⟩⟩⟩
    refine Or.inl (first ⟨⟨_, rfl⟩, _, rfl, .fields rfl rfl ⟨rfl, Or.inr (Or.inl rfl)⟩⟩)
  obtain ⟨kind, hstalled⟩ := (ofJson_reads numberForFields).stalls hstalls
  specialize hall numberForFields
  rw [hstalled] at hall
  simp at hall

end Schema

end NativeHeader

import NativeHeader.Proofs.Header.Members

/-! Searching a signature, up to the first failure.

What a search does below a value can be listed beforehand (`ValueType.stops`): a record gets
its struct, and then of each field the type is looked at and what is nested in it is searched.
A stop knows the steps that lead to it, so it knows the name of the struct and the path in
the message. It fails if the name is taken by then, or if no struct can hold the type.

A search makes its stops in order. If one fails the search fails with it, and what the stops
before it have registered stays (`FailsFast`). This is so for all three searches of a method
(`search_fails_fast`). -/
namespace NativeHeader

/-! ### Stops -/

/-- What is done at one place below a value: a record gets a struct, or the type of a field is
looked at. The steps lead there from the value. -/
inductive Stop where
  | record (steps : List Descent) (fields : List Field)
  | field (steps : List Descent) (type : ValueType)

/-- The same stop, seen from further up. -/
def Stop.below (above : List Descent) : Stop → Stop
  | .record steps fields => .record (above ++ steps) fields
  | .field steps type => .field (above ++ steps) type

mutual

/-- The stops below a value, in order. -/
def ValueType.stops : ValueType → List Stop
  | .record fields => .record [] fields :: stopsOfFields fields
  | .arrayOf element => element.stops.map (·.below [.element])
  | _ => []

def stopsOfFields : List Field → List Stop
  | [] => []
  | field :: rest => stopsOfField field ++ stopsOfFields rest

/-- The type of a field is looked at before what is nested in it. -/
def stopsOfField : Field → List Stop
  | ⟨name, type, _⟩ => (.field [] type :: type.stops).map (·.below [.field name])

end

theorem stopsOfFields_eq (fields : List Field) : stopsOfFields fields = fields.flatMap stopsOfField := by
  induction fields with
  | nil => rfl
  | cons f rest ih => rw [stopsOfFields, ih, List.flatMap_cons]

/-- The names of the fields on the way. Arrays add nothing. -/
def fieldNames (steps : List Descent) : List String :=
  steps.filterMap fun
    | .field name => some name.display
    | .element => none

/-- The path of a message: the names of the fields, from the outermost record on. -/
def pathText (steps : List Descent) : String := ".".intercalate (fieldNames steps)

namespace Stop

def struct? (site : Site) : Stop → Option Struct
  | .record steps fields => some ⟨.str (Way.name ⟨site, steps⟩), fields⟩
  | .field _ _ => none

/-- Why a stop fails in a context, if it does: the name of the record is taken, or no struct can
hold the type. -/
def fault? (site : Site) (c : Context) : Stop → Option Fault
  | .record steps _ =>
    let name := Way.name ⟨site, steps⟩
    if c.structs.contains (.text name) then some (.shape (.repeatedStruct (.str name))) else none
  | .field steps type =>
    type.unsupportedInField?.map (.unsupported (site.field (pathText steps)))

end Stop

/-- The context with the structs of some stops added, in order. -/
def Context.after (c : Context) (site : Site) (stops : List Stop) : Context :=
  { c with structs := ⟨c.structs.toList ++ stops.filterMap (·.struct? site)⟩ }

/-- No stop fails if they are made one after the other. -/
def Passable (site : Site) (c : Context) (stops : List Stop) : Prop :=
  ∀ made stop rest, stops = made ++ stop :: rest → stop.fault? site (c.after site made) = none

/-- An outcome is that of the first stop that fails: until then structs are added, and then
nothing more happens. Without such a stop all structs are added and the outcome is `a`. -/
structure FailsFast {α : Type} (site : Site) (stops : List Stop) (c : Context) (a : α)
    (outcome : Except Fault α × Context) : Prop where
  ok_iff : ∀ b after, outcome = (.ok b, after) ↔
    Passable site c stops ∧ b = a ∧ after = c.after site stops
  error_iff : ∀ fault after, outcome = (.error fault, after) ↔
    ∃ made stop rest, stops = made ++ stop :: rest ∧ Passable site c made ∧
      stop.fault? site (c.after site made) = some fault ∧ after = c.after site made

/-! ### Stop after stop -/

section
variable {site : Site} {c : Context} {stop : Stop} {rest : List Stop}

theorem after_nil (site : Site) (c : Context) : c.after site [] = c := by
  simp [Context.after]

theorem after_cons (site : Site) (c : Context) (stop : Stop) (rest : List Stop) :
    c.after site (stop :: rest) = (c.after site [stop]).after site rest := by
  cases stop <;> simp [Context.after, Stop.struct?]

theorem passable_nil (site : Site) (c : Context) : Passable site c [] := by
  intro made stop rest h
  cases made <;> cases h

theorem passable_cons : Passable site c (stop :: rest) ↔
    stop.fault? site c = none ∧ Passable site (c.after site [stop]) rest := by
  constructor
  · intro h
    refine ⟨by simpa [after_nil] using h [] stop rest rfl, fun made next more hrest => ?_⟩
    rw [← after_cons]
    exact h (stop :: made) next more (by rw [hrest]; rfl)
  · rintro ⟨hstop, hrest⟩ made next more h
    cases made with
    | nil =>
      cases h
      rwa [after_nil]
    | cons first made =>
      cases h
      rw [after_cons]
      exact hrest made next more rfl

/-- Either all stops can be made, or one of them is the first that fails. -/
theorem passable_or_fails (site : Site) (c : Context) (stops : List Stop) :
    Passable site c stops ∨ ∃ made stop rest fault, stops = made ++ stop :: rest ∧
      Passable site c made ∧ stop.fault? site (c.after site made) = some fault := by
  induction stops generalizing c with
  | nil => exact Or.inl (passable_nil site c)
  | cons stop rest ih =>
    cases hstop : stop.fault? site c with
    | some fault =>
      exact Or.inr ⟨[], stop, rest, fault, rfl, passable_nil site c, by rwa [after_nil]⟩
    | none =>
      rcases ih (c.after site [stop]) with hrest | ⟨made, next, more, fault, rfl, hmade, hfault⟩
      · exact Or.inl (passable_cons.2 ⟨hstop, hrest⟩)
      · refine Or.inr ⟨stop :: made, next, more, fault, rfl, passable_cons.2 ⟨hstop, hmade⟩, ?_⟩
        rwa [after_cons]

end

/-- The visit that a stop is. -/
def Stop.visit (site : Site) : Stop → Visit
  | .record steps fields => .register (Way.name ⟨site, steps⟩) fields
  | .field steps type => .check (site.field (pathText steps)) type.unsupportedInField?

theorem step_visit (site : Site) (c : Context) (stop : Stop) :
    (stop.visit site).step c =
      match stop.fault? site c with
      | none => .ok (c.after site [stop])
      | some fault => .error fault := by
  cases stop with
  | record steps fields =>
    simp only [Stop.visit, Visit.step, Stop.fault?]
    split <;> rfl
  | field steps type =>
    simp only [Stop.visit, Stop.fault?]
    cases type.unsupportedInField? with
    | none => rw [Context.after]; simp [Visit.step, Stop.struct?]
    | some found => rfl

section
variable {site : Site} {c : Context} {stops : List Stop}

theorem follow_of_passable (h : Passable site c stops) :
    follow c (stops.map (·.visit site)) = (.ok (), c.after site stops) := by
  induction stops generalizing c with
  | nil => rw [after_nil]; rfl
  | cons stop rest ih =>
    obtain ⟨hstop, hrest⟩ := passable_cons.1 h
    rw [after_cons site c stop rest]
    simp only [List.map_cons, follow, step_visit, hstop]
    exact ih hrest

theorem follow_of_fault {made rest : List Stop} {stop : Stop} {fault : Fault}
    (hmade : Passable site c made) (hstop : stop.fault? site (c.after site made) = some fault) :
    follow c ((made ++ stop :: rest).map (·.visit site)) = (.error fault, c.after site made) := by
  rw [List.map_append, follow_append, follow_of_passable hmade]
  simp only [List.map_cons, follow, step_visit, hstop]

/-- **What makes the visits of stops fails by the first that fails.** -/
theorem failsFast_of_follow {α : Type} {a : α} {outcome : Except Fault α × Context}
    (h : outcome = ((follow c (stops.map (·.visit site))).1.map fun _ => a,
      (follow c (stops.map (·.visit site))).2)) : FailsFast site stops c a outcome := by
  have hok (hpass : Passable site c stops) : outcome = (.ok a, c.after site stops) := by
    rw [h, follow_of_passable hpass]
    rfl
  have herror {made rest stop fault} (hsplit : stops = made ++ stop :: rest)
      (hmade : Passable site c made) (hstop : stop.fault? site (c.after site made) = some fault) :
      outcome = (.error fault, c.after site made) := by
    rw [h, hsplit, follow_of_fault hmade hstop]
    rfl
  refine ⟨fun b after => ⟨fun hb => ?_, ?_⟩, fun fault after => ⟨fun hf => ?_, ?_⟩⟩
  · rcases passable_or_fails site c stops with hpass | ⟨_, _, _, _, hsplit, hmade, hstop⟩
    · cases hb.symm.trans (hok hpass)
      exact ⟨hpass, rfl, rfl⟩
    · cases hb.symm.trans (herror hsplit hmade hstop)
  · rintro ⟨hpass, rfl, rfl⟩
    exact hok hpass
  · rcases passable_or_fails site c stops with hpass | ⟨made, stop, rest, _, hsplit, hmade, hstop⟩
    · cases hf.symm.trans (hok hpass)
    · cases hf.symm.trans (herror hsplit hmade hstop)
      exact ⟨made, stop, rest, hsplit, hmade, hstop, rfl⟩
  · rintro ⟨made, stop, rest, hsplit, hmade, hstop, rfl⟩
    exact herror hsplit hmade hstop

end

/-! ### Names and paths -/

theorem Way.name_snoc (site : Site) (steps : List Descent) (step : Descent) :
    Way.name ⟨site, steps ++ [step]⟩ = Way.name ⟨site, steps⟩ ++ step.word := by
  simp [Way.name_eq, String.join_append, String.append_assoc]

theorem Way.capitalized (w : Way) : Naming.Capitalized w.name := by
  rw [Way.name_eq]
  exact w.site.capitalized.append
    (.join (List.forall_mem_map.mpr fun step _ => capitalized_word step))

@[simp] theorem fieldNames_field (steps : List Descent) (name : Name) :
    fieldNames (steps ++ [.field name]) = fieldNames steps ++ [name.display] := List.filterMap_append ..

@[simp] theorem fieldNames_element (steps : List Descent) :
    fieldNames (steps ++ [.element]) = fieldNames steps := by
  rw [fieldNames, List.filterMap_append]
  exact List.append_nil _

/-- The path grows by the name of a field, as long as no name on the way is empty. -/
theorem fieldPath_pathText {steps : List Descent} (h : ∀ n ∈ fieldNames steps, n ≠ "") (name : Name) :
    fieldPath (pathText steps) name = pathText (steps ++ [.field name]) := by
  unfold fieldPath pathText
  rw [fieldNames_field]
  cases hsteps : fieldNames steps with
  | nil => rfl
  | cons first rest =>
    rw [hsteps] at h
    have hpath : ¬ (".".intercalate (first :: rest)).isEmpty = true := by
      have hfirst := h first (List.mem_cons_self ..)
      rw [String.isEmpty_iff]
      cases rest with
      | nil => rwa [String.intercalate_singleton]
      | cons next more =>
        rw [String.intercalate_cons_cons, String.append_assoc, String.append_eq_empty_iff]
        exact fun hempty => hfirst hempty.1
    rw [if_neg hpath, String.intercalate_append_of_ne_nil (by simp) (by simp),
      String.intercalate_singleton]

/-- All fields below a value have a text for a name, and no empty one. -/
def ValueType.Titled (type : ValueType) : Prop :=
  ∀ b ∈ type.records, ∀ f ∈ b.fields, ∃ text, f.name = .str text ∧ text ≠ ""

theorem ValueType.Titled.field {fields : List Field} (h : (ValueType.record fields).Titled) {f : Field}
    (hf : f ∈ fields) : (∃ text, f.name = .str text ∧ text ≠ "") ∧ f.type.Titled := by
  rw [ValueType.Titled, records_record, List.forall_mem_cons] at h
  refine ⟨h.1 f hf, fun b hb => ?_⟩
  refine h.2 (b.under (.field f.name)) (List.mem_flatMap.mpr ⟨f, hf, ?_⟩)
  rw [recordsOfField_eq]
  exact List.mem_map_of_mem hb

theorem ValueType.Titled.element {element : ValueType} (h : (ValueType.arrayOf element).Titled) :
    element.Titled := by
  rw [ValueType.Titled, ValueType.records, List.forall_mem_map] at h
  exact h

/-! ### The visits of a search are those of its stops -/

/-- Visits that leave every context alike. -/
def Alike (a b : List Visit) : Prop := ∀ c, follow c a = follow c b

theorem Alike.append {a b a' b' : List Visit} (h : Alike a b) (h' : Alike a' b') :
    Alike (a ++ a') (b ++ b') := by
  intro c
  rw [follow_append, follow_append, h c]
  split
  · exact h' _
  · rfl

theorem Alike.cons (v : Visit) {a b : List Visit} (h : Alike a b) : Alike (v :: a) (v :: b) :=
  Alike.append (a := [v]) (b := [v]) (fun _ => rfl) h

theorem Alike.flatMap {ι : Type} (l : List ι) {f g : ι → List Visit} (h : ∀ i ∈ l, Alike (f i) (g i)) :
    Alike (l.flatMap f) (l.flatMap g) := by
  induction l with
  | nil => exact fun _ => rfl
  | cons i rest ih =>
    rw [List.flatMap_cons, List.flatMap_cons]
    exact (h i (List.mem_cons_self ..)).append (ih fun j hj => h j (List.mem_cons_of_mem i hj))

/-- A name that is a text is taken apart without any effect. -/
theorem Alike.spell {name : Name} (hname : ∃ text, name = .str text) {a b : List Visit} (h : Alike a b) :
    Alike (.spell name :: a) b := by
  obtain ⟨text, rfl⟩ := hname
  exact h

theorem below_below (stop : Stop) (above : List Descent) (step : Descent) :
    (stop.below [step]).below above = stop.below (above ++ [step]) := by
  cases stop <;> simp [Stop.below]

theorem stops_of_not_nested {type : ValueType} (h : type.isNested = false) : type.stops = [] := by
  cases type <;> first | rfl | cases h

/-- **The visits below a value are its stops**, wherever the value is found: its name is that of
the way to it, and its path has the fields on that way. -/
theorem visits_alike (site : Site) {above : List Descent} (habove : ∀ n ∈ fieldNames above, n ≠ "")
    {type : ValueType} (htype : type.Titled) :
    Alike (visits site (Way.name ⟨site, above⟩) (pathText above) type)
      (type.stops.map fun stop => (stop.below above).visit site) := by
  induction type using ValueType.nestingInduction generalizing above with
  | record fields ih =>
    rw [visits, ValueType.stops, visitsOfFields_eq, stopsOfFields_eq, List.map_cons, List.map_flatMap,
      Stop.below, Stop.visit, List.append_nil]
    refine .cons _ (.flatMap fields fun f hf => ?_)
    obtain ⟨⟨text, hname, hne⟩, hinner⟩ := htype.field hf
    obtain ⟨name, type, nullable⟩ := f
    obtain rfl : name = .str text := hname
    have hstruct : Naming.struct [Way.name ⟨site, above⟩, text] =
        Way.name ⟨site, above ++ [.field (.str text)]⟩ := by
      rw [Naming.struct_cons (Way.capitalized _), Way.name_snoc]
      simp [Naming.struct, Descent.word, Json.display]
    have hlonger : ∀ n ∈ fieldNames (above ++ [.field (.str text)]), n ≠ "" := by
      rw [fieldNames_field, List.forall_mem_append, List.forall_mem_singleton]
      exact ⟨habove, hne⟩
    rw [visitsOfField, stopsOfField, fieldPath_pathText habove, List.map_map, List.map_cons]
    simp only [Function.comp_def, below_below]
    rw [Stop.below, List.append_nil]
    refine .cons _ ?_
    cases hn : type.isNested
    · rw [stops_of_not_nested hn]
      exact fun _ => rfl
    · rw [if_pos rfl]
      refine .spell ⟨text, rfl⟩ ?_
      rw [show (Json.str text).display = text from rfl, hstruct]
      exact ih _ hf hlonger hinner
  | arrayOf element ih =>
    have hname : Naming.element (Way.name ⟨site, above⟩) = Way.name ⟨site, above ++ [.element]⟩ := by
      rw [Way.name_snoc]
      rfl
    have hpath : pathText above = pathText (above ++ [.element]) := by
      rw [pathText, pathText, fieldNames_element]
    rw [visits, ValueType.stops, hname, hpath, List.map_map]
    simp only [Function.comp_def, below_below]
    exact ih (by rwa [fieldNames_element]) htype.element
  | other type hrecord harray =>
    rw [visits.eq_3 _ _ _ _ hrecord harray, ValueType.stops.eq_3 _ hrecord harray]
    exact fun _ => rfl

/-- The visits below the value at a site. -/
theorem site_alike (site : Site) {type : ValueType} (htype : type.Titled) :
    Alike (visits site site.name "" type) (type.stops.map (·.visit site)) := by
  have hname : Way.name ⟨site, []⟩ = site.name := by simp [Way.name_eq]
  have hbelow : (fun stop : Stop => (stop.below []).visit site) = (·.visit site) := by
    funext stop
    cases stop <;> rfl
  have hnone : ∀ n ∈ fieldNames [], n ≠ "" := nofun
  have h := visits_alike site hnone htype
  rwa [hname, hbelow] at h

/-! ### The three searches -/

theorem failsFast_of_follows {α : Type} {x : CollectM α} {site : Site} {type : ValueType} {c : Context}
    {visits : List Visit} {a : α} (hx : Follows c.moduleName x visits a)
    (h : Alike visits (type.stops.map (·.visit site))) :
    FailsFast site type.stops c a (x.run.run c) := by
  refine failsFast_of_follow ?_
  rw [← h c]
  exact hx c rfl

theorem nestedVisits_alike {m : Method} {p : Parameter} (hm : ∃ text, m.name = .str text)
    (hp : ∃ text, p.name = .str text) (htype : p.type.Titled) :
    Alike (m.nestedVisits p) (p.type.stops.map (·.visit (.parameter p.name m.name))) := by
  unfold Method.nestedVisits
  cases hn : p.type.isNested
  · rw [stops_of_not_nested hn]
    exact fun _ => rfl
  · rw [if_pos rfl]
    exact .spell hm (.spell hp (site_alike _ htype))

theorem returnedVisits_alike {m : Method} (hm : ∃ text, m.name = .str text) {fields : List Field}
    (hrecord : m.returned.type = .record fields) (htype : m.returned.type.Titled) :
    Alike m.returnedVisits (m.returned.type.stops.map (·.visit (.returned m.name))) := by
  rw [hrecord] at htype
  rw [Method.returnedVisits, hrecord]
  show Alike (.spell m.name :: _) _
  exact .spell hm (site_alike _ htype)

/-- A name that is taken is written in the message. -/
theorem message_taken (name : String) :
    ∃ before after, (Fault.shape (.repeatedStruct (.str name))).message = before ++ name ++ after := by
  refine ⟨"Struct name \"", "\" is synthesized twice. " ++
    "Rename one of the methods, parameters or fields that produce it.", ?_⟩
  show "Struct name \"" ++ name ++ "\" is synthesized twice. " ++
    "Rename one of the methods, parameters or fields that produce it." = _
  rw [String.append_assoc]

/-- The path of a field is written in the message. -/
theorem message_path (site : Site) (path found : String) :
    ∃ before after, (Fault.unsupported (site.field path) found).message = before ++ path ++ after := by
  cases site with
  | parameter param method =>
    refine ⟨"Unsupported type for field \"",
      "\" of param \"" ++ (param.display ++ ("\" in " ++ (method.display ++ (". Found: " ++ found)))), ?_⟩
    show "Unsupported type for field \"" ++ path ++ "\" of param \"" ++ param.display ++ "\" in " ++
      method.display ++ ". Found: " ++ found = _
    simp only [String.append_assoc]
  | returned method =>
    refine ⟨"Unsupported type for field \"",
      "\" of the return type of " ++ (method.display ++ (". Found: " ++ found)), ?_⟩
    show "Unsupported type for field \"" ++ path ++ "\" of the return type of " ++ method.display ++
      ". Found: " ++ found = _
    simp only [String.append_assoc]

/-- **A search fails by the first stop that fails, and keeps what the stops before it have
registered.** This holds of a parameter that is a record, of the elements of any other
parameter, and of a record that is returned, whatever was collected before. The message has the
name that is taken, or the names of the fields that lead to the unsupported type. -/
theorem search_fails_fast (c : Context) {m : Method} (hm : ∃ text, m.name = .str text) :
    (∀ (p : Parameter) (fields : List Field), p.type = .record fields →
      (∃ text, p.name = .str text) → p.type.Titled →
      FailsFast (.parameter p.name m.name) p.type.stops c
        (.struct c.moduleName (Site.parameter p.name m.name).name)
        ((collectParameter m p).run.run c)) ∧
    (∀ p : Parameter, (∀ fields, p.type = .record fields → False) →
      (∃ text, p.name = .str text) → p.type.Titled →
      FailsFast (.parameter p.name m.name) p.type.stops c () ((collectElements m p).run.run c)) ∧
    (∀ fields : List Field, m.returned.type = .record fields → m.returned.type.Titled →
      FailsFast (.returned m.name) m.returned.type.stops c
        (.struct c.moduleName (Site.returned m.name).name) ((collectReturned m).run.run c)) ∧
    (∀ name, ∃ before after,
      (Fault.shape (.repeatedStruct (.str name))).message = before ++ name ++ after) ∧
    ∀ site path found, ∃ before after,
      (Fault.unsupported (Site.field path site) found).message = before ++ path ++ after := by
  refine ⟨fun p fields hrecord hp htype => ?_, fun p hrecord hp htype => ?_,
    fun fields hrecord htype => ?_, message_taken, message_path⟩
  · exact failsFast_of_follows (collectParameter_follows c.moduleName m p hrecord)
      (nestedVisits_alike hm hp htype)
  · exact failsFast_of_follows (collectElements_follows c.moduleName m p hrecord)
      (nestedVisits_alike hm hp htype)
  · have hfollows := collectReturned_follows c.moduleName m hrecord
    unfold Method.returnedCType at hfollows
    rw [hrecord] at hfollows
    exact failsFast_of_follows hfollows (returnedVisits_alike hm hrecord htype)

/-- A record with a promise two arrays down. -/
def Parameter.pending : Parameter := ⟨.str "options", .record [
  ⟨.str "item", .record [⟨.str "id", .string, false⟩], false⟩,
  ⟨.str "tags", .arrayOf (.arrayOf (.record [⟨.str "done", .promise, false⟩])), false⟩,
  ⟨.str "last", .record [], false⟩], false⟩

/-- A method that takes it and returns a record. -/
def Method.pending : Method := ⟨.str "save", [.pending], .record [], false⟩

/-- Three structs are registered before the promise is found, and none after it. The returned
record is not registered if its name is taken. -/
theorem search_fails_fast_pending :
    (∃ after, (collectParameter .pending .pending).run.run { moduleName := "Store" } =
        (.error (.unsupported (.fieldOfParameter "tags.done" (.str "options") (.str "save"))
          "GenericPromiseTypeAnnotation"), after) ∧
      after.structs.names = [.str "SaveOptions", .str "SaveOptionsItem",
        .str "SaveOptionsTagsElementElement"]) ∧
    let taken : Context := { moduleName := "Store", structs := ⟨[⟨.str "SaveReturnType", []⟩]⟩ }
    (collectReturned .pending).run.run taken =
      (.error (.shape (.repeatedStruct (.str "SaveReturnType"))), taken) := by
  have hm : ∃ text, Method.pending.name = .str text := ⟨_, rfl⟩
  constructor
  · have htype : Parameter.pending.type.Titled := by
      simp [ValueType.Titled, Parameter.pending, ValueType.records, recordsOfFields, recordsOfField,
        Below.under]
    have hsearch := (search_fails_fast { moduleName := "Store" } hm).1 .pending _ rfl ⟨_, rfl⟩ htype
    have hmade : Passable (.parameter (.str "options") (.str "save")) { moduleName := "Store" }
        (Parameter.pending.type.stops.take 6) := by
      show Passable _ _ [_, _, _, _, _, _]
      simp only [passable_cons, passable_nil, and_true]
      exact ⟨rfl, rfl, rfl, rfl, rfl, rfl⟩
    exact ⟨_, (hsearch.error_iff _ _).mpr ⟨Parameter.pending.type.stops.take 6,
      .field [.field (.str "tags"), .element, .element, .field (.str "done")] .promise,
      Parameter.pending.type.stops.drop 7, rfl, hmade, rfl, rfl⟩, rfl⟩
  · have htype : Method.pending.returned.type.Titled := by
      simp [ValueType.Titled, Method.pending, ValueType.records, recordsOfFields]
    have hsearch := (search_fails_fast
      { moduleName := "Store", structs := ⟨[⟨.str "SaveReturnType", []⟩]⟩ } hm).2.2.1 [] rfl htype
    exact (hsearch.error_iff _ _).mpr ⟨[], .record [] [], [], rfl, passable_nil _ _, rfl, rfl⟩

end NativeHeader

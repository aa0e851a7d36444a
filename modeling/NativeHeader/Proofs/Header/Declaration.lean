import NativeHeader.Proofs.Header.Selectors

/-! What the declaration of a method says.

Every parameter has an argument under its own name, in order, and the callbacks of a
promise come after them. Whichever argument begins the declaration has no label, and every
later one has its variable for a label (`Method.Declared`). A type is the text that the
table of its position gives, and only a record has a struct to refer to.

So the text of a declaration is made from the method and the name of the module. Whether a
method is declared at all can depend on the structs that the context already holds; what
it is declared as cannot (`member_declared`). -/
namespace NativeHeader

/-! ### Types -/

/-- The text of the type of a parameter: a record is passed by reference to its struct. -/
inductive Parameter.Typed (module method : String) : Parameter → String → Prop
  | record (param : String) (fields : List Field) (nullable : Bool) :
      Typed module method ⟨.str param, .record fields, nullable⟩
        (Naming.reference module (Naming.struct [method, param]) ++ "&")
  | row {p : Parameter} {choice : Choice} : TypeTable.parameters p.type = some choice →
      Typed module method p (if p.nullable then choice.nullable else choice.present)

/-- The text of the type that is returned: nothing where callbacks take the result. -/
inductive Returned.Typed (module method : String) : Returned → String → Prop
  | promise (nullable : Bool) : Typed module method ⟨.promise, nullable⟩ "void"
  | record (fields : List Field) (nullable : Bool) :
      Typed module method ⟨.record fields, nullable⟩ (Naming.reference module (Naming.returned method))
  | row {r : Returned} {choice : Choice} : r.type ≠ .promise →
      TypeTable.returned r.type = some choice →
      Typed module method r (if r.nullable then choice.nullable else choice.present)

section
variable (module : String) {m : Method} {method : String} (hmethod : m.name = .str method)
include hmethod

theorem typed_argument {p : Parameter} {param : String} (hparam : p.name = .str param)
    (hknown : TypeTable.parameters.Knows p.type) :
    Parameter.Typed module method p (m.argumentType module p).text := by
  by_cases hrecord : ∃ fields, p.type = .record fields
  · obtain ⟨name, type, nullable⟩ := p
    obtain ⟨fields, rfl⟩ := hrecord
    cases hparam
    rw [Method.argumentType, Site.name_parameter, hmethod]
    exact .record param fields nullable
  · obtain ⟨choice, hchoice⟩ := Option.isSome_iff_exists.mp (hknown.resolve_left hrecord)
    rw [argumentType_of_not_record module m (not_exists.mp hrecord), TypeTable.typeOf, hchoice]
    exact .row hchoice

theorem typed_returned (hknown : TypeTable.returned.Knows m.returned.type) :
    m.returned.Typed module method (m.returnedCType module).text := by
  by_cases hrecord : ∃ fields, m.returned.type = .record fields
  · obtain ⟨name, parameters, type, nullable⟩ := m
    obtain ⟨fields, rfl⟩ := hrecord
    cases hmethod
    rw [Method.returnedCType, Site.name_returned]
    exact .record fields nullable
  by_cases hpromise : m.returned.type = .promise
  · obtain ⟨name, parameters, type, nullable⟩ := m
    obtain rfl : type = .promise := hpromise
    cases nullable <;> exact .promise _
  · obtain ⟨choice, hchoice⟩ := Option.isSome_iff_exists.mp (hknown.resolve_left hrecord)
    rw [returnedCType_of_not_record (not_exists.mp hrecord), TypeTable.typeOf, hchoice]
    exact .row hpromise hchoice

end

/-! ### Arguments -/

/-- What the argument for a parameter has of it. -/
structure Parameter.Passed (module method : String) (p : Parameter) (a : Argument) : Prop where
  named : p.name = .str a.name
  typed : p.Typed module method a.type.text

/-- The types and the variables of the callbacks of a promise. -/
def callbackParts : List (String × String) :=
  [("RCTPromiseResolveBlock", "resolve"), ("RCTPromiseRejectBlock", "reject")]

/-- The parts that a method is declared by: the type that it returns, the arguments for its
parameters, and those for its callbacks. -/
structure Method.Declared (module name : String) (m : Method) (returned : String)
    (own callbacks : List Argument) : Prop where
  returns : m.returned.Typed module name returned
  passed : List.Forall₂ (Parameter.Passed module name) m.parameters own
  called : callbacks.map (fun a => (a.type.text, a.name)) =
    if m.returnsPromise then callbackParts else []
  first : ∀ a ∈ (own ++ callbacks).head?, a.label = ""
  later : ∀ a ∈ (own ++ callbacks).tail, a.label = a.name

/-- There is an argument for each parameter, and there are two more for a promise. -/
theorem Method.Declared.length {module name returned : String} {m : Method}
    {own callbacks : List Argument} (h : m.Declared module name returned own callbacks) :
    (own ++ callbacks).length = m.parameters.length + if m.returnsPromise then 2 else 0 := by
  have hcallbacks := congrArg List.length h.called
  rw [List.length_map] at hcallbacks
  rw [List.length_append, h.passed.length_eq, hcallbacks]
  cases m.returnsPromise <;> rfl

theorem ownArguments_passed (module : String) {m : Method} {method : String}
    (hmethod : m.name = .str method) (first : Bool) {params : List Parameter}
    (hparams : ∀ p ∈ params, ∃ text, p.name = .str text)
    (hknown : ∀ p ∈ params, TypeTable.parameters.Knows p.type) :
    List.Forall₂ (Parameter.Passed module method) params (m.ownArguments module first params) := by
  induction params generalizing first with
  | nil => exact .nil
  | cons p rest ih =>
    obtain ⟨⟨param, hparam⟩, hparams⟩ := List.forall_mem_cons.mp hparams
    obtain ⟨hp, hknown⟩ := List.forall_mem_cons.mp hknown
    have hnamed : p.name = .str p.name.display := by
      rw [hparam]
      rfl
    exact .cons ⟨hnamed, typed_argument module hmethod hparam hp⟩ (ih false hparams hknown)

/-! ### Declarations -/

/-- A method that gives a member is clear, in whichever context it is worked on. -/
theorem clear_of_member {m : Method} {c after : Context} {result : Option Member}
    (h : (member m).run.run c = (.ok result, after)) :
    m.Clear ∧ result = m.member? c.moduleName := by
  rw [member_follows c.moduleName m c rfl] at h
  rcases hfollow : follow c (m.visits c.moduleName) with ⟨_ | _, context⟩
  · rw [hfollow] at h
    cases h
  · rw [hfollow] at h
    cases h
    exact ⟨method_clear_iff.mp (clear_of_follow hfollow), rfl⟩

/-- **What a method is declared as.** In every context in which it is declared, the text is
one and the same: the returned type in front of the name, and after it an argument for each
parameter and the callbacks of a promise, one a line. -/
theorem member_declared (module : String) {m : Method} {name : String} (hname : m.name = .str name)
    (hother : name ≠ constantsMethod) (hparams : ∀ p ∈ m.parameters, ∃ text, p.name = .str text) :
    ∃ text, ∀ c : Context, c.moduleName = module → ∀ result after,
      (member m).run.run c = (.ok result, after) →
        result.map Member.text = some text ∧
          ∃ returned own callbacks, m.Declared module name returned own callbacks ∧
            (own ++ callbacks).length = m.parameters.length + (if m.returnsPromise then 2 else 0) ∧
            text = "- (" ++ returned ++ ") " ++ name ++
              "\n   ".intercalate ((own ++ callbacks).map Argument.text) ++ ";" := by
  have hdeclared : m.describesConstants = false := by
    rw [Bool.eq_false_iff, Ne, describesConstants_iff, hname, Json.str.injEq]
    exact hother
  have hmember : m.member? module = some (.declaration (m.declaration module)) := by
    rw [Method.member?, hdeclared]
    rfl
  refine ⟨(m.declaration module).text, ?_⟩
  rintro c rfl result after hrun
  obtain ⟨hclear, rfl⟩ := clear_of_member hrun
  have hparts : m.Declared c.moduleName name (m.returnedCType c.moduleName).text
      (m.ownArguments c.moduleName true m.parameters)
      (if m.returnsPromise then promiseArguments m.parameters.isEmpty else []) :=
    { returns := typed_returned c.moduleName hname (hclear.returns hdeclared).known
      passed := ownArguments_passed c.moduleName hname true hparams fun p hp =>
        (hclear.takes hdeclared p hp).known
      called := by cases m.returnsPromise <;> rfl
      first := label_head c.moduleName m
      later := label_tail c.moduleName m }
  refine ⟨?_, _, _, _, hparts, hparts.length, ?_⟩
  · rw [hmember]
    rfl
  · rw [Declaration.text, Method.declaration, hname]
    rfl

/-- A method with a record and a number that may be absent, and callbacks. -/
def Method.load : Method where
  name := .str "load"
  parameters := [
    ⟨.str "options", .record [⟨.str "limit", .number, false⟩], false⟩,
    ⟨.str "count", .number, true⟩]
  returned := ⟨.promise, false⟩

/-- A context with a struct and constants of other methods. -/
def Context.begun : Context := ⟨"Store", ⟨[⟨.str "SaveItem", []⟩]⟩, some []⟩

theorem member_declared_load : ∃ result after,
    (member .load).run.run .begun = (.ok result, after) ∧
      result.map Member.text = some
        ("- (void) load:(JS::NativeStore::SpecLoadOptions&)options\n" ++
          "   count:(NSNumber *)count\n" ++
          "   resolve:(RCTPromiseResolveBlock)resolve\n" ++
          "   reject:(RCTPromiseRejectBlock)reject;") ∧
      ∃ returned own callbacks, Method.load.Declared "Store" "load" returned own callbacks := by
  have hparams : ∀ p ∈ Method.load.parameters, ∃ text, p.name = .str text := by
    simp [Method.load]
  obtain ⟨text, h⟩ := member_declared "Store" (m := .load) rfl (by decide) hparams
  obtain ⟨_, returned, own, callbacks, hparts, _⟩ := h .begun rfl _ _ rfl
  exact ⟨_, _, rfl, rfl, returned, own, callbacks, hparts⟩

end NativeHeader

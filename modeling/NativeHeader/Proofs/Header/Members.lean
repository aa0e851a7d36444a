import NativeHeader.Header.Generate
import NativeHeader.Proofs.Struct.Registered
import NativeHeader.Proofs.TypeTable

/-! What a method visits, and what it declares.

The member that a method contributes depends on the method and the name of the module
alone (`Method.member?`), and so do the visits it makes on the way (`Method.visits`).
`collect_eq_ok_iff` puts the methods of a module together: its members are collected
exactly if all visits are made, and then the context holds the structs of the module
and nothing else.

`collect_structs` says which these are: every record of every method that is
searched, once, in order, under the name of its way. -/
namespace NativeHeader

/-! ### Arguments -/

/-- The visits below a parameter that needs a name of its own. -/
def Method.nestedVisits (m : Method) (p : Parameter) : List Visit :=
  if p.type.isNested then
    let site := Site.parameter p.name m.name
    .spell m.name :: .spell p.name :: visits site site.name "" p.type
  else []

/-- The visits of a parameter. -/
def Method.parameterVisits (m : Method) (p : Parameter) : List Visit :=
  .check (.parameter p.name m.name) (TypeTable.parameters.refused? p.type) :: m.nestedVisits p

/-- The type of the argument for a parameter. -/
def Method.argumentType (module : String) (m : Method) (p : Parameter) : CType :=
  match p.type with
  | .record _ => .structRef module (Site.parameter p.name m.name).name
  | type => TypeTable.parameters.typeOf type p.nullable

/-- The arguments for parameters; `first` tells whether the list begins the declaration. -/
def Method.ownArguments (module : String) (m : Method) : (first : Bool) → List Parameter → List Argument
  | _, [] => []
  | first, p :: rest =>
    ⟨if first then "" else p.name.display, m.argumentType module p, p.name.display⟩ ::
      m.ownArguments module false rest

theorem parameterStruct_follows {module : String} {α : Type} (m : Method) (p : Parameter)
    {f : String → CollectM α} {visits : List Visit} {a : α}
    (h : Follows module (f (Site.parameter p.name m.name).name) visits a) :
    Follows module (liftM (parameterStruct m p) >>= f) (.spell m.name :: .spell p.name :: visits) a := by
  rw [Site.name_parameter] at h
  intro c hc
  unfold parameterStruct
  cases hm : m.name with
  | str first =>
    cases hp : p.name with
    | str last =>
      rw [hm, hp] at h
      exact h c hc
    | _ => rfl
  | _ => rfl

theorem collectParameter_follows (module : String) (m : Method) (p : Parameter)
    {fields : List Field} (hrecord : p.type = .record fields) :
    Follows module (collectParameter m p) (m.nestedVisits p)
      (.struct module (Site.parameter p.name m.name).name) := by
  unfold collectParameter Method.nestedVisits
  rw [hrecord]
  refine parameterStruct_follows m p ((collect_follows _ _ "" _).followed ?_)
  exact .withContext fun c hc => hc ▸ .pure _

theorem collectElements_follows (module : String) (m : Method) (p : Parameter)
    (hrecord : ∀ fields, p.type = .record fields → False) :
    Follows module (collectElements m p) (m.nestedVisits p) () := by
  unfold collectElements Method.nestedVisits
  cases htype : p.type with
  | record fields => exact (hrecord fields htype).elim
  | array => exact parameterStruct_follows m p (collect_follows _ _ "" _)
  | arrayOf element => exact parameterStruct_follows m p (collect_follows _ _ "" _)
  | _ => exact .pure ()

theorem argumentType_of_not_record (module : String) (m : Method) {p : Parameter}
    (hrecord : ∀ fields, p.type = .record fields → False) :
    m.argumentType module p = TypeTable.parameters.typeOf p.type p.nullable := by
  unfold Method.argumentType
  split
  · exact (hrecord _ ‹_›).elim
  · rfl

theorem parameterType_follows (module : String) (m : Method) (p : Parameter) :
    Follows module (parameterType m p) (m.parameterVisits p) (m.argumentType module p) := by
  unfold parameterType Method.parameterVisits
  split
  case h_1 fields hrecord =>
    rw [Method.argumentType, hrecord]
    exact .pass _ ((collectParameter_follows module m p hrecord).followed (.pure _))
  case h_2 hrecord =>
    rw [refused?_of_not_record hrecord, argumentType_of_not_record module m hrecord]
    cases hrow : TypeTable.parameters p.type with
    | none =>
      rw [find_of_no_row hrow]
      exact .stop _ _
    | some choice =>
      rw [find_of_row hrow]
      exact .pass _ ((collectElements_follows module m p hrecord).followed (.pure _))

theorem parameterArguments_follows (module : String) (m : Method) (first : Bool)
    (params : List Parameter) :
    Follows module (parameterArguments m first params) (params.flatMap m.parameterVisits)
      (m.ownArguments module first params) := by
  induction params generalizing first with
  | nil => exact .pure []
  | cons p rest ih =>
    rw [parameterArguments, List.flatMap_cons, Method.ownArguments]
    refine (parameterType_follows module m p).bind ?_
    exact (ih false).followed (.pure _)

/-! ### Members -/

/-- The visits of what a method returns. -/
def Method.returnedVisits (m : Method) : List Visit :=
  .check (.returned m.name) (TypeTable.returned.refused? m.returned.type) ::
    match m.returned.type with
    | .record fields =>
      let site := Site.returned m.name
      .spell m.name :: visits site site.name "" (.record fields)
    | _ => []

/-- The type that a method is declared to return. -/
def Method.returnedCType (module : String) (m : Method) : CType :=
  match m.returned.type with
  | .record _ => .struct module (Site.returned m.name).name
  | type => TypeTable.returned.typeOf type m.returned.nullable

section
variable {m : Method} (hrecord : ∀ fields, m.returned.type = .record fields → False)
include hrecord

theorem returnedVisits_of_not_record :
    m.returnedVisits =
      [.check (.returned m.name)
        (if (TypeTable.returned m.returned.type).isSome then none else some m.returned.type.label)] := by
  unfold Method.returnedVisits
  split
  · exact (hrecord _ ‹_›).elim
  · rw [refused?_of_not_record hrecord]

theorem returnedCType_of_not_record (module : String) :
    m.returnedCType module = TypeTable.returned.typeOf m.returned.type m.returned.nullable := by
  unfold Method.returnedCType
  split
  · exact (hrecord _ ‹_›).elim
  · rfl

end

theorem collectReturned_follows (module : String) (m : Method) {fields : List Field}
    (hrecord : m.returned.type = .record fields) :
    Follows module (collectReturned m) m.returnedVisits (m.returnedCType module) := by
  rw [Method.returnedVisits, Method.returnedCType, collectReturned, hrecord]
  refine .pass _ (.spell m.name ?_)
  rw [Site.name_returned]
  refine (collect_follows _ _ "" _).followed ?_
  exact .withContext fun c hc => hc ▸ .pure _

theorem returnedType_follows (module : String) (m : Method) :
    Follows module (returnedType m) m.returnedVisits (m.returnedCType module) := by
  unfold returnedType
  split
  case h_1 fields hrecord => exact collectReturned_follows module m hrecord
  case h_2 hrecord =>
    rw [returnedVisits_of_not_record hrecord, returnedCType_of_not_record hrecord]
    cases hrow : TypeTable.returned m.returned.type with
    | none =>
      rw [find_of_no_row hrow]
      exact .stop _ _
    | some choice =>
      rw [find_of_row hrow]
      exact .pass _ (.pure _)

/-- The visits of the method that describes the constants: its fields are looked at,
and then the record is kept. -/
def Method.constantsVisits (module : String) (m : Method) : List Visit :=
  match m.returned.type with
  | .record [] => []
  | .record fields =>
    fields.flatMap (fun f => [.check (.constant f.name module) f.type.unsupportedInField?]) ++
      [.keep fields]
  | _ => []

/-- The accessors of the constants; without fields there is nothing to access. -/
def Method.constantsMember? (module : String) (m : Method) : Option Member :=
  match m.returned.type with
  | .record [] => none
  | _ => some (.constantsAccessors module)

theorem checkConstants_follows (module owner : String) (fields : List Field) :
    Follows module (checkConstants owner fields)
      (fields.flatMap fun f => [.check (.constant f.name owner) f.type.unsupportedInField?]) () := by
  refine Follows.forM fields fun f _ => ?_
  cases f.type.unsupportedInField? with
  | none => exact .pass _ (.pure ())
  | some found => exact .stop _ found

theorem constantsMember_follows (module : String) (m : Method) :
    Follows module (constantsMember m) (m.constantsVisits module) (m.constantsMember? module) := by
  unfold constantsMember Method.constantsVisits Method.constantsMember?
  refine .withContext fun c hc => ?_
  rw [hc]
  cases m.returned.type with
  | record fields =>
    cases fields with
    | nil => exact .pure none
    | cons f rest =>
      exact (checkConstants_follows module module (f :: rest)).bind
        ((Follows.keep (f :: rest)).followed (.pure _))
  | _ => exact .pure _

/-- All visits of a method. -/
def Method.visits (module : String) (m : Method) : List Visit :=
  if m.describesConstants then m.constantsVisits module
  else m.parameters.flatMap m.parameterVisits ++ m.returnedVisits

/-- The arguments of the declaration of a method. -/
def Method.allArguments (module : String) (m : Method) : List Argument :=
  m.ownArguments module true m.parameters ++
    if m.returnsPromise then promiseArguments m.parameters.isEmpty else []

theorem arguments_follows (module : String) (m : Method) :
    Follows module (arguments m) (m.parameters.flatMap m.parameterVisits) (m.allArguments module) :=
  (parameterArguments_follows module m true m.parameters).followed (.pure _)

/-- The variables of the arguments for parameters are the names of these. -/
theorem names_ownArguments (module : String) (m : Method) (first : Bool) (params : List Parameter) :
    (m.ownArguments module first params).map (·.name) = params.map (·.name.display) := by
  induction params generalizing first with
  | nil => rfl
  | cons p rest ih => rw [Method.ownArguments, List.map_cons, ih, List.map_cons]

/-- The first argument has no label. -/
theorem label_head (module : String) (m : Method) :
    ∀ a ∈ (m.allArguments module).head?, a.label = "" := by
  unfold Method.allArguments
  cases m.parameters <;> cases m.returnsPromise <;> simp [Method.ownArguments, promiseArguments]

/-- Arguments that do not begin the declaration are labelled with their variables. -/
theorem label_later (module : String) (m : Method) (params : List Parameter) :
    ∀ a ∈ m.ownArguments module false params, a.label = a.name := by
  induction params with
  | nil => exact List.forall_mem_nil _
  | cons p rest ih => exact List.forall_mem_cons.mpr ⟨rfl, ih⟩

theorem label_tail (module : String) (m : Method) :
    ∀ a ∈ (m.allArguments module).tail, a.label = a.name := by
  have hcallbacks : ∀ a ∈ promiseArguments false, a.label = a.name := by decide
  unfold Method.allArguments
  cases m.parameters with
  | nil => cases m.returnsPromise <;> simp [Method.ownArguments, promiseArguments]
  | cons p rest =>
    have hrest := label_later module m rest
    cases m.returnsPromise with
    | false =>
      rw [if_neg Bool.false_ne_true, List.append_nil]
      exact hrest
    | true => exact List.forall_mem_append.mpr ⟨hrest, hcallbacks⟩

/-- What a method contributes to the protocol of a module, if anything. -/
def Method.member? (module : String) (m : Method) : Option Member :=
  if m.describesConstants then m.constantsMember? module
  else some (.declaration ⟨m.returnedCType module, m.name.display, m.allArguments module⟩)

/-- **A method makes its visits and gives its member.** -/
theorem member_follows (module : String) (m : Method) :
    Follows module (member m) (m.visits module) (m.member? module) := by
  unfold member Method.visits Method.member?
  cases m.describesConstants
  · exact (arguments_follows module m).bind ((returnedType_follows module m).followed (.pure _))
  · exact constantsMember_follows module m

/-! ### A module -/

/-- All visits of a module. -/
def Module.visits (m : Module) : List Visit := m.methods.flatMap (·.visits m.name)

/-- The members of the protocol of a module. -/
def Module.members (m : Module) : List Member := m.methods.filterMap (·.member? m.name)

/-- The context in which a module is worked on, before any method. -/
def Module.start (m : Module) : Context := { moduleName := m.name }

theorem methods_follow (m : Module) :
    Follows m.name (m.methods.mapM member) m.visits (m.methods.map (·.member? m.name)) :=
  .mapM m.methods fun method _ => member_follows m.name method

theorem collect_eq (m : Module) :
    m.collect =
      match follow m.start m.visits with
      | (.ok _, context) => .ok (m.members, context)
      | (.error fault, _) => .error fault := by
  have h : Follows m.name (NativeHeader.members m.methods) m.visits
      ((m.methods.map (·.member? m.name)).filterMap id) := (methods_follow m).followed (.pure _)
  have hmembers : (m.methods.map (·.member? m.name)).filterMap id = m.members := by
    rw [List.filterMap_map]
    rfl
  unfold Module.collect
  rw [show ({ moduleName := m.name } : Context) = m.start from rfl, h m.start rfl, hmembers]
  rcases follow m.start m.visits with ⟨_ | _, context⟩ <;> rfl

/-- The structs that the methods register are the structs of the module. -/
theorem registered_module (m : Module) : registered m.visits = m.structs := by
  unfold Module.visits Module.structs
  rw [registered_flatMap]
  apply List.flatMap_congr
  intro method _
  unfold Method.visits Method.structs Method.sites
  split
  · unfold Method.constantsVisits
    split
    · rfl
    · rw [registered_append, registered_flatMap]
      simp
    · rfl
  · rw [registered_append, registered_flatMap, List.flatMap_append, List.flatMap_map]
    congr 1
    · apply List.flatMap_congr
      intro p _
      show _ = (Site.parameter p.name method.name).structs p.type
      rw [Method.parameterVisits, registered_check, Method.nestedVisits]
      cases hn : p.type.isNested
      · rw [Site.structs, records_of_not_nested hn]
        rfl
      · rw [if_pos rfl, registered_spell, registered_spell, registered_site]
    · rw [Method.returnedVisits, registered_check]
      cases method.returned.type with
      | record fields =>
        rw [registered_spell, registered_site]
        simp
      | _ => rfl

/-- A module is collected exactly if all its visits are made, and then the context has
its structs. -/
theorem collect_eq_ok_iff {m : Module} {members : List Member} {context : Context} :
    m.collect = .ok (members, context) ↔
      (∀ v ∈ m.visits, v.obstacle? = none) ∧ (m.structs.map (·.name)).Nodup ∧
        members = m.members ∧ context = m.start.extended m.visits := by
  have hiff : follow m.start m.visits = (.ok (), context) ↔
      (∀ v ∈ m.visits, v.obstacle? = none) ∧ (m.structs.map (·.name)).Nodup ∧
        context = m.start.extended m.visits := by
    have hstart : m.start.structs.names.Nodup := List.nodup_nil
    rw [follow_eq_ok_iff hstart, registered_module]
    rfl
  have hcollect : m.collect = .ok (members, context) ↔
      follow m.start m.visits = (.ok (), context) ∧ members = m.members := by
    rw [collect_eq]
    rcases follow m.start m.visits with ⟨_ | _, after⟩
    · simp
    · simp [eq_comm, and_comm]
  rw [hcollect, hiff]
  constructor
  · rintro ⟨⟨hclear, hnames, hcontext⟩, hmembers⟩
    exact ⟨hclear, hnames, hmembers, hcontext⟩
  · rintro ⟨hclear, hnames, hmembers, hcontext⟩
    exact ⟨⟨hclear, hnames, hcontext⟩, hmembers⟩

/-- A module with a protocol has been collected. -/
theorem collect_of_protocol {m : Module} {text : String} (h : m.protocol = .ok text) :
    ∃ members context, m.collect = .ok (members, context) := by
  unfold Module.protocol at h
  rcases hcollect : m.collect with fault | ⟨members, context⟩
  · rw [hcollect] at h
    cases h
  · exact ⟨members, context, rfl⟩

/-- What the methods of a module that was collected give, one by one. -/
theorem outcomes_of_collect {m : Module} {members : List Member} {context : Context}
    (h : m.collect = .ok (members, context)) :
    (m.methods.mapM member).run.run m.start =
      (.ok (m.methods.map (·.member? m.name)), context) := by
  have hrun := methods_follow m m.start rfl
  rw [collect_eq] at h
  rcases hfollow : follow m.start m.visits with ⟨_ | _, after⟩
  · rw [hfollow] at h
    cases h
  · rw [hfollow] at h hrun
    cases h
    exact hrun

/-- What a module is collected into: its structs, by names that differ. -/
theorem structs_of_collect {m : Module} {members : List Member} {context : Context}
    (h : m.collect = .ok (members, context)) :
    context.structs.toList = m.structs ∧ context.structs.names.Nodup := by
  obtain ⟨_, hnames, _, rfl⟩ := collect_eq_ok_iff.1 h
  have hstructs : (m.start.extended m.visits).structs.toList = m.structs := registered_module m
  rw [Collection.names, hstructs]
  exact ⟨rfl, hnames⟩

/-- **Every record of the methods that are searched is found once, in order, under the
name of its way.** The list `Module.structs` has the records that steps lead to from a
site, and no others. -/
theorem collect_structs {m : Module} {members : List Member} {context : Context}
    (h : m.collect = .ok (members, context)) :
    context.structs.toList = m.structs ∧ context.structs.names.Nodup ∧
      ∀ s, s ∈ context.structs.toList ↔
        ∃ method ∈ m.methods, ∃ site type, (site, type) ∈ method.sites ∧
          ∃ steps, type.Leads steps s.fields ∧ s.name = .str (Way.name ⟨site, steps⟩) := by
  obtain ⟨hstructs, hnames⟩ := structs_of_collect h
  refine ⟨hstructs, hnames, fun s => ?_⟩
  rw [hstructs, mem_structs]
  constructor
  · rintro ⟨method, hmethod, site, type, hsite, b, hb, rfl⟩
    exact ⟨method, hmethod, site, type, hsite, b.steps, mem_records.mp hb, rfl⟩
  · rintro ⟨method, hmethod, site, type, hsite, steps, hsteps, hname⟩
    refine ⟨method, hmethod, site, type, hsite, ⟨steps, s.fields⟩, mem_records.mpr hsteps, ?_⟩
    show (⟨.str (Way.name ⟨site, steps⟩), s.fields⟩ : Struct) = s
    rw [← hname]

theorem collect_structs_store : ∃ members context,
    Module.store.collect = .ok (members, context) ∧
      context.structs.toList = Module.store.structs :=
  ⟨_, _, rfl, (collect_structs rfl).1⟩

end NativeHeader

import NativeHeader.Proofs.Header.Obstacles
import NativeHeader.Session

/-! What the steps of a session keep.

A step leaves the context as its visits do (`outcome_context`), all of them or those
before the first that fails. So the collection only grows, at its end, and never by a name
that it has, whether the step succeeds or not. The constants are set by a step that
describes them, and only if it succeeds.

`outcome_keeps` says this of one step and `run_keeps` of every step of every session. -/
namespace NativeHeader

/-! ### Visits made from any context -/

/-- The names of the structs are texts, and they differ. -/
structure Context.Coherent (c : Context) : Prop where
  spelled : ∀ s ∈ c.structs.toList, ∃ text, s.name = .str text
  distinct : c.structs.names.Nodup

/-- What is left behind is left by the visits that were made, up to the first that fails. -/
theorem follow_made (c : Context) (visits : List Visit) :
    ∃ made, made <+: visits ∧ follow c made = (.ok (), (follow c visits).2) := by
  induction visits generalizing c with
  | nil => exact ⟨[], List.prefix_rfl, rfl⟩
  | cons v rest ih =>
    simp only [follow]
    cases hv : v.step c with
    | error fault => exact ⟨[], List.nil_prefix, rfl⟩
    | ok after =>
      obtain ⟨made, hmade, hfollow⟩ := ih after
      refine ⟨v :: made, List.prefix_cons_inj v |>.mpr hmade, ?_⟩
      simp only [follow, hv]
      exact hfollow

theorem registered_spelled (visits : List Visit) :
    ∀ s ∈ registered visits, ∃ text, s.name = .str text := by
  intro s hs
  obtain ⟨v, _, hv⟩ := List.mem_filterMap.mp hs
  cases v <;> cases hv
  exact ⟨_, rfl⟩

/-- **Visits add structs at the end, under new names, even if one of them fails.** -/
theorem follow_grows {c : Context} (hc : c.Coherent) (visits : List Visit) :
    (follow c visits).2.Coherent ∧
      ∃ new, (follow c visits).2.structs.toList = c.structs.toList ++ new := by
  obtain ⟨made, _, hfollow⟩ := follow_made c visits
  obtain ⟨_, hnames, hafter⟩ := (follow_eq_ok_iff hc.distinct).mp hfollow
  rw [hafter]
  refine ⟨⟨fun s hs => ?_, ?_⟩, registered made, rfl⟩
  · rcases List.mem_append.mp hs with hs | hs
    · exact hc.spelled s hs
    · exact registered_spelled made s hs
  · rw [Collection.names, Context.extended, List.map_append]
    exact hnames

/-- Visits that keep no record leave the constants as they are. -/
theorem follow_constants {c : Context} {visits : List Visit} (h : ∀ v ∈ visits, v.kept? = none) :
    (follow c visits).2.constants? = c.constants? := by
  induction visits generalizing c with
  | nil => rfl
  | cons v rest ih =>
    rw [List.forall_mem_cons] at h
    simp only [follow]
    cases hv : v.step c with
    | error fault => rfl
    | ok after =>
      obtain ⟨_, _, hafter⟩ := step_eq_ok_iff.mp hv
      rw [ih h.2, hafter]
      simp [Context.extended, NativeHeader.kept?, h.1]

/-! ### Records that are kept -/

theorem kept?_below {type : ValueType} {v : Visit} (h : type.Visited v) : v.kept? = none := by
  cases h <;> rfl

theorem kept?_nestedVisits (m : Method) (p : Parameter) : ∀ v ∈ m.nestedVisits p, v.kept? = none := by
  intro v hv
  unfold Method.nestedVisits at hv
  split at hv
  · rcases List.mem_cons.mp hv with rfl | hv
    · rfl
    rcases List.mem_cons.mp hv with rfl | hv
    · rfl
    exact kept?_below (ValueType.visited_of_mem hv)
  · cases hv

theorem kept?_parameterVisits (m : Method) (p : Parameter) :
    ∀ v ∈ m.parameterVisits p, v.kept? = none := by
  rw [Method.parameterVisits, List.forall_mem_cons]
  exact ⟨rfl, kept?_nestedVisits m p⟩

theorem kept?_returnedVisits (m : Method) : ∀ v ∈ m.returnedVisits, v.kept? = none := by
  intro v hv
  rw [Method.returnedVisits] at hv
  rcases List.mem_cons.mp hv with rfl | hv
  · rfl
  split at hv
  · rcases List.mem_cons.mp hv with rfl | hv
    · rfl
    exact kept?_below (ValueType.visited_of_mem hv)
  · cases hv

/-- The constants are kept exactly if all fields of their record are supported. -/
theorem follow_constantsVisits (c : Context) (module : String) {m : Method} {fields : List Field}
    (hrecord : m.returned.type = .record fields) (hfields : fields ≠ []) :
    follow c (m.constantsVisits module) = (.ok (), { c with constants? := some fields }) ∨
      ∃ fault, follow c (m.constantsVisits module) = (.error fault, c) := by
  have hvisits : m.constantsVisits module =
      fields.flatMap (fun f => [.check (.constant f.name module) f.type.unsupportedInField?]) ++
        [.keep fields] := by
    unfold Method.constantsVisits
    rw [hrecord]
    cases fields with
    | nil => exact absurd rfl hfields
    | cons f rest => rfl
  have hchecks (l : List Field) (c : Context) :
      let checks := l.flatMap fun f =>
        [Visit.check (.constant f.name module) f.type.unsupportedInField?]
      follow c checks = (.ok (), c) ∨ ∃ fault, follow c checks = (.error fault, c) := by
    induction l with
    | nil => exact Or.inl rfl
    | cons f rest ih =>
      simp only [List.flatMap_cons, List.singleton_append, follow]
      cases f.type.unsupportedInField? with
      | none => exact ih
      | some found => exact Or.inr ⟨_, rfl⟩
  rw [hvisits, follow_append]
  rcases hchecks fields c with h | ⟨fault, h⟩
  · rw [h]
    exact Or.inl rfl
  · rw [h]
    exact Or.inr ⟨fault, rfl⟩

namespace Session

/-! ### The visits of a step -/

/-- What registering the record of a parameter visits. -/
def recordVisits (m : Method) (p : Parameter) : List Visit :=
  match p.type with
  | .record _ => m.nestedVisits p
  | _ => []

/-- What registering the records in an array visits. -/
def elementVisits (m : Method) (p : Parameter) : List Visit :=
  match p.type with
  | .record _ => []
  | _ => m.nestedVisits p

/-- What registering a returned record visits. -/
def returnedRecordVisits (m : Method) : List Visit :=
  match m.returned.type with
  | .record _ => m.returnedVisits
  | _ => []

/-- What a step visits. Steps that only ask visit nothing. -/
def Step.visits (module : String) : Step → List Visit
  | .add ⟨.str name, fields⟩ => [.register name fields]
  | .member m => m.visits module
  | .arguments m => m.parameters.flatMap m.parameterVisits
  | .returned m => m.returnedVisits
  | .constants m => m.constantsVisits module
  | .parameterStruct m p => recordVisits m p
  | .parameterElements m p => elementVisits m p
  | .returnedStruct m => returnedRecordVisits m
  | _ => []

/-- A step that adds a struct adds it under a text. -/
def Step.Spelled (step : Step) : Prop := ∀ s, step = .add s → ∃ text, s.name = .str text

theorem outcome_of_follows {step : Step} {c : Context} {visits : List Visit} {a : Answer}
    (h : Follows c.moduleName (perform step) visits a) :
    outcome step c = ((follow c visits).1.map fun _ => a, (follow c visits).2) := h c rfl

/-- The visits of a step leave the context as the step does. The step may fail all the same,
but if it succeeds all visits are made. -/
structure Made (c : Context) (visits : List Visit) (result : Except Fault Answer × Context) : Prop where
  context : result.2 = (follow c visits).2
  complete : ∀ a, result.1 = .ok a → (follow c visits).1 = .ok ()

theorem made_of_follows {step : Step} {c : Context} {visits : List Visit} {a : Answer}
    (h : Follows c.moduleName (perform step) visits a) : Made c visits (outcome step c) := by
  rw [outcome_of_follows h]
  refine ⟨rfl, fun b hb => ?_⟩
  cases hfollow : (follow c visits).1 with
  | ok => rfl
  | error fault =>
    rw [hfollow] at hb
    cases hb

/-- What leaves the context alone makes no visits. -/
theorem made_nothing {c : Context} (result : Except Fault Answer × Context) (h : result.2 = c) :
    Made c [] result := ⟨h, fun _ _ => rfl⟩

/-- Only records have structs. -/
theorem collectParameter_of_not_record (m : Method) {p : Parameter}
    (h : ∀ fields, p.type = .record fields → False) (c : Context) :
    (collectParameter m p).run.run c = (.error .notRecord, c) := by
  unfold collectParameter
  split
  · exact (h _ ‹_›).elim
  · rfl

theorem collectReturned_of_not_record {m : Method}
    (h : ∀ fields, m.returned.type = .record fields → False) (c : Context) :
    (collectReturned m).run.run c = (.error .notRecord, c) := by
  unfold collectReturned
  split
  · exact (h _ ‹_›).elim
  · rfl

/-- The records in a parameter that is a record are registered with it. -/
theorem collectElements_of_record (module : String) (m : Method) {p : Parameter} {fields : List Field}
    (h : p.type = .record fields) : Follows module (collectElements m p) [] () := by
  unfold collectElements
  rw [h]
  exact .pure ()

/-- Asking for a text that may fail leaves the context alone. -/
theorem run_lift {α β : Type} (x : Except Fault α) (f : α → β) (c : Context) :
    ((liftM x >>= fun a => pure (f a) : CollectM β).run.run c).2 = c := by
  cases x <;> rfl

theorem run_get (c : Context) : (get : CollectM Context).run.run c = (.ok c, c) := rfl

theorem outcome_contains (name : Name) (c : Context) : outcome (.contains name) c =
    ((structKey name).map fun key => .flag (c.structs.contains key), c) := by
  unfold outcome perform
  dsimp only
  generalize structKey name = key
  cases key <;> rfl

/-- **A step leaves the context as its visits do.** -/
theorem outcome_made {step : Step} (hstep : step.Spelled) (c : Context) :
    Made c (step.visits c.moduleName) (outcome step c) := by
  cases step with
  | add s =>
    obtain ⟨_, fields⟩ := s
    obtain ⟨name, rfl⟩ := hstep _ rfl
    exact made_of_follows ((Follows.register name fields).followed (.pure Answer.nothing))
  | contains name =>
    rw [outcome_contains]
    exact made_nothing _ rfl
  | size => exact made_nothing _ rfl
  | text => exact made_nothing _ rfl
  | structs => exact made_nothing _ rfl
  | render =>
    refine made_nothing _ ?_
    unfold outcome perform
    -- The text is left as it is: nothing here depends on what is written.
    rw [run_bind]
    simp only [run_get]
    exact run_lift ..
  | member m => exact made_of_follows ((member_follows c.moduleName m).followed (.pure _))
  | arguments m =>
    exact made_of_follows ((arguments_follows c.moduleName m).followed (.pure _))
  | returned m => exact made_of_follows ((returnedType_follows c.moduleName m).followed (.pure _))
  | constants m => exact made_of_follows ((constantsMember_follows c.moduleName m).followed (.pure _))
  | parameterStruct m p =>
    show Made c (recordVisits m p) _
    unfold recordVisits
    split
    case h_1 fields hrecord =>
      exact made_of_follows ((collectParameter_follows c.moduleName m p hrecord).followed (.pure _))
    case h_2 hrecord =>
      refine made_nothing _ ?_
      unfold outcome perform
      rw [run_bind, collectParameter_of_not_record m hrecord]
  | parameterElements m p =>
    show Made c (elementVisits m p) _
    unfold elementVisits
    split
    case h_1 fields hrecord =>
      exact made_of_follows ((collectElements_of_record c.moduleName m hrecord).followed (.pure _))
    case h_2 hrecord =>
      exact made_of_follows ((collectElements_follows c.moduleName m p hrecord).followed (.pure _))
  | returnedStruct m =>
    show Made c (returnedRecordVisits m) _
    unfold returnedRecordVisits
    split
    case h_1 fields hrecord =>
      exact made_of_follows ((collectReturned_follows c.moduleName m hrecord).followed (.pure _))
    case h_2 hrecord =>
      refine made_nothing _ ?_
      unfold outcome perform
      rw [run_bind, collectReturned_of_not_record hrecord]

/-! ### What a step keeps -/

/-- The step describes the constants by a record with these fields, of which there are some. -/
def Step.Describes (step : Step) (fields : List Field) : Prop :=
  fields ≠ [] ∧ ∃ m : Method, m.returned.type = .record fields ∧
    (step = .constants m ∨ step = .member m ∧ m.describesConstants = true)

/-- A step that does not describe the constants keeps no record. -/
theorem kept?_visits {step : Step} (h : ∀ fields, ¬ step.Describes fields) (module : String) :
    ∀ v ∈ step.visits module, v.kept? = none := by
  have hconstants (m : Method) (hm : ∀ fields, m.returned.type = .record fields → fields = []) :
      m.constantsVisits module = [] := by
    unfold Method.constantsVisits
    split
    · rfl
    · exact absurd (hm _ ‹_›) ‹_›
    · rfl
  intro v hv
  cases step with
  | add s =>
    obtain ⟨name, fields⟩ := s
    cases name with
    | str name => rw [List.mem_singleton.mp hv]; rfl
    | _ => cases hv
  | member m =>
    change v ∈ m.visits module at hv
    unfold Method.visits at hv
    cases hm : m.describesConstants
    · rw [hm, if_neg Bool.false_ne_true] at hv
      rcases List.mem_append.mp hv with hv | hv
      · obtain ⟨p, _, hv⟩ := List.mem_flatMap.mp hv
        exact kept?_parameterVisits m p v hv
      · exact kept?_returnedVisits m v hv
    · rw [hm, if_pos rfl, hconstants m fun fields hrecord => ?_] at hv
      · cases hv
      · by_contra hfields
        exact h fields ⟨hfields, m, hrecord, Or.inr ⟨rfl, hm⟩⟩
  | arguments m =>
    obtain ⟨p, _, hv⟩ := List.mem_flatMap.mp hv
    exact kept?_parameterVisits m p v hv
  | returned m => exact kept?_returnedVisits m v hv
  | constants m =>
    change v ∈ m.constantsVisits module at hv
    rw [hconstants m fun fields hrecord => ?_] at hv
    · cases hv
    · by_contra hfields
      exact h fields ⟨hfields, m, hrecord, Or.inl rfl⟩
  | parameterStruct m p =>
    change v ∈ recordVisits m p at hv
    unfold recordVisits at hv
    split at hv
    · exact kept?_nestedVisits m p v hv
    · cases hv
  | parameterElements m p =>
    change v ∈ elementVisits m p at hv
    unfold elementVisits at hv
    split at hv
    · cases hv
    · exact kept?_nestedVisits m p v hv
  | returnedStruct m =>
    change v ∈ returnedRecordVisits m at hv
    unfold returnedRecordVisits at hv
    split at hv
    · exact kept?_returnedVisits m v hv
    · cases hv
  | _ => cases hv

/-- A step that describes the constants sets them, or it fails and changes nothing. -/
theorem outcome_describes {step : Step} {fields : List Field} (h : step.Describes fields)
    (c : Context) :
    (∃ a, outcome step c = (.ok a, { c with constants? := some fields })) ∨
      ∃ fault, outcome step c = (.error fault, c) := by
  obtain ⟨hfields, m, hrecord, hstep⟩ := h
  have hvisits : ∃ a, Follows c.moduleName (perform step) (m.constantsVisits c.moduleName) a := by
    rcases hstep with rfl | ⟨rfl, hm⟩
    · exact ⟨_, (constantsMember_follows c.moduleName m).followed (.pure _)⟩
    · have hmember : Follows c.moduleName (perform (.member m)) (m.visits c.moduleName) _ :=
        (member_follows c.moduleName m).followed (.pure _)
      rw [Method.visits, hm, if_pos rfl] at hmember
      exact ⟨_, hmember⟩
  obtain ⟨a, ha⟩ := hvisits
  rw [outcome_of_follows ha]
  rcases follow_constantsVisits c c.moduleName hrecord hfields with hfollow | ⟨fault, hfollow⟩
  · rw [hfollow]
    exact Or.inl ⟨a, rfl⟩
  · rw [hfollow]
    exact Or.inr ⟨fault, rfl⟩

/-- The step only asks. -/
def Step.asks : Step → Bool
  | .contains _ | .size | .text | .structs | .render => true
  | _ => false

/-- What holds of a step between the context before it and the one after it, whether it
succeeds or not. -/
structure Keeps (before : Context) (step : Step) (answer : Except Fault Answer) (after : Context) :
    Prop where
  module : after.moduleName = before.moduleName
  coherent : after.Coherent
  /-- No struct is lost, moved or replaced. -/
  grows : ∃ new, after.structs.toList = before.structs.toList ++ new
  asked : step.asks = true → after = before
  contains : ∀ name, step = .contains (.str name) →
    ∃ there, answer = .ok (.flag there) ∧ (there = true ↔ .str name ∈ before.structs.names)
  size : step = .size → answer = .ok (.count before.structs.toList.length)
  taken : ∀ s, step = .add s → s.name ∈ before.structs.names →
    answer = .error (.shape (.repeatedStruct s.name)) ∧ after = before
  added : ∀ s, step = .add s → s.name ∉ before.structs.names →
    answer = .ok .nothing ∧ after = { before with structs := before.structs.add s }
  described : ∀ fields a, step.Describes fields → answer = .ok a → after.constants? = some fields
  undescribed : (∀ fields a, ¬ (step.Describes fields ∧ answer = .ok a)) →
    after.constants? = before.constants?

theorem outcome_add (s : Struct) (hs : ∃ text, s.name = .str text) (c : Context) :
    (s.name ∈ c.structs.names → outcome (.add s) c = (.error (.shape (.repeatedStruct s.name)), c)) ∧
      (s.name ∉ c.structs.names →
        outcome (.add s) c = (.ok .nothing, { c with structs := c.structs.add s })) := by
  obtain ⟨_, fields⟩ := s
  obtain ⟨name, rfl⟩ := hs
  have hvisits : Follows c.moduleName (perform (.add ⟨.str name, fields⟩)) [.register name fields]
      .nothing := (Follows.register name fields).followed (.pure Answer.nothing)
  rw [outcome_of_follows hvisits, ← contains_text]
  simp only [follow, Visit.step]
  constructor
  · intro hname
    rw [if_pos hname]
    rfl
  · intro hname
    rw [if_neg hname]
    rfl

/-- **A step keeps what was found before it.** -/
theorem outcome_keeps {c : Context} (hc : c.Coherent) {step : Step} (hstep : step.Spelled) :
    Keeps c step (outcome step c).1 (outcome step c).2 := by
  have hmade := outcome_made hstep c
  have hgrows := follow_grows hc (step.visits c.moduleName)
  rw [← hmade.context] at hgrows
  refine ⟨?_, hgrows.1, hgrows.2, fun hasks => ?_, ?_, ?_, ?_, ?_, ?_, fun hno => ?_⟩
  · rw [hmade.context, follow_moduleName]
  · rw [hmade.context]
    cases step <;> first | rfl | cases hasks
  · rintro name rfl
    rw [outcome_contains]
    exact ⟨_, rfl, contains_text ..⟩
  · rintro rfl
    rfl
  · rintro s rfl hname
    rw [(outcome_add s (hstep s rfl) c).1 hname]
    exact ⟨rfl, rfl⟩
  · rintro s rfl hname
    rw [(outcome_add s (hstep s rfl) c).2 hname]
    exact ⟨rfl, rfl⟩
  · intro fields a hdescribes ha
    rcases outcome_describes hdescribes c with ⟨_, h⟩ | ⟨fault, h⟩
    · rw [h]
    · rw [h] at ha
      cases ha
  · by_cases hdescribes : ∃ fields, step.Describes fields
    · obtain ⟨fields, hdescribes⟩ := hdescribes
      rcases outcome_describes hdescribes c with ⟨a, h⟩ | ⟨fault, h⟩
      · exact absurd ⟨hdescribes, congrArg Prod.fst h⟩ (hno fields a)
      · rw [h]
    · rw [hmade.context]
      exact follow_constants (kept?_visits (fun fields h => hdescribes ⟨fields, h⟩) c.moduleName)

/-! ### Sessions -/

/-- The context after some steps. -/
def contextAfter (c : Context) : List Step → Context
  | [] => c
  | step :: rest => contextAfter (outcome step c).2 rest

theorem run_append (c : Context) (a b : List Step) :
    run c (a ++ b) = run c a ++ run (contextAfter c a) b := by
  induction a generalizing c with
  | nil => rfl
  | cons step rest ih => exact congrArg _ (ih _)

theorem contextAfter_append (c : Context) (a b : List Step) :
    contextAfter c (a ++ b) = contextAfter (contextAfter c a) b := by
  induction a generalizing c with
  | nil => rfl
  | cons step rest ih => exact ih _

theorem length_run (c : Context) (steps : List Step) : (run c steps).length = steps.length := by
  induction steps generalizing c with
  | nil => rfl
  | cons step rest ih => exact congrArg _ (ih _)

/-- What was found at the beginning of a session is there after all its steps. -/
theorem contextAfter_grows {c : Context} (hc : c.Coherent) {steps : List Step}
    (hsteps : ∀ step ∈ steps, step.Spelled) :
    (contextAfter c steps).Coherent ∧
      ∃ new, (contextAfter c steps).structs.toList = c.structs.toList ++ new := by
  induction steps generalizing c with
  | nil => exact ⟨hc, [], (List.append_nil _).symm⟩
  | cons step rest ih =>
    rw [List.forall_mem_cons] at hsteps
    have hkeeps := outcome_keeps hc hsteps.1
    obtain ⟨hcoherent, later, hlater⟩ := ih hkeeps.coherent hsteps.2
    obtain ⟨new, hnew⟩ := hkeeps.grows
    refine ⟨hcoherent, new ++ later, ?_⟩
    rw [contextAfter, hlater, hnew, List.append_assoc]

/-- **Every step of a session keeps what was found before it.** It starts in the context that
the steps before it leave, and that context has all structs of the first one, in their
places. -/
theorem run_keeps {c : Context} (hc : c.Coherent) {steps done rest : List Step} {step : Step}
    (hsteps : ∀ step ∈ steps, step.Spelled) (hsplit : steps = done ++ step :: rest) :
    ∃ answer after, (run c steps)[done.length]? = some (answer, after) ∧
      after = contextAfter c (done ++ [step]) ∧
      Keeps (contextAfter c done) step answer after ∧
      ∃ new, (contextAfter c done).structs.toList = c.structs.toList ++ new := by
  subst hsplit
  rw [List.forall_mem_append, List.forall_mem_cons] at hsteps
  obtain ⟨hcoherent, hgrows⟩ := contextAfter_grows hc hsteps.1
  refine ⟨_, _, ?_, ?_, outcome_keeps hcoherent hsteps.2.1, hgrows⟩
  · rw [run_append, List.getElem?_append_right (Nat.le_of_eq (length_run c done)), length_run, Nat.sub_self]
    rfl
  · rw [contextAfter_append]
    rfl

/-- A session on all methods of a module; then a struct is added whose name is taken. -/
theorem run_keeps_store : ∃ answer after,
    let taken : Struct := ⟨.str "SaveOptions", []⟩
    let found := contextAfter Module.store.start (Module.store.methods.map .member)
    (run Module.store.start (Module.store.methods.map .member ++ [.add taken]))[2]? =
        some (answer, after) ∧
      Keeps found (.add taken) answer after ∧
      answer = .error (.shape (.repeatedStruct (.str "SaveOptions"))) ∧
      after.constants? = some [⟨.str "limit", .number, false⟩] := by
  have hstart : Module.store.start.Coherent := ⟨nofun, List.nodup_nil⟩
  have hspelled : ∀ step ∈ Module.store.methods.map .member ++ [.add ⟨.str "SaveOptions", []⟩],
      Step.Spelled step := by
    intro step hstep s hs
    subst hs
    simp only [Module.store, List.map_cons, List.map_nil, List.cons_append, List.nil_append,
      List.mem_cons, reduceCtorEq, Step.add.injEq, false_or, List.not_mem_nil, or_false] at hstep
    exact ⟨"SaveOptions", by rw [hstep]⟩
  obtain ⟨answer, after, hrun, _, hkeeps, _⟩ := run_keeps hstart hspelled rfl
  have htaken : .str "SaveOptions" ∈
      (contextAfter Module.store.start (Module.store.methods.map .member)).structs.names :=
    List.mem_of_getElem? (i := 0) rfl
  obtain ⟨hanswer, hafter⟩ := hkeeps.taken _ rfl htaken
  refine ⟨answer, after, hrun, hkeeps, hanswer, ?_⟩
  rw [hafter]
  rfl

end Session

end NativeHeader

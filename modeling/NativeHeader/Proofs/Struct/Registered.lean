import Mathlib.Data.List.Basic
import NativeHeader.Proofs.Struct.Visits

/-! What visits leave in the collection.

Visits that are all made add the structs they register, in order, and nothing else
(`follow_eq_ok_iff`). The structs registered below a site are its records, each under
the name of its way (`registered_site`): the name made on the way down is the one that
the way spells. Nothing stops the visits of a site exactly if structs can hold all fields
of its records (`visits_clear_iff`). -/
namespace NativeHeader

/-- The structs that visits register. -/
def registered (visits : List Visit) : List Struct := visits.filterMap Visit.struct?

/-- The record that visits keep for the constants: the last one. -/
def kept? (visits : List Visit) : Option (List Field) := (visits.filterMap Visit.kept?).getLast?

/-- The context after visits that are all made. -/
def Context.extended (c : Context) (visits : List Visit) : Context where
  moduleName := c.moduleName
  structs := ⟨c.structs.toList ++ registered visits⟩
  constants? := (kept? visits).or c.constants?

section
variable (name : String) (fields : List Field) (rest : List Visit)

@[simp] theorem registered_nil : registered [] = [] := rfl

@[simp] theorem registered_register :
    registered (.register name fields :: rest) = ⟨.str name, fields⟩ :: registered rest := rfl

@[simp] theorem registered_check (place : Place) (found? : Option String) :
    registered (.check place found? :: rest) = registered rest := rfl

@[simp] theorem registered_spell (name : Name) :
    registered (.spell name :: rest) = registered rest := rfl

@[simp] theorem registered_keep : registered (.keep fields :: rest) = registered rest := rfl

end

@[simp] theorem registered_append (a b : List Visit) :
    registered (a ++ b) = registered a ++ registered b := List.filterMap_append ..

theorem registered_flatMap {ι : Type} (l : List ι) (visits : ι → List Visit) :
    registered (l.flatMap visits) = l.flatMap fun i => registered (visits i) := by
  induction l with
  | nil => rfl
  | cons i rest ih => rw [List.flatMap_cons, registered_append, ih, List.flatMap_cons]

/-! ### Names that are taken -/

theorem key?_eq_text {name : Name} {s : String} : name.key? = some (.text s) ↔ name = .str s := by
  cases name with
  | float value =>
    simp only [Json.key?, Json.Key.ofFloat]
    repeat' split
    all_goals simp
  | _ => simp [Json.key?]

theorem contains_text (c : Collection) (s : String) :
    c.contains (.text s) = true ↔ .str s ∈ c.names := by
  simp only [Collection.contains, Collection.names, List.any_eq_true, decide_eq_true_eq,
    key?_eq_text, List.mem_map]

/-! ### One visit and all visits -/

theorem extended_nil (c : Context) : c.extended [] = c := by
  simp [Context.extended, kept?]

theorem extended_cons (c : Context) (v : Visit) (rest : List Visit) :
    c.extended (v :: rest) = (c.extended [v]).extended rest := by
  have hkept : (kept? (v :: rest)).or c.constants? = (kept? rest).or ((kept? [v]).or c.constants?) := by
    cases v with
    | keep fields =>
      rw [show kept? (.keep fields :: rest) = (fields :: rest.filterMap Visit.kept?).getLast? from rfl,
        List.getLast?_cons]
      show _ = (rest.filterMap Visit.kept?).getLast?.or (some fields)
      cases (rest.filterMap Visit.kept?).getLast? <;> rfl
    | _ => rfl
  cases v <;> simp [Context.extended, hkept]

/-- A visit is made if nothing stops it and its name is new. -/
theorem step_eq_ok_iff {c after : Context} {v : Visit} :
    v.step c = .ok after ↔
      v.obstacle? = none ∧ (∀ s ∈ registered [v], s.name ∉ c.structs.names) ∧
        after = c.extended [v] := by
  cases v with
  | register name fields =>
    have hnew : (∀ s ∈ registered [.register name fields], s.name ∉ c.structs.names) ↔
        ¬ c.structs.contains (.text name) = true := by
      simp [contains_text]
    rw [hnew]
    simp only [Visit.step, Visit.obstacle?, true_and]
    split
    · simp [*]
    · simp [*, Context.extended, kept?, Visit.kept?, Collection.add, eq_comm]
  | check place found? =>
    rw [show c.extended [.check place found?] = c from extended_nil c]
    cases found? <;> simp [Visit.step, Visit.obstacle?, eq_comm]
  | spell name =>
    rw [show c.extended [.spell name] = c from extended_nil c]
    cases h : Name.text name <;> simp [Visit.step, Visit.obstacle?, h, eq_comm]
  | keep fields =>
    simp [Visit.step, Visit.obstacle?, Context.extended, kept?, Visit.kept?, eq_comm]

/-- A visit fails by its obstacle, or because its name is taken. -/
theorem step_eq_error {c : Context} {v : Visit} {fault : Fault} (h : v.step c = .error fault) :
    v.obstacle? = some fault ∨ ∃ name, fault = .shape (.repeatedStruct name) := by
  cases v with
  | register name fields =>
    simp only [Visit.step] at h
    split at h <;> cases h
    exact Or.inr ⟨_, rfl⟩
  | check place found? =>
    cases found? <;> cases h
    exact Or.inl rfl
  | spell name =>
    simp only [Visit.step] at h
    split at h <;> cases h
    rename_i htext
    exact Or.inl (by simp only [Visit.obstacle?, htext])
  | keep fields => cases h

/-- No visit that was made met an obstacle. -/
theorem clear_of_follow {c after : Context} {visits : List Visit}
    (h : follow c visits = (.ok (), after)) : ∀ v ∈ visits, v.obstacle? = none := by
  induction visits generalizing c with
  | nil => exact List.forall_mem_nil _
  | cons v rest ih =>
    simp only [follow] at h
    cases hstep : v.step c with
    | error fault =>
      rw [hstep] at h
      cases h
    | ok next =>
      rw [hstep] at h
      exact List.forall_mem_cons.mpr ⟨(step_eq_ok_iff.1 hstep).1, ih h⟩

/-- Visits that are all made leave what they register, whatever was there before. -/
theorem extended_of_follow {c after : Context} {visits : List Visit}
    (h : follow c visits = (.ok (), after)) : after = c.extended visits := by
  induction visits generalizing c with
  | nil =>
    rw [extended_nil]
    cases h
    rfl
  | cons v rest ih =>
    simp only [follow] at h
    cases hstep : v.step c with
    | error fault =>
      rw [hstep] at h
      cases h
    | ok next =>
      rw [hstep] at h
      obtain ⟨_, _, rfl⟩ := step_eq_ok_iff.1 hstep
      rw [ih h, extended_cons c v rest]

/-- **All visits are made exactly if none meets an obstacle and the names to be
registered are new and differ**, and then they add what they register. -/
theorem follow_eq_ok_iff {c after : Context} {visits : List Visit} (hc : c.structs.names.Nodup) :
    follow c visits = (.ok (), after) ↔
      (∀ v ∈ visits, v.obstacle? = none) ∧
        (c.structs.names ++ (registered visits).map (·.name)).Nodup ∧ after = c.extended visits := by
  induction visits generalizing c with
  | nil =>
    rw [follow, extended_nil]
    simp [registered, hc, eq_comm]
  | cons v rest ih =>
    have hnames : c.structs.names ++ (registered (v :: rest)).map (·.name) =
        (c.extended [v]).structs.names ++ (registered rest).map (·.name) := by
      rw [show v :: rest = [v] ++ rest from rfl, registered_append]
      simp [Context.extended, Collection.names]
    have hone : (c.extended [v]).structs.names = c.structs.names ++ (registered [v]).map (·.name) := by
      simp [Context.extended, Collection.names]
    rw [List.forall_mem_cons, hnames, extended_cons c v rest]
    simp only [follow]
    constructor
    · intro h
      cases hv : v.step c with
      | error fault =>
        rw [hv] at h
        cases h
      | ok next =>
        obtain ⟨hclear, hnew, rfl⟩ := step_eq_ok_iff.1 hv
        rw [hv] at h
        have hnodup : (c.extended [v]).structs.names.Nodup := by
          rw [hone, List.nodup_append]
          refine ⟨hc, ?_, ?_⟩
          · cases v <;> simp
          · rintro n hn _ hmem rfl
            obtain ⟨s, hs, rfl⟩ := List.mem_map.mp hmem
            exact hnew s hs hn
        obtain ⟨hrest, hall, hafter⟩ := (ih hnodup).mp h
        exact ⟨⟨hclear, hrest⟩, hall, hafter⟩
    · rintro ⟨⟨hclear, hrest⟩, hall, hafter⟩
      have hnodup : (c.extended [v]).structs.names.Nodup := (List.nodup_append.mp hall).1
      have hnew : ∀ s ∈ registered [v], s.name ∉ c.structs.names := by
        rw [hone, List.nodup_append] at hnodup
        exact fun s hs hn => hnodup.2.2 _ hn _ (List.mem_map.mpr ⟨s, hs, rfl⟩) rfl
      rw [step_eq_ok_iff.2 ⟨hclear, hnew, rfl⟩]
      exact (ih hnodup).mpr ⟨hrest, hall, hafter⟩

/-- What visits fail by. -/
theorem follow_eq_error {c after : Context} {visits : List Visit} {fault : Fault}
    (h : follow c visits = (.error fault, after)) :
    (∃ v ∈ visits, v.obstacle? = some fault) ∨ ∃ name, fault = .shape (.repeatedStruct name) := by
  induction visits generalizing c with
  | nil => cases h
  | cons v rest ih =>
    simp only [follow] at h
    cases hv : v.step c with
    | ok next =>
      rw [hv] at h
      rcases ih h with ⟨w, hw, hfault⟩ | hname
      · exact Or.inl ⟨w, List.mem_cons_of_mem v hw, hfault⟩
      · exact Or.inr hname
    | error first =>
      rw [hv] at h
      cases h
      rcases step_eq_error hv with hfault | hname
      · exact Or.inl ⟨v, List.mem_cons_self .., hfault⟩
      · exact Or.inr hname

/-! ### The records below a site -/

/-- The search makes the names of its records level by level, from whatever name it begins with. -/
theorem registered_descend (site : Site) (name path : String) (type : ValueType) :
    registered (visits site name path type) =
      type.records.map fun b => ⟨.str (descend name b.steps), b.fields⟩ := by
  induction type using ValueType.nestingInduction generalizing name path with
  | record fields ih =>
    rw [visits, visitsOfFields_eq, registered_register, registered_flatMap, records_record,
      List.map_cons, List.map_flatMap]
    congr 1
    apply List.flatMap_congr
    rintro ⟨fieldName, type, nullable⟩ hf
    rw [recordsOfField_eq, visitsOfField, registered_check, List.map_map]
    cases hn : type.isNested
    · rw [records_of_not_nested hn]
      rfl
    · rw [if_pos rfl, registered_spell, ih _ hf]
      rfl
  | arrayOf element ih =>
    rw [visits, ih, ValueType.records, List.map_map]
    rfl
  | other type hrecord harray =>
    rw [visits.eq_3 _ _ _ _ hrecord harray, ValueType.records.eq_3 _ hrecord harray]
    rfl

/-- **A site registers its records, each under the name of its way.** -/
theorem registered_site (site : Site) (path : String) (type : ValueType) :
    registered (visits site site.name path type) = site.structs type := by
  rw [registered_descend]
  apply List.map_congr_left
  intro b _
  rw [Below.struct, descend_site]

/-! ### Fields that a struct can hold -/

/-- A field that a struct can hold. If it needs a struct of its own, it has a name for it. -/
structure Field.Held (f : Field) : Prop where
  supported : f.type.unsupportedInField? = none
  named : f.type.isNested = true → ∃ text, f.name = .str text

theorem obstacle?_spell {name : Name} :
    (Visit.spell name).obstacle? = none ↔ ∃ text, name = .str text := by
  cases name <;> simp [Visit.obstacle?, Name.text]

/-- No visit below a value meets an obstacle exactly if structs can hold all fields of
its records. -/
theorem visits_clear_iff {site : Site} {name path : String} {type : ValueType} :
    (∀ v ∈ visits site name path type, v.obstacle? = none) ↔
      ∀ b ∈ type.records, ∀ f ∈ b.fields, f.Held := by
  induction type using ValueType.nestingInduction generalizing name path with
  | record fields ih =>
    have hfield : ∀ f ∈ fields, (∀ v ∈ visitsOfField site name path f, v.obstacle? = none) ↔
        f.Held ∧ ∀ b ∈ recordsOfField f, ∀ g ∈ b.fields, g.Held := by
      rintro ⟨fieldName, type, nullable⟩ hf
      have hcheck : (Visit.check (site.field (fieldPath path fieldName))
          type.unsupportedInField?).obstacle? = none ↔ type.unsupportedInField? = none := by
        simp [Visit.obstacle?]
      rw [visitsOfField, List.forall_mem_cons, hcheck, recordsOfField_eq]
      cases hn : type.isNested
      · rw [records_of_not_nested hn]
        constructor
        · intro h
          exact ⟨⟨h.1, fun h => by rw [hn] at h; cases h⟩, List.forall_mem_nil _⟩
        · intro h
          exact ⟨h.1.supported, List.forall_mem_nil _⟩
      · rw [if_pos rfl, List.forall_mem_cons, obstacle?_spell, ih _ hf, List.forall_mem_map]
        constructor
        · intro h
          exact ⟨⟨h.1, fun _ => h.2.1⟩, h.2.2⟩
        · intro h
          exact ⟨h.1.supported, h.1.named hn, h.2⟩
    rw [visits, visitsOfFields_eq, records_record, List.forall_mem_cons, List.forall_mem_cons]
    constructor
    · rintro ⟨_, h⟩
      have hall : ∀ f ∈ fields, f.Held ∧ ∀ b ∈ recordsOfField f, ∀ g ∈ b.fields, g.Held :=
        fun f hf => (hfield f hf).mp fun v hv => h v (List.mem_flatMap.mpr ⟨f, hf, hv⟩)
      refine ⟨fun f hf => (hall f hf).1, fun b hb => ?_⟩
      obtain ⟨f, hf, hb⟩ := List.mem_flatMap.mp hb
      exact (hall f hf).2 b hb
    · rintro ⟨hown, h⟩
      refine ⟨rfl, fun v hv => ?_⟩
      obtain ⟨f, hf, hv⟩ := List.mem_flatMap.mp hv
      exact (hfield f hf).mpr
        ⟨hown f hf, fun b hb => h b (List.mem_flatMap.mpr ⟨f, hf, hb⟩)⟩ v hv
  | arrayOf element ih =>
    rw [visits, ih, ValueType.records, List.forall_mem_map]
    rfl
  | other type hrecord harray =>
    rw [visits.eq_3 _ _ _ _ hrecord harray, ValueType.records.eq_3 _ hrecord harray]
    simp

end NativeHeader

import NativeHeader.Proofs.Header.Members

/-! What stops a method.

The visits of a method meet no obstacle exactly if its parameters and what it returns
have types of their own (`Method.Takes`, `Method.Returns`), and those of the method that
describes the constants exactly if a struct can hold them (`Method.Provides`). In a
module without obstacles structs can hold all fields of its records (`held_of_clear`),
and the constants that are kept (`supported_of_kept`). -/
namespace NativeHeader

/-! ### Parameters and returned values -/

/-- The type can stand in a position with this table: it is a record or has a row. -/
def TypeTable.Knows (table : TypeTable) (type : ValueType) : Prop :=
  (∃ fields, type = .record fields) ∨ (table type).isSome = true

/-- A parameter that a method can have. -/
structure Method.Takes (m : Method) (p : Parameter) : Prop where
  known : TypeTable.parameters.Knows p.type
  named : p.type.isNested = true → (∃ text, m.name = .str text) ∧ ∃ text, p.name = .str text
  held : ∀ b ∈ p.type.records, ∀ f ∈ b.fields, f.Held

/-- What a method returns can be returned. -/
structure Method.Returns (m : Method) : Prop where
  known : TypeTable.returned.Knows m.returned.type
  named : (∃ fields, m.returned.type = .record fields) → ∃ text, m.name = .str text
  held : ∀ fields, m.returned.type = .record fields →
    ∀ b ∈ m.returned.type.records, ∀ f ∈ b.fields, f.Held

/-- The constants that a method describes can be held by a struct. -/
def Method.Provides (m : Method) : Prop :=
  ∀ fields, m.returned.type = .record fields → ∀ f ∈ fields, f.type.unsupportedInField? = none

theorem obstacle?_check {place : Place} {table : TypeTable} {type : ValueType} :
    (Visit.check place (table.refused? type)).obstacle? = none ↔ table.Knows type := by
  rw [TypeTable.Knows, ← refused?_eq_none_iff]
  simp [Visit.obstacle?]

theorem parameterVisits_clear_iff {m : Method} {p : Parameter} :
    (∀ v ∈ m.parameterVisits p, v.obstacle? = none) ↔ m.Takes p := by
  rw [Method.parameterVisits, List.forall_mem_cons, obstacle?_check, Method.nestedVisits]
  cases hn : p.type.isNested
  · constructor
    · rintro ⟨hknown, _⟩
      refine ⟨hknown, fun h => ?_, fun b hb => ?_⟩
      · rw [hn] at h
        cases h
      · rw [records_of_not_nested hn] at hb
        cases hb
    · intro h
      exact ⟨h.known, List.forall_mem_nil _⟩
  · rw [if_pos rfl, List.forall_mem_cons, List.forall_mem_cons, obstacle?_spell, obstacle?_spell,
      visits_clear_iff]
    constructor
    · rintro ⟨hknown, hmethod, hparam, hheld⟩
      exact ⟨hknown, fun _ => ⟨hmethod, hparam⟩, hheld⟩
    · intro h
      exact ⟨h.known, (h.named hn).1, (h.named hn).2, h.held⟩

theorem returnedVisits_clear_iff {m : Method} :
    (∀ v ∈ m.returnedVisits, v.obstacle? = none) ↔ m.Returns := by
  rw [Method.returnedVisits, List.forall_mem_cons, obstacle?_check]
  split
  case h_1 fields hrecord =>
    rw [List.forall_mem_cons, obstacle?_spell, visits_clear_iff, ← hrecord]
    constructor
    · rintro ⟨hknown, hname, hheld⟩
      exact ⟨hknown, fun _ => hname, fun _ _ => hheld⟩
    · intro h
      exact ⟨h.known, h.named ⟨fields, hrecord⟩, h.held fields hrecord⟩
  case h_2 hrecord =>
    constructor
    · rintro ⟨hknown, _⟩
      refine ⟨hknown, ?_, fun fields h => (hrecord fields h).elim⟩
      rintro ⟨fields, h⟩
      exact (hrecord fields h).elim
    · intro h
      exact ⟨h.known, List.forall_mem_nil _⟩

theorem constantsVisits_clear_iff {module : String} {m : Method} :
    (∀ v ∈ m.constantsVisits module, v.obstacle? = none) ↔ m.Provides := by
  unfold Method.constantsVisits Method.Provides
  split
  case h_1 hrecord =>
    rw [hrecord]
    constructor
    · rintro _ fields ⟨⟩ f hf
      cases hf
    · intro _
      exact List.forall_mem_nil _
  case h_2 fields _ hrecord =>
    rw [hrecord, List.forall_mem_append]
    constructor
    · rintro ⟨h, _⟩ fields ⟨⟩ f hf
      simpa [Visit.obstacle?] using
        h (.check (.constant f.name module) f.type.unsupportedInField?)
          (List.mem_flatMap.mpr ⟨f, hf, List.mem_singleton.mpr rfl⟩)
    · intro h
      refine ⟨fun v hv => ?_, fun v hv => ?_⟩
      · obtain ⟨f, hf, hv⟩ := List.mem_flatMap.mp hv
        rw [List.mem_singleton.mp hv, h fields rfl f hf]
        rfl
      · rw [List.mem_singleton.mp hv]
        rfl
  case h_3 _ hrecord =>
    constructor
    · intro _ fields h
      exact (hrecord fields h).elim
    · intro _
      exact List.forall_mem_nil _

/-! ### Methods and modules -/

/-- A method that meets no obstacle. -/
structure Method.Clear (m : Method) : Prop where
  takes : m.describesConstants = false → ∀ p ∈ m.parameters, m.Takes p
  returns : m.describesConstants = false → m.Returns
  provides : m.describesConstants = true → m.Provides

theorem method_clear_iff {module : String} {m : Method} :
    (∀ v ∈ m.visits module, v.obstacle? = none) ↔ m.Clear := by
  unfold Method.visits
  cases hm : m.describesConstants
  · rw [if_neg Bool.false_ne_true, List.forall_mem_append, returnedVisits_clear_iff,
      List.forall_mem_flatMap]
    constructor
    · rintro ⟨htakes, hreturns⟩
      refine ⟨fun _ p hp => parameterVisits_clear_iff.1 (htakes p hp), fun _ => hreturns, fun h => ?_⟩
      rw [hm] at h
      cases h
    · intro h
      exact ⟨fun p hp => parameterVisits_clear_iff.2 (h.takes hm p hp), h.returns hm⟩
  · rw [if_pos rfl, constantsVisits_clear_iff]
    constructor
    · intro h
      refine ⟨fun hc => ?_, fun hc => ?_, fun _ => h⟩ <;>
        · rw [hm] at hc
          cases hc
    · intro h
      exact h.provides hm

theorem module_clear_iff {m : Module} :
    (∀ v ∈ m.visits, v.obstacle? = none) ↔ ∀ method ∈ m.methods, method.Clear := by
  rw [Module.visits, List.forall_mem_flatMap]
  exact forall₂_congr fun method _ => method_clear_iff

theorem Method.Clear.held {m : Method} (h : m.Clear) {site : Site} {type : ValueType}
    (hsite : (site, type) ∈ m.sites) : ∀ b ∈ type.records, ∀ f ∈ b.fields, f.Held := by
  obtain ⟨hm, ⟨p, hp, _, rfl⟩ | ⟨fields, hrecord, _, rfl⟩⟩ := mem_sites.mp hsite
  · exact (h.takes hm p hp).held
  · have hheld := (h.returns hm).held fields hrecord
    rwa [hrecord] at hheld

/-- **In a module without obstacles structs can hold all fields of its records.** -/
theorem held_of_clear {m : Module} (h : ∀ v ∈ m.visits, v.obstacle? = none) :
    ∀ s ∈ m.structs, ∀ f ∈ s.fields, f.Held := by
  intro s hs f hf
  obtain ⟨method, hmethod, site, type, hsite, b, hb, rfl⟩ := mem_structs.mp hs
  exact (module_clear_iff.1 h method hmethod).held hsite b hb f hf

/-! ### What is visited -/

/-- What a method visits: the fields of the constants, or the types and names in its
signature and what is below its sites. -/
inductive Method.Visited (m : Method) (module : String) : Visit → Prop
  | constant (f : Field) : Visited m module (.check (.constant f.name module) f.type.unsupportedInField?)
  | constants {fields : List Field} :
      m.describesConstants = true → m.returned.type = .record fields → Visited m module (.keep fields)
  | type (place : Place) (table : TypeTable) (type : ValueType) :
      Visited m module (.check place (table.refused? type))
  | name : Visited m module (.spell m.name)
  | parameter {p : Parameter} : p ∈ m.parameters → Visited m module (.spell p.name)
  | below {site : Site} {type : ValueType} {v : Visit} :
      (site, type) ∈ m.sites → type.Visited v → Visited m module v

theorem Method.visited_of_mem {m : Method} {module : String} {v : Visit} (h : v ∈ m.visits module) :
    m.Visited module v := by
  unfold Method.visits at h
  cases hc : m.describesConstants
  case true =>
    rw [hc, if_pos rfl, Method.constantsVisits] at h
    split at h
    case h_1 => cases h
    case h_2 fields _ hrecord =>
      rcases List.mem_append.mp h with h | h
      · obtain ⟨f, _, h⟩ := List.mem_flatMap.mp h
        rw [List.mem_singleton.mp h]
        exact .constant f
      · rw [List.mem_singleton.mp h]
        exact .constants hc hrecord
    case h_3 => cases h
  rw [hc, if_neg Bool.false_ne_true] at h
  rcases List.mem_append.mp h with h | h
  · obtain ⟨p, hp, h⟩ := List.mem_flatMap.mp h
    rw [Method.parameterVisits, Method.nestedVisits] at h
    rcases List.mem_cons.mp h with rfl | h
    · exact .type _ TypeTable.parameters p.type
    split at h
    · rcases List.mem_cons.mp h with rfl | h
      · exact .name
      rcases List.mem_cons.mp h with rfl | h
      · exact .parameter hp
      exact .below (mem_sites.mpr ⟨hc, Or.inl ⟨p, hp, rfl, rfl⟩⟩) (ValueType.visited_of_mem h)
    · cases h
  · rw [Method.returnedVisits] at h
    rcases List.mem_cons.mp h with rfl | h
    · exact .type _ TypeTable.returned m.returned.type
    split at h
    case h_1 fields hrecord =>
      rcases List.mem_cons.mp h with rfl | h
      · exact .name
      exact .below (mem_sites.mpr ⟨hc, Or.inr ⟨fields, hrecord, rfl, rfl⟩⟩)
        (ValueType.visited_of_mem h)
    case h_2 => cases h

/-- In a module without obstacles the constants that are kept can be held by a struct. -/
theorem supported_of_kept {m : Module} (hclear : ∀ v ∈ m.visits, v.obstacle? = none)
    {fields : List Field} (h : kept? m.visits = some fields) :
    ∀ f ∈ fields, f.type.unsupportedInField? = none := by
  obtain ⟨v, hv, hkept⟩ := List.mem_filterMap.mp (List.mem_of_getLast? h)
  cases v <;> cases hkept
  obtain ⟨method, hmethod, hv⟩ := List.mem_flatMap.mp hv
  cases Method.visited_of_mem hv with
  | constants hconstants hrecord =>
    exact (module_clear_iff.1 hclear method hmethod).provides hconstants fields hrecord
  | below _ hbelow => cases hbelow

end NativeHeader

import NativeHeader.Proofs.Schema.Mapping

/-! Flattening as a disjoint union.

The modules of a schema are met component by component, in the order of the names of the
components, and inside a component in its own order. They can be written down in two tables
while they are met, one with the modules and one with their owners, both under the name of
the module (`Tables`); then a name that is met again has to have an owner. The tables are
always in step (`meet_tables`), so it has one. `nativeModules_union` says what flattening
gives: every module of every component once and in this order, or, if two components share a
name, the first name that is met again with the component that had it and the one that has it
now. -/
namespace NativeHeader

/-! ### Two tables -/

/-- The modules that were met and the components that declare them, under the names of the
modules. -/
structure Tables where
  modules : List (String × Module) := []
  owners : List (String × String) := []

namespace Tables

/-- Why not all modules are met. -/
inductive Stop where
  | repeated (name first second : String)
  /-- A name that was met before has no owner. -/
  | unowned (name : String)

/-- Meets one more module. -/
def meet (t : Tables) (o : Owned) : Except Stop Tables :=
  match t.modules.lookup o.module.name with
  | none =>
    .ok ⟨t.modules ++ [(o.module.name, o.module)], t.owners ++ [(o.module.name, o.owner)]⟩
  | some _ =>
    match t.owners.lookup o.module.name with
    | some first => .error (.repeated o.module.name first o.owner)
    | none => .error (.unowned o.module.name)

/-- Meets modules one after the other. -/
def meetAll (t : Tables) : List Owned → Except Stop Tables
  | [] => .ok t
  | o :: rest =>
    match t.meet o with
    | .ok after => after.meetAll rest
    | .error stop => .error stop

/-- The tables after these modules were met. -/
def of (met : List Owned) : Tables where
  modules := met.map fun o => (o.module.name, o.module)
  owners := met.map fun o => (o.module.name, o.owner)

theorem lookup_name {α : Type} (value : Owned → α) (met : List Owned) (name : String) :
    (met.map fun o => (o.module.name, value o)).lookup name =
      (met.find? fun o => o.module.name = name).map value := by
  induction met with
  | nil => rfl
  | cons o rest ih =>
    rw [List.map_cons, List.lookup_cons, List.find?_cons]
    by_cases hname : o.module.name = name
    · simp [hname]
    · rw [beq_false_of_ne (Ne.symm hname), decide_eq_false hname]
      exact ih

/-- Both tables have the same names, so a name that is met again has an owner. -/
theorem meet_tables (met : List Owned) (o : Owned) :
    (of met).meet o =
      match met.find? fun m => m.module.name = o.module.name with
      | none => .ok (of (met ++ [o]))
      | some first => .error (.repeated o.module.name first.owner o.owner) := by
  unfold meet of
  rw [lookup_name, lookup_name]
  cases met.find? fun m => m.module.name = o.module.name with
  | none => simp
  | some first => rfl

theorem find?_new {met : List Owned} {name : String} :
    met.find? (fun m => m.module.name = name) = none ↔ name ∉ met.map (·.module.name) := by
  simp [List.find?_eq_none, List.mem_map]

section
variable {met : List Owned}

/-- A module of a new name is met after the others. -/
theorem meetAll_new {o : Owned} {rest : List Owned}
    (h : ((met ++ [o]).map (·.module.name)).Nodup) :
    (of met).meetAll (o :: rest) = (of (met ++ [o])).meetAll rest := by
  rw [List.map_append, List.nodup_append] at h
  have hnew : o.module.name ∉ met.map (·.module.name) := fun hmem =>
    h.2.2 _ hmem _ (List.mem_singleton.mpr rfl) rfl
  rw [meetAll, meet_tables, find?_new.2 hnew]

theorem meetAll_append {os rest : List Owned} (h : ((met ++ os).map (·.module.name)).Nodup) :
    (of met).meetAll (os ++ rest) = (of (met ++ os)).meetAll rest := by
  induction os generalizing met with
  | nil => rw [List.append_nil, List.nil_append]
  | cons o os ih =>
    have hassoc : met ++ o :: os = met ++ [o] ++ os := by simp
    rw [hassoc] at h ⊢
    rw [List.map_append] at h
    rw [List.cons_append, meetAll_new h.of_append_left, ih (by rwa [List.map_append])]

/-- Modules of different names are all met. -/
theorem meetAll_distinct {os : List Owned} (h : (os.map (·.module.name)).Nodup) :
    meetAll {} os = .ok (of os) := by
  have hall : (of []).meetAll (os ++ []) = (of ([] ++ os)).meetAll [] := meetAll_append h
  rwa [List.append_nil] at hall

/-- The first name that is met again ends the meeting. -/
theorem meetAll_repeated {before after : List Owned} {first second : Owned}
    (h : (before.map (·.module.name)).Nodup) (hfirst : first ∈ before)
    (hname : first.module.name = second.module.name) :
    meetAll {} (before ++ second :: after) =
      .error (.repeated second.module.name first.owner second.owner) := by
  have hfound : before.find? (fun m => m.module.name = second.module.name) = some first :=
    (Schema.find?_name_iff h).mpr ⟨hfirst, hname⟩
  have hbefore : (of []).meetAll (before ++ second :: after) =
      (of ([] ++ before)).meetAll (second :: after) := meetAll_append h
  refine hbefore.trans ?_
  rw [List.nil_append, meetAll, meet_tables, hfound]

end

end Tables

/-! ### The first repetition -/

namespace Schema

/-- A repetition comes after modules of different names, one of which has its name. -/
theorem repetition?_eq_some {met os : List Owned} {first second : Owned}
    (hmet : (met.map (·.module.name)).Nodup) (h : repetition? met os = some (first, second)) :
    ∃ before after, os = before ++ second :: after ∧
      ((before.reverse ++ met).map (·.module.name)).Nodup ∧ first ∈ before.reverse ++ met ∧
        first.module.name = second.module.name := by
  induction os generalizing met with
  | nil => cases h
  | cons o rest ih =>
    rw [repetition?] at h
    cases hfind : met.find? fun m => m.module.name = o.module.name with
    | some found =>
      rw [hfind] at h
      cases h
      obtain ⟨hmem, hname⟩ := (find?_name_iff hmet).mp hfind
      exact ⟨[], rest, rfl, hmet, hmem, hname⟩
    | none =>
      rw [hfind] at h
      have hnodup : ((o :: met).map (·.module.name)).Nodup :=
        List.nodup_cons.mpr ⟨Tables.find?_new.1 hfind, hmet⟩
      obtain ⟨before, after, rfl, hdistinct, hfirst, hname⟩ := ih hnodup h
      have happend : (o :: before).reverse ++ met = before.reverse ++ o :: met := by simp
      exact ⟨o :: before, after, rfl, happend ▸ hdistinct, happend ▸ hfirst, hname⟩

variable {s : Schema}

theorem sortedComponents_perm (s : Schema) : s.sortedComponents.Perm s.components :=
  List.mergeSort_perm ..

theorem Keyed.ascending (h : s.Keyed) : (s.sortedComponents.map (·.name)).Pairwise (· < ·) :=
  ascending_mergeSort h.components

theorem ownedBy_eq (c : Component) : ownedBy c = c.modules.map (⟨c.name, ·⟩) := rfl

/-- No component declares a name twice, so a name that is met again has another owner. -/
theorem Keyed.owned_nodup (h : s.Keyed) : (s.owned.map fun o => (o.owner, o.module.name)).Nodup := by
  rw [owned, List.map_flatMap, List.nodup_flatMap]
  constructor
  · intro c hc
    have hnames := h.modules c ((sortedComponents_perm s).mem_iff.mp hc)
    refine List.Nodup.of_map (fun pair => pair.2) ?_
    simpa [ownedBy_eq, Function.comp_def] using hnames
  · refine (List.pairwise_map.mp h.ascending).imp fun {c d} hlt => ?_
    rintro ⟨owner, name⟩ hfirst hsecond
    simp only [ownedBy_eq, List.map_map, List.mem_map, Function.comp_apply, Prod.mk.injEq] at hfirst hsecond
    obtain ⟨_, _, rfl, _⟩ := hfirst
    obtain ⟨_, _, hname, _⟩ := hsecond
    rw [hname] at hlt
    exact String.lt_irrefl _ hlt

/-- The module `second` is the first whose name is met again: those before it have different
names, and one of them, `first`, has its name and another owner. -/
def MeetsAgain (s : Schema) (first second : Owned) : Prop :=
  ∃ before after, s.owned = before ++ second :: after ∧ (before.map (·.module.name)).Nodup ∧
    first ∈ before ∧ first.module.name = second.module.name ∧ first.owner ≠ second.owner

theorem Keyed.meetsAgain (h : s.Keyed) {first second : Owned}
    (hrepeated : repetition? [] s.owned = some (first, second)) : s.MeetsAgain first second := by
  have hnone : (([] : List Owned).map (·.module.name)).Nodup := List.nodup_nil
  obtain ⟨before, after, howned, hdistinct, hfirst, hname⟩ := repetition?_eq_some hnone hrepeated
  rw [List.append_nil, List.map_reverse, List.nodup_reverse] at hdistinct
  rw [List.append_nil, List.mem_reverse] at hfirst
  refine ⟨before, after, howned, hdistinct, hfirst, hname, fun howner => ?_⟩
  have hpairs := h.owned_nodup
  rw [howned, List.map_append, List.map_cons, List.nodup_append] at hpairs
  refine hpairs.2.2 _ (List.mem_map_of_mem hfirst) _ List.mem_cons_self ?_
  rw [howner, hname]

theorem MeetsAgain.meetAll {first second : Owned} (h : s.MeetsAgain first second) :
    Tables.meetAll {} s.owned = .error (.repeated second.module.name first.owner second.owner) := by
  obtain ⟨before, after, howned, hdistinct, hfirst, hname, _⟩ := h
  rw [howned, Tables.meetAll_repeated hdistinct hfirst hname]

theorem owned_modules (s : Schema) :
    s.owned.map (·.module) = s.sortedComponents.flatMap Component.modules := by
  simp [owned, List.map_flatMap, ownedBy_eq, Function.comp_def]

/-- **Flattening is a disjoint union.** Components are visited in the order of their names. If
no two of them declare a module of the same name, the flat list has the modules of each, in
order, once and nothing else. Otherwise the first name that is met again is reported, with the
component that declared it before and the one that is visited; in the tables it has an owner. -/
theorem nativeModules_union {s : Schema} (h : s.Keyed) :
    s.sortedComponents.Perm s.components ∧ (s.sortedComponents.map (·.name)).Pairwise (· < ·) ∧
    ((∃ e, s.nativeModules = .error (.shape e)) ↔ s.Repeats) ∧
    (¬ s.Repeats →
      s.nativeModules = .ok (s.sortedComponents.flatMap Component.modules) ∧
      ((s.sortedComponents.flatMap Component.modules).map (·.name)).Nodup ∧
      (∀ m, m ∈ s.sortedComponents.flatMap Component.modules ↔ ∃ component, s.Declares component m) ∧
      Tables.meetAll {} s.owned = .ok (Tables.of s.owned)) ∧
    (s.Repeats → ∃ first second, s.MeetsAgain first second ∧
      (∃ e, s.nativeModules = .error (.shape e) ∧
        e = .repeatedModule second.module.name first.owner second.owner ∧
        e.message = "Native module \"" ++ second.module.name ++ "\" is declared by both \"" ++
          first.owner ++ "\" and \"" ++ second.owner ++ "\".") ∧
      Tables.meetAll {} s.owned =
        .error (.repeated second.module.name first.owner second.owner)) := by
  have hdistinct (hnone : ¬ s.Repeats) : (s.owned.map (·.module.name)).Nodup := by
    have hnames : ((s.owned.map (·.module)).map (·.name)).Nodup :=
      ((owned_perm s).map _).nodup_iff.mpr (h.distinct_iff.mpr hnone)
    rwa [List.map_map] at hnames
  refine ⟨sortedComponents_perm s, h.ascending, ⟨fun ⟨e, he⟩ => ?_, fun hrepeats => ?_⟩,
    fun hnone => ⟨?_, ?_, fun m => ?_, Tables.meetAll_distinct (hdistinct hnone)⟩, fun hrepeats => ?_⟩
  · by_contra hnone
    rw [nativeModules_of_distinct (h.distinct_iff.mpr hnone)] at he
    cases he
  · exact nativeModules_of_not_distinct fun hd => h.distinct_iff.mp hd hrepeats
  · rw [nativeModules_of_distinct (h.distinct_iff.mpr hnone), owned_modules]
  · rw [← owned_modules, List.map_map]
    exact hdistinct hnone
  · rw [← owned_modules, (owned_perm s).mem_iff, mem_modules_iff]
  · cases hrepeated : repetition? [] s.owned with
    | none => exact absurd hrepeats (h.distinct_iff.mp (repetition?_owned_iff.mp hrepeated))
    | some pair =>
      obtain ⟨first, second⟩ := pair
      have hagain := h.meetsAgain hrepeated
      have hrefused : s.nativeModules =
          .error (.shape (.repeatedModule second.module.name first.owner second.owner)) := by
        rw [nativeModules, hrepeated]
      exact ⟨first, second, hagain, ⟨_, hrefused, rfl, rfl⟩, hagain.meetAll⟩

/-- Three components, one without native code, and two that share a name. -/
def shelves : Schema := ⟨[
  ⟨"Shop", some [⟨"Cart", []⟩, ⟨"Orders", []⟩]⟩,
  ⟨"Look", none⟩,
  ⟨"Home", some [⟨"Orders", []⟩]⟩]⟩

/-- `Home` comes before `Shop`, so it is the first to declare the name. -/
theorem nativeModules_union_shelves : shelves.Keyed ∧ shelves.Repeats ∧
    ∃ first second, shelves.MeetsAgain first second ∧ first.owner = "Home" ∧ second.owner = "Shop" ∧
      ∃ fault, shelves.nativeModules = .error fault ∧
        fault.message = "Native module \"Orders\" is declared by both \"Home\" and \"Shop\"." := by
  have hkeyed : shelves.Keyed := ⟨by decide, by decide⟩
  have hrepeats : shelves.Repeats :=
    ⟨"Shop", "Home", ⟨"Orders", []⟩, ⟨"Orders", []⟩, by decide,
      ⟨_, .head _, rfl, .tail _ (.head _)⟩, ⟨_, .tail _ (.tail _ (.head _)), rfl, .head _⟩, rfl⟩
  have hsorted : shelves.sortedComponents = [⟨"Home", some [⟨"Orders", []⟩]⟩, ⟨"Look", none⟩,
      ⟨"Shop", some [⟨"Cart", []⟩, ⟨"Orders", []⟩]⟩] := by
    simp [sortedComponents, shelves, List.mergeSort]
  have hgiven : shelves.nativeModules = .error (.shape (.repeatedModule "Orders" "Home" "Shop")) := by
    rw [nativeModules, owned, hsorted]
    rfl
  obtain ⟨first, second, hagain, ⟨e, hrefused, he, _⟩, _⟩ :=
    (nativeModules_union hkeyed).2.2.2.2 hrepeats
  rw [hgiven, Except.error.injEq, Fault.shape.injEq] at hrefused
  subst hrefused
  rw [ShapeError.repeatedModule.injEq] at he
  exact ⟨hkeyed, hrepeats, first, second, hagain, he.2.1.symm, he.2.2.symm, _, hgiven, rfl⟩

end Schema

end NativeHeader

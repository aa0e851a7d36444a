import Mathlib.Data.List.Pairwise
import NativeHeader.Proofs.Schema.Flatten
import NativeHeader.Proofs.Schema.Loader

/-! A schema as a nested mapping.

No object of a decoded document has a key twice (`Json.keyed`), so a schema that is loaded
from one maps the names of components to groups, and a group, where there is one, maps the
names of modules to modules (`keyed_of_ofJson`). As a mapping a schema has no order. What
it declares, which modules it has and whether a name is declared twice can be told from the
mapping alone. -/
namespace NativeHeader

namespace Json

mutual

/-- No object in the value has a key twice. -/
def keyed : Json → Bool
  | .arr items => keyedItems items
  | .obj fields => decide (fields.map (·.1)).Nodup && keyedFields fields
  | _ => true

def keyedItems : List Json → Bool
  | [] => true
  | item :: rest => keyed item && keyedItems rest

def keyedFields : List (String × Json) → Bool
  | [] => true
  | (_, value) :: rest => keyed value && keyedFields rest

end

theorem keyedFields_iff {fields : List (String × Json)} :
    keyedFields fields = true ↔ ∀ entry ∈ fields, entry.2.keyed = true := by
  induction fields with
  | nil => simp [keyedFields]
  | cons entry rest ih =>
    rw [keyedFields, Bool.and_eq_true, ih, List.forall_mem_cons]

theorem keyed_obj {fields : List (String × Json)} : (Json.obj fields).keyed = true ↔
    (fields.map (·.1)).Nodup ∧ ∀ entry ∈ fields, entry.2.keyed = true := by
  rw [keyed, Bool.and_eq_true, decide_eq_true_iff, keyedFields_iff]

theorem keyed_field {data value : Json} {key : String} (h : data.keyed = true)
    (hvalue : data.field? key = some value) : value.keyed = true := by
  cases data with
  | obj fields =>
    obtain ⟨before, after, rfl, _⟩ := List.lookup_eq_some_iff.mp hvalue
    exact (keyed_obj.1 h).2 (key, value) (List.mem_append_right _ List.mem_cons_self)
  | _ => cases hvalue

end Json

namespace Schema

/-- Names are given once: those of the components, and those of the modules in each. -/
structure Keyed (s : Schema) : Prop where
  components : (s.components.map (·.name)).Nodup
  modules : ∀ c ∈ s.components, (c.modules.map (·.name)).Nodup

/-- The mapping that a schema is. -/
def mapping (s : Schema) (component : String) : Option (Option (String → Option Module)) :=
  (s.components.find? (·.name = component)).map fun c =>
    c.modules?.map fun group name => group.find? (·.name = name)

/-- The component with this name declares the module. -/
def Declares (s : Schema) (component : String) (m : Module) : Prop :=
  ∃ c ∈ s.components, c.name = component ∧ m ∈ c.modules

/-- Two components declare a module of the same name. -/
def Repeats (s : Schema) : Prop :=
  ∃ first second m n, first ≠ second ∧ s.Declares first m ∧ s.Declares second n ∧ m.name = n.name

/-! ### Loaded schemas -/

/-- Items that correspond have the same names. -/
theorem map_eq_of_forall₂ {α β γ : Type} {R : α → β → Prop} {f : α → γ} {g : β → γ}
    (h : ∀ a b, R a b → g b = f a) {l : List α} {r : List β} (hall : List.Forall₂ R l r) :
    r.map g = l.map f := by
  induction hall with
  | nil => rfl
  | cons hab _ ih => rw [List.map_cons, List.map_cons, h _ _ hab, ih]

theorem exists_of_mem_forall₂ {α β : Type} {R : α → β → Prop} {l : List α} {r : List β}
    (hall : List.Forall₂ R l r) : ∀ b ∈ r, ∃ a ∈ l, R a b := by
  induction hall with
  | nil => exact fun _ h => nomatch h
  | cons hab _ ih =>
    rw [List.forall_mem_cons]
    refine ⟨⟨_, List.mem_cons_self, hab⟩, fun b hb => ?_⟩
    obtain ⟨a, ha, h⟩ := ih b hb
    exact ⟨a, List.mem_cons_of_mem _ ha, h⟩

theorem keyed_of_ofJson {data : Json} {s : Schema} (hdata : data.keyed = true)
    (h : ofJson data = .ok s) : s.Keyed := by
  obtain ⟨entries, hentries, hcomponents⟩ := ((ofJson_reads data).ok_iff s).mp h
  obtain ⟨hkeys, hkeyed⟩ := Json.keyed_obj.1 (Json.keyed_field hdata hentries)
  refine ⟨?_, fun c hc => ?_⟩
  · rwa [map_eq_of_forall₂ (fun _ _ h => h.name) hcomponents]
  · obtain ⟨entry, hentry, hdescribes⟩ := exists_of_mem_forall₂ hcomponents c hc
    obtain ⟨name, _ | group⟩ := c
    · exact List.nodup_nil
    · obtain ⟨_, inner, hinner, hgroup⟩ := hdescribes
      show (group.map (·.name)).Nodup
      rw [map_eq_of_forall₂ (fun _ _ h => h.name) hgroup]
      exact (Json.keyed_obj.1 (Json.keyed_field (hkeyed entry hentry) hinner)).1

/-! ### What the mapping says -/

/-- A name that is given once is found where it is. -/
theorem find?_name_iff {α : Type} {f : α → String} {l : List α} (h : (l.map f).Nodup)
    {name : String} {a : α} : l.find? (fun b => f b = name) = some a ↔ a ∈ l ∧ f a = name := by
  constructor
  · intro hfound
    exact ⟨List.mem_of_find?_eq_some hfound, by simpa using List.find?_some hfound⟩
  · rintro ⟨ha, rfl⟩
    cases hfound : l.find? fun b => f b = f a with
    | some b =>
      have hb : f b = f a := by simpa using List.find?_some hfound
      rw [List.inj_on_of_nodup_map h (List.mem_of_find?_eq_some hfound) ha hb]
    | none => simpa using List.find?_eq_none.mp hfound a ha

variable {s t : Schema}

theorem Keyed.declares_iff (h : s.Keyed) {component : String} {m : Module} :
    s.Declares component m ↔
      ∃ group, s.mapping component = some (some group) ∧ group m.name = some m := by
  constructor
  · rintro ⟨c, hc, hname, hm⟩
    cases hgroup : c.modules? with
    | none => simp [Component.modules, hgroup] at hm
    | some group =>
      have hnodup := h.modules c hc
      rw [show c.modules = group by simp [Component.modules, hgroup]] at hm hnodup
      refine ⟨fun name => group.find? (·.name = name), ?_, (find?_name_iff hnodup).mpr ⟨hm, rfl⟩⟩
      simp [mapping, (find?_name_iff h.components).mpr ⟨hc, hname⟩, hgroup]
  · rintro ⟨group, hgroup, hm⟩
    obtain ⟨c, hc, hmap⟩ := Option.map_eq_some_iff.mp hgroup
    obtain ⟨l, hl, rfl⟩ := Option.map_eq_some_iff.mp hmap
    obtain ⟨hmem, hname⟩ := (find?_name_iff h.components).mp hc
    refine ⟨c, hmem, hname, ?_⟩
    simpa [Component.modules, hl] using List.mem_of_find?_eq_some hm

/-- The mapping says which component declares which module. -/
theorem declares_congr (hs : s.Keyed) (ht : t.Keyed) (h : s.mapping = t.mapping)
    (component : String) (m : Module) : s.Declares component m ↔ t.Declares component m := by
  rw [hs.declares_iff, ht.declares_iff, h]

theorem mem_modules_iff {m : Module} : m ∈ s.modules ↔ ∃ component, s.Declares component m := by
  simp [modules, Declares]

theorem repeats_congr (hs : s.Keyed) (ht : t.Keyed) (h : s.mapping = t.mapping) :
    s.Repeats ↔ t.Repeats := by
  simp only [Repeats, declares_congr hs ht h]

/-- Names are distinct unless two components share one. -/
theorem Keyed.distinct_iff (h : s.Keyed) : s.Distinct ↔ ¬ s.Repeats := by
  rw [Distinct, Schema.modules, List.map_flatMap, List.nodup_flatMap]
  constructor
  · rintro ⟨_, hdisjoint⟩ ⟨_, _, m, n, hne, ⟨c, hc, rfl, hm⟩, ⟨d, hd, rfl, hn⟩, hname⟩
    have hcd : c ≠ d := fun hcd => hne (congrArg _ hcd)
    have : Std.Symm (Function.onFun List.Disjoint fun c : Component => c.modules.map (·.name)) :=
      ⟨fun _ _ h _ hsecond hfirst => h hfirst hsecond⟩
    exact hdisjoint.forall hc hd hcd (List.mem_map_of_mem hm) (hname ▸ List.mem_map_of_mem hn)
  · intro hrepeats
    refine ⟨h.modules, (List.Nodup.of_map _ h.components).pairwise_of_forall_ne ?_⟩
    intro c hc d hd hcd name hfirst hsecond
    obtain ⟨m, hm, rfl⟩ := List.mem_map.mp hfirst
    obtain ⟨n, hn, hname⟩ := List.mem_map.mp hsecond
    have hne : c.name ≠ d.name := fun hname =>
      hcd (List.inj_on_of_nodup_map h.components hc hd hname)
    exact hrepeats ⟨_, _, m, n, hne, ⟨c, hc, rfl, hm⟩, ⟨d, hd, rfl, hn⟩, hname.symm⟩

end Schema

end NativeHeader

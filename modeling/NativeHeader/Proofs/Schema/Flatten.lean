import Mathlib.Data.List.Nodup
import NativeHeader.Schema.Flatten

/-! What flattening gives, and when it is refused.

Components are visited in the order of their names, so the flat list has the modules of the
schema in an order of its own (`owned_perm`). It is refused exactly if two modules have the
same name, whatever order they are met in. -/
namespace NativeHeader

/-! ### The order of names -/

section
variable {α : Type} (name : α → String) (l : List α)

/-- A list that is sorted by names. -/
theorem pairwise_mergeSort_name :
    (l.mergeSort fun a b => decide (name a ≤ name b)).Pairwise fun a b => name a ≤ name b := by
  have hsorted : (l.mergeSort fun a b => decide (name a ≤ name b)).Pairwise fun a b =>
      decide (name a ≤ name b) = true := by
    refine List.pairwise_mergeSort (fun a b c hab hbc => ?_) (fun a b => ?_) _
    · exact decide_eq_true (String.le_trans (of_decide_eq_true hab) (of_decide_eq_true hbc))
    · simpa using String.le_total (name a) (name b)
  exact hsorted.imp of_decide_eq_true

variable {name l}

/-- Names that differ are in strictly ascending order. -/
theorem ascending_mergeSort (h : (l.map name).Nodup) :
    ((l.mergeSort fun a b => decide (name a ≤ name b)).map name).Pairwise (· < ·) := by
  have hnodup := ((List.mergeSort_perm l fun a b => decide (name a ≤ name b)).map name).nodup_iff.mpr h
  rw [List.pairwise_map]
  refine (pairwise_mergeSort_name name l).imp₂ (fun a b hle hne => ?_) (List.pairwise_map.mp hnodup)
  by_contra hlt
  exact hne (String.le_antisymm hle (String.not_lt.mp hlt))

end

/-! ### Modules -/

/-- The modules that a component declares; without native code there are none. -/
def Component.modules (c : Component) : List Module := c.modules?.getD []

namespace Schema

/-- The modules of all components, in document order. -/
def modules (s : Schema) : List Module := s.components.flatMap Component.modules

/-- No two modules of the schema have the same name. -/
def Distinct (s : Schema) : Prop := (s.modules.map (·.name)).Nodup

/-- Nothing is repeated if the names are distinct, among each other and from those met before. -/
theorem repetition?_eq_none_iff {met os : List Owned} : repetition? met os = none ↔
    (os.map (·.module.name)).Nodup ∧ ∀ o ∈ os, ∀ m ∈ met, m.module.name ≠ o.module.name := by
  induction os generalizing met with
  | nil => simp [repetition?]
  | cons o rest ih =>
    rw [repetition?, List.map_cons, List.nodup_cons, List.forall_mem_cons]
    cases hfind : met.find? fun m => m.module.name = o.module.name with
    | some first =>
      have hname : first.module.name = o.module.name := by simpa using List.find?_some hfind
      refine iff_of_false nofun fun ⟨_, hnew, _⟩ => ?_
      exact hnew first (List.mem_of_find?_eq_some hfind) hname
    | none =>
      have hnew : ∀ m ∈ met, m.module.name ≠ o.module.name := by
        simpa using List.find?_eq_none.mp hfind
      simp only [ih, List.forall_mem_cons]
      constructor
      · rintro ⟨hnodup, hrest⟩
        refine ⟨⟨fun hmem => ?_, hnodup⟩, hnew, fun p hp => (hrest p hp).2⟩
        obtain ⟨p, hp, hname⟩ := List.mem_map.mp hmem
        exact (hrest p hp).1 hname.symm
      · rintro ⟨⟨hfirst, hnodup⟩, _, hrest⟩
        refine ⟨hnodup, fun p hp => ⟨fun hname => hfirst ?_, hrest p hp⟩⟩
        exact hname ▸ List.mem_map_of_mem hp

variable {s : Schema}

/-- The flat list has every module as often as the schema has it. -/
theorem owned_perm (s : Schema) : (s.owned.map (·.module)).Perm s.modules := by
  have hgroup (c : Component) : (ownedBy c).map (·.module) = c.modules := by
    simp [ownedBy, Component.modules, Function.comp_def]
  rw [owned, List.map_flatMap, funext hgroup]
  exact (List.mergeSort_perm ..).flatMap_right _

theorem repetition?_owned_iff : repetition? [] s.owned = none ↔ s.Distinct := by
  have hnames := ((owned_perm s).map (·.name)).nodup_iff
  rw [List.map_map] at hnames
  simp [repetition?_eq_none_iff, Distinct, ← hnames, Function.comp_def]

theorem nativeModules_of_distinct (h : s.Distinct) :
    s.nativeModules = .ok (s.owned.map (·.module)) := by
  rw [nativeModules, repetition?_owned_iff.2 h]

theorem nativeModules_of_not_distinct (h : ¬ s.Distinct) :
    ∃ e, s.nativeModules = .error (.shape e) := by
  rw [nativeModules]
  cases hrepeated : repetition? [] s.owned with
  | some pair => exact ⟨_, rfl⟩
  | none => exact (h (repetition?_owned_iff.1 hrepeated)).elim

end Schema

end NativeHeader

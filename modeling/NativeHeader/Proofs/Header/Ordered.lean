import NativeHeader.Proofs.Header.Layout
import NativeHeader.Proofs.Schema.Flatten

/-! The modules of a header, in the order in which they are written.

A schema has a header exactly if no two of its modules have the same name and each of them
can be collected (`header_eq_ok_iff`). The header has all modules, and they stand in the
order of their names. -/
namespace NativeHeader.Schema

variable {s : Schema}

/-- The modules of a schema in the order of their names. -/
def ordered (s : Schema) : List Module :=
  (s.owned.map (·.module)).mergeSort fun a b => decide (a.name ≤ b.name)

theorem ordered_perm (s : Schema) : s.ordered.Perm s.modules :=
  (List.mergeSort_perm ..).trans (owned_perm s)

theorem pairwise_ordered (s : Schema) : s.ordered.Pairwise fun a b => a.name ≤ b.name :=
  pairwise_mergeSort_name Module.name _

/-- Names that differ are in strictly ascending order. -/
theorem Distinct.ascending (h : s.Distinct) : (s.ordered.map (·.name)).Pairwise (· < ·) :=
  ascending_mergeSort (((owned_perm s).map _).nodup_iff.mpr h)

theorem sortedModules_of_distinct (h : s.Distinct) : s.sortedModules = .ok s.ordered := by
  rw [sortedModules, nativeModules_of_distinct h]
  rfl

/-- If all steps are made, each of them gives a value. -/
theorem ok_of_mapM {α β ε : Type} {f : α → Except ε β} {l : List α} {bs : List β}
    (h : l.mapM f = .ok bs) : ∀ a ∈ l, ∃ b, f a = .ok b := by
  induction l generalizing bs with
  | nil => exact nofun
  | cons a rest ih =>
    rw [List.mapM_cons] at h
    cases ha : f a with
    | error e =>
      rw [ha] at h
      cases h
    | ok b =>
      cases hrest : rest.mapM f with
      | error e =>
        rw [ha, hrest] at h
        cases h
      | ok bs => exact List.forall_mem_cons.mpr ⟨⟨b, ha⟩, ih hrest⟩

/-- **A schema has a header exactly if its modules have distinct names and can all be
collected.** Its text has the texts of the modules in order, and then their classes. -/
theorem header_eq_ok_iff {text : String} : s.header = .ok text ↔
    s.Distinct ∧ (∀ m ∈ s.ordered, ∃ members context, m.collect = .ok (members, context)) ∧
      text = documentText (Text.unlines (s.ordered.map (·.layout.written)))
        (Text.unlines (s.ordered.map (classText ·.name))) := by
  by_cases hdistinct : s.Distinct
  · have hheader : s.header = (do
        let protocols ← s.ordered.mapM Module.protocol
        return documentText (Text.unlines protocols)
          (Text.unlines (s.ordered.map (classText ·.name)))) := by
      rw [header, sortedModules_of_distinct hdistinct]
      rfl
    have hok (h : ∀ m ∈ s.ordered, ∃ members context, m.collect = .ok (members, context)) :
        s.header = .ok (documentText (Text.unlines (s.ordered.map (·.layout.written)))
          (Text.unlines (s.ordered.map (classText ·.name)))) := by
      have hprotocols : s.ordered.mapM Module.protocol = .ok (s.ordered.map (·.layout.written)) := by
        refine mapM_eq_ok fun m hm => ?_
        obtain ⟨members, context, hcollect⟩ := h m hm
        exact protocol_eq hcollect
      rw [hheader, hprotocols]
      rfl
    constructor
    · intro h
      have hcollect : ∀ m ∈ s.ordered, ∃ members context, m.collect = .ok (members, context) := by
        intro m hm
        cases hprotocols : s.ordered.mapM Module.protocol with
        | error fault =>
          rw [hheader, hprotocols] at h
          cases h
        | ok protocols =>
          obtain ⟨protocol, hprotocol⟩ := ok_of_mapM hprotocols m hm
          exact collect_of_protocol hprotocol
      refine ⟨hdistinct, hcollect, ?_⟩
      rw [hok hcollect] at h
      cases h
      rfl
    · rintro ⟨_, hcollect, rfl⟩
      exact hok hcollect
  · refine iff_of_false (fun h => ?_) fun h => hdistinct h.1
    obtain ⟨e, he⟩ := nativeModules_of_not_distinct hdistinct
    rw [header, sortedModules, he] at h
    cases h

/-- The order of the modules does not matter for whether there is a header. -/
theorem header_of_modules (hdistinct : s.Distinct)
    (h : ∀ m ∈ s.modules, ∃ members context, m.collect = .ok (members, context)) :
    ∃ text, s.header = .ok text :=
  ⟨_, header_eq_ok_iff.2 ⟨hdistinct, fun m hm => h m (s.ordered_perm.mem_iff.mp hm), rfl⟩⟩

end NativeHeader.Schema

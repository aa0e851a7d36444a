import NativeHeader.Proofs.Struct.Agreement

/-! Names made level by level.

Neither the search nor the getters know the whole way to a record. Each level is given the
name of the level above and makes a name of its own from that (`descend`), so that what
is in upper case already is put in upper case again on every level, and a part may be empty,
so that a later one comes to the front. Nothing of this shows: a name that is made from
parts is settled (`capitalized_struct`), and the name at the end of the way is the one
that the whole way spells (`descend_site`). -/
namespace NativeHeader

/-! ### The search -/

theorem collected {site : Site} {name path : String} {type : ValueType} {c after : Context}
    (h : (collect site name path type).run.run c = (.ok (), after)) :
    after.structs.toList = c.structs.toList ++ registered (visits site name path type) := by
  have hfollow : follow c (visits site name path type) = (.ok (), after) := by
    rw [collect_follows site name path type c rfl] at h
    rcases hrun : follow c (visits site name path type) with ⟨_ | _, context⟩
    · rw [hrun] at h
      cases h
    · rw [hrun] at h
      cases h
      rfl
  rw [extended_of_follow hfollow]
  rfl

/-! ### The getters -/

/-- The name of the record below arrays has a level for each of them. -/
theorem coreName_eq {type : ValueType} {inner : List Field} (h : type.recordBelow? = some inner)
    (name : String) : type.coreName name = descend name (List.replicate type.levels .element) := by
  induction type using ValueType.nestingInduction generalizing name with
  | record fields => rfl
  | arrayOf element ih => exact ih h (Naming.element name)
  | other type hrecord harray =>
    cases type with
    | record fields => exact (hrecord fields rfl).elim
    | arrayOf element => exact (harray element rfl).elim
    | _ => cases h

/-- A record is supported below any number of arrays. -/
theorem supported_of_recordBelow {type : ValueType} {inner : List Field}
    (h : type.recordBelow? = some inner) : type.unsupportedInField? = none := by
  induction type using ValueType.nestingInduction with
  | record fields => rfl
  | arrayOf element ih => exact ih h
  | other type hrecord harray =>
    cases type with
    | record fields => exact (hrecord fields rfl).elim
    | arrayOf element => exact (harray element rfl).elim
    | _ => cases h

/-- The steps from a struct to the record in one of its fields. -/
def Field.descent (f : Field) : List Descent := .field f.name :: List.replicate f.type.levels .element

/-- The getter of a field refers to its record by a name that is made level by level, from
the name of the struct. -/
theorem fieldType_descend {f : Field} {inner : List Field} (h : f.type.recordBelow? = some inner)
    (hname : ∃ text, f.name = .str text) (module struct : String) :
    ∃ t, fieldType module (.str struct) f = .ok t ∧
      t.references = [(module, descend struct f.descent)] := by
  refine ⟨_, fieldType_of_held ⟨supported_of_recordBelow h, fun _ => hname⟩ module struct, ?_⟩
  rw [references_getterType, h, Field.structName, coreName_eq h]
  rfl

/-! ### Both together -/

/-- **Names that are made level by level are those of the whole way.** A name that is made
from parts, or that of a returned record, is a part like any other: to put it in upper case
changes nothing. So the structs that a search adds bear the words of the whole way to each
record, one after the other, and the getter of a field refers to its record by just these. -/
theorem names_by_level :
    (∀ ps qs, Naming.struct (Naming.struct ps :: qs) = Naming.struct (ps ++ qs)) ∧
    (∀ method qs,
      Naming.struct (Naming.returned method :: qs) = Naming.returned method ++ Naming.struct qs) ∧
    (∀ ps, Naming.capitalize (Naming.struct ps) = Naming.struct ps) ∧
    (∀ method, Naming.capitalize (Naming.returned method) = Naming.returned method) ∧
    (∀ site type c after, (collect site site.name "" type).run.run c = (.ok (), after) →
      after.structs.toList = c.structs.toList ++ type.records.map fun b =>
        ⟨.str (String.join (site.words ++ b.steps.map Descent.word)), b.fields⟩) ∧
    (∀ (module : String) site steps (f : Field) inner, f.type.recordBelow? = some inner →
      (∃ text, f.name = .str text) →
      ∃ t, fieldType module (.str (Way.name ⟨site, steps⟩)) f = .ok t ∧
        t.references = [(module,
          String.join (site.words ++ (steps ++ f.descent).map Descent.word))]) := by
  refine ⟨Naming.struct_struct, Naming.struct_returned, Naming.capitalized_struct,
    Naming.capitalized_returned, fun site type c after h => ?_,
    fun module site steps f inner h hname => ?_⟩
  · rw [collected h, registered_descend]
    congr 1
    apply List.map_congr_left
    intro b _
    rw [descend_site, Way.name]
  · obtain ⟨t, ht, hreferences⟩ := fieldType_descend h hname module (Way.name ⟨site, steps⟩)
    refine ⟨t, ht, ?_⟩
    rw [hreferences, ← descend_site, ← descend_append, descend_site, Way.name]

/-- A parameter whose name begins with a ligature, of a method without a name. -/
def Site.filter : Site := .parameter (.str "ﬁlter") (.str "")

/-- A field whose name grows in upper case, with an array of records. -/
def Field.sizes : Field := ⟨.str "ßizes", .arrayOf (.record []), false⟩

/-- The name of the parameter comes to the front. Its ligature becomes two letters, of which the
first is looked at again for the field. -/
theorem names_by_level_ligature :
    (∃ after, (collect .filter Site.filter.name "" (.record [Field.sizes])).run.run
        { moduleName := "Store" } = (.ok (), after) ∧
      after.structs.toList.map (·.name.display) = ["FIlter", "FIlterSSizesElement"]) ∧
    ∃ t, fieldType "Store" (.str "FIlter") Field.sizes = .ok t ∧
      t.references = [("Store", "FIlterSSizesElement")] := by
  obtain ⟨_, _, _, _, hsearch, hgetter⟩ := names_by_level
  constructor
  · obtain ⟨after, hrun⟩ : ∃ after, (collect .filter Site.filter.name ""
        (.record [Field.sizes])).run.run { moduleName := "Store" } = (.ok (), after) := ⟨_, rfl⟩
    refine ⟨after, hrun, ?_⟩
    rw [hsearch .filter (.record [Field.sizes]) { moduleName := "Store" } after hrun]
    decide
  · obtain ⟨t, ht, hreferences⟩ := hgetter "Store" .filter [] Field.sizes [] rfl ⟨_, rfl⟩
    have hname : Way.name ⟨.filter, []⟩ = "FIlter" := by decide
    have hwords : String.join (Site.filter.words ++ ([] ++ Field.sizes.descent).map Descent.word) =
        "FIlterSSizesElement" := by decide
    rw [hname] at ht
    rw [hwords] at hreferences
    exact ⟨t, ht, hreferences⟩

end NativeHeader

import NativeHeader.Proofs.Steps
import NativeHeader.Proofs.Struct.Records

/-! Collecting, visit by visit.

What a step on a context does to it is a list of visits: a record is registered, a
type is looked at in its place, a name is taken apart, a record is kept for the
constants. The list is fixed by the signature alone; only whether a visit succeeds
depends on what was collected before it. `follow` makes the visits one after the
other and stops at the first that fails, and a step `Follows` its visits if it
leaves the context exactly as they do.

`collect_follows` gives the visits of a value. Visits are all made exactly if none
meets an obstacle and the names to be registered are new and differ
(`follow_eq_ok_iff`). -/
namespace NativeHeader

/-! ### Visits -/

inductive Visit where
  /-- A record gets a struct. -/
  | register (name : String) (fields : List Field)
  /-- A type is looked at in its place; it may have a label that cannot stand there. -/
  | check (place : Place) (found? : Option String)
  /-- A name is taken apart. -/
  | spell (name : Name)
  /-- A record is kept for the constants. -/
  | keep (fields : List Field)

namespace Visit

/-- The context after a visit. -/
def step (c : Context) : Visit → Except Fault Context
  | .register name fields =>
    if c.structs.contains (.text name) then .error (.shape (.repeatedStruct (.str name)))
    else .ok { c with structs := c.structs.add ⟨.str name, fields⟩ }
  | .check _ none => .ok c
  | .check place (some found) => .error (.unsupported place found)
  | .spell name =>
    match Name.text name with
    | .ok _ => .ok c
    | .error fault => .error fault
  | .keep fields => .ok { c with constants? := some fields }

/-- What stops a visit in every context. -/
def obstacle? : Visit → Option Fault
  | .check place found? => found?.map (.unsupported place)
  | .spell name =>
    match Name.text name with
    | .ok _ => none
    | .error fault => some fault
  | _ => none

def struct? : Visit → Option Struct
  | .register name fields => some ⟨.str name, fields⟩
  | _ => none

def kept? : Visit → Option (List Field)
  | .keep fields => some fields
  | _ => none

end Visit

/-- The context after all visits, or after those before the first that fails. -/
def follow (c : Context) : List Visit → Except Fault Unit × Context
  | [] => (.ok (), c)
  | v :: rest =>
    match v.step c with
    | .ok after => follow after rest
    | .error fault => (.error fault, c)

theorem follow_append (c : Context) (a b : List Visit) :
    follow c (a ++ b) =
      match follow c a with
      | (.ok _, after) => follow after b
      | (.error fault, after) => (.error fault, after) := by
  induction a generalizing c with
  | nil => rfl
  | cons v rest ih =>
    simp only [List.cons_append, follow]
    cases v.step c with
    | ok after => exact ih after
    | error fault => rfl

theorem step_moduleName {c after : Context} {v : Visit} (h : v.step c = .ok after) :
    after.moduleName = c.moduleName := by
  cases v with
  | register name fields =>
    simp only [Visit.step] at h
    split at h <;> cases h
    rfl
  | check place found? =>
    cases found? with
    | none =>
      cases h
      rfl
    | some found => cases h
  | spell name =>
    simp only [Visit.step] at h
    split at h <;> cases h
    rfl
  | keep fields =>
    cases h
    rfl

theorem follow_moduleName (c : Context) (visits : List Visit) :
    (follow c visits).2.moduleName = c.moduleName := by
  induction visits generalizing c with
  | nil => rfl
  | cons v rest ih =>
    simp only [follow]
    cases h : v.step c with
    | ok after => rw [ih after, step_moduleName h]
    | error fault => rfl

/-! ### Steps that follow their visits -/

section Run
variable {α β : Type}

/-- In a module of this name the step makes the visits and then gives `a`. -/
def Follows (module : String) (x : CollectM α) (visits : List Visit) (a : α) : Prop :=
  ∀ c : Context, c.moduleName = module →
    x.run.run c = ((follow c visits).1.map fun _ => a, (follow c visits).2)

namespace Follows
variable {module : String} {x : CollectM α} {f : α → CollectM β} {visits more : List Visit} {a : α}
  {b : β}

theorem pure (a : α) : Follows module (pure a) [] a := fun _ _ => rfl

theorem bind (hx : Follows module x visits a) (hf : Follows module (f a) more b) :
    Follows module (x >>= f) (visits ++ more) b := by
  intro c hc
  have hname := follow_moduleName c visits
  rw [run_bind, hx c hc, follow_append]
  rcases h : follow c visits with ⟨_ | _, after⟩
  · rfl
  · rw [h] at hname
    exact hf after (hname.trans hc)

/-- A step that ends without a visit. -/
theorem followed (hx : Follows module x visits a) (hf : Follows module (f a) [] b) :
    Follows module (x >>= f) visits b := by
  have h := hx.bind hf
  rwa [List.append_nil] at h

/-- A step that looks at the context first may depend on the module's name alone. -/
theorem withContext {f : Context → CollectM β}
    (h : ∀ c : Context, c.moduleName = module → Follows module (f c) visits b) :
    Follows module (get >>= f) visits b :=
  fun c hc => h c hc c hc

theorem register (name : String) (fields : List Field) :
    Follows module (register ⟨.str name, fields⟩) [.register name fields] () := by
  intro c _
  have hrun : (NativeHeader.register ⟨.str name, fields⟩).run.run c =
      (if c.structs.contains (.text name) then throw (.shape (.repeatedStruct (.str name)))
        else set { c with structs := c.structs.add ⟨.str name, fields⟩ } : CollectM Unit).run.run c := rfl
  rw [hrun]
  simp only [follow, Visit.step]
  split <;> rfl

theorem keep (fields : List Field) :
    Follows module (modify fun c => { c with constants? := some fields }) [.keep fields] () :=
  fun _ _ => rfl

theorem stop (place : Place) (found : String) :
    Follows module (throw (.unsupported place found)) (.check place (some found) :: visits) a :=
  fun _ _ => rfl

theorem pass (place : Place) (hx : Follows module x visits a) :
    Follows module x (.check place none :: visits) a := hx

/-- The text of a name that has one is the name as it is written. -/
theorem spell {f : String → CollectM β} (name : Name) (h : Follows module (f name.display) visits b) :
    Follows module (liftM (Name.text name) >>= f) (.spell name :: visits) b := by
  intro c hc
  cases name with
  | str text => exact h c hc
  | _ => rfl

theorem mapM {ι : Type} {g : ι → CollectM α} {visits : ι → List Visit} {a : ι → α} (l : List ι)
    (h : ∀ i ∈ l, Follows module (g i) (visits i) (a i)) :
    Follows module (l.mapM g) (l.flatMap visits) (l.map a) := by
  induction l with
  | nil => exact pure []
  | cons i rest ih =>
    rw [List.mapM_cons, List.flatMap_cons, List.map_cons]
    have hrest := ih fun j hj => h j (List.mem_cons_of_mem i hj)
    exact (h i (List.mem_cons_self ..)).bind (hrest.followed (pure _))

theorem forM {ι : Type} {g : ι → CollectM Unit} {visits : ι → List Visit} (l : List ι)
    (h : ∀ i ∈ l, Follows module (g i) (visits i) ()) :
    Follows module (l.forM g) (l.flatMap visits) () := by
  induction l with
  | nil => exact pure ()
  | cons i rest ih =>
    rw [List.flatMap_cons]
    exact (h i (List.mem_cons_self ..)).bind (ih fun j hj => h j (List.mem_cons_of_mem i hj))

end Follows

end Run

/-! ### The visits of a value -/

mutual

/-- The visits below a value that has the given name. -/
def visits (site : Site) (name path : String) : ValueType → List Visit
  | .record fields => .register name fields :: visitsOfFields site name path fields
  | .arrayOf element => visits site (Naming.element name) path element
  | _ => []

def visitsOfFields (site : Site) (name path : String) : List Field → List Visit
  | [] => []
  | field :: rest => visitsOfField site name path field ++ visitsOfFields site name path rest

/-- A field is looked at, and followed if it has a name of its own. -/
def visitsOfField (site : Site) (name path : String) : Field → List Visit
  | ⟨fieldName, type, _⟩ =>
    .check (site.field (fieldPath path fieldName)) type.unsupportedInField? ::
      if type.isNested then
        .spell fieldName ::
          visits site (Naming.struct [name, fieldName.display]) (fieldPath path fieldName) type
      else []

end

theorem visitsOfFields_eq (site : Site) (name path : String) (fields : List Field) :
    visitsOfFields site name path fields = fields.flatMap (visitsOfField site name path) := by
  induction fields with
  | nil => rfl
  | cons f rest ih => rw [visitsOfFields, ih, List.flatMap_cons]

theorem collectFields_eq (site : Site) (name path : String) (fields : List Field) :
    collectFields site name path fields = fields.forM (collectField site name path) := by
  induction fields with
  | nil => rfl
  | cons f rest ih =>
    rw [collectFields, ih]
    rfl

/-- **Collecting the records of a value makes its visits.** -/
theorem collect_follows {module : String} (site : Site) (name path : String) (type : ValueType) :
    Follows module (collect site name path type) (visits site name path type) () := by
  induction type using ValueType.nestingInduction generalizing name path with
  | record fields ih =>
    rw [collect, visits, collectFields_eq, visitsOfFields_eq]
    refine (Follows.register name fields).bind (Follows.forM fields fun f hf => ?_)
    obtain ⟨fieldName, type, nullable⟩ := f
    rw [collectField, visitsOfField]
    cases type.unsupportedInField? with
    | some found => exact .stop _ found
    | none =>
      refine .pass _ ?_
      cases hn : type.isNested
      · exact .pure ()
      · exact .spell fieldName (ih _ hf _ _)
  | arrayOf element ih =>
    rw [collect, visits]
    exact ih _ _
  | other type hrecord harray =>
    rw [collect.eq_3 _ _ _ _ hrecord harray, visits.eq_3 _ _ _ _ hrecord harray]
    exact .pure ()

/-- What is visited below a value: its records, and the fields of these. -/
inductive ValueType.Visited (type : ValueType) : Visit → Prop
  | record {b : Below} (name : String) : b ∈ type.records → Visited type (.register name b.fields)
  | type {b : Below} {f : Field} (place : Place) :
      b ∈ type.records → f ∈ b.fields → Visited type (.check place f.type.unsupportedInField?)
  | name {b : Below} {f : Field} : b ∈ type.records → f ∈ b.fields → Visited type (.spell f.name)

/-- What is visited below a part of a value is visited below the value. -/
theorem ValueType.Visited.outer {inner outer : ValueType} {v : Visit} (h : inner.Visited v)
    (hrecords : ∀ b ∈ inner.records, ∃ c ∈ outer.records, c.fields = b.fields) : outer.Visited v := by
  cases h with
  | record name hb =>
    obtain ⟨c, hc, hfields⟩ := hrecords _ hb
    rw [← hfields]
    exact .record name hc
  | type place hb hf =>
    obtain ⟨c, hc, hfields⟩ := hrecords _ hb
    exact .type place hc (hfields ▸ hf)
  | name hb hf =>
    obtain ⟨c, hc, hfields⟩ := hrecords _ hb
    exact .name hc (hfields ▸ hf)

theorem ValueType.visited_of_mem {site : Site} {name path : String} {type : ValueType} {v : Visit}
    (h : v ∈ visits site name path type) : type.Visited v := by
  induction type using ValueType.nestingInduction generalizing name path with
  | record fields ih =>
    have hhere : (⟨[], fields⟩ : Below) ∈ (ValueType.record fields).records := by
      rw [records_record]
      exact List.mem_cons_self ..
    rw [visits, visitsOfFields_eq] at h
    rcases List.mem_cons.mp h with rfl | h
    · exact .record name hhere
    obtain ⟨⟨fieldName, type, nullable⟩, hf, h⟩ := List.mem_flatMap.mp h
    rw [visitsOfField] at h
    rcases List.mem_cons.mp h with rfl | h
    · exact .type _ hhere hf
    split at h
    · rcases List.mem_cons.mp h with rfl | h
      · exact .name hhere hf
      · refine (ih _ hf h).outer fun b hb => ⟨b.under (.field fieldName), ?_, rfl⟩
        rw [records_record]
        exact List.mem_cons_of_mem _ (List.mem_flatMap.mpr ⟨_, hf, List.mem_map_of_mem hb⟩)
    · cases h
  | arrayOf element ih =>
    rw [visits] at h
    exact (ih h).outer fun b hb => ⟨b.under .element, List.mem_map_of_mem hb, rfl⟩
  | other type hrecord harray =>
    rw [visits.eq_3 _ _ _ _ hrecord harray] at h
    cases h

end NativeHeader

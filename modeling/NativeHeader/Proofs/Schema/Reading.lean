import Mathlib.Data.List.Forall2
import NativeHeader.Schema.Loader

/-! How the reading of a document ends.

The loader reads a value in one of three ways: it gives what the value describes, it finds
a defect in the shape of the document, or it stalls, on a value that it goes through
although there is nothing to go through. `Reads` says of a reading that it gives exactly
what is described and stalls exactly where it has to. It is kept by sequencing, so what is
said of the parts of a value follows the order in which the loader looks at them. -/
namespace NativeHeader

/-! ### Readings -/

/-- Some item is bad, and all before it are good. -/
def Stops {α : Type} (good bad : α → Prop) (items : List α) : Prop :=
  ∃ before item after, items = before ++ item :: after ∧ (∀ a ∈ before, good a) ∧ bad item

theorem stops_nil {α : Type} {good bad : α → Prop} : ¬ Stops good bad [] := by
  rintro ⟨before, item, after, h, _⟩
  cases before <;> cases h

theorem stops_cons {α : Type} {good bad : α → Prop} {a : α} {rest : List α} :
    Stops good bad (a :: rest) ↔ bad a ∨ good a ∧ Stops good bad rest := by
  constructor
  · rintro ⟨before, item, after, h, hgood, hbad⟩
    cases before with
    | nil =>
      cases h
      exact Or.inl hbad
    | cons b before =>
      cases h
      obtain ⟨hb, hbefore⟩ := List.forall_mem_cons.mp hgood
      exact Or.inr ⟨hb, before, item, after, rfl, hbefore, hbad⟩
  · rintro (hbad | ⟨ha, before, item, after, rfl, hgood, hbad⟩)
    · exact ⟨[], a, rest, rfl, List.forall_mem_nil _, hbad⟩
    · exact ⟨a :: before, item, after, rfl, List.forall_mem_cons.mpr ⟨ha, hgood⟩, hbad⟩

section
variable {α β : Type}

/-- How a reading ended: with something that is described, at a defect of the document, or
stalled where it has to be. -/
inductive Outcome (describes : α → Prop) (stalls : Prop) : Except Fault α → Prop
  | ok {a : α} : describes a → Outcome describes stalls (.ok a)
  | shape (e : ShapeError) : Outcome describes stalls (.error (.shape e))
  | stalled (kind : Json.Kind) : stalls → Outcome describes stalls (.error (.notIterable kind))

theorem Outcome.mono {describes describes' : α → Prop} {stalls stalls' : Prop} {x : Except Fault α}
    (h : Outcome describes stalls x) (hd : ∀ a, describes a → describes' a) (hs : stalls → stalls') :
    Outcome describes' stalls' x := by
  cases h with
  | ok ha => exact .ok (hd _ ha)
  | shape e => exact .shape e
  | stalled kind h => exact .stalled kind (hs h)

/-- The reading gives what is described, and nothing else, and it stalls where it has to,
and nowhere else. -/
structure Reads (x : Except Fault α) (describes : α → Prop) (stalls : Prop) : Prop where
  outcome : Outcome describes stalls x
  gives : ∀ a, describes a → x = .ok a
  stalls : stalls → ∃ kind, x = .error (.notIterable kind)

namespace Reads
variable {x : Except Fault α} {f : α → Except Fault β} {d d' : α → Prop} {s s' : Prop}

theorem congr (h : Reads x d s) (hd : ∀ a, d a ↔ d' a) (hs : s ↔ s') : Reads x d' s' := by
  have hd : d = d' := funext fun a => propext (hd a)
  rwa [← hd, ← hs]

theorem ok_iff (h : Reads x d s) (a : α) : x = .ok a ↔ d a := by
  refine ⟨fun hx => ?_, h.gives a⟩
  have houtcome := h.outcome
  rw [hx] at houtcome
  cases houtcome with
  | ok hd => exact hd

theorem stalls_iff (h : Reads x d s) : (∃ kind, x = .error (.notIterable kind)) ↔ s := by
  refine ⟨fun ⟨kind, hx⟩ => ?_, h.stalls⟩
  have houtcome := h.outcome
  rw [hx] at houtcome
  cases houtcome with
  | stalled _ hs => exact hs

theorem pure (a : α) : Reads (.ok a) (a = ·) False :=
  ⟨.ok rfl, fun _ h => congrArg _ h, False.elim⟩

theorem shape (e : ShapeError) (hd : ∀ a, ¬ d a) (hs : ¬ s) : Reads (.error (.shape e)) d s :=
  ⟨.shape e, fun a h => (hd a h).elim, fun h => (hs h).elim⟩

theorem stalled (kind : Json.Kind) (hd : ∀ a, ¬ d a) (hs : s) : Reads (.error (.notIterable kind)) d s :=
  ⟨.stalled kind hs, fun a h => (hd a h).elim, fun _ => ⟨kind, rfl⟩⟩

theorem bind {d' : α → β → Prop} {s' : α → Prop} (hx : Reads x d s)
    (hf : ∀ a, d a → Reads (f a) (d' a) (s' a)) :
    Reads (x >>= f) (fun b => ∃ a, d a ∧ d' a b) (s ∨ ∃ a, d a ∧ s' a) := by
  refine ⟨?_, fun b => ?_, ?_⟩
  · obtain ⟨houtcome, _, _⟩ := hx
    cases houtcome with
    | @ok a ha =>
      have hfa := (hf a ha).outcome
      show Outcome _ _ (f a)
      generalize f a = y at hfa ⊢
      cases hfa with
      | ok hb => exact .ok ⟨a, ha, hb⟩
      | shape e => exact .shape e
      | stalled kind hs => exact .stalled kind (Or.inr ⟨a, ha, hs⟩)
    | shape e => exact .shape e
    | stalled kind hs => exact .stalled kind (Or.inl hs)
  · rintro ⟨a, ha, hb⟩
    rw [hx.gives a ha]
    exact (hf a ha).gives b hb
  · rintro (hs | ⟨a, ha, hs⟩)
    · obtain ⟨kind, h⟩ := hx.stalls hs
      rw [h]
      exact ⟨kind, rfl⟩
    · rw [hx.gives a ha]
      exact (hf a ha).stalls hs

/-- What is read becomes a part of something else. -/
theorem map {g : α → β} {d' : β → Prop} (hx : Reads x d s)
    (hd : ∀ b, (∃ a, d a ∧ g a = b) ↔ d' b) : Reads (x >>= fun a => .ok (g a)) d' s :=
  (hx.bind fun a _ => pure (g a)).congr hd (by simp)

/-- Reading one item after the other. -/
theorem cons {y : Except Fault (List α)} {ds : List α → Prop} (hx : Reads x d s)
    (hy : Reads y ds s') :
    Reads (do return (← x) :: (← y)) (fun l => ∃ a rest, d a ∧ ds rest ∧ l = a :: rest)
      (s ∨ (∃ a, d a) ∧ s') := by
  refine (hx.bind fun a _ => hy.bind fun rest _ => pure (a :: rest)).congr (fun l => ?_) ?_
  · constructor
    · rintro ⟨a, ha, rest, hrest, hl⟩
      exact ⟨a, rest, ha, hrest, hl.symm⟩
    · rintro ⟨a, rest, ha, hrest, hl⟩
      exact ⟨a, ha, rest, hrest, hl.symm⟩
  · simp

end Reads

end

namespace Loader

/-! ### Keys -/

theorem require_eq {data value : Json} {key location : String} (h : data.field? key = some value) :
    require data key location = .ok ⟨value, Json.sizeOf_field?_lt h⟩ := by
  unfold require
  split
  case h_1 found hfound =>
    rw [h] at hfound
    cases hfound
    rfl
  case h_2 hnone =>
    rw [h] at hnone
    cases hnone

theorem require_missing {data : Json} {key : String} (location : String)
    (h : data.field? key = none) : ∃ e, require data key location = .error (.shape e) := by
  unfold require
  split
  case h_1 value hvalue =>
    rw [h] at hvalue
    cases hvalue
  case h_2 => split <;> exact ⟨_, rfl⟩

theorem require_reads (data : Json) (key location : String) :
    Reads (require data key location) (fun value => data.field? key = some value.1) False := by
  cases h : data.field? key with
  | some value =>
    rw [require_eq h]
    refine (Reads.pure _).congr (fun a => ?_) Iff.rfl
    rw [Option.some_inj, Subtype.ext_iff]
  | none =>
    obtain ⟨e, herror⟩ := require_missing location h
    rw [herror]
    exact .shape e (fun a ha => by cases ha) id

/-- What is read under a key. -/
theorem require_bind_reads {β : Type} {data : Json} (key location : String)
    {f : {value : Json // sizeOf value < sizeOf data} → Except Fault β} {d : Json → β → Prop}
    {s : Json → Prop}
    (hf : ∀ value (h : data.field? key = some value),
      Reads (f ⟨value, Json.sizeOf_field?_lt h⟩) (d value) (s value)) :
    Reads (require data key location >>= f) (fun b => ∃ value, data.field? key = some value ∧ d value b)
      (∃ value, data.field? key = some value ∧ s value) := by
  refine ((require_reads data key location).bind fun value h => hf value.1 h).congr
    (fun b => ?_) ?_
  · constructor
    · rintro ⟨value, h, hb⟩
      exact ⟨value.1, h, hb⟩
    · rintro ⟨value, h, hb⟩
      exact ⟨⟨value, Json.sizeOf_field?_lt h⟩, h, hb⟩
  · constructor
    · rintro (h | ⟨value, h, hs⟩)
      · exact h.elim
      · exact ⟨value.1, h, hs⟩
    · rintro ⟨value, h, hs⟩
      exact Or.inr ⟨⟨value, Json.sizeOf_field?_lt h⟩, h, hs⟩

theorem requireList_reads (data : Json) (key location : String) :
    Reads (requireList data key location) (fun items => data.field? key = some (.arr items)) False := by
  cases h : data.field? key with
  | none =>
    obtain ⟨e, he⟩ := require_missing location h
    rw [requireList, he]
    exact .shape e (fun items hitems => by cases hitems) id
  | some value =>
    rw [requireList, require_eq h]
    cases value with
    | arr items => exact (Reads.pure items).congr (fun a => by simp) Iff.rfl
    | _ => exact .shape _ (fun items hitems => by cases hitems) id

theorem requireList_bind_reads {β : Type} {data : Json} (key location : String)
    {f : List Json → Except Fault β} {d : List Json → β → Prop} {s : List Json → Prop}
    (hf : ∀ items, Reads (f items) (d items) (s items)) :
    Reads (requireList data key location >>= f)
      (fun b => ∃ items, data.field? key = some (.arr items) ∧ d items b)
      (∃ items, data.field? key = some (.arr items) ∧ s items) :=
  ((requireList_reads data key location).bind fun items _ => hf items).congr (fun _ => Iff.rfl)
    (by simp)

/-! ### Lists -/

/-- Reads the items of a list, from the one with the given index on, each at its own place. -/
def eachOf {α : Type} (read : String → Json → Except Fault α) (list location : String) :
    (index : Nat) → List Json → Except Fault (List α)
  | _, [] => return []
  | index, data :: rest => do
    return (← read (itemOf location list index) data) :: (← eachOf read list location (index + 1) rest)

theorem fields_eq (location : String) (index : Nat) (items : List Json) :
    fields location index items = eachOf field "properties" location index items := by
  induction items generalizing index with
  | nil => rw [fields, eachOf]
  | cons data rest ih => rw [fields, eachOf, ih]

theorem parameters_eq (location : String) (index : Nat) (items : List Json) :
    parameters location index items = eachOf parameter "params" location index items := by
  induction items generalizing index with
  | nil => rfl
  | cons data rest ih => rw [parameters, eachOf, ih]

theorem methods_eq (location : String) (index : Nat) (items : List Json) :
    methods location index items = eachOf method "properties" location index items := by
  induction items generalizing index with
  | nil => rfl
  | cons data rest ih => rw [methods, eachOf, ih]

theorem eachOf_reads {α : Type} {read : String → Json → Except Fault α} {d : Json → α → Prop}
    {s : Json → Prop} {good : Json → Prop} {items : List Json}
    (hread : ∀ item ∈ items, ∀ location, Reads (read location item) (d item) (s item))
    (hgood : ∀ item ∈ items, (good item ↔ ∃ a, d item a)) (list location : String) (index : Nat) :
    Reads (eachOf read list location index items) (List.Forall₂ d items) (Stops good s items) := by
  induction items generalizing index with
  | nil =>
    refine (Reads.pure []).congr (fun l => ?_) (iff_of_false id stops_nil)
    rw [List.forall₂_nil_left_iff, eq_comm]
  | cons item rest ih =>
    obtain ⟨hitem, hrest⟩ := List.forall_mem_cons.mp hread
    obtain ⟨hgooditem, hgoodrest⟩ := List.forall_mem_cons.mp hgood
    rw [eachOf]
    refine ((hitem _).cons (ih hrest hgoodrest (index + 1))).congr (fun l => ?_) ?_
    · rw [List.forall₂_cons_left_iff]
    · rw [stops_cons, hgooditem]

theorem mapM_reads {α : Type} {read : String × Json → Except Fault α}
    {d : String × Json → α → Prop} {s good : String × Json → Prop}
    (hread : ∀ entry, Reads (read entry) (d entry) (s entry))
    (hgood : ∀ entry, good entry ↔ ∃ a, d entry a) (entries : List (String × Json)) :
    Reads (entries.mapM read) (List.Forall₂ d entries) (Stops good s entries) := by
  induction entries with
  | nil =>
    refine (Reads.pure []).congr (fun l => ?_) (iff_of_false id stops_nil)
    rw [List.forall₂_nil_left_iff, eq_comm]
  | cons entry rest ih =>
    rw [List.mapM_cons]
    refine ((hread entry).cons ih).congr (fun l => ?_) ?_
    · rw [List.forall₂_cons_left_iff]
    · rw [stops_cons, hgood]

end Loader

end NativeHeader

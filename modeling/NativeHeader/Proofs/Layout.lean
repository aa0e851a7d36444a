import NativeHeader.Naming

/-! Texts that declare structs and use them.

Such a text is laid out as a list of stretches: the beginning of the declaration of a
struct, a struct used as a type, and the rest. What is written is the text
(`Layout.written`), and where a struct is declared and where it is used can be read off
the list. In a layout that is `Ahead` structs are used before they are declared. -/
namespace NativeHeader

inductive Stretch where
  | text (s : String)
  /-- The beginning of the declaration of a struct. -/
  | declares (name : String)
  /-- A struct used as a type. -/
  | refers (module name : String)
  deriving DecidableEq, Repr

namespace Stretch

def written : Stretch → String
  | .text s => s
  | .declares name => "struct " ++ Naming.spec name ++ " \x7b"
  | .refers module name => Naming.reference module name

def declared? : Stretch → Option String
  | .declares name => some name
  | _ => none

def referred? : Stretch → Option (String × String)
  | .refers module name => some (module, name)
  | _ => none

end Stretch

/-- Stretches, one after the other. -/
abbrev Layout := List Stretch

namespace Layout

def written (l : Layout) : String := String.join (l.map Stretch.written)

/-- The structs declared in a layout. -/
def declared (l : Layout) : List String := l.filterMap Stretch.declared?

/-- The structs used in a layout, with their modules. -/
def referred (l : Layout) : List (String × String) := l.filterMap Stretch.referred?

/-- Layouts with a text between two of them. -/
def joined (between : String) : List Layout → Layout
  | [] => []
  | [l] => l
  | l :: next :: rest => l ++ .text between :: joined between (next :: rest)

/-- Lines without structs. -/
def plain (lines : List String) : List Layout := lines.map fun line => [.text line]

section
variable (a b : Layout) (s : String) (ls : List Layout)

@[simp] theorem written_nil : written [] = "" := rfl

@[simp] theorem written_cons (first : Stretch) : written (first :: a) = first.written ++ written a := by
  simp [written]

theorem written_one (only : Stretch) : written [only] = only.written := by
  simp [written]

@[simp] theorem written_append : written (a ++ b) = written a ++ written b := by
  simp [written]

@[simp] theorem declared_nil : declared [] = [] := rfl

@[simp] theorem declared_text : declared (.text s :: a) = declared a := rfl

@[simp] theorem declared_declares : declared (.declares s :: a) = s :: declared a := rfl

@[simp] theorem declared_refers (module : String) : declared (.refers module s :: a) = declared a := rfl

@[simp] theorem declared_append : declared (a ++ b) = declared a ++ declared b :=
  List.filterMap_append ..

@[simp] theorem referred_nil : referred [] = [] := rfl

@[simp] theorem referred_text : referred (.text s :: a) = referred a := rfl

@[simp] theorem referred_declares : referred (.declares s :: a) = referred a := rfl

@[simp] theorem referred_refers (module : String) :
    referred (.refers module s :: a) = (module, s) :: referred a := rfl

@[simp] theorem referred_append : referred (a ++ b) = referred a ++ referred b :=
  List.filterMap_append ..

theorem written_joined : written (joined s ls) = s.intercalate (ls.map written) := by
  induction ls with
  | nil => simp [joined]
  | cons l rest ih =>
    cases rest with
    | nil => simp [joined]
    | cons next rest =>
      rw [joined, written_append, written_cons, ih]
      simp [Stretch.written, String.append_assoc]

theorem declared_joined : declared (joined s ls) = ls.flatMap declared := by
  induction ls with
  | nil => rfl
  | cons l rest ih =>
    cases rest with
    | nil => simp [joined]
    | cons next rest => rw [joined, declared_append, declared_text, ih, List.flatMap_cons (x := l)]

theorem referred_joined : referred (joined s ls) = ls.flatMap referred := by
  induction ls with
  | nil => rfl
  | cons l rest ih =>
    cases rest with
    | nil => simp [joined]
    | cons next rest => rw [joined, referred_append, referred_text, ih, List.flatMap_cons (x := l)]

end

theorem written_plain (lines : List String) : (plain lines).map written = lines := by
  simp [plain, Stretch.written, Function.comp_def]

theorem declared_plain (lines : List String) : (plain lines).flatMap declared = [] := by
  simp [plain, List.flatMap_map]

theorem referred_plain (lines : List String) : (plain lines).flatMap referred = [] := by
  simp [plain, List.flatMap_map]

theorem mem_declared {l : Layout} {name : String} : name ∈ l.declared ↔ .declares name ∈ l := by
  unfold declared
  rw [List.mem_filterMap]
  constructor
  · rintro ⟨stretch, hmem, h⟩
    cases stretch <;> cases h
    exact hmem
  · intro h
    exact ⟨_, h, rfl⟩

theorem mem_referred {l : Layout} {module name : String} :
    (module, name) ∈ l.referred ↔ .refers module name ∈ l := by
  unfold referred
  rw [List.mem_filterMap]
  constructor
  · rintro ⟨stretch, hmem, h⟩
    cases stretch <;> cases h
    exact hmem
  · intro h
    exact ⟨_, h, rfl⟩

/-! ### Used before it is declared -/

/-- Every struct used in the layout is one of the module, and it is declared further on in
the layout or later. -/
def Ahead (module : String) (later : List String) (l : Layout) : Prop :=
  ∀ before owner name after, l = before ++ .refers owner name :: after →
    owner = module ∧ name ∈ declared after ++ later

section
variable {module : String} {later : List String} {a b : Layout}

/-- A layout whose structs are all declared later. -/
theorem Ahead.of_referred (h : ∀ use ∈ a.referred, use.1 = module ∧ use.2 ∈ later) :
    Ahead module later a := by
  intro before owner name after ha
  have huse : (owner, name) ∈ a.referred := by
    rw [mem_referred, ha]
    exact List.mem_append_right before (List.mem_cons_self ..)
  exact ⟨(h _ huse).1, List.mem_append_right _ (h _ huse).2⟩

theorem Ahead.append (ha : Ahead module (declared b ++ later) a) (hb : Ahead module later b) :
    Ahead module later (a ++ b) := by
  intro before owner name after h
  rcases List.append_eq_append_iff.mp h with ⟨rest, rfl, hrest⟩ | ⟨rest, hrest, hafter⟩
  · exact hb rest owner name after hrest
  · cases rest with
    | nil => exact hb [] owner name after hafter.symm
    | cons first rest =>
      rw [List.cons_append] at hafter
      obtain ⟨rfl, rfl⟩ := List.cons_eq_cons.mp hafter
      rw [declared_append, List.append_assoc]
      exact ha before owner name rest hrest

/-- A layout before others may use what these declare. -/
theorem Ahead.joined_cons {between : String} {ls : List Layout}
    (ha : ∀ use ∈ a.referred, use.1 = module ∧ use.2 ∈ ls.flatMap declared)
    (hls : Ahead module [] (joined between ls)) : Ahead module [] (joined between (a :: ls)) := by
  cases ls with
  | nil => exact .of_referred ha
  | cons next rest =>
    rw [← declared_joined between] at ha
    refine Ahead.append (.of_referred ?_) (Ahead.append (a := [.text between]) (.of_referred ?_) hls)
    · rw [List.append_nil]
      exact ha
    · intro use huse
      cases huse

end

end Layout

end NativeHeader

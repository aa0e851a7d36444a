import Mathlib.Data.List.Basic
import NativeHeader.Text.Lines

/-! The lines of a text.

A text is cut at its line feeds (`lines`), so texts put together one below the other have the
lines of all of them (`lines_flatMap`). Of a longer text only some lines matter: those a test
picks. If the test passes over empty lines, then what it picks from such texts is what it
picks from each (`filter_unlines`), and with empty lines between them it is the same
(`filter_blocks`).

The tests here ask how a line begins. Of two beginnings that are `Apart` neither is the
beginning of the other, so no line that begins in one way begins in the other.

Line ends are unified piece by piece, as long as no piece ends inside one
(`unifyLineEnds_append`). -/
namespace NativeHeader.Text

/-- What stands between the line feeds of a text. -/
def lines (s : String) : List String := (s.toList.splitOn '\n').map String.ofList

/-- A text without line feeds. -/
def OneLine (s : String) : Prop := '\n' ∉ s.toList

instance (s : String) : Decidable (OneLine s) := inferInstanceAs (Decidable (¬ _))

section
variable {a b : String} {ls : List String}

@[simp] theorem oneLine_append : OneLine (a ++ b) ↔ OneLine a ∧ OneLine b := by
  simp [OneLine, not_or]

theorem lines_of_oneLine (h : OneLine a) : lines a = [a] := by
  simp [lines, List.splitOn_eq_singleton h]

theorem lines_append (a b : String) : lines (a ++ "\n" ++ b) = lines a ++ lines b := by
  have htext : (a ++ "\n" ++ b).toList = a.toList ++ '\n' :: b.toList := by simp
  rw [lines, htext, List.splitOn,
    List.splitOnP_append_cons a.toList b.toList (p := (· == '\n')) rfl, List.map_append]
  rfl

theorem unlines_singleton (l : String) : unlines [l] = l := String.intercalate_singleton

theorem unlines_cons_cons (l next : String) (rest : List String) :
    unlines (l :: next :: rest) = l ++ "\n" ++ unlines (next :: rest) := String.intercalate_cons_cons

theorem unlines_cons {l : String} (h : ls ≠ []) : unlines (l :: ls) = l ++ "\n" ++ unlines ls := by
  cases ls with
  | nil => exact absurd rfl h
  | cons next rest => exact unlines_cons_cons l next rest

/-- The last line of one text and the first of another become one line. -/
theorem unlines_append_unlines (above below : List String) (x y : String) :
    unlines (above ++ [x]) ++ unlines (y :: below) = unlines (above ++ (x ++ y) :: below) := by
  induction above with
  | nil =>
    cases below with
    | nil => simp only [List.nil_append, unlines_singleton]
    | cons next rest =>
      simp only [List.nil_append, unlines_singleton, unlines_cons_cons, String.append_assoc]
  | cons first rest ih =>
    have habove : rest ++ [x] ≠ [] := by simp
    have hjoined : rest ++ (x ++ y) :: below ≠ [] := by simp
    rw [List.cons_append, List.cons_append, unlines_cons habove, unlines_cons hjoined,
      String.append_assoc, ih]

/-- Texts put together one below the other have the lines of all of them. -/
theorem lines_flatMap (h : ls ≠ []) : lines (unlines ls) = ls.flatMap lines := by
  induction ls with
  | nil => exact absurd rfl h
  | cons l rest ih =>
    by_cases hrest : rest = []
    · simp [hrest, unlines]
    · rw [unlines_cons hrest, lines_append, ih hrest, List.flatMap_cons]

section
variable {p : String → Bool} (hp : p "" = false)
include hp

theorem filter_lines_empty : (lines "").filter p = [] := by
  rw [lines_of_oneLine (by decide)]
  simp [hp]

/-- What a test picks from texts that stand one below the other. -/
theorem filter_unlines (ls : List String) :
    (lines (unlines ls)).filter p = ls.flatMap fun l => (lines l).filter p := by
  by_cases h : ls = []
  · rw [h]
    exact filter_lines_empty hp
  · rw [lines_flatMap h, List.filter_flatMap]

/-- What a test picks from texts with empty lines between them. -/
theorem filter_blocks (ls : List String) :
    (lines ("\n\n".intercalate ls)).filter p = ls.flatMap fun l => (lines l).filter p := by
  induction ls with
  | nil => exact filter_lines_empty hp
  | cons l rest ih =>
    cases rest with
    | nil => simp
    | cons next rest =>
      have hblank : "\n\n".intercalate (l :: next :: rest) =
          l ++ "\n" ++ "" ++ "\n" ++ "\n\n".intercalate (next :: rest) := by
        rw [String.intercalate_cons_cons]
        simp [String.append_assoc]
      rw [hblank, lines_append, lines_append, List.filter_append, List.filter_append,
        filter_lines_empty hp, ih, List.append_nil, List.flatMap_cons (x := l)]

end

/-! ### How a line begins -/

/-- Whether a text begins with another. -/
def begins (start s : String) : Bool := start.toList.isPrefixOf s.toList

/-- Neither text is the beginning of the other. -/
def Apart (a b : String) : Prop := begins a b = false ∧ begins b a = false

instance (a b : String) : Decidable (Apart a b) := inferInstanceAs (Decidable (_ ∧ _))

theorem begins_iff : begins a b = true ↔ a.toList <+: b.toList := List.isPrefixOf_iff_prefix

theorem begins_append (a b : String) : begins a (a ++ b) = true := by
  rw [begins_iff, String.toList_append]
  exact List.prefix_append ..

/-- What begins in one way does not begin in another. -/
theorem Apart.begins_append {start lead : String} (h : Apart start lead) (rest : String) :
    begins start (lead ++ rest) = false := by
  rw [Bool.eq_false_iff]
  intro hbegins
  rw [begins_iff, String.toList_append] at hbegins
  rcases List.prefix_or_prefix_of_prefix hbegins (List.prefix_append ..) with hp | hp
  · rw [← begins_iff, h.1] at hp
    cases hp
  · rw [← begins_iff, h.2] at hp
    cases hp

end

/-! ### Texts that are spelled out

A literal is a text whose characters are given, so what is asked of it is asked of these. -/

theorem oneLine_ofList {chars : List Char} (h : '\n' ∉ chars) : OneLine (String.ofList chars) := by
  rwa [OneLine, String.toList_ofList]

theorem begins_ofList (start chars : List Char) :
    begins (String.ofList start) (String.ofList chars) = start.isPrefixOf chars := by
  rw [begins, String.toList_ofList, String.toList_ofList]

/-! ### Unified line ends -/

theorem mem_unifyLineEnds {c : Char} {s : List Char} (h : c ∈ unifyLineEnds s) :
    c = '\n' ∨ c ∈ s := by
  fun_induction unifyLineEnds s with
  | case1 => exact absurd h List.not_mem_nil
  | case2 rest ih =>
    rcases List.mem_cons.mp h with rfl | h
    · exact Or.inl rfl
    · exact (ih h).imp_right fun h => .tail _ (.tail _ h)
  | case3 rest hrest ih =>
    rcases List.mem_cons.mp h with rfl | h
    · exact Or.inl rfl
    · exact (ih h).imp_right (.tail _)
  | case4 d rest _ _ ih =>
    rcases List.mem_cons.mp h with rfl | h
    · exact Or.inr (.head _)
    · exact (ih h).imp_right (.tail _)

/-- Texts without carriage returns stay what they are. -/
theorem unifyLineEnds_of_not_mem {s : List Char} (h : '\r' ∉ s) : unifyLineEnds s = s := by
  fun_induction unifyLineEnds s with
  | case1 => rfl
  | case2 | case3 => exact absurd (List.mem_cons_self ..) h
  | case4 c rest _ _ ih => rw [ih fun hmem => h (.tail _ hmem)]

theorem unifyLineEnds_cons {c : Char} (hreturn : c ≠ '\r') (s : List Char) :
    unifyLineEnds (c :: s) = c :: unifyLineEnds s :=
  unifyLineEnds.eq_4 _ _ (fun _ hc _ => hreturn hc) hreturn

/-- A text is cut anywhere but inside a line end. -/
theorem unifyLineEnds_append {a b : List Char} (h : a.getLast? = some '\r' → b.head? ≠ some '\n') :
    unifyLineEnds (a ++ b) = unifyLineEnds a ++ unifyLineEnds b := by
  have hlast {c : Char} {l : List Char} (hl : l.getLast? = some '\r') :
      (c :: l).getLast? = some '\r' := by
    rw [List.getLast?_cons, hl]
    rfl
  fun_induction unifyLineEnds a with
  | case1 => rfl
  | case2 rest ih =>
    rw [List.cons_append, List.cons_append, unifyLineEnds, ih fun hl => h (hlast (hlast hl)),
      List.cons_append]
  | case3 rest hrest ih =>
    have hcut : ∀ after, rest ++ b = '\n' :: after → False := by
      intro after hafter
      cases rest with
      | nil => exact h rfl (by rw [← List.nil_append b, hafter, List.head?_cons])
      | cons d rest =>
        obtain ⟨rfl, _⟩ := List.cons.inj hafter
        exact hrest rest rfl
    rw [List.cons_append, unifyLineEnds.eq_3 _ hcut, ih fun hl => h (hlast hl), List.cons_append]
  | case4 c rest _ hreturn ih =>
    rw [List.cons_append, unifyLineEnds_cons hreturn, ih fun hl => h (hlast hl), List.cons_append]

/-- A character that is no part of a line end keeps what is before it from what is after it. -/
theorem unifyLineEnds_around {c : Char} (hreturn : c ≠ '\r') (hfeed : c ≠ '\n') (a b : List Char) :
    unifyLineEnds (a ++ c :: b) = unifyLineEnds a ++ c :: unifyLineEnds b := by
  have hhead : (c :: b).head? ≠ some '\n' := fun h => hfeed (Option.some.inj h)
  rw [unifyLineEnds_append fun _ => hhead, unifyLineEnds_cons hreturn]

end NativeHeader.Text

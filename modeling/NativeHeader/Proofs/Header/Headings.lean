import NativeHeader.Proofs.Text.Lines
import NativeHeader.Struct.Collection
import NativeHeader.Naming

/-! The headings of a header.

Five kinds of lines of a header matter: those that begin a protocol, a class or a struct,
and the two that begin the category of a struct (`Heading`). They are told by how they
begin: each kind begins in a way of its own, so the headings of some kinds can be picked
from all of them (`linesFrom_of_headings`). A line that begins differently is no heading,
whatever follows (`Plain`), and in lines below each other the headings are those of the
single lines. -/
namespace NativeHeader

open Text

/-! ### Headings -/

inductive Heading where
  | protocol (module : String)
  | moduleClass (module : String)
  | struct (name : String)
  | category (module name : String)
  | converter (module name : String)

namespace Heading

def protocolLead : String := "@protocol "

def classLead : String := "    class JSI_EXPORT "

def structLead : String := "    struct Spec"

def categoryLead : String := "@interface RCTCxxConvert ("

def converterLead : String := "+ (RCTManagedPointer *)JS_"

/-- How headings begin. -/
def leads : List String := [protocolLead, classLead, structLead, categoryLead, converterLead]

def lead : Heading → String
  | .protocol _ => protocolLead
  | .moduleClass _ => classLead
  | .struct _ => structLead
  | .category _ _ => categoryLead
  | .converter _ _ => converterLead

/-- The name that a struct has among all structs of a header. -/
def mangled (module name : String) : String :=
  Naming.nativeModule module ++ "_" ++ Naming.spec name

def rest : Heading → String
  | .protocol module => Naming.nativeModule module ++ "Spec <RCTBridgeModule, RCTTurboModule>"
  | .moduleClass module => Naming.nativeModule module ++ "SpecJSI : public ObjCTurboModule \x7b"
  | .struct name => name ++ " \x7b"
  | .category module name => mangled module name ++ ")"
  | .converter module name => mangled module name ++ ":(id)json;"

def line (h : Heading) : String := h.lead ++ h.rest

end Heading

/-- The headings of a struct. -/
def Struct.headings (module : String) (s : Struct) : List Heading :=
  [.struct s.name.display, .category module s.name.display, .converter module s.name.display]

/-- The lines of a text that begin in one of these ways. -/
def linesFrom (starts : List String) (text : String) : List String :=
  (lines text).filter fun line => starts.any (begins · line)

open Heading

def isHeading (line : String) : Bool := leads.any (begins · line)

theorem leads_apart : ∀ a ∈ leads, ∀ b ∈ leads, a ≠ b → Apart a b := by decide

theorem Heading.lead_mem (h : Heading) : h.lead ∈ leads := by
  cases h <;> simp [leads, lead]

theorem Heading.oneLine {h : Heading} (hrest : OneLine h.rest) : OneLine h.line :=
  oneLine_append.mpr ⟨(by decide : ∀ lead ∈ leads, OneLine lead) h.lead h.lead_mem, hrest⟩

/-- A heading begins in the way of its kind and in no other. -/
theorem begins_line {start : String} (hstart : start ∈ leads) (h : Heading) :
    begins start h.line = true ↔ start = h.lead := by
  constructor
  · intro hbegins
    by_contra hne
    rw [Heading.line, (leads_apart start hstart h.lead h.lead_mem hne).begins_append] at hbegins
    cases hbegins
  · rintro rfl
    exact begins_append h.lead h.rest

theorem isHeading_line (h : Heading) : isHeading h.line = true :=
  List.any_eq_true.mpr ⟨h.lead, h.lead_mem, begins_append h.lead h.rest⟩

/-- Whatever follows, this is not the beginning of a heading. -/
def Plain (start : String) : Prop := ∀ rest, isHeading (start ++ rest) = false

theorem plain_of_apart {start : String} (h : ∀ lead ∈ leads, Apart lead start) : Plain start :=
  fun rest => List.any_eq_false.mpr fun lead hlead => by simp [(h lead hlead).begins_append]

theorem Plain.append {start : String} (h : Plain start) (more : String) : Plain (start ++ more) := by
  intro rest
  rw [String.append_assoc]
  exact h _

/-- Headings of some kinds are picked from all headings. -/
theorem linesFrom_of_headings {starts : List String} (hstarts : ∀ start ∈ starts, start ∈ leads)
    {text : String} {headings : List Heading}
    (h : linesFrom leads text = headings.map Heading.line) :
    linesFrom starts text = (headings.filter (·.lead ∈ starts)).map Heading.line := by
  have hpick : linesFrom starts text =
      (linesFrom leads text).filter fun line => starts.any (begins · line) := by
    rw [linesFrom, linesFrom, List.filter_filter]
    refine List.filter_congr fun line _ => ?_
    rw [Bool.eq_self_and, List.any_eq_true]
    rintro ⟨start, hstart, hbegins⟩
    exact List.any_eq_true.mpr ⟨start, hstarts start hstart, hbegins⟩
  have hkind (h : Heading) : starts.any (begins · h.line) = decide (h.lead ∈ starts) := by
    rw [Bool.eq_iff_iff, List.any_eq_true, decide_eq_true_iff]
    constructor
    · rintro ⟨start, hstart, hbegins⟩
      rwa [← (begins_line (hstarts start hstart) h).mp hbegins]
    · exact fun hmem => ⟨h.lead, hmem, begins_append h.lead h.rest⟩
  rw [hpick, h, List.filter_map]
  exact congrArg _ (List.filter_congr fun h _ => hkind h)

/-! ### Lines that are spelled out -/

/-- How headings begin, character by character. -/
def leadChars : List (List Char) :=
  [['@', 'p', 'r', 'o', 't', 'o', 'c', 'o', 'l', ' '],
   [' ', ' ', ' ', ' ', 'c', 'l', 'a', 's', 's', ' ', 'J', 'S', 'I', '_', 'E', 'X', 'P', 'O', 'R', 'T',
    ' '],
   [' ', ' ', ' ', ' ', 's', 't', 'r', 'u', 'c', 't', ' ', 'S', 'p', 'e', 'c'],
   ['@', 'i', 'n', 't', 'e', 'r', 'f', 'a', 'c', 'e', ' ', 'R', 'C', 'T', 'C', 'x', 'x', 'C', 'o', 'n',
    'v', 'e', 'r', 't', ' ', '('],
   ['+', ' ', '(', 'R', 'C', 'T', 'M', 'a', 'n', 'a', 'g', 'e', 'd', 'P', 'o', 'i', 'n', 't', 'e', 'r',
    ' ', '*', ')', 'J', 'S', '_']]

theorem leads_spelled : leads = leadChars.map String.ofList := rfl

theorem isHeading_ofList (chars : List Char) :
    isHeading (String.ofList chars) = leadChars.any (·.isPrefixOf chars) := by
  simp only [isHeading, leads_spelled, List.any_map, Function.comp_def, begins_ofList]

theorem plain_ofList {start : List Char}
    (h : ∀ lead ∈ leadChars, lead.isPrefixOf start = false ∧ start.isPrefixOf lead = false) :
    Plain (String.ofList start) := by
  refine plain_of_apart ?_
  rw [leads_spelled, List.forall_mem_map]
  intro lead hlead
  rw [Apart, begins_ofList, begins_ofList]
  exact h lead hlead

/-! ### Lines below each other -/

theorem heading_empty : isHeading "" = false := by decide

theorem linesFrom_unlines (ls : List String) :
    linesFrom leads (unlines ls) = ls.flatMap (linesFrom leads) :=
  filter_unlines heading_empty ls

theorem linesFrom_blocks (ls : List String) :
    linesFrom leads ("\n\n".intercalate ls) = ls.flatMap (linesFrom leads) :=
  filter_blocks heading_empty ls

theorem linesFrom_append (a b : List String) :
    linesFrom leads (unlines (a ++ b)) = linesFrom leads (unlines a) ++ linesFrom leads (unlines b) := by
  simp only [linesFrom_unlines, List.flatMap_append]

/-- A line that is no heading. -/
def Unheaded (l : String) : Prop := OneLine l ∧ isHeading l = false

instance (l : String) : Decidable (Unheaded l) := inferInstanceAs (Decidable (_ ∧ _))

/-- A line that begins as no heading does. -/
theorem Plain.unheaded {start rest : String} (hstart : Plain start) (hone : OneLine start)
    (hrest : OneLine rest) : Unheaded (start ++ rest) :=
  ⟨oneLine_append.mpr ⟨hone, hrest⟩, hstart rest⟩

/-- Characters that neither begin a heading nor go on to be one, and stay on their line. -/
def startsPlain (start : List Char) : Bool :=
  !start.contains '\n' && leadChars.all fun lead => !lead.isPrefixOf start && !start.isPrefixOf lead

theorem unheaded_start {start : List Char} (h : startsPlain start = true) {rest : String}
    (hrest : OneLine rest) : Unheaded (String.ofList start ++ rest) := by
  simp only [startsPlain, Bool.and_eq_true, Bool.not_eq_true', List.all_eq_true] at h
  exact (plain_ofList h.2).unheaded (oneLine_ofList (by simpa using h.1)) hrest

theorem unheaded_ofList {chars : List Char}
    (h : (!chars.contains '\n' && !leadChars.any (·.isPrefixOf chars)) = true) :
    Unheaded (String.ofList chars) := by
  rw [Bool.and_eq_true, Bool.not_eq_true', Bool.not_eq_true'] at h
  exact ⟨oneLine_ofList (by simpa using h.1), (isHeading_ofList chars).trans h.2⟩

theorem Unheaded.none {l : String} (h : Unheaded l) : linesFrom leads l = [] := by
  rw [linesFrom, lines_of_oneLine h.1, List.filter_eq_nil_iff, List.forall_mem_singleton]
  exact Bool.eq_false_iff.mp h.2

theorem linesFrom_unheaded {ls : List String} (h : ∀ l ∈ ls, Unheaded l) :
    linesFrom leads (unlines ls) = [] := by
  rw [linesFrom_unlines, List.flatMap_eq_nil_iff]
  exact fun l hl => (h l hl).none

theorem linesFrom_line {h : Heading} (hone : OneLine h.line) : linesFrom leads h.line = [h.line] := by
  rw [linesFrom, lines_of_oneLine hone, List.filter_eq_self, List.forall_mem_singleton]
  exact isHeading_line h

/-- Headings below each other are all found. -/
theorem linesFrom_lines {headings : List Heading} (h : ∀ h ∈ headings, OneLine h.line) :
    linesFrom leads (unlines (headings.map Heading.line)) = headings.map Heading.line := by
  rw [linesFrom_unlines, List.flatMap_map, List.flatMap_congr fun h' hmem => linesFrom_line (h h' hmem)]
  exact List.map_eq_flatMap.symm

end NativeHeader

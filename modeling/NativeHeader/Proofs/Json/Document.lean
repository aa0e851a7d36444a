import Mathlib.Data.List.Induction
import Mathlib.Data.List.Nodup
import NativeHeader.Json.Basic
import NativeHeader.Proofs.Text.Lines

/-! How a document writes a value.

`Writes` is the grammar of documents. A value is written in one of many ways: any blanks
may stand around it and around each of its parts, and each character of a string has
several forms. An object is written by its fields in any number, where a key that comes
again keeps its first place and takes its last value (`Settled`); that is how
`Json.object` puts them together (`Settled.object`).

Files are read with their line ends unified. Inside a string no line ends, so the ends
that are unified are blanks, and afterwards the text still writes the same value
(`Writes.unified`). -/
namespace NativeHeader.Json

/-! ### Characters and strings -/

/-- What may stand between the parts of a document. -/
def blanks : List Char := [' ', '\t', '\n', '\r']

def Blank (s : List Char) : Prop := ∀ c ∈ s, c ∈ blanks

instance (s : List Char) : Decidable (Blank s) := List.decidableBAll (· ∈ blanks) s

theorem blank_nil : Blank [] := nofun

/-- The digits of a code unit, in lower and in upper case. -/
def hexAlphabets : List (List Char) := ["0123456789abcdef".toList, "0123456789ABCDEF".toList]

def IsHex (digit : Nat) (c : Char) : Prop := ∃ alphabet ∈ hexAlphabets, alphabet[digit]? = some c

/-- A code unit of sixteen bits is written by four digits. -/
inductive WritesUnit (n : Nat) : List Char → Prop
  | digits {a b c d : Char} (ha : IsHex (n / 0x1000) a) (hb : IsHex (n / 0x100 % 0x10) b)
      (hc : IsHex (n / 0x10 % 0x10) c) (hd : IsHex (n % 0x10) d) :
      WritesUnit n ['\\', 'u', a, b, c, d]

/-- Characters that have a letter of their own. -/
def escapes : List (Char × Char) :=
  [('"', '"'), ('\\', '\\'), ('/', '/'), ('\x08', 'b'), ('\x0c', 'f'), ('\n', 'n'), ('\r', 'r'),
   ('\t', 't')]

/-- How a character is written in a string. -/
inductive WritesChar (c : Char) : List Char → Prop
  | plain (hcontrol : 0x20 ≤ c.toNat) (hquote : c ≠ '"') (hbackslash : c ≠ '\\') : WritesChar c [c]
  | escape {letter : Char} (h : (c, letter) ∈ escapes) : WritesChar c ['\\', letter]
  | unit {s : List Char} (h : WritesUnit c.toNat s) : WritesChar c s
  /-- Characters beyond sixteen bits are written by a pair of code units. -/
  | pair {high low : List Char} (hwide : 0x10000 ≤ c.toNat)
      (hhigh : WritesUnit (0xd800 + (c.toNat - 0x10000) / 0x400) high)
      (hlow : WritesUnit (0xdc00 + (c.toNat - 0x10000) % 0x400) low) : WritesChar c (high ++ low)

inductive WritesChars : List Char → List Char → Prop
  | nil : WritesChars [] []
  | cons {c : Char} {text s rest : List Char} (hc : WritesChar c s) (hrest : WritesChars text rest) :
      WritesChars (c :: text) (s ++ rest)

/-- Characters that need no escape are written as they are. -/
theorem WritesChars.plain {text : List Char}
    (h : ∀ c ∈ text, 0x20 ≤ c.toNat ∧ c ≠ '"' ∧ c ≠ '\\') : WritesChars text text := by
  induction text with
  | nil => exact .nil
  | cons c text ih =>
    obtain ⟨⟨hcontrol, hquote, hbackslash⟩, htext⟩ := List.forall_mem_cons.mp h
    exact .cons (.plain hcontrol hquote hbackslash) (ih htext)

inductive WritesString (text : String) : List Char → Prop
  | quoted {s : List Char} (h : WritesChars text.toList s) : WritesString text ('"' :: (s ++ ['"']))

/-- Integers have at most 4300 digits. Zero may have a sign. -/
inductive WritesInt : Int → List Char → Prop
  | natural {n : Nat} (h : (Nat.toDigits 10 n).length ≤ 4300) : WritesInt n (Nat.toDigits 10 n)
  | negated {n : Nat} (h : (Nat.toDigits 10 n).length ≤ 4300) :
      WritesInt (-n) ('-' :: Nat.toDigits 10 n)

/-! ### Values -/

/-- The fields of an object, by the fields that were written: each key once, at its first
place and with its last value. -/
structure Settled (written fields : List (String × Json)) : Prop where
  keys : fields.map Prod.fst = (written.map Prod.fst).eraseDups
  values : ∀ key, fields.lookup key = written.reverse.lookup key

/-- What a part of a document stands for. An element is a value with the blanks around it. -/
inductive Part where
  | value (v : Json)
  | element (v : Json)
  | elements (items : List Json)
  | member (key : String) (v : Json)
  | members (written : List (String × Json))

/-- The grammar of documents: a part and a text for it. -/
inductive Writes : Part → List Char → Prop
  | nullWord : Writes (.value .null) ['n', 'u', 'l', 'l']
  | trueWord : Writes (.value (.bool true)) ['t', 'r', 'u', 'e']
  | falseWord : Writes (.value (.bool false)) ['f', 'a', 'l', 's', 'e']
  | int {n : Int} {s : List Char} (h : WritesInt n s) : Writes (.value (.int n)) s
  | str {text : String} {s : List Char} (h : WritesString text s) : Writes (.value (.str text)) s
  | emptyList {s : List Char} (h : Blank s) : Writes (.value (.arr [])) ('[' :: (s ++ [']']))
  | list {items : List Json} {s : List Char} (h : Writes (.elements items) s) :
      Writes (.value (.arr items)) ('[' :: (s ++ [']']))
  | emptyObject {s : List Char} (h : Blank s) :
      Writes (.value (.obj [])) ('\x7b' :: (s ++ ['\x7d']))
  | object {written fields : List (String × Json)} {s : List Char} (h : Writes (.members written) s)
      (hfields : Settled written fields) : Writes (.value (.obj fields)) ('\x7b' :: (s ++ ['\x7d']))
  | element {v : Json} {before s after : List Char} (hbefore : Blank before)
      (h : Writes (.value v) s) (hafter : Blank after) : Writes (.element v) (before ++ (s ++ after))
  | lastElement {v : Json} {s : List Char} (h : Writes (.element v) s) : Writes (.elements [v]) s
  | elements {v : Json} {items : List Json} {s rest : List Char} (h : Writes (.element v) s)
      (hrest : Writes (.elements items) rest) : Writes (.elements (v :: items)) (s ++ ',' :: rest)
  | member {key : String} {v : Json} {before k after s : List Char} (hbefore : Blank before)
      (hkey : WritesString key k) (hafter : Blank after) (h : Writes (.element v) s) :
      Writes (.member key v) (before ++ (k ++ (after ++ ':' :: s)))
  | lastMember {key : String} {v : Json} {s : List Char} (h : Writes (.member key v) s) :
      Writes (.members [(key, v)]) s
  | members {key : String} {v : Json} {written : List (String × Json)} {s rest : List Char}
      (h : Writes (.member key v) s) (hrest : Writes (.members written) rest) :
      Writes (.members ((key, v) :: written)) (s ++ ',' :: rest)

/-! ### Fields that settle -/

theorem lookup_cons_ite (key other : String) (v : Json) (fields : List (String × Json)) :
    ((key, v) :: fields).lookup other = if other = key then some v else fields.lookup other := by
  rw [List.lookup_cons]
  by_cases h : other = key
  · simp [h]
  · simp [h, beq_eq_false_iff_ne.mpr h]

theorem lookup_put (key other : String) (v : Json) (fields : List (String × Json)) :
    (put key v fields).lookup other = if other = key then some v else fields.lookup other := by
  induction fields with
  | nil => exact lookup_cons_ite key other v []
  | cons field rest ih =>
    obtain ⟨k, w⟩ := field
    rw [put]
    split
    · subst key
      rw [lookup_cons_ite, lookup_cons_ite]
      split <;> rfl
    · rw [lookup_cons_ite, lookup_cons_ite, ih]
      split
      · subst other
        rw [if_neg ‹_›]
      · rfl

theorem keys_put (key : String) (v : Json) (fields : List (String × Json)) :
    (put key v fields).map Prod.fst =
      if key ∈ fields.map Prod.fst then fields.map Prod.fst else fields.map Prod.fst ++ [key] := by
  induction fields with
  | nil => rfl
  | cons field rest ih =>
    obtain ⟨k, w⟩ := field
    rw [put]
    by_cases hkey : k = key
    · simp [hkey]
    · rw [if_neg hkey, List.map_cons, ih]
      by_cases hmem : key ∈ rest.map Prod.fst
      · have hthere : key ∈ ((k, w) :: rest).map Prod.fst := List.mem_cons_of_mem k hmem
        rw [if_pos hmem, if_pos hthere]
        rfl
      · have hnew : key ∉ ((k, w) :: rest).map Prod.fst :=
          List.not_mem_cons_of_ne_of_not_mem (Ne.symm hkey) hmem
        rw [if_neg hmem, if_neg hnew]
        rfl

/-- One more name is new, or it is there already. -/
theorem eraseDups_concat (names : List String) (name : String) :
    (names ++ [name]).eraseDups =
      if name ∈ names.eraseDups then names.eraseDups else names.eraseDups ++ [name] := by
  by_cases h : name ∈ names <;> simp [List.eraseDups_append, List.removeAll, List.eraseDups_cons, h]

theorem nodup_eraseDups (names : List String) : names.eraseDups.Nodup := by
  induction names using List.reverseRecOn with
  | nil => exact List.nodup_nil
  | append_singleton names name ih =>
    rw [eraseDups_concat]
    split
    · exact ih
    · rw [List.nodup_append]
      refine ⟨ih, List.nodup_singleton name, fun a ha b hb => ?_⟩
      rintro rfl
      rw [List.mem_singleton] at hb
      exact absurd (hb ▸ ha) ‹_›

theorem eraseDups_of_nodup {names : List String} (h : names.Nodup) : names.eraseDups = names := by
  induction names using List.reverseRecOn with
  | nil => rfl
  | append_singleton names name ih =>
    obtain ⟨hnames, _, hnew⟩ := List.nodup_append.mp h
    have hout : name ∉ names := fun hmem => hnew name hmem name (List.mem_singleton_self name) rfl
    rw [eraseDups_concat, ih hnames, if_neg hout]

/-- Fields with the same keys in the same order, each once, and with the same values. -/
theorem eq_of_keys_values {a b : List (String × Json)} (hkeys : a.map Prod.fst = b.map Prod.fst)
    (hdistinct : (a.map Prod.fst).Nodup) (hvalues : ∀ key, a.lookup key = b.lookup key) : a = b := by
  induction a generalizing b with
  | nil => exact (List.map_eq_nil_iff.mp hkeys.symm).symm
  | cons first rest ih =>
    obtain ⟨key, v⟩ := first
    rcases b with _ | ⟨⟨key', w⟩, rest'⟩
    · cases hkeys
    · rw [List.map_cons, List.map_cons, List.cons.injEq] at hkeys
      obtain ⟨hkey, hkeys⟩ := hkeys
      obtain rfl : key = key' := hkey
      obtain ⟨hnew, hdistinct⟩ := List.nodup_cons.mp hdistinct
      have hmissing {fields : List (String × Json)} (h : key ∉ fields.map Prod.fst) :
          fields.lookup key = none := by
        rw [List.lookup_eq_none_iff]
        exact fun field hfield => bne_iff_ne.mpr fun hkey => h (hkey ▸ List.mem_map_of_mem hfield)
      have hvalue : some v = some w := by
        have := hvalues key
        rwa [lookup_cons_ite, lookup_cons_ite, if_pos rfl, if_pos rfl] at this
      cases hvalue
      congr 1
      refine ih hkeys hdistinct fun other => ?_
      have := hvalues other
      rw [lookup_cons_ite, lookup_cons_ite] at this
      split at this
      · subst other
        rw [hmissing hnew, hmissing (hkeys ▸ hnew)]
      · exact this

theorem lookup_eq_some_iff {fields : List (String × Json)} (h : (fields.map Prod.fst).Nodup)
    {key : String} {v : Json} : fields.lookup key = some v ↔ (key, v) ∈ fields := by
  induction fields with
  | nil => simp
  | cons field rest ih =>
    obtain ⟨k, w⟩ := field
    obtain ⟨hnew, hrest⟩ := List.nodup_cons.mp h
    rw [lookup_cons_ite, List.mem_cons, Prod.mk.injEq]
    split
    · subst key
      have hout : (k, v) ∉ rest := fun hmem => hnew (List.mem_map.mpr ⟨_, hmem, rfl⟩)
      simp [hout, eq_comm]
    · rw [ih hrest]
      simp [*]

/-- Keys that differ have the same values in any order. -/
theorem lookup_of_perm {fields other : List (String × Json)} (h : (fields.map Prod.fst).Nodup)
    (hperm : fields.Perm other) (key : String) : fields.lookup key = other.lookup key := by
  have hother : (other.map Prod.fst).Nodup := (hperm.map Prod.fst).nodup_iff.mp h
  refine Option.ext fun v => ?_
  rw [lookup_eq_some_iff h, lookup_eq_some_iff hother, hperm.mem_iff]

/-- **Keys that differ settle as they are.** -/
theorem settled_of_distinct {fields : List (String × Json)} (h : (fields.map Prod.fst).Nodup) :
    Settled fields fields :=
  ⟨(eraseDups_of_nodup h).symm, lookup_of_perm h (List.reverse_perm fields).symm⟩

theorem object_concat {written met : List (String × Json)} (h : Json.object written = .obj met)
    (key : String) (v : Json) : Json.object (written ++ [(key, v)]) = .obj (put key v met) := by
  unfold Json.object at h ⊢
  rw [List.foldl_append, Json.obj.inj h]
  rfl

/-- **An object is put together from its settled fields.** -/
theorem Settled.object {written fields : List (String × Json)} (h : Settled written fields) :
    Json.object written = .obj fields := by
  have hmet : ∃ met, Json.object written = .obj met ∧ Settled written met := by
    clear h
    induction written using List.reverseRecOn with
    | nil => exact ⟨[], rfl, rfl, fun _ => rfl⟩
    | append_singleton written field ih =>
      obtain ⟨key, v⟩ := field
      obtain ⟨met, hobject, hmet⟩ := ih
      refine ⟨_, object_concat hobject key v, ?_, fun other => ?_⟩
      · rw [keys_put, hmet.keys, List.map_append, List.map_singleton, eraseDups_concat]
      · rw [lookup_put, hmet.values, List.reverse_append, List.reverse_singleton,
          List.singleton_append, lookup_cons_ite]
  obtain ⟨met, hobject, hmet⟩ := hmet
  have hsame : met = fields := eq_of_keys_values (hmet.keys.trans h.keys.symm)
    (hmet.keys ▸ nodup_eraseDups _) fun key => (hmet.values key).trans (h.values key).symm
  rw [hobject, hsame]

/-! ### How a value begins and ends -/

/-- A character that nothing but a value begins with. -/
def Opens (c : Char) : Prop := c ∉ '\ufeff' :: ',' :: ':' :: ']' :: '\x7d' :: blanks

instance (c : Char) : Decidable (Opens c) := inferInstanceAs (Decidable (¬ _))

theorem opens_of_isDigit {c : Char} (h : c.isDigit = true) : Opens c := by
  have hothers : ∀ d ∈ '\ufeff' :: ',' :: ':' :: ']' :: '\x7d' :: blanks, d.isDigit = false := by
    simp [blanks]
  intro hmem
  rw [hothers c hmem] at h
  cases h

theorem Opens.not_blank {c : Char} (h : Opens c) : c ∉ blanks := fun hmem =>
  h (List.mem_append_right ['\ufeff', ',', ':', ']', '\x7d'] hmem)

/-- A text that begins and ends as values do. -/
structure Edged (s : List Char) : Prop where
  first : ∃ c rest, s = c :: rest ∧ Opens c
  last : ∀ c ∈ s.getLast?, c ∉ blanks

theorem Edged.length_pos {s : List Char} (h : Edged s) : 0 < s.length := by
  obtain ⟨c, rest, rfl, _⟩ := h.first
  exact Nat.succ_pos _

theorem Edged.enclosed {first last : Char} (hfirst : Opens first) (hlast : last ∉ blanks)
    (s : List Char) : Edged (first :: (s ++ [last])) := by
  refine ⟨⟨first, _, rfl, hfirst⟩, fun c hc => ?_⟩
  rw [← List.cons_append, List.getLast?_concat, Option.mem_some_iff] at hc
  exact hc ▸ hlast

theorem isDigit_of_mem_digits {n : Nat} {c : Char} (h : c ∈ Nat.toDigits 10 n) : c.isDigit = true :=
  Nat.isDigit_of_mem_toDigits (by decide) (by decide) h

theorem digits_cons (n : Nat) : ∃ c rest, Nat.toDigits 10 n = c :: rest ∧ c.isDigit = true := by
  obtain ⟨c, rest, hdigits⟩ := List.exists_cons_of_ne_nil (Nat.toDigits_ne_nil (b := 10) (n := n))
  exact ⟨c, rest, hdigits, isDigit_of_mem_digits (hdigits ▸ List.mem_cons_self)⟩

theorem WritesInt.edged {n : Int} {s : List Char} (h : WritesInt n s) : Edged s := by
  have hblank {c : Char} (h : c.isDigit = true) : c ∉ blanks := (opens_of_isDigit h).not_blank
  cases h with
  | @natural n =>
    refine ⟨?_, fun c hc => hblank (isDigit_of_mem_digits (List.mem_of_getLast? hc))⟩
    obtain ⟨c, rest, hdigits, hc⟩ := digits_cons n
    exact ⟨c, rest, hdigits, opens_of_isDigit hc⟩
  | negated =>
    refine ⟨⟨'-', _, rfl, by decide⟩, fun c hc => ?_⟩
    rcases List.mem_cons.mp (List.mem_of_getLast? hc) with rfl | hmem
    · decide
    · exact hblank (isDigit_of_mem_digits hmem)

theorem WritesString.edged {text : String} {s : List Char} (h : WritesString text s) : Edged s := by
  cases h
  exact .enclosed (by decide) (by decide) _

/-- A value begins and ends with characters of its own. -/
theorem Writes.edged {v : Json} {s : List Char} (h : Writes (.value v) s) : Edged s := by
  cases h with
  | nullWord | trueWord | falseWord => exact ⟨⟨_, _, rfl, by decide⟩, by simp [blanks]⟩
  | int h => exact h.edged
  | str h => exact h.edged
  | emptyList | list | emptyObject | object => exact .enclosed (by decide) (by decide) _

theorem Writes.length_pos {part : Part} {s : List Char} (h : Writes part s) : 0 < s.length := by
  induction h with
  | int h => exact h.edged.length_pos
  | str h => exact h.edged.length_pos
  | lastElement _ ih | lastMember _ ih => exact ih
  | _ =>
    simp only [List.length_append, List.length_cons]
    omega

/-! ### Line ends -/

theorem Blank.unified {s : List Char} (h : Blank s) : Blank (Text.unifyLineEnds s) := by
  intro c hc
  rcases Text.mem_unifyLineEnds hc with rfl | hc
  · decide
  · exact h c hc

theorem WritesUnit.return_not_mem {n : Nat} {s : List Char} (h : WritesUnit n s) : '\r' ∉ s := by
  have hhex {digit : Nat} {c : Char} (h : IsHex digit c) : c ≠ '\r' := by
    obtain ⟨alphabet, halphabet, hc⟩ := h
    have hnone : ∀ alphabet ∈ hexAlphabets, '\r' ∉ alphabet := by decide
    rintro rfl
    exact hnone alphabet halphabet (List.mem_of_getElem? hc)
  cases h with
  | digits ha hb hc hd =>
    simp [(hhex ha).symm, (hhex hb).symm, (hhex hc).symm, (hhex hd).symm]

theorem WritesChar.return_not_mem {c : Char} {s : List Char} (h : WritesChar c s) : '\r' ∉ s := by
  cases h with
  | plain hcontrol =>
    rw [List.mem_singleton]
    rintro rfl
    exact absurd hcontrol (by decide)
  | @escape letter h =>
    have hletters : ∀ e ∈ escapes, e.2 ≠ '\r' := by decide
    simp [(hletters _ h).symm]
  | unit h => exact h.return_not_mem
  | pair _ hhigh hlow => exact List.not_mem_append hhigh.return_not_mem hlow.return_not_mem

/-- No line ends inside a string. -/
theorem WritesString.return_not_mem {text : String} {s : List Char} (h : WritesString text s) :
    '\r' ∉ s := by
  have hchars {text s : List Char} (h : WritesChars text s) : '\r' ∉ s := by
    induction h with
    | nil => exact List.not_mem_nil
    | cons hc _ ih => exact List.not_mem_append hc.return_not_mem ih
  cases h with
  | quoted h => simp [hchars h]

theorem WritesInt.return_not_mem {n : Int} {s : List Char} (h : WritesInt n s) : '\r' ∉ s := by
  have hdigits {n : Nat} : '\r' ∉ Nat.toDigits 10 n := fun hmem =>
    absurd (isDigit_of_mem_digits hmem) (by decide)
  cases h with
  | natural => exact hdigits
  | negated => simp [hdigits]

theorem Edged.unified {s : List Char} (h : Edged s) (before after : List Char) :
    Text.unifyLineEnds (before ++ (s ++ after)) =
      Text.unifyLineEnds before ++ (Text.unifyLineEnds s ++ Text.unifyLineEnds after) := by
  obtain ⟨c, rest, rfl, hc⟩ := h.first
  have hfeed : c ≠ '\n' := by
    rintro rfl
    exact absurd hc (by decide)
  have hhead : (c :: rest ++ after).head? ≠ some '\n' := fun h => hfeed (Option.some.inj h)
  have hlast : (c :: rest).getLast? ≠ some '\r' := fun hlast => absurd (h.last _ hlast) (by decide)
  rw [Text.unifyLineEnds_append fun _ => hhead,
    Text.unifyLineEnds_append fun hreturn => absurd hreturn hlast]

/-- **A text whose line ends are unified writes the same value.** -/
theorem Writes.unified {part : Part} {s : List Char} (h : Writes part s) :
    Writes part (Text.unifyLineEnds s) := by
  induction h with
  | nullWord => exact .nullWord
  | trueWord => exact .trueWord
  | falseWord => exact .falseWord
  | int h =>
    rw [Text.unifyLineEnds_of_not_mem h.return_not_mem]
    exact .int h
  | str h =>
    rw [Text.unifyLineEnds_of_not_mem h.return_not_mem]
    exact .str h
  | emptyList h =>
    rw [Text.unifyLineEnds_cons (by decide), Text.unifyLineEnds_around (by decide) (by decide)]
    exact .emptyList h.unified
  | list _ ih =>
    rw [Text.unifyLineEnds_cons (by decide), Text.unifyLineEnds_around (by decide) (by decide)]
    exact .list ih
  | emptyObject h =>
    rw [Text.unifyLineEnds_cons (by decide), Text.unifyLineEnds_around (by decide) (by decide)]
    exact .emptyObject h.unified
  | object _ hfields ih =>
    rw [Text.unifyLineEnds_cons (by decide), Text.unifyLineEnds_around (by decide) (by decide)]
    exact .object ih hfields
  | element hbefore h hafter ih =>
    rw [h.edged.unified]
    exact .element hbefore.unified ih hafter.unified
  | lastElement _ ih => exact .lastElement ih
  | elements _ _ ih ihrest =>
    rw [Text.unifyLineEnds_around (by decide) (by decide)]
    exact .elements ih ihrest
  | member hbefore hkey hafter _ ih =>
    rw [hkey.edged.unified, Text.unifyLineEnds_of_not_mem hkey.return_not_mem,
      Text.unifyLineEnds_around (by decide) (by decide)]
    exact .member hbefore.unified hkey hafter.unified ih
  | lastMember _ ih => exact .lastMember ih
  | members _ _ ih ihrest =>
    rw [Text.unifyLineEnds_around (by decide) (by decide)]
    exact .members ih ihrest

end NativeHeader.Json

import NativeHeader.Json.Reader
import NativeHeader.Proofs.Json.Document

/-! What the reader makes of a document.

A part of a document is read as what it writes, whatever follows it there (`Reads`). Only the
end of an integer depends on what follows, and after a value that is a blank, a comma or a
closing bracket (`Ends`). Of the calls for a part at least every other one uses up one of its
characters, so fuel of twice its length is enough (`reads_written`). A document has more than
that, and it is read as its value (`read_written`). -/
namespace NativeHeader.Json.Reader

/-! ### Blanks and words -/

theorem isBlank_iff {c : Char} : isBlank c = true ↔ c ∈ blanks := by
  simp [isBlank, blanks, or_assoc]

theorem skipBlanks_blank {s : List Char} (h : Blank s) (rest : List Char) :
    skipBlanks (s ++ rest) = skipBlanks rest :=
  List.dropWhile_append_of_pos fun c hc => isBlank_iff.2 (h c hc)

theorem skipBlanks_cons {c : Char} (h : c ∉ blanks) (rest : List Char) :
    skipBlanks (c :: rest) = c :: rest :=
  List.dropWhile_cons_of_neg fun hblank => h (isBlank_iff.1 hblank)

/-- No word begins with a digit, nor with a minus before one. -/
theorem word?_of_digit {c : Char} (h : c.isDigit = true) (rest : List Char) :
    word? (c :: rest) = none ∧ word? ('-' :: c :: rest) = none := by
  have hletters : ∀ d ∈ ['n', 't', 'f', 'N', 'I', '-'], d.isDigit = false := by simp
  have hne {d : Char} (hd : d ∈ ['n', 't', 'f', 'N', 'I', '-']) : d ≠ c := by
    rintro rfl
    rw [hletters d hd] at h
    cases h
  simp +decide [word?, words, after?, hne]

/-! ### Numbers -/

/-- What may follow a value. -/
def Ends (s : List Char) : Prop := ∀ c ∈ s.head?, c ∈ ',' :: ']' :: '\x7d' :: blanks

theorem ends_blank {s rest : List Char} (h : Blank s) (hrest : Ends rest) : Ends (s ++ rest) := by
  cases s with
  | nil => exact hrest
  | cons c s =>
    intro d hd
    obtain rfl := Option.mem_some_iff.mp hd
    exact List.mem_append_right [',', ']', '\x7d'] (h c (List.mem_cons_self ..))

theorem ends_cons {c : Char} (h : c ∈ [',', ']', '\x7d']) (rest : List Char) : Ends (c :: rest) := by
  intro d hd
  obtain rfl := Option.mem_some_iff.mp hd
  exact List.mem_append_left blanks h

theorem natOfDigits_toDigits (n : Nat) : natOfDigits (Nat.toDigits 10 n) = n := by
  rw [natOfDigits, ← Nat.ofDigitChars_eq_foldl, Nat.ofDigitChars_ten_toDigits]

theorem takeDigits_append {digits rest : List Char} (h : ∀ c ∈ digits, c.isDigit = true)
    (hrest : Ends rest) : takeDigits (digits ++ rest) = (digits, rest) := by
  have hends : ∀ c ∈ ',' :: ']' :: '\x7d' :: blanks, c.isDigit = false := by simp [blanks]
  rw [takeDigits, List.takeWhile_append_of_pos h, List.dropWhile_append_of_pos h]
  cases rest with
  | nil => rw [List.takeWhile_nil, List.dropWhile_nil, List.append_nil]
  | cons c rest =>
    have hc : ¬ c.isDigit = true := Bool.eq_false_iff.mp (hends c (hrest c rfl))
    rw [List.takeWhile_cons_of_neg hc, List.dropWhile_cons_of_neg hc, List.append_nil]

/-- Only zero begins with a zero. -/
theorem zero_of_head {n : Nat} {rest : List Char} (h : Nat.toDigits 10 n = '0' :: rest) : n = 0 := by
  induction n using Nat.strongRecOn generalizing rest with
  | ind n ih =>
    rw [Nat.toDigits_eq_if (by decide)] at h
    split at h
    · exact Nat.digitChar_eq_zero.mp (List.cons.inj h).1
    · obtain ⟨c, more, hmore, _⟩ := digits_cons (n / 10)
      rw [hmore, List.cons_append] at h
      obtain ⟨rfl, _⟩ := List.cons.inj h
      have := ih (n / 10) (by omega) hmore
      omega

theorem wholePart?_toDigits (n : Nat) {rest : List Char} (hrest : Ends rest) :
    wholePart? (Nat.toDigits 10 n ++ rest) = some (Nat.toDigits 10 n, rest) := by
  obtain ⟨c, more, hdigits, _⟩ := digits_cons n
  by_cases hc : c = '0'
  · subst hc
    rw [zero_of_head hdigits, Nat.toDigits_zero]
    rfl
  · have htaken := takeDigits_append (fun c => isDigit_of_mem_digits (n := n) (c := c)) hrest
    rw [hdigits] at htaken ⊢
    rw [List.cons_append] at htaken ⊢
    rw [wholePart?.eq_2 _ fun _ h => hc (List.cons.inj h).1, htaken]
    rfl

/-- After an integer there is no fraction and no exponent. -/
theorem no_fraction {rest : List Char} (h : Ends rest) :
    fractionPart rest = ([], rest) ∧ exponentPart? rest = none := by
  cases rest with
  | nil => exact ⟨rfl, rfl⟩
  | cons c rest =>
    have hc := h c rfl
    simp only [blanks, List.mem_cons, List.not_mem_nil, or_false] at hc
    rcases hc with rfl | rfl | rfl | rfl | rfl | rfl | rfl <;> exact ⟨rfl, rfl⟩

theorem number_written {n : Int} {s : List Char} (h : WritesInt n s) {rest : List Char}
    (hrest : Ends rest) : number (s ++ rest) = .ok (.int n, rest) := by
  obtain ⟨hfraction, hexponent⟩ := no_fraction hrest
  cases h with
  | @natural n hlength =>
    have hlimit : ¬ (Nat.toDigits 10 n).length > integerLimit := Nat.not_lt.mpr hlength
    have hsign (after : List Char) : Nat.toDigits 10 n ++ rest ≠ '-' :: after := by
      intro heq
      obtain ⟨c, more, hdigits, hc⟩ := digits_cons n
      rw [hdigits, List.cons_append] at heq
      obtain ⟨rfl, _⟩ := List.cons.inj heq
      exact absurd hc (by decide)
    unfold number
    split
    rename_i heq
    split at heq
    · exact absurd ‹_› (hsign _)
    · cases heq
      simp only [wholePart?_toDigits n hrest, hfraction, hexponent, natOfDigits_toDigits, if_neg hlimit]
      rfl
  | @negated n hlength =>
    have hlimit : ¬ (Nat.toDigits 10 n).length > integerLimit := Nat.not_lt.mpr hlength
    unfold number
    simp only [List.cons_append, wholePart?_toDigits n hrest, hfraction, hexponent,
      natOfDigits_toDigits, if_neg hlimit]
    rfl

theorem word?_written {n : Int} {s : List Char} (h : WritesInt n s) (rest : List Char) :
    ∃ c more, s ++ rest = c :: more ∧ (c = '-' ∨ c.isDigit = true) ∧ word? (c :: more) = none := by
  cases h with
  | @natural n =>
    obtain ⟨c, more, hdigits, hc⟩ := digits_cons n
    exact ⟨c, more ++ rest, by rw [hdigits]; rfl, Or.inr hc, (word?_of_digit hc _).1⟩
  | @negated n =>
    obtain ⟨c, more, hdigits, hc⟩ := digits_cons n
    exact ⟨'-', c :: (more ++ rest), by rw [hdigits]; rfl, Or.inl rfl, (word?_of_digit hc _).2⟩

/-! ### Strings -/

theorem hexDigit?_of_isHex {digit : Nat} {c : Char} (h : IsHex digit c) : hexDigit? c = some digit := by
  have hdigits : ∀ alphabet ∈ hexAlphabets, ∀ digit : Fin alphabet.length,
      hexDigit? (alphabet.get digit) = some digit.val := by decide
  obtain ⟨alphabet, halphabet, hc⟩ := h
  obtain ⟨hlt, rfl⟩ := List.getElem?_eq_some_iff.mp hc
  exact hdigits alphabet halphabet ⟨digit, hlt⟩

theorem joinPieces_units (high low : Nat) (rest : List Piece) :
    joinPieces (.unit high :: .unit low :: rest) =
      if isHigh high && isLow low then pairChar high low :: joinPieces rest
      else unitChar high :: joinPieces (.unit low :: rest) := rfl

/-- A code unit that is a character stands for it. -/
theorem joinPieces_unit {c : Char} (pieces : List Piece) :
    joinPieces (.unit c.toNat :: pieces) = c :: joinPieces pieces := by
  have hvalid : c.toNat < 0xd800 ∨ 0xdfff < c.toNat ∧ c.toNat < 0x110000 := c.valid
  have hhigh : isHigh c.toNat = false := by
    simp only [isHigh, Bool.and_eq_false_iff, decide_eq_false_iff_not]
    omega
  have hlow : isLow c.toNat = false := by
    simp only [isLow, Bool.and_eq_false_iff, decide_eq_false_iff_not]
    omega
  have hunit : unitChar c.toNat = c := by
    simp [unitChar, hhigh, hlow]
  rcases pieces with _ | ⟨_ | low, rest⟩
  · show unitChar c.toNat :: _ = _
    rw [hunit]
  · show unitChar c.toNat :: _ = _
    rw [hunit]
  · rw [joinPieces_units, hhigh, hunit]
    rfl

/-- A pair of code units stands for its character. -/
theorem joinPieces_pair {c : Char} (hwide : 0x10000 ≤ c.toNat) (pieces : List Piece) :
    joinPieces (.unit (0xd800 + (c.toNat - 0x10000) / 0x400) ::
      .unit (0xdc00 + (c.toNat - 0x10000) % 0x400) :: pieces) = c :: joinPieces pieces := by
  have hvalid : c.toNat < 0xd800 ∨ 0xdfff < c.toNat ∧ c.toNat < 0x110000 := c.valid
  have hhigh : isHigh (0xd800 + (c.toNat - 0x10000) / 0x400) = true := by
    simp only [isHigh, Bool.and_eq_true, decide_eq_true_eq]
    omega
  have hlow : isLow (0xdc00 + (c.toNat - 0x10000) % 0x400) = true := by
    simp only [isLow, Bool.and_eq_true, decide_eq_true_eq]
    omega
  have hcode : 0x10000 + (0xd800 + (c.toNat - 0x10000) / 0x400 - 0xd800) * 0x400 +
      (0xdc00 + (c.toNat - 0x10000) % 0x400 - 0xdc00) = c.toNat := by omega
  rw [joinPieces_units, hhigh, hlow, Bool.and_self, if_pos rfl, pairChar, hcode, Char.ofNat_toNat]

theorem pieces_codeUnit (start rest : List Char) (a b c d : Char) :
    pieces start ('\\' :: 'u' :: a :: b :: c :: d :: rest) =
      match codeUnit? a b c d, rest.isEmpty with
      | some n, false => (pieces start rest).map fun (more, rest) => (.unit n :: more, rest)
      | _, _ => .error (.problem .badUnicodeEscape (rest.length + 5)) := rfl

section
variable {start rest left : List Char} {read : List Piece} (hrest : pieces start rest = .ok (read, left))
include hrest

theorem pieces_unit {n : Nat} {s : List Char} (h : WritesUnit n s) :
    pieces start (s ++ rest) = .ok (.unit n :: read, left) := by
  have hmore : rest.isEmpty = false := by
    cases rest with
    | nil => cases hrest
    | cons => rfl
  cases h with
  | @digits a b c d ha hb hc hd =>
    have hunit : codeUnit? a b c d = some n := by
      simp only [codeUnit?, hexDigit?_of_isHex ha, hexDigit?_of_isHex hb, hexDigit?_of_isHex hc,
        hexDigit?_of_isHex hd, Option.bind_eq_bind, Option.bind_some, Option.pure_def, Option.some.injEq]
      omega
    simp only [List.cons_append, List.nil_append]
    rw [pieces_codeUnit, hunit, hmore, hrest]
    rfl

theorem pieces_plain {c : Char} (hcontrol : 0x20 ≤ c.toNat) (hquote : c ≠ '"') (hbackslash : c ≠ '\\') :
    pieces start (c :: rest) = .ok (.char c :: read, left) := by
  rw [pieces.eq_7 start c rest hquote (fun h _ => hbackslash h) (fun _ _ _ _ _ h _ => hbackslash h)
    (fun _ h _ => hbackslash h) (fun _ _ h _ => hbackslash h), if_neg (Nat.not_lt.mpr hcontrol), hrest]
  rfl

theorem pieces_escape {c letter : Char} (h : (c, letter) ∈ escapes) :
    pieces start ('\\' :: letter :: rest) = .ok (.char c :: read, left) := by
  have hescapes : ∀ e ∈ escapes, e.2 ≠ 'u' ∧ escaped? e.2 = some e.1 := by decide
  obtain ⟨hletter, hescaped⟩ := hescapes _ h
  rw [pieces.eq_6 start letter rest (fun _ _ _ _ _ hu _ => hletter hu) hletter, hescaped, hrest]
  rfl

/-- A character is read as what it is, by one piece or by two. -/
theorem pieces_char {c : Char} {s : List Char} (h : WritesChar c s) :
    ∃ more, pieces start (s ++ rest) = .ok (more, left) ∧ joinPieces more = c :: joinPieces read := by
  cases h with
  | plain hcontrol hquote hbackslash =>
    exact ⟨_, pieces_plain hrest hcontrol hquote hbackslash, rfl⟩
  | escape h => exact ⟨_, pieces_escape hrest h, rfl⟩
  | unit h => exact ⟨_, pieces_unit hrest h, joinPieces_unit read⟩
  | pair hwide hhigh hlow =>
    rw [List.append_assoc]
    exact ⟨_, pieces_unit (pieces_unit hrest hlow) hhigh, joinPieces_pair hwide read⟩

end

theorem pieces_chars {text s : List Char} (h : WritesChars text s) (start rest : List Char) :
    ∃ read, pieces start (s ++ '"' :: rest) = .ok (read, rest) ∧ joinPieces read = text := by
  induction h with
  | nil => exact ⟨[], rfl, rfl⟩
  | cons hc _ ih =>
    obtain ⟨read, hread, rfl⟩ := ih
    rw [List.append_assoc]
    exact pieces_char hread hc

/-- A string is read as its text, from the character after the opening quote on. -/
theorem string_written {text : String} {s : List Char} (h : WritesString text s) (rest : List Char) :
    ∃ inner, s ++ rest = '"' :: inner ∧ string inner = .ok (text, rest) := by
  cases h with
  | @quoted s h =>
    refine ⟨s ++ '"' :: rest, by simp, ?_⟩
    obtain ⟨read, hread, hjoined⟩ := pieces_chars h ('"' :: (s ++ '"' :: rest)) rest
    rw [string, hread]
    show Except.ok (String.ofList (joinPieces read), rest) = _
    rw [hjoined, String.ofList_toList]

/-! ### One step -/

theorem value_of_word? {fuel : Nat} {c : Char} {rest : List Char} (hquote : c ≠ '"')
    (hbracket : c ≠ '[') (hbrace : c ≠ '\x7b') : value (fuel + 1) (c :: rest) =
      match word? (c :: rest) with
      | some found => .ok found
      | none => number (c :: rest) :=
  value.eq_5 _ _ (fun _ h => hquote (List.cons.inj h).1) (fun _ h => hbracket (List.cons.inj h).1)
    fun _ h => hbrace (List.cons.inj h).1

theorem value_bracket (fuel : Nat) (rest : List Char) : value (fuel + 1) ('[' :: rest) =
    match skipBlanks rest with
    | ']' :: rest => .ok (.arr [], rest)
    | rest => (items fuel rest).map fun (items, rest) => (.arr items, rest) := rfl

theorem value_brace (fuel : Nat) (rest : List Char) : value (fuel + 1) ('\x7b' :: rest) =
    match skipBlanks rest with
    | '\x7d' :: rest => .ok (.obj [], rest)
    | rest => (fields fuel rest).map fun (fields, rest) => (object fields, rest) := rfl

section
variable {fuel : Nat} {c : Char} {s rest left after : List Char} {v : Json}

/-- A list that does not close at once has items. -/
theorem value_list {vs : List Json} (hrest : skipBlanks rest = c :: left) (hc : Opens c)
    (hitems : items fuel (c :: left) = .ok (vs, after)) :
    value (fuel + 1) ('[' :: rest) = .ok (.arr vs, after) := by
  rw [value_bracket, hrest]
  split
  · rename_i heq
    obtain ⟨rfl, _⟩ := List.cons.inj heq
    exact absurd hc (by decide)
  · rw [hitems]
    rfl

theorem items_last (hvalue : value fuel s = .ok (v, left)) (hleft : skipBlanks left = ']' :: rest) :
    items (fuel + 1) s = .ok ([v], rest) := by
  change (value fuel s >>= _) = _
  rw [hvalue]
  simp only [bind, Except.bind, hleft]

theorem items_more {vs : List Json} (hvalue : value fuel s = .ok (v, left))
    (hleft : skipBlanks left = ',' :: rest) (hmore : items fuel (skipBlanks rest) = .ok (vs, after)) :
    items (fuel + 1) s = .ok (v :: vs, after) := by
  change (value fuel s >>= _) = _
  rw [hvalue]
  simp only [bind, Except.bind, hleft, hmore]
  rfl

/-- A key, a colon and a value are what the text begins with. -/
def ReadsField (fuel : Nat) (s : List Char) (key : String) (v : Json) (left : List Char) : Prop :=
  ∃ name colon start, s = '"' :: name ∧ string name = .ok (key, colon) ∧
    skipBlanks colon = ':' :: start ∧ value fuel (skipBlanks start) = .ok (v, left)

/-- An object that does not close at once has fields. -/
theorem value_object {written : List (String × Json)} (hrest : skipBlanks rest = '"' :: left)
    (hfields : fields fuel ('"' :: left) = .ok (written, after)) :
    value (fuel + 1) ('\x7b' :: rest) = .ok (object written, after) := by
  rw [value_brace, hrest]
  show (fields fuel ('"' :: left)).map _ = _
  rw [hfields]
  rfl

theorem fields_last {key : String} (hfield : ReadsField fuel s key v left)
    (hleft : skipBlanks left = '\x7d' :: rest) : fields (fuel + 1) s = .ok ([(key, v)], rest) := by
  obtain ⟨name, colon, start, rfl, hname, hcolon, hvalue⟩ := hfield
  change (string name >>= _) = _
  rw [hname]
  simp only [bind, Except.bind, hcolon, hvalue, hleft]

theorem fields_more {key : String} {written : List (String × Json)}
    (hfield : ReadsField fuel s key v left) (hleft : skipBlanks left = ',' :: rest)
    (hmore : fields fuel (skipBlanks rest) = .ok (written, after)) :
    fields (fuel + 1) s = .ok ((key, v) :: written, after) := by
  obtain ⟨name, colon, start, rfl, hname, hcolon, hvalue⟩ := hfield
  change (string name >>= _) = _
  rw [hname]
  simp only [bind, Except.bind, hcolon, hvalue, hleft, hmore]
  rfl

end

/-! ### Parts of a document -/

/-- What reading a part gives, with enough fuel and whatever follows it. After an element or a
member, blanks may be left that belong to what follows. -/
def Reads : Part → List Char → Prop
  | .value v, s => ∀ fuel rest, 2 * s.length ≤ fuel + 1 → Ends rest →
      value fuel (s ++ rest) = .ok (v, rest)
  | .element v, s => ∀ fuel rest, 2 * s.length ≤ fuel + 1 → Ends rest →
      ∃ left, value fuel (skipBlanks (s ++ rest)) = .ok (v, left) ∧ skipBlanks left = skipBlanks rest
  | .elements vs, s => ∀ fuel rest, 2 * s.length ≤ fuel →
      items fuel (skipBlanks (s ++ ']' :: rest)) = .ok (vs, rest)
  | .member key v, s => ∀ fuel rest, 2 * s.length ≤ fuel + 1 → Ends rest →
      ∃ left, ReadsField fuel (skipBlanks (s ++ rest)) key v left ∧ skipBlanks left = skipBlanks rest
  | .members written, s => ∀ fuel rest, 2 * s.length ≤ fuel →
      fields fuel (skipBlanks (s ++ '\x7d' :: rest)) = .ok (written, rest)

/-- Fuel for a text that is not empty. -/
theorem exists_fuel {length fuel : Nat} (hpos : 0 < length) (h : 2 * length ≤ fuel + 1) :
    ∃ less, fuel = less + 1 := ⟨fuel - 1, by omega⟩

/-- Blanks before a value are passed over, and nothing else. -/
theorem skipBlanks_edged {before s : List Char} (hbefore : Blank before) (h : Edged s)
    (rest : List Char) : skipBlanks (before ++ (s ++ rest)) = s ++ rest := by
  obtain ⟨c, more, rfl, hc⟩ := h.first
  rw [skipBlanks_blank hbefore]
  exact skipBlanks_cons hc.not_blank _

/-- What an element begins with, after its blanks. -/
theorem opens_element {v : Json} {s : List Char} (h : Writes (.element v) s) (rest : List Char) :
    ∃ c left, skipBlanks (s ++ rest) = c :: left ∧ Opens c := by
  cases h with
  | element hbefore h _ =>
    rw [List.append_assoc, List.append_assoc, skipBlanks_edged hbefore h.edged]
    obtain ⟨c, more, rfl, hc⟩ := h.edged.first
    exact ⟨c, _, rfl, hc⟩

theorem opens_elements {vs : List Json} {s : List Char} (h : Writes (.elements vs) s)
    (rest : List Char) : ∃ c left, skipBlanks (s ++ rest) = c :: left ∧ Opens c := by
  cases h with
  | lastElement h => exact opens_element h rest
  | elements h =>
    rw [List.append_assoc]
    exact opens_element h _

theorem opens_members {written : List (String × Json)} {s : List Char}
    (h : Writes (.members written) s) (rest : List Char) :
    ∃ left, skipBlanks (s ++ rest) = '"' :: left := by
  have hmember {key : String} {v : Json} {s : List Char} (h : Writes (.member key v) s)
      (rest : List Char) : ∃ left, skipBlanks (s ++ rest) = '"' :: left := by
    cases h with
    | member hbefore hkey =>
      rw [List.append_assoc, List.append_assoc, skipBlanks_edged hbefore hkey.edged]
      obtain ⟨name, hname, _⟩ := string_written hkey _
      exact ⟨name, hname⟩
  cases h with
  | lastMember h => exact hmember h rest
  | members h =>
    rw [List.append_assoc]
    exact hmember h _

namespace Reads

variable {v : Json} {s rest : List Char}

theorem int {n : Int} (h : WritesInt n s) : Reads (.value (.int n)) s := by
  intro fuel rest hfuel hrest
  obtain ⟨fuel, rfl⟩ := exists_fuel h.edged.length_pos hfuel
  obtain ⟨c, more, hs, hc, hword⟩ := word?_written h rest
  have hother : ∀ d ∈ ['"', '[', '\x7b'], c ≠ d := by
    have hnone : ∀ d ∈ ['"', '[', '\x7b'], ¬ (d = '-' ∨ d.isDigit = true) := by simp
    rintro d hd rfl
    exact hnone c hd hc
  rw [← number_written h hrest, hs, value_of_word? (hother _ (by decide)) (hother _ (by decide))
    (hother _ (by decide)), hword]

theorem str {text : String} (h : WritesString text s) : Reads (.value (.str text)) s := by
  intro fuel rest hfuel _
  obtain ⟨fuel, rfl⟩ := exists_fuel h.edged.length_pos hfuel
  obtain ⟨inner, hs, hstring⟩ := string_written h rest
  rw [hs]
  show (string inner).map _ = _
  rw [hstring]
  rfl

theorem emptyList (h : Blank s) : Reads (.value (.arr [])) ('[' :: (s ++ [']'])) := by
  intro fuel rest hfuel _
  obtain ⟨fuel, rfl⟩ := exists_fuel (Nat.succ_pos _) hfuel
  rw [List.cons_append, List.append_assoc, value_bracket, skipBlanks_blank h]
  rfl

theorem emptyObject (h : Blank s) :
    Reads (.value (.obj [])) ('\x7b' :: (s ++ ['\x7d'])) := by
  intro fuel rest hfuel _
  obtain ⟨fuel, rfl⟩ := exists_fuel (Nat.succ_pos _) hfuel
  rw [List.cons_append, List.append_assoc, value_brace, skipBlanks_blank h]
  rfl

theorem list {vs : List Json} (h : Writes (.elements vs) s) (ih : Reads (.elements vs) s) :
    Reads (.value (.arr vs)) ('[' :: (s ++ [']'])) := by
  intro fuel rest hfuel _
  obtain ⟨fuel, rfl⟩ := exists_fuel (Nat.succ_pos _) hfuel
  simp only [List.length_cons, List.length_append, List.length_nil] at hfuel
  have hitems := ih fuel rest (by omega)
  obtain ⟨c, left, hleft, hc⟩ := opens_elements h (']' :: rest)
  rw [hleft] at hitems
  rw [List.cons_append, List.append_assoc]
  exact value_list hleft hc hitems

theorem object {written fields : List (String × Json)} (h : Writes (.members written) s)
    (hfields : Settled written fields) (ih : Reads (.members written) s) :
    Reads (.value (.obj fields)) ('\x7b' :: (s ++ ['\x7d'])) := by
  intro fuel rest hfuel _
  obtain ⟨fuel, rfl⟩ := exists_fuel (Nat.succ_pos _) hfuel
  simp only [List.length_cons, List.length_append, List.length_nil] at hfuel
  have hwritten := ih fuel rest (by omega)
  obtain ⟨left, hleft⟩ := opens_members h ('\x7d' :: rest)
  rw [hleft] at hwritten
  rw [List.cons_append, List.append_assoc, ← hfields.object]
  exact value_object hleft hwritten

theorem element {before after : List Char} (hbefore : Blank before) (h : Writes (.value v) s)
    (hafter : Blank after) (ih : Reads (.value v) s) :
    Reads (.element v) (before ++ (s ++ after)) := by
  intro fuel rest hfuel hrest
  simp only [List.length_append] at hfuel
  rw [List.append_assoc, List.append_assoc, skipBlanks_edged hbefore h.edged]
  exact ⟨_, ih fuel _ (by omega) (ends_blank hafter hrest), skipBlanks_blank hafter rest⟩

theorem lastElement (h : Writes (.element v) s) (ih : Reads (.element v) s) :
    Reads (.elements [v]) s := by
  intro fuel rest hfuel
  obtain ⟨fuel, rfl⟩ := exists_fuel h.length_pos (Nat.le_succ_of_le hfuel)
  obtain ⟨left, hvalue, hleft⟩ := ih fuel (']' :: rest) hfuel (ends_cons (by decide) rest)
  rw [skipBlanks_cons (by decide)] at hleft
  exact items_last hvalue hleft

theorem elements {vs : List Json} (ih : Reads (.element v) s) (ihrest : Reads (.elements vs) rest) :
    Reads (.elements (v :: vs)) (s ++ ',' :: rest) := by
  intro fuel after hfuel
  simp only [List.length_cons, List.length_append] at hfuel
  obtain ⟨fuel, rfl⟩ : ∃ less, fuel = less + 1 := ⟨fuel - 1, by omega⟩
  obtain ⟨left, hvalue, hleft⟩ := ih fuel (',' :: (rest ++ ']' :: after)) (by omega)
    (ends_cons (by decide) _)
  rw [skipBlanks_cons (by decide)] at hleft
  rw [List.append_assoc, List.cons_append]
  exact items_more hvalue hleft (ihrest fuel after (by omega))

theorem member {key : String} {before k after : List Char} (hbefore : Blank before)
    (hkey : WritesString key k) (hafter : Blank after) (ih : Reads (.element v) s) :
    Reads (.member key v) (before ++ (k ++ (after ++ ':' :: s))) := by
  intro fuel rest hfuel hrest
  simp only [List.length_append, List.length_cons] at hfuel
  obtain ⟨left, hvalue, hleft⟩ := ih fuel rest (by omega) hrest
  obtain ⟨name, hname, hstring⟩ := string_written hkey (after ++ (':' :: s ++ rest))
  refine ⟨left, ⟨name, _, s ++ rest, ?_, hstring, ?_, hvalue⟩, hleft⟩
  · rw [List.append_assoc, List.append_assoc, skipBlanks_edged hbefore hkey.edged, List.append_assoc,
      hname]
  · rw [skipBlanks_blank hafter]
    exact skipBlanks_cons (by decide) _

theorem lastMember {key : String} (h : Writes (.member key v) s) (ih : Reads (.member key v) s) :
    Reads (.members [(key, v)]) s := by
  intro fuel rest hfuel
  obtain ⟨fuel, rfl⟩ := exists_fuel h.length_pos (Nat.le_succ_of_le hfuel)
  obtain ⟨left, hfield, hleft⟩ := ih fuel ('\x7d' :: rest) hfuel (ends_cons (by decide) rest)
  rw [skipBlanks_cons (by decide)] at hleft
  exact fields_last hfield hleft

theorem members {key : String} {written : List (String × Json)} (ih : Reads (.member key v) s)
    (ihrest : Reads (.members written) rest) :
    Reads (.members ((key, v) :: written)) (s ++ ',' :: rest) := by
  intro fuel after hfuel
  simp only [List.length_cons, List.length_append] at hfuel
  obtain ⟨fuel, rfl⟩ : ∃ less, fuel = less + 1 := ⟨fuel - 1, by omega⟩
  obtain ⟨left, hfield, hleft⟩ := ih fuel (',' :: (rest ++ '\x7d' :: after)) (by omega)
    (ends_cons (by decide) _)
  rw [skipBlanks_cons (by decide)] at hleft
  rw [List.append_assoc, List.cons_append]
  exact fields_more hfield hleft (ihrest fuel after (by omega))

end Reads

/-- **Every part of a document is read as what it writes.** -/
theorem reads_written {part : Part} {s : List Char} (h : Writes part s) : Reads part s := by
  induction h with
  | nullWord | trueWord | falseWord =>
    intro fuel rest hfuel _
    obtain ⟨fuel, rfl⟩ := exists_fuel (Nat.succ_pos _) hfuel
    rw [List.cons_append, value_of_word? (by decide) (by decide) (by decide)]
    rfl
  | int h => exact .int h
  | str h => exact .str h
  | emptyList h => exact .emptyList h
  | list h ih => exact .list h ih
  | emptyObject h => exact .emptyObject h
  | object h hfields ih => exact .object h hfields ih
  | element hbefore h hafter ih => exact .element hbefore h hafter ih
  | lastElement h ih => exact .lastElement h ih
  | elements _ _ ih ihrest => exact .elements ih ihrest
  | member hbefore hkey hafter _ ih => exact .member hbefore hkey hafter ih
  | lastMember h ih => exact .lastMember h ih
  | members _ _ ih ihrest => exact .members ih ihrest

/-! ### Documents -/

theorem document_written {v : Json} {s : List Char} (h : Writes (.element v) s) :
    document s = .ok v := by
  obtain ⟨left, hvalue, hleft⟩ := reads_written h (2 * s.length + 1) [] (by omega) nofun
  rw [List.append_nil] at hvalue
  have hmark (rest : List Char) : s ≠ '\ufeff' :: rest := by
    rintro rfl
    obtain ⟨c, left, hskip, hc⟩ := opens_element h []
    rw [List.append_nil, skipBlanks_cons (by decide)] at hskip
    obtain ⟨rfl, _⟩ := List.cons.inj hskip
    exact absurd hc (by decide)
  unfold document
  split
  · exact absurd rfl (hmark _)
  · simp only [bind, Except.bind, hvalue, hleft]
    rfl

end NativeHeader.Json.Reader

namespace NativeHeader.Json

/-- **A document is read as the value that it writes.** -/
theorem read_written {v : Json} {s : List Char} (h : Writes (.element v) s) : read s = .ok v := by
  rw [read, Reader.document_written h]

end NativeHeader.Json

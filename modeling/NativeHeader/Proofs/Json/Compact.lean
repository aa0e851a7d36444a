import NativeHeader.Json.Compact
import NativeHeader.Proofs.Json.Reading

/-! A document for every value.

A value can be written unless a floating-point number is in it, an integer of too many
digits, or a key that comes twice in one object (`Writable`). Its compact form is then one
of the texts that write it (`Writable.compact`), so a compact document is read as its value
(`read_compact`). -/
namespace NativeHeader.Json

/-- A value that a document can write. -/
inductive Writable : Json → Prop
  | null : Writable .null
  | bool (b : Bool) : Writable (.bool b)
  | int {n : Int} (h : (Nat.toDigits 10 n.natAbs).length ≤ 4300) : Writable (.int n)
  | str (text : String) : Writable (.str text)
  | arr {items : List Json} (h : ∀ item ∈ items, Writable item) : Writable (.arr items)
  | obj {fields : List (String × Json)} (hkeys : (fields.map Prod.fst).Nodup)
      (h : ∀ field ∈ fields, Writable field.2) : Writable (.obj fields)

/-! ### Strings and integers -/

theorem isHex_digitChar {digit : Nat} (h : digit < 0x10) : IsHex digit (Nat.digitChar digit) := by
  have hdigits : ∀ digit < 0x10, "0123456789abcdef".toList[digit]? = some (Nat.digitChar digit) := by
    decide
  exact ⟨_, .head _, hdigits digit h⟩

theorem WritesUnit.hex {n : Nat} (h : n < 0x10000) : WritesUnit n ('\\' :: 'u' :: Text.hex 4 n) := by
  have hhex : Text.hex 4 n =
      [n / 0x1000, n / 0x100 % 0x10, n / 0x10 % 0x10, n % 0x10].map Nat.digitChar := by
    have hlead : n / 0x1000 % 0x10 = n / 0x1000 := by omega
    rw [← hlead]
    simp [Text.hex, Nat.div_div_eq_div_mul]
  rw [hhex]
  exact .digits (isHex_digitChar (by omega)) (isHex_digitChar (by omega)) (isHex_digitChar (by omega))
    (isHex_digitChar (by omega))

theorem WritesChar.compact (c : Char) : WritesChar c (compactChar c) := by
  unfold compactChar
  split
  · rename_i h
    obtain rfl | rfl := h
    · exact .escape (by decide)
    · exact .escape (by decide)
  · rename_i hplain
    rw [not_or] at hplain
    split
    · exact .unit (.hex (by omega))
    · exact .plain (by omega) hplain.1 hplain.2

theorem WritesString.compact (text : String) : WritesString text (compactString text) := by
  have hchars (text : List Char) : WritesChars text (text.flatMap compactChar) := by
    induction text with
    | nil => exact .nil
    | cons c text ih =>
      rw [List.flatMap_cons]
      exact .cons (.compact c) ih
  exact .quoted (hchars text.toList)

theorem WritesInt.compact {n : Int} (h : (Nat.toDigits 10 n.natAbs).length ≤ 4300) :
    WritesInt n (toString n).toList := by
  cases n with
  | ofNat n =>
    have hs : (toString (Int.ofNat n)).toList = Nat.toDigits 10 n := String.toList_ofList
    rw [hs]
    exact .natural h
  | negSucc n =>
    have hs : (toString (Int.negSucc n)).toList = '-' :: Nat.toDigits 10 (n + 1) := by
      show ("-" ++ String.ofList (Nat.toDigits 10 (n + 1))).toList = _
      simp
    rw [hs]
    exact .negated h

/-! ### Values -/

/-- A value without blanks around it. -/
theorem Writes.bare {v : Json} {s : List Char} (h : Writes (.value v) s) : Writes (.element v) s := by
  have helement := Writes.element blank_nil h blank_nil
  rwa [List.nil_append, List.append_nil] at helement

theorem Writes.compactItems {v : Json} {items : List Json}
    (h : ∀ item ∈ v :: items, Writes (.value item) item.compact) :
    ∃ s, Json.compactItems (v :: items) = s ++ [']'] ∧ Writes (.elements (v :: items)) s := by
  induction items generalizing v with
  | nil => exact ⟨_, rfl, .lastElement (.bare (h v (.head _)))⟩
  | cons next rest ih =>
    obtain ⟨hv, hrest⟩ := List.forall_mem_cons.mp h
    obtain ⟨s, hs, hwrites⟩ := ih hrest
    refine ⟨v.compact ++ ',' :: s, ?_, .elements (.bare hv) hwrites⟩
    rw [Json.compactItems.eq_3 _ _ (List.cons_ne_nil next rest), hs, List.append_assoc, List.cons_append]

theorem Writes.compactFields {key : String} {v : Json} {fields : List (String × Json)}
    (h : ∀ field ∈ (key, v) :: fields, Writes (.value field.2) field.2.compact) :
    ∃ s, Json.compactFields ((key, v) :: fields) = s ++ ['\x7d'] ∧
      Writes (.members ((key, v) :: fields)) s := by
  have hmember {key : String} {v : Json} (h : Writes (.value v) v.compact) :
      Writes (.member key v) (compactString key ++ ':' :: v.compact) :=
    .member blank_nil (.compact key) blank_nil h.bare
  induction fields generalizing key v with
  | nil =>
    refine ⟨_, ?_, .lastMember (hmember (h _ (.head _)))⟩
    rw [Json.compactFields, List.append_assoc, List.cons_append]
  | cons next rest ih =>
    obtain ⟨hv, hrest⟩ := List.forall_mem_cons.mp h
    obtain ⟨s, hs, hwrites⟩ := ih hrest
    refine ⟨_, ?_, .members (hmember hv) hwrites⟩
    rw [Json.compactFields.eq_3 _ _ _ (List.cons_ne_nil next rest), hs]
    simp

/-- **The compact form of a value writes it.** -/
theorem Writable.compact {v : Json} (h : v.Writable) : Writes (.value v) v.compact := by
  induction h with
  | null => exact .nullWord
  | bool b => cases b <;> constructor
  | int h => exact .int (.compact h)
  | str text => exact .str (.compact text)
  | @arr items _ ih =>
    cases items with
    | nil => exact .emptyList blank_nil
    | cons v items =>
      obtain ⟨s, hs, hwrites⟩ := Writes.compactItems ih
      rw [Json.compact, hs]
      exact .list hwrites
  | @obj fields hkeys _ ih =>
    cases fields with
    | nil => exact .emptyObject blank_nil
    | cons field fields =>
      obtain ⟨s, hs, hwrites⟩ := Writes.compactFields ih
      rw [Json.compact, hs]
      exact .object hwrites (settled_of_distinct hkeys)

/-- **A compact document is read as its value.** -/
theorem read_compact {v : Json} (h : v.Writable) : read v.compact = .ok v :=
  read_written h.compact.bare

end NativeHeader.Json

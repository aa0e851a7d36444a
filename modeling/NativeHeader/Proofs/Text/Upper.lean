import NativeHeader.Text.Upper

/-! Upper case is settled after one step.

A character in upper case may be several characters, and only the first of them
is looked at again when a name is made longer. `upper_settled` says that it stays
what it is: the first character of an upper case is its own upper case. The code
points of both tables are the bits of one number (`changed`), so that the tables can
be checked by looking at each of their code points once (`tables_checked`). -/
namespace NativeHeader.Text

/-- A code point that is its own upper case. -/
structure Settled (n : Nat) : Prop where
  valid : n.isValidChar
  upper : upperCodes n = [n]

/-! ### Code points as bits -/

/-- The number with these bits. -/
def bitsAt (places : List Nat) : Nat := places.foldr (fun n bits => 1 <<< n ||| bits) 0

theorem testBit_bitsAt {places : List Nat} {n : Nat} :
    (bitsAt places).testBit n = true ↔ n ∈ places := by
  induction places with
  | nil => simp [bitsAt]
  | cons place rest ih =>
    have hcons : bitsAt (place :: rest) = 1 <<< place ||| bitsAt rest := rfl
    rw [hcons, Nat.testBit_or, Bool.or_eq_true, ih, Nat.one_shiftLeft, Nat.testBit_two_pow,
      decide_eq_true_eq, List.mem_cons, eq_comm]

/-- The code points on a run. -/
def Run.points (r : Run) : List Nat := List.range' r.first ((r.last - r.first) / r.step + 1) r.step

theorem mem_points {r : Run} {n m : Nat} (h : r.image? n = some m) :
    n ∈ r.points ∧ m = (n + r.offset).toNat := by
  unfold Run.image? at h
  split at h
  case isFalse => cases h
  case isTrue hn =>
    obtain ⟨hfirst, hlast, hstep⟩ := hn
    cases h
    have hplace : r.step * ((n - r.first) / r.step) = n - r.first :=
      Nat.mul_div_cancel' (Nat.dvd_of_mod_eq_zero hstep)
    have hcount : (n - r.first) / r.step ≤ (r.last - r.first) / r.step :=
      Nat.div_le_div_right (by omega)
    exact ⟨List.mem_range'.mpr ⟨_, Nat.lt_succ_of_le hcount, by omega⟩, rfl⟩

/-- The code points that are not their own upper case. -/
def changed : Nat := bitsAt (expansions.map Prod.fst ++ runs.flatMap Run.points)

theorem upperCodes_unchanged {n : Nat} (h : changed.testBit n = false) : upperCodes n = [n] := by
  have hplaces : n ∉ expansions.map Prod.fst ++ runs.flatMap Run.points := by
    rw [← testBit_bitsAt]
    exact Bool.eq_false_iff.mp h
  rw [List.mem_append, not_or] at hplaces
  have hnone : expansions.lookup n = none := by
    rw [List.lookup_eq_none_iff]
    intro e he
    rw [bne_iff_ne]
    rintro rfl
    exact hplaces.1 (List.mem_map_of_mem he)
  have hfix : runs.findSome? (·.image? n) = none := by
    rw [List.findSome?_eq_none_iff]
    intro r hr
    cases himage : r.image? n with
    | none => rfl
    | some m => exact absurd (List.mem_flatMap_of_mem hr (mem_points himage).1) hplaces.2
  simp [upperCodes, hnone, hfix]

/-! ### The tables -/

/-- A character that stays what it is, and no line feed. -/
def isFinal (n : Nat) : Bool := decide (10 < n ∧ n.isValidChar) && !changed.testBit n

theorem settled_of_isFinal {n : Nat} (h : isFinal n = true) : 10 < n ∧ Settled n := by
  rw [isFinal, Bool.and_eq_true, decide_eq_true_eq, Bool.not_eq_true'] at h
  obtain ⟨⟨habove, hvalid⟩, hunchanged⟩ := h
  exact ⟨habove, hvalid, upperCodes_unchanged hunchanged⟩

/-- The runs lead to characters that are settled, and so do the first code points of the
expansions. There is no line feed in either. -/
theorem tables_checked :
    (∀ r ∈ runs, ∀ n ∈ r.points, isFinal (n + r.offset).toNat = true) ∧
      ∀ e ∈ expansions, 10 ∉ e.2 ∧ e.2.head?.any isFinal = true := by
  have h : ((runs.all fun r => r.points.all fun n => isFinal (n + r.offset).toNat) &&
      expansions.all fun e => !e.2.contains 10 && e.2.head?.any isFinal) = true := by
    decide +kernel
  simpa using h

theorem image_settled {r : Run} (hr : r ∈ runs) {n m : Nat} (h : r.image? n = some m) :
    10 < m ∧ Settled m := by
  obtain ⟨hn, rfl⟩ := mem_points h
  exact settled_of_isFinal (tables_checked.1 r hr n hn)

theorem expansion_settled {e : Nat × List Nat} (he : e ∈ expansions) :
    10 ∉ e.2 ∧ ∃ n rest, e.2 = n :: rest ∧ Settled n := by
  obtain ⟨hfeed, hfirst⟩ := tables_checked.2 e he
  refine ⟨hfeed, ?_⟩
  cases hcodes : e.2 with
  | nil =>
    rw [hcodes] at hfirst
    cases hfirst
  | cons n rest =>
    rw [hcodes] at hfirst
    exact ⟨n, rest, rfl, (settled_of_isFinal hfirst).2⟩

/-! ### One code point -/

theorem upperCodes_settled {n : Nat} (hn : n.isValidChar) :
    ∃ m rest, upperCodes n = m :: rest ∧ Settled m := by
  cases hl : expansions.lookup n with
  | some codes =>
    obtain ⟨before, after, hsplit, _⟩ := List.lookup_eq_some_iff.mp hl
    obtain ⟨_, m, rest, hcodes, hm⟩ := expansion_settled (e := (n, codes)) (by rw [hsplit]; simp)
    exact ⟨m, rest, by simpa [upperCodes, hl] using hcodes, hm⟩
  | none =>
    cases hf : runs.findSome? (·.image? n) with
    | none =>
      have hself : upperCodes n = [n] := by simp [upperCodes, hl, hf]
      exact ⟨n, [], hself, hn, hself⟩
    | some m =>
      obtain ⟨r, hr, himage⟩ := List.exists_of_findSome?_eq_some hf
      exact ⟨m, [], by simp [upperCodes, hl, hf], (image_settled hr himage).2⟩

/-! ### Characters -/

theorem toNat_ofNat {n : Nat} (h : n.isValidChar) : (Char.ofNat n).toNat = n := by
  rw [Char.ofNat, dif_pos h]
  rfl

/-- **The first character of an upper case is its own upper case.** -/
theorem upper_settled (c : Char) : ∃ d rest, upper c = d :: rest ∧ upper d = [d] := by
  obtain ⟨m, rest, hcodes, hm⟩ := upperCodes_settled c.valid
  refine ⟨Char.ofNat m, rest.map Char.ofNat, ?_, ?_⟩
  · show (upperCodes c.toNat).map Char.ofNat = _
    rw [show c.toNat = c.val.toNat from rfl, hcodes, List.map_cons]
  · rw [upper, toNat_ofNat hm.valid, hm.upper]
    rfl

/-! ### Line feeds -/

/-- Only a line feed has a line feed in its upper case. -/
theorem newline_of_upperCodes {n : Nat} (h : 10 ∈ upperCodes n) : n = 10 := by
  unfold upperCodes at h
  cases hl : expansions.lookup n with
  | some codes =>
    obtain ⟨before, after, hsplit, _⟩ := List.lookup_eq_some_iff.mp hl
    have hfeed := (expansion_settled (e := (n, codes)) (by rw [hsplit]; simp)).1
    rw [hl] at h
    exact absurd h hfeed
  | none =>
    simp only [hl, List.mem_singleton] at h
    cases hf : runs.findSome? (·.image? n) with
    | none =>
      rw [hf] at h
      exact h.symm
    | some m =>
      obtain ⟨r, hr, himage⟩ := List.exists_of_findSome?_eq_some hf
      have habove := (image_settled hr himage).1
      rw [hf, Option.getD_some] at h
      omega

theorem newline_of_upper {c : Char} (h : '\n' ∈ upper c) : c = '\n' := by
  obtain ⟨n, hn, hchar⟩ := List.mem_map.mp h
  have hten : n = 10 := by
    by_cases hvalid : n.isValidChar
    · rw [← toNat_ofNat hvalid, hchar]
      rfl
    · rw [Char.ofNat, dif_neg hvalid] at hchar
      exact absurd hchar (by decide)
  rw [hten] at hn
  have hcode := newline_of_upperCodes hn
  rw [← Char.ofNat_toNat c, hcode]

end NativeHeader.Text

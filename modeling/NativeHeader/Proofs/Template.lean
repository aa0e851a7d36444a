import NativeHeader.Proofs.Header.Identifiers

/-! Templates that are put together from pieces.

A template is written from texts and slots: in a text every dollar sign is doubled, and a
slot is an identifier after a dollar sign, between braces or not (`assembled`). Reading such
a template and filling it gives the texts and the values, one after the other
(`renderWith_assembled`); what a value holds is never read. Braces matter only where a letter,
a digit or an underscore follows, which would go on with the identifier (`Legible`). -/
namespace NativeHeader.Template

/-- A part of a template. -/
inductive Piece where
  | literal (text : String)
  | slot (name : String) (braced : Bool)

/-- A character of a text as it is written: a dollar sign is doubled. -/
def doubled (c : Char) : List Char := if c = '$' then ['$', '$'] else [c]

/-- A part as it is written. -/
def Piece.written : Piece → List Char
  | .literal text => text.toList.flatMap doubled
  | .slot name true => '$' :: '\x7b' :: (name.toList ++ ['\x7d'])
  | .slot name false => '$' :: name.toList

/-- The text of a template. -/
def assembled (pieces : List Piece) : String := String.ofList (pieces.flatMap Piece.written)

/-- Slots are named by identifiers, and a slot without braces ends where its identifier does. -/
def Legible : List Piece → Prop
  | [] => True
  | .literal _ :: rest => Legible rest
  | .slot name braced :: rest =>
    Text.isIdentifier name = true ∧
      (braced = false → (rest.flatMap Piece.written).head?.any isIdentifierPart = false) ∧
      Legible rest

instance decidableLegible : (pieces : List Piece) → Decidable (Legible pieces)
  | [] => isTrue trivial
  | .literal _ :: rest => decidableLegible rest
  | .slot _ _ :: rest =>
    have := decidableLegible rest
    inferInstanceAs (Decidable (_ ∧ _ ∧ _))

/-! ### Filling -/

section
variable (value? : String → Option String) (rest : List Segment)

theorem render_text (s : String) :
    (⟨.text s :: rest⟩ : Template).render value? =
      ((⟨rest⟩ : Template).render value?).map (s ++ ·) := by
  have hfailure : (⟨.text s :: rest⟩ : Template).failure? value? =
      (⟨rest⟩ : Template).failure? value? := rfl
  unfold render
  rw [hfailure]
  cases (⟨rest⟩ : Template).failure? value? with
  | some failure => rfl
  | none => simp [fill, Except.map]

variable {value?} {name : String}

theorem render_slot {value : String} (h : value? name = some value) :
    (⟨.slot name :: rest⟩ : Template).render value? =
      ((⟨rest⟩ : Template).render value?).map (value ++ ·) := by
  have hfailure : (⟨.slot name :: rest⟩ : Template).failure? value? =
      (⟨rest⟩ : Template).failure? value? := by
    simp [failure?, h]
  unfold render
  rw [hfailure]
  cases (⟨rest⟩ : Template).failure? value? with
  | some failure => rfl
  | none => simp [fill, Except.map, h]

theorem render_missing (h : value? name = none) :
    (⟨.slot name :: rest⟩ : Template).render value? = .error (.missing name) := by
  simp [render, failure?, h]

end

/-! ### Reading -/

section
variable (whole rest : List Char)

theorem segmentsOf_nil : segmentsOf whole [] = [] := by rw [segmentsOf]

theorem segmentsOf_dollar : segmentsOf whole ('$' :: rest) =
    match afterDollar? rest with
    | some (segment, ⟨after, _⟩) => segment :: segmentsOf whole after
    | none =>
      .stray (({} : Text.Position).advance Text.isLineEnd (whole.take (whole.length - rest.length))) ::
        segmentsOf whole rest :=
  segmentsOf.eq_2 whole rest

theorem segmentsOf_text {c : Char} (hc : c ≠ '$') : segmentsOf whole (c :: rest) =
    .text (String.ofList (c :: rest.takeWhile (· ≠ '$'))) ::
      segmentsOf whole (rest.dropWhile (· ≠ '$')) :=
  segmentsOf.eq_3 whole c rest hc

/-- A character that is no dollar sign stands for itself. -/
theorem render_plain (value? : String → Option String) {c : Char} (hc : c ≠ '$') :
    (⟨segmentsOf whole (c :: rest)⟩ : Template).render value? =
      ((⟨segmentsOf whole rest⟩ : Template).render value?).map (String.singleton c ++ ·) := by
  rw [segmentsOf_text whole rest hc, render_text]
  cases rest with
  | nil => rfl
  | cons d rest =>
    by_cases hd : d = '$'
    · subst hd
      rfl
    · -- The character is read with those after it, up to the next dollar sign.
      have htake : (d :: rest).takeWhile (· ≠ '$') = d :: rest.takeWhile (· ≠ '$') :=
        List.takeWhile_cons_of_pos (decide_eq_true hd)
      have hdrop : (d :: rest).dropWhile (· ≠ '$') = rest.dropWhile (· ≠ '$') :=
        List.dropWhile_cons_of_pos (decide_eq_true hd)
      rw [segmentsOf_text whole rest hd, render_text, htake, hdrop]
      cases (⟨segmentsOf whole (rest.dropWhile (· ≠ '$'))⟩ : Template).render value? with
      | error failure => rfl
      | ok text =>
        have hsplit : String.ofList (c :: d :: rest.takeWhile (· ≠ '$')) =
            String.singleton c ++ String.ofList (d :: rest.takeWhile (· ≠ '$')) := by
          rw [String.singleton_eq_ofList, ← String.ofList_append]
          rfl
        simp only [Except.map, hsplit, String.append_assoc]

theorem segmentsOf_doubled :
    segmentsOf whole ('$' :: '$' :: rest) = .text "$" :: segmentsOf whole rest :=
  segmentsOf_dollar whole ('$' :: rest)

theorem isIdentifierPart_of_start {c : Char} (h : isIdentifierStart c = true) :
    isIdentifierPart c = true := by
  unfold isIdentifierStart at h
  unfold isIdentifierPart Char.isAlphanum
  grind

theorem identifier?_append {name : String} (hname : Text.isIdentifier name = true)
    (hrest : rest.head?.any isIdentifierPart = false) :
    ∃ h, identifier? (name.toList ++ rest) = some (name, ⟨rest, h⟩) := by
  obtain ⟨c, cs, hs, hc, hcs⟩ := identifier_cons hname
  have hall : ∀ d ∈ name.toList, isIdentifierPart d = true := by
    rw [hs]
    exact List.forall_mem_cons.mpr ⟨isIdentifierPart_of_start hc, hcs⟩
  have hstop : rest.takeWhile isIdentifierPart = [] ∧ rest.dropWhile isIdentifierPart = rest := by
    cases rest with
    | nil => exact ⟨rfl, rfl⟩
    | cons d rest =>
      have hd : isIdentifierPart d = false := hrest
      simp [hd]
  have htake : (name.toList ++ rest).takeWhile isIdentifierPart = name.toList := by
    rw [List.takeWhile_append_of_pos hall, hstop.1, List.append_nil]
  have hdrop : (name.toList ++ rest).dropWhile isIdentifierPart = rest := by
    rw [List.dropWhile_append_of_pos hall, hstop.2]
  have hstart : (name.toList ++ rest).head?.any isIdentifierStart = true := by
    rw [hs]
    exact hc
  refine ⟨by simp, ?_⟩
  unfold identifier?
  rw [if_pos hstart]
  simp only [htake, hdrop, String.ofList_toList]

theorem segmentsOf_braced {name : String} (hname : Text.isIdentifier name = true) :
    segmentsOf whole ('$' :: '\x7b' :: (name.toList ++ '\x7d' :: rest)) =
      .slot name :: segmentsOf whole rest := by
  obtain ⟨h, hfound⟩ := identifier?_append ('\x7d' :: rest) hname rfl
  rw [segmentsOf_dollar]
  simp only [afterDollar?, hfound]

theorem segmentsOf_found {s : List Char} {name : String} {h : rest.length ≤ s.length}
    (hdollar : ∀ t, s ≠ '$' :: t) (hbrace : ∀ t, s ≠ '\x7b' :: t)
    (hfound : identifier? s = some (name, ⟨rest, h⟩)) :
    segmentsOf whole ('$' :: s) = .slot name :: segmentsOf whole rest := by
  rw [segmentsOf_dollar, afterDollar?.eq_3 s hdollar hbrace, hfound]
  rfl

theorem segmentsOf_bare {name : String} (hname : Text.isIdentifier name = true)
    (hrest : rest.head?.any isIdentifierPart = false) :
    segmentsOf whole ('$' :: (name.toList ++ rest)) = .slot name :: segmentsOf whole rest := by
  obtain ⟨_, hfound⟩ := identifier?_append rest hname hrest
  obtain ⟨c, cs, hs, hc, _⟩ := identifier_cons hname
  refine segmentsOf_found whole rest (fun t ht => ?_) (fun t ht => ?_) hfound <;>
  · rw [hs] at ht
    rw [(List.cons.inj ht).1] at hc
    cases hc

end

/-! ### Pieces -/

section
variable (value? : String → Option String)

/-- What is made of pieces, one after the other. -/
def fillPieces : List Piece → Except Failure String
  | [] => .ok ""
  | .literal text :: rest => (fillPieces rest).map (text ++ ·)
  | .slot name _ :: rest =>
    match value? name with
    | some value => (fillPieces rest).map (value ++ ·)
    | none => .error (.missing name)

theorem fillPieces_literal (text : String) (rest : List Piece) :
    fillPieces value? (.literal text :: rest) = (fillPieces value? rest).map (text ++ ·) := rfl

theorem fillPieces_slot (name : String) (braced : Bool) (rest : List Piece) :
    fillPieces value? (.slot name braced :: rest) =
      match value? name with
      | some value => (fillPieces value? rest).map (value ++ ·)
      | none => .error (.missing name) := rfl

theorem render_doubled (whole rest cs : List Char) :
    (⟨segmentsOf whole (cs.flatMap doubled ++ rest)⟩ : Template).render value? =
      ((⟨segmentsOf whole rest⟩ : Template).render value?).map (String.ofList cs ++ ·) := by
  induction cs with
  | nil =>
    cases h : (⟨segmentsOf whole rest⟩ : Template).render value? <;> simp [Except.map, h]
  | cons c cs ih =>
    have hfirst : (⟨segmentsOf whole (doubled c ++ (cs.flatMap doubled ++ rest))⟩ : Template).render value? =
        ((⟨segmentsOf whole (cs.flatMap doubled ++ rest)⟩ : Template).render value?).map
          (String.singleton c ++ ·) := by
      by_cases hc : c = '$'
      · subst hc
        exact (congrArg (fun segments => (⟨segments⟩ : Template).render value?)
          (segmentsOf_doubled whole _)).trans (render_text value? _ "$")
      · rw [doubled, if_neg hc]
        exact render_plain whole _ value? hc
    rw [List.flatMap_cons, List.append_assoc, hfirst, ih]
    cases (⟨segmentsOf whole rest⟩ : Template).render value? with
    | error failure => rfl
    | ok text =>
      have hcons : String.ofList (c :: cs) = String.singleton c ++ String.ofList cs := by
        rw [String.singleton_eq_ofList, ← String.ofList_append]
        rfl
      simp only [Except.map, hcons, String.append_assoc]

/-- A slot, however it is written, is read as a slot. -/
theorem segmentsOf_slot (whole : List Char) {name : String} {braced : Bool} {rest : List Piece}
    (h : Legible (.slot name braced :: rest)) :
    segmentsOf whole ((Piece.slot name braced).written ++ rest.flatMap Piece.written) =
      .slot name :: segmentsOf whole (rest.flatMap Piece.written) := by
  obtain ⟨hname, hend, _⟩ := h
  cases braced with
  | true =>
    have hwritten : (Piece.slot name true).written ++ rest.flatMap Piece.written =
        '$' :: '\x7b' :: (name.toList ++ '\x7d' :: rest.flatMap Piece.written) := by
      simp [Piece.written]
    rw [hwritten, segmentsOf_braced whole _ hname]
  | false => exact segmentsOf_bare whole _ hname (hend rfl)

/-- **Reading what is assembled and filling it fills the pieces.** -/
theorem render_pieces (whole : List Char) {pieces : List Piece} (h : Legible pieces) :
    (⟨segmentsOf whole (pieces.flatMap Piece.written)⟩ : Template).render value? =
      fillPieces value? pieces := by
  induction pieces with
  | nil =>
    rw [List.flatMap_nil, segmentsOf_nil]
    rfl
  | cons piece rest ih =>
    rw [List.flatMap_cons]
    cases piece with
    | literal text =>
      rw [Piece.written, render_doubled, ih h, String.ofList_toList, fillPieces_literal]
    | slot name braced =>
      rw [segmentsOf_slot whole h, fillPieces_slot]
      cases hvalue : value? name with
      | none => rw [render_missing _ hvalue]
      | some value => rw [render_slot _ hvalue, ih h.2.2]

end

/-- There is something to put in the place of the part. -/
def Piece.Filled (values : List (String × String)) : Piece → Prop
  | .literal _ => True
  | .slot name _ => ∃ value, values.lookup name = some value

/-- What is put in the place of a part: a text itself, and for a slot its value as it is. -/
def Piece.content (values : List (String × String)) : Piece → String
  | .literal text => text
  | .slot name _ => (values.lookup name).getD ""

/-- The same part, with braces. -/
def Piece.embraced : Piece → Piece
  | .literal text => .literal text
  | .slot name _ => .slot name true

section
variable {pieces : List Piece} {values : List (String × String)}

theorem fillPieces_filled (h : ∀ p ∈ pieces, p.Filled values) :
    fillPieces (values.lookup ·) pieces = .ok (String.join (pieces.map (·.content values))) := by
  induction pieces with
  | nil => rfl
  | cons piece rest ih =>
    obtain ⟨hpiece, hrest⟩ := List.forall_mem_cons.mp h
    rw [List.map_cons, String.join_cons]
    cases piece with
    | literal text =>
      rw [fillPieces_literal, ih hrest]
      rfl
    | slot name braced =>
      obtain ⟨value, hvalue⟩ := hpiece
      simp only [fillPieces_slot, hvalue, ih hrest, Piece.content]
      rfl

/-- The first slot without a value decides. -/
theorem fillPieces_missing {before after : List Piece} {name : String} {braced : Bool}
    (hbefore : ∀ p ∈ before, p.Filled values) (hname : values.lookup name = none) :
    fillPieces (values.lookup ·) (before ++ .slot name braced :: after) = .error (.missing name) := by
  induction before with
  | nil => rw [List.nil_append, fillPieces_slot, hname]
  | cons piece rest ih =>
    obtain ⟨hpiece, hrest⟩ := List.forall_mem_cons.mp hbefore
    rw [List.cons_append]
    cases piece with
    | literal text =>
      rw [fillPieces_literal, ih hrest]
      rfl
    | slot first _ =>
      obtain ⟨value, hvalue⟩ := hpiece
      simp only [fillPieces_slot, hvalue, ih hrest]
      rfl

theorem fillPieces_embraced (value? : String → Option String) (pieces : List Piece) :
    fillPieces value? (pieces.map Piece.embraced) = fillPieces value? pieces := by
  induction pieces with
  | nil => rfl
  | cons piece rest ih =>
    cases piece <;>
      simp only [List.map_cons, Piece.embraced, fillPieces_literal, fillPieces_slot, ih]

theorem Legible.embraced (h : Legible pieces) : Legible (pieces.map Piece.embraced) := by
  induction pieces with
  | nil => trivial
  | cons piece rest ih =>
    cases piece with
    | literal text => exact ih h
    | slot name braced => exact ⟨h.1, nofun, ih h.2.2⟩

theorem renderWith_legible (h : Legible pieces) (hvalues : ∀ entry ∈ values, entry.1 ≠ ownName) :
    (ofText (assembled pieces)).renderWith values = fillPieces (values.lookup ·) pieces := by
  have hnone : ¬ values.any (·.1 = ownName) = true := by
    rw [List.any_eq_true]
    rintro ⟨entry, hentry, hname⟩
    exact hvalues entry hentry (of_decide_eq_true hname)
  rw [renderWith, if_neg hnone, ofText, assembled, String.toList_ofList, render_pieces _ _ h]

end

/-- **Filling undoes assembling.** Unless a value has the name that is kept for the template,
filling an assembled template gives its texts and the values of its slots, one after the
other, or tells the first slot that has no value. Braces around a slot change nothing. -/
theorem renderWith_assembled {pieces : List Piece} (hpieces : Legible pieces)
    (values : List (String × String)) :
    ((∃ entry ∈ values, entry.1 = ownName) →
      (ofText (assembled pieces)).renderWith values = .error .reservedName) ∧
    ((∀ entry ∈ values, entry.1 ≠ ownName) →
      ((∀ p ∈ pieces, p.Filled values) →
        (ofText (assembled pieces)).renderWith values =
          .ok (String.join (pieces.map (·.content values)))) ∧
      ∀ before name braced after, pieces = before ++ .slot name braced :: after →
        (∀ p ∈ before, p.Filled values) → values.lookup name = none →
          (ofText (assembled pieces)).renderWith values = .error (.missing name)) ∧
    (ofText (assembled (pieces.map Piece.embraced))).renderWith values =
      (ofText (assembled pieces)).renderWith values := by
  by_cases hown : ∃ entry ∈ values, entry.1 = ownName
  · have hreserved (t : Template) : t.renderWith values = .error .reservedName := by
      obtain ⟨entry, hentry, hname⟩ := hown
      rw [renderWith, if_pos (List.any_eq_true.mpr ⟨entry, hentry, decide_eq_true hname⟩)]
    refine ⟨fun _ => hreserved _, fun hvalues => ?_, (hreserved _).trans (hreserved _).symm⟩
    obtain ⟨entry, hentry, hname⟩ := hown
    exact absurd hname (hvalues entry hentry)
  · have hvalues : ∀ entry ∈ values, entry.1 ≠ ownName := fun entry hentry hname =>
      hown ⟨entry, hentry, hname⟩
    rw [renderWith_legible hpieces hvalues, renderWith_legible hpieces.embraced hvalues]
    refine ⟨fun h => absurd h hown, fun _ => ⟨fillPieces_filled, ?_⟩, fillPieces_embraced _ _⟩
    rintro before name braced after rfl hbefore hname
    exact fillPieces_missing hbefore hname

/-- A template with dollar signs in its texts, and slots with and without braces. -/
def purse : List Piece :=
  [.literal "$\x7bspec\x7d: ", .slot "methods" false, .literal "-", .slot "spec" true, .literal "s"]

/-- Values with dollar signs and slots in them stay as they are. -/
theorem renderWith_assembled_purse : Legible purse ∧
    (ofText (assembled purse)).renderWith [("spec", "Cash$$"), ("methods", "$\x7bspec\x7d")] =
      .ok "$\x7bspec\x7d: $\x7bspec\x7d-Cash$$s" := by
  have hpurse : Legible purse := by decide
  have hfilled : ∀ p ∈ purse, p.Filled [("spec", "Cash$$"), ("methods", "$\x7bspec\x7d")] := by
    simp only [purse, List.forall_mem_cons]
    exact ⟨trivial, ⟨_, rfl⟩, trivial, ⟨_, rfl⟩, trivial, List.forall_mem_nil _⟩
  exact ⟨hpurse, ((renderWith_assembled hpurse _).2.1 (by decide)).1 hfilled⟩

/-- A slot can bear the name that is kept for the template, and then no value can be given for it. -/
theorem own_name_unfilled : ¬ ∀ (pieces : List Piece) (values : List (String × String)),
    Legible pieces → (∀ p ∈ pieces, p.Filled values) →
      (ofText (assembled pieces)).renderWith values =
        .ok (String.join (pieces.map (·.content values))) := by
  intro hall
  have hslot := hall [.slot ownName true] [(ownName, "x")] (by decide) (by simp [Piece.Filled])
  cases hslot

end NativeHeader.Template

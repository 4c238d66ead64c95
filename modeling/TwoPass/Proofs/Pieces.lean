import TwoPass.Text

/-!
# Text cut and joined again

A listing is read by cutting it at line feeds and tabs, an object program by
cutting it at line feeds and carets, and a source line by cutting it at blanks.
Cutting undoes joining only where the parts that were joined hold nothing that is
cut at, so every statement about a text that is read back comes down to what its
parts hold.

`Text.pieces` is the cutting of the list library (`Text.pieces_eq_splitOnP`), and
what that library knows about it carries over. From there on nothing opens
`Text.pieces`: a text with a separator in it is cut there (`Text.split_append`), and
a text without one stays in one piece (`Text.split_of_uncut`).
-/

namespace TwoPass.Text

/-! ## Pieces -/

/-- The pieces of a text are those of the list library. -/
theorem pieces_eq_splitOnP (cut : Char → Bool) (chars : List Char) :
    pieces cut chars = chars.splitOnP cut := by
  induction chars with
  | nil => rfl
  | cons c rest ih =>
    rw [pieces, List.splitOnP_cons_eq_if_modifyHead, ← ih]
    by_cases hc : cut c = true
    · rw [if_pos hc, if_pos hc]
    · rw [if_neg hc, if_neg hc]
      cases hrest : pieces cut rest with
      | nil => exact absurd (ih.symm.trans hrest) (List.splitOnP_ne_nil cut rest)
      | cons piece more => rfl

/-- **A separator cuts a text in two.** -/
theorem pieces_append_cons {cut : Char → Bool} {c : Char} (hc : cut c = true)
    (before behind : List Char) :
    pieces cut (before ++ c :: behind) = pieces cut before ++ pieces cut behind := by
  simp only [pieces_eq_splitOnP, List.splitOnP_append_cons before behind hc]

/-- A text without a separator is one piece. -/
theorem pieces_of_uncut {cut : Char → Bool} {chars : List Char}
    (h : ∀ c ∈ chars, cut c = false) : pieces cut chars = [chars] := by
  rw [pieces_eq_splitOnP, List.splitOnP_eq_singleton h]

/-- A piece is made of characters of the text that are no separators. -/
theorem of_mem_pieces {cut : Char → Bool} {chars piece : List Char}
    (h : piece ∈ pieces cut chars) : ∀ c ∈ piece, cut c = false ∧ c ∈ chars := by
  induction chars generalizing piece with
  | nil =>
    rw [pieces, List.mem_singleton] at h
    subst h
    exact fun c hc => nomatch hc
  | cons d rest ih =>
    have hlater : ∀ {piece : List Char}, piece ∈ pieces cut rest →
        ∀ c ∈ piece, cut c = false ∧ c ∈ d :: rest := fun hpiece c hc =>
      ⟨(ih hpiece c hc).1, List.mem_cons_of_mem d (ih hpiece c hc).2⟩
    rw [pieces] at h
    by_cases hd : cut d = true
    · rw [if_pos hd, List.mem_cons] at h
      rcases h with rfl | h
      · exact fun c hc => nomatch hc
      · exact hlater h
    · rw [if_neg hd] at h
      -- the first piece of what follows goes on with this character
      have hfirst : ∀ {more : List Char}, (∀ c ∈ more, cut c = false ∧ c ∈ d :: rest) →
          ∀ c ∈ d :: more, cut c = false ∧ c ∈ d :: rest := by
        intro more hmore c hc
        rcases List.mem_cons.mp hc with rfl | hc
        · exact ⟨by simpa using hd, List.mem_cons_self⟩
        · exact hmore c hc
      cases hrest : pieces cut rest with
      | nil =>
        rw [hrest, List.mem_singleton] at h
        subst h
        exact hfirst fun c hc => nomatch hc
      | cons first others =>
        rw [hrest, List.mem_cons] at h
        rcases h with rfl | h
        · exact hfirst (hlater (hrest ▸ List.mem_cons_self))
        · exact hlater (hrest ▸ List.mem_cons_of_mem first h)

/-! ## Texts -/

theorem split_append {cut : Char → Bool} {c : Char} (hc : cut c = true) {separator : String}
    (hseparator : separator.toList = [c]) (before behind : String) :
    split cut (before ++ separator ++ behind) = split cut before ++ split cut behind := by
  unfold split
  rw [String.toList_append, String.toList_append, hseparator, List.append_assoc,
    List.singleton_append, pieces_append_cons hc, List.map_append]

theorem split_of_uncut {cut : Char → Bool} {text : String}
    (h : ∀ c ∈ text.toList, cut c = false) : split cut text = [text] := by
  rw [split, pieces_of_uncut h, List.map_singleton, String.ofList_toList]

/-- There is always a piece. -/
theorem split_ne_nil (cut : Char → Bool) (text : String) : split cut text ≠ [] := by
  rw [split, pieces_eq_splitOnP, Ne, List.map_eq_nil_iff]
  exact List.splitOnP_ne_nil cut text.toList

/-- **Joining undoes cutting**, whatever the text holds. -/
theorem intercalate_split {c : Char} {separator : String} (hseparator : separator.toList = [c])
    (text : String) : separator.intercalate (split (· = c) text) = text := by
  have hpieces : pieces (· = c) text.toList = text.toList.splitOn c := by
    rw [pieces_eq_splitOnP, List.splitOn_eq_splitOnP]
    rfl
  have hchars : (split (· = c) text).map String.toList = text.toList.splitOn c := by
    rw [split, List.map_map, hpieces]
    exact (List.map_congr_left fun _ _ => String.toList_ofList).trans (List.map_id _)
  apply String.toList_inj.mp
  rw [String.toList_intercalate, hseparator, hchars, List.intercalate_splitOn]

/-- A character does not occur in a text. -/
def Lacks (c : Char) (text : String) : Prop := c ∉ text.toList

instance (c : Char) (text : String) : Decidable (Lacks c text) :=
  inferInstanceAs (Decidable (¬ c ∈ text.toList))

/-- A text that lacks a separator is not cut at it. -/
theorem Lacks.split_eq {c : Char} {text : String} (h : Lacks c text) :
    split (· = c) text = [text] :=
  split_of_uncut fun _ hd => decide_eq_false fun hdc => h (hdc ▸ hd)

theorem Lacks.append {c : Char} {a b : String} (ha : Lacks c a) (hb : Lacks c b) :
    Lacks c (a ++ b) := by
  unfold Lacks
  rw [String.toList_append, List.mem_append]
  exact fun h => h.elim ha hb

/-- A text joined of parts lacks what the parts and the separator lack. -/
theorem Lacks.intercalate {c : Char} {separator : String} {parts : List String}
    (hseparator : Lacks c separator) (h : ∀ part ∈ parts, Lacks c part) :
    Lacks c (separator.intercalate parts) := by
  induction parts with
  | nil => exact List.not_mem_nil
  | cons part more ih =>
    have hmore := ih fun other hother => h other (List.mem_cons_of_mem part hother)
    cases more with
    | nil => exact h part List.mem_cons_self
    | cons next others =>
      rw [String.intercalate_cons_cons]
      exact ((h part List.mem_cons_self).append hseparator).append hmore

/-- **Cutting undoes joining** if no part holds the separator. -/
theorem split_intercalate {c : Char} {separator : String} (hseparator : separator.toList = [c])
    {parts : List String} (hne : parts ≠ []) (h : ∀ part ∈ parts, Lacks c part) :
    split (· = c) (separator.intercalate parts) = parts := by
  induction parts with
  | nil => exact absurd rfl hne
  | cons part more ih =>
    have hpart := (h part List.mem_cons_self).split_eq
    cases more with
    | nil => exact hpart
    | cons next others =>
      rw [String.intercalate_cons_cons, split_append (decide_eq_true rfl) hseparator, hpart,
        ih (List.cons_ne_nil next others) fun other hother =>
          h other (List.mem_cons_of_mem part hother)]
      rfl

/-- **Lines that were ended by line feeds are read back**, and nothing stands behind
the last line feed. -/
theorem split_lines {rows : List String} (h : ∀ row ∈ rows, Lacks '\n' row) :
    split (· = '\n') (String.join (rows.map (· ++ "\n"))) = rows ++ [""] := by
  induction rows with
  | nil => rfl
  | cons row more ih =>
    rw [List.map_cons, String.join_cons, split_append (decide_eq_true rfl) rfl,
      (h row List.mem_cons_self).split_eq,
      ih fun other hother => h other (List.mem_cons_of_mem row hother)]
    rfl

/-! ## Fields -/

/-- A field is not empty, and its characters are characters of the line other than
blanks. -/
theorem of_mem_fields {text field : String} (h : field ∈ fields text) :
    field ≠ "" ∧ ∀ c ∈ field.toList, isBlank c = false ∧ c ∈ text.toList := by
  obtain ⟨piece, hpiece, rfl⟩ := List.mem_map.mp h
  obtain ⟨hmem, hne⟩ := List.mem_filter.mp hpiece
  refine ⟨fun hempty => of_decide_eq_true hne ?_, ?_⟩
  · rw [← String.toList_ofList (l := piece), hempty, String.toList_empty]
  · rw [String.toList_ofList]
    exact of_mem_pieces hmem

/-- A line of one word has that word for its only field. -/
theorem fields_of_unblank {text : String} (hne : text ≠ "")
    (h : ∀ c ∈ text.toList, isBlank c = false) : fields text = [text] := by
  have htext : text.toList ≠ [] := fun hnil => hne (String.toList_eq_nil_iff.mp hnil)
  rw [fields, pieces_of_uncut h]
  simp [htext]

/-- **Words with a space between them are the fields of the line they make.** -/
theorem fields_intercalate {words : List String}
    (h : ∀ word ∈ words, word ≠ "" ∧ ∀ c ∈ word.toList, isBlank c = false) :
    fields (" ".intercalate words) = words := by
  induction words with
  | nil => rfl
  | cons word more ih =>
    obtain ⟨hne, hword⟩ := h word List.mem_cons_self
    have hfirst := fields_of_unblank hne hword
    cases more with
    | nil => exact hfirst
    | cons next others =>
      have hmore := ih fun other hother => h other (List.mem_cons_of_mem word hother)
      have hcut : fields (word ++ " " ++ " ".intercalate (next :: others))
          = fields word ++ fields (" ".intercalate (next :: others)) := by
        unfold fields
        rw [String.toList_append, String.toList_append, show " ".toList = [' '] from rfl,
          List.append_assoc, List.singleton_append,
          pieces_append_cons (show isBlank ' ' = true from rfl), List.filter_append,
          List.map_append]
      rw [String.intercalate_cons_cons, hcut, hfirst, hmore]
      rfl

end TwoPass.Text

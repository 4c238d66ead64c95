import TwoPass.Proofs.PlainLayout
import TwoPass.Proofs.Pieces

/-!
# Statements written back

A statement keeps the fields of its line word for word: a mnemonic has the name it was
looked up by, and an operand is written the way it was read
(`Statement.fields_of_read`). So a statement that was read is read again from
`Statement.source`, and all that is lost is how wide the blanks were.

The first pass does not see the blanks either. As long as it accepts a program, it does
the same to any other program whose lines have the same fields
(`FirstPass.run_of_sameFields`); only a fault quotes the line as it was.
-/

namespace TwoPass

/-! ## Fields -/

/-- What was cut at a comma is joined by one. -/
theorem Text.join_splitComma? {text label index : String}
    (h : splitComma? text = some (label, index)) : s!"{label},{index}" = text := by
  unfold splitComma? at h
  split at h
  · cases h
  · next comma behind hdrop =>
    cases h
    have hcomma : comma = ',' := by
      have hhead := List.head?_dropWhile_not (fun c => decide (c ≠ ',')) text.toList
      rw [hdrop, List.head?_cons] at hhead
      simpa using hhead
    have htext : text.toList.takeWhile (· ≠ ',') ++ comma :: behind = text.toList :=
      hdrop ▸ List.takeWhile_append_dropWhile
    apply String.toList_inj.mp
    show (String.ofList _ ++ "," ++ String.ofList behind).toList = text.toList
    rw [hcomma] at htext
    simpa using htext

/-- **An operand is written the way it was read.** -/
@[simp] theorem Mnemonic.render_operand (mnemonic : Mnemonic) (field : String) :
    (mnemonic.operand field).render = field := by
  unfold Mnemonic.operand
  split
  · rfl
  · split
    · next hcomma => exact Text.join_splitComma? hcomma
    · rfl

namespace Statement

@[simp] theorem fields_ofFields (line : Nat) (label : Option String) (mnemonic : String)
    (operand : Option String) :
    (ofFields line label mnemonic operand).fields
      = label.toList ++ mnemonic :: operand.toList := by
  unfold ofFields fields
  simp only [Mnemonic.name_lookup, Option.map_map]
  have hwritten : Operand.render ∘ (Mnemonic.lookup mnemonic).operand = id := by
    funext field
    exact Mnemonic.render_operand _ field
  rw [hwritten, Option.map_id_fun, id]

/-- **A statement keeps the fields of its line.** -/
theorem fields_of_read {line : Nat} {text : String} {s : Statement}
    (h : read line text = .ok s) : s.fields = Text.fields text := by
  unfold read at h
  split at h
  · next hfields => cases h; rw [hfields, fields_ofFields]; rfl
  · next hfields => cases h; rw [hfields, fields_ofFields]; rfl
  · next hfields => cases h; rw [hfields, fields_ofFields]; rfl
  · cases h

/-- A statement with the fields of a line is written as a line of these fields. -/
theorem fields_source {s : Statement} {text : String} (h : s.fields = Text.fields text) :
    Text.fields s.source = Text.fields text := by
  rw [source, h, Text.fields_intercalate]
  intro field hfield
  obtain ⟨hne, hchars⟩ := Text.of_mem_fields hfield
  exact ⟨hne, fun c hc => (hchars c hc).1⟩

/-- Lines of the same fields are read the same. -/
theorem read_of_fields_eq {line : Nat} {text other : String} {s : Statement}
    (h : read line text = .ok s) (hfields : Text.fields other = Text.fields text) :
    read line other = .ok s := by
  unfold read at h ⊢
  rw [hfields]
  split at h
  · exact h
  · exact h
  · exact h
  · cases h

end Statement

/-! ## The first pass over lines of the same fields -/

namespace Layout

variable {l : Layout} {line : Nat} {text other : String} {s : Statement}

/-- **A line that takes its place does so however wide its blanks are.** -/
theorem placeNext_of_fields_eq (hfields : Text.fields other = Text.fields text)
    (h : (l.placeNext line text).result = .ok s) :
    l.placeNext line other = l.placeNext line text := by
  have hopening : opening line text = opening line other := by
    rw [opening, opening, hfields]
  refine (l.placing_placeNext line other).unique ?_
  have hplacing := l.placing_placeNext line text
  generalize l.placeNext line text = placement at h hplacing
  cases hplacing with
  | unread _ => cases h
  | second _ _ _ => cases h
  | misgiven _ _ _ _ _ => cases h
  | beyond _ _ _ => cases h
  | unbased hread hstart hunset =>
    rw [hopening]
    exact .unbased (Statement.read_of_fields_eq hread hfields) hstart hunset
  | settled hread hmeets hfits =>
    rw [hopening]
    exact .settled (Statement.read_of_fields_eq hread hfields) hmeets hfits

theorem place_of_fields_eq (hfields : Text.fields other = Text.fields text)
    (h : (l.place line text).result = .ok s) : l.place line other = l.place line text := by
  unfold place at h ⊢
  split at h
  · cases h
  · exact placeNext_of_fields_eq hfields h

end Layout

namespace FirstPass

/-- **The pass does not see blanks**, from any layout on. -/
theorem runFrom_of_sameFields {lines others : List String}
    (hfields : List.Forall₂ (fun other text => Text.fields other = Text.fields text) others lines)
    {l : Layout} {line : Nat} {statements : List Statement}
    (h : (runFrom l line lines).result = .ok statements) :
    runFrom l line others = runFrom l line lines := by
  induction hfields generalizing l line statements with
  | nil => rfl
  | @cons other text others lines hfirst hmore ih =>
    obtain ⟨s, rest, hplaced, hrest, rfl⟩ := runFrom_cons_eq_ok h
    rw [runFrom, runFrom, Layout.place_of_fields_eq hfirst hplaced]
    simp only [hplaced, ih hrest]

/-- **The first pass does the same to programs of the same fields**, if it accepts
them. -/
theorem run_of_sameFields {lines others : List String}
    (hfields : List.Forall₂ (fun other text => Text.fields other = Text.fields text) others lines)
    {statements : List Statement} (h : (run lines).result = .ok statements) :
    run others = run lines := by
  rw [result_run] at h
  rw [run, run, runFrom_of_sameFields hfields h]

end FirstPass

end TwoPass

import TwoPass.Proofs.Alike

/-!
# Relocation

A program that opens with its `START` lies where the `START` says. Two programs that
differ in nothing but that number are the same program at two places, and this module
says what becomes of the assembly when the place changes.

Every statement keeps its distance from the origin (`Statement.Moved`). The sizes of
statements that are alike are the same, so the distance is carried along from line to
line (`Statement.Laid.moved`). Labels name statements, and whatever is looked up moves
with them (`SymbolTable.rel_address?_all`).

A code moves with the address in it as far as the address field reaches. An address of
four digits stands in the field as it is. An index register takes the leading bit of the
field, which leaves fifteen bits for the address (`Statement.CodedAs.value_direct`,
`Statement.CodedAs.value_indexed`). Below and above that the field is filled with zeros
behind the address or grows, and the code as a number does something else.

The records hold addresses of statements, which move, and distances between them, which
do not (`ObjectProgram.moved_header`, `ObjectProgram.moved_text`).
-/

namespace TwoPass

/-! ## Addresses -/

namespace Hex

/-- Two texts have values as far apart as `v` and `v'`. -/
def ShiftedBy (v v' : Nat) (text text' : String) : Prop :=
  (value text' : Int) - value text = (v' : Int) - v

/-- **Two texts spell addresses at the same distance** from `v` and from `v'`. -/
def Moved (v v' : Nat) (text text' : String) : Prop :=
  ∃ d, text = render (v + d) ∧ text' = render (v' + d)

variable {v v' : Nat} {text text' : String}

theorem Moved.shiftedBy (h : Moved v v' text text') : ShiftedBy v v' text text' := by
  obtain ⟨d, rfl, rfl⟩ := h
  rw [ShiftedBy, value_render, value_render]
  omega

/-- The digits of two texts one behind the other. -/
theorem value_append (a b : String) : value (a ++ b) = value a * 16 ^ b.length + value b := by
  unfold value
  rw [String.toList_append, List.map_append, List.reverse_append, Nat.ofDigits_append,
    List.length_reverse, List.length_map, String.length_toList]
  ring

/-- A text that is wide enough is not filled up. -/
theorem padRight_of_length_le {w : Nat} (h : w ≤ text.length) : padRight text w = text := by
  rw [padRight, List.rightpad, String.length_toList, Nat.sub_eq_zero_of_le h, List.replicate_zero,
    List.append_nil, String.ofList_toList]

end Hex

/-! ## The line of a `START` -/

namespace Plain

/-- **The line of a `START`** with a given label and an origin of a given value. -/
def Opens (label : Option String) (v : Nat) (text : String) : Prop :=
  ∃ origin, Text.fields text = label.toList ++ ["START", origin]
    ∧ Hex.IsNumeral origin ∧ Hex.value origin = v

variable {label : Option String} {v : Nat} {text : String}

theorem Opens.ne_empty (h : Opens label v text) : text ≠ "" := by
  rintro rfl
  obtain ⟨origin, hfields, -⟩ := h
  have hlength := congrArg List.length hfields
  rw [List.length_append] at hlength
  exact absurd hlength (by simp [Text.fields, Text.pieces])

/-- What is read from such a line. -/
theorem Opens.read (h : Opens label v text) (line : Nat) :
    ∃ origin, Statement.read line text = .ok
      { line, label, mnemonic := .directive .start, operand := some (.literal origin) } := by
  obtain ⟨origin, hfields, -⟩ := h
  have hstart : Mnemonic.lookup "START" = .directive .start :=
    Mnemonic.lookup_eq_directive_iff.mpr rfl
  have hown : Statement.ofFields line label "START" (some origin)
      = { line, label, mnemonic := .directive .start, operand := some (.literal origin) } := by
    rw [Statement.ofFields, hstart]
    rfl
  refine ⟨origin, ?_⟩
  rw [← hown, Statement.read]
  cases label with
  | none => rw [hfields]; rfl
  | some name => rw [hfields]; rfl

/-- The line lies at the origin. -/
theorem Opens.address_zero (h : Opens label v text) (more : List String) :
    isStart (textAt (text :: more) 0) = true ∧ address (text :: more) 0 = some v := by
  obtain ⟨origin, hfields, -, rfl⟩ := h
  have hparts : parts? text = some ("START", some origin) := by
    unfold parts?
    cases label with
    | none => rw [hfields]; rfl
    | some name => rw [hfields]; rfl
  have hstart : isStart (textAt (text :: more) 0) = true := by
    show isStart text = true
    rw [isStart, hparts]
    rfl
  refine ⟨hstart, ?_⟩
  rw [address, if_pos hstart]
  show some (Plain.origin text) = _
  rw [Plain.origin, operand?, hparts]
  rfl

end Plain

/-! ## Statements at two places -/

namespace Statement

/-- **A statement at two places**: it is written alike, and it lies at the same distance
from `v` and from `v'`. -/
structure Moved (v v' : Nat) (s s' : Statement) : Prop extends Alike s s' where
  /-- Both have an address, at the same distance. -/
  address : ∃ a a', s.address = some a ∧ s'.address = some a' ∧ Hex.Moved v v' a a'

theorem Moved.isSome_address {v v' : Nat} {s s' : Statement} (h : s.Moved v v' s') :
    s'.address.isSome = s.address.isSome := by
  obtain ⟨a, a', haddress, haddress', -⟩ := h.address
  rw [haddress, haddress']
  rfl

/-- The addresses that the statement has are at the same distance. -/
theorem Moved.address_of_eq {v v' : Nat} {s s' : Statement} (h : s.Moved v v' s')
    {a a' : String} (ha : s.address = some a) (ha' : s'.address = some a') :
    Hex.Moved v v' a a' := by
  obtain ⟨b, b', hb, hb', hmoved⟩ := h.address
  rw [ha] at hb
  rw [ha'] at hb'
  cases hb
  cases hb'
  exact hmoved

/-- A statement has the spelling of its location for its address. -/
theorem address_of_location? {s : Statement} {a : Nat}
    (hspelt : ∀ address, s.address = some address → ∃ u ≤ maxAddress, address = Hex.render u)
    (h : s.location? = some a) : s.address = some (Hex.render a) := by
  obtain ⟨address, haddress, rfl⟩ := Option.map_eq_some_iff.mp h
  obtain ⟨u, -, rfl⟩ := hspelt address haddress
  rw [haddress, Hex.value_render]

/-- **Distances are carried along from statement to statement.** -/
theorem Laid.moved {v v' d : Nat} {l l' : List Statement} (halike : List.Forall₂ Alike l l')
    (hspelt : ∀ s ∈ l, ∀ address, s.address = some address →
      ∃ u ≤ maxAddress, address = Hex.render u)
    (hspelt' : ∀ s ∈ l', ∀ address, s.address = some address →
      ∃ u ≤ maxAddress, address = Hex.render u)
    (h : Laid (v + d) l) (h' : Laid (v' + d) l') : List.Forall₂ (Moved v v') l l' := by
  induction halike generalizing d with
  | nil => exact .nil
  | @cons s s' more more' hfirst _ ih =>
    obtain ⟨hlocation, hmore⟩ := h
    obtain ⟨hlocation', hmore'⟩ := h'
    refine .cons ⟨hfirst, _, _, ?_, ?_, d, rfl, rfl⟩ (ih ?_ ?_ (d := d + s.bytes) ?_ ?_)
    · exact address_of_location? (hspelt s List.mem_cons_self) hlocation
    · exact address_of_location? (hspelt' s' List.mem_cons_self) hlocation'
    · exact fun t ht => hspelt t (List.mem_cons_of_mem s ht)
    · exact fun t ht => hspelt' t (List.mem_cons_of_mem s' ht)
    · rwa [← Nat.add_assoc]
    · rw [hfirst.bytes_eq] at hmore'
      rwa [← Nat.add_assoc]

end Statement

namespace SecondPass

variable {label : Option String} {v v' : Nat} {first first' : String} {body : List String}
  {placed placed' : List Statement}

/-- **Programs with the same lines behind the `START` are alike.** -/
theorem forall₂_alike (hopens : Plain.Opens label v first) (hopens' : Plain.Opens label v' first')
    (hplaced : (FirstPass.run (first :: body)).result = .ok placed)
    (hfault : (run placed).fault = none)
    (hplaced' : (FirstPass.run (first' :: body)).result = .ok placed')
    (hfault' : (run placed').fault = none) :
    List.Forall₂ Statement.Alike (run placed).statements (run placed').statements := by
  refine List.forall₂_iff_get.mpr ⟨?_, fun k hk hk' => ?_⟩
  · rw [length_statements hplaced hfault, length_statements hplaced' hfault', List.length_cons,
      List.length_cons]
  obtain ⟨t, hread, ht⟩ := placed_of_getElem? hplaced hfault (List.getElem?_eq_getElem hk)
  obtain ⟨t', hread', ht'⟩ := placed_of_getElem? hplaced' hfault' (List.getElem?_eq_getElem hk')
  have halike : t.Alike t' := by
    cases k with
    | zero =>
      obtain ⟨origin, hown⟩ := hopens.read 1
      obtain ⟨origin', hown'⟩ := hopens'.read 1
      obtain rfl := Except.ok.inj (hread.symm.trans hown)
      obtain rfl := Except.ok.inj (hread'.symm.trans hown')
      exact ⟨rfl, rfl, rfl, .inr ⟨rfl, origin, origin', rfl, rfl⟩⟩
    | succ k =>
      -- behind the first line both programs have the same text
      obtain rfl := Except.ok.inj (hread.symm.trans hread')
      exact ⟨rfl, rfl, rfl, .inl rfl⟩
  refine Statement.Alike.uncoded_iff.mp ?_
  rw [List.get_eq_getElem, List.get_eq_getElem, ht, ht']
  exact ⟨halike.line, halike.label, halike.mnemonic, halike.operand⟩

/-- A program that opens with a `START` lies one statement behind the other from its
origin on. -/
theorem laid_of_opens (hopens : Plain.Opens label v first)
    (hplaced : (FirstPass.run (first :: body)).result = .ok placed)
    (hfault : (run placed).fault = none) : Statement.Laid v (run placed).statements := by
  obtain ⟨hstart, haddress⟩ := hopens.address_zero body
  have hsequence := inSequence hplaced hfault hstart
  obtain ⟨opening, more, -, hstatements, -, -⟩ := exists_start hplaced hfault hstart
  have hlocation := (placed_of_getElem? hplaced hfault
    (by rw [hstatements]; rfl : (run placed).statements[0]? = some opening)).location?
  rw [haddress] at hlocation
  rw [hstatements] at hsequence ⊢
  exact hsequence.laid (List.nil_append _).symm hlocation

/-- **Programs with the same lines behind the `START` are one program at two places.** -/
theorem forall₂_moved (hopens : Plain.Opens label v first) (hopens' : Plain.Opens label v' first')
    (hplaced : (FirstPass.run (first :: body)).result = .ok placed)
    (hfault : (run placed).fault = none)
    (hplaced' : (FirstPass.run (first' :: body)).result = .ok placed')
    (hfault' : (run placed').fault = none) :
    List.Forall₂ (Statement.Moved v v') (run placed).statements (run placed').statements := by
  have hlaid := laid_of_opens hopens hplaced hfault
  have hlaid' := laid_of_opens hopens' hplaced' hfault'
  rw [← Nat.add_zero v] at hlaid
  rw [← Nat.add_zero v'] at hlaid'
  exact Statement.Laid.moved (forall₂_alike hopens hopens' hplaced hfault hplaced' hfault')
    (fun _ hs _ haddress => address_of_mem hplaced hfault hs haddress)
    (fun _ hs _ haddress => address_of_mem hplaced' hfault' hs haddress) hlaid hlaid'

end SecondPass

/-! ## Labels at two places -/

namespace SymbolTable

variable {v v' : Nat} {statements statements' : List Statement}

/-- **Labels move with the statements they name.** -/
theorem rel_address?_all (h : List.Forall₂ (Statement.Moved v v') statements statements')
    (name : String) :
    Option.Rel (Hex.Moved v v') ((all statements).address? name)
      ((all statements').address? name) := by
  have hfound := rel_find? h (p := (·.label = some name)) (q := (·.label = some name))
    fun s s' hmoved => by rw [hmoved.label]
  rw [address?_all, address?_all]
  generalize statements.find? (·.label = some name) = s? at hfound ⊢
  generalize statements'.find? (·.label = some name) = s?' at hfound ⊢
  cases hfound with
  | none => exact .none
  | some hmoved =>
    obtain ⟨a, a', haddress, haddress', hown⟩ := hmoved.address
    rw [Option.bind_some, Option.bind_some, haddress, haddress']
    exact .some hown

theorem rel_address?_storage (h : List.Forall₂ (Statement.Moved v v') statements statements')
    (name : String) :
    Option.Rel (Hex.Moved v v') ((storage statements).address? name)
      ((storage statements').address? name) := by
  refine rel_address?_all ?_ name
  refine List.rel_filter ?_ h
  intro s s' hmoved
  show s.mnemonic.isStorage = true ↔ s'.mnemonic.isStorage = true
  rw [hmoved.mnemonic]

/-- Tables with corresponding addresses have addresses for the same names. -/
theorem matches_of_rel {t t' : SymbolTable} {R : String → String → Prop}
    (h : ∀ name, Option.Rel R (t.address? name) (t'.address? name)) : t.Matches t' := by
  intro name
  have hname := h name
  generalize t.address? name = a? at hname ⊢
  generalize t'.address? name = a?' at hname ⊢
  cases hname with
  | none => rfl
  | some _ => rfl

end SymbolTable

namespace Statement

variable {v v' : Nat} {statements statements' : List Statement} {s s' : Statement}

/-- **What a statement refers to moves.** -/
theorem Alike.rel_referent? (halike : s.Alike s')
    (h : List.Forall₂ (Moved v v') statements statements') :
    Option.Rel (Hex.Moved v v') (s.referent? statements) (s'.referent? statements') := by
  rcases halike.operand with hop | ⟨-, origin, origin', hop, hop'⟩
  · unfold referent?
    rw [hop]
    split
    · exact SymbolTable.rel_address?_all h _
    · exact SymbolTable.rel_address?_storage h _
    · exact .none
  · unfold referent?
    rw [hop, hop']
    exact .none

/-! ## Codes at two places -/

/-- A code can be told from the mnemonic and the operand. -/
theorem CodedAs.of_alike {code : String} (halike : s.Alike s') (hstart : s.isStart = false)
    (h : s'.CodedAs statements code) : s.CodedAs statements code := by
  have hop := halike.operand_eq hstart
  have hreferent : s'.referent? statements = s.referent? statements := by
    rw [referent?, referent?, hop]
  cases h with
  | constant hword hown hnumeral =>
    exact .constant (halike.mnemonic ▸ hword) (hop ▸ hown) hnumeral
  | bare hbegins hown => exact .bare (halike.mnemonic ▸ hbegins) (hop ▸ hown)
  | direct hmachine hown hfound hfits =>
    exact .direct (halike.mnemonic ▸ hmachine) (hop ▸ hown) (hreferent ▸ hfound) hfits
  | indexed hmachine hown hfound hfits hmade =>
    exact .indexed (halike.mnemonic ▸ hmachine) (hop ▸ hown) (hreferent ▸ hfound) hfits hmade

/-- Whatever has a code is no `START`. -/
theorem CodedAs.isStart {code : String} (h : s.CodedAs statements code) : s.isStart = false := by
  unfold Statement.isStart
  refine decide_eq_false fun hstart => ?_
  cases h with
  | constant hword _ _ => simp [hstart] at hword
  | bare hbegins _ => simp [hstart, Mnemonic.byte?] at hbegins
  | direct hmachine _ _ _ => simp [hstart] at hmachine
  | indexed hmachine _ _ _ _ => simp [hstart] at hmachine

/-- **Constants and operations without an operand have the same code everywhere.** -/
theorem CodedAs.eq_of_fixed {code code' : String} (h : s.CodedAs statements code)
    (h' : s.CodedAs statements' code')
    (hfixed : s.mnemonic = .directive .word ∨ s.operand = none) : code' = code := by
  cases hop : s.operand with
  | none =>
    obtain ⟨byte, hbyte, rfl⟩ := h.of_none hop
    obtain ⟨byte', hbyte', rfl⟩ := h'.of_none hop
    rw [Option.some.inj (hbyte'.symm.trans hbyte)]
  | some operand =>
    cases operand with
    | literal number => rw [h.of_literal hop, h'.of_literal hop]
    | direct label =>
      obtain ⟨op, -, hmachine, -⟩ := h.of_direct hop
      simp [hop, hmachine] at hfixed
    | indexed label index =>
      obtain ⟨op, -, -, hmachine, -⟩ := h.of_indexed hop
      simp [hop, hmachine] at hfixed

/-- **The value of a code that refers to a label**, if the address has four digits: the
byte of the operation and then the address. -/
theorem CodedAs.value_direct {code label target : String} (h : s.CodedAs statements code)
    (hop : s.operand = some (.direct label)) (hfound : s.referent? statements = some target)
    (hlow : 0x1000 ≤ Hex.value target) (hhigh : Hex.value target ≤ 0xFFFF) :
    ∃ op, s.mnemonic = .machine op
      ∧ Hex.value code = Hex.value op.code * 16 ^ 4 + Hex.value target := by
  obtain ⟨op, u, hmachine, hown, rfl⟩ := h.of_direct hop
  obtain rfl : Hex.render u = target := Option.some.inj (hown.symm.trans hfound)
  rw [Hex.value_render] at hlow hhigh ⊢
  refine ⟨op, hmachine, ?_⟩
  have hwidth : Hex.width u = 4 := Hex.width_eq (w := 3) (by omega) (by omega)
  have hfull : (op.code ++ Hex.render u).length = codeDigits := by
    rw [String.length_append, op.length_code, Hex.length_render, hwidth]
    rfl
  rw [Hex.padRight_of_length_le (Nat.le_of_eq hfull.symm), Hex.value_append, Hex.length_render,
    hwidth, Hex.value_render]

/-- **The value of a code that refers to a label and an index register**, if the address
leaves the leading bit of its field free. -/
theorem CodedAs.value_indexed {code label index target : String} (h : s.CodedAs statements code)
    (hop : s.operand = some (.indexed label index))
    (hfound : s.referent? statements = some target) (hhigh : Hex.value target ≤ 0x7FFF) :
    ∃ op, s.mnemonic = .machine op
      ∧ Hex.value code = Hex.value op.code * 16 ^ 4 + 0x8000 + Hex.value target := by
  obtain ⟨op, u, field, hmachine, hown, hfits, hmade, rfl⟩ := h.of_indexed hop
  obtain rfl : Hex.render u = target := Option.some.inj (hown.symm.trans hfound)
  obtain ⟨hnumeral, hlen⟩ := Hex.isNumeral_of_address hfits rfl
  rw [Hex.value_render] at hhigh ⊢
  have hshort : Hex.width u ≤ fieldDigits :=
    (Hex.width_le_iff (by decide)).mpr (Nat.lt_of_le_of_lt hhigh (by decide))
  have hlength : field.length = 4 := by
    rw [(length_indexedField hnumeral (by omega) hmade).1, Hex.length_render,
      Nat.max_eq_left hshort]
    rfl
  have hbits : fieldBits (Hex.render u) = 15 := by
    rw [fieldBits, Hex.length_render, Nat.max_eq_left hshort]
    rfl
  have hvalue : Hex.value field = 0x8000 + u := by
    rw [indexedField_eq_ok hnumeral, hbits, Hex.value_render] at hmade
    rw [← Except.ok.inj hmade, Hex.value_render]
    omega
  exact ⟨op, hmachine, by rw [Hex.value_append, hlength, hvalue, Nat.add_assoc]⟩

end Statement

/-! ## Records at two places -/

/-- **A statement at two places contributes at both or at neither.** -/
theorem Statement.Moved.rel_cell? {v v' : Nat} {s s' : Statement} (h : s.Moved v v' s')
    (hcode : s'.code.isSome = s.code.isSome) (hlegible : s.Legible) (hlegible' : s'.Legible) :
    Option.Rel (fun cell cell' : Cell => Hex.Moved v v' cell.address cell'.address)
      s.cell? s'.cell? := by
  obtain ⟨a, a', haddress, haddress', hmoved⟩ := h.address
  unfold cell?
  rw [h.mnemonic, haddress, haddress']
  split
  · exact .none
  · cases hown : s.code with
    | none =>
      rw [hown, Option.isSome_none, Option.isSome_eq_false_iff, Option.isNone_iff_eq_none] at hcode
      rw [hcode]
      exact .none
    | some code =>
      rw [hown, Option.isSome_some] at hcode
      obtain ⟨code', hown'⟩ := Option.isSome_iff_exists.mp hcode
      simp only [hown', if_neg (hlegible.code code hown).1, if_neg (hlegible'.code code' hown').1]
      exact .some hmoved

namespace ObjectProgram

variable {v v' : Nat} {settings : Settings} {statements statements' : List Statement}

/-- The program begins at corresponding statements. -/
theorem rel_first? (h : List.Forall₂ (Statement.Moved v v') statements statements') :
    Option.Rel (Statement.Moved v v') (first? statements) (first? statements') :=
  rel_or (rel_find? h fun _ _ hmoved => hmoved.isStart)
    (rel_find? h fun _ _ hmoved => hmoved.isSome_address)

/-- It ends at corresponding statements. -/
theorem rel_last? (h : List.Forall₂ (Statement.Moved v v') statements statements') :
    Option.Rel (Statement.Moved v v') (last? statements) (last? statements') :=
  rel_or (rel_find? (List.rel_reverse h) fun _ _ hmoved => hmoved.isEnd)
    (rel_find? (List.rel_reverse h) fun _ _ hmoved => hmoved.isSome_address)

/-- **The header at two places** has the same name and the same length, and the address
in it moves. -/
theorem moved_header (h : List.Forall₂ (Statement.Moved v v') statements statements')
    (hlegible : ∀ s ∈ statements, s.Legible) (hlegible' : ∀ s ∈ statements', s.Legible)
    {header header' : Header} (hheader : buildHeader settings statements = .ok header)
    (hheader' : buildHeader settings statements' = .ok header') :
    header'.name = header.name ∧ header'.length = header.length
      ∧ Hex.ShiftedBy v v' header.start header'.start := by
  obtain ⟨first, last, start, stop, hends, -, rfl⟩ := exists_ends_of_buildHeader hlegible hheader
  obtain ⟨first', last', start', stop', hends', -, rfl⟩ :=
    exists_ends_of_buildHeader hlegible' hheader'
  have hfirst := rel_first? h
  rw [hends.begins, hends'.begins] at hfirst
  have hlast := rel_last? h
  rw [hends.finishes, hends'.finishes] at hlast
  cases hfirst with
  | some hfirst =>
    cases hlast with
    | some hlast =>
      have hstart := hfirst.address_of_eq hends.start hends'.start
      have hstop := hlast.address_of_eq hends.stop hends'.stop
      refine ⟨?_, ?_, ?_⟩
      · show programName settings first' = programName settings first
        rw [programName, programName, hfirst.isStart, hfirst.label]
      · -- the distance between two statements does not depend on the origin
        obtain ⟨d, rfl, rfl⟩ := hstart
        obtain ⟨e, rfl, rfl⟩ := hstop
        simp only [Hex.value_render, Nat.add_sub_add_left]
      · rw [Hex.ShiftedBy, value_recordField, value_recordField]
        exact hstart.shiftedBy

/-- **The entry moves.** -/
theorem moved_entry (h : List.Forall₂ (Statement.Moved v v') statements statements')
    {entry entry' : String} (hentry : buildEntry statements = .ok entry)
    (hentry' : buildEntry statements' = .ok entry') : Hex.ShiftedBy v v' entry entry' := by
  obtain ⟨s, -, a, -, hpadded, hfound⟩ := buildEntry_eq_ok hentry
  obtain ⟨s', -, a', -, hpadded', hfound'⟩ := buildEntry_eq_ok hentry'
  have hbehind : List.Forall₂ (Statement.Moved v v') (statements.filter (!·.isStart))
      (statements'.filter (!·.isStart)) := by
    refine List.rel_filter ?_ h
    intro s s' hmoved
    show (!s.isStart) = true ↔ (!s'.isStart) = true
    rw [hmoved.isStart]
  have hentered : Option.Rel (fun p p' : Statement × String => Hex.Moved v v' p.2 p'.2)
      (some (s, a)) (some (s', a')) := by
    rw [← hfound, ← hfound']
    refine rel_findSome? hbehind fun s s' hmoved => ?_
    obtain ⟨a, a', haddress, haddress', hown⟩ := hmoved.address
    rw [haddress, haddress']
    exact .some hown
  cases hentered with
  | some hmoved =>
    rw [Hex.ShiftedBy, Statement.value_of_padded hpadded, Statement.value_of_padded hpadded']
    exact hmoved.shiftedBy

/-- **The text records at two places** are as many and hold as many codes each, and the
addresses in them move. -/
theorem moved_text
    (hcells : List.Forall₂ (fun cell cell' : Cell => Hex.Moved v v' cell.address cell'.address)
      (statements.filterMap Statement.cell?) (statements'.filterMap Statement.cell?))
    {text text' : List TextRecord} (htext : buildText settings statements = .ok text)
    (htext' : buildText settings statements' = .ok text') :
    List.Forall₂ (fun r r' => r'.codes.length = r.codes.length
      ∧ Hex.ShiftedBy v v' r.address r'.address) text text' := by
  refine rel_made (rel_groups hcells settings.recordCapacity) (forall₂_of_mapM htext)
    (forall₂_of_mapM htext') ?_
  rintro ⟨first, others⟩ ⟨first', others'⟩ r r' ⟨hfirst, hothers⟩ hmade hmade'
  obtain ⟨hcodes, haddress⟩ := TextRecord.ofCells_eq_ok hmade
  obtain ⟨hcodes', haddress'⟩ := TextRecord.ofCells_eq_ok hmade'
  refine ⟨?_, ?_⟩
  · rw [← hcodes.length_eq, ← hcodes'.length_eq, List.length_cons, List.length_cons,
      hothers.length_eq]
  · rw [Hex.ShiftedBy, Statement.value_of_padded haddress, Statement.value_of_padded haddress']
    exact hfirst.shiftedBy

end ObjectProgram

/-! ## The whole -/

/-- **A statement and the statement it becomes** when its program is moved from `v` to
`v'`. The statements of the program before and after are given for their labels. -/
structure Statement.Relocated (v v' : Nat) (statements statements' : List Statement)
    (s s' : Statement) : Prop extends Alike s s' where
  /-- Both have an address, and it moves. -/
  address : ∃ a a', s.address = some a ∧ s'.address = some a' ∧ Hex.ShiftedBy v v' a a'
  /-- Both have a code or neither. -/
  coded : s'.code.isSome = s.code.isSome
  /-- Constants and statements without an operand keep their code. -/
  fixed : s.mnemonic = .directive .word ∨ s.operand = none → s'.code = s.code
  /-- The code of a reference moves, if the address has four digits before and after. -/
  direct : ∀ label, s.operand = some (.direct label) →
    ∀ target target', s.referent? statements = some target →
      s'.referent? statements' = some target' →
      0x1000 ≤ Hex.value target → Hex.value target ≤ 0xFFFF →
      0x1000 ≤ Hex.value target' → Hex.value target' ≤ 0xFFFF →
    ∀ code code', s.code = some code → s'.code = some code' → Hex.ShiftedBy v v' code code'
  /-- The code of a reference with an index register moves, if the address leaves the
  leading bit of its field free before and after. -/
  indexed : ∀ label index, s.operand = some (.indexed label index) →
    ∀ target target', s.referent? statements = some target →
      s'.referent? statements' = some target' →
      Hex.value target ≤ 0x7FFF → Hex.value target' ≤ 0x7FFF →
    ∀ code code', s.code = some code → s'.code = some code' → Hex.ShiftedBy v v' code code'

/-- Whatever an address is added to moves with the address. -/
theorem Hex.Moved.shiftedBy_of_add {v v' n : Nat} {text text' target target' : String}
    (h : Moved v v' target target') (htext : value text = n + value target)
    (htext' : value text' = n + value target') : ShiftedBy v v' text text' := by
  have htarget := h.shiftedBy
  unfold ShiftedBy at htarget ⊢
  omega

namespace SecondPass

variable {v v' : Nat} {lines lines' : List String} {placed placed' : List Statement}

/-- **A finished statement at two places**, with its code. -/
theorem relocated_of_moved (hplaced : (FirstPass.run lines).result = .ok placed)
    (hfault : (run placed).fault = none) (hplaced' : (FirstPass.run lines').result = .ok placed')
    (hfault' : (run placed').fault = none)
    (hall : List.Forall₂ (Statement.Moved v v') (run placed).statements (run placed').statements)
    {s s' : Statement} (hs : s ∈ (run placed).statements) (hs' : s' ∈ (run placed').statements)
    (hmoved : s.Moved v v' s') (hcoded : s'.code.isSome = s.code.isSome) :
    s.Relocated v v' (run placed).statements (run placed').statements s' := by
  have hoperand : ∀ {code}, s.code = some code → s'.operand = s.operand := fun hcode =>
    hmoved.operand_eq (codedAs hplaced hfault hs hcode).isStart
  have htargets : ∀ {target target'}, s.referent? (run placed).statements = some target →
      s'.referent? (run placed').statements = some target' → Hex.Moved v v' target target' := by
    intro target target' hfound hfound'
    have hrel := hmoved.toAlike.rel_referent? hall
    rw [hfound, hfound'] at hrel
    cases hrel with
    | some hown => exact hown
  obtain ⟨a, a', haddress, haddress', hown⟩ := hmoved.address
  refine ⟨hmoved.toAlike, ⟨a, a', haddress, haddress', hown.shiftedBy⟩, hcoded, ?fixed, ?direct,
    ?indexed⟩
  case fixed =>
    intro hfixed
    cases hcode : s.code with
    | none =>
      rw [hcode, Option.isSome_none, Option.isSome_eq_false_iff] at hcoded
      exact Option.isNone_iff_eq_none.mp hcoded
    | some code =>
      rw [hcode, Option.isSome_some] at hcoded
      obtain ⟨code', hcode'⟩ := Option.isSome_iff_exists.mp hcoded
      have hshape := codedAs hplaced hfault hs hcode
      have hshape' := (codedAs hplaced' hfault' hs' hcode').of_alike hmoved.toAlike hshape.isStart
      rw [hcode', hshape.eq_of_fixed hshape' hfixed]
  case direct =>
    intro label hop target target' hfound hfound' hlow hhigh hlow' hhigh' code code' hcode hcode'
    obtain ⟨op, hmachine, hvalue⟩ :=
      (codedAs hplaced hfault hs hcode).value_direct hop hfound hlow hhigh
    obtain ⟨op', hmachine', hvalue'⟩ := (codedAs hplaced' hfault' hs' hcode').value_direct
      ((hoperand hcode).trans hop) hfound' hlow' hhigh'
    obtain rfl : op = op' := by simpa [hmachine, hmachine'] using hmoved.mnemonic.symm
    exact (htargets hfound hfound').shiftedBy_of_add hvalue hvalue'
  case indexed =>
    intro label index hop target target' hfound hfound' hhigh hhigh' code code' hcode hcode'
    obtain ⟨op, hmachine, hvalue⟩ :=
      (codedAs hplaced hfault hs hcode).value_indexed hop hfound hhigh
    obtain ⟨op', hmachine', hvalue'⟩ := (codedAs hplaced' hfault' hs' hcode').value_indexed
      ((hoperand hcode).trans hop) hfound' hhigh'
    obtain rfl : op = op' := by simpa [hmachine, hmachine'] using hmoved.mnemonic.symm
    exact (htargets hfound hfound').shiftedBy_of_add hvalue hvalue'

end SecondPass

/-- The program of lines that open with a `START`. -/
theorem Plain.Opens.program_cons {label : Option String} {v : Nat} {first : String}
    (h : Opens label v (Text.trimEnd first)) (body : List String) :
    Text.program (first :: body) = Text.trimEnd first :: Text.program body := by
  rw [Text.program, List.map_cons, List.takeWhile_cons, if_pos (decide_eq_true h.ne_empty)]
  rfl

/-- **Relocation.** Two programs open with a `START` under the same label, or both
without one, and with numerals of the values `v` and `v'`. Behind it they have the same
lines, and both assemble under the same settings. Then the diagnostics are the same, and
every statement becomes the one it is moved to. The header keeps its name and its length,
there are as many text records with as many codes in each, and all addresses in the
records move. -/
theorem assembly_relocates {settings : Settings} {label : Option String} {v v' : Nat}
    {first first' : String} {body : List String} {assembly assembly' : Assembly}
    (hopens : Plain.Opens label v (Text.trimEnd first))
    (hopens' : Plain.Opens label v' (Text.trimEnd first'))
    (h : assemble settings (first :: body) = .ok assembly)
    (h' : assemble settings (first' :: body) = .ok assembly') :
    assembly'.diagnostics = assembly.diagnostics
      ∧ List.Forall₂ (Statement.Relocated v v' assembly.statements assembly'.statements)
        assembly.statements assembly'.statements
      ∧ assembly'.object.header.name = assembly.object.header.name
      ∧ assembly'.object.header.length = assembly.object.header.length
      ∧ Hex.ShiftedBy v v' assembly.object.header.start assembly'.object.header.start
      ∧ Hex.ShiftedBy v v' assembly.object.entry assembly'.object.entry
      ∧ List.Forall₂ (fun r r' => r'.codes.length = r.codes.length
        ∧ Hex.ShiftedBy v v' r.address r'.address) assembly.object.text assembly'.object.text := by
  obtain ⟨placed, hmade⟩ := exists_made h
  obtain ⟨placed', hmade'⟩ := exists_made h'
  have hplaced := hmade.accepted
  have hplaced' := hmade'.accepted
  have hfault := hmade.finished
  have hfault' := hmade'.finished
  have hobject := hmade.object
  have hobject' := hmade'.object
  rw [hmade.diagnostics, hmade'.diagnostics]
  rw [hmade.statements] at hobject ⊢
  rw [hmade'.statements] at hobject' ⊢
  rw [hopens.program_cons] at hplaced ⊢
  rw [hopens'.program_cons] at hplaced' ⊢
  rw [ObjectProgram.build_eq_buildInOrder hplaced hfault] at hobject
  rw [ObjectProgram.build_eq_buildInOrder hplaced' hfault'] at hobject'
  obtain ⟨hheader, htext, hentry⟩ := ObjectProgram.buildInOrder_eq_ok hobject
  obtain ⟨hheader', htext', hentry'⟩ := ObjectProgram.buildInOrder_eq_ok hobject'
  have hmoved := SecondPass.forall₂_moved hopens hopens' hplaced hfault hplaced' hfault'
  have halike := hmoved.imp fun s s' hown => hown.toAlike
  obtain ⟨hsecond, hcoded⟩ := SecondPass.findings_of_alike hplaced hfault hplaced' hfault' halike
    (SymbolTable.matches_of_rel (SymbolTable.rel_address?_storage hmoved))
    (SymbolTable.matches_of_rel (SymbolTable.rel_address?_all hmoved))
  have hboth := forall₂_mem (List.Forall₂.mp (fun _ _ => And.intro) hmoved hcoded)
  have hlegible := SecondPass.legible hplaced hfault
  have hlegible' := SecondPass.legible hplaced' hfault'
  have hfirst := FirstPass.diagnostics_of_alike hplaced hplaced' (by
    rw [← SecondPass.map_uncoded hplaced hfault, ← SecondPass.map_uncoded hplaced' hfault',
      List.forall₂_map_left_iff, List.forall₂_map_right_iff]
    exact hmoved.imp fun s s' hown =>
      ⟨Statement.Alike.uncoded_iff.mpr hown.toAlike, hown.isSome_address⟩)
  have hcells : List.Forall₂
      (fun cell cell' : Cell => Hex.Moved v v' cell.address cell'.address)
      ((SecondPass.run placed).statements.filterMap Statement.cell?)
      ((SecondPass.run placed').statements.filterMap Statement.cell?) := by
    refine List.rel_filterMap ?_ hboth
    rintro s s' ⟨hs, hs', hown, hcode⟩
    exact hown.rel_cell? hcode (hlegible s hs) (hlegible' s' hs')
  obtain ⟨hname, hlength, hstart⟩ :=
    ObjectProgram.moved_header hmoved hlegible hlegible' hheader hheader'
  refine ⟨by rw [hfirst, hsecond], hboth.imp ?_, hname, hlength, hstart,
    ObjectProgram.moved_entry hmoved hentry hentry',
    ObjectProgram.moved_text hcells htext htext'⟩
  rintro s s' ⟨hs, hs', hown, hcode⟩
  exact SecondPass.relocated_of_moved hplaced hfault hplaced' hfault' hmoved hs hs' hown hcode

/-- Lines with references of both kinds, a label that comes twice, and one that is
missing. -/
def movableBody : List String :=
  ["LDA A", "STA T,X", "RSUB", "A WORD 5f", "T RESW 2", "A RESB 1", "JSUB Q", "END"]

/-- What becomes of them when they are moved from 1000 to 20F3. -/
theorem assembly_relocates_movable :
    ∃ assembly assembly',
      Plain.Opens (some "P") 0x1000 (Text.trimEnd "P START 1000")
      ∧ Plain.Opens (some "P") 0x20F3 (Text.trimEnd "P START 20f3\r")
      ∧ assemble { recordCapacity := 3 } ("P START 1000" :: movableBody) = .ok assembly
      ∧ assemble { recordCapacity := 3 } ("P START 20f3\r" :: movableBody) = .ok assembly'
      ∧ assembly.statements.filterMap Statement.code = ["001009", "0C900C", "4C0000", "00005f"]
      ∧ assembly'.statements.filterMap Statement.code = ["0020FC", "0CA0FF", "4C0000", "00005f"]
      ∧ assembly'.diagnostics = assembly.diagnostics
      ∧ List.Forall₂ (Statement.Relocated 0x1000 0x20F3 assembly.statements assembly'.statements)
        assembly.statements assembly'.statements
      ∧ Hex.ShiftedBy 0x1000 0x20F3 assembly.object.entry assembly'.object.entry := by
  obtain ⟨assembly, placed, hok, hmade, hcodes, -⟩ :=
    exists_assembly_made { recordCapacity := 3 } ("P START 1000" :: movableBody)
      (fun placed => (SecondPass.run placed).statements.filterMap Statement.code) (fun _ => ())
      (a := ["001009", "0C900C", "4C0000", "00005f"]) (b := ()) rfl (by decide +kernel)
  obtain ⟨assembly', placed', hok', hmade', hcodes', -⟩ :=
    exists_assembly_made { recordCapacity := 3 } ("P START 20f3\r" :: movableBody)
      (fun placed => (SecondPass.run placed).statements.filterMap Statement.code) (fun _ => ())
      (a := ["0020FC", "0CA0FF", "4C0000", "00005f"]) (b := ()) rfl (by decide +kernel)
  have hopens : Plain.Opens (some "P") 0x1000 (Text.trimEnd "P START 1000") :=
    ⟨"1000", by decide +kernel, by decide, by decide⟩
  have hopens' : Plain.Opens (some "P") 0x20F3 (Text.trimEnd "P START 20f3\r") :=
    ⟨"20f3", by decide +kernel, by decide, by decide⟩
  obtain ⟨hdiagnostics, hstatements, -, -, -, hentry, -⟩ :=
    assembly_relocates hopens hopens' hok hok'
  refine ⟨assembly, assembly', hopens, hopens', hok, hok', ?_, ?_, hdiagnostics, hstatements,
    hentry⟩
  · rw [hmade.statements, hcodes]
  · rw [hmade'.statements, hcodes']

end TwoPass

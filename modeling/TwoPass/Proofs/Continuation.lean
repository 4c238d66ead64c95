import TwoPass.Proofs.Definitions

/-!
# Programs that go on

Lines can be written behind a program that is assembled already. The first pass goes
forward only, so it makes of the old lines what it made of them before
(`FirstPass.exists_of_run_append`). The second pass does see the new lines, since its
tables hold the labels of the whole program. But the first definition of a label is the
one that counts. What was defined among the old lines stays as it is, also if a new line
defines it again and also if the old definition has no address and the new one has
(`Statement.definition?_append`).

So a code never changes once there is one. New lines make a difference to those
statements only that refer to a label which the old lines do not define
(`more_lines_keep_codes`).
-/

namespace TwoPass

namespace FirstPass

/-- A pass that gets through all lines gets through the first ones, and makes the same of
them. -/
theorem exists_of_runFrom_append {l : Layout} {line : Nat} {lines more : List String}
    {statements : List Statement}
    (h : (runFrom l line (lines ++ more)).result = .ok statements) :
    ∃ front behind, (runFrom l line lines).result = .ok front ∧ statements = front ++ behind := by
  induction lines generalizing l line statements with
  | nil => exact ⟨[], statements, rfl, rfl⟩
  | cons text rest ih =>
    obtain ⟨s, others, hplaced, hothers, rfl⟩ := runFrom_cons_eq_ok h
    obtain ⟨front, behind, hfront, rfl⟩ := ih hothers
    refine ⟨s :: front, behind, ?_, rfl⟩
    rw [runFrom_cons_ok hplaced, hfront]
    rfl

/-- **The first pass makes the same of the first lines, whatever comes behind them.** -/
theorem exists_of_run_append {lines more : List String} {statements : List Statement}
    (h : (run (lines ++ more)).result = .ok statements) :
    ∃ front behind, (run lines).result = .ok front ∧ statements = front ++ behind := by
  rw [result_run] at h ⊢
  exact exists_of_runFrom_append h

/-- What stands behind has the later lines. -/
theorem lt_line_of_mem {lines : List String} {front behind : List Statement}
    (h : (run lines).result = .ok (front ++ behind)) {s : Statement} (hs : s ∈ behind) :
    front.length < s.line := by
  obtain ⟨j, hj⟩ := List.mem_iff_getElem?.mp hs
  have hat : (front ++ behind)[front.length + j]? = some s := by
    rw [List.getElem?_append_right (Nat.le_add_right _ _), Nat.add_sub_cancel_left, hj]
  rw [((run_plain h).2.2 _ s hat).line]
  omega

end FirstPass

namespace SymbolTable

/-- An address that a table gives stays when more statements come behind. -/
theorem address?_all_append {front : List Statement} {name address : String}
    (h : (all front).address? name = some address) (behind : List Statement) :
    (all (front ++ behind)).address? name = some address := by
  rw [address?_all] at h ⊢
  obtain ⟨s, hfirst, haddress⟩ := Option.bind_eq_some_iff.mp h
  rw [List.find?_append, hfirst]
  exact haddress

theorem address?_storage_append {front : List Statement} {name address : String}
    (h : (storage front).address? name = some address) (behind : List Statement) :
    (storage (front ++ behind)).address? name = some address := by
  rw [storage, List.filter_append]
  exact address?_all_append h _

end SymbolTable

namespace Statement

variable {s : Statement} {front behind : List Statement}

/-- **What is defined in front stays defined there**, and all else is looked for behind. -/
theorem definition?_append (s : Statement) (front behind : List Statement) :
    s.definition? (front ++ behind) = (s.definition? front).or (s.definition? behind) := by
  rw [definition?_eq_find?, definition?_eq_find?, definition?_eq_find?, List.find?_append]
  cases hfirst : front.find? s.definedBy with
  | none => rfl
  | some t =>
    obtain ⟨label, hlabel, -⟩ := label_of_definedBy (List.find?_some hfirst)
    rw [Option.some_or, Option.bind_some, symbol?, hlabel]
    rfl

/-- A definition is that of a statement. -/
theorem exists_mem_of_definition? {statements : List Statement} {symbol : Symbol}
    (h : s.definition? statements = some symbol) :
    ∃ t ∈ statements, t.symbol? = some symbol := by
  rw [definition?_eq_find?] at h
  obtain ⟨t, hfirst, hsymbol⟩ := Option.bind_eq_some_iff.mp h
  exact ⟨t, List.mem_of_find?_eq_some hfirst, hsymbol⟩

/-- **A statement that has a code keeps it** when more statements come behind. -/
theorem code_codedIn_append {code : String} (hcode : (s.codedIn front).code = some code)
    (behind : List Statement) : (s.codedIn (front ++ behind)).code = some code := by
  -- the code was made in one of four ways, and that way is still open
  obtain ⟨made, hmade, hcode⟩ := Option.bind_eq_some_iff.mp hcode
  have hcoding := s.coding_encode (SymbolTable.storage front) (SymbolTable.all front)
  rw [eq_ok_of_toOption hmade] at hcoding
  have hsame : s.encode (SymbolTable.storage (front ++ behind))
      (SymbolTable.all (front ++ behind)) = .ok made := by
    cases hcoding with
    | silent _ => cases hcode
    | unknown _ => cases hcode
    | undefined _ _ => cases hcode
    | constant hword hop hpadded => exact (Coding.constant hword hop hpadded).encode_eq
    | bare hbyte hop => exact (Coding.bare hbyte hop).encode_eq
    | direct hbyte hrefers hfound =>
      exact (Coding.direct hbyte hrefers
        (SymbolTable.address?_all_append hfound behind)).encode_eq
    | indexed hbyte hop hfound hfield =>
      exact (Coding.indexed hbyte hop
        (SymbolTable.address?_storage_append hfound behind) hfield).encode_eq
  rw [codedIn, recoded, hsame]
  exact hcode

/-- **A statement that gets another code refers to a label that is defined behind only.** -/
theorem definition?_of_codedIn_append_ne
    (h : (s.codedIn (front ++ behind)).code ≠ (s.codedIn front).code) :
    s.definition? front = none ∧ ∃ symbol, s.definition? (front ++ behind) = some symbol
      ∧ s.definition? behind = some symbol := by
  have hne : s.definition? (front ++ behind) ≠ s.definition? front :=
    fun hsame => h (congrArg code (codedIn_of_definition?_eq hsame))
  rw [definition?_append] at hne ⊢
  cases hfront : s.definition? front with
  | some symbol =>
    rw [hfront, Option.some_or] at hne
    exact absurd rfl hne
  | none =>
    rw [hfront, Option.none_or] at hne
    obtain ⟨symbol, hsymbol⟩ := Option.ne_none_iff_exists'.mp hne
    exact ⟨rfl, symbol, hsymbol, hsymbol⟩

end Statement

/-- **Lines that are added keep the codes there are.** If a program goes through both
passes, then so do its first lines on their own, however many they are. All of these have
the address there that they have in the whole program, and a line that has a code there has
the same in the whole program. If a line has another code in the whole program, then it had
none, and it refers to a label that the first lines do not define and that is defined behind
them. -/
theorem more_lines_keep_codes {lines more : List String} {placed : List Statement}
    (hplaced : (FirstPass.run (lines ++ more)).result = .ok placed)
    (hfault : (SecondPass.run placed).fault = none) :
    ∃ front, (FirstPass.run lines).result = .ok front ∧ (SecondPass.run front).fault = none
      ∧ ∀ k < lines.length, ∃ t t' : Statement,
          (SecondPass.run front).statements[k]? = some t
          ∧ (SecondPass.run placed).statements[k]? = some t'
          ∧ t'.address = t.address
          ∧ (∀ code, t.code = some code → t'.code = some code)
          ∧ (t'.code ≠ t.code → t.code = none ∧ t.definition? front = none
              ∧ ∃ symbol, t'.definition? placed = some symbol ∧ lines.length < symbol.line) := by
  obtain ⟨front, behind, hfront, rfl⟩ := FirstPass.exists_of_run_append hplaced
  have hends : (SecondPass.run front).fault = none := by
    rw [SecondPass.fault_run_eq_none_iff hplaced] at hfault
    rw [SecondPass.fault_run_eq_none_iff hfront]
    exact fun text htext => hfault text (List.mem_append_left more htext)
  refine ⟨front, hfront, hends, fun k hk => ?_⟩
  have hlength : front.length = lines.length := (FirstPass.run_plain hfront).2.1
  have hfits : k < front.length := hk.trans_eq hlength.symm
  obtain ⟨s, hat⟩ : ∃ s, front[k]? = some s := ⟨_, List.getElem?_eq_getElem hfits⟩
  have hwhole : (front ++ behind)[k]? = some s := by
    rw [List.getElem?_append_left hfits, hat]
  have hkept (code : String) (hcode : (s.codedIn front).code = some code) :=
    Statement.code_codedIn_append hcode behind
  rw [SecondPass.statements_of_finished hends, SecondPass.statements_of_finished hfault,
    List.getElem?_map, List.getElem?_map, hat, hwhole]
  refine ⟨s.codedIn front, s.codedIn (front ++ behind), rfl, rfl, rfl, hkept, fun hne => ?_⟩
  have hnone : (s.codedIn front).code = none := by
    refine Option.eq_none_iff_forall_ne_some.mpr fun code hcode => hne ?_
    rw [hkept code hcode, hcode]
  obtain ⟨hfirst, symbol, hsymbol, hbehind⟩ := Statement.definition?_of_codedIn_append_ne hne
  obtain ⟨u, hu, hown⟩ := Statement.exists_mem_of_definition? hbehind
  refine ⟨hnone, hfirst, symbol, hsymbol, ?_⟩
  rw [← (Statement.symbol?_eq_some_iff.mp hown).2.2, ← hlength]
  exact FirstPass.lt_line_of_mem hplaced hu

/-- A program without a `START`, whose first line has a label and no address. -/
def openLines : List String := ["L LDA A", "LDA L", "LDA B", "A WORD 1", "STA A,X"]

/-- Lines that define two of its labels again and one for the first time, and go on at
another place. -/
def addedLines : List String := ["A RESW 1", "P START 500", "L WORD 2", "B WORD 3"]

/-- The labels that are defined again change nothing, and of the two references that had no
code one gets it. -/
theorem more_lines_keep_codes_redefined :
    ∃ front placed, (FirstPass.run openLines).result = .ok front
      ∧ (FirstPass.run (openLines ++ addedLines)).result = .ok placed
      ∧ (SecondPass.run front).fault = none ∧ (SecondPass.run placed).fault = none
      ∧ (SecondPass.run front).statements.map Statement.code
        = [some "006000", none, none, some "000001", some "0C8006"]
      ∧ (SecondPass.run placed).statements.map Statement.code
        = [some "006000", none, some "005030", some "000001", some "0C8006",
            none, none, some "000002", some "000003"]
      ∧ (∃ t t' : Statement, (SecondPass.run front).statements[2]? = some t
        ∧ (SecondPass.run placed).statements[2]? = some t' ∧ t'.address = t.address
        ∧ t.definition? front = none ∧ ∃ symbol, t'.definition? placed = some symbol
        ∧ openLines.length < symbol.line) := by
  have hseen : (FirstPass.run (openLines ++ addedLines)).result.toOption.map (fun placed =>
      ((SecondPass.run placed).fault, (SecondPass.run placed).statements.map Statement.code))
      = some (none, [some "006000", none, some "005030", some "000001", some "0C8006",
          none, none, some "000002", some "000003"]) := by
    decide +kernel
  obtain ⟨placed, hplaced, hseen⟩ := Option.map_eq_some_iff.mp hseen
  obtain ⟨hfault, hcodes⟩ := Prod.mk.inj hseen
  have hplaced := eq_ok_of_toOption hplaced
  obtain ⟨front, hfront, hends, hlines⟩ := more_lines_keep_codes hplaced hfault
  have hcodesFront : (SecondPass.run front).statements.map Statement.code
      = [some "006000", none, none, some "000001", some "0C8006"] := by
    have hown : (FirstPass.run openLines).result.toOption.map (fun front =>
        (SecondPass.run front).statements.map Statement.code)
        = some [some "006000", none, none, some "000001", some "0C8006"] := by
      decide +kernel
    rw [hfront] at hown
    exact Option.some.inj hown
  refine ⟨front, placed, hfront, hplaced, hends, hfault, hcodesFront, hcodes, ?_⟩
  obtain ⟨t, t', ht, ht', haddress, -, hnew⟩ := hlines 2 (by decide)
  refine ⟨t, t', ht, ht', haddress, (hnew ?_).2⟩
  -- the reference has no code among the first lines and has one in the whole program
  have hcode := congrArg (·[2]?) hcodesFront
  have hcode' := congrArg (·[2]?) hcodes
  simp only [List.getElem?_map, ht, ht', Option.map_some] at hcode hcode'
  rw [Option.some.inj hcode, Option.some.inj hcode']
  exact Option.some_ne_none _

end TwoPass

import Mathlib.Data.List.Forall2
import TwoPass.ObjectProgram.Builder

/-!
# Statements in the order of their lines

The builder takes statements in any order and sorts them first. A list can hold several
statements of one line, and these keep the order they came in. So what a list means to
the builder is, for every line, the sequence of the statements on it
(`ObjectProgram.onLine`), and nothing else about the list counts: there is only one list
in the order of the lines with the same statements on every line
(`ObjectProgram.InLineOrder.unique`).

If no two statements share a line, these sequences hold one statement at most, and then
rearranging a list changes none of them. Whatever is built of the list is the same
afterwards, be it an object program or a fault.
-/

namespace TwoPass.ObjectProgram

/-- The statements on a line, in the order of the list. -/
def onLine (statements : List Statement) (n : Nat) : List Statement :=
  statements.filter (·.line = n)

theorem mem_onLine {statements : List Statement} {n : Nat} {s : Statement} :
    s ∈ onLine statements n ↔ s ∈ statements ∧ s.line = n := by
  rw [onLine, List.mem_filter, decide_eq_true_iff]

theorem onLine_cons_of_eq {statements : List Statement} {n : Nat} {s : Statement}
    (h : s.line = n) : onLine (s :: statements) n = s :: onLine statements n :=
  List.filter_cons_of_pos (decide_eq_true h)

theorem onLine_cons_of_ne {statements : List Statement} {n : Nat} {s : Statement}
    (h : s.line ≠ n) : onLine (s :: statements) n = onLine statements n :=
  List.filter_cons_of_neg (mt of_decide_eq_true h)

/-- **The statements of a list in the order of their lines**: the lines never go down,
and the statements on one line stand as they stood in the list. -/
structure InLineOrder (statements sorted : List Statement) : Prop where
  /-- Lines do not go down. -/
  line : sorted.Pairwise fun s t => s.line ≤ t.line
  /-- Statements on one line keep their order. -/
  stable : ∀ n, onLine sorted n = onLine statements n

/-- Only the lines that occur have to be looked at. -/
theorem inLineOrder_iff {statements sorted : List Statement} :
    InLineOrder statements sorted
      ↔ (sorted.Pairwise fun s t => s.line ≤ t.line)
        ∧ ∀ n ∈ (sorted ++ statements).map Statement.line,
          onLine sorted n = onLine statements n := by
  refine ⟨fun h => ⟨h.line, fun n _ => h.stable n⟩, fun ⟨hline, hsame⟩ => ⟨hline, fun n => ?_⟩⟩
  by_cases hn : n ∈ (sorted ++ statements).map Statement.line
  · exact hsame n hn
  · have hnone : ∀ l : List Statement, (∀ s ∈ l, s ∈ sorted ++ statements) → onLine l n = [] := by
      intro l hl
      refine List.filter_eq_nil_iff.mpr fun s hs hown => hn ?_
      exact List.mem_map.mpr ⟨s, hl s hs, of_decide_eq_true hown⟩
    rw [hnone sorted fun s hs => List.mem_append_left _ hs,
      hnone statements fun s hs => List.mem_append_right _ hs]

instance (statements sorted : List Statement) : Decidable (InLineOrder statements sorted) :=
  decidable_of_iff _ inLineOrder_iff.symm

/-! ## There is one order of the lines -/

/-- Of two lists with the same statements on every line, one in order begins no later
than the other. -/
theorem line_le_of_onLine_eq {s t : Statement} {a b : List Statement}
    (hline : (s :: a).Pairwise fun s t => s.line ≤ t.line)
    (hsame : ∀ n, onLine (s :: a) n = onLine (t :: b) n) : s.line ≤ t.line := by
  have ht : t ∈ onLine (s :: a) t.line := by
    rw [hsame]
    exact mem_onLine.mpr ⟨List.mem_cons_self, rfl⟩
  rcases List.mem_cons.mp (mem_onLine.mp ht).1 with rfl | ht
  · exact Nat.le_refl _
  · exact (List.pairwise_cons.mp hline).1 t ht

/-- **Two lists in the order of their lines are the same** if they have the same
statements on every line. -/
theorem eq_of_onLine_eq {a b : List Statement}
    (ha : a.Pairwise fun s t => s.line ≤ t.line) (hb : b.Pairwise fun s t => s.line ≤ t.line)
    (hsame : ∀ n, onLine a n = onLine b n) : a = b := by
  induction a generalizing b with
  | nil =>
    cases b with
    | nil => rfl
    | cons t b =>
      have hnone := hsame t.line
      rw [onLine_cons_of_eq rfl] at hnone
      cases hnone
  | cons s a ih =>
    cases b with
    | nil =>
      have hnone := hsame s.line
      rw [onLine_cons_of_eq rfl] at hnone
      cases hnone
    | cons t b =>
      have hline : t.line = s.line :=
        Nat.le_antisymm (line_le_of_onLine_eq hb fun n => (hsame n).symm)
          (line_le_of_onLine_eq ha hsame)
      -- both lists begin on one line, and what comes first on it is the head of both
      have hhead := hsame s.line
      rw [onLine_cons_of_eq rfl, onLine_cons_of_eq hline] at hhead
      obtain ⟨rfl, htail⟩ := List.cons.inj hhead
      refine congrArg (s :: ·) (ih ha.of_cons hb.of_cons fun n => ?_)
      by_cases hn : s.line = n
      · exact hn ▸ htail
      · have hrest := hsame n
        rwa [onLine_cons_of_ne hn, onLine_cons_of_ne hn] at hrest

theorem InLineOrder.unique {statements a b : List Statement} (ha : InLineOrder statements a)
    (hb : InLineOrder statements b) : a = b :=
  eq_of_onLine_eq ha.line hb.line fun n => (ha.stable n).trans (hb.stable n).symm

/-! ## Sorting -/

/-- **Sorting puts statements in the order of their lines.** -/
theorem inLineOrder_ordered (statements : List Statement) :
    InLineOrder statements (ordered statements) := by
  have htrans : ∀ a b c : Statement, decide (a.line ≤ b.line) = true →
      decide (b.line ≤ c.line) = true → decide (a.line ≤ c.line) = true := by
    intro a b c hab hbc
    exact decide_eq_true (Nat.le_trans (of_decide_eq_true hab) (of_decide_eq_true hbc))
  have htotal : ∀ a b : Statement,
      (decide (a.line ≤ b.line) || decide (b.line ≤ a.line)) = true := by
    intro a b
    simpa using Nat.le_total a.line b.line
  refine ⟨(List.pairwise_mergeSort htrans htotal statements).imp of_decide_eq_true, fun n => ?_⟩
  -- the statements on one line are sorted among themselves, so they come out as they went in
  have hsorted : (onLine statements n).Pairwise fun s t => decide (s.line ≤ t.line) = true := by
    refine List.pairwise_of_forall_mem_list fun s hs t ht => decide_eq_true (Nat.le_of_eq ?_)
    rw [(mem_onLine.mp hs).2, (mem_onLine.mp ht).2]
  have hkept : (onLine statements n).Sublist (ordered statements) :=
    List.sublist_mergeSort htrans htotal hsorted List.filter_sublist
  have hsub : (onLine (onLine statements n) n).Sublist (onLine (ordered statements) n) :=
    hkept.filter _
  have hall : onLine (onLine statements n) n = onLine statements n :=
    List.filter_eq_self.mpr fun s hs => decide_eq_true (mem_onLine.mp hs).2
  rw [hall] at hsub
  exact (hsub.eq_of_length ((List.mergeSort_perm statements _).filter _).length_eq.symm).symm

/-- Lists with the same statements on every line are put in the same order. -/
theorem ordered_congr {statements others : List Statement}
    (h : ∀ n, onLine others n = onLine statements n) : ordered others = ordered statements :=
  (inLineOrder_ordered others).unique
    ⟨(inLineOrder_ordered statements).line, fun n =>
      ((inLineOrder_ordered statements).stable n).trans (h n).symm⟩

/-- Statements in the order of their lines are sorted already. -/
theorem ordered_eq_self {statements : List Statement}
    (h : statements.Pairwise fun s t => s.line < t.line) : ordered statements = statements :=
  (inLineOrder_ordered statements).unique ⟨h.imp Nat.le_of_lt, fun _ => rfl⟩

/-! ## Statements on different lines -/

/-- **Rearranging statements on different lines** leaves every line as it was. -/
theorem onLine_eq_of_perm {statements permuted : List Statement}
    (hlines : (statements.map Statement.line).Nodup) (hperm : permuted.Perm statements) (n : Nat) :
    onLine permuted n = onLine statements n := by
  have hown : (onLine permuted n).Perm (onLine statements n) := hperm.filter _
  have hdistinct : ((onLine statements n).map Statement.line).Nodup :=
    hlines.sublist (List.filter_sublist.map _)
  have hline : ∀ s ∈ onLine statements n, s.line = n := fun s hs => (mem_onLine.mp hs).2
  generalize onLine statements n = own at hown hdistinct hline ⊢
  match own with
  | [] => exact hown.eq_nil
  | [s] => exact List.perm_singleton.mp hown
  | s :: t :: _ =>
    -- with two statements on the line it would come twice
    refine absurd ?_ (List.nodup_cons.mp hdistinct).1
    rw [hline s List.mem_cons_self, ← hline t (List.mem_cons_of_mem s List.mem_cons_self)]
    exact List.mem_cons_self

/-- **Statements on different lines come in one order.** However they are given, they
are put in the order of their lines. -/
theorem ordered_eq_of_perm {statements sorted : List Statement} (hperm : sorted.Perm statements)
    (hline : sorted.Pairwise fun s t => s.line < t.line) : ordered statements = sorted := by
  have hlines : (sorted.map Statement.line).Nodup := List.pairwise_map.mpr (hline.imp Nat.ne_of_lt)
  rw [ordered_congr (onLine_eq_of_perm hlines hperm.symm), ordered_eq_self hline]

/-- **The order of a list does not matter to the builder** as long as no two of the
statements share a line: under any settings, every arrangement of the list makes the same
object program or ends in the same fault, about the same line and with the same cause. -/
theorem build_eq_of_perm {statements permuted : List Statement}
    (hlines : (statements.map Statement.line).Nodup) (hperm : permuted.Perm statements)
    (settings : Settings) : build settings permuted = build settings statements := by
  rw [build, build, ordered_congr (onLine_eq_of_perm hlines hperm)]

/-- Statements with an empty code and two that are no numerals. -/
def misspeltCodes : List Statement :=
  [{ line := 2, label := some "P", mnemonic := .directive .start, operand := none
     address := some "0" },
   { line := 4, label := none, mnemonic := .unknown "X", operand := none
     address := some "0", code := some "" },
   { line := 5, label := some "A", mnemonic := .directive .word, operand := some (.literal "x")
     address := some "c0", code := some "12 " },
   { line := 7, label := none, mnemonic := .directive .word, operand := none
     address := some "3", code := some "G" }]

/-- From behind as from before, the fault is about the earlier of the two. -/
theorem build_eq_of_perm_misspelt :
    (misspeltCodes.map Statement.line).Nodup
      ∧ misspeltCodes.reverse.Perm misspeltCodes
      ∧ build {} misspeltCodes = .error (.hex 5 "A WORD x" (.malformed "12 "))
      ∧ build {} misspeltCodes.reverse = .error (.hex 5 "A WORD x" (.malformed "12 ")) := by
  have hlines : (misspeltCodes.map Statement.line).Nodup := by decide
  have hperm := List.reverse_perm misspeltCodes
  have hbuild : build {} misspeltCodes = .error (.hex 5 "A WORD x" (.malformed "12 ")) := by
    rw [build, ordered_eq_self (by decide)]
    decide +kernel
  exact ⟨hlines, hperm, hbuild, (build_eq_of_perm hlines hperm {}).trans hbuild⟩

end TwoPass.ObjectProgram

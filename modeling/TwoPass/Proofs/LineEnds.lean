import Mathlib.Data.List.DropRight
import TwoPass.Assembly
import TwoPass.Proofs.Pieces

/-!
# Line ends

A program comes as a list of lines or as one text. A text is cut at line feeds, and each
line loses one carriage return there. A line of a list loses all carriage returns that
trail it, and so do the lines of the text afterwards. The two ways agree because the
second trimming swallows the first (`Text.trimEnd_dropReturn`), and because the empty
piece behind a last line feed ends the program, where it is left out as well as where it
is not. So cutting a text into lines is no different from cutting it at line feeds
(`Text.program_lines`), and all that is left is to cut what was joined.

Neither the spelling of the line ends nor the text behind the first empty line can be
seen in an assembly or in a fault.
-/

namespace TwoPass

namespace Text

/-- How a line ends when lines are joined to a text. -/
inductive LineEnd where
  /-- With a line feed. -/
  | feed
  /-- With a carriage return and a line feed. -/
  | returnFeed
deriving DecidableEq, Repr

/-- What a line ends with, before the line feed. -/
def LineEnd.lead : LineEnd → String
  | .feed => ""
  | .returnFeed => "\r"

/-- The characters of a line end. -/
def LineEnd.text : LineEnd → String
  | .feed => "\n"
  | .returnFeed => "\r\n"

theorem LineEnd.text_eq (ending : LineEnd) : ending.text = ending.lead ++ "\n" := by
  cases ending with
  | feed => rfl
  | returnFeed => rfl

/-- A line without the carriage returns that trail it. -/
def dropReturns (line : String) : String :=
  String.ofList (line.toList.rdropWhile (· = '\r'))

/-! ## Trimming -/

theorem toList_trimEnd (line : String) :
    (trimEnd line).toList = line.toList.rdropWhile isLineEnd :=
  String.toList_ofList

/-- A line is trimmed to nothing if it holds nothing but line ends. -/
theorem trimEnd_eq_empty_iff {line : String} :
    trimEnd line = "" ↔ ∀ c ∈ line.toList, isLineEnd c = true := by
  rw [← String.toList_eq_nil_iff, toList_trimEnd, List.rdropWhile_eq_nil_iff]

theorem dropReturns_eq_empty_iff {line : String} :
    dropReturns line = "" ↔ ∀ c ∈ line.toList, c = '\r' := by
  rw [← String.toList_eq_nil_iff, dropReturns, String.toList_ofList, List.rdropWhile_eq_nil_iff]
  simp only [decide_eq_true_eq]

/-- Without line feeds, only carriage returns can be trimmed. -/
theorem Lacks.trimEnd_eq_empty_iff {line : String} (h : Lacks '\n' line) :
    Text.trimEnd line = "" ↔ dropReturns line = "" := by
  rw [Text.trimEnd_eq_empty_iff, dropReturns_eq_empty_iff]
  refine forall₂_congr fun c hc => ?_
  have hfeed : c ≠ '\n' := fun heq => h (heq ▸ hc)
  simp [isLineEnd, hfeed]

/-- **Trimming swallows the carriage return of a line feed.** -/
theorem trimEnd_append_lead (line : String) (ending : LineEnd) :
    trimEnd (line ++ ending.lead) = trimEnd line := by
  apply String.toList_inj.mp
  rw [toList_trimEnd, toList_trimEnd, String.toList_append]
  cases ending with
  | feed => exact congrArg (List.rdropWhile isLineEnd) (List.append_nil _)
  | returnFeed => exact List.rdropWhile_concat_pos isLineEnd _ '\r' rfl

/-- A line is what is left of it, with a carriage return behind it or not. -/
theorem exists_eq_dropReturn_append (chars : List Char) :
    ∃ ending : LineEnd, chars = dropReturn chars ++ ending.lead.toList := by
  induction chars using dropReturn.induct with
  | case1 => exact ⟨.feed, rfl⟩
  | case2 => exact ⟨.returnFeed, rfl⟩
  | case3 c rest hother ih =>
    obtain ⟨ending, hrest⟩ := ih
    rw [dropReturn]
    · exact ⟨ending, congrArg (c :: ·) hrest⟩
    · exact hother

theorem trimEnd_dropReturn (chars : List Char) :
    trimEnd (String.ofList (dropReturn chars)) = trimEnd (String.ofList chars) := by
  obtain ⟨ending, hchars⟩ := exists_eq_dropReturn_append chars
  have hline : String.ofList chars = String.ofList (dropReturn chars) ++ ending.lead := by
    apply String.toList_inj.mp
    rw [String.toList_append, String.toList_ofList, String.toList_ofList]
    exact hchars
  rw [hline, trimEnd_append_lead]

/-! ## Programs -/

/-- The program of some lines, line by line. -/
theorem program_cons (line : String) (more : List String) :
    program (line :: more)
      = if trimEnd line = "" then [] else trimEnd line :: program more := by
  unfold program
  rw [List.map_cons, List.takeWhile_cons]
  by_cases hempty : trimEnd line = ""
  · rw [if_pos hempty, hempty]
    rfl
  · rw [if_neg hempty, if_pos (decide_eq_true hempty)]

/-- A program is made of the trimmed lines. -/
theorem program_cons_congr {line other : String} {more others : List String}
    (hline : trimEnd line = trimEnd other) (hmore : program more = program others) :
    program (line :: more) = program (other :: others) := by
  rw [program_cons, program_cons, hline, hmore]

/-- An empty line at the end changes nothing. -/
theorem program_empty : program [""] = program [] := rfl

/-- The lines among some pieces make the program that the pieces make. -/
theorem program_linesOfPieces (pieces : List (List Char)) :
    program ((linesOfPieces pieces).map String.ofList) = program (pieces.map String.ofList) := by
  induction pieces using linesOfPieces.induct with
  | case1 => rfl
  | case2 => exact program_empty.symm
  | case3 last hne =>
    rw [linesOfPieces, if_neg hne]
  | case4 line more hlast ih =>
    rw [linesOfPieces, List.map_cons, List.map_cons]
    · exact program_cons_congr (trimEnd_dropReturn line) ih
    · exact hlast

/-- **A text is cut into lines as if it were cut at line feeds**, as far as the program
goes. -/
theorem program_lines (source : String) :
    program (lines source) = program (split (· = '\n') source) :=
  program_linesOfPieces _

/-- A line that is joined to a text is cut off again, up to trimming. -/
theorem program_split_append {line : String} (h : Lacks '\n' line) (ending : LineEnd)
    {source : String} {more : List String}
    (hmore : program (split (· = '\n') source) = program more) :
    program (split (· = '\n') (line ++ ending.text ++ source)) = program (line :: more) := by
  have hlead : Lacks '\n' (line ++ ending.lead) := by
    refine h.append ?_
    cases ending with
    | feed => decide
    | returnFeed => decide
  rw [ending.text_eq, ← String.append_assoc, split_append (decide_eq_true rfl) rfl, hlead.split_eq]
  exact program_cons_congr (trimEnd_append_lead line ending) hmore

/-- **Cutting undoes joining for programs**, whichever line end stands between the lines
and whether or not there is one behind the last. -/
theorem program_lines_intercalate {rows : List String} (h : ∀ row ∈ rows, Lacks '\n' row)
    (ending : LineEnd) {close : String} (hclose : close = "" ∨ close = ending.text) :
    program (lines (ending.text.intercalate rows ++ close)) = program rows := by
  rw [program_lines]
  induction rows with
  | nil =>
    rcases hclose with rfl | rfl
    · rfl
    · -- the line end stands behind an empty line
      have hempty : program (split (· = '\n') ("" ++ ending.text ++ "")) = program [""] :=
        program_split_append (by decide) ending program_empty
      rwa [String.append_empty] at hempty
  | cons row more ih =>
    have hrow : Lacks '\n' row := h row List.mem_cons_self
    have hmore := ih fun other hother => h other (List.mem_cons_of_mem row hother)
    cases more with
    | nil =>
      show program (split (· = '\n') (row ++ close)) = program [row]
      rcases hclose with rfl | rfl
      · rw [String.append_empty, hrow.split_eq]
      · have hlast : program (split (· = '\n') (row ++ ending.text ++ "")) = program [row] :=
          program_split_append hrow ending program_empty
        rwa [String.append_empty] at hlast
    | cons next others =>
      rw [String.intercalate_cons_cons, String.append_assoc]
      exact program_split_append hrow ending hmore

/-- **A program ends at its first empty line**, and nothing behind it counts. -/
theorem program_takeWhile {rows : List String} (h : ∀ row ∈ rows, Lacks '\n' row) :
    program (rows.takeWhile (dropReturns · ≠ "")) = program rows := by
  induction rows with
  | nil => rfl
  | cons row more ih =>
    have hrow := (h row List.mem_cons_self).trimEnd_eq_empty_iff
    have hmore := ih fun other hother => h other (List.mem_cons_of_mem row hother)
    by_cases hempty : dropReturns row = ""
    · rw [List.takeWhile_cons_of_neg (by simp [hempty]), program_cons,
        if_pos (hrow.mpr hempty)]
      rfl
    · rw [List.takeWhile_cons_of_pos (by simp [hempty])]
      exact program_cons_congr rfl hmore

end Text

/-- Lines that make the same program are assembled alike. -/
theorem assemble_of_program_eq (settings : Settings) {rows others : List String}
    (h : Text.program rows = Text.program others) :
    assemble settings rows = assemble settings others := by
  unfold assemble Run.ofLines
  rw [h]

/-- **Line ends do not matter.** Lines without line feeds, with carriage returns anywhere,
are assembled to the same result one by one, joined by line feeds, and joined by carriage
returns and line feeds, with or without a line end behind the last. The result is that of
the lines before the first one that is empty or made of carriage returns. -/
theorem line_ends_do_not_matter (settings : Settings) {rows : List String}
    (h : ∀ row ∈ rows, Text.Lacks '\n' row) (ending : Text.LineEnd) :
    assembleText settings (ending.text.intercalate rows) = assemble settings rows
      ∧ assembleText settings (ending.text.intercalate rows ++ ending.text)
        = assemble settings rows
      ∧ assemble settings rows
        = assemble settings (rows.takeWhile (Text.dropReturns · ≠ "")) := by
  refine ⟨?_, ?_, ?_⟩
  · rw [← String.append_empty (s := ending.text.intercalate rows)]
    exact assemble_of_program_eq settings
      (Text.program_lines_intercalate h ending (.inl rfl))
  · exact assemble_of_program_eq settings
      (Text.program_lines_intercalate h ending (.inr rfl))
  · exact assemble_of_program_eq settings (Text.program_takeWhile h).symm

/-- Lines with carriage returns behind and inside them, and one made of nothing else. -/
def returnRows : List String := ["P START 0\r", "RSUB", "\rA RESB 2\r\r", "\r\r", "1 2 3 4"]

/-- They are assembled to the same result however they are joined, and the last line is
never read. -/
theorem line_ends_do_not_matter_returns :
    (∀ row ∈ returnRows, Text.Lacks '\n' row)
      ∧ assembleText {} "P START 0\r\r\nRSUB\r\n\rA RESB 2\r\r\r\n\r\r\r\n1 2 3 4\r\n"
        = assemble {} returnRows
      ∧ assemble {} returnRows = assemble {} ["P START 0\r", "RSUB", "\rA RESB 2\r\r"] := by
  have hlacks : ∀ row ∈ returnRows, Text.Lacks '\n' row := by decide +kernel
  obtain ⟨-, htext, hbefore⟩ := line_ends_do_not_matter {} hlacks .returnFeed
  refine ⟨hlacks, ?_, ?_⟩
  · rw [← htext]
    exact congrArg (assembleText {}) (by decide +kernel)
  · rw [hbefore]
    exact congrArg (assemble {}) (by decide +kernel)

end TwoPass

import TwoPass.Command.FileTree
import TwoPass.Proofs.Lists

/-!
# Reading and writing files

A path is a way to a file, and several paths can be ways to the same one. What a read or
a write has to do with is the file, so both are stated in terms of where the path leads.
`FileTree.Leads` says so rule by rule: a part of a path stays, goes up, enters a folder,
follows a link or arrives. It holds of exactly the ways that are followed without a fault
(`FileTree.walkLinks_eq_ok_iff`).

A way goes through folders and links only, and a write makes and removes none. Where a path
leads is therefore the same before and after (`FileTree.SameWays.lead_eq_ok_iff`). Which
names are names of one file is the same too (`FileTree.sameFile_put`), although a new file
is given a number. So a sequence of writes can be told from where their paths led at the
beginning: a file holds what was written to it last, or what it held before
(`FileTree.Saves.content?_eq`).
-/

namespace TwoPass

/-- A part of a path is a name, and no word for the place it is at or for the one above. -/
def Path.IsName (part : String) : Prop := part ≠ "" ∧ part ≠ "." ∧ part ≠ ".."

instance : DecidablePred Path.IsName := fun _ => inferInstanceAs (Decidable (_ ∧ _ ∧ _))

/-- Whether a name stands for a file. -/
def Entry.IsFile (entry : Entry) : Prop := ∃ number, entry = .file number

namespace FileTree

variable {t t' : FileTree} {links : Nat} {here names other : List String} {part path : String}
  {more parts : List String} {landing : Landing} {access : Access} {content : ByteArray}

/-! ## Ways -/

/-- Some names stand for a file or for nothing. -/
def FitsFile (t : FileTree) (names : List String) : Prop :=
  ∀ entry, t.node? names = some entry → entry.IsFile

/-- **Where some parts lead from a folder**, with so many links left to follow. -/
inductive Leads (t : FileTree) : Nat → List String → List String → Landing → Prop where
  /-- Without parts one is there. -/
  | done {links : Nat} {here : List String} : Leads t links here [] (.folder here)
  /-- An empty part and a dot stay. -/
  | stay {links : Nat} {here more : List String} {part : String} {landing : Landing}
      (place : part = "" ∨ part = ".") (rest : Leads t links here more landing) :
      Leads t links here (part :: more) landing
  /-- Two dots go up. -/
  | up {links : Nat} {here more : List String} {landing : Landing}
      (rest : Leads t links here.dropLast more landing) :
      Leads t links here (".." :: more) landing
  /-- The name of a folder enters it. -/
  | enter {links : Nat} {here more : List String} {part : String} {landing : Landing}
      (name : Path.IsName part) (folder : t.node? (here ++ [part]) = some .folder)
      (rest : Leads t links (here ++ [part]) more landing) :
      Leads t links here (part :: more) landing
  /-- The name of a link is replaced by the path it holds. -/
  | follow {links : Nat} {here more : List String} {part path : String} {landing : Landing}
      (name : Path.IsName part) (link : t.node? (here ++ [part]) = some (.link path))
      (rest : Leads t links (start here path) (Text.split (· = '/') path ++ more) landing) :
      Leads t (links + 1) here (part :: more) landing
  /-- Another name is the end, and at most slashes may follow. -/
  | arrive {links : Nat} {here more : List String} {part : String}
      (name : Path.IsName part) (fits : t.FitsFile (here ++ [part]))
      (slashes : ∀ rest ∈ more, rest = "") :
      Leads t links here (part :: more) (.name (here ++ [part]) (more ≠ []))

theorem fitsFile_of_none (h : t.node? names = none) : t.FitsFile names := by
  intro entry hentry
  rw [h] at hentry
  cases hentry

theorem fitsFile_of_file {number : Nat} (h : t.node? names = some (.file number)) :
    t.FitsFile names := by
  intro entry hentry
  rw [h] at hentry
  cases hentry
  exact ⟨number, rfl⟩

/-- What stands at names that fit a file. -/
theorem FitsFile.node?_cases (h : t.FitsFile names) :
    t.node? names = none ∨ ∃ number, t.node? names = some (.file number) := by
  cases hentry : t.node? names with
  | none => exact .inl rfl
  | some entry =>
    obtain ⟨number, rfl⟩ := h entry hentry
    exact .inr ⟨number, rfl⟩

theorem not_isName_of_place (h : part = "" ∨ part = ".") : ¬ Path.IsName part := by
  rintro ⟨hempty, hdot, -⟩
  rcases h with hplace | hplace
  · exact hempty hplace
  · exact hdot hplace

section Walk

variable {follow : List String → List String → Except FileFault Landing}

theorem walk_stay (h : part = "" ∨ part = ".") :
    t.walk follow here (part :: more) = t.walk follow here more := if_pos h

theorem walk_name (h : Path.IsName part) :
    t.walk follow here (part :: more)
      = match t.node? (here ++ [part]) with
        | some .folder => t.walk follow (here ++ [part]) more
        | some (.link path) => follow (start here path) (Text.split (· = '/') path ++ more)
        | found =>
          if more.all (· = "") then .ok (.name (here ++ [part]) (more ≠ []))
          else .error (if found.isSome then .notFolder else .notFound) := by
  have hplace : ¬ (part = "" ∨ part = ".") := fun hplace => not_isName_of_place hplace h
  exact (if_neg hplace).trans (if_neg h.2.2)

/-- A way that is followed without a fault leads somewhere, if the links on it do. -/
theorem leads_of_walk (h : t.walk follow here parts = .ok landing)
    (hfollow : ∀ here parts, follow here parts = .ok landing →
      ∃ left, links = left + 1 ∧ t.Leads left here parts landing) :
    t.Leads links here parts landing := by
  induction parts generalizing here with
  | nil =>
    cases h
    exact .done
  | cons part more ih =>
    by_cases hplace : part = "" ∨ part = "."
    · exact .stay hplace (ih (walk_stay hplace ▸ h))
    by_cases hup : part = ".."
    · subst hup
      exact .up (ih h)
    obtain ⟨hempty, hdot⟩ := not_or.mp hplace
    have hname : Path.IsName part := ⟨hempty, hdot, hup⟩
    have harrive : t.FitsFile (here ++ [part]) → ∀ fault : FileFault,
        (if more.all (· = "") then Except.ok (Landing.name (here ++ [part]) (more ≠ []))
          else .error fault) = .ok landing →
        t.Leads links here (part :: more) landing := by
      intro hfits fault hend
      split at hend
      · next hall =>
        cases hend
        exact .arrive hname hfits (by simpa using hall)
      · cases hend
    rw [walk_name hname] at h
    cases hentry : t.node? (here ++ [part]) with
    | none => exact harrive (fitsFile_of_none hentry) _ (by simpa only [hentry] using h)
    | some entry =>
      simp only [hentry] at h
      cases entry with
      | file number => exact harrive (fitsFile_of_file hentry) _ h
      | folder => exact .enter hname hentry (ih h)
      | link path =>
        obtain ⟨left, rfl, hrest⟩ := hfollow _ _ h
        exact .follow hname hentry hrest

end Walk

/-- **The ways that are followed without a fault.** -/
theorem walkLinks_eq_ok_iff :
    t.walkLinks links here parts = .ok landing ↔ t.Leads links here parts landing := by
  constructor
  · intro h
    induction links generalizing here parts with
    | zero => exact leads_of_walk h fun _ _ hnone => nomatch hnone
    | succ links ih => exact leads_of_walk h fun _ _ hrest => ⟨links, rfl, ih hrest⟩
  · intro h
    induction h with
    | @done links here => cases links <;> rfl
    | @stay links _ _ _ _ hplace _ ih =>
      cases links <;> exact (walk_stay hplace).trans ih
    | @up links _ _ _ _ ih => cases links <;> exact ih
    | @enter links _ _ _ _ hname hfolder _ ih =>
      cases links <;> exact (walk_name hname).trans (by rw [hfolder]; exact ih)
    | follow hname hlink _ ih => exact (walk_name hname).trans (by rw [hlink]; exact ih)
    | @arrive links here more part hname hfits hall =>
      have hslashes : more.all (· = "") = true := by simpa using hall
      rcases hfits.node?_cases with hentry | ⟨number, hentry⟩
      · cases links <;> exact (walk_name hname).trans (by simp only [hentry, hslashes, if_true])
      · cases links <;> exact (walk_name hname).trans (by simp only [hentry, hslashes, if_true])

theorem lead_eq_ok_iff :
    t.lead path = .ok landing
      ↔ path ≠ "" ∧ t.Leads maxLinks (start t.here path) (Text.split (· = '/') path) landing := by
  unfold lead
  by_cases hempty : path = ""
  · simp [hempty]
  · rw [if_neg hempty, walkLinks_eq_ok_iff]
    simp [hempty]

/-- A way that does not end in a folder ends at names for a file. -/
theorem Leads.fitsFile {slashed : Bool} (h : t.Leads links here parts (.name names slashed)) :
    t.FitsFile names := by
  generalize hlanding : Landing.name names slashed = landing at h
  induction h with
  | done => cases hlanding
  | stay _ _ ih => exact ih hlanding
  | up _ ih => exact ih hlanding
  | enter _ _ _ ih => exact ih hlanding
  | follow _ _ _ ih => exact ih hlanding
  | arrive _ hfits _ =>
    cases hlanding
    exact hfits

theorem fitsFile_of_lead {slashed : Bool} (h : t.lead path = .ok (.name names slashed)) :
    t.FitsFile names :=
  (lead_eq_ok_iff.mp h).2.fitsFile

/-! ## Trees with the same ways -/

/-- **Two trees have the same ways**: the same folders and links, whatever their files are. -/
structure SameWays (t t' : FileTree) : Prop where
  /-- The command works in the same folder. -/
  here : t'.here = t.here
  /-- What is no file is the same. -/
  entry : ∀ names entry, ¬ entry.IsFile →
    (t'.node? names = some entry ↔ t.node? names = some entry)

namespace SameWays

theorem refl (t : FileTree) : t.SameWays t := ⟨rfl, fun _ _ _ => Iff.rfl⟩

theorem symm (h : t.SameWays t') : t'.SameWays t :=
  ⟨h.here.symm, fun names entry hfile => (h.entry names entry hfile).symm⟩

theorem trans {t'' : FileTree} (h : t.SameWays t') (h' : t'.SameWays t'') : t.SameWays t'' :=
  ⟨h'.here.trans h.here, fun names entry hfile =>
    (h'.entry names entry hfile).trans (h.entry names entry hfile)⟩

theorem fitsFile (h : t.SameWays t') (hfits : t.FitsFile names) : t'.FitsFile names := by
  intro entry hentry
  by_contra hfile
  exact hfile (hfits entry ((h.entry names entry hfile).mp hentry))

theorem leads (h : t.SameWays t') (hleads : t.Leads links here parts landing) :
    t'.Leads links here parts landing := by
  induction hleads with
  | done => exact .done
  | stay hplace _ ih => exact .stay hplace ih
  | up _ ih => exact .up ih
  | enter hname hfolder _ ih =>
    exact .enter hname ((h.entry _ _ (by simp [Entry.IsFile])).mpr hfolder) ih
  | follow hname hlink _ ih =>
    exact .follow hname ((h.entry _ _ (by simp [Entry.IsFile])).mpr hlink) ih
  | arrive hname hfits hall => exact .arrive hname (h.fitsFile hfits) hall

/-- **A path leads to the same place** in trees with the same ways. -/
theorem lead_eq_ok_iff (h : t.SameWays t') :
    t'.lead path = .ok landing ↔ t.lead path = .ok landing := by
  rw [FileTree.lead_eq_ok_iff, FileTree.lead_eq_ok_iff, h.here]
  exact and_congr_right fun _ => ⟨h.symm.leads, h.leads⟩

end SameWays

/-! ## What a file is -/

/-- What makes a file the file it is: its number, and as long as there is none, the names it
would have. -/
def identity (t : FileTree) (names : List String) : Nat ⊕ List String :=
  match t.node? names with
  | some (.file number) => .inl number
  | _ => .inr names

/-- **Two lists of names are names of one file.** -/
def SameFile (t : FileTree) (names other : List String) : Prop :=
  t.identity names = t.identity other

instance (t : FileTree) (names other : List String) : Decidable (t.SameFile names other) :=
  inferInstanceAs (Decidable (_ = _))

/-- The number of the file at some names, or the number it is given when it is made. -/
def numberFor (t : FileTree) (names : List String) : Nat :=
  match t.node? names with
  | some (.file number) => number
  | _ => t.freshNumber

/-- The new number is no file's number. -/
theorem lt_freshNumber {number : Nat} (h : t.node? names = some (.file number)) :
    number < t.freshNumber := by
  unfold node? at h
  split at h
  · cases h
  unfold freshNumber
  generalize t.entries = entries at h
  induction entries with
  | nil => cases h
  | cons first more ih =>
    obtain ⟨key, entry⟩ := first
    rw [List.lookup_cons] at h
    rw [List.foldr_cons]
    split at h
    · cases h
      exact Nat.le_max_right _ _
    · have hmore := ih h
      cases entry with
      | file other => exact Nat.lt_of_lt_of_le hmore (Nat.le_max_left _ _)
      | folder => exact hmore
      | link path => exact hmore

/-- Other names are names of the file at some names exactly if they have its number. -/
theorem sameFile_iff_of_ne (hne : other ≠ names) :
    t.SameFile names other ↔ t.node? other = some (.file (t.numberFor names)) := by
  unfold SameFile identity numberFor
  cases hother : t.node? other with
  | none => split <;> simp [Ne.symm hne]
  | some entry =>
    cases entry with
    | folder => split <;> simp [Ne.symm hne]
    | link path => split <;> simp [Ne.symm hne]
    | file number =>
      have hold := lt_freshNumber hother
      split
      · simp [eq_comm]
      · simp [Nat.ne_of_lt hold]

/-! ## What a write changes -/

theorem node?_put (h : t.FitsFile names) (content : ByteArray) (other : List String) :
    (t.put names content).node? other
      = if other = names then some (.file (t.numberFor names)) else t.node? other := by
  have hnil : names ≠ [] := by
    rintro rfl
    obtain ⟨number, hnumber⟩ := h .folder rfl
    cases hnumber
  rcases h.node?_cases with hnone | ⟨number, hnumber⟩
  · have hlookup : t.entries.lookup names = none := by simpa [node?, hnil] using hnone
    unfold put numberFor
    rw [hnone]
    simp only [node?, List.lookup_append, List.lookup_cons]
    by_cases hother : other = names
    · simp [hother, hnil, hlookup]
    · simp [hother, beq_false_of_ne hother]
  · unfold put numberFor
    rw [hnumber]
    by_cases hother : other = names
    · simp only [hother, if_true]
      exact hnumber
    · rw [if_neg hother]
      rfl

theorem contents_put (t : FileTree) (names : List String) (content : ByteArray) :
    (t.put names content).contents = (t.numberFor names, content) :: t.contents := by
  unfold put numberFor
  cases t.node? names with
  | none => rfl
  | some entry => cases entry <;> rfl

theorem holding_put (t : FileTree) (names : List String) (content : ByteArray) (number : Nat) :
    (t.put names content).holding number
      = if number = t.numberFor names then content else t.holding number := by
  unfold holding
  rw [contents_put, List.lookup_cons]
  by_cases hnumber : number = t.numberFor names
  · simp [hnumber]
  · simp [hnumber, beq_false_of_ne hnumber]

/-- **A write is seen under all names of the file, and under no others.** -/
theorem content?_put (h : t.FitsFile names) (content : ByteArray) (other : List String) :
    (t.put names content).content? other
      = if t.SameFile names other then some content else t.content? other := by
  unfold content?
  rw [node?_put h]
  by_cases hother : other = names
  · subst hother
    have hself : t.SameFile other other := rfl
    rw [if_pos rfl, if_pos hself]
    simp [holding_put]
  · rw [if_neg hother]
    simp only [sameFile_iff_of_ne hother]
    cases t.node? other with
    | none => simp
    | some entry =>
      cases entry with
      | file number =>
        simp only [holding_put, Option.some.injEq, Entry.file.injEq]
        split <;> rfl
      | folder => simp
      | link path => simp

/-- **A write makes no two files one**, and no one file two. -/
theorem sameFile_put (h : t.FitsFile names) (content : ByteArray) (a b : List String) :
    (t.put names content).SameFile a b ↔ t.SameFile a b := by
  have hkept : ∀ other, other ≠ names → (t.put names content).node? other = t.node? other :=
    fun other hother => (node?_put h content other).trans (if_neg hother)
  have hone : ∀ other, other ≠ names →
      ((t.put names content).SameFile names other ↔ t.SameFile names other) := by
    intro other hother
    have hnumber : (t.put names content).numberFor names = t.numberFor names := by
      rw [numberFor, node?_put h, if_pos rfl]
    rw [sameFile_iff_of_ne hother, sameFile_iff_of_ne hother, hnumber, hkept other hother]
  by_cases ha : a = names
  · subst ha
    by_cases hb : b = a
    · subst hb
      exact iff_of_true rfl rfl
    · exact hone b hb
  · by_cases hb : b = names
    · subst hb
      exact eq_comm.trans ((hone a ha).trans eq_comm)
    · unfold SameFile identity
      rw [hkept a ha, hkept b hb]

/-- A write leaves the ways as they are. -/
theorem sameWays_put (h : t.FitsFile names) (content : ByteArray) :
    t.SameWays (t.put names content) := by
  refine ⟨?_, fun other entry hfile => ?_⟩
  · unfold put
    split <;> rfl
  · rw [node?_put h]
    by_cases hother : other = names
    · subst hother
      rw [if_pos rfl]
      refine iff_of_false (fun heq => ?_) fun heq => hfile (h entry heq)
      cases heq
      exact hfile ⟨_, rfl⟩
    · rw [if_neg hother]

/-! ## Reads -/

/-- **A read gives what the file at the end of the path holds**, if it is not refused. -/
theorem read_eq_ok_iff :
    t.read access path = .ok content
      ↔ access.reading t path = none
        ∧ ∃ names, t.lead path = .ok (.name names false) ∧ t.content? names = some content := by
  unfold read
  cases access.reading t path with
  | some fault => simp
  | none =>
    cases t.lead path with
    | error fault => simp
    | ok landing =>
      cases landing with
      | folder names => simp
      | name names slashed =>
        cases hcontent : t.content? names with
        | none => simp [hcontent]
        | some held => cases slashed <;> simp [hcontent]

/-- A text that can be read stands in a file at the end of the path. -/
theorem exists_lead_of_readText {text : String} (h : t.readText access path = .ok text) :
    ∃ names, t.lead path = .ok (.name names false) := by
  unfold readText at h
  split at h
  · cases h
  · next content hread =>
    obtain ⟨-, names, hlead, -⟩ := read_eq_ok_iff.mp hread
    exact ⟨names, hlead⟩

/-- A file that was given as text is read as that text. -/
theorem readText_of_content? {text : String} (hreading : access.reading t path = none)
    (hlead : t.lead path = .ok (.name names false))
    (hcontent : t.content? names = some text.toUTF8) : t.readText access path = .ok text := by
  have htext : String.fromUTF8? text.toUTF8 = some text := dif_pos text.isValidUTF8
  unfold readText
  rw [read_eq_ok_iff.mpr ⟨hreading, names, hlead, hcontent⟩]
  simp only [htext]

/-! ## Writes -/

/-- **What a write can come to.** It fails and changes nothing, or it goes to the end of its
path. There it leaves everything it should, or it fails and leaves the beginning. -/
theorem write_cases (access : Access) (t : FileTree) (path : String) (content : ByteArray) :
    ((t.write access path content).fault ≠ none ∧ (t.write access path content).files = t)
      ∨ ∃ names, t.lead path = .ok (.name names false)
        ∧ ((t.write access path content).fault = none
            ∧ (t.write access path content).files = t.put names content
          ∨ (t.write access path content).fault ≠ none
            ∧ ∃ bytes, (t.write access path content).files
                = t.put names (content.extract 0 bytes)) := by
  unfold write
  split
  · exact .inl ⟨Option.some_ne_none _, rfl⟩
  · exact .inl ⟨Option.some_ne_none _, rfl⟩
  · exact .inl ⟨Option.some_ne_none _, rfl⟩
  · exact .inl ⟨Option.some_ne_none _, rfl⟩
  · next names _ hlead => exact .inr ⟨names, hlead, .inl ⟨rfl, rfl⟩⟩
  · next fault bytes names _ hlead =>
    exact .inr ⟨names, hlead, .inr ⟨Option.some_ne_none _, bytes, rfl⟩⟩

/-- A write that succeeds goes to the end of its path. -/
theorem exists_put_of_write (h : (t.write access path content).fault = none) :
    ∃ names, t.lead path = .ok (.name names false)
      ∧ (t.write access path content).files = t.put names content := by
  rcases write_cases access t path content with
    ⟨hfault, -⟩ | ⟨names, hlead, ⟨-, hput⟩ | ⟨hfault, -⟩⟩
  · exact absurd h hfault
  · exact ⟨names, hlead, hput⟩
  · exact absurd h hfault

/-- A write that is granted succeeds if its path leads to names for a file. -/
theorem write_of_lead (hwriting : access.writing t path content = .granted)
    (hlead : t.lead path = .ok (.name names false)) :
    t.write access path content = { files := t.put names content } := by
  unfold write
  rw [hwriting, hlead]

/-- Whatever a write comes to, it changes one file at most. -/
theorem write_files_cases (access : Access) (t : FileTree) (path : String) (content : ByteArray) :
    (t.write access path content).files = t
      ∨ ∃ names left, t.FitsFile names
        ∧ (t.write access path content).files = t.put names left := by
  rcases write_cases access t path content with
    ⟨-, hfiles⟩ | ⟨names, hlead, ⟨-, hfiles⟩ | ⟨-, bytes, hfiles⟩⟩
  · exact .inl hfiles
  · exact .inr ⟨names, _, fitsFile_of_lead hlead, hfiles⟩
  · exact .inr ⟨names, _, fitsFile_of_lead hlead, hfiles⟩

/-- **A write leaves the ways as they are.** -/
theorem sameWays_write (access : Access) (t : FileTree) (path : String) (content : ByteArray) :
    t.SameWays (t.write access path content).files := by
  rcases write_files_cases access t path content with hfiles | ⟨names, left, hfits, hfiles⟩
  · rw [hfiles]
    exact SameWays.refl t
  · rw [hfiles]
    exact sameWays_put hfits left

/-- **A write leaves the files the files they are.** -/
theorem sameFile_write (access : Access) (t : FileTree) (path : String) (content : ByteArray)
    (a b : List String) :
    (t.write access path content).files.SameFile a b ↔ t.SameFile a b := by
  rcases write_files_cases access t path content with hfiles | ⟨names, left, hfits, hfiles⟩
  · rw [hfiles]
  · rw [hfiles]
    exact sameFile_put hfits left a b

/-! ## Where a write goes -/

/-- Whether a path leads to the file at some names. -/
def goesTo (t : FileTree) (path : String) (names : List String) : Bool :=
  match t.lead path with
  | .ok (.name place false) => t.SameFile place names
  | _ => false

theorem goesTo_iff :
    t.goesTo path names = true
      ↔ ∃ place, t.lead path = .ok (.name place false) ∧ t.SameFile place names := by
  unfold goesTo
  split
  · next place hlead => simp [hlead]
  · next hother =>
    simp only [Bool.false_eq_true, false_iff]
    rintro ⟨place, hlead, -⟩
    exact hother place hlead

/-- Paths lead to the files they led to before a write. -/
theorem goesTo_write (access : Access) (t : FileTree) (path : String) (content : ByteArray)
    (other : String) (names : List String) :
    (t.write access path content).files.goesTo other names = t.goesTo other names := by
  rw [Bool.eq_iff_iff, goesTo_iff, goesTo_iff]
  simp only [(sameWays_write access t path content).lead_eq_ok_iff, sameFile_write]

/-- **What a file holds after a write that succeeds.** -/
theorem content?_write (h : (t.write access path content).fault = none) (names : List String) :
    (t.write access path content).files.content? names
      = if t.goesTo path names then some content else t.content? names := by
  obtain ⟨place, hlead, hfiles⟩ := exists_put_of_write h
  rw [hfiles, content?_put (fitsFile_of_lead hlead), goesTo, hlead]
  simp only [decide_eq_true_eq]

/-! ## What a path shows -/

/-- What the file at the end of a path holds. -/
def held? (t : FileTree) (path : String) : Option ByteArray :=
  match t.lead path with
  | .ok (.name names false) => t.content? names
  | _ => none

theorem held?_of_lead (h : t.lead path = .ok (.name names false)) :
    t.held? path = t.content? names := by
  rw [held?, h]

/-- **Two paths lead to one file.** -/
def Coincide (t : FileTree) (path other : String) : Prop :=
  ∃ names, t.lead other = .ok (.name names false) ∧ t.goesTo path names

theorem coincide_iff {other : String} (h : t.lead other = .ok (.name names false)) :
    t.Coincide path other ↔ t.goesTo path names = true := by
  unfold Coincide
  simp [h]

theorem coincide_write (access : Access) (t : FileTree) (path : String) (content : ByteArray)
    (a b : String) : (t.write access path content).files.Coincide a b ↔ t.Coincide a b := by
  unfold Coincide
  simp only [(sameWays_write access t path content).lead_eq_ok_iff, goesTo_write]

/-- **What a write makes of what a path shows.** -/
structure Shows (t : FileTree) (path : String) (content : ByteArray) (attempt : Attempt)
    (other : String) : Prop where
  /-- A write elsewhere makes no difference. -/
  apart : ¬ t.Coincide path other → attempt.files.held? other = t.held? other
  /-- A write there that succeeds is shown. -/
  whole : t.Coincide path other → attempt.fault = none →
    attempt.files.held? other = some content
  /-- One that fails makes no difference, or leaves a beginning. -/
  broken : t.Coincide path other → attempt.fault ≠ none →
    attempt.files.held? other = t.held? other
      ∨ ∃ bytes, attempt.files.held? other = some (content.extract 0 bytes)

theorem held?_eq_none (h : ¬ ∃ names, t.lead path = .ok (.name names false)) :
    t.held? path = none := by
  unfold held?
  split
  · next names hlead => exact absurd ⟨names, hlead⟩ h
  · rfl

/-- **Every write shows** under the paths that lead to where it goes. -/
theorem shows_write (access : Access) (t : FileTree) (path : String) (content : ByteArray)
    (other : String) : t.Shows path content (t.write access path content) other := by
  have hways := sameWays_write access t path content
  by_cases hother : ∃ names, t.lead other = .ok (.name names false)
  · obtain ⟨names, hlead⟩ := hother
    have hbefore := held?_of_lead hlead
    have hafter := held?_of_lead (hways.lead_eq_ok_iff.mpr hlead)
    have hcoincide : t.Coincide path other ↔ t.goesTo path names = true := coincide_iff hlead
    rcases write_cases access t path content with
      ⟨hfault, hfiles⟩ | ⟨place, hplace, ⟨hfault, hfiles⟩ | ⟨hfault, bytes, hfiles⟩⟩
    · have hkept : (t.write access path content).files.held? other = t.held? other := by
        rw [hfiles]
      exact ⟨fun _ => hkept, fun _ hnone => absurd hnone hfault, fun _ _ => .inl hkept⟩
    · rw [content?_write hfault] at hafter
      refine ⟨fun hgoes => ?_, fun hgoes _ => ?_, fun _ hfails => absurd hfault hfails⟩
      · rw [hafter, hbefore, if_neg (mt hcoincide.mpr hgoes)]
      · rw [hafter, if_pos (hcoincide.mp hgoes)]
    · have hsame : t.Coincide path other ↔ t.SameFile place names := by
        rw [hcoincide, goesTo, hplace]
        exact decide_eq_true_iff
      have hcontent := content?_put (fitsFile_of_lead hplace) (content.extract 0 bytes) names
      rw [← hfiles, ← hafter] at hcontent
      refine ⟨fun hgoes => ?_, fun _ hnone => absurd hnone hfault, fun hgoes _ => .inr ⟨bytes, ?_⟩⟩
      · rw [hcontent, hbefore, if_neg (mt hsame.mpr hgoes)]
      · rw [hcontent, if_pos (hsame.mp hgoes)]
  · -- a path that leads to no file shows nothing, before and after
    have hnone : ¬ t.Coincide path other := fun ⟨names, hlead, _⟩ => hother ⟨names, hlead⟩
    refine ⟨fun _ => ?_, fun hgoes => absurd hgoes hnone, fun hgoes => absurd hgoes hnone⟩
    rw [held?_eq_none hother, held?_eq_none]
    rintro ⟨names, hlead⟩
    exact hother ⟨names, hways.lead_eq_ok_iff.mp hlead⟩

/-! ## Sequences of writes -/

/-- **Some texts are written one after the other**, and no write fails. -/
inductive Saves (access : Access) : FileTree → List (String × String) → FileTree → Prop where
  /-- There is nothing to write. -/
  | none {t : FileTree} : Saves access t [] t
  /-- The first text is written, and then the others. -/
  | next {t t' : FileTree} {path text : String} {more : List (String × String)}
      (first : (t.write access path text.toUTF8).fault = .none)
      (rest : Saves access (t.write access path text.toUTF8).files more t') :
      Saves access t ((path, text) :: more) t'

/-- The last of some texts that goes to the file at some names. -/
def lastSaved? (t : FileTree) (saves : List (String × String)) (names : List String) :
    Option String :=
  (saves.filter fun save => t.goesTo save.1 names).getLast?.map Prod.snd

namespace Saves

variable {saves : List (String × String)}

/-- **After a sequence of writes the ways are the same.** -/
theorem sameWays (h : Saves access t saves t') : t.SameWays t' := by
  induction h with
  | none => exact SameWays.refl _
  | next _ _ ih => exact (sameWays_write access _ _ _).trans ih

/-- **After a sequence of writes a file holds what was written to it last**, or what it held
before if nothing was. -/
theorem content?_eq (h : Saves access t saves t') (names : List String) :
    t'.content? names
      = ((t.lastSaved? saves names).map String.toUTF8).or (t.content? names) := by
  induction h with
  | none => rfl
  | @next t t' path text more hfirst _ ih =>
    -- the later paths lead where they led before the first write
    have hlater : (t.write access path text.toUTF8).files.lastSaved? more names
        = t.lastSaved? more names := by
      unfold lastSaved?
      simp only [goesTo_write]
    rw [ih, hlater, content?_write hfirst]
    unfold lastSaved?
    by_cases hgoes : t.goesTo path names
    · rw [if_pos hgoes, List.filter_cons_of_pos (by simpa using hgoes), List.getLast?_cons]
      cases (more.filter fun save => t.goesTo save.1 names).getLast? with
      | none => rfl
      | some later => rfl
    · rw [if_neg hgoes, List.filter_cons_of_neg (by simpa using hgoes)]

end Saves

end FileTree

/-- **The system is steady**: a write that fails changes nothing. -/
def Access.Steady (access : Access) : Prop :=
  ∀ (t : FileTree) (path : String) (content : ByteArray),
    (t.write access path content).fault ≠ none → (t.write access path content).files = t

/-- A system that grants everything is steady. -/
theorem Access.steady_of_granted : Access.Steady {} := by
  intro t path content hfault
  unfold FileTree.write at hfault ⊢
  split
  · rfl
  · rfl
  · rfl
  · rfl
  · next hlead =>
    simp only [hlead] at hfault
    exact absurd rfl hfault
  · next hwriting _ => cases hwriting

end TwoPass

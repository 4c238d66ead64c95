import TwoPass.Proofs.Outcomes

/-!
# The source of a command

A command that is given no folder writes beside its source, under the name of the source
with another extension. Nothing keeps the new name from being the old one. If all names are
text, it is the old one exactly if the source already has that extension behind some other
text, and then the source is what is overwritten (`FileTree.coincide_of_hasExtension`). A link
can have the same effect under any name. Without links there is no other way
(`FileTree.Unlinked.hasExtension_of_coincide`).

There are two writes, the listing and then the object program, and the second is tried only
if the first succeeds. A source that neither output leads to is left as it was. Any other
holds what was last written over it, or a beginning of it if the system broke off.
-/

namespace TwoPass

namespace Path

/-- A text can be a piece of a name. -/
def IsPiece (text : String) : Prop := text ≠ "" ∧ Text.Lacks '/' text

instance : DecidablePred IsPiece := fun _ => inferInstanceAs (Decidable (_ ∧ _))

/-- A text can stand behind the last dot of a name. -/
def IsExtension (text : String) : Prop := IsPiece text ∧ Text.Lacks '.' text

instance : DecidablePred IsExtension := fun _ => inferInstanceAs (Decidable (_ ∧ _))

/-- **A path has an extension**: its last part is a name that ends in a dot and the
extension, with something in front of the dot. -/
def HasExtension (extension path : String) : Prop :=
  ∃ stem, stem ≠ [] ∧ name? path = some (stem ++ '.' :: extension.toList)

variable {extension path : String} {name : List Char}

/-- A path has an extension exactly if the extension gives its name back. -/
theorem hasExtension_iff (h : name? path = some name) (hne : name ≠ [])
    (hdot : '.' ∉ extension.toList) :
    HasExtension extension path ↔ dropExtension name ++ '.' :: extension.toList = name := by
  rw [dropExtension_append_eq_iff hne hdot]
  unfold HasExtension
  rw [h]
  simp only [Option.some.injEq]

/-- A piece and an extension are a name. -/
theorem isName_append {text : String} (h : IsPiece text) (hextension : IsExtension extension) :
    IsName (text ++ ("." ++ extension)) ∧ Text.Lacks '/' (text ++ ("." ++ extension)) := by
  have hchars : ∀ name : String, text ++ ("." ++ extension) = name → 3 ≤ name.toList.length := by
    rintro _ rfl
    have hfirst := List.length_pos_iff.mpr (mt String.toList_eq_nil_iff.mp h.1)
    have hlast := List.length_pos_iff.mpr (mt String.toList_eq_nil_iff.mp hextension.1.1)
    rw [String.toList_append, String.toList_append, List.length_append, List.length_append]
    show 3 ≤ text.toList.length + (1 + extension.toList.length)
    omega
  refine ⟨⟨fun heq => ?_, fun heq => ?_, fun heq => ?_⟩, ?_⟩
  · exact absurd (hchars _ heq) (by decide)
  · exact absurd (hchars _ heq) (by decide)
  · exact absurd (hchars _ heq) (by decide)
  · have hdot : Text.Lacks '/' "." := by decide
    exact h.2.append (hdot.append hextension.1.2)

/-- A piece and an extension are a certain name exactly if the name has the extension, and
the piece is what is left without it. -/
theorem append_eq_iff {text stem name : String} (h : name? path = some name.toList)
    (hne : name ≠ "") (hstem : stem? path = some stem) (htext : text ≠ "")
    (hdot : Text.Lacks '.' extension) :
    text ++ ("." ++ extension) = name ↔ HasExtension extension path ∧ text = stem := by
  have htextNil : text.toList ≠ [] := mt String.toList_eq_nil_iff.mp htext
  have hleft : dropExtension name.toList = stem.toList := by
    rw [stem?, h] at hstem
    rw [← Option.some.inj hstem, String.toList_ofList]
  have hname : text ++ ("." ++ extension) = name
      ↔ name.toList = text.toList ++ '.' :: extension.toList := by
    rw [← String.toList_inj, String.toList_append, String.toList_append]
    exact eq_comm
  rw [hname]
  constructor
  · intro heq
    refine ⟨⟨text.toList, htextNil, by rw [h, heq]⟩, ?_⟩
    rw [← String.toList_inj, ← hleft, heq, dropExtension_append htextNil hdot]
  · rintro ⟨hhas, rfl⟩
    rw [hasExtension_iff h (mt String.toList_eq_nil_iff.mp hne) hdot, hleft] at hhas
    exact hhas.symm

end Path

/-- **The path of an output beside the source.** -/
def Path.beside (path stem extension : String) : String :=
  join (parent path) (stem ++ ("." ++ extension))

namespace FileTree

variable {t : FileTree} {path stem text extension : String} {names : List String}

/-- **There are no links in a tree**: no name stands for a path, and no file has two names. -/
structure Unlinked (t : FileTree) : Prop where
  /-- No name stands for a path. -/
  soft : ∀ names path, t.node? names ≠ some (.link path)
  /-- No file has two names. -/
  hard : ∀ names other number, t.node? names = some (.file number) →
    t.node? other = some (.file number) → names = other

/-- The name of a file without its extension is a piece of a name. -/
theorem isPiece_of_stem? (h : t.lead path = .ok (.name names false))
    (hstem : Path.stem? path = some stem) : Path.IsPiece stem := by
  obtain ⟨-, -, name, hname, hisName, hlacks, -⟩ := exists_lead_beside h
  obtain rfl : String.ofList (Path.dropExtension name.toList) = stem := by
    rw [Path.stem?, hname] at hstem
    exact Option.some.inj hstem
  constructor
  · intro hempty
    have hleft : Path.dropExtension name.toList ≠ [] :=
      Path.dropExtension_ne_nil (mt String.toList_eq_nil_iff.mp hisName.1)
    exact hleft (by rw [← String.toList_ofList (l := Path.dropExtension _), hempty]; rfl)
  · intro hmem
    rw [String.toList_ofList] at hmem
    exact hlacks (Path.mem_of_mem_dropExtension hmem)

/-- **An output lies beside the source**: its name is looked up where that of the source is. It
is the name of the source exactly if the source has the extension of the output, behind the
same text. -/
theorem exists_lead_output (h : t.lead path = .ok (.name names false))
    (hstem : Path.stem? path = some stem) (hextension : Path.IsExtension extension)
    (htext : Path.IsPiece text) :
    ∃ links folder name output, Path.IsName name ∧ Path.IsName output
      ∧ t.Leads links folder [name] (.name names false)
      ∧ (output = name ↔ Path.HasExtension extension path ∧ text = stem)
      ∧ ∀ landing, t.Leads links folder [output] landing →
        t.lead (Path.beside path text extension) = .ok landing := by
  obtain ⟨links, folder, name, hname, hisName, -, hleads, hbeside⟩ := exists_lead_beside h
  obtain ⟨houtput, hlacks⟩ := Path.isName_append htext hextension
  exact ⟨links, folder, name, _, hisName, houtput, hleads,
    Path.append_eq_iff hname hisName.1 hstem htext.1 hextension.2,
    fun landing hlanding => hbeside _ landing houtput hlacks hlanding⟩

/-- **A source with the extension of an output** is where the output goes. -/
theorem coincide_of_hasExtension (h : t.lead path = .ok (.name names false))
    (hstem : Path.stem? path = some stem) (hextension : Path.IsExtension extension)
    (hhas : Path.HasExtension extension path) :
    t.Coincide (Path.beside path stem extension) path := by
  obtain ⟨links, folder, name, output, -, -, hleads, hsame, hlead⟩ :=
    exists_lead_output h hstem hextension (isPiece_of_stem? h hstem)
  rw [hsame.mpr ⟨hhas, rfl⟩] at hlead
  exact (coincide_iff h).mpr (goesTo_iff.mpr ⟨names, hlead _ hleads, rfl⟩)

/-- Without links names of one file are the same. -/
theorem Unlinked.eq_of_sameFile (h : t.Unlinked) {other : List String}
    (hsame : t.SameFile names other) : names = other := by
  unfold SameFile identity at hsame
  split at hsame
  · next number hnumber =>
    split at hsame
    · next number' hnumber' =>
      cases hsame
      exact h.hard names other number hnumber hnumber'
    · cases hsame
  · split at hsame
    · cases hsame
    · exact Sum.inr.inj hsame

/-- Without links a name leads somewhere. -/
theorem Unlinked.exists_leads (h : t.Unlinked) (links : Nat) (folder : List String) {name : String}
    (hname : Path.IsName name) : ∃ landing, t.Leads links folder [name] landing := by
  by_cases hfolder : t.node? (folder ++ [name]) = some .folder
  · exact ⟨_, .enter hname hfolder .done⟩
  · have hfits : t.FitsFile (folder ++ [name]) := by
      intro entry hentry
      cases entry with
      | file number => exact ⟨number, rfl⟩
      | folder => exact absurd hentry hfolder
      | link path => exact absurd hentry (h.soft _ path)
    exact ⟨_, .arrive hname hfits (by simp)⟩

/-- Without links a name that leads to a file stands for it. -/
theorem Unlinked.names_eq (h : t.Unlinked) {links : Nat} {folder : List String} {name : String}
    (hname : Path.IsName name) (hleads : t.Leads links folder [name] (.name names false)) :
    names = folder ++ [name] := by
  cases hleads with
  | stay hplace _ => exact absurd hname (not_isName_of_place hplace)
  | up _ => exact absurd rfl hname.2.2
  | enter _ _ hrest => cases hrest
  | follow _ hlink _ => exact absurd hlink (h.soft _ _)
  | arrive _ _ _ => rfl

/-- **Without links** an output goes to the source only if the source has its extension,
behind the same text. -/
theorem Unlinked.hasExtension_of_coincide (hunlinked : t.Unlinked)
    (h : t.lead path = .ok (.name names false)) (hstem : Path.stem? path = some stem)
    (hextension : Path.IsExtension extension) (htext : Path.IsPiece text)
    (hcoincide : t.Coincide (Path.beside path text extension) path) :
    Path.HasExtension extension path ∧ text = stem := by
  obtain ⟨links, folder, name, output, hname, houtput, hleads, hsame, hlead⟩ :=
    exists_lead_output h hstem hextension htext
  obtain ⟨place, hplace, hfile⟩ := goesTo_iff.mp ((coincide_iff h).mp hcoincide)
  obtain ⟨landing, hlanding⟩ := hunlinked.exists_leads links folder houtput
  obtain rfl : landing = .name place false :=
    Except.ok.inj ((hlead landing hlanding).symm.trans hplace)
  have hnames := hunlinked.eq_of_sameFile hfile
  rw [hunlinked.names_eq houtput hlanding, hunlinked.names_eq hname hleads] at hnames
  exact hsame.mp (by simpa using hnames)

end FileTree

namespace Command

variable {kit : Toolkit} {access : Access} {files : FileTree} {options : Options}
  {assembly : Assembly}

/-- **A toolkit shows names as names**: the text for a piece of a name can be one too. -/
def Toolkit.ShowsNames (kit : Toolkit) : Prop :=
  ∀ text, Path.IsPiece text → Path.IsPiece (kit.shown text)

/-- **The two writes of a command** that writes beside its source and is to make no report.
The second is tried only if the first succeeds. -/
theorem outcome_of_two_writes (h : assembly? kit access files options = some assembly)
    (houtput : options.output = none) (hdiagnostics : options.diagnostics = none) :
    ∃ stem, Path.stem? options.input = some stem
      ∧ (outcome kit access files options).files
        = if (files.write access (Path.beside options.input (kit.shown stem) "txt")
              assembly.listing.toUTF8).fault = none
          then ((files.write access (Path.beside options.input (kit.shown stem) "txt")
              assembly.listing.toUTF8).files.write access
                (Path.beside options.input (kit.shown stem) "obj")
                assembly.object.render.toUTF8).files
          else (files.write access (Path.beside options.input (kit.shown stem) "txt")
              assembly.listing.toUTF8).files := by
  obtain ⟨stem, done, rest, saved, hstem, hsaves, hfiles, hall, hstop, -⟩ := outcome_of_some h
  refine ⟨stem, hstem, ?_⟩
  have htwo : done ++ rest = [(Path.beside options.input (kit.shown stem) "txt", assembly.listing),
      (Path.beside options.input (kit.shown stem) "obj", assembly.object.render)] := by
    rw [← hsaves, saves, hdiagnostics, folder, houtput]
    rfl
  cases hfiles with
  | none =>
    obtain ⟨hfault, hafter, -⟩ := hstop _ _ htwo
    rw [if_neg hfault, hafter]
  | next hfirst hmore =>
    obtain ⟨hlisting, hobject⟩ := List.cons.inj htwo
    cases hlisting
    rw [if_pos hfirst]
    cases hmore with
    | none =>
      obtain ⟨-, hafter, -⟩ := hstop _ _ hobject
      exact hafter
    | next hsecond hnone =>
      obtain ⟨hlast, hempty⟩ := List.cons.inj hobject
      cases hlast
      obtain ⟨rfl, hrest⟩ := List.append_eq_nil_iff.mp hempty
      cases hnone
      exact (hall hrest).1

/-- A source that was assembled is a file. -/
theorem exists_source (h : assembly? kit access files options = some assembly) :
    ∃ names, files.lead options.input = .ok (.name names false) := by
  obtain ⟨source, hsource⟩ := exists_readText_of_assembly? h
  exact FileTree.exists_lead_of_readText hsource

/-- **What a path shows after two writes**, of which the second is tried only if the first
succeeds. -/
theorem held?_of_two_writes {first second : Attempt} {path other source : String}
    {content more : ByteArray} (hfirst : files.Shows path content first source)
    (hsecond : first.files.Shows other more second source)
    (hways : first.files.Coincide other source ↔ files.Coincide other source) :
    (¬ files.Coincide path source → ¬ files.Coincide other source →
        (if first.fault = none then second.files else first.files).held? source
          = files.held? source)
      ∧ (first.fault = none → second.fault = none →
        (files.Coincide other source →
          (if first.fault = none then second.files else first.files).held? source = some more)
        ∧ (¬ files.Coincide other source → files.Coincide path source →
          (if first.fault = none then second.files else first.files).held? source
            = some content)) := by
  constructor
  · intro hpath hother
    split
    · exact (hsecond.apart (mt hways.mp hother)).trans (hfirst.apart hpath)
    · exact hfirst.apart hpath
  · intro hfault hsecondFault
    rw [if_pos hfault]
    refine ⟨fun hother => hsecond.whole (hways.mpr hother) hsecondFault, fun hother hpath => ?_⟩
    exact (hsecond.apart (mt hways.mp hother)).trans (hfirst.whole hpath hfault)

/-- **What becomes of the source.** A command that gives neither a folder nor a file for the
report changes nothing unless it assembles its source. Then it writes the listing and, if
that succeeds, the object program beside the source.

* The source is left as it was if neither path leads to it. If both writes succeed, a source
  that the path of the object program leads to holds the object program, and any other that
  the path of the listing leads to holds the listing. A write that fails leaves the source
  as it was or, if the path leads to it, with a beginning of what was to be written.
* A path leads to the source if the source has the extension of the output, behind a text
  that is shown as it is. In a tree without links it does so in no other case. -/
theorem source_after_run (kit : Toolkit) (access : Access) (files : FileTree)
    (request : Request) :
    ((∀ options, request ≠ .assemble options) → (run kit access files request).files = files)
      ∧ ∀ options, request = .assemble options →
        options.output = none → options.diagnostics = none →
          (assembly? kit access files options = none → (run kit access files request).files = files)
            ∧ ∀ assembly, assembly? kit access files options = some assembly →
              ∃ stem text listing object first second, Path.stem? options.input = some stem
                ∧ text = kit.shown stem
                ∧ listing = Path.join (Path.parent options.input) (text ++ ".txt")
                ∧ object = Path.join (Path.parent options.input) (text ++ ".obj")
                ∧ first = files.write access listing assembly.listing.toUTF8
                ∧ second = first.files.write access object assembly.object.render.toUTF8
                ∧ (run kit access files request).files
                  = (if first.fault = none then second.files else first.files)
                ∧ (¬ files.Coincide listing options.input → ¬ files.Coincide object options.input →
                  (run kit access files request).files.held? options.input
                    = files.held? options.input)
                ∧ (first.fault = none → second.fault = none →
                  (files.Coincide object options.input →
                    (run kit access files request).files.held? options.input
                      = some assembly.object.render.toUTF8)
                  ∧ (¬ files.Coincide object options.input → files.Coincide listing options.input →
                    (run kit access files request).files.held? options.input
                      = some assembly.listing.toUTF8))
                ∧ files.Shows listing assembly.listing.toUTF8 first options.input
                ∧ first.files.Shows object assembly.object.render.toUTF8 second options.input
                ∧ (first.files.Coincide object options.input ↔ files.Coincide object options.input)
                ∧ (Path.HasExtension "txt" options.input ∧ text = stem →
                  files.Coincide listing options.input)
                ∧ (Path.HasExtension "obj" options.input ∧ text = stem →
                  files.Coincide object options.input)
                ∧ (kit.ShowsNames → files.Unlinked →
                  (files.Coincide listing options.input →
                    Path.HasExtension "txt" options.input ∧ text = stem)
                  ∧ (files.Coincide object options.input →
                    Path.HasExtension "obj" options.input ∧ text = stem)) := by
  constructor
  · intro hother
    cases request with
    | assemble options => exact absurd rfl (hother options)
    | unusable => rfl
    | version => rfl
    | help => rfl
  · rintro options rfl houtput hdiagnostics
    rw [run_assemble]
    refine ⟨fun hnone => (outcome_of_none hnone).2, fun assembly hassembly => ?_⟩
    obtain ⟨stem, hstem, hafter⟩ := outcome_of_two_writes hassembly houtput hdiagnostics
    obtain ⟨names, hlead⟩ := exists_source hassembly
    generalize htext : kit.shown stem = text at hafter
    have hfirst := FileTree.shows_write access files (Path.beside options.input text "txt")
      assembly.listing.toUTF8 options.input
    have hways := FileTree.coincide_write access files (Path.beside options.input text "txt")
      assembly.listing.toUTF8 (Path.beside options.input text "obj") options.input
    generalize hown : files.write access (Path.beside options.input text "txt")
      assembly.listing.toUTF8 = first at hafter hfirst hways
    have hsecond := FileTree.shows_write access first.files (Path.beside options.input text "obj")
      assembly.object.render.toUTF8 options.input
    have hboth := held?_of_two_writes hfirst hsecond hways
    rw [← hafter] at hboth
    have htxt : Path.IsExtension "txt" := by decide
    have hobj : Path.IsExtension "obj" := by decide
    refine ⟨stem, text, Path.beside options.input text "txt", Path.beside options.input text "obj",
      first, _, hstem, htext.symm, rfl, rfl, hown.symm, rfl, hafter, hboth.1, hboth.2, hfirst,
      hsecond, hways, ?_, ?_, fun hkit hunlinked => ?_⟩
    · rintro ⟨hhas, rfl⟩
      exact FileTree.coincide_of_hasExtension hlead hstem htxt hhas
    · rintro ⟨hhas, rfl⟩
      exact FileTree.coincide_of_hasExtension hlead hstem hobj hhas
    · have hpiece : Path.IsPiece text := htext ▸ hkit stem (FileTree.isPiece_of_stem? hlead hstem)
      exact ⟨hunlinked.hasExtension_of_coincide hlead hstem htxt hpiece,
        hunlinked.hasExtension_of_coincide hlead hstem hobj hpiece⟩

/-- A program that returns at once. -/
def shortSource : String := "P START 0\nRSUB\nEND\n"

/-- Its listing. -/
def shortListing : String := "1\t\tP\tSTART\t0\t\n2\t0\t\tRSUB\t\t4C0000\n3\t\t\tEND\t\t\n"

/-- Its assembly. -/
theorem exists_shortAssembly :
    ∃ assembly, assembleText {} shortSource = .ok assembly ∧ assembly.listing = shortListing := by
  obtain ⟨assembly, placed, hok, hmade, hlisting, -⟩ :=
    exists_assembly_made {} (Text.lines shortSource)
      (fun placed => Listing.render (SecondPass.run placed).statements) (fun _ => ())
      (a := shortListing) (b := ()) rfl (by decide +kernel)
  refine ⟨assembly, hok, ?_⟩
  rw [hmade.listing, hmade.statements, hlisting]

/-- A source in a folder, under some name. -/
def loneTree (name : String) : FileTree :=
  { entries := [(["d"], .folder), (["d", name], .file 0)]
    contents := [(0, shortSource.toUTF8)] }

/-- A source, and a link to it under the name of its listing. -/
def linkedTree : FileTree :=
  { entries := [(["d"], .folder), (["d", "p.asm"], .file 0), (["d", "p.txt"], .link "../d/p.asm")]
    contents := [(0, shortSource.toUTF8)]
    here := ["d"] }

theorem unlinked_loneTree (name : String) : (loneTree name).Unlinked := by
  have hentry : ∀ names entry, (loneTree name).node? names = some entry →
      entry = .folder ∨ names = ["d", name] ∧ entry = .file 0 := by
    intro names entry h
    unfold FileTree.node? at h
    split at h
    · exact .inl (Option.some.inj h).symm
    · simp only [loneTree, List.lookup_cons, List.lookup_nil] at h
      split at h
      · exact .inl (Option.some.inj h).symm
      · split at h
        · next heq =>
          exact .inr ⟨by simpa using heq, (Option.some.inj h).symm⟩
        · cases h
  refine ⟨fun names path h => ?_, fun names other number h hother => ?_⟩
  · rcases hentry names _ h with hfolder | ⟨-, hfile⟩
    · cases hfolder
    · cases hfile
  · rcases hentry names _ h with hfolder | ⟨hnames, -⟩
    · cases hfolder
    · rcases hentry other _ hother with hfolder | ⟨hothers, -⟩
      · cases hfolder
      · rw [hnames, hothers]

/-- A toolkit that shows every name with a star behind it. -/
def starKit : Toolkit := { Toolkit.usual with shown := (· ++ "*") }

theorem showsNames_usual : Toolkit.usual.ShowsNames := fun _ h => h

theorem showsNames_starKit : starKit.ShowsNames := by
  intro text h
  have hstar : Text.Lacks '/' "*" := by decide
  refine ⟨fun hempty => ?_, h.2.append hstar⟩
  have hchars := congrArg String.toList hempty
  rw [starKit, String.toList_append] at hchars
  exact absurd hchars (by simp)

/-- A source under a name that is all extension is kept, since such a name has none. So is one
whose name is not shown as it is. One that the path of its listing leads to by a link is
lost. -/
theorem source_after_run_links :
    (Toolkit.usual.ShowsNames ∧ (loneTree ".txt").Unlinked
        ∧ (∃ assembly, assembly? .usual {} (loneTree ".txt") { input := "d/./.txt" }
            = some assembly)
        ∧ (run .usual {} (loneTree ".txt")
            (.assemble { input := "d/./.txt" })).files.held? "d/./.txt"
          = some shortSource.toUTF8)
      ∧ (starKit.ShowsNames ∧ (loneTree "p.txt").Unlinked
        ∧ (∃ assembly, assembly? starKit {} (loneTree "p.txt") { input := "/d/p.txt" }
            = some assembly)
        ∧ (run starKit {} (loneTree "p.txt")
            (.assemble { input := "/d/p.txt" })).files.held? "/d/p.txt"
          = some shortSource.toUTF8)
      ∧ (∃ assembly, assembly? .usual {} linkedTree { input := "p.asm" } = some assembly)
        ∧ (run .usual {} linkedTree (.assemble { input := "p.asm" })).files.held? "p.asm"
          = some shortListing.toUTF8 := by
  obtain ⟨assembly, hok, hlisting⟩ := exists_shortAssembly
  have hhidden : (loneTree ".txt").lead "d/./.txt" = .ok (.name ["d", ".txt"] false) := by
    decide +kernel
  have hlone : (loneTree "p.txt").lead "/d/p.txt" = .ok (.name ["d", "p.txt"] false) := by
    decide +kernel
  have hlinked : linkedTree.lead "p.asm" = .ok (.name ["d", "p.asm"] false) := by decide +kernel
  have hassembly : assembly? .usual {} (loneTree ".txt") { input := "d/./.txt" } = some assembly :=
    assembly?_of_source rfl (FileTree.readText_of_content? rfl hhidden rfl) hok
  have hassemblyLone : assembly? starKit {} (loneTree "p.txt") { input := "/d/p.txt" }
      = some assembly :=
    assembly?_of_source rfl (FileTree.readText_of_content? rfl hlone rfl) hok
  have hassemblyLinked : assembly? .usual {} linkedTree { input := "p.asm" } = some assembly :=
    assembly?_of_source rfl (FileTree.readText_of_content? rfl hlinked rfl) hok
  refine ⟨⟨showsNames_usual, unlinked_loneTree _, ⟨assembly, hassembly⟩, ?_⟩,
    ⟨showsNames_starKit, unlinked_loneTree _, ⟨assembly, hassemblyLone⟩, ?_⟩,
    ⟨assembly, hassemblyLinked⟩, ?_⟩
  · obtain ⟨stem, text, listing, object, first, second, -, -, -, -, -, -, -, hkept, -, -, -, -,
      -, -, hnames⟩ := ((source_after_run .usual {} (loneTree ".txt")
        (.assemble { input := "d/./.txt" })).2 _ rfl rfl rfl).2 assembly hassembly
    have hname : Path.name? "d/./.txt" = some ['.', 't', 'x', 't'] := by decide +kernel
    have htxt : ¬ Path.HasExtension "txt" "d/./.txt" := by
      rw [Path.hasExtension_iff hname (by decide) (by decide)]
      decide
    have hobj : ¬ Path.HasExtension "obj" "d/./.txt" := by
      rw [Path.hasExtension_iff hname (by decide) (by decide)]
      decide
    obtain ⟨hlistingName, hobjectName⟩ := hnames showsNames_usual (unlinked_loneTree _)
    rw [hkept (fun h => htxt (hlistingName h).1) fun h => hobj (hobjectName h).1]
    exact FileTree.held?_of_lead hhidden
  · obtain ⟨stem, text, listing, object, first, second, -, htext, -, -, -, -, -, hkept, -, -, -, -,
      -, -, hnames⟩ := ((source_after_run starKit {} (loneTree "p.txt")
        (.assemble { input := "/d/p.txt" })).2 _ rfl rfl rfl).2 assembly hassemblyLone
    have hother : text ≠ stem := by
      intro hsame
      have hlength := congrArg (·.toList.length) (htext.symm.trans hsame)
      simp [starKit] at hlength
    obtain ⟨hlistingName, hobjectName⟩ := hnames showsNames_starKit (unlinked_loneTree _)
    rw [hkept (fun h => hother (hlistingName h).2) fun h => hother (hobjectName h).2]
    exact FileTree.held?_of_lead hlone
  · obtain ⟨stem, text, listing, object, first, second, hstem, htext, hpath, hpath', hfirst,
      hsecond, -, -, hboth, -⟩ := ((source_after_run .usual {} linkedTree
        (.assemble { input := "p.asm" })).2 _ rfl rfl rfl).2 assembly hassemblyLinked
    obtain rfl : "p" = stem := Option.some.inj
      (Eq.trans (by decide +kernel : some "p" = Path.stem? "p.asm") hstem)
    obtain rfl : text = "p" := htext
    obtain rfl : listing = "p.txt" := hpath.trans (by decide +kernel)
    obtain rfl : object = "p.obj" := hpath'.trans (by decide +kernel)
    have htxt : linkedTree.lead "p.txt" = .ok (.name ["d", "p.asm"] false) := by decide +kernel
    have hobj : linkedTree.lead "p.obj" = .ok (.name ["d", "p.obj"] false) := by decide +kernel
    have hways := FileTree.sameWays_write {} linkedTree "p.txt" assembly.listing.toUTF8
    have hfault : first.fault = none := by
      rw [hfirst, FileTree.write_of_lead rfl htxt]
    have hfault' : second.fault = none := by
      rw [hsecond, hfirst, FileTree.write_of_lead rfl (hways.lead_eq_ok_iff.mpr hobj)]
    have hover : linkedTree.Coincide "p.txt" "p.asm" :=
      (FileTree.coincide_iff hlinked).mpr (by decide +kernel)
    have hapart : ¬ linkedTree.Coincide "p.obj" "p.asm" :=
      mt (FileTree.coincide_iff hlinked).mp (by decide +kernel)
    rw [(hboth hfault hfault').2 hapart hover, hlisting]

/-- A source under the name of its own listing. -/
def listedTree : FileTree :=
  { entries := [(["p.txt"], .file 0)], contents := [(0, shortSource.toUTF8)] }

/-- **A source can be lost**: under that name it is overwritten by its listing. -/
theorem listing_overwrites_source :
    Options.read ["-i", "p.txt"] = .assemble { input := "p.txt" }
      ∧ listedTree.held? "p.txt" = some shortSource.toUTF8
      ∧ (run .usual {} listedTree (.assemble { input := "p.txt" })).files.held? "p.txt"
        = some shortListing.toUTF8
      ∧ shortListing.toUTF8 ≠ shortSource.toUTF8 := by
  have hlead : listedTree.lead "p.txt" = .ok (.name ["p.txt"] false) := by decide +kernel
  have hobject : listedTree.lead "p.obj" = .ok (.name ["p.obj"] false) := by decide +kernel
  refine ⟨by decide +kernel, FileTree.held?_of_lead hlead, ?_, by decide +kernel⟩
  obtain ⟨assembly, hok, hlisting⟩ := exists_shortAssembly
  have hassembly : assembly? .usual {} listedTree { input := "p.txt" } = some assembly :=
    assembly?_of_source rfl (FileTree.readText_of_content? rfl hlead rfl) hok
  obtain ⟨stem, hstem, hafter⟩ := outcome_of_two_writes hassembly rfl rfl
  obtain rfl : "p" = stem := Option.some.inj
    (Eq.trans (by decide +kernel : some "p" = Path.stem? "p.txt") hstem)
  have htxt : Path.beside "p.txt" (Toolkit.usual.shown "p") "txt" = "p.txt" := by decide +kernel
  have hobj : Path.beside "p.txt" (Toolkit.usual.shown "p") "obj" = "p.obj" := by decide +kernel
  rw [htxt, hobj] at hafter
  have hways := FileTree.sameWays_write {} listedTree "p.txt" assembly.listing.toUTF8
  have hover : listedTree.Coincide "p.txt" "p.txt" :=
    (FileTree.coincide_iff hlead).mpr (by decide +kernel)
  have hapart : ¬ listedTree.Coincide "p.obj" "p.txt" :=
    mt (FileTree.coincide_iff hlead).mp (by decide +kernel)
  have hboth := (held?_of_two_writes
    (FileTree.shows_write {} listedTree "p.txt" assembly.listing.toUTF8 "p.txt")
    (FileTree.shows_write {} _ "p.obj" assembly.object.render.toUTF8 "p.txt")
    (FileTree.coincide_write {} listedTree "p.txt" assembly.listing.toUTF8 "p.obj" "p.txt")).2
  rw [run_assemble, hafter, ← hlisting]
  refine (hboth ?_ ?_).2 hapart hover
  · rw [FileTree.write_of_lead rfl hlead]
  · rw [FileTree.write_of_lead rfl (hways.lead_eq_ok_iff.mpr hobject)]

end Command

end TwoPass

import TwoPass.Command.Path
import TwoPass.Proofs.Files
import TwoPass.Proofs.Pieces

/-!
# Names and folders of paths

A path is taken apart as text: its folder is what stands before the last name, less the
parts that stand for the place they are at. Where it leads is decided by the tree, part by
part. The two agree for every path that leads to a file. The folder that the text gives is
the folder the path goes through, with as many links left to follow, so another name joined
to it is looked up where the name of the file is (`FileTree.exists_lead_beside`).

A name and its extension are text too. What is left when the extension is dropped gives
the name back with an extension behind it exactly if that is the extension it had
(`Path.dropExtension_append_eq_iff`).
-/

namespace TwoPass

namespace Text

theorem lacks_of_mem_split {c : Char} {text part : String} (h : part ∈ split (· = c) text) :
    Lacks c part := by
  obtain ⟨piece, hpiece, rfl⟩ := List.mem_map.mp h
  unfold Lacks
  rw [String.toList_ofList]
  exact fun hmem => of_decide_eq_false (of_mem_pieces hpiece c hmem).1 rfl

end Text

/-! ## The parts of a path -/

namespace FileTree

variable {t : FileTree} {links left : Nat} {here folder names parts : List String}
  {part name path : String} {landing : Landing}

/-- **Some parts go through folders**, from one folder to another, and leave so many links
to follow. -/
inductive Enters (t : FileTree) :
    Nat → List String → List String → Nat → List String → Prop where
  /-- Without parts one is there. -/
  | done {links : Nat} {here : List String} : Enters t links here [] links here
  /-- An empty part and a dot stay. -/
  | stay {links left : Nat} {here folder more : List String} {part : String}
      (place : part = "" ∨ part = ".") (rest : Enters t links here more left folder) :
      Enters t links here (part :: more) left folder
  /-- Two dots go up. -/
  | up {links left : Nat} {here folder more : List String}
      (rest : Enters t links here.dropLast more left folder) :
      Enters t links here (".." :: more) left folder
  /-- The name of a folder enters it. -/
  | enter {links left : Nat} {here folder more : List String} {part : String}
      (name : Path.IsName part) (found : t.node? (here ++ [part]) = some .folder)
      (rest : Enters t links (here ++ [part]) more left folder) :
      Enters t links here (part :: more) left folder
  /-- The name of a link is replaced by the path it holds. -/
  | follow {links left : Nat} {here folder more : List String} {part path : String}
      (name : Path.IsName part) (link : t.node? (here ++ [part]) = some (.link path))
      (rest : Enters t links (start here path) (Text.split (· = '/') path ++ more) left folder) :
      Enters t (links + 1) here (part :: more) left folder

/-- What lies behind a folder is looked up from there. -/
theorem Enters.leads (h : t.Enters links here parts left folder) {more : List String}
    (hmore : t.Leads left folder more landing) : t.Leads links here (parts ++ more) landing := by
  induction h with
  | done => exact hmore
  | stay hplace _ ih => exact .stay hplace (ih hmore)
  | up _ ih => exact .up (ih hmore)
  | enter hname hfolder _ ih => exact .enter hname hfolder (ih hmore)
  | follow hname hlink _ ih =>
    have hrest := ih hmore
    rw [List.append_assoc] at hrest
    exact .follow hname hlink hrest

/-- Parts at the end that stand for the place they are at can be left out. -/
theorem Enters.of_append {dropped : List String}
    (h : t.Enters links here (parts ++ dropped) left folder)
    (hdropped : ∀ part ∈ dropped, part = "" ∨ part = ".") :
    t.Enters links here parts left folder := by
  generalize hall : parts ++ dropped = all at h
  induction h generalizing parts dropped with
  | done =>
    obtain ⟨rfl, -⟩ := List.append_eq_nil_iff.mp hall
    exact .done
  | stay hplace hrest ih =>
    cases parts with
    | nil =>
      cases hall
      exact @ih [] _ (fun part hpart => hdropped part (List.mem_cons_of_mem _ hpart)) rfl
    | cons first others =>
      obtain ⟨rfl, hmore⟩ := List.cons.inj hall
      exact .stay hplace (ih hdropped hmore)
  | up hrest ih =>
    cases parts with
    | nil =>
      cases hall
      exact absurd (hdropped ".." List.mem_cons_self) (by decide)
    | cons first others =>
      obtain ⟨rfl, hmore⟩ := List.cons.inj hall
      exact .up (ih hdropped hmore)
  | enter hname hfound hrest ih =>
    cases parts with
    | nil =>
      cases hall
      exact absurd hname (not_isName_of_place (hdropped _ List.mem_cons_self))
    | cons first others =>
      obtain ⟨rfl, hmore⟩ := List.cons.inj hall
      exact .enter hname hfound (ih hdropped hmore)
  | follow hname hlink hrest ih =>
    cases parts with
    | nil =>
      cases hall
      exact absurd hname (not_isName_of_place (hdropped _ List.mem_cons_self))
    | cons first others =>
      obtain ⟨rfl, hmore⟩ := List.cons.inj hall
      refine .follow hname hlink (ih hdropped ?_)
      rw [List.append_assoc]
      exact congrArg (_ ++ ·) hmore

/-- **A way to a file** goes through folders to a name, which is looked up in the last of
them. -/
theorem Leads.exists_enters (h : t.Leads links here (parts ++ [name]) (.name names false)) :
    Path.IsName name ∧ ∃ left folder, t.Enters links here parts left folder
      ∧ t.Leads left folder [name] (.name names false) := by
  generalize hall : parts ++ [name] = all at h
  generalize hlanding : Landing.name names false = landing at h
  induction h generalizing parts with
  | done => cases hlanding
  | stay hplace hrest ih =>
    cases parts with
    | nil =>
      cases hall
      cases hrest
      cases hlanding
    | cons first others =>
      obtain ⟨rfl, hmore⟩ := List.cons.inj hall
      obtain ⟨hname, left, folder, henters, hleads⟩ := ih hmore hlanding
      exact ⟨hname, left, folder, .stay hplace henters, hleads⟩
  | up hrest ih =>
    cases parts with
    | nil =>
      cases hall
      cases hrest
      cases hlanding
    | cons first others =>
      obtain ⟨rfl, hmore⟩ := List.cons.inj hall
      obtain ⟨hname, left, folder, henters, hleads⟩ := ih hmore hlanding
      exact ⟨hname, left, folder, .up henters, hleads⟩
  | enter hpart hfound hrest ih =>
    cases parts with
    | nil =>
      cases hall
      cases hrest
      cases hlanding
    | cons first others =>
      obtain ⟨rfl, hmore⟩ := List.cons.inj hall
      obtain ⟨hname, left, folder, henters, hleads⟩ := ih hmore hlanding
      exact ⟨hname, left, folder, .enter hpart hfound henters, hleads⟩
  | follow hpart hlink hrest ih =>
    cases parts with
    | nil =>
      cases hall
      cases hlanding
      exact ⟨hpart, _, _, .done, .follow hpart hlink hrest⟩
    | cons first others =>
      obtain ⟨rfl, hmore⟩ := List.cons.inj hall
      obtain ⟨hname, left, folder, henters, hleads⟩ :=
        ih ((List.append_assoc _ _ _).trans (congrArg (_ ++ ·) hmore)) hlanding
      exact ⟨hname, left, folder, .follow hpart hlink henters, hleads⟩
  | arrive hpart hfits hslashes =>
    cases parts with
    | nil =>
      cases hall
      cases hlanding
      exact ⟨hpart, _, _, .done, .arrive hpart hfits hslashes⟩
    | cons first others =>
      -- only a slash could follow, and then the way would not end at a file
      obtain ⟨rfl, rfl⟩ := List.cons.inj hall
      simp at hlanding

/-- A path of several parts starts from the root exactly if the first is empty. -/
theorem start_of_split {first next : String} {more : List String}
    (h : Text.split (· = '/') path = first :: next :: more) :
    start here path = if first = "" then [] else here := by
  have hslash : Text.Lacks '/' first := Text.lacks_of_mem_split (by rw [h]; simp)
  have hpath : path.toList = first.toList ++ '/' :: ("/".intercalate (next :: more)).toList := by
    rw [← Text.intercalate_split (show "/".toList = ['/'] from rfl) path, h,
      String.intercalate_cons_cons]
    simp
  unfold start
  rw [hpath]
  cases hfirst : first.toList with
  | nil => simp [String.toList_eq_nil_iff.mp hfirst]
  | cons c rest =>
    have hc : c ≠ '/' := fun heq => hslash (by rw [hfirst, heq]; simp)
    have hne : first ≠ "" := fun hempty => by simp [hempty] at hfirst
    simp [hc, hne]

/-- A path of one part does not start from the root. -/
theorem start_of_lacks (h : Text.Lacks '/' path) : start here path = here := by
  refine if_neg fun hslash => h (List.mem_of_head? hslash)

end FileTree

namespace Path

variable {path name : String} {before : List String}

/-- What the end of some parts loses. The part at the front is kept. -/
theorem exists_eq_append_dropPlace (parts : List (List Char)) :
    ∃ dropped, parts = dropped ++ dropPlace parts
      ∧ (∀ part ∈ dropped, part = [] ∨ part = ['.'])
      ∧ (dropPlace parts = [] → parts = [])
      ∧ ∀ part next more, dropPlace parts = part :: next :: more → part ≠ [] := by
  fun_induction dropPlace parts with
  | case1 => exact ⟨[], rfl, by simp, by simp, by simp⟩
  | case2 front => exact ⟨[], rfl, by simp, by simp, by simp⟩
  | case3 part before hseveral hplace ih =>
    obtain ⟨dropped, hparts, hall, hfront, hlast⟩ := ih
    refine ⟨part :: dropped, congrArg (part :: ·) hparts, fun other hother => ?_, fun hnil => ?_,
      hlast⟩
    · rcases List.mem_cons.mp hother with rfl | hother
      · exact hplace
      · exact hall other hother
    · exact absurd (hfront hnil) fun hbefore => hseveral (by rw [hbefore])
  | case4 part before _ hplace =>
    refine ⟨[], rfl, by simp, by simp, ?_⟩
    rintro _ next more heq rfl
    cases heq
    exact hplace (.inl rfl)

theorem partsBackward_eq (h : Text.split (· = '/') path = before ++ [name]) :
    partsBackward path = name.toList :: (before.map String.toList).reverse := by
  have hpieces : (Text.split (· = '/') path).map String.toList
      = Text.pieces (· = '/') path.toList := by
    rw [Text.split, List.map_map]
    exact (List.map_congr_left fun _ _ => String.toList_ofList).trans (List.map_id _)
  rw [partsBackward, ← hpieces, h]
  simp

/-- A name at the end is not dropped. -/
theorem dropPlace_partsBackward (h : Text.split (· = '/') path = before ++ [name])
    (hname : IsName name) :
    dropPlace (partsBackward path) = name.toList :: (before.map String.toList).reverse := by
  have hchars : ∀ text : String, name ≠ text → name.toList ≠ text.toList :=
    fun text hne heq => hne (String.toList_inj.mp heq)
  rw [partsBackward_eq h]
  cases (before.map String.toList).reverse with
  | nil => rfl
  | cons part more =>
    exact if_neg (not_or.mpr ⟨hchars "" hname.1, hchars "." hname.2.1⟩)

/-- **The last part of a path to a place is its name.** -/
theorem name?_of_split (h : Text.split (· = '/') path = before ++ [name]) (hname : IsName name) :
    name? path = some name.toList := by
  have hchars : ∀ text : String, name ≠ text → name.toList ≠ text.toList :=
    fun text hne heq => hne (String.toList_inj.mp heq)
  unfold name?
  rw [dropPlace_partsBackward h hname]
  split
  · next heq => cases heq
  · next heq => exact absurd (List.cons.inj heq).1 (hchars "" hname.1)
  · next heq => exact absurd (List.cons.inj heq).1 (hchars "." hname.2.1)
  · next heq => exact absurd (List.cons.inj heq).1 (hchars ".." hname.2.2)
  · next heq => rw [(List.cons.inj heq).1]

/-- A name is joined to a folder by a slash, unless there is no folder. -/
theorem join_intercalate {kept : List String} (hslash : ∀ part ∈ kept, Text.Lacks '/' part)
    (hlast : ∀ last, kept.getLast? = some last → last ≠ "") (name : String) :
    join ("/".intercalate kept) name = "/".intercalate (kept ++ [name]) := by
  rcases List.eq_nil_or_concat kept with rfl | ⟨others, last, rfl⟩
  · rfl
  · have hne : last.toList ≠ [] :=
      fun hnil => hlast last (by simp) (String.toList_eq_nil_iff.mp hnil)
    -- the text of the folder ends as its last part does
    have hends : ("/".intercalate (others.concat last)).toList.getLast? = last.toList.getLast? := by
      rw [List.concat_eq_append]
      cases others with
      | nil => rfl
      | cons first more =>
        rw [String.intercalate_append_of_ne_nil (List.cons_ne_nil _ _) (List.cons_ne_nil _ _),
          String.toList_append]
        exact List.getLast?_append_of_ne_nil _ hne
    obtain ⟨c, hc⟩ := List.getLast?_isSome.mpr hne |> Option.isSome_iff_exists.mp
    have hcslash : c ≠ '/' := by
      rintro rfl
      exact hslash last (by simp) (List.mem_of_getLast? hc)
    rw [join, hends, hc, String.intercalate_append_of_ne_nil (by simp) (List.cons_ne_nil _ _)]
    exact if_neg hcslash

/-- **A name joined to the folder of a path**, as text: the parts before the last name, less
those at the end that stand for the place they are at, and then the name. -/
theorem exists_join_parent (h : Text.split (· = '/') path = before ++ [name])
    (hname : IsName name) :
    ∃ kept dropped, before = kept ++ dropped ∧ (∀ part ∈ dropped, part = "" ∨ part = ".")
      ∧ (kept = [] → before = [])
      ∧ ∀ other, join (parent path) other = "/".intercalate (kept ++ [other]) := by
  obtain ⟨dropped, hparts, hall, hfront, hlast⟩ :=
    exists_eq_append_dropPlace (before.map String.toList).reverse
  have hparent : parent path
      = ofPartsBackward (dropPlace (before.map String.toList).reverse) := by
    rw [parent, dropPlace_partsBackward h hname, List.tail_cons]
  generalize dropPlace (before.map String.toList).reverse = kept at hparts hfront hlast hparent
  have hbefore : before = kept.reverse.map String.ofList ++ dropped.reverse.map String.ofList := by
    have hchars := congrArg (fun parts => parts.reverse.map String.ofList) hparts
    simpa [List.map_map, Function.comp_def] using hchars
  refine ⟨kept.reverse.map String.ofList, dropped.reverse.map String.ofList, hbefore, ?_, ?_, ?_⟩
  · intro part hpart
    obtain ⟨chars, hchars, rfl⟩ := List.mem_map.mp hpart
    rcases hall chars (List.mem_reverse.mp hchars) with rfl | rfl
    · exact .inl rfl
    · exact .inr rfl
  · intro hnil
    have hkept : kept = [] := by simpa using hnil
    simpa using hfront hkept
  · intro other
    by_cases hroot : kept = [[]]
    · -- the folder is the root, whose text ends in a slash
      rw [hparent, hroot]
      show "/" ++ other = "/".intercalate ["", other]
      rw [String.intercalate_cons_cons, String.intercalate_singleton, String.empty_append]
    · have htext : parent path = "/".intercalate (kept.reverse.map String.ofList) := by
        rw [hparent]
        unfold ofPartsBackward
        split
        · exact absurd rfl hroot
        · rfl
      rw [htext]
      refine join_intercalate (fun part hpart => ?_) (fun last hown => ?_) other
      · exact Text.lacks_of_mem_split (by
          rw [h, hbefore]
          exact List.mem_append_left _ (List.mem_append_left _ hpart))
      · cases kept with
        | nil => cases hown
        | cons part others =>
          have hpart : part ≠ [] := by
            cases others with
            | nil => exact fun hempty => hroot (by rw [hempty])
            | cons next more => exact hlast part next more rfl
          have hlastPart : String.ofList part = last := by simpa using hown
          rw [← hlastPart]
          exact fun hempty => hpart (by rw [← String.toList_ofList (l := part), hempty]; rfl)

end Path

/-! ## Files side by side -/

/-- **A name joined to the folder of a path is looked up where the name of the file is.** -/
theorem FileTree.exists_lead_beside {t : FileTree} {path : String} {names : List String}
    (h : t.lead path = .ok (.name names false)) :
    ∃ links folder name, Path.name? path = some name.toList
      ∧ Path.IsName name ∧ Text.Lacks '/' name
      ∧ t.Leads links folder [name] (.name names false)
      ∧ ∀ other landing, Path.IsName other → Text.Lacks '/' other →
        t.Leads links folder [other] landing →
          t.lead (Path.join (Path.parent path) other) = .ok landing := by
  obtain ⟨hpath, hleads⟩ := lead_eq_ok_iff.mp h
  obtain ⟨before, name, hsplit⟩ : ∃ before name, Text.split (· = '/') path = before ++ [name] := by
    rcases List.eq_nil_or_concat (Text.split (· = '/') path) with hnil | ⟨before, name, hconcat⟩
    · exact absurd hnil (Text.split_ne_nil _ _)
    · exact ⟨before, name, hconcat.trans List.concat_eq_append⟩
  have hlacks : ∀ part ∈ before ++ [name], Text.Lacks '/' part :=
    fun part hpart => Text.lacks_of_mem_split (hsplit ▸ hpart)
  rw [hsplit] at hleads
  obtain ⟨hname, links, folder, henters, hlast⟩ := hleads.exists_enters
  refine ⟨links, folder, name, Path.name?_of_split hsplit hname, hname, hlacks name (by simp),
    hlast, fun other landing hother hslash hlanding => ?_⟩
  obtain ⟨kept, dropped, rfl, hdropped, hfront, hjoin⟩ := Path.exists_join_parent hsplit hname
  have hparts : ∀ part ∈ kept ++ [other], Text.Lacks '/' part := by
    intro part hpart
    rcases List.mem_append.mp hpart with hpart | hpart
    · exact hlacks part (by simp [hpart])
    · rw [List.mem_singleton.mp hpart]
      exact hslash
  have hown : Text.split (· = '/') ("/".intercalate (kept ++ [other])) = kept ++ [other] :=
    Text.split_intercalate rfl (by simp) hparts
  rw [hjoin, lead_eq_ok_iff, hown]
  refine ⟨fun hempty => ?_, ?_⟩
  · rw [hempty] at hown
    have hlastPart := congrArg List.getLast? hown
    rw [List.getLast?_concat] at hlastPart
    exact hother.1 (Option.some.inj hlastPart).symm
  · have hstart : start t.here ("/".intercalate (kept ++ [other])) = start t.here path := by
      cases kept with
      | nil =>
        obtain rfl : dropped = [] := hfront rfl
        have hbare : path = name := by
          rw [← Text.intercalate_split (show "/".toList = ['/'] from rfl) path, hsplit]
          rfl
        rw [hbare, start_of_lacks (hlacks name (by simp))]
        exact start_of_lacks hslash
      | cons first more =>
        obtain ⟨next, rest, hrest⟩ : ∃ next rest, more ++ dropped ++ [name] = next :: rest :=
          List.exists_cons_of_ne_nil (by simp)
        obtain ⟨next', rest', hrest'⟩ : ∃ next rest, more ++ [other] = next :: rest :=
          List.exists_cons_of_ne_nil (by simp)
        rw [start_of_split (hown.trans (congrArg (first :: ·) hrest')),
          start_of_split (hsplit.trans (congrArg (first :: ·) hrest))]
    rw [hstart]
    exact (henters.of_append hdropped).leads hlanding

/-! ## Extensions -/

namespace Path

/-- What stands before the last dot of a name, if anything does, is the name without its
extension. -/
theorem dropExtension_append {stem extension : List Char} (hstem : stem ≠ [])
    (hdot : '.' ∉ extension) : dropExtension (stem ++ '.' :: extension) = stem := by
  have htail : ((stem ++ '.' :: extension).reverse.dropWhile (· ≠ '.')).tail = stem.reverse := by
    rw [List.reverse_append, List.reverse_cons, List.append_assoc, List.dropWhile_append_of_pos]
    · simp
    · intro c hc
      simpa using fun heq : c = '.' => hdot (heq ▸ List.mem_reverse.mp hc)
  unfold dropExtension
  rw [htail]
  split
  · next hnil => exact absurd (List.reverse_eq_nil_iff.mp hnil) hstem
  · next stem' _ => exact List.reverse_reverse stem

/-- Something is left of a name. -/
theorem dropExtension_ne_nil {name : List Char} (h : name ≠ []) : dropExtension name ≠ [] := by
  unfold dropExtension
  split
  · exact h
  · next hne => exact fun hnil => hne (List.reverse_eq_nil_iff.mp hnil)

/-- **A name is given back by an extension** exactly if it has that extension, behind
something else. -/
theorem dropExtension_append_eq_iff {name extension : List Char} (hname : name ≠ [])
    (hdot : '.' ∉ extension) :
    dropExtension name ++ '.' :: extension = name
      ↔ ∃ stem, stem ≠ [] ∧ name = stem ++ '.' :: extension := by
  constructor
  · intro h
    exact ⟨dropExtension name, dropExtension_ne_nil hname, h.symm⟩
  · rintro ⟨stem, hstem, rfl⟩
    rw [dropExtension_append hstem hdot]

theorem mem_of_mem_dropExtension {name : List Char} {c : Char} (h : c ∈ dropExtension name) :
    c ∈ name := by
  unfold dropExtension at h
  split at h
  · exact h
  · exact List.mem_reverse.mp ((List.dropWhile_sublist _).subset
      (List.mem_of_mem_tail (List.mem_reverse.mp h)))

end Path

end TwoPass

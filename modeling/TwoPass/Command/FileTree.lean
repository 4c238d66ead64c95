import TwoPass.Text

/-!
# Trees of files

A file tree is what a command sees of the world: everything from the root down, and the
folder it works in. A path leads from the root, or from the folder the command works in, to
a file or a folder. Every part of it but the last has to be a folder that exists, or a link
to one.

There are two kinds of links. Two names may stand for one file, which is why files have
numbers. And a name may stand for a path, which is then followed in its place, up to a
limit.

What a command may do with a file is for the system to say. `Access` is its say: any read
may be refused, and a write may be refused or break off halfway.
-/

namespace TwoPass

/-- What can go wrong with a file. -/
inductive FileFault where
  /-- A part of the path does not exist. -/
  | notFound
  /-- A part of the path that has to be a folder is a file. -/
  | notFolder
  /-- The path leads to a folder, and a file was asked for. -/
  | isFolder
  /-- The path leads from link to link. -/
  | tooManyLinks
  /-- The file does not hold text. -/
  | notText
  /-- Anything else, in the words of the system. -/
  | other (message : String)
deriving DecidableEq, Repr

/-- The wording of a fault. -/
def FileFault.message : FileFault → String
  | .notFound => "No such file or directory (os error 2)"
  | .notFolder => "Not a directory (os error 20)"
  | .isFolder => "Is a directory (os error 21)"
  | .tooManyLinks => "Too many levels of symbolic links (os error 40)"
  | .notText => "stream did not contain valid UTF-8"
  | .other message => message

/-- What a name can stand for. -/
inductive Entry where
  /-- A file, by its number. Names with one number are names of one file. -/
  | file (number : Nat)
  /-- A folder. -/
  | folder
  /-- A link to what a path leads to. -/
  | link (path : String)
deriving DecidableEq, Repr

/-- The files and folders of a system, each by the names that lead to it from the root. -/
structure FileTree where
  /-- What the names stand for. -/
  entries : List (List String × Entry) := []
  /-- What the files hold, by their numbers. The first word on a number counts, and a file
  on which there is none is empty. -/
  contents : List (Nat × ByteArray) := []
  /-- The folder that the command works in. -/
  here : List String := []

/-- Where a path leads. -/
inductive Landing where
  /-- To a folder. -/
  | folder (names : List String)
  /-- To a name for a file, whether there is one or not. A slash behind it asks for a
  folder. -/
  | name (names : List String) (slashed : Bool)
deriving DecidableEq, Repr

/-- What becomes of a write. -/
inductive Verdict where
  /-- It is carried out. -/
  | granted
  /-- It is refused. -/
  | refused (fault : FileFault)
  /-- It breaks off after some bytes. -/
  | cutOff (fault : FileFault) (bytes : Nat)
deriving DecidableEq, Repr

/-- What the system has to say about reading and writing. -/
structure Access where
  /-- Why a path is not read, if the system refuses. -/
  reading : FileTree → String → Option FileFault := fun _ _ => none
  /-- What becomes of a write to a path. -/
  writing : FileTree → String → ByteArray → Verdict := fun _ _ _ => .granted

/-- What a write comes to. -/
structure Attempt where
  /-- The files after it. -/
  files : FileTree
  /-- Why it failed, if it did. -/
  fault : Option FileFault := none

namespace FileTree

/-- What some names stand for. -/
def node? (t : FileTree) (names : List String) : Option Entry :=
  if names = [] then some .folder else t.entries.lookup names

/-- What the file with a number holds. -/
def holding (t : FileTree) (number : Nat) : ByteArray :=
  (t.contents.lookup number).getD ByteArray.empty

/-- What the file at some names holds. -/
def content? (t : FileTree) (names : List String) : Option ByteArray :=
  match t.node? names with
  | some (.file number) => some (t.holding number)
  | _ => none

/-- The folder that a path starts from, for someone in a folder. -/
def start (here : List String) (path : String) : List String :=
  if path.toList.head? = some '/' then [] else here

/-- Where some parts lead from a folder. An empty part and a dot stay there, and two dots go
up, from the root to the root. What a link leads to is left to `follow`, which is given the
parts of the path that the link holds and those behind the link. -/
def walk (t : FileTree) (follow : List String → List String → Except FileFault Landing)
    (here : List String) : List String → Except FileFault Landing
  | [] => .ok (.folder here)
  | part :: more =>
    if part = "" ∨ part = "." then t.walk follow here more
    else if part = ".." then t.walk follow here.dropLast more
    else
      match t.node? (here ++ [part]) with
      | some .folder => t.walk follow (here ++ [part]) more
      | some (.link path) => follow (start here path) (Text.split (· = '/') path ++ more)
      | found =>
        if more.all (· = "") then .ok (.name (here ++ [part]) (more ≠ []))
        else .error (if found.isSome then .notFolder else .notFound)

/-- Where some parts lead from a folder, if so many links may be followed. -/
def walkLinks (t : FileTree) : Nat → List String → List String → Except FileFault Landing
  | 0 => t.walk fun _ _ => .error .tooManyLinks
  | links + 1 => t.walk (t.walkLinks links)

/-- How many links are followed on one way. -/
def maxLinks : Nat := 40

/-- Where a path leads. -/
def lead (t : FileTree) (path : String) : Except FileFault Landing :=
  if path = "" then .error .notFound
  else t.walkLinks maxLinks (start t.here path) (Text.split (· = '/') path)

/-- What the file at a path holds. -/
def read (access : Access) (t : FileTree) (path : String) : Except FileFault ByteArray :=
  match access.reading t path with
  | some fault => .error fault
  | none =>
    match t.lead path with
    | .error fault => .error fault
    | .ok (.folder _) => .error .isFolder
    | .ok (.name names slashed) =>
      match t.content? names with
      | none => .error .notFound
      | some content => if slashed then .error .notFolder else .ok content

/-- The text of the file at a path. -/
def readText (access : Access) (t : FileTree) (path : String) : Except FileFault String :=
  match t.read access path with
  | .error fault => .error fault
  | .ok content =>
    match String.fromUTF8? content with
    | some text => .ok text
    | none => .error .notText

/-- A number that no file has. -/
def freshNumber (t : FileTree) : Nat :=
  t.entries.foldr (fun (_, entry) next => match entry with
    | .file number => max next (number + 1)
    | _ => next) 0

/-- The tree with some content in the file at some names, which is made if there is none. -/
def put (t : FileTree) (names : List String) (content : ByteArray) : FileTree :=
  match t.node? names with
  | some (.file number) => { t with contents := (number, content) :: t.contents }
  | _ =>
    { t with
      entries := t.entries ++ [(names, .file t.freshNumber)]
      contents := (t.freshNumber, content) :: t.contents }

/-- A write to a path. The file is made if it does not exist; its folder has to. A write that
breaks off leaves the beginning of what was to be written. -/
def write (access : Access) (t : FileTree) (path : String) (content : ByteArray) : Attempt :=
  match access.writing t path content, t.lead path with
  | .refused fault, _ => { files := t, fault }
  | _, .error fault => { files := t, fault }
  | _, .ok (.folder _) | _, .ok (.name _ true) => { files := t, fault := some .isFolder }
  | .granted, .ok (.name names false) => { files := t.put names content }
  | .cutOff fault bytes, .ok (.name names false) =>
    { files := t.put names (content.extract 0 bytes), fault }

/-- The tree with something at some names and the folders above them. -/
def add (t : FileTree) (names : List String) (entry : Entry) : FileTree :=
  { t with entries := t.entries ++ (List.range (names.length - 1)).map (fun n =>
      (names.take (n + 1), .folder)) ++ [(names, entry)] }

/-- The tree with a file and the folders above it. -/
def addFile (t : FileTree) (names : List String) (content : ByteArray) : FileTree :=
  let number := t.freshNumber
  { t.add names (.file number) with contents := (number, content) :: t.contents }

end FileTree

end TwoPass

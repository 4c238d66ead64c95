import TwoPass.Text

/-!
# Paths

A path is a string with slashes between its parts. An empty part and a dot stand
for the place they are at, a dot at the very front excepted, which is a part
like any other. Where a path is taken apart, such parts are dropped from its
end, and all the text before is kept.
-/

namespace TwoPass.Path

/-- The parts of a path, the last one first. -/
def partsBackward (path : String) : List (List Char) :=
  (Text.pieces (· = '/') path.toList).reverse

/-- Parts without those that stand for the place they are at, up to the part
at the front. -/
def dropPlace : List (List Char) → List (List Char)
  | [] => []
  | [front] => [front]
  | part :: before => if part = [] ∨ part = ['.'] then dropPlace before else part :: before

/-- Parts in a row again. -/
def ofPartsBackward (parts : List (List Char)) : String :=
  match parts with
  | [[]] => "/"
  | parts => "/".intercalate (parts.reverse.map String.ofList)

/-- The path of the folder something is in; empty for a bare name. -/
def parent (path : String) : String :=
  ofPartsBackward (dropPlace (dropPlace (partsBackward path)).tail)

/-- The last part, if it is a name. -/
def name? (path : String) : Option (List Char) :=
  match dropPlace (partsBackward path) with
  | [] | [] :: _ | ['.'] :: _ | ['.', '.'] :: _ => none
  | name :: _ => some name

/-- A name without its extension, which begins at the last dot. A dot in front
of the name begins none. -/
def dropExtension (name : List Char) : List Char :=
  match (name.reverse.dropWhile (· ≠ '.')).tail with
  | [] => name
  | stem => stem.reverse

/-- The name something has in its folder, without the extension. -/
def stem? (path : String) : Option String :=
  (name? path).map fun name => String.ofList (dropExtension name)

/-- The path of a name in a folder. -/
def join (folder name : String) : String :=
  match folder.toList.getLast? with
  | none => name
  | some last => if last = '/' then folder ++ name else s!"{folder}/{name}"

end TwoPass.Path

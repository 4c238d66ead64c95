import TwoPass.Json.Basic
import TwoPass.Settings

/-!
# Reading settings

Settings are written as a JSON object with a member for each choice that is
not the usual one, or as an array of the choices in their order, which may
stop early. A choice is given at most once and has to be of its own kind; null
is no value for any. Members of other names are passed over, whatever they
hold and however often they come.
-/

namespace TwoPass.Settings

/-- The names of the choices, in their order. -/
def names : List String := ["default_program_name", "text_record_capacity", "strict"]

/-- The settings with the choice `name` made. There are none if the value is of
the wrong kind, or no choice has the name. -/
def choose? (settings : Settings) (name : String) (value : Json) : Option Settings :=
  match name, value with
  | "default_program_name", .string (some text) => some { settings with programName := text }
  | "text_record_capacity", value =>
    value.natural?.map fun capacity => { settings with recordCapacity := capacity }
  | "strict", .bool strict => some { settings with strict }
  | _, _ => none

/-- The settings with the choices of an array made, which go with `names`. -/
def ofItems? (settings : Settings) : List String → List Json → Option Settings
  | _, [] => some settings
  | [], _ :: _ => none
  | name :: names, value :: values =>
    (settings.choose? name value).bind fun settings => settings.ofItems? names values

/-- The settings with the choices of an object made, where those of `given`
have been made before. -/
def ofMembers? (settings : Settings) (given : List String) :
    List (Option String × Json) → Option Settings
  | [] => some settings
  | (none, _) :: _ => none
  | (some name, value) :: members =>
    if name ∉ names then settings.ofMembers? given members
    else if name ∈ given then none
    else
      (settings.choose? name value).bind fun settings =>
        settings.ofMembers? (name :: given) members

/-- The settings that a JSON value stands for. -/
def ofJson? : Json → Option Settings
  | .array items => ofItems? {} names items
  | .object members => ofMembers? {} [] members
  | _ => none

/-- The settings that JSON text stands for. -/
def ofText? (text : String) : Option Settings := (Json.ofText? text).bind ofJson?

end TwoPass.Settings

import PlatformAdmin.Json.Basic

/-!
# Records within JSON

A record is written as an object with a member for each field, or as an array of its fields in
order.  In an object members with other keys are ignored, but a key of the record may not
repeat and every key has to denote a text.  In an array the last fields may be missing, and
there may be no more items than fields.  `Json.record?` finds the value of each field, so that
the reader of the record can tell required fields from those with a default.
-/

set_option autoImplicit false

namespace PlatformAdmin.Json

/-- The values that an object has under a key. -/
def valuesOf (members : List (Option String × Json)) (key : String) : List Json :=
  members.filterMap fun m => if m.1 = some key then some m.2 else none

/-- The value of a field of an object: none if it is absent; it may not repeat. -/
def field? (members : List (Option String × Json)) (key : String) : Option (Option Json) :=
  match valuesOf members key with
  | [] => some none
  | [v] => some (some v)
  | _ => none

/-- The values of the fields of a record, in the order of the given keys. -/
def record? (keys : List String) : Json → Option (List (Option Json))
  | .object members =>
    if members.all (·.1.isSome) then keys.mapM (field? members) else none
  | .array items =>
    if items.length ≤ keys.length then
      some (items.map some ++ List.replicate (keys.length - items.length) none)
    else none
  | _ => none

/-- The text that a value denotes. -/
def text? : Json → Option String
  | .string text => text
  | _ => none

/-- The items of an array. -/
def items? : Json → Option (List Json)
  | .array items => some items
  | _ => none

/-- A field that has to be there. -/
def required {α : Type} (read : Json → Option α) (field : Option Json) : Option α :=
  field.bind read

/-- A field that has a default. -/
def withDefault {α : Type} (default : α) (read : Json → Option α) : Option Json → Option α
  | none => some default
  | some v => read v

/-- A field that may be absent or null. -/
def optional {α : Type} (read : Json → Option α) : Option Json → Option (Option α)
  | none => some none
  | some .null => some none
  | some v => (read v).map some

end PlatformAdmin.Json

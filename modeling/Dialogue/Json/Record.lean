import Dialogue.Json.Basic
/-!
# Records

A record is written as an object of named fields, or as an array of them in order.  An object may
leave out a field and name others besides; an array may only end early.
-/

namespace Dialogue.Json

/-- What a value says of one field: `absent` from an object, or `cut` off by the end of an array. -/
inductive Field where
  | present (value : Json)
  | absent
  | cut

namespace Field

variable {α : Type}

def required (decode : Json → Option α) : Field → Option α
  | present value => decode value
  | _ => none

def withDefault (decode : Json → Option α) (otherwise : α) : Field → Option α
  | present value => decode value
  | _ => some otherwise

def nullable (decode : Json → Option α) : Json → Option (Option α)
  | .null => some none
  | value => (decode value).map some

def optional (decode : Json → Option α) : Field → Option (Option α)
  | present value => nullable decode value
  | absent => some none
  | cut => none

end Field

def valuesOf (name : String) (members : List (Literal × Json)) : List Json :=
  (members.filter fun m => m.1.text? == some name).map Prod.snd

def memberField? (members : List (Literal × Json)) (name : String) : Option Field :=
  match valuesOf name members with
  | [] => some .absent
  | [value] => some (.present value)
  | _ => none

def itemFields? (names : List String) (items : List Json) : Option (List Field) :=
  if names.length < items.length then none
  else some (items.map .present ++ List.replicate (names.length - items.length) .cut)

/-- The fields of a record, in the order of `names`.  Every key of an object must be a text, also of
a member that is not asked for. -/
def fields? (names : List String) : Json → Option (List Field)
  | .array items => itemFields? names items
  | .object members =>
    if members.all fun m => m.1.text?.isSome then names.mapM (memberField? members) else none
  | _ => none

/-! ## Tagged values

A value of one of several kinds says which in its field `type`, or as the first item of an array.
The rest of it is read once the kind is known, so all of it must be usable. -/

def tagDepth : Nat := 127

def tagged? (j : Json) : Option (String × Json) :=
  if j.usable tagDepth then
    match j with
    | .array (tag :: items) => tag.string?.map (·, .array items)
    | .object members =>
      match valuesOf "type" members with
      | [tag] =>
        tag.string?.map
          (·, .object (members.filter fun m => m.1.text? != some "type"))
      | _ => none
    | _ => none
  else none

/-- The tag of a value that has nothing else to say: other members of an object are ignored, further
items of an array are not. -/
def holdsNothing : Json → Bool
  | .array items => items.isEmpty
  | .object _ => true
  | _ => false

def caseName? : Json → Option String
  | .string s => s.text?
  | .object [(name, .null)] => name.text?
  | _ => none

end Dialogue.Json

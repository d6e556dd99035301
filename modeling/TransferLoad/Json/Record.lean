import TransferLoad.Json.Basic

/-!
# Records in JSON

A record has fields with fixed names. It is written as an object, whose further members do not count, or
as an array with the values of the fields in order, of which some at the end may be missing. A member
that is there twice, a name that is no text and a value too many make it unreadable.
-/

namespace TransferLoad

namespace Json

/-- The values that are given for the fields, in their order. -/
structure Record where
  fields : List (Option Json)
  inOrder : Bool

/-- The value of the one member with a name, if there is any; not more than one. -/
def member? (members : List (Option String × Json)) (name : String) : Option (Option Json) :=
  match members.filter fun entry => entry.1 = some name with
  | [] => some none
  | [(_, value)] => some (some value)
  | _ => none

def record? (names : List String) : Json → Option Record
  | object members =>
    if members.all (·.1.isSome) then
      (names.mapM (member? members)).map fun fields => { fields, inOrder := false }
    else none
  | array items =>
    if items.length ≤ names.length then
      some { fields := items.map some ++ List.replicate (names.length - items.length) none
             inOrder := true }
    else none
  | _ => none

/-! ### Values -/

def string? : Json → Option String
  | text value => value
  | _ => none

/-- A whole number of 64 bits, written without fraction and exponent. -/
def word? : Json → Option UInt64
  | number n => n.integer?.bind fun value => if 0 ≤ value then some (UInt64.ofNat value.toNat) else none
  | _ => none

namespace Record

def field (r : Record) (position : Nat) : Option Json := (r.fields[position]?).join

def required? {α : Type} (r : Record) (position : Nat) (read : Json → Option α) : Option α :=
  (r.field position).bind read

/-- A field with a value for when it is missing. -/
def withDefault? {α : Type} (r : Record) (position : Nat) (default : α) (read : Json → Option α) : Option α :=
  match r.field position with
  | some value => read value
  | none => some default

def optional? {α : Type} (r : Record) (position : Nat) (read : Json → Option α) : Option (Option α) :=
  match r.field position with
  | some null => some none
  | some value => (read value).map some
  | none => if r.inOrder then none else some none

end Record

end Json

end TransferLoad

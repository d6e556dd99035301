import TransferLoad.Decimal.Reading
import TransferLoad.Settings.Tree

/-!
# Settings from the environment

A variable whose name begins with the prefix, in upper or lower case, holds one setting. What follows
in the name is the path of the setting, with two underscores between its parts. A value that reads as
a truth value or as a number is taken as one, and anything else as text.
-/

namespace TransferLoad.Environment

abbrev Variables := List (String × String)

def prefixText : String := "ippan_stress__"

def sourceName : String := "the environment"

def trueWord : String := "true"

def falseWord : String := "false"

def readValue (value : String) : Scalar :=
  let word := Text.lowercase value
  if word = trueWord then .boolean true
  else if word = falseWord then .boolean false
  else
    match Text.readInt64 value.toList with
    | .ok n => .integer n
    | .error _ =>
      match Decimal.readFloat? value.toList with
      | some x => .real x
      | none => .text value

/-- Two underscores at a time become a point, from the left. -/
def pointed : List Char → List Char
  | '_' :: '_' :: rest => '.' :: pointed rest
  | c :: rest => c :: pointed rest
  | [] => []

def path? (name : String) : Option String :=
  let start := prefixText.toList
  if start.isPrefixOf (Text.lowercase name).toList then
    some (Text.lowercase (String.ofList (pointed (name.toList.drop start.length))))
  else none

/-- The settings in the environment; of two variables for one path the last counts. -/
def entries (environment : Variables) : List (String × SettingTree) :=
  environment.foldl
    (fun found (name, value) =>
      match path? name with
      | none => found
      | some path => SettingTree.put path (.scalar (some sourceName) (readValue value)) found) []

end TransferLoad.Environment

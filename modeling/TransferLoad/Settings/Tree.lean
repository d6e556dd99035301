import TransferLoad.Decimal.Binary
import TransferLoad.Text.Lowercase
import TransferLoad.Text.Numeral

/-!
# Setting trees

Settings come from several sources as trees of named values. A later source goes over the earlier ones
name by name: a table is merged into the table under the same name, and any other value takes the
place of what was there. Names are compared without regard to case.

A name at the top of a source can be a whole path, such as `run.target_tps` or `list[2]`.
-/

namespace TransferLoad

/-- A value that is neither a table nor an array. -/
inductive Scalar where
  | nothing
  | boolean (value : Bool)
  | integer (value : Int)
  | real (value : Decimal.Binary)
  | text (value : String)
  deriving Repr, DecidableEq

/-- A value with the source it came from, if it came from one. -/
inductive SettingTree where
  | scalar (source : Option String) (value : Scalar)
  | table (source : Option String) (entries : List (String × SettingTree))
  | array (source : Option String) (items : List SettingTree)

namespace SettingTree

mutual

def decEq : (tree other : SettingTree) → Decidable (tree = other)
  | .scalar source value, .scalar source' value' =>
    decidable_of_iff (source = source' ∧ value = value') (by rw [scalar.injEq])
  | .table source entries, .table source' entries' =>
    have := decEqEntries entries entries'
    decidable_of_iff (source = source' ∧ entries = entries') (by rw [table.injEq])
  | .array source items, .array source' items' =>
    have := decEqItems items items'
    decidable_of_iff (source = source' ∧ items = items') (by rw [array.injEq])
  | .scalar .., .table .. | .scalar .., .array .. | .table .., .scalar .. | .table .., .array ..
  | .array .., .scalar .. | .array .., .table .. => isFalse nofun

def decEqEntries : (entries others : List (String × SettingTree)) → Decidable (entries = others)
  | [], [] => isTrue rfl
  | (name, tree) :: rest, (name', tree') :: rest' =>
    have := decEq tree tree'
    have := decEqEntries rest rest'
    decidable_of_iff (name = name' ∧ tree = tree' ∧ rest = rest')
      (by rw [List.cons.injEq, Prod.mk.injEq, and_assoc])
  | [], _ :: _ | _ :: _, [] => isFalse nofun

def decEqItems : (items others : List SettingTree) → Decidable (items = others)
  | [], [] => isTrue rfl
  | tree :: rest, tree' :: rest' =>
    have := decEq tree tree'
    have := decEqItems rest rest'
    decidable_of_iff (tree = tree' ∧ rest = rest') (by rw [List.cons.injEq])
  | [], _ :: _ | _ :: _, [] => isFalse nofun

end

instance : DecidableEq SettingTree := decEq

def nothing : SettingTree := .scalar none .nothing

def emptyTable : SettingTree := .table none []

def source : SettingTree → Option String
  | .scalar source _ | .table source _ | .array source _ => source

/-- The source of a table and its entries; anything else gives way to an empty table. -/
def asTable : SettingTree → Option String × List (String × SettingTree)
  | .table source entries => (source, entries)
  | _ => (none, [])

/-- The source of an array and its items; anything else gives way to an empty array. -/
def asArray : SettingTree → Option String × List SettingTree
  | .array source items => (source, items)
  | _ => (none, [])

/-- Puts a value under a name, in the place of what was there or behind everything else. -/
def put (name : String) (value : SettingTree) :
    List (String × SettingTree) → List (String × SettingTree)
  | [] => [(name, value)]
  | (other, old) :: rest =>
    if other = name then (name, value) :: rest else (other, old) :: put name value rest

mutual

/-- Puts a value over the entries of a table: a table into a table, anything else in its place. -/
def merge (name : String) : SettingTree → List (String × SettingTree) → List (String × SettingTree)
  | .table _ incoming, entries =>
    let name := Text.lowercase name
    put name (mergeEntries incoming ((entries.lookup name).getD emptyTable)) entries
  | .scalar source value, entries => put (Text.lowercase name) (.scalar source value) entries
  | .array source items, entries => put (Text.lowercase name) (.array source items) entries

/-- Puts entries over a value, which becomes a table if there are any. -/
def mergeEntries : List (String × SettingTree) → SettingTree → SettingTree
  | [], target => target
  | (name, value) :: rest, target =>
    let (source, entries) := target.asTable
    mergeEntries rest (.table source (merge name value entries))

end

/-! ### Paths -/

inductive Step where
  | child (name : String)
  | item (index : Int)
  deriving Repr, DecidableEq

/-- The position that an index stands for; a negative one counts from the end. -/
def position (index : Int) (count : Nat) : Nat :=
  if 0 ≤ index then index.toNat else count - index.natAbs

def putItem (position : Nat) (value : SettingTree) (items : List SettingTree) : List SettingTree :=
  (items ++ List.replicate (position + 1 - items.length) nothing).set position value

/-- Follows the steps, making tables and arrays where there are none, and puts the value at the end. -/
def putAlong (value : SettingTree) : List Step → SettingTree → SettingTree
  | [], _ => value
  | [.child name], target =>
    let (source, entries) := target.asTable
    .table source (merge name value entries)
  | .child name :: rest, target =>
    let (source, entries) := target.asTable
    .table source (put name (putAlong value rest ((entries.lookup name).getD nothing)) entries)
  | .item index :: rest, target =>
    let (source, items) := target.asArray
    let position := position index items.length
    .array source (putItem position (putAlong value rest (items.getD position nothing)) items)

/-- Puts a value under a path of which the first name is taken as it is. -/
def putPath (name : String) (steps : List Step) (value : SettingTree)
    (entries : List (String × SettingTree)) : List (String × SettingTree) :=
  match steps with
  | [] => merge name value entries
  | _ => put name (putAlong value steps ((entries.lookup name).getD nothing)) entries

/-! ### Reading paths -/

def isNameChar (c : Char) : Bool := c.isAlphanum || c = ' ' || c = '_' || c = '-'

def indexText (chars : List Char) : Option (Int × List Char) :=
  let chars := chars.dropWhile fun c => c = ' ' || c = '\t'
  let (sign, digits) := match chars with
    | '-' :: rest => (['-'], rest)
    | rest => ([], rest)
  let numeral := digits.takeWhile Char.isDigit
  let rest := (digits.dropWhile Char.isDigit).dropWhile fun c => c = ' ' || c = '\t'
  if numeral.isEmpty then none
  else (Text.readInt64 (sign ++ numeral)).toOption.map fun index => (index, rest)

def readSteps : (fuel : Nat) → List Char → Option (List Step)
  | _, [] => some []
  | 0, _ => none
  | fuel + 1, '.' :: rest =>
    let name := rest.takeWhile isNameChar
    if name.isEmpty then none
    else (readSteps fuel (rest.dropWhile isNameChar)).map (.child (String.ofList name) :: ·)
  | fuel + 1, '[' :: rest =>
    match indexText rest with
    | some (index, ']' :: rest) => (readSteps fuel rest).map (.item index :: ·)
    | _ => none
  | _ + 1, _ => none

/-- A path as its first name and the steps behind it. A text that is no path is a single name. -/
def readPath (key : String) : String × List Step :=
  let chars := key.toList
  let name := chars.takeWhile isNameChar
  if name.isEmpty then (key, [])
  else
    match readSteps chars.length (chars.dropWhile isNameChar) with
    | some steps => (String.ofList name, steps)
    | none => (key, [])

def layer (entries incoming : List (String × SettingTree)) : List (String × SettingTree) :=
  incoming.foldl
    (fun entries (key, value) =>
      let (name, steps) := readPath key
      putPath name steps value entries) entries

end SettingTree

end TransferLoad

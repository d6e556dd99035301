import TransferLoad.FileTree
import TransferLoad.Json.Basic
import TransferLoad.Settings.Environment
import TransferLoad.Settings.Reading
import TransferLoad.Toml.Basic
import TransferLoad.Yaml.Basic

/-!
# Loading settings

The settings are the defaults, with those in a file over them, and those in the environment over both.
The file's name tells its format. A directory stands for the first file next to it that has the same
name and the ending of a format.
-/

namespace TransferLoad

/-! ### Formats -/

inductive FileFormat where
  | json
  | toml
  | yaml
  deriving Repr, DecidableEq

/-- The endings of the formats, in the order in which they are tried. -/
def FileFormat.endings : List (String × FileFormat) :=
  [("json", .json), ("toml", .toml), ("yaml", .yaml), ("yml", .yaml)]

namespace SettingTree

def maxDepth : Nat := 127

def ofNumber? (source : String) (n : Json.Number) : Option SettingTree :=
  match n.integer? with
  | some value =>
    if value ≤ Int64.maxValue.toInt then some (.scalar source (.integer value))
    else some (.scalar source (.real (.ofNat value.toNat)))
  | none => n.float?.map fun x => .scalar source (.real x)

mutual

/-- The tree that a JSON text describes, unless something in it has no value or is nested too deep.
Of two members with one name the last counts. -/
def ofJson? (source : String) : (depth : Nat) → Json → Option SettingTree
  | _, .null => some (.scalar source .nothing)
  | _, .boolean value => some (.scalar source (.boolean value))
  | _, .number value => ofNumber? source value
  | _, .text value => value.map fun s => .scalar source (.text s)
  | 0, .array _ | 0, .object _ => none
  | depth + 1, .array items => (ofItems? source depth items).map (.array source)
  | depth + 1, .object members => (ofMembers? source depth members []).map (.table source)

def ofItems? (source : String) (depth : Nat) : List Json → Option (List SettingTree)
  | [] => some []
  | item :: rest =>
    match ofJson? source depth item, ofItems? source depth rest with
    | some item, some rest => some (item :: rest)
    | _, _ => none

def ofMembers? (source : String) (depth : Nat) :
    List (Option String × Json) → List (String × SettingTree) → Option (List (String × SettingTree))
  | [], found => some found
  | (none, _) :: _, _ => none
  | (some name, value) :: rest, found =>
    match ofJson? source depth value with
    | none => none
    | some value => ofMembers? source depth rest (put name value found)

end

end SettingTree

/-- The entries at the top of a file's text, if the text follows the format and holds a table. -/
def FileFormat.parse? (format : FileFormat) (source text : String) :
    Option (List (String × SettingTree)) :=
  let tree := match format with
    | .json => (Json.parse? (Text.Utf8.encode text)).bind (SettingTree.ofJson? source SettingTree.maxDepth)
    | .toml => Toml.parse? source text
    | .yaml => Yaml.parse? source text
  match tree with
  | some (.table _ entries) => some entries
  | _ => none

/-! ### Finding the file -/

/-- A name without its ending, and the ending, which a dot at the very front does not begin. -/
def splitEnding (name : String) : String × Option String :=
  let reversed := name.toList.reverse
  let ending := (reversed.takeWhile (· ≠ '.')).reverse
  let stem := ((reversed.dropWhile (· ≠ '.')).drop 1).reverse
  if stem.isEmpty then (name, none) else (String.ofList stem, some (String.ofList ending))

namespace FileTree

def isFile (t : FileTree) (path : Path) : Bool :=
  match t.entry path with
  | .ok (.file _) => true
  | _ => false

/-- The file beside a path that has the path's last name and the ending of a format. -/
def beside? (t : FileTree) (path : Path) : Option (Path × FileFormat) :=
  match path.fileName? with
  | none => none
  | some name =>
    FileFormat.endings.findSome? fun (ending, format) =>
      let candidate : Path :=
        { path with
          parts := path.withoutDots.parts.dropLast ++ [name ++ "." ++ ending], slashAtEnd := false }
      if t.isFile candidate then some (candidate, format) else none

/-- What is left of two places when the part they share at the beginning is taken off both. -/
def apart : Place → Place → Place × Place
  | a :: as, b :: bs => if a = b then apart as bs else (a :: as, b :: bs)
  | as, bs => (as, bs)

/-- A path as seen from the working directory, without the parts that stay where they are. -/
def relativeText (t : FileTree) (path : Path) : String :=
  let parts := path.parts.filter (· ≠ ".")
  let (rest, base) := apart (if path.absolute then parts else t.workingDirectory ++ parts) t.workingDirectory
  "/".intercalate (base.map (fun _ => "..") ++ rest)

def findSettings (t : FileTree) (text : String) : Except ConfigError (Path × FileFormat) :=
  let path := Path.ofText text
  if t.isFile path then
    let ending := path.fileName?.bind fun name => (splitEnding name).2
    match ending.bind fun ending => FileFormat.endings.lookup ending with
    | some format => .ok (path, format)
    | none =>
      .error (.source ("configuration file \"" ++ text ++ "\" is not of a registered file format"))
  else
    match t.beside? path with
    | some found => .ok found
    | none => .error (.source ("configuration file \"" ++ text ++ "\" not found"))

end FileTree

/-! ### Layers -/

def fileEntries (files : FileTree) (text : String) : Except ConfigError (List (String × SettingTree)) := do
  let (path, format) ← files.findSettings text
  match files.read path with
  | .error cause => throw (.source cause.message)
  | .ok bytes =>
    match Text.Utf8.decode bytes with
    | .error _ => throw (.source IoError.notText.message)
    | .ok contents =>
      match format.parse? (files.relativeText path) contents with
      | none => throw .unreadableFile
      | some entries => return entries

/-- The settings from a file, if a path is given, and from the environment. -/
def Settings.load (files : FileTree) (path : Option String) (environment : Environment.Variables) :
    Except Failure Settings := do
  let found ← match path with
    | none => pure []
    | some text =>
      match files.entry (Path.ofText text) with
      | .error _ => throw (.invalidConfig ("configuration file " ++ text ++ " not found"))
      | .ok _ => (fileEntries files text).mapError .config
  let entries := SettingTree.layer (SettingTree.layer [] found) (Environment.entries environment)
  (Settings.ofTree (.table none entries)).mapError .config

end TransferLoad

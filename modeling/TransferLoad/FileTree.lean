import TransferLoad.Artifact.Writer

/-!
# Files and directories

The files that a program sees, as a value: each place below the root that is taken, with what is
there. A path is walked part by part from the working directory or, with a leading slash, from the
root. An empty part or a single dot stays where it is, two dots go up, and every part but the last
has to lead to a directory.
-/

namespace TransferLoad

abbrev Place := List String

inductive Entry where
  | directory
  | file (content : Bytes)
  /-- A device that takes no byte at all. -/
  | full
  deriving Repr, DecidableEq

structure FileTree where
  entries : List (Place × Entry) := []
  workingDirectory : Place := []
  /-- How many bytes there is room for in a file that is written; without a number, any amount. -/
  room : Option Nat := none
  deriving Repr, DecidableEq

/-! ### Paths -/

def splitAtSlashes (path : List Char) : List (List Char) :=
  match path with
  | [] => [[]]
  | '/' :: rest => [] :: splitAtSlashes rest
  | c :: rest =>
    match splitAtSlashes rest with
    | [] => [[c]]
    | part :: parts => (c :: part) :: parts

structure Path where
  absolute : Bool
  /-- The parts that are not empty. -/
  parts : List String
  /-- The path ends in a slash, so that it can only be a directory. -/
  slashAtEnd : Bool
  deriving Repr, DecidableEq

namespace Path

def ofText (path : String) : Path where
  absolute := path.toList.head? = some '/'
  parts := ((splitAtSlashes path.toList).filter (· ≠ [])).map String.ofList
  slashAtEnd := path.toList.getLast? = some '/'

def render (p : Path) : String := (if p.absolute then "/" else "") ++ "/".intercalate p.parts

/-- The path without the parts that stay where they are; only a leading dot is kept. -/
def withoutDots (p : Path) : Path :=
  match p.absolute, p.parts with
  | false, "." :: rest => { p with parts := "." :: rest.filter (· ≠ ".") }
  | _, parts => { p with parts := parts.filter (· ≠ ".") }

/-- The directory that a path is in, if the path names one. -/
def parent? (p : Path) : Option Path :=
  if p.withoutDots.parts.length ≤ 1 ∧ !p.absolute then none
  else some { p.withoutDots with parts := p.withoutDots.parts.dropLast, slashAtEnd := false }

/-- The last part, unless it goes up or stays. -/
def fileName? (p : Path) : Option String :=
  match p.withoutDots.parts.getLast? with
  | some name => if name = ".." ∨ name = "." then none else some name
  | none => none

end Path

/-! ### Walking -/

/-- Bytes in one part of a path. -/
def longestName : Nat := 255

/-- Bytes in a whole path. -/
def longestPath : Nat := 4095

namespace FileTree

/-- What is at a place; the root is a directory. -/
def at? (t : FileTree) (place : Place) : Option Entry :=
  if place = [] then some .directory
  else (t.entries.find? fun entry => entry.1 = place).map Prod.snd

def put (t : FileTree) (place : Place) (entry : Entry) : FileTree :=
  if (t.entries.find? fun old => old.1 = place).isSome then
    { t with entries := t.entries.map fun old => if old.1 = place then (place, entry) else old }
  else { t with entries := t.entries ++ [(place, entry)] }

/-- Goes from a directory through parts that all have to lead to directories. -/
def walk (t : FileTree) : (start : Place) → List String → Except IoError Place
  | start, [] => .ok start
  | start, part :: rest =>
    if part = "." then walk t start rest
    else if part = ".." then walk t start.dropLast rest
    else if longestName < part.utf8ByteSize then .error .nameTooLong
    else
      match t.at? (start ++ [part]) with
      | none => .error .notFound
      | some .directory => walk t (start ++ [part]) rest
      | some _ => .error .notADirectory

/-- Where a path leads: a directory that is sure to be there, or a name in one. -/
inductive Target where
  | directory (place : Place)
  | name (directory : Place) (name : String)
  deriving Repr, DecidableEq

def locate (t : FileTree) (path : Path) : Except IoError Target := do
  let text := path.render
  if text.toList.contains (Char.ofNat 0) then throw .zeroInName
  if text.isEmpty then throw .notFound
  if longestPath < text.utf8ByteSize then throw .nameTooLong
  let start := if path.absolute then [] else t.workingDirectory
  match path.parts.getLast? with
  | none => return .directory start
  | some last =>
    let directory ← t.walk start path.parts.dropLast
    if last = "." then return .directory directory
    else if last = ".." then return .directory directory.dropLast
    else if longestName < last.utf8ByteSize then throw .nameTooLong
    else return .name directory last

def entry (t : FileTree) (path : Path) : Except IoError Entry := do
  match ← t.locate path with
  | .directory _ => return .directory
  | .name directory name =>
    match t.at? (directory ++ [name]) with
    | none => throw .notFound
    | some .directory => return .directory
    | some found => if path.slashAtEnd then throw .notADirectory else return found

def isDirectory (t : FileTree) (path : Path) : Bool :=
  match t.entry path with
  | .ok .directory => true
  | _ => false

/-- The bytes of a file. A device that takes nothing also gives no end of zeros, and is not read. -/
def read (t : FileTree) (path : Path) : Except IoError Bytes := do
  match ← t.entry path with
  | .directory => throw .isADirectory
  | .file content => return content
  | .full => return []

/-! ### Making and filling -/

def makeDirectory (t : FileTree) (path : Path) : Except IoError FileTree := do
  match ← t.locate path with
  | .directory _ => throw .alreadyExists
  | .name directory name =>
    match t.at? (directory ++ [name]) with
    | some _ => throw .alreadyExists
    | none => return t.put (directory ++ [name]) .directory

/-- Makes one directory, which may be there already. -/
def ensureDirectory (t : FileTree) (path : Path) : Except IoError Unit × FileTree :=
  match t.makeDirectory path with
  | .ok t => (.ok (), t)
  | .error cause => (if t.isDirectory path then .ok () else .error cause, t)

/-- Makes a directory and those above it, as far as they are missing. `above` counts the parts. -/
def makeDirectories (t : FileTree) (path : Path) : (above : Nat) → Except IoError Unit × FileTree
  | 0 => (.ok (), t)
  | above + 1 =>
    match t.makeDirectory path with
    | .error .notFound =>
      match makeDirectories t { path with parts := path.parts.dropLast } above with
      | (.error cause, t) => (.error cause, t)
      | (.ok (), t) => t.ensureDirectory path
    | _ => t.ensureDirectory path

def createFile (t : FileTree) (path : Path) : Except IoError Place × FileTree :=
  match t.locate path with
  | .error cause => (.error cause, t)
  | .ok (.directory _) => (.error .isADirectory, t)
  | .ok (.name directory name) =>
    if path.slashAtEnd then (.error .isADirectory, t)
    else
      let place := directory ++ [name]
      match t.at? place with
      | some .directory => (.error .isADirectory, t)
      | some .full => (.ok place, t)
      | _ => (.ok place, t.put place (.file []))

def createWithParents (t : FileTree) (path : String) : Except IoError Place × FileTree :=
  let path := Path.ofText path
  match path.parent? with
  | none => t.createFile path
  | some parent =>
    match t.makeDirectories parent parent.parts.length with
    | (.error cause, t) => (.error cause, t)
    | (.ok (), t) => t.createFile path

def deviceAt (t : FileTree) (place : Place) : Device :=
  { room := if t.at? place = some .full then some 0 else t.room }

def store (t : FileTree) (place : Place) (device : Device) : FileTree :=
  if t.at? place = some .full then t else t.put place (.file device.content)

end FileTree

end TransferLoad

import Std.Time.DateTime.Timestamp
import TransferLoad.Command.Session
import TransferLoad.Crypto.Blake3

/-!
# The program

Everything that is decided is decided in a session; what is left is to gather what a session needs and
to carry out what it leaves behind. The files are those on the paths that the arguments and the settings
name. No connection is ever made, so every request stays without a response.
-/

namespace TransferLoad.Command

/-- What is at a path on the disk, if a session can use it. -/
def lookAt (path : String) : IO (Option Entry) := do
  try
    let found ← IO.FS.realPath path
    if ← found.isDir then return some .directory
    else if (← found.metadata).type == .file then
      return some (.file (← IO.FS.readBinFile path).toList)
    else return some .full
  catch _ => return none

def gatherPath (files : FileTree) (text : String) : IO FileTree := do
  let path := Path.ofText text
  let mut files := files
  for count in List.range path.parts.length do
    let start := { path with parts := path.parts.take (count + 1), slashAtEnd := false }
    if let some entry ← lookAt start.render then
      if let .ok (.name directory name) := files.locate start then
        files := files.put (directory ++ [name]) entry
  return files

def gather (files : FileTree) (paths : List String) : IO FileTree := paths.foldlM gatherPath files

/-- The paths that the arguments may name, with the endings that a file of settings may have. -/
def namedPaths (arguments : List String) : List String :=
  let values := arguments ++ arguments.filterMap fun argument => (splitAtEquals argument.toList).2
  let plain := values ++ Subcommand.verify.options.filterMap (·.default)
  plain ++ plain.flatMap fun path => FileFormat.endings.map fun (ending, _) => path ++ "." ++ ending

def gatherEnvironment : IO (List (String × String)) := do
  try
    let bytes := (← IO.FS.readBinFile "/proc/self/environ").toList
    let lines := (Net.splitAt (Char.ofNat 0) (Text.Utf8.decodeLossyChars bytes)).filter (· ≠ [])
    return lines.map fun line => ((splitAtEquals line).1, ((splitAtEquals line).2).getD "")
  catch _ => return []

def keep (before after : FileTree) : IO Unit := do
  for (place, entry) in after.entries do
    if before.at? place ≠ some entry then
      let path := "/" ++ "/".intercalate place
      match entry with
      | .directory => IO.FS.createDirAll path
      | .file content => IO.FS.writeBinFile path (ByteArray.mk content.toArray)
      | .full => pure ()

def surroundings (arguments : List String) : IO Surroundings := do
  let workingDirectory := (Path.ofText (← IO.currentDir).toString).parts
  let above := (List.range workingDirectory.length).map fun count =>
    (workingDirectory.take (count + 1), Entry.directory)
  let files ← gather { entries := above, workingDirectory } (namedPaths arguments)
  let seed := (← IO.getRandomBytes 32).toList
  let now := (← Std.Time.Timestamp.now).val
  return {
    environment := ← gatherEnvironment
    files
    startedAt := ⟨now.second.val, now.nano.val.toNat⟩
    transport := fun _ _ _ => none
    secrets := fun i => Crypto.Blake3.digest (seed ++ Bytes.ofNatLE 8 i)
    freshSeed := UInt64.ofNat (Bytes.toNatLE (seed.take 8)) }

/-- The path of the artifact, if the arguments ask for a run that can begin. -/
def artifactPaths (s : Surroundings) (arguments : List String) : List String :=
  match CommandLine.read s.environment arguments with
  | .ok (.run o) =>
    match o.settings s with
    | .ok settings => [settings.run.output]
    | .error _ => []
  | _ => []

end TransferLoad.Command

def main (arguments : List String) : IO UInt32 := do
  let s ← TransferLoad.Command.surroundings arguments
  let files ← TransferLoad.Command.gather s.files (TransferLoad.Command.artifactPaths s arguments)
  let s := { s with files }
  let outcome := s.session arguments
  TransferLoad.Command.keep s.files outcome.files
  (← IO.getStdout).putStr outcome.output
  (← IO.getStderr).putStr outcome.complaint
  return UInt32.ofNat outcome.exitCode

import TransferLoad.Artifact.Basic
import TransferLoad.FileTree

/-!
# Artifacts in files

An artifact is created at a path, over whatever was there and together with the directories above it,
and written through a buffer. What is still in the buffer at the end is handed on when the artifact is
closed; a failure at that point shows nowhere.
-/

namespace TransferLoad

structure ArtifactFile where
  place : Place
  sink : ResultSink BufferedDevice

namespace ArtifactFile

/-- Creates the file and writes the header. A path that cannot be created is named in the failure. -/
def create (files : FileTree) (path : String) (header : RunHeader) :
    Except Failure ArtifactFile × FileTree :=
  match files.createWithParents path with
  | (.error cause, files) => (.error (.output path cause), files)
  | (.ok place, files) =>
    let buffered : BufferedDevice := { device := files.deviceAt place }
    match ResultSink.open? buffered header with
    | .ok sink => (.ok { place, sink }, files)
    | .error (cause, buffered) => (.error (.io cause), files.store place buffered.close)

def close (artifact : ArtifactFile) (files : FileTree) : FileTree :=
  files.store artifact.place artifact.sink.writer.close

end ArtifactFile

end TransferLoad

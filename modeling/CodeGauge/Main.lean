import CodeGauge.Command.Run
import CodeGauge.Grammar.Rows
import Std.Time.DateTime.Timestamp

/-!
# Command line

Reads from disk what a command may look at, runs it and prints what it gives. The concrete tree of a
source file is read from the file beside it whose name ends in `.rows`; a source without one is
skipped.
-/

namespace CodeGauge

namespace Disk

/-- The path of what stands at a path, without links and dots. -/
def realPath? (path : String) : IO (Option String) := do
  try
    return some (← IO.FS.realPath path).toString
  catch _ => return none

/-- The bytes of a file that can be read. -/
def bytes? (path : String) : IO (Option ByteArray) := do
  try
    return some (← IO.FS.readBinFile path)
  catch _ => return none

/-- The concrete tree of a source file. -/
def concrete? (path : String) : IO (Option Concrete) := do
  let rows ← bytes? (path ++ ".rows")
  return (rows.bind String.fromUTF8?).bind Concrete.ofText?

/-- Files that a run may read in the directories above its root. -/
def outerFiles : List String :=
  [Surroundings.projectFileName, IgnoreFile.fileName, ".ignore", ".gitignore",
    WorkingCopy.directoryName, Path.join WorkingCopy.directoryName WorkingCopy.rulesPath]

/-- A file, with its content if a run may look at that. -/
def file (path : String) : IO StoredFile := do
  if (FileTree.languageOf? path).isSome then
    match ← bytes? path with
    | some bytes => return { bytes, concrete := ← concrete? path }
    | none => return { bytes := .empty }
  else if outerFiles.any fun name => path.endsWith ("/" ++ name) then
    return { bytes := (← bytes? path).getD .empty }
  else return { bytes := .empty }

/-- What stands at a path. Links are followed to files only. -/
partial def tree (path : String) : IO FileTree := do
  let place ← IO.FS.realPath path
  unless ← place.isDir do return .file (← file path)
  let mut found := []
  for entry in ← place.readDir do
    let isLink := (← entry.path.symlinkMetadata).type == .symlink
    let isDirectory ← entry.path.isDir
    if (← entry.path.pathExists) && !(isLink && isDirectory) then
      found := (entry.fileName, ← tree (Path.join path entry.fileName)) :: found
  return .directory found

/-- Adds the file of a path to a tree, if it can be read. -/
def addFile (path : String) (t : FileTree) : IO FileTree := do
  match ← realPath? path, ← bytes? path with
  | some place, some bytes => return t.insert (.file { bytes }) (FileTree.placeOf place)
  | _, _ => return t

/-- Adds to a tree the files above a place that a run may read. -/
def addOuterFiles (path : String) (t : FileTree) : IO FileTree := do
  let mut t := t
  for directory in (Path.ancestors path).drop 1 do
    for name in WorkingCopy.topNames do
      let top := Path.join directory name
      if (← realPath? top).isSome then t := t.insert .empty (FileTree.placeOf top)
    for name in outerFiles do
      t ← addFile (Path.join directory name) t
  return t

/-- Adds to a tree the files that its links lead to. -/
def addLinkedFiles (t : FileTree) : IO FileTree := do
  let mut t := t
  for link in WorkingCopy.links t do
    if let some sharedPath := WorkingCopy.sharedPath? link then
      t ← addFile sharedPath t
      if let some shared ← bytes? sharedPath then
        if let some rulesPath := WorkingCopy.linkedRulesPath? link shared then
          t ← addFile rulesPath t
  return t

/-- What a run about a path finds around it. -/
def surroundings (path : Option String) : IO Surroundings := do
  let tree ← match path with
    | some path =>
      let t := FileTree.empty.insert (← tree path) (FileTree.placeOf path)
      addLinkedFiles (← addOuterFiles path t)
    | none => pure .empty
  let userPath := Surroundings.userFilePath? (← IO.getEnv "XDG_CONFIG_HOME") (← IO.getEnv "HOME")
  let userFile ← match userPath with
    | some path => pure ((← bytes? path).map fun bytes => ⟨path, bytes⟩)
    | none => pure none
  return {
    tree
    workingDirectory := ((← realPath? ".").map FileTree.placeOf).getD []
    userFile
    environment := {
      ruleSets := ← IO.getEnv Environment.ruleSetsName
      format := ← IO.getEnv Environment.formatName
      minPriority := ← IO.getEnv Environment.minPriorityName } }

end Disk

/-- Runs a command on what is on disk. -/
def Command.perform (command : Command) : IO UInt32 := do
  let started ← IO.monoMsNow
  let path ← Disk.realPath? command.path
  let surroundings ← Disk.surroundings path
  match surroundings.execute (command.withPath (path.getD command.path)) with
  | .error cause =>
    IO.eprintln ("Error: " ++ cause.message)
    return 1
  | .ok (exitCode, output) =>
    let now ← Std.Time.Timestamp.now
    let stamp := Timing.stamp now.toSecondsSinceUnixEpoch.val.toNat
    IO.print (output ⟨stamp, (← IO.monoMsNow) - started⟩)
    return exitCode.toUInt32

end CodeGauge

open CodeGauge in
/-- Runs the command of a command line. -/
def main (args : List String) : IO UInt32 := do
  match Command.parse? args with
  | some command => command.perform
  | none =>
    IO.eprintln "usage: tally check|metrics PATH, tally rules, tally config show|explain RULE"
    return 2

import CodeGauge.Files.Tree
import CodeGauge.Path
import CodeGauge.Text.Basic

/-!
# Working copies

A working copy of a repository has its top where version control keeps a directory of its own. That
directory also holds rules for what is ignored. A file in its place links to it elsewhere, where it
names in turn the directory that is shared with other working copies and holds the rules. Paths in
links start from the working directory of the run.
-/

namespace CodeGauge

namespace WorkingCopy

/-- The entry that a link may stand in for. -/
def directoryName : String := ".git"

/-- What the top of a working copy has at least one of. -/
def topNames : List String := [directoryName, ".jj"]

/-- The file of rules in a repository's directory. -/
def rulesPath : String := "info/exclude"

/-- The file of a linked directory that names the shared one. -/
def sharedName : String := "commondir"

/-- What a link starts with. -/
def linkMark : List Char := "gitdir: ".toList

/-- Whether a directory is the top of a working copy. -/
def isTop (t : FileTree) : Bool := topNames.any fun name => (t.at? [name]).isSome

/-- The directory that a link leads to. -/
def linkedDirectory? (link : ByteArray) : Option String := do
  let line := (← Text.firstLine? link).toList
  if linkMark.isPrefixOf line then some (String.ofList (line.drop linkMark.length)) else none

/-- The path of the shared directory's name, behind a link. -/
def sharedPath? (link : ByteArray) : Option String :=
  (linkedDirectory? link).map (Path.join · sharedName)

/-- The path of the rules, behind a link and the name of the shared directory. The name starts from
the linked directory if its first character is a dot. -/
def linkedRulesPath? (link shared : ByteArray) : Option String := do
  let directory ← linkedDirectory? link
  let name ← Text.firstLine? shared
  let relative := name.toList.head? = some '.'
  return Path.join (if relative then Path.join directory name else name) rulesPath

/-- The rules that version control keeps for a directory, `read` giving the files of paths. -/
def rules? (read : String → Option ByteArray) (t : FileTree) : Option ByteArray :=
  match t.fileAt? [directoryName] with
  | some link => do
    let shared ← read (← sharedPath? link)
    read (← linkedRulesPath? link shared)
  | none => t.fileAt? (directoryName :: FileTree.placeOf rulesPath)

mutual

/-- The links in a tree. -/
def links : FileTree → List ByteArray
  | .file _ => []
  | .directory entries => linksAmong entries

/-- The links among entries and below them. -/
def linksAmong : List (String × FileTree) → List ByteArray
  | [] => []
  | (name, t) :: rest =>
    let own := if name = directoryName then t.bytes?.toList else []
    own ++ links t ++ linksAmong rest

end

end WorkingCopy

end CodeGauge

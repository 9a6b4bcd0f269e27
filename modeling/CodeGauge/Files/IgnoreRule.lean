import CodeGauge.Glob.Expression
import CodeGauge.Text.Basic

/-!
# Ignore rules

The lines of the ignore files of version control. A line is a pattern for the path from the file's
directory; `!` takes paths back in, a slash at the end means directories only, and a pattern without
any other slash matches at every depth. A bracket that is never closed stands for itself. Of several
matching rules the last one decides.
-/

namespace CodeGauge

/-- A line of an ignore file. -/
structure IgnoreRule where
  glob : Glob
  /-- Whether the rule takes paths back in. -/
  reincludes : Bool
  directoriesOnly : Bool

namespace IgnoreRule

/-- A line without the white space at its end, unless that is escaped. -/
def trimEnd (line : List Char) : List Char :=
  if [' ', '\\'].isPrefixOf line.reverse then line else Text.dropEndWhile Text.isBlank line

/-- A pattern without the slash at its end, and whether it had one. -/
def splitDirectory (pattern : List Char) : List Char × Bool :=
  match pattern.reverse with
  | '/' :: '\\' :: rest => (rest.reverse, true)
  | '/' :: rest => (rest.reverse, true)
  | _ => (pattern, false)

/-- A pattern that matches at every depth. -/
def atAnyDepth (pattern : List Char) : List Char :=
  let every := "**/".toList
  if every.isPrefixOf pattern || pattern == ['*', '*'] then pattern else every ++ pattern

/-- A pattern that does not match a directory together with what is below it. -/
def belowOnly (pattern : List Char) : List Char :=
  if "**/".toList.isPrefixOf pattern.reverse then pattern ++ ['/', '*'] else pattern

/-- The rule of a pattern whose sign and leading slash have been taken off. -/
def ofPattern? (reincludes anchored : Bool) (pattern : List Char) : Option IgnoreRule :=
  let (pattern, directoriesOnly) := splitDirectory pattern
  let pattern :=
    if anchored || pattern.contains '/' then pattern else atAnyDepth pattern
  match Glob.parse .lenient (String.ofList (belowOnly pattern)) with
  | .ok glob => some { glob, reincludes, directoriesOnly }
  | .error _ => none

/-- The rule of a line, if it is neither blank nor a comment nor malformed. -/
def ofLine? (line : List Char) : Option IgnoreRule :=
  match trimEnd line with
  | [] => none
  | '#' :: _ => none
  | '\\' :: '!' :: rest => ofPattern? false false ('!' :: rest)
  | '\\' :: '#' :: rest => ofPattern? false false ('#' :: rest)
  | '!' :: '/' :: rest => ofPattern? true true rest
  | '!' :: rest => ofPattern? true false rest
  | '/' :: rest => ofPattern? false true rest
  | pattern => ofPattern? false false pattern

/-- The lines of a file as characters. A byte order mark at its start does not count. -/
def linesIn (bytes : ByteArray) : List (List Char) :=
  match (Text.fileLines bytes).map String.toList with
  | [] => []
  | first :: rest => first.dropWhile (· == '\uFEFF') :: rest

/-- The rules in a file. A pattern that nests too deep spoils them all. -/
def rulesIn (bytes : ByteArray) : List IgnoreRule :=
  let rules := (linesIn bytes).filterMap ofLine?
  if rules.any (·.glob.isTooDeep true) then [] else rules

/-- Whether a rule speaks about a path. -/
def covers (r : IgnoreRule) (isDirectory : Bool) (path : String) : Bool :=
  (isDirectory || !r.directoriesOnly) && r.glob.isMatch true path

/-- What rules say about a path: whether it is ignored, or nothing. -/
def verdict? (rules : List IgnoreRule) (isDirectory : Bool) (path : String) : Option Bool :=
  (rules.reverse.find? (·.covers isDirectory path)).map (!·.reincludes)

end IgnoreRule

end CodeGauge

import CodeGauge.Toml.Number
import CodeGauge.Toml.Date
import CodeGauge.Toml.Quoted
import CodeGauge.Toml.Table

/-!
# TOML documents

Reads a document line by line: a header opens a table, a key with a value extends the open one.
`parse?` gives the table of the whole document, or nothing if the text is no document. Arrays and
inline tables nest up to `nestingLimit` deep, and dotted keys have no more parts than that.
-/

namespace CodeGauge

namespace Toml

/-- Levels of nesting that a value may have, and parts that a key may have. -/
def nestingLimit : Nat := 79

/-! ## Keys -/

def isBareKeyChar (c : Char) : Bool :=
  isDigit c || ('a' ≤ c && c ≤ 'z') || ('A' ≤ c && c ≤ 'Z') || c == '-' || c == '_'

/-- One part of a key, and what follows it. -/
def simpleKey? : List Char → Option (String × List Char)
  | c :: rest =>
    if c = doubleQuote then basic? [] rest.length rest
    else if c = singleQuote then literal? [] rest
    else if isBareKeyChar c then
      some (String.ofList (c :: rest.takeWhile isBareKeyChar), rest.dropWhile isBareKeyChar)
    else none
  | [] => none

/-- The parts of a dotted key, and what follows it. -/
def keyParts? : Nat → List Char → Option (List String × List Char)
  | 0, _ => none
  | fuel + 1, cs => do
    let (part, rest) ← simpleKey? (skipSpace cs)
    match skipSpace rest with
    | '.' :: rest => do
      let (parts, rest) ← keyParts? fuel rest
      return (part :: parts, rest)
    | rest => return ([part], rest)

/-- A key as the path to its table and its last part, and what follows it. -/
def key? (cs : List Char) : Option ((List String × String) × List Char) := do
  let (parts, rest) ← keyParts? nestingLimit cs
  return ((parts.dropLast, ← parts.getLast?), rest)

/-! ## Values -/

/-- A reader of one value: the value, and what follows it. -/
abbrev Reader := List Char → Option (Value × List Char)

/-- The elements of an array behind its bracket or a comma, and what follows the array. -/
def elements? (read : Reader) (found : List Value) : Nat → Reader
  | 0, _ => none
  | fuel + 1, cs =>
    match skipBlank false cs with
    | ']' :: rest => some (.array found.reverse, rest)
    | cs => do
      let (value, rest) ← read cs
      match skipBlank false rest with
      | ',' :: rest => elements? read (value :: found) fuel rest
      | ']' :: rest => return (.array (value :: found).reverse, rest)
      | _ => none

/-- The pairs of an inline table behind its brace or a comma, and what follows the table. -/
def pairs? (read : Reader) (found : Entries) : Nat → Reader
  | 0, _ => none
  | fuel + 1, cs => do
    let ((path, key), rest) ← key? cs
    let (value, rest) ← read (skipSpace (← expect? '=' rest))
    let found ← found.insert? path key (.value value)
    match skipSpace rest with
    | ',' :: rest => pairs? read found fuel rest
    | '\x7d' :: rest => return (.table (entriesToValues found), rest)
    | _ => none

/-- A date or a number, and what follows it. -/
def number? : Reader := fun cs =>
  match date? .document cs with
  | some (date, rest) => some (.date date, rest)
  | none =>
    match float? cs with
    | some (x, rest) => some (.float x, rest)
    | none => (integer? cs).map fun (n, rest) => (.integer n, rest)

/-- A value without parts, and what follows it. -/
def scalar? : Reader
  | 't' :: 'r' :: 'u' :: 'e' :: rest => some (.flag true, rest)
  | 'f' :: 'a' :: 'l' :: 's' :: 'e' :: rest => some (.flag false, rest)
  | c :: rest =>
    if c = doubleQuote ∨ c = singleQuote then
      (string? (c :: rest)).map fun (s, rest) => (.text s, rest)
    else number? (c :: rest)
  | [] => none

/-- A value nested at most `levels` deep, and what follows it. -/
def value? : Nat → Reader
  | 0, cs => scalar? cs
  | levels + 1, cs =>
    match cs with
    | '[' :: rest => elements? (value? levels) [] cs.length rest
    | '\x7b' :: rest =>
      match skipSpace rest with
      | '\x7d' :: rest => some (.table [], rest)
      | rest => pairs? (value? levels) [] cs.length rest
    | cs => scalar? cs

/-! ## Documents -/

/-- A document in the making: its tables, and the path of the open one. -/
structure Draft where
  root : Entries
  path : List String

/-- The key of a header behind its brackets, and what follows its line. -/
def header? (close : List Char) (cs : List Char) :
    Option ((List String × String) × List Char) := do
  let (key, rest) ← key? cs
  if close.isPrefixOf rest then return (key, ← lineEnd? (rest.drop close.length)) else none

/-- Takes one line into a draft. -/
def line? (d : Draft) (cs : List Char) : Option (Draft × List Char) :=
  match skipSpace cs with
  | '[' :: '[' :: rest => do
    let ((path, key), rest) ← header? [']', ']'] rest
    return (⟨← d.root.appendTable? path key, path ++ [key]⟩, rest)
  | '[' :: rest => do
    let ((path, key), rest) ← header? [']'] rest
    return (⟨← d.root.openTable? path key, path ++ [key]⟩, rest)
  | cs =>
    match lineEnd? cs with
    | some rest => some (d, rest)
    | none => do
      let ((path, key), rest) ← key? cs
      let (value, rest) ← value? nestingLimit (skipSpace (← expect? '=' rest))
      let root ← d.root.update? false
        (fun _ entries => entries.insert? path key (.value value)) d.path false
      return (⟨root, d.path⟩, ← lineEnd? rest)

/-- Takes line after line into a draft. -/
def document? : Nat → Draft → List Char → Option Draft
  | _, d, [] => some d
  | 0, _, _ => none
  | fuel + 1, d, cs => do
    let (d, rest) ← line? d cs
    document? fuel d rest

/-- The table of a document. -/
def parse? (text : String) : Option (List (String × Value)) := do
  let cs := match text.toList with
    | '\uFEFF' :: cs => cs
    | cs => cs
  let d ← document? cs.length ⟨[], []⟩ cs
  return entriesToValues d.root

end Toml

end CodeGauge

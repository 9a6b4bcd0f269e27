import CodeGauge.Glob.Match

/-!
# Patterns as regular expressions

A pattern written as a regular expression over bytes. The depth of an expression counts its groups,
choices, repetitions, classes and sequences along the deepest branch; expressions that nest deeper
than `nestingLimit` are refused.
-/

namespace CodeGauge

namespace Glob

/-- A part of a regular expression. -/
inductive Expression where
  | byte (value : UInt8)
  | anyByte
  | oneOf (negated : Bool) (ranges : List (UInt8 × UInt8))
  | repeated (inner : Expression)
  | optional (inner : Expression)
  /-- A choice between sequences. -/
  | group (branches : List (List Expression))

namespace Expression

/-- Levels of nesting that an expression may have. -/
def nestingLimit : Nat := 250

/-- The levels that a list of parts adds: none if there is no more than one. -/
def level {α : Type} (parts : List α) : Nat := if parts.length ≤ 1 then 0 else 1

mutual

def depth : Expression → Nat
  | byte _ | anyByte => 0
  | oneOf _ ranges => level ranges + 1
  | repeated inner | optional inner => inner.depth + 1
  | group branches => deepestBranch branches + level branches + 1

/-- The depth of the deepest of several expressions. -/
def deepest : List Expression → Nat
  | [] => 0
  | e :: es => max e.depth (deepest es)

/-- The depth of the deepest of several sequences. -/
def deepestBranch : List (List Expression) → Nat
  | [] => 0
  | branch :: branches => max (deepest branch + level branch) (deepestBranch branches)

end

/-- The characters that have a meaning in the text of an expression. -/
def signs : List Char := "\\.+*?()|[]\x7b\x7d^$#&-~".toList

/-- A byte in the text of an expression. -/
def byteText (b : UInt8) : String :=
  let c := Char.ofNat b.toNat
  if 0x80 ≤ b then "\\x" ++ String.ofList (Nat.toDigits 16 b.toNat)
  else if signs.contains c then "\\" ++ String.singleton c
  else String.singleton c

/-- A range of bytes in the text of a class. -/
def rangeText (range : UInt8 × UInt8) : String :=
  if range.1 = range.2 then byteText range.1 else byteText range.1 ++ "-" ++ byteText range.2

mutual

def text : Expression → String
  | byte value => byteText value
  | anyByte => "."
  | oneOf negated ranges =>
    "[" ++ (if negated then "^" else "") ++ String.join (ranges.map rangeText) ++ "]"
  | repeated inner => inner.text ++ "*"
  | optional inner => inner.text ++ "?"
  | group branches => "(?:" ++ branchesText branches ++ ")"

/-- The text of a sequence. -/
def sequenceText : List Expression → String
  | [] => ""
  | e :: es => e.text ++ sequenceText es

/-- The texts of sequences with bars between them. -/
def branchesText : List (List Expression) → String
  | [] => ""
  | [branch] => sequenceText branch
  | branch :: branches => sequenceText branch ++ "|" ++ branchesText branches

end

end Expression

/-- Any byte that a star matches. -/
def wildByte (separated : Bool) : Expression :=
  if separated then .oneOf true [(slash, slash)] else .anyByte

/-- Any bytes at all. -/
def anyBytes : Expression := .repeated .anyByte

mutual

/-- The sequence that a token stands for. -/
def Token.expressions (separated : Bool) : Token → List Expression
  | .literal c => (bytesOf c).map .byte
  | .one => [wildByte separated]
  | .many => [.repeated (wildByte separated)]
  | .oneOf negated ranges => [.oneOf negated (ranges.flatMap byteRanges)]
  | .alternatives branches =>
    if branches.isEmpty then [] else [.group (branchExpressions separated branches)]
  | .leading => [.group [[.optional (.byte slash)], [anyBytes, .byte slash]]]
  | .inside => [.byte slash, anyBytes]
  | .between => [.group [[.byte slash], [.byte slash, anyBytes, .byte slash]]]

/-- The sequence that tokens stand for. -/
def tokenExpressions (separated : Bool) : List Token → List Expression
  | [] => []
  | t :: ts => t.expressions separated ++ tokenExpressions separated ts

/-- The sequences that branches stand for. -/
def branchExpressions (separated : Bool) : List (List Token) → List (List Expression)
  | [] => []
  | branch :: branches =>
    tokenExpressions separated branch :: branchExpressions separated branches

end

/-- The sequence that a pattern stands for. -/
def expressions (g : Glob) (separated : Bool) : List Expression :=
  match g.tokens with
  | [.leading] => [anyBytes]
  | tokens => tokenExpressions separated tokens

/-- The text of a pattern's expression, which matches whole paths byte by byte. -/
def expressionText (g : Glob) (separated : Bool) : String :=
  "(?-u)^" ++ Expression.sequenceText (g.expressions separated) ++ "$"

/-- Whether a pattern's expression nests too deep. Its sequence is a level of its own. -/
def isTooDeep (g : Glob) (separated : Bool) : Bool :=
  Expression.nestingLimit < Expression.deepest (g.expressions separated) + 1

end Glob

end CodeGauge

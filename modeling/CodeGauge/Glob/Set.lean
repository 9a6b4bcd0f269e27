import CodeGauge.Glob.Expression

/-!
# Sets of patterns

A set whose stars cross slashes. A pattern that asks for a text at an end of a path is looked up by
that text. One that ends in a file extension is tried as an expression of its own on paths with that
extension. All others are one expression together, which numbers them. A pattern that nests too deep
spoils the set, and is named by its own expression or by its number.
-/

namespace CodeGauge

namespace Glob

/-- How a set looks for the paths of a pattern. -/
inductive Search where
  | byText
  | byExtension
  | together
  deriving DecidableEq

def Token.isLiteral : Token → Bool
  | .literal _ => true
  | _ => false

/-- Whether a token is a literal among some characters. -/
def Token.isAmong (cs : List Char) : Token → Bool
  | .literal c => cs.contains c
  | _ => false

/-- Whether tokens spell a text. -/
def isText (tokens : List Token) : Bool := !tokens.isEmpty && tokens.all (·.isLiteral)

/-- Whether a path matches if a text starts it, or is all of it. -/
def isStart (tokens : List Token) : Bool :=
  match tokens.reverse with
  | .inside :: rest => rest.all (·.isLiteral)
  | .many :: rest => isText rest
  | _ => isText tokens

/-- Whether a path matches if a text ends it. A mere slash is no such text. -/
def isEnd (tokens : List Token) : Bool :=
  let behind := match tokens with
    | .leading :: rest => rest
    | _ => tokens
  match behind with
  | .many :: rest => isText rest && !(rest.length == 1 && rest.all (·.isAmong ['/']))
  | _ => isText behind

/-- Whether tokens end in a text from its last dot on, with no slash behind that. -/
def endsInExtension (tokens : List Token) : Bool :=
  ((tokens.reverse.takeWhile (·.isLiteral)).find? (·.isAmong ['.', '/'])).any (·.isAmong ['.'])

def search (g : Glob) : Search :=
  if isStart g.tokens || isEnd g.tokens then .byText
  else if endsInExtension g.tokens then .byExtension
  else .together

/-- What keeps patterns from making a set. -/
def setFault? (globs : List Glob) : Option Failure :=
  let alone := (globs.filter (·.search = .byExtension)).find? (·.isTooDeep false)
  let number := (globs.filter (·.search = .together)).findIdx? (·.isTooDeep false)
  (alone.map fun g => .badGlob (g.expressionText false) (.tooDeep 0)) <|>
    number.map fun n => .badGlobs (.tooDeep n)

end Glob

end CodeGauge

import CodeGauge.Glob.Lexeme

/-!
# Glob patterns

The second pass over a glob pattern: stars, groups of alternatives, and the three forms of a double
star between slashes.
-/

namespace CodeGauge

namespace Glob

/-- A part of a pattern. -/
inductive Token where
  | literal (c : Char)
  /-- One byte. -/
  | one
  /-- Any bytes. -/
  | many
  | oneOf (negated : Bool) (ranges : List (Char × Char))
  /-- One of several patterns; without any, nothing. -/
  | alternatives (branches : List (List Token))
  /-- Any directories before the rest of the path, or none. -/
  | leading
  /-- Everything below a directory. -/
  | inside
  /-- A slash, with any directories behind it. -/
  | between

/-- A group of alternatives that is being read. -/
structure Group where
  /-- The tokens before the group, the last first. -/
  before : List Token
  /-- The finished branches, the last first. -/
  branches : List (List Token)

/-- A pattern that is being read. -/
structure Draft where
  /-- The tokens of the open branch, the last first. -/
  tokens : List Token
  /-- The open groups, the innermost first. -/
  groups : List Group

/-- Whether a branch is empty, or holds groups without branches alone. -/
def isVoid (branch : List Token) : Bool :=
  branch.all fun t => match t with
    | .alternatives [] => true
    | _ => false

namespace Draft

def empty : Draft := ⟨[], []⟩

def inGroup (d : Draft) : Bool := !d.groups.isEmpty

def push (d : Draft) (t : Token) : Draft := { d with tokens := t :: d.tokens }

/-- Replaces the last token, unless it is a double star that already stands for as much. -/
def replaceLast (d : Draft) (t : Token) : Draft :=
  match d.tokens with
  | .leading :: _ | .inside :: _ => d
  | _ :: rest => { d with tokens := t :: rest }
  | [] => { d with tokens := [t] }

def openGroup (d : Draft) : Draft := ⟨[], ⟨d.tokens, []⟩ :: d.groups⟩

/-- A comma starts the next branch of a group and is an ordinary character outside all groups. -/
def comma (d : Draft) : Draft :=
  match d.groups with
  | g :: gs => ⟨[], { g with branches := d.tokens.reverse :: g.branches } :: gs⟩
  | [] => d.push (.literal ',')

/-- Closes the innermost group. Its void branches are dropped. -/
def closeGroup (d : Draft) : Except GlobFault Draft :=
  match d.groups with
  | g :: gs =>
    let branches := ((d.tokens.reverse :: g.branches).reverse).filter (!isVoid ·)
    .ok ⟨.alternatives branches :: g.before, gs⟩
  | [] => .error .unopenedAlternates

/-- The tokens of the whole pattern. -/
def finish (d : Draft) : Except GlobFault (List Token) :=
  if d.inGroup then .error .unclosedAlternates else .ok d.tokens.reverse

/-- Whether a double star after this character stands between slashes, as far as its left side
goes. -/
def startsSegment (d : Draft) (last : Char) : Bool :=
  last == '/' || (d.inGroup && (last == ',' || last == '\x7b'))

/-- Whether a branch ends here. -/
def endsBranch (d : Draft) : List Lexeme → Bool
  | [] => true
  | .char c :: _ => d.inGroup && (c == ',' || c == '\x7d')
  | _ => false

/-- A double star that is no more than two stars. -/
def twoStars (d : Draft) : Draft := (d.push .many).push .many

end Draft

/-- Reads lexemes into a draft; `last` is the character before them. -/
def readTokens (d : Draft) (last : Char) : List Lexeme → Except GlobFault (List Token)
  | [] => d.finish
  | .fault e :: _ => .error e
  | .escaped c :: rest => readTokens (d.push (.literal c)) c rest
  | .oneOf negated ranges :: rest => readTokens (d.push (.oneOf negated ranges)) ']' rest
  | .char '*' :: .char '*' :: rest =>
    if d.tokens.isEmpty then
      match rest with
      | [] => readTokens (d.push .leading) '*' []
      | .char '/' :: rest => readTokens (d.push .leading) '/' rest
      | rest => readTokens d.twoStars '*' rest
    else if d.startsSegment last then
      if d.endsBranch rest then readTokens (d.replaceLast .inside) '*' rest
      else match rest with
        | .char '/' :: rest => readTokens (d.replaceLast .between) '/' rest
        | rest => readTokens d.twoStars '*' rest
    else readTokens d.twoStars '*' rest
  | .char c :: rest =>
    match c with
    | '?' => readTokens (d.push .one) c rest
    | '*' => readTokens (d.push .many) c rest
    | '\x7b' => readTokens d.openGroup c rest
    | '\x7d' => do readTokens (← d.closeGroup) c rest
    | ',' => readTokens d.comma c rest
    | c => readTokens (d.push (.literal c)) c rest

end Glob

/-- A pattern for paths. -/
structure Glob where
  tokens : List Glob.Token

namespace Glob

/-- Reads a pattern. -/
def parse (brackets : Brackets) (text : String) : Except GlobFault Glob :=
  (readTokens .empty ' ' (lexemes brackets .plain text.toList)).map Glob.mk

end Glob

end CodeGauge

import CodeGauge.Failure

/-!
# Glob lexemes

The first pass over a glob pattern: escapes and character classes become lexemes of their own, every
other character stays as it is. A fault ends the list, so that the second pass meets it where it
stands. Whether a class that is never closed is a fault is up to the caller.
-/

namespace CodeGauge

namespace Glob

/-- A piece of a pattern. -/
inductive Lexeme where
  | char (c : Char)
  | escaped (c : Char)
  /-- One character of some ranges, or one of none of them. -/
  | oneOf (negated : Bool) (ranges : List (Char × Char))
  | fault (fault : GlobFault)
  deriving DecidableEq

/-- What becomes of an opening bracket. -/
inductive Brackets where
  /-- It opens a class, which has to be closed. -/
  | closed
  /-- It opens a class, unless that is never closed: then this bracket and all later ones stand for
  themselves. -/
  | lenient
  /-- It stands for itself. -/
  | literal

/-- A character class that is being read. -/
structure ClassDraft where
  negated : Bool := false
  /-- The ranges so far, the last first. -/
  ranges : List (Char × Char) := []
  /-- Whether the last character was a dash that may make a range. -/
  dash : Bool := false
  /-- Whether nothing but the sign of negation was read. -/
  fresh : Bool := true

namespace ClassDraft

/-- Adds a character, which ends a range after a dash. -/
def add (d : ClassDraft) (c : Char) : Except GlobFault ClassDraft :=
  match d.ranges with
  | (first, _) :: rest =>
    if d.dash then
      if c < first then .error (.invalidRange (String.singleton first) (String.singleton c))
      else .ok { d with ranges := (first, c) :: rest, dash := false, fresh := false }
    else .ok { d with ranges := (c, c) :: d.ranges, fresh := false }
  | [] => .ok { d with ranges := [(c, c)], fresh := false }

/-- Takes the first character behind the bracket. -/
def start (c : Char) : Except GlobFault ClassDraft :=
  if c = '!' ∨ c = '^' then .ok { negated := true } else add {} c

/-- Takes a further character; nothing is left of the draft if that closes the class. -/
def next (d : ClassDraft) (c : Char) : Except GlobFault (Option ClassDraft) :=
  if c = ']' ∧ ¬d.fresh then .ok none
  else if c = '-' ∧ ¬d.fresh ∧ ¬d.dash then .ok (some { d with dash := true })
  else (d.add c).map some

/-- The class once it is closed. A dash at the end is a member. -/
def close (d : ClassDraft) : Lexeme :=
  .oneOf d.negated ((if d.dash then ('-', '-') :: d.ranges else d.ranges).reverse)

/-- Whether a pattern ends before the class is closed or has a fault. -/
def runsOut (d : ClassDraft) : List Char → Bool
  | [] => true
  | c :: cs =>
    match d.next c with
    | .ok (some d) => d.runsOut cs
    | _ => false

end ClassDraft

/-- Whether a pattern ends before the class that has just been opened is closed or has a fault. -/
def isUnclosed : List Char → Bool
  | [] => true
  | c :: cs =>
    match ClassDraft.start c with
    | .ok d => d.runsOut cs
    | .error _ => false

/-- What the next character belongs to. -/
inductive Mode where
  | plain
  | escape
  /-- A class that has just been opened. -/
  | opened
  | inClass (draft : ClassDraft)

/-- The lexemes of a pattern. -/
def lexemes (brackets : Brackets) : Mode → List Char → List Lexeme
  | .plain, [] => []
  | .escape, [] => [.fault .danglingEscape]
  | .opened, [] | .inClass _, [] => [.fault .unclosedClass]
  | .plain, c :: cs =>
    if c = '\\' then lexemes brackets .escape cs
    else if c = '[' then
      match brackets with
      | .closed => lexemes .closed .opened cs
      | .lenient =>
        if isUnclosed cs then .char c :: lexemes .literal .plain cs
        else lexemes .lenient .opened cs
      | .literal => .char c :: lexemes .literal .plain cs
    else .char c :: lexemes brackets .plain cs
  | .escape, c :: cs => .escaped c :: lexemes brackets .plain cs
  | .opened, c :: cs =>
    match ClassDraft.start c with
    | .ok d => lexemes brackets (.inClass d) cs
    | .error e => [.fault e]
  | .inClass d, c :: cs =>
    match d.next c with
    | .ok (some d) => lexemes brackets (.inClass d) cs
    | .ok none => d.close :: lexemes brackets .plain cs
    | .error e => [.fault e]

end Glob

end CodeGauge

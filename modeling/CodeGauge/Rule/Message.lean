/-!
# Message templates

A template holds the placeholders `\x7b0\x7d`, `\x7b1\x7d`, ... for arguments. They are substituted
one after the other, so a placeholder that comes in with an argument is substituted by a later one.
-/

namespace CodeGauge

namespace Message

/-- Replaces every occurrence of a text from left to right; `skip` characters belong to an
occurrence already replaced. -/
def replaceFrom (what new : List Char) : Nat → List Char → List Char
  | _, [] => []
  | skip + 1, _ :: cs => replaceFrom what new skip cs
  | 0, c :: cs =>
    if what.isPrefixOf (c :: cs) then new ++ replaceFrom what new (what.length - 1) cs
    else c :: replaceFrom what new 0 cs

/-- The placeholder of an argument. -/
def placeholder (i : Nat) : List Char := '\x7b' :: (toString i).toList ++ ['\x7d']

/-- Substitutes the arguments from number `i` on. -/
def substitute (i : Nat) : List String → List Char → List Char
  | [], template => template
  | arg :: args, template =>
    substitute (i + 1) args (replaceFrom (placeholder i) arg.toList 0 template)

/-- The message of a template with arguments. -/
def format (template : String) (args : List String) : String :=
  String.ofList (substitute 0 args template.toList)

end Message

end CodeGauge

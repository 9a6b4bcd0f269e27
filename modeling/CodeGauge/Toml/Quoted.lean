import CodeGauge.Toml.Value

/-!
# Strings

Strings in double quotes with escapes, strings in single quotes without, and both over several
lines. Every step of a reader takes at least one character, so the number of characters bounds its
steps.
-/

namespace CodeGauge

namespace Toml

def doubleQuote : Char := '"'

def singleQuote : Char := '\x27'

/-- A character given by its code point in hexadecimal digits, and what follows them. -/
def codePoint? (count : Nat) (cs : List Char) : Option (Char × List Char) :=
  let ds := cs.take count
  let n := ofDigits 16 ds
  if ds.length = count ∧ ds.all isHexDigit ∧ n.isValidChar then
    some (Char.ofNat n, cs.drop count)
  else none

/-- The character of an escape behind its backslash, and what follows it. -/
def escape? : List Char → Option (Char × List Char)
  | 'b' :: rest => some ('\x08', rest)
  | 'f' :: rest => some ('\x0c', rest)
  | 'n' :: rest => some ('\n', rest)
  | 'r' :: rest => some ('\r', rest)
  | 't' :: rest => some ('\t', rest)
  | 'u' :: rest => codePoint? 4 rest
  | 'U' :: rest => codePoint? 8 rest
  | '\\' :: rest => some ('\\', rest)
  | '"' :: rest => some ('"', rest)
  | _ => none

/-- The rest of a string in double quotes, and what follows it. -/
def basic? (found : List Char) : Nat → List Char → Option (String × List Char)
  | fuel + 1, c :: rest =>
    if c = doubleQuote then some (String.ofList found.reverse, rest)
    else if c = '\\' then do
      let (c, rest) ← escape? rest
      basic? (c :: found) fuel rest
    else if isPrintable c then basic? (c :: found) fuel rest
    else none
  | _, _ => none

/-- The rest of a string in single quotes, and what follows it. -/
def literal? (found : List Char) : List Char → Option (String × List Char)
  | [] => none
  | c :: rest =>
    if c = singleQuote then some (String.ofList found.reverse, rest)
    else if isPrintable c then literal? (c :: found) rest
    else none

/-- What follows a backslash at the end of a line: the start of the next text. -/
def continuation? (cs : List Char) : Option (List Char) := do
  let rest ← newline? (skipSpace cs)
  return dropLines false rest
where
  dropLines (returned : Bool) : List Char → List Char
  | [] => if returned then ['\r'] else []
  | c :: rest =>
    if c == '\n' then dropLines false rest
    else if returned then '\r' :: c :: rest
    else if isSpace c then dropLines false rest
    else if c == '\r' then dropLines true rest
    else c :: rest

/-- The rest of a string over several lines between triples of a quote, and what follows it. Up to
two quotes may stand before the closing three. -/
def lines? (quote : Char) (escapes : Bool) (found : List Char) :
    Nat → List Char → Option (String × List Char)
  | fuel + 1, c :: rest =>
    if c = quote then
      let run := (c :: rest).takeWhile (· = quote)
      if 3 ≤ run.length then
        let kept := min 2 (run.length - 3)
        some (String.ofList (found.reverse ++ run.take kept), rest.drop (kept + 2))
      else lines? quote escapes (c :: found) fuel rest
    else if escapes && c == '\\' then
      match continuation? rest with
      | some rest => lines? quote escapes found fuel rest
      | none => do
        let (c, rest) ← escape? rest
        lines? quote escapes (c :: found) fuel rest
    else match newline? (c :: rest) with
      | some rest => lines? quote escapes ('\n' :: found) fuel rest
      | none => if isPrintable c then lines? quote escapes (c :: found) fuel rest else none
  | _, _ => none

/-- A string of any kind, and what follows it. -/
def string? (cs : List Char) : Option (String × List Char) :=
  match cs with
  | a :: b :: c :: rest =>
    if (a = doubleQuote ∨ a = singleQuote) ∧ a = b ∧ b = c then
      let rest := (newline? rest).getD rest
      lines? a (a == doubleQuote) [] rest.length rest
    else single cs
  | _ => single cs
where
  single : List Char → Option (String × List Char)
  | c :: rest =>
    if c = doubleQuote then basic? [] rest.length rest
    else if c = singleQuote then literal? [] rest
    else none
  | [] => none

end Toml

end CodeGauge

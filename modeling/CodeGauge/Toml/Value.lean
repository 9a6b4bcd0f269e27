/-!
# TOML values

The values of a TOML document. Dates and times are kept as text, in their canonical spelling.
-/

namespace CodeGauge

namespace Toml

/-- A TOML value. The keys of a table are distinct. -/
inductive Value where
  | text (value : String)
  | integer (value : Int)
  | float (value : Float)
  | flag (value : Bool)
  | date (value : String)
  | array (items : List Value)
  | table (entries : List (String × Value))

namespace Value

def text? : Value → Option String
  | text value => some value
  | _ => none

def flag? : Value → Option Bool
  | flag value => some value
  | _ => none

/-- The texts of an array of nothing else. -/
def texts? : Value → Option (List String)
  | array items => items.mapM text?
  | _ => none

end Value

/-! ## Characters -/

def isSpace (c : Char) : Bool := c == ' ' || c == '\t'

/-- Characters that text may contain as they are: no controls but the tab. -/
def isPrintable (c : Char) : Bool := c == '\t' || (0x20 ≤ c.toNat && c.toNat ≠ 0x7F)

def isDigit (c : Char) : Bool := '0' ≤ c && c ≤ '9'

def isHexDigit (c : Char) : Bool :=
  isDigit c || ('a' ≤ c && c ≤ 'f') || ('A' ≤ c && c ≤ 'F')

/-- The value of a digit of a base up to sixteen. -/
def digitValue (c : Char) : Nat :=
  if isDigit c then c.toNat - 0x30 else c.toLower.toNat - 0x57

/-- The number that digits denote in a base. -/
def ofDigits (base : Nat) (digits : List Char) : Nat :=
  digits.foldl (fun n c => n * base + digitValue c) 0

def skipSpace (cs : List Char) : List Char := cs.dropWhile isSpace

/-- What follows a new line. -/
def newline? : List Char → Option (List Char)
  | '\n' :: rest => some rest
  | '\r' :: '\n' :: rest => some rest
  | _ => none

/-- What follows the end of a line: blanks, a comment, and a new line unless nothing follows. -/
def lineEnd? (cs : List Char) : Option (List Char) :=
  let cs := skipSpace cs
  let cs := match cs with
    | '#' :: comment => comment.dropWhile isPrintable
    | cs => cs
  if cs.isEmpty then some [] else newline? cs

/-- What follows blanks, new lines and comments. -/
def skipBlank (inComment : Bool) : List Char → List Char
  | [] => []
  | c :: rest =>
    if inComment && isPrintable c then skipBlank true rest
    else if isSpace c || c == '\n' then skipBlank false rest
    else if c == '#' then skipBlank true rest
    else match c, rest with
      | '\r', '\n' :: rest => skipBlank false rest
      | c, rest => c :: rest

end Toml

end CodeGauge

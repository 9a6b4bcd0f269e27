import CodeGauge.Decimal.Layout

/-!
# JSON documents

Documents as values, and their written form: two spaces of indentation, one member or element a
line, and nothing between the brackets of an empty object or array. In strings only the quote, the
backslash and control characters are escaped.
-/

namespace CodeGauge

/-- A JSON document. Members of an object keep their order. -/
inductive Json where
  | null
  | bool (value : Bool)
  | integer (value : Nat)
  | number (value : Float)
  | string (value : String)
  | array (items : List Json)
  | object (members : List (String × Json))

namespace Json

/-! ## Strings -/

def hexDigit (n : Nat) : Char := (Nat.toDigits 16 n).headD '0'

/-- A character inside a string. -/
def escapeChar (c : Char) : List Char :=
  if c = '"' then ['\\', '"']
  else if c = '\\' then ['\\', '\\']
  else if c.toNat = 8 then ['\\', 'b']
  else if c.toNat = 9 then ['\\', 't']
  else if c.toNat = 10 then ['\\', 'n']
  else if c.toNat = 12 then ['\\', 'f']
  else if c.toNat = 13 then ['\\', 'r']
  else if c.toNat < 32 then ['\\', 'u', '0', '0', hexDigit (c.toNat / 16), hexDigit (c.toNat % 16)]
  else [c]

/-- A text as a string literal. -/
def quote (s : String) : List Char := '"' :: s.toList.flatMap escapeChar ++ ['"']

/-! ## Documents -/

/-- A new line at a depth of nesting. -/
def newline (depth : Nat) : List Char := '\n' :: List.replicate (2 * depth) ' '

mutual

/-- A document inside `depth` levels of nesting. -/
def render (depth : Nat) : Json → List Char
  | null => "null".toList
  | bool value => (if value then "true" else "false").toList
  | integer value => (toString value).toList
  | number value => ((Decimal.exchange? value).getD "null").toList
  | string value => quote value
  | array [] => ['[', ']']
  | array (item :: items) =>
    '[' :: newline (depth + 1) ++ render (depth + 1) item ++ renderItems (depth + 1) items ++
      newline depth ++ [']']
  | object [] => ['\x7b', '\x7d']
  | object (member :: members) =>
    '\x7b' :: newline (depth + 1) ++ quote member.1 ++ ':' :: ' ' ::
      render (depth + 1) member.2 ++ renderMembers (depth + 1) members ++ newline depth ++ ['\x7d']

/-- The elements after the first. -/
def renderItems (depth : Nat) : List Json → List Char
  | [] => []
  | item :: items => ',' :: newline depth ++ render depth item ++ renderItems depth items

/-- The members after the first. -/
def renderMembers (depth : Nat) : List (String × Json) → List Char
  | [] => []
  | member :: members =>
    ',' :: newline depth ++ quote member.1 ++ ':' :: ' ' :: render depth member.2 ++
      renderMembers depth members

end

/-- A document as text. -/
def text (j : Json) : String := String.ofList (render 0 j)

/-- A document as a file, with a new line at its end. -/
def written (j : Json) : String := j.text ++ "\n"

end Json

end CodeGauge

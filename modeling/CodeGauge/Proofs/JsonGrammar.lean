import CodeGauge.Json

/-!
# The grammar of JSON texts

A JSON text is read in two stages. Its characters spell tokens, with white space between them
(`Lexed`), and its tokens are those of a document (`Document.tokens`); a text says a document if it
spells the tokens of the document (`IsText`). Nothing here depends on how documents are written in
this library: a text may have its white space anywhere between tokens, and its characters in any of
the spellings that strings allow.

A document keeps a number as it is written, since a text says nothing about its value.
-/

namespace CodeGauge

namespace Json

/-- What a JSON text says. -/
inductive Document where
  | null
  | bool (value : Bool)
  | number (literal : List Char)
  | string (value : String)
  | array (items : List Document)
  | object (members : List (String × Document))

inductive Token where
  | beginArray
  | endArray
  | beginObject
  | endObject
  | comma
  | colon
  | null
  | bool (value : Bool)
  | number (literal : List Char)
  | string (value : String)

namespace Document

mutual

def tokens : Document → List Token
  | null => [.null]
  | bool value => [.bool value]
  | number literal => [.number literal]
  | string value => [.string value]
  | array [] => [.beginArray, .endArray]
  | array (item :: items) => .beginArray :: tokens item ++ itemTokens items ++ [.endArray]
  | object [] => [.beginObject, .endObject]
  | object ((key, value) :: members) =>
    .beginObject :: .string key :: .colon :: tokens value ++ memberTokens members ++ [.endObject]

/-- The tokens of the items after the first. -/
def itemTokens : List Document → List Token
  | [] => []
  | item :: items => .comma :: tokens item ++ itemTokens items

/-- The tokens of the members after the first. -/
def memberTokens : List (String × Document) → List Token
  | [] => []
  | (key, value) :: members =>
    .comma :: .string key :: .colon :: tokens value ++ memberTokens members

end

end Document

/-! ## Numbers -/

/-- One decimal digit or more. -/
def IsDigits (ds : List Char) : Prop := ds ≠ [] ∧ ∀ d ∈ ds, d.isDigit

/-- The digits before the point, which start with a zero only if that is all. -/
def IsWhole (cs : List Char) : Prop := cs = ['0'] ∨ (IsDigits cs ∧ cs.head? ≠ some '0')

def IsFraction (cs : List Char) : Prop := cs = [] ∨ ∃ ds, cs = '.' :: ds ∧ IsDigits ds

def IsExponent (cs : List Char) : Prop :=
  cs = [] ∨ ∃ e sign ds, cs = e :: sign ++ ds ∧ (e = 'e' ∨ e = 'E') ∧
    (sign = [] ∨ sign = ['+'] ∨ sign = ['-']) ∧ IsDigits ds

/-- A number: a minus or nothing, a whole part, and perhaps a fraction and an exponent. -/
def IsNumber (cs : List Char) : Prop :=
  ∃ sign whole fraction exponent, cs = sign ++ whole ++ fraction ++ exponent ∧
    (sign = [] ∨ sign = ['-']) ∧ IsWhole whole ∧ IsFraction fraction ∧ IsExponent exponent

/-- The characters that numbers are made of. -/
def inNumber (c : Char) : Bool := c.isDigit || ['-', '+', '.', 'e', 'E'].contains c

/-! ## Strings -/

def hexValue? (c : Char) : Option Nat :=
  if '0' ≤ c ∧ c ≤ '9' then some (c.toNat - '0'.toNat)
  else if 'a' ≤ c ∧ c ≤ 'f' then some (c.toNat - 'a'.toNat + 10)
  else if 'A' ≤ c ∧ c ≤ 'F' then some (c.toNat - 'A'.toNat + 10)
  else none

/-- Four hexadecimal digits and the code unit that they are. -/
inductive IsUnit : List Char → Nat → Prop
  | mk {c₁ c₂ c₃ c₄ : Char} {n₁ n₂ n₃ n₄ : Nat} (h₁ : hexValue? c₁ = some n₁)
    (h₂ : hexValue? c₂ = some n₂) (h₃ : hexValue? c₃ = some n₃) (h₄ : hexValue? c₄ = some n₄) :
    IsUnit [c₁, c₂, c₃, c₄] (16 * (16 * (16 * n₁ + n₂) + n₃) + n₄)

/-- The character that a letter stands for behind a backslash. -/
def escape? (letter : Char) : Option Char :=
  [('"', '"'), ('\\', '\\'), ('/', '/'), ('b', '\x08'), ('f', '\x0c'), ('n', '\n'), ('r', '\r'),
    ('t', '\t')].lookup letter

/-- The spellings of a character in a string: itself, unless it is a quote, a backslash or a control
character, a letter behind a backslash, its code unit, or its two code units if it has two. -/
inductive SpellsChar : Char → List Char → Prop
  | plain {c : Char} (hcontrol : 32 ≤ c.toNat) (hquote : c ≠ '"') (hbackslash : c ≠ '\\') :
    SpellsChar c [c]
  | letter {c e : Char} (h : escape? e = some c) : SpellsChar c ['\\', e]
  | unit {c : Char} {ds : List Char} (h : IsUnit ds c.toNat) : SpellsChar c ('\\' :: 'u' :: ds)
  | units {c : Char} {ds ds' : List Char} {high low : Nat} (h : IsUnit ds (0xD800 + high))
    (h' : IsUnit ds' (0xDC00 + low)) (hhigh : high < 0x400) (hlow : low < 0x400)
    (hc : c.toNat = 0x10000 + 0x400 * high + low) :
    SpellsChar c ('\\' :: 'u' :: ds ++ '\\' :: 'u' :: ds')

/-- The spellings of a text in a string. -/
inductive SpellsText : List Char → List Char → Prop
  | nil : SpellsText [] []
  | cons {c : Char} {cs w ws : List Char} (h : SpellsChar c w) (rest : SpellsText cs ws) :
    SpellsText (c :: cs) (w ++ ws)

/-! ## Texts -/

/-- The spellings of a token. -/
inductive Spells : Token → List Char → Prop
  | beginArray : Spells .beginArray ['[']
  | endArray : Spells .endArray [']']
  | beginObject : Spells .beginObject ['\x7b']
  | endObject : Spells .endObject ['\x7d']
  | comma : Spells .comma [',']
  | colon : Spells .colon [':']
  | null : Spells .null ['n', 'u', 'l', 'l']
  | true : Spells (.bool true) ['t', 'r', 'u', 'e']
  | false : Spells (.bool false) ['f', 'a', 'l', 's', 'e']
  | number {w : List Char} (h : IsNumber w) : Spells (.number w) w
  | string {s : String} {w : List Char} (h : SpellsText s.toList w) :
    Spells (.string s) ('"' :: w ++ ['"'])

def isSpace (c : Char) : Bool := c == ' ' || c == '\t' || c == '\n' || c == '\r'

/-- Whether a number is over where some characters follow, since it goes on as long as it can. -/
def EndsNumber (rest : List Char) : Prop := ∀ c ∈ rest.head?, inNumber c = false

/-- Whether a token is over where some characters follow. -/
def Ends : Token → List Char → Prop
  | .number _, rest => EndsNumber rest
  | _, _ => True

/-- The characters that spell some tokens, with any white space before, between and after them. -/
inductive Lexed : List Char → List Token → Prop
  | nil : Lexed [] []
  | space {c : Char} {cs : List Char} {ts : List Token} (h : isSpace c) (rest : Lexed cs ts) :
    Lexed (c :: cs) ts
  | token {w cs : List Char} {t : Token} {ts : List Token} (h : Spells t w) (hends : Ends t cs)
    (rest : Lexed cs ts) : Lexed (w ++ cs) (t :: ts)

/-- Whether a text is a JSON text that says a document. -/
def IsText (text : String) (d : Document) : Prop := Lexed text.toList d.tokens

end Json

end CodeGauge
